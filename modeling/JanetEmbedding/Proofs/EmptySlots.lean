import JanetEmbedding.Proofs.Inspection

/-!
# Empty slots are not seen

The slots of a mapping stand in the order of the interpreter's own table, in which empty ones lie between
those in use, and a slot that has been emptied can still hold a value. A conversion passes over them. This
module takes them out of a value, wherever they are, and shows that the conversion does not tell the
difference: neither in what it comes to, nor in how it fails.

## Conventions

* A value is packed through and through: in the items of sequences, in the values of slots, and in keys,
  which are frozen or displayed on their way.
* The interpreter's own text of a mapping is part of the value and says nothing of its slots. It is kept.

## Main definitions

* `Janet.Value.live`: the slots of a mapping that are in use.
* `Janet.Value.packed`: a value without the empty slots within it.

## Main results

* `Janet.Value.display_packed`: a packed value is displayed as before.
* `Janet.Value.convert_packed`: a packed value has no empty slot and is converted as before.
-/

namespace JanetEmbedding.Janet.Value

/-! ### Packing -/

/-- The slots that are **in use**: all but the empty ones. -/
def live (slots : Slots) : Slots := slots.filter fun slot => !slot.1.isNil

mutual

/-- A value **packed**: without the empty slots of any mapping within it. -/
def packed : Value → Value
  | sequence k (some items) own => sequence k (some (packedItems items)) own
  | mapping k (some slots) own => mapping k (some (packedSlots slots)) own
  | v => v

/-- The items of a sequence, packed. -/
def packedItems : List Value → List Value
  | [] => []
  | v :: vs => packed v :: packedItems vs

/-- The slots of a mapping that are in use, packed. -/
def packedSlots : Slots → Slots
  | [] => []
  | (key, value) :: slots =>
    if key.isNil then packedSlots slots else (packed key, packed value) :: packedSlots slots

end

/-- **No empty slot** is in any mapping within a value. -/
def NoneEmpty (v : Value) : Prop :=
  ∀ {k : MappingKind} {slots : Slots} {own : NativeText},
    (mapping k (some slots) own).Part v → live slots = slots

theorem packedItems_eq_map (vs : List Value) : packedItems vs = vs.map packed := by
  induction vs with
  | nil => rfl
  | cons v vs ih => rw [packedItems, ih, List.map_cons]

/-- The slots in use keep their order. -/
theorem packedSlots_eq_map (slots : Slots) :
    packedSlots slots = (live slots).map fun slot => (slot.1.packed, slot.2.packed) := by
  induction slots with
  | nil => rfl
  | cons slot slots ih =>
      obtain ⟨key, value⟩ := slot
      rw [packedSlots, ih, live]
      cases hnil : key.isNil <;> simp [live, hnil]

@[simp] theorem isNil_packed (v : Value) : v.packed.isNil = v.isNil := by
  cases v with
  | sequence _ items => cases items <;> rfl
  | mapping _ slots => cases slots <;> rfl
  | nil | boolean | number | text | other => rfl

/-- What is packed to a sequence is one. -/
theorem exists_of_packed_sequence {v : Value} {k : SequenceKind} {xs : List Value} {own : NativeText}
    (h : v.packed = sequence k (some xs) own) :
    ∃ items, v = sequence k (some items) own ∧ xs = packedItems items := by
  cases v with
  | sequence _ items =>
      cases items with
      | none => cases h
      | some items =>
          obtain ⟨rfl, hxs, rfl⟩ := Value.sequence.inj h
          exact ⟨items, rfl, (Option.some.inj hxs).symm⟩
  | mapping _ slots => cases slots <;> cases h
  | nil | boolean | number | text | other => cases h

/-- What is packed to a mapping is one. -/
theorem exists_of_packed_mapping {v : Value} {k : MappingKind} {es : Slots} {own : NativeText}
    (h : v.packed = mapping k (some es) own) :
    ∃ slots, v = mapping k (some slots) own ∧ es = packedSlots slots := by
  cases v with
  | sequence _ items => cases items <;> cases h
  | mapping _ slots =>
      cases slots with
      | none => cases h
      | some slots =>
          obtain ⟨rfl, hes, rfl⟩ := Value.mapping.inj h
          exact ⟨slots, rfl, (Option.some.inj hes).symm⟩
  | nil | boolean | number | text | other => cases h

/-- Slots that are packed come from slots in use. -/
theorem exists_of_mem_packedSlots {slots : Slots} {slot : Value × Value} (h : slot ∈ packedSlots slots) :
    ∃ s ∈ live slots, slot = (s.1.packed, s.2.packed) := by
  rw [packedSlots_eq_map] at h
  obtain ⟨s, hs, heq⟩ := List.mem_map.mp h
  exact ⟨s, hs, heq.symm⟩

/-- **A packed value consists of packed parts.** -/
theorem exists_of_part_packed {x v : Value} (h : x.Part v.packed) : ∃ y : Value, x = y.packed := by
  generalize hw : v.packed = w at h
  induction h generalizing v with
  | itself => exact ⟨v, hw.symm⟩
  | item hy _ ih =>
      obtain ⟨items, -, rfl⟩ := exists_of_packed_sequence hw
      rw [packedItems_eq_map] at hy
      obtain ⟨y, -, hpacked⟩ := List.mem_map.mp hy
      exact ih hpacked
  | key hy _ ih =>
      obtain ⟨slots, -, rfl⟩ := exists_of_packed_mapping hw
      obtain ⟨slot, -, hpacked⟩ := exists_of_mem_packedSlots hy
      exact ih (Prod.mk.inj hpacked).1.symm
  | value hz _ ih =>
      obtain ⟨slots, -, rfl⟩ := exists_of_packed_mapping hw
      obtain ⟨slot, -, hpacked⟩ := exists_of_mem_packedSlots hz
      exact ih (Prod.mk.inj hpacked).2.symm

theorem live_packedSlots (slots : Slots) : live (packedSlots slots) = packedSlots slots := by
  rw [live, List.filter_eq_self]
  intro slot hslot
  obtain ⟨s, hs, rfl⟩ := exists_of_mem_packedSlots hslot
  rw [isNil_packed]
  exact (List.mem_filter.mp hs).2

/-- **A packed value has no empty slot** in any mapping within it. -/
theorem noneEmpty_packed (v : Value) : v.packed.NoneEmpty := by
  intro k slots own hpart
  obtain ⟨y, hy⟩ := exists_of_part_packed hpart
  obtain ⟨slots, -, rfl⟩ := exists_of_packed_mapping hy.symm
  exact live_packedSlots slots

/-! ### Display -/

mutual

/-- **A packed value is displayed as before.** No slot is displayed. -/
theorem display_packed : ∀ (room : Nat) (v : Value), v.packed.display room = v.display room
  | _, nil _ => rfl
  | _, boolean _ _ => rfl
  | _, number _ _ => rfl
  | _, text _ _ _ => rfl
  | _, sequence _ (some items) _ => by
      have hitems : ∀ room, displays room (packedItems items) = displays room items :=
        fun room => displays_packedItems room items
      simp only [packed, display, hitems]
  | _, sequence _ none _ => rfl
  | _, mapping _ (some _) own => by cases own <;> rfl
  | _, mapping _ none _ => rfl
  | _, other _ _ => rfl

theorem displays_packedItems : ∀ (room : Nat) (vs : List Value),
    displays room (packedItems vs) = displays room vs
  | _, [] => rfl
  | room, v :: vs => by
      rw [packedItems, displays, displays, display_packed room v, displays_packedItems room vs]

end

/-! ### Conversion -/

/-- The key that a packed value becomes. -/
theorem keyOf_packed (room : Nat) (v : Value) (x : Datum) :
    v.packed.keyOf room x = v.keyOf room x := by
  have hdisplay := display_packed room v
  cases v with
  | sequence _ items =>
      cases items with
      | none => rfl
      | some items => cases x <;> simp only [packed, keyOf] at hdisplay ⊢ <;> rw [hdisplay]
  | mapping _ slots =>
      cases slots with
      | none => rfl
      | some slots => cases x <;> simp only [packed, keyOf] at hdisplay ⊢ <;> rw [hdisplay]
  | nil | boolean | number | text | other => rfl

mutual

/-- The conversion **does not see** empty slots. -/
theorem convert_eq_of_packed : ∀ (room : Nat) (v : Value), v.packed.convert room = v.convert room
  | _, nil _ => rfl
  | _, boolean _ _ => rfl
  | _, number _ _ => rfl
  | _, text _ _ _ => rfl
  | _, sequence _ (some items) _ => by
      have hitems : ∀ room, convertItems room (packedItems items) = convertItems room items :=
        fun room => convertItems_packedItems room items
      simp only [packed, convert, hitems]
  | _, sequence _ none _ => rfl
  | _, mapping _ (some slots) _ => by
      have hslots : ∀ room, convertSlots room [] (packedSlots slots) = convertSlots room [] slots :=
        fun room => convertSlots_packedSlots room [] slots
      simp only [packed, convert, hslots]
  | _, mapping _ none _ => rfl
  | _, other _ _ => rfl

theorem convertItems_packedItems : ∀ (room : Nat) (vs : List Value),
    convertItems room (packedItems vs) = convertItems room vs
  | _, [] => rfl
  | room, v :: vs => by
      rw [packedItems, convertItems, convertItems, convert_eq_of_packed room v,
        convertItems_packedItems room vs]

theorem convertSlots_packedSlots (room : Nat) : ∀ (entries : Entries) (slots : Slots),
    convertSlots room entries (packedSlots slots) = convertSlots room entries slots
  | _, [] => rfl
  | entries, (key, value) :: slots => by
      rw [packedSlots, convertSlots]
      split
      · exact convertSlots_packedSlots room entries slots
      next hnil =>
        have hrest : ∀ es, convertSlots room es (packedSlots slots) = convertSlots room es slots :=
          fun es => convertSlots_packedSlots room es slots
        have hkey : ∀ room, key.packed.convert room = key.convert room :=
          fun room => convert_eq_of_packed room key
        simp only [convertSlots, isNil_packed, hnil, convert_eq_of_packed room value, hkey,
          keyOf_packed, hrest]
        rfl

end

/-- **Empty slots are not seen.** Packed, a value has no empty slot in any mapping within it, and it is
converted as before, in whatever room: to the same data, in the same order, or with the same refusal,
whatever the empty slots held. -/
theorem convert_packed (v : Value) :
    v.packed.NoneEmpty ∧ ∀ room, v.packed.convert room = v.convert room :=
  ⟨noneEmpty_packed v, fun room => convert_eq_of_packed room v⟩

/-- A slot that has been emptied can still hold what refuses to be viewed. -/
example :
    packed (mapping .table (some [(nil .usual, sequence .array none .usual),
      (mapping .struct (some [(nil .usual, nil .usual)]) .usual, boolean true .usual)]) .usual) =
    mapping .table (some [(mapping .struct (some []) .usual, boolean true .usual)]) .usual := rfl

end JanetEmbedding.Janet.Value
