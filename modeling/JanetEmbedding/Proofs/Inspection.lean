import JanetEmbedding.Evaluation.Outcome

/-!
# The looks at a value

Displaying a value, or converting it, looks at it with the calls of the interpreter: first at its type,
and then at what a value of that type holds. This module goes through the same clauses as the display
and the conversion and keeps an account of every look on the way, also when one of them fails.

## Conventions

* A look is made of one **subject**, and each is one call of the interpreter. The account has the looks
  in their order.
* Before the content of a text its type is looked at once more, since only some types have content.
* What is found does not depend on the account: forgetting it gives back `Value.display`,
  `Value.convert` and `Evaluation.outcome`. So an inspection too goes no further where there is no room.

## Main definitions

* `Look`, `Inspect`: a look, and an inspection with its account.
* `Inspect.display`, `Inspect.convert`: the display and the conversion of a value.
* `Value.Part`: the values that are found within a value.
* `Evaluation.inspection`: the inspection of the value of an evaluation.

## Main results

* `Inspect.found_display`, `Inspect.found_convert`, `Evaluation.outcome_eq`: what is found.
* `Evaluation.part_of_look`: an inspection looks at the parts of its value only.
-/

namespace JanetEmbedding

namespace Janet

/-! ### Looks -/

/-- What a call can tell of a value. -/
inductive Aspect where
  | type
  /-- whether it is nil -/
  | absence
  | truth
  | number
  /-- the content of a text -/
  | content
  /-- the interpreter's own text -/
  | ownText
  | items
  | slots
  deriving DecidableEq, Repr

/-- A **look** at a value, which is one call of the interpreter. -/
structure Look where
  aspect : Aspect
  subject : Value

/-- An **inspection**: the looks so far, and what they have found unless one of them failed. -/
structure Inspect (α : Type) where
  looks : List Look
  found : Except ViewFault α

namespace Inspect

variable {α β : Type}

/-- An inspection without a look. -/
def pure (a : α) : Inspect α := ⟨[], .ok a⟩

/-- An inspection that goes on with what has been found. -/
def bind (m : Inspect α) (f : α → Inspect β) : Inspect β :=
  match m.found with
  | .ok a => ⟨m.looks ++ (f a).looks, (f a).found⟩
  | .error e => ⟨m.looks, .error e⟩

instance : Monad Inspect where
  pure := Inspect.pure
  bind := Inspect.bind

@[simp] theorem found_bind (m : Inspect α) (f : α → Inspect β) :
    (m >>= f).found = m.found >>= fun a => (f a).found := by
  show (m.bind f).found = _
  unfold bind
  cases m.found <;> rfl

/-- A look of an inspection that goes on is one of either part. -/
theorem look_of_bind {m : Inspect α} {f : α → Inspect β} {l : Look} (hl : l ∈ (m >>= f).looks) :
    l ∈ m.looks ∨ ∃ a, m.found = .ok a ∧ l ∈ (f a).looks := by
  change l ∈ (m.bind f).looks at hl
  unfold bind at hl
  cases hfound : m.found with
  | ok a =>
      rw [hfound] at hl
      rcases List.mem_append.mp hl with hl | hl
      · exact .inl hl
      · exact .inr ⟨a, rfl, hl⟩
  | error e =>
      rw [hfound] at hl
      exact .inl hl

/-! ### Single looks -/

/-- A look at a value. -/
def look (aspect : Aspect) (v : Value) : Inspect Unit := ⟨[⟨aspect, v⟩], .ok ()⟩

/-- The type of a value. -/
def kind (v : Value) : Inspect Kind := ⟨[⟨.type, v⟩], .ok v.kind⟩

/-- Whether a value is nil. -/
def isNil (v : Value) : Inspect Bool := ⟨[⟨.absence, v⟩], .ok v.isNil⟩

/-- The interpreter's own text of a value. -/
def ownText (v : Value) : Inspect String := ⟨[⟨.ownText, v⟩], .ok v.nativeText⟩

/-- The content of a text. A value of a type that has none is not asked for it. -/
def content (v : Value) : Inspect String := do
  match ← kind v with
  | .text _ => ⟨[⟨.content, v⟩], v.readText⟩
  | _ => ⟨[], v.readText⟩

/-- The items of a sequence. -/
def items (v : Value) : Inspect (List Value) := ⟨[⟨.items, v⟩], v.readItems⟩

/-- The slots of a mapping. -/
def slots (v : Value) : Inspect Slots := ⟨[⟨.slots, v⟩], v.readSlots⟩

@[simp] theorem found_isNil (v : Value) : (isNil v).found = .ok v.isNil := rfl

/-- Goes inside with some more calls open, if there is room for them. -/
def within (calls room : Nat) (inside : Nat → Inspect α) : Inspect α :=
  if calls ≤ room then inside (room - calls) else ⟨[], .error .tooDeep⟩

@[simp] theorem found_within (calls room : Nat) (inside : Nat → Inspect α) :
    (within calls room inside).found =
      Nesting.within .tooDeep calls room fun room => (inside room).found := by
  unfold within Nesting.within
  split <;> rfl

/-! ### Whole values -/

mutual

/-- The display of a value, look by look. -/
def display (room : Nat) : Value → Inspect String
  | .nil own => do
    let _ ← kind (.nil own)
    return "nil"
  | .boolean b own => do
    let _ ← kind (.boolean b own)
    look .truth (.boolean b own)
    return if b then "true" else "false"
  | .number x own => do
    let _ ← kind (.number x own)
    ownText (.number x own)
  | .text .keyword bytes own => do
    let _ ← kind (.text .keyword bytes own)
    return ":" ++ (← content (.text .keyword bytes own))
  | .text k bytes own => do
    let _ ← kind (.text k bytes own)
    content (.text k bytes own)
  | .sequence k (some xs) own => do
    let _ ← kind (.sequence k (some xs) own)
    let _ ← items (.sequence k (some xs) own)
    let parts ← within 4 room fun room => displays room xs
    return "(" ++ " ".intercalate parts ++ ")"
  | .sequence k none own => do
    let _ ← kind (.sequence k none own)
    let _ ← items (.sequence k none own)  -- which fails
    return ""
  | .mapping k slots own => do
    let _ ← kind (.mapping k slots own)
    ownText (.mapping k slots own)
  | .other k own => do
    let _ ← kind (.other k own)
    ownText (.other k own)

/-- The display of the items of a sequence. -/
def displays (room : Nat) : List Value → Inspect (List String)
  | [] => return []
  | v :: vs => do
    let part ← display room v
    return part :: (← displays room vs)

end

/-- The key that a value becomes, given its conversion. -/
def keyOf (room : Nat) (v : Value) : Datum → Inspect Datum
  | .list xs =>
    if (Datum.list xs).frozen.canBeKey then return (Datum.list xs).frozen
    else return .text (← display room v)
  | .dict _ => return .text (← display room v)
  | x => return x

/-- The key that a value becomes, given the inspection that converts it. A keyword is not converted. -/
def key (room : Nat) (v : Value) (converted : Inspect Datum) : Inspect Datum := do
  match ← kind v with
  | .text .keyword => return .text (← content v)
  | _ => keyOf room v (← converted)

mutual

/-- The conversion of a value, look by look. -/
def convert (room : Nat) : Value → Inspect Datum
  | .nil own => do
    let _ ← kind (.nil own)
    return .null
  | .boolean b own => do
    let _ ← kind (.boolean b own)
    look .truth (.boolean b own)
    return .bool b
  | .number x own => do
    let _ ← kind (.number x own)
    look .number (.number x own)
    return .float x
  | .text .keyword bytes own => do
    let _ ← kind (.text .keyword bytes own)
    return .text (":" ++ (← content (.text .keyword bytes own)))
  | .text k bytes own => do
    let _ ← kind (.text k bytes own)
    return .text (← content (.text k bytes own))
  | .sequence k (some xs) own => do
    let _ ← kind (.sequence k (some xs) own)
    let _ ← items (.sequence k (some xs) own)
    return .list (← within 3 room fun room => convertItems room xs)
  | .sequence k none own => do
    let _ ← kind (.sequence k none own)
    let _ ← items (.sequence k none own)  -- which fails
    return .null
  | .mapping k (some entries) own => do
    let _ ← kind (.mapping k (some entries) own)
    let _ ← slots (.mapping k (some entries) own)
    return .dict (← within 2 room fun room => convertSlots room [] entries)
  | .mapping k none own => do
    let _ ← kind (.mapping k none own)
    let _ ← slots (.mapping k none own)  -- which fails
    return .null
  | .other k own => do
    let _ ← kind (.other k own)
    return .text (← display room (.other k own))

/-- The conversion of the items of a sequence. -/
def convertItems (room : Nat) : List Value → Inspect (List Datum)
  | [] => return []
  | v :: vs => do
    let x ← convert room v
    return x :: (← convertItems room vs)

/-- The conversion of the slots of a mapping. The key of an empty slot is looked at, but not its value. -/
def convertSlots (room : Nat) (entries : Entries) : Slots → Inspect Entries
  | [] => return entries
  | (k, v) :: rest => do
    if ← isNil k then convertSlots room entries rest
    else
      let x ← convert room v
      let name ← within 1 room fun room => key room k (convert room k)
      convertSlots room (Entries.insert entries name x) rest

end

/-! ### What is found -/

mutual

/-- **The display looks for what it shows.** -/
theorem found_display : ∀ (room : Nat) (v : Value), (display room v).found = v.display room
  | _, .nil _ => rfl
  | _, .boolean _ _ => rfl
  | _, .number _ _ => rfl
  | _, .text k _ _ => by cases k <;> rfl
  | room, .sequence _ (some xs) _ => by
      have hparts : ∀ room, (displays room xs).found = Value.displays room xs :=
        fun room => found_displays room xs
      simp only [display, Value.display, found_bind, found_within, hparts]
      exact Nesting.within_bind
  | _, .sequence _ none _ => rfl
  | _, .mapping _ _ _ => rfl
  | _, .other _ _ => rfl

theorem found_displays : ∀ (room : Nat) (vs : List Value),
    (displays room vs).found = Value.displays room vs
  | _, [] => rfl
  | room, v :: vs => by
      simp only [displays, Value.displays, found_bind, found_display room v, found_displays room vs]
      rfl

end

theorem found_keyOf {v : Value} (hkind : v.kind ≠ .text .keyword) (room : Nat) (x : Datum) :
    (keyOf room v x).found = v.keyOf room x := by
  have hshown : (do return .text (← display room v) : Inspect Datum).found =
      Except.map Datum.text (do return Text.ofString (← v.display room)) := by
    rw [found_bind, found_display]
    cases v.display room <;> rfl
  unfold Value.keyOf
  split
  next => exact absurd rfl hkind
  next xs _ =>
    simp only [keyOf]
    split
    · rfl
    · exact hshown
  next => exact hshown
  next hlist hdict =>
    cases x with
    | list xs => exact absurd rfl (hlist xs)
    | dict entries => exact absurd rfl (hdict entries)
    | _ => rfl

/-- A key is found as the conversion makes it. -/
theorem found_key {room : Nat} {v : Value} {m : Inspect Datum} (hm : m.found = v.convert room) :
    (key room v m).found = (do v.keyOf room (← v.convert room)) := by
  by_cases hkind : v.kind = .text .keyword
  · cases v with
    | text k bytes own =>
        obtain rfl : k = .keyword := by simpa [Value.kind] using hkind
        rfl
    | nil | boolean | number | sequence | mapping | other => cases hkind
  · have hconverted : (key room v m).found = (do keyOf room v (← m)).found := by
      cases v with
      | text k bytes own => cases k <;> first | exact absurd rfl hkind | rfl
      | nil | boolean | number | sequence | mapping | other => rfl
    rw [hconverted, found_bind, hm]
    simp only [found_keyOf hkind]

mutual

/-- **The conversion looks for what it makes.** -/
theorem found_convert : ∀ (room : Nat) (v : Value), (convert room v).found = v.convert room
  | _, .nil _ => rfl
  | _, .boolean _ _ => rfl
  | _, .number _ _ => rfl
  | _, .text k _ _ => by cases k <;> rfl
  | room, .sequence _ (some xs) _ => by
      have hitems : ∀ room, (convertItems room xs).found = Value.convertItems room xs :=
        fun room => found_convertItems room xs
      simp only [convert, Value.convert, found_bind, found_within, hitems]
      exact Nesting.within_map
  | _, .sequence _ none _ => rfl
  | room, .mapping _ (some entries) _ => by
      have hslots : ∀ room, (convertSlots room [] entries).found = Value.convertSlots room [] entries :=
        fun room => found_convertSlots room [] entries
      simp only [convert, Value.convert, found_bind, found_within, hslots]
      exact Nesting.within_map
  | _, .mapping _ none _ => rfl
  | _, .other _ _ => rfl

theorem found_convertItems : ∀ (room : Nat) (vs : List Value),
    (convertItems room vs).found = Value.convertItems room vs
  | _, [] => rfl
  | room, v :: vs => by
      simp only [convertItems, Value.convertItems, found_bind, found_convert room v,
        found_convertItems room vs]
      rfl

theorem found_convertSlots (room : Nat) (entries : Entries) :
    ∀ rest : Slots, (convertSlots room entries rest).found = Value.convertSlots room entries rest
  | [] => rfl
  | (k, v) :: rest => by
      have hkey : ∀ room, (key room k (convert room k)).found =
          (do k.keyOf room (← k.convert room)) := fun room => found_key (found_convert room k)
      rw [convertSlots, Value.convertSlots, found_bind, found_isNil]
      cases hnil : k.isNil with
      | true => exact found_convertSlots room entries rest
      | false =>
          show (do
            let x ← convert room v
            let name ← within 1 room fun room => key room k (convert room k)
            convertSlots room (Entries.insert entries name x) rest).found = _
          simp only [found_bind, found_within, found_convert room v, hkey,
            found_convertSlots room _ rest, Bool.false_eq_true, if_false]

end

/-- The value of a slot is looked at before its key, and an empty slot is passed over. -/
example :
    (convert 3 (.mapping .table (some [(.nil .usual, .nil .usual),
      (.text .keyword (some [97]) .usual, .boolean true .usual)]) .usual)).looks.map (·.aspect) =
        [.type, .slots, .absence, .absence, .type, .truth, .type, .type, .content] := by
  decide +kernel

end Inspect

/-! ### What is looked at -/

/-- The values that are found **within** a value: itself, and what is within its items, keys and
values. -/
inductive Value.Part (x : Value) : Value → Prop
  | itself : Part x x
  | item {k : SequenceKind} {xs : List Value} {own : NativeText} {y : Value} (hy : y ∈ xs)
      (hx : Part x y) : Part x (.sequence k (some xs) own)
  | key {k : MappingKind} {entries : Slots} {own : NativeText} {y z : Value} (hy : (y, z) ∈ entries)
      (hx : Part x y) : Part x (.mapping k (some entries) own)
  | value {k : MappingKind} {entries : Slots} {own : NativeText} {y z : Value} (hz : (y, z) ∈ entries)
      (hx : Part x z) : Part x (.mapping k (some entries) own)

namespace Inspect

variable {α β : Type}

/-- An inspection stays **among** some values if it looks at no other. -/
def Among (p : Value → Prop) (m : Inspect α) : Prop := ∀ l ∈ m.looks, p l.subject

variable {p q : Value → Prop}

theorem among_pure (a : α) : Among p (Pure.pure a : Inspect α) := fun _ hl => nomatch hl

theorem Among.bind {m : Inspect α} {f : α → Inspect β} (hm : Among p m) (hf : ∀ a, Among p (f a)) :
    Among p (m >>= f) := by
  intro l hl
  rcases look_of_bind hl with hl | ⟨a, -, hl⟩
  · exact hm l hl
  · exact hf a l hl

theorem Among.mono {m : Inspect α} (hm : Among p m) (hpq : ∀ v, p v → q v) : Among q m :=
  fun l hl => hpq _ (hm l hl)

variable {v : Value}

theorem among_look (aspect : Aspect) (hv : p v) : Among p (look aspect v) := by
  simpa [Among, look] using hv

theorem among_kind (hv : p v) : Among p (kind v) := by
  simpa [Among, kind] using hv

theorem among_isNil (hv : p v) : Among p (isNil v) := by
  simpa [Among, isNil] using hv

theorem among_ownText (hv : p v) : Among p (ownText v) := by
  simpa [Among, ownText] using hv

theorem among_items (hv : p v) : Among p (items v) := by
  simpa [Among, items] using hv

theorem among_slots (hv : p v) : Among p (slots v) := by
  simpa [Among, slots] using hv

theorem among_within {calls room : Nat} {inside : Nat → Inspect α}
    (h : ∀ room, Among p (inside room)) : Among p (within calls room inside) := by
  unfold within
  split
  · exact h _
  · exact fun l hl => nomatch hl

theorem among_content (hv : p v) : Among p (content v) := by
  refine (among_kind hv).bind fun k => ?_
  split
  · simpa [Among] using hv
  · simp [Among]

mutual

/-- The display of a value looks at its parts only. -/
theorem among_display : ∀ (room : Nat) (v : Value), Among (·.Part v) (display room v)
  | _, .nil _ => (among_kind .itself).bind fun _ => among_pure _
  | _, .boolean _ _ =>
      (among_kind .itself).bind fun _ => (among_look _ .itself).bind fun _ => among_pure _
  | _, .number _ _ => (among_kind .itself).bind fun _ => among_ownText .itself
  | _, .text k _ _ => by
      cases k with
      | keyword =>
          exact (among_kind .itself).bind fun _ => (among_content .itself).bind fun _ => among_pure _
      | string | symbol => exact (among_kind .itself).bind fun _ => among_content .itself
  | _, .sequence _ (some xs) _ =>
      (among_kind .itself).bind fun _ => (among_items .itself).bind fun _ =>
        (among_within fun room => (among_displays room xs).mono fun _ ⟨_, hy, hx⟩ => .item hy hx).bind
          fun _ => among_pure _
  | _, .sequence _ none _ =>
      (among_kind .itself).bind fun _ => (among_items .itself).bind fun _ => among_pure _
  | _, .mapping _ _ _ => (among_kind .itself).bind fun _ => among_ownText .itself
  | _, .other _ _ => (among_kind .itself).bind fun _ => among_ownText .itself

theorem among_displays : ∀ (room : Nat) (vs : List Value),
    Among (fun x => ∃ y ∈ vs, x.Part y) (displays room vs)
  | _, [] => among_pure _
  | room, v :: vs =>
      ((among_display room v).mono fun _ hx => ⟨v, List.mem_cons_self, hx⟩).bind fun _ =>
        ((among_displays room vs).mono fun _ ⟨y, hy, hx⟩ => ⟨y, List.mem_cons_of_mem _ hy, hx⟩).bind
          fun _ => among_pure _

end

theorem among_keyOf (room : Nat) (v : Value) (x : Datum) : Among (·.Part v) (keyOf room v x) := by
  cases x with
  | list xs =>
      simp only [keyOf]
      split
      · exact among_pure _
      · exact (among_display room v).bind fun _ => among_pure _
  | dict entries => exact (among_display room v).bind fun _ => among_pure _
  | _ => exact among_pure _

theorem among_key {room : Nat} {m : Inspect Datum} (hm : Among (·.Part v) m) :
    Among (·.Part v) (key room v m) := by
  refine (among_kind .itself).bind fun k => ?_
  split
  · exact (among_content .itself).bind fun _ => among_pure _
  · exact hm.bind (among_keyOf room v)

mutual

/-- The conversion of a value looks at its parts only. -/
theorem among_convert : ∀ (room : Nat) (v : Value), Among (·.Part v) (convert room v)
  | _, .nil _ => (among_kind .itself).bind fun _ => among_pure _
  | _, .boolean _ _ | _, .number _ _ =>
      (among_kind .itself).bind fun _ => (among_look _ .itself).bind fun _ => among_pure _
  | _, .text k _ _ => by
      cases k <;>
        exact (among_kind .itself).bind fun _ => (among_content .itself).bind fun _ => among_pure _
  | _, .sequence _ (some xs) _ =>
      (among_kind .itself).bind fun _ => (among_items .itself).bind fun _ =>
        (among_within fun room => (among_convertItems room xs).mono fun _ ⟨_, hy, hx⟩ =>
          .item hy hx).bind fun _ => among_pure _
  | _, .sequence _ none _ =>
      (among_kind .itself).bind fun _ => (among_items .itself).bind fun _ => among_pure _
  | _, .mapping _ (some entries) _ =>
      (among_kind .itself).bind fun _ => (among_slots .itself).bind fun _ =>
        (among_within fun room => (among_convertSlots room [] entries).mono fun _ ⟨_, hslot, hx⟩ =>
          hx.elim (.key hslot) (.value hslot)).bind fun _ => among_pure _
  | _, .mapping _ none _ =>
      (among_kind .itself).bind fun _ => (among_slots .itself).bind fun _ => among_pure _
  | room, .other k own =>
      (among_kind .itself).bind fun _ => (among_display room (.other k own)).bind fun _ => among_pure _

theorem among_convertItems : ∀ (room : Nat) (vs : List Value),
    Among (fun x => ∃ y ∈ vs, x.Part y) (convertItems room vs)
  | _, [] => among_pure _
  | room, v :: vs =>
      ((among_convert room v).mono fun _ hx => ⟨v, List.mem_cons_self, hx⟩).bind fun _ =>
        ((among_convertItems room vs).mono fun _ ⟨y, hy, hx⟩ =>
          ⟨y, List.mem_cons_of_mem _ hy, hx⟩).bind fun _ => among_pure _

theorem among_convertSlots (room : Nat) (es : Entries) : ∀ rest : Slots,
    Among (fun x => ∃ slot ∈ rest, x.Part slot.1 ∨ x.Part slot.2) (convertSlots room es rest)
  | [] => among_pure _
  | (k, v) :: rest => by
      have hmore : ∀ es, Among (fun x => ∃ slot ∈ (k, v) :: rest, x.Part slot.1 ∨ x.Part slot.2)
          (convertSlots room es rest) := fun es =>
        (among_convertSlots room es rest).mono fun _ ⟨slot, hslot, hx⟩ =>
          ⟨slot, List.mem_cons_of_mem _ hslot, hx⟩
      refine (among_isNil ⟨(k, v), List.mem_cons_self, .inl .itself⟩).bind fun isNil => ?_
      split
      · exact hmore es
      · refine ((among_convert room v).mono fun _ hx => ⟨(k, v), List.mem_cons_self, .inr hx⟩).bind
          fun x => ?_
        exact (among_within fun room => (among_key (among_convert room k)).mono fun _ hx =>
          ⟨(k, v), List.mem_cons_self, .inl hx⟩).bind fun name => hmore _

end

end Inspect

end Janet

/-! ### The value of an evaluation -/

namespace Evaluation

open Janet

/-- The looks that make an evaluation's value what its caller wants. -/
def rendering (kind : RequestKind) (v : Value) : Inspect Rendered :=
  match kind with
  | .parse => return .data (← Inspect.convert Nesting.limit v)
  | _ => return .text (← Inspect.display Nesting.limit v)

/-- The **inspection** of the value of an evaluation: it finds how the result follows from the text
that was captured. If the evaluation has failed, its value is asked for its own text only. -/
def inspection (kind : RequestKind) (signal : Int) (v : Value) :
    Inspect (Capture.Captured → Result) :=
  if signal ≠ success then do
    let message ← Inspect.ownText v
    return fun c =>
      { status := .error, stdout := c.stdout, stderr := c.stderr
        fault := some ⟨.evaluation signal, message⟩ }
  else do
    let x ← rendering kind v
    return fun c => { status := .success, value := some x, stdout := c.stdout, stderr := c.stderr }

theorem found_rendering (kind : RequestKind) (v : Value) :
    (rendering kind v).found = render kind v := by
  cases kind with
  | parse =>
      simp only [rendering, render, Inspect.found_bind, Inspect.found_convert]
      cases v.convert Nesting.limit <;> rfl
  | execute | other =>
      simp only [rendering, render, Inspect.found_bind, Inspect.found_display]
      cases v.display Nesting.limit <;> rfl

/-- The result of an evaluation is what its inspection finds. -/
theorem outcome_eq (kind : RequestKind) (signal : Int) (v : Value) (c : Capture.Captured) :
    outcome kind signal v c = (inspection kind signal v).found.map (· c) := by
  unfold outcome inspection
  split
  · rfl
  · rw [Inspect.found_bind, found_rendering]
    cases render kind v <;> rfl

theorem among_rendering (kind : RequestKind) (v : Value) :
    Inspect.Among (·.Part v) (rendering kind v) := by
  cases kind with
  | parse => exact (Inspect.among_convert _ v).bind fun _ => Inspect.among_pure _
  | execute | other => exact (Inspect.among_display _ v).bind fun _ => Inspect.among_pure _

/-- **An inspection looks at the parts of its value only.** -/
theorem part_of_look {kind : RequestKind} {signal : Int} {v : Value} {l : Look}
    (hl : l ∈ (inspection kind signal v).looks) : l.subject.Part v := by
  have hamong : Inspect.Among (·.Part v) (inspection kind signal v) := by
    unfold inspection
    split
    · exact (Inspect.among_ownText .itself).bind fun _ => Inspect.among_pure _
    · exact (among_rendering kind v).bind fun _ => Inspect.among_pure _
  exact hamong l hl

end Evaluation

end JanetEmbedding
