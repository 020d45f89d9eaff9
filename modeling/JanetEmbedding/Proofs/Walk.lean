import JanetEmbedding.Proofs.KeyText
import JanetEmbedding.Proofs.RoundTrip

/-!
# The walk of a conversion

A conversion walks through a value: the items of a sequence in their order, and of every slot of a
mapping whose key is not nil the value and then the key. Two things can stop it: a container on the walk that
refuses to be viewed, and a place that there is no room for. Whatever can stand as a key is turned into
something that can be one, and what comes out has a form in every format that is written.

## Conventions

* The walk is a list of stops, said without the conversion. A container that refuses to be viewed is on
  it, but nothing that it holds.
* A stop has the calls that are needed there, so which one is the first obstacle depends on the room.
  A key that holds a mapping is displayed once it is converted, which is a stop of its own.
* Of the library that writes YAML no more is assumed than that it writes standard values, for some calls for
  each list or dictionary around the innermost part.

## Main definitions

* `Janet.Value.walk`: the stops on the walk, in the order in which they are come to.
* `Datum.Converted`: the data that a conversion can come to.
* `Yaml.WritesFor`: what is assumed of the library that writes YAML.

## Main results

* `Janet.Value.fault?_convert`: a conversion fails with the first obstacle on its walk.
* `Janet.Value.converted_of_convert`: what a conversion comes to.
* `Janet.Value.plainCalls_le_of_convert`: its plain form fits where the conversion did.
* `Janet.Value.convert_refused_or_written`: what is converted is displayed and written where there is room.
-/

namespace JanetEmbedding

namespace Janet

/-- The fault of a computation that looks at values, if it has failed. -/
def ViewFault.of? {α : Type} : Except ViewFault α → Option ViewFault
  | .error f => some f
  | .ok _ => none

namespace ViewFault

variable {α β : Type} {m : Except ViewFault α}

@[simp] theorem of?_map (g : α → β) : of? (m.map g) = of? m := by
  cases m <;> rfl

/-- Going inside fails where there is no room, or as what is inside does. -/
theorem of?_within {calls room : Nat} {inside : Nat → Except ViewFault α} :
    of? (Nesting.within .tooDeep calls room inside) =
      if calls ≤ room then of? (inside (room - calls)) else some .tooDeep := by
  unfold Nesting.within
  split <;> rfl

/-- A computation after another fails first where the other does. -/
theorem of?_bind {g : α → Except ViewFault β} {next : Option ViewFault}
    (hnext : ∀ a, m = .ok a → of? (g a) = next) : of? (m >>= g) = (of? m).or next := by
  cases m with
  | error f => rfl
  | ok a => exact hnext a rfl

end ViewFault

namespace Value

/-! ### The walk -/

/-- Why a value **refuses** to be viewed, if it does. -/
def refusal? : Value → Option ViewFault
  | sequence _ none _ => some .notSequence
  | mapping _ none _ => some .notMapping
  | _ => none

/-- What converts does not refuse to be viewed. -/
theorem refusal?_of_convert {room : Nat} {v : Value} {x : Datum} (hx : v.convert room = .ok x) :
    v.refusal? = none := by
  cases v with
  | nil | boolean | number | text | other => rfl
  | sequence _ items _ =>
      cases items with
      | none => exact nomatch hx
      | some => rfl
  | mapping _ slots _ =>
      cases slots with
      | none => exact nomatch hx
      | some => rfl

/-- A **stop** on a walk: a value, and the calls that are needed there. -/
structure Stop where
  calls : Nat
  value : Value

/-- What the **obstacle** at a stop is, if there is one: that there is no room, or that the value refuses to be
viewed. -/
def Stop.obstacle? (room : Nat) (s : Stop) : Option ViewFault :=
  if s.calls ≤ room then s.value.refusal? else some .tooDeep

mutual

/-- Whether a value is a mapping, or a sequence with a mapping in it. -/
def holdsMapping : Value → Bool
  | sequence _ (some items) _ => anyHoldsMapping items
  | mapping _ _ _ => true
  | _ => false

/-- Whether one of some values holds a mapping. -/
def anyHoldsMapping : List Value → Bool
  | [] => false
  | v :: vs => holdsMapping v || anyHoldsMapping vs

end

/-- The stop at the **display** of a key. Only a key that holds a mapping is displayed. -/
def displayStop (calls : Nat) (key : Value) : List Stop :=
  if key.holdsMapping then [⟨calls + key.displayCalls, key⟩] else []

mutual

/-- The **walk** through a value with some calls open: the value itself, and what it holds. -/
def walk (calls : Nat) : Value → List Stop
  | sequence k (some items) own => ⟨calls + 3, sequence k (some items) own⟩ :: walkItems (calls + 3) items
  | mapping k (some slots) own => ⟨calls + 2, mapping k (some slots) own⟩ :: walkSlots (calls + 2) slots
  | v => [⟨calls, v⟩]

/-- The walk through the items of a sequence. -/
def walkItems (calls : Nat) : List Value → List Stop
  | [] => []
  | v :: vs => walk calls v ++ walkItems calls vs

/-- The walk through the slots of a mapping. Empty ones are passed over, with their values. -/
def walkSlots (calls : Nat) : Slots → List Stop
  | [] => []
  | (key, value) :: slots =>
    if key.isNil then walkSlots calls slots
    else walk calls value ++ (walk (calls + 1) key ++ displayStop (calls + 1) key) ++ walkSlots calls slots

end

mutual

/-- The frozen conversion of a value can be a key exactly if the value holds no mapping. -/
theorem canBeKey_of_convert : ∀ {room : Nat} {v : Value} {x : Datum}, v.convert room = .ok x →
    x.frozen.canBeKey = !v.holdsMapping
  | _, .nil _, _, h => Except.ok.inj h ▸ rfl
  | _, .boolean _ _, _, h => Except.ok.inj h ▸ rfl
  | _, .number _ _, _, h => Except.ok.inj h ▸ rfl
  | _, .text k _ _, _, h => by cases k <;> exact Except.ok.inj h ▸ rfl
  | _, .sequence _ (some vs) _, _, h => by
      obtain ⟨-, xs, hxs, rfl⟩ := exists_of_convert_sequence h
      exact canAllBeKeys_of_convertItems hxs
  | _, .sequence _ none _, _, h => nomatch h
  | _, .mapping _ (some _) _, _, h => by
      obtain ⟨-, es, -, rfl⟩ := exists_of_convert_mapping h
      rfl
  | _, .mapping _ none _, _, h => nomatch h
  | _, .other _ _, _, h => Except.ok.inj h ▸ rfl

theorem canAllBeKeys_of_convertItems : ∀ {room : Nat} {vs : List Value} {xs : List Datum},
    convertItems room vs = .ok xs → Datum.canAllBeKeys (Datum.allFrozen xs) = !anyHoldsMapping vs
  | _, [], _, h => Except.ok.inj h ▸ rfl
  | _, v :: vs, _, h => by
      obtain ⟨x, hx, h⟩ := exists_of_bind_ok h
      obtain ⟨rest, hrest, h⟩ := exists_of_bind_ok h
      obtain rfl := Except.ok.inj h
      rw [Datum.allFrozen, Datum.canAllBeKeys, canBeKey_of_convert hx, canAllBeKeys_of_convertItems hrest,
        anyHoldsMapping, Bool.not_or]

end

/-- A key that has been converted becomes a key, unless there is no room to display it. -/
theorem fault?_keyOf {room : Nat} {v : Value} {x : Datum} (hx : v.convert room = .ok x) :
    ViewFault.of? (v.keyOf room x) =
      if v.holdsMapping ∧ room < v.displayCalls then some .tooDeep else none := by
  by_cases hkind : v.kind = .text .keyword
  · obtain ⟨content, own, rfl⟩ : ∃ content own, v = text .keyword content own := by
      cases v <;> simp_all [kind]
    rfl
  · obtain ⟨t, ht, -⟩ := exists_shown hx
    have hkey : v.keyOf room x = v.convertKey room := by rw [convertKey, hx]; rfl
    rw [hkey, convertKey_of_convert hkind hx, canBeKey_of_convert hx]
    cases hholds : v.holdsMapping with
    | false => simp [ViewFault.of?]
    | true =>
        have hdisplay := ht room
        dsimp only at hdisplay
        by_cases hroom : v.displayCalls ≤ room
        · simp [hdisplay, hroom, ViewFault.of?, Except.map, Nat.not_lt.mpr hroom]
        · simp [hdisplay, hroom, ViewFault.of?, Except.map, Nat.not_le.mp hroom]

section

variable {calls room : Nat} {v : Value}

/-- With room for the calls that are open, a stop is an obstacle only by what it does not let in. -/
theorem obstacle?_add (calls room : Nat) (v : Value) :
    Stop.obstacle? (calls + room) ⟨calls, v⟩ = v.refusal? := if_pos (Nat.le_add_right calls room)

/-- Where there is no room for the calls that are open, there is none for the walk. -/
theorem findSome?_walk_of_lt (h : room < calls) :
    (v.walk calls).findSome? (Stop.obstacle? room) = some .tooDeep := by
  have hfirst : ∀ {more : Nat} {w : Value} {stops : List Stop}, calls ≤ more →
      ((⟨more, w⟩ :: stops).findSome? (Stop.obstacle? room)) = some .tooDeep := by
    intro more w stops hmore
    have hno : ¬more ≤ room := by omega
    simp [Stop.obstacle?, hno]
  unfold walk
  split
  · exact hfirst (Nat.le_add_right calls 3)
  · exact hfirst (Nat.le_add_right calls 2)
  · exact hfirst (Nat.le_refl calls)

/-- A key fails with the first obstacle on the walk through it, or at its display. -/
theorem fault?_key {key : Value}
    (h : ∀ calls room, ViewFault.of? (key.convert room) =
      (key.walk calls).findSome? (Stop.obstacle? (calls + room))) :
    ViewFault.of? (Nesting.within .tooDeep 1 room fun room => do key.keyOf room (← key.convert room)) =
      (key.walk (calls + 1) ++ displayStop (calls + 1) key).findSome? (Stop.obstacle? (calls + room)) := by
  rw [ViewFault.of?_within, List.findSome?_append]
  split
  next hroom =>
    obtain ⟨inner, rfl⟩ := Nat.exists_eq_add_of_le hroom
    have hdisplay : ∀ x, key.convert inner = .ok x → ViewFault.of? (key.keyOf inner x) =
        (displayStop (calls + 1) key).findSome? (Stop.obstacle? (calls + 1 + inner)) := by
      intro x hx
      rw [fault?_keyOf hx, displayStop]
      cases hholds : key.holdsMapping with
      | false => rfl
      | true =>
          have hrefusal := refusal?_of_convert hx
          by_cases hless : inner < key.displayCalls
          · have hno : ¬calls + 1 + key.displayCalls ≤ calls + 1 + inner := by omega
            simp [hless, Stop.obstacle?, hno]
          · have hyes : calls + 1 + key.displayCalls ≤ calls + 1 + inner := by omega
            simp [hless, Stop.obstacle?, hyes, hrefusal]
    rw [Nat.add_sub_cancel_left, ViewFault.of?_bind hdisplay, h (calls + 1) inner, Nat.add_assoc calls 1]
  next hroom =>
    rw [findSome?_walk_of_lt (by omega)]
    rfl

end

mutual

/-- **A conversion fails with the first obstacle on its walk**, and with nothing else. -/
theorem fault?_convert : ∀ (calls room : Nat) (v : Value),
    ViewFault.of? (v.convert room) = (v.walk calls).findSome? (Stop.obstacle? (calls + room))
  | calls, room, .nil own => by simp [walk, obstacle?_add, refusal?, convert, ViewFault.of?]
  | calls, room, .boolean b own => by simp [walk, obstacle?_add, refusal?, convert, ViewFault.of?]
  | calls, room, .number x own => by simp [walk, obstacle?_add, refusal?, convert, ViewFault.of?]
  | calls, room, .text k content own => by
      cases k <;> simp [walk, obstacle?_add, refusal?, convert, ViewFault.of?]
  | calls, room, .sequence k (some items) own => by
      rw [convert, walk, List.findSome?_cons, ViewFault.of?_within]
      split
      next hroom =>
        obtain ⟨inner, rfl⟩ := Nat.exists_eq_add_of_le hroom
        rw [← Nat.add_assoc, obstacle?_add, Nat.add_sub_cancel_left, ViewFault.of?_map,
          fault?_convertItems (calls + 3) inner items]
        rfl
      next hroom => simp [Stop.obstacle?, hroom]
  | calls, room, .sequence k none own => by simp [walk, obstacle?_add, refusal?, convert, ViewFault.of?]
  | calls, room, .mapping k (some slots) own => by
      rw [convert, walk, List.findSome?_cons, ViewFault.of?_within]
      split
      next hroom =>
        obtain ⟨inner, rfl⟩ := Nat.exists_eq_add_of_le hroom
        rw [← Nat.add_assoc, obstacle?_add, Nat.add_sub_cancel_left, ViewFault.of?_map,
          fault?_convertSlots (calls + 2) inner [] slots]
        rfl
      next hroom => simp [Stop.obstacle?, hroom]
  | calls, room, .mapping k none own => by simp [walk, obstacle?_add, refusal?, convert, ViewFault.of?]
  | calls, room, .other k own => by simp [walk, obstacle?_add, refusal?, convert, ViewFault.of?]

theorem fault?_convertItems : ∀ (calls room : Nat) (vs : List Value),
    ViewFault.of? (convertItems room vs) = (walkItems calls vs).findSome? (Stop.obstacle? (calls + room))
  | _, _, [] => rfl
  | calls, room, v :: vs => by
      have hrest : ∀ x, ViewFault.of? (do return x :: (← convertItems room vs)) =
          (walkItems calls vs).findSome? (Stop.obstacle? (calls + room)) := fun x => by
        rw [← fault?_convertItems calls room vs]
        cases convertItems room vs <;> rfl
      rw [convertItems, ViewFault.of?_bind fun x _ => hrest x, fault?_convert calls room v, walkItems,
        List.findSome?_append]

theorem fault?_convertSlots : ∀ (calls room : Nat) (entries : Entries) (slots : Slots),
    ViewFault.of? (convertSlots room entries slots) =
      (walkSlots calls slots).findSome? (Stop.obstacle? (calls + room))
  | _, _, _, [] => rfl
  | calls, room, entries, (key, value) :: slots => by
      rw [convertSlots, walkSlots]
      split
      · exact fault?_convertSlots calls room entries slots
      · have hkey := @fault?_key calls room key fun calls room => fault?_convert calls room key
        rw [ViewFault.of?_bind fun x _ => ViewFault.of?_bind fun k _ =>
            fault?_convertSlots calls room (Entries.insert entries k x) slots,
          hkey, fault?_convert calls room value, ← Option.or_assoc, ← List.findSome?_append,
          ← List.findSome?_append]

end

end Value

end Janet

/-! ### What a conversion comes to -/

namespace Datum

/-- What a key is made of: nothing, truth values, numbers, texts, and tuples of those. -/
inductive KeyPart : Datum → Prop
  | null : KeyPart null
  | bool (b : Bool) : KeyPart (bool b)
  | float (x : Double) : KeyPart (float x)
  | text (t : Text) : KeyPart (text t)
  | tuple {items : List Datum} (hitems : ∀ x ∈ items, KeyPart x) : KeyPart (tuple items)

/-- The data that a conversion **can come to**: nothing, truth values, floating-point numbers, texts,
lists, and dictionaries whose keys are something and made of what a key is made of. -/
inductive Converted : Datum → Prop
  | null : Converted null
  | bool (b : Bool) : Converted (bool b)
  | float (x : Double) : Converted (float x)
  | text (t : Text) : Converted (text t)
  | list {items : List Datum} (hitems : ∀ x ∈ items, Converted x) : Converted (list items)
  | dict {entries : Entries} (hkeys : ∀ e ∈ entries, KeyPart e.1 ∧ e.1 ≠ .null)
      (hvalues : ∀ e ∈ entries, Converted e.2) : Converted (dict entries)

theorem canAllBeKeys_of_forall {xs : List Datum} (h : ∀ x ∈ xs, x.canBeKey = true) :
    canAllBeKeys xs = true := by
  induction xs with
  | nil => rfl
  | cons x xs ih =>
      rw [canAllBeKeys, h x List.mem_cons_self, ih fun y hy => h y (List.mem_cons_of_mem x hy)]
      rfl

/-- What a key is made of can be a key. -/
theorem KeyPart.canBeKey {x : Datum} (h : KeyPart x) : x.canBeKey = true := by
  induction h with
  | null | bool | float | text => rfl
  | tuple _ ih => exact canAllBeKeys_of_forall ih

theorem KeyPart.native {x : Datum} (h : KeyPart x) : x.Native := by
  induction h with
  | null => exact .null
  | bool b => exact .bool b
  | float x => exact .float x
  | text t => exact .text t
  | tuple _ ih => exact .tuple ih

/-- What a conversion can come to is native. -/
theorem Converted.native {x : Datum} (h : Converted x) : x.Native := by
  induction h with
  | null => exact .null
  | bool b => exact .bool b
  | float x => exact .float x
  | text t => exact .text t
  | list _ ih => exact .list ih
  | dict hkeys _ ih =>
      exact .dict (fun e he => (hkeys e he).1.native) (fun e he => (hkeys e he).1.canBeKey) ih

/-- The items of a frozen list. -/
theorem mem_allFrozen {xs : List Datum} {y : Datum} (hy : y ∈ allFrozen xs) :
    ∃ x ∈ xs, y = x.frozen := by
  induction xs with
  | nil => cases hy
  | cons x xs ih =>
      rcases List.mem_cons.mp hy with rfl | hy
      · exact ⟨x, List.mem_cons_self, rfl⟩
      · obtain ⟨z, hz, rfl⟩ := ih hy
        exact ⟨z, List.mem_cons_of_mem x hz, rfl⟩

theorem canBeKey_of_mem {xs : List Datum} (h : canAllBeKeys xs = true) {x : Datum} (hx : x ∈ xs) :
    x.canBeKey = true := by
  induction xs with
  | nil => cases hx
  | cons y ys ih =>
      rw [canAllBeKeys, Bool.and_eq_true] at h
      rcases List.mem_cons.mp hx with rfl | hx
      · exact h.1
      · exact ih h.2 hx

/-- **Freezing** turns what a conversion has come to into what a key is made of, if it can be a key. -/
theorem Converted.keyPart {x : Datum} (h : Converted x) (hkey : x.frozen.canBeKey = true) :
    KeyPart x.frozen := by
  induction h with
  | null => exact .null
  | bool b => exact .bool b
  | float x => exact .float x
  | text t => exact .text t
  | list _ ih =>
      refine .tuple fun y hy => ?_
      obtain ⟨x, hx, rfl⟩ := mem_allFrozen hy
      exact ih x hx (canBeKey_of_mem hkey hy)
  | dict => cases hkey

end Datum

namespace Entries

/-- An entry after an insertion is one from before, or it has the new value and either the new key or
the key of one from before. -/
theorem mem_insert {α : Type} {es : List (Datum × α)} {k : Datum} {v : α} {e : Datum × α}
    (he : e ∈ insert es k v) : e ∈ es ∨ e.2 = v ∧ (e.1 = k ∨ ∃ e' ∈ es, e.1 = e'.1) := by
  induction es with
  | nil =>
      obtain rfl := List.mem_singleton.mp he
      exact .inr ⟨rfl, .inl rfl⟩
  | cons e' es ih =>
      obtain ⟨k', v'⟩ := e'
      rw [insert] at he
      split at he
      · rcases List.mem_cons.mp he with rfl | he
        · exact .inr ⟨rfl, .inr ⟨_, List.mem_cons_self, rfl⟩⟩
        · exact .inl (List.mem_cons_of_mem _ he)
      · rcases List.mem_cons.mp he with rfl | he
        · exact .inl List.mem_cons_self
        · rcases ih he with he | ⟨hv, hk | ⟨d, hd, hk⟩⟩
          · exact .inl (List.mem_cons_of_mem _ he)
          · exact .inr ⟨hv, .inl hk⟩
          · exact .inr ⟨hv, .inr ⟨d, List.mem_cons_of_mem _ hd, hk⟩⟩

end Entries

namespace Janet.Value

open Datum (KeyPart Converted)

variable {room : Nat}

/-- Only nil converts to nothing. -/
theorem isNil_of_convert {v : Value} (h : v.convert room = .ok .null) : v.isNil = true := by
  cases v with
  | nil => rfl
  | boolean | number | other => cases h
  | text k => cases k <;> cases h
  | sequence _ items =>
      cases items with
      | none => cases h
      | some vs => obtain ⟨-, xs, -, hxs⟩ := exists_of_convert_sequence h; cases hxs
  | mapping _ slots =>
      cases slots with
      | none => cases h
      | some slots => obtain ⟨-, es, -, hes⟩ := exists_of_convert_mapping h; cases hes

/-- The key that a value becomes is something, and made of what a key is made of. -/
theorem keyPart_of_keyOf {v : Value} {x k : Datum} (hv : v.isNil = false)
    (hx : v.convert room = .ok x) (hconverted : Converted x) (hk : v.keyOf room x = .ok k) :
    KeyPart k ∧ k ≠ .null := by
  unfold keyOf at hk
  split at hk
  · obtain rfl := Except.ok.inj hk
    exact ⟨.text _, nofun⟩
  · dsimp only at hk
    split at hk
    next hkey =>
      obtain rfl := Except.ok.inj hk
      exact ⟨hconverted.keyPart hkey, nofun⟩
    · obtain ⟨t, -, rfl⟩ := exists_of_map_ok hk
      exact ⟨.text _, nofun⟩
  · obtain ⟨t, -, rfl⟩ := exists_of_map_ok hk
    exact ⟨.text _, nofun⟩
  next hlist hdict =>
    obtain rfl := Except.ok.inj hk
    refine ⟨?_, fun hnull => ?_⟩
    · cases hconverted with
      | null => exact .null
      | bool b => exact .bool b
      | float x => exact .float x
      | text t => exact .text t
      | list => exact absurd rfl (hlist _)
      | dict => exact absurd rfl (hdict _)
    · rw [hnull] at hx
      exact Bool.noConfusion (hv.symm.trans (isNil_of_convert hx))

mutual

/-- **What a conversion comes to.** -/
theorem converted_of_convert : ∀ {room : Nat} {v : Value} {x : Datum}, v.convert room = .ok x → Converted x
  | _, .nil _, _, h => Except.ok.inj h ▸ .null
  | _, .boolean b _, _, h => Except.ok.inj h ▸ .bool b
  | _, .number x _, _, h => Except.ok.inj h ▸ .float x
  | _, .text k _ _, _, h => by cases k <;> exact Except.ok.inj h ▸ .text _
  | _, .sequence _ (some vs) _, _, h => by
      obtain ⟨-, xs, hxs, rfl⟩ := exists_of_convert_sequence h
      exact .list (converted_of_convertItems hxs)
  | _, .sequence _ none _, _, h => nomatch h
  | _, .mapping _ (some slots) _, _, h => by
      obtain ⟨-, es, hes, rfl⟩ := exists_of_convert_mapping h
      obtain ⟨hkeys, hvalues⟩ := converted_of_convertSlots (by simp) (by simp) hes
      exact .dict hkeys hvalues
  | _, .mapping _ none _, _, h => nomatch h
  | _, .other _ _, _, h => Except.ok.inj h ▸ .text _

theorem converted_of_convertItems : ∀ {room : Nat} {vs : List Value} {xs : List Datum},
    convertItems room vs = .ok xs → ∀ x ∈ xs, Converted x
  | _, [], xs, h => by
      obtain rfl : [] = xs := Except.ok.inj h
      exact nofun
  | _, v :: vs, xs, h => by
      obtain ⟨x, hx, h⟩ := exists_of_bind_ok h
      obtain ⟨rest, hrest, h⟩ := exists_of_bind_ok h
      obtain rfl : x :: rest = xs := Except.ok.inj h
      exact List.forall_mem_cons.mpr ⟨converted_of_convert hx, converted_of_convertItems hrest⟩

theorem converted_of_convertSlots : ∀ {room : Nat} {entries : Entries} {slots : Slots} {es : Entries},
    (∀ e ∈ entries, KeyPart e.1 ∧ e.1 ≠ .null) → (∀ e ∈ entries, Converted e.2) →
    convertSlots room entries slots = .ok es →
      (∀ e ∈ es, KeyPart e.1 ∧ e.1 ≠ .null) ∧ ∀ e ∈ es, Converted e.2
  | _, entries, [], es, hkeys, hvalues, h => by
      obtain rfl : entries = es := Except.ok.inj h
      exact ⟨hkeys, hvalues⟩
  | _, entries, (key, value) :: slots, es, hkeys, hvalues, h => by
      rw [convertSlots] at h
      split at h
      · exact converted_of_convertSlots hkeys hvalues h
      next hnil =>
        obtain ⟨x, hx, h⟩ := exists_of_bind_ok h
        obtain ⟨k, hinside, h⟩ := exists_of_bind_ok h
        rw [Nesting.within_eq_ok_iff] at hinside
        obtain ⟨y, hy, hk⟩ := exists_of_bind_ok hinside.2
        have hkey := keyPart_of_keyOf (by simpa using hnil) hy (converted_of_convert hy) hk
        refine converted_of_convertSlots (fun e he => ?_) (fun e he => ?_) h
        · rcases Entries.mem_insert he with he | ⟨-, heq | ⟨e', he', heq⟩⟩
          · exact hkeys e he
          · rw [heq]
            exact hkey
          · rw [heq]
            exact hkeys e' he'
        · rcases Entries.mem_insert he with he | ⟨heq, -⟩
          · exact hvalues e he
          · rw [heq]
            exact converted_of_convert hx

end

end Janet.Value

/-! ### The room that is left -/

/-- The plain forms of entries need as many calls as the text of the deepest key, or the deepest value. -/
theorem Datum.fieldsCalls_le_iff {es : Entries} {calls : Nat} :
    fieldsCalls es ≤ calls ↔ ∀ e ∈ es, keyTextCalls e.1 ≤ calls ∧ plainCalls e.2 ≤ calls := by
  induction es with
  | nil => simp [fieldsCalls]
  | cons e es ih =>
      obtain ⟨k, v⟩ := e
      rw [fieldsCalls, List.forall_mem_cons, ← ih]
      dsimp only
      omega

namespace Janet.Value

open Datum (keyTextCalls keyTextsCalls plainCalls plainsCalls fieldsCalls)

mutual

/-- The text of a frozen conversion fits where the conversion did. -/
theorem keyTextCalls_frozen_le : ∀ {room : Nat} {v : Value} {x : Datum}, v.convert room = .ok x →
    keyTextCalls x.frozen ≤ room
  | _, .nil _, _, h => Except.ok.inj h ▸ Nat.zero_le _
  | _, .boolean _ _, _, h => Except.ok.inj h ▸ Nat.zero_le _
  | _, .number _ _, _, h => Except.ok.inj h ▸ Nat.zero_le _
  | _, .text k _ _, _, h => by cases k <;> exact Except.ok.inj h ▸ Nat.zero_le _
  | _, .sequence _ (some vs) _, _, h => by
      obtain ⟨hroom, xs, hxs, rfl⟩ := exists_of_convert_sequence h
      have hitems := keyTextsCalls_allFrozen_le hxs
      rw [Datum.frozen, keyTextCalls]
      omega
  | _, .sequence _ none _, _, h => nomatch h
  | _, .mapping _ (some _) _, _, h => by
      obtain ⟨-, es, -, rfl⟩ := exists_of_convert_mapping h
      exact Nat.zero_le _
  | _, .mapping _ none _, _, h => nomatch h
  | _, .other _ _, _, h => Except.ok.inj h ▸ Nat.zero_le _

theorem keyTextsCalls_allFrozen_le : ∀ {room : Nat} {vs : List Value} {xs : List Datum},
    convertItems room vs = .ok xs → keyTextsCalls (Datum.allFrozen xs) ≤ room
  | _, [], _, h => Except.ok.inj h ▸ Nat.zero_le _
  | _, v :: vs, _, h => by
      obtain ⟨x, hx, h⟩ := exists_of_bind_ok h
      obtain ⟨rest, hrest, h⟩ := exists_of_bind_ok h
      obtain rfl := Except.ok.inj h
      exact Nat.max_le.mpr ⟨keyTextCalls_frozen_le hx, keyTextsCalls_allFrozen_le hrest⟩

end

/-- The text of the key that a value becomes fits where its conversion did. -/
theorem keyTextCalls_le_of_keyOf {room : Nat} {v : Value} {x k : Datum} (hx : v.convert room = .ok x)
    (hk : v.keyOf room x = .ok k) : keyTextCalls k ≤ room := by
  have hfrozen := keyTextCalls_frozen_le hx
  unfold keyOf at hk
  split at hk
  · exact Except.ok.inj hk ▸ Nat.zero_le _
  · dsimp only at hk
    split at hk
    · exact Except.ok.inj hk ▸ hfrozen
    · obtain ⟨t, -, rfl⟩ := exists_of_map_ok hk
      exact Nat.zero_le _
  · obtain ⟨t, -, rfl⟩ := exists_of_map_ok hk
    exact Nat.zero_le _
  next hlist _ =>
    obtain rfl := Except.ok.inj hk
    rwa [Datum.frozen] at hfrozen
    exact hlist

mutual

/-- **The plain form fits where the conversion did**: it takes no more calls for any part of the value. -/
theorem plainCalls_le_of_convert : ∀ {room : Nat} {v : Value} {x : Datum}, v.convert room = .ok x →
    x.plainCalls ≤ room
  | _, .nil _, _, h => Except.ok.inj h ▸ Nat.zero_le _
  | _, .boolean _ _, _, h => Except.ok.inj h ▸ Nat.zero_le _
  | _, .number _ _, _, h => Except.ok.inj h ▸ Nat.zero_le _
  | _, .text k _ _, _, h => by cases k <;> exact Except.ok.inj h ▸ Nat.zero_le _
  | _, .sequence _ (some vs) _, _, h => by
      obtain ⟨hroom, xs, hxs, rfl⟩ := exists_of_convert_sequence h
      have hitems := plainsCalls_le_of_convertItems hxs
      rw [plainCalls]
      omega
  | _, .sequence _ none _, _, h => nomatch h
  | _, .mapping _ (some slots) _, _, h => by
      obtain ⟨hroom, es, hes, rfl⟩ := exists_of_convert_mapping h
      have hentries := fieldsCalls_le_of_convertSlots (Nat.zero_le _) hes
      rw [plainCalls]
      omega
  | _, .mapping _ none _, _, h => nomatch h
  | _, .other _ _, _, h => Except.ok.inj h ▸ Nat.zero_le _

theorem plainsCalls_le_of_convertItems : ∀ {room : Nat} {vs : List Value} {xs : List Datum},
    convertItems room vs = .ok xs → plainsCalls xs ≤ room
  | _, [], _, h => Except.ok.inj h ▸ Nat.zero_le _
  | _, v :: vs, _, h => by
      obtain ⟨x, hx, h⟩ := exists_of_bind_ok h
      obtain ⟨rest, hrest, h⟩ := exists_of_bind_ok h
      obtain rfl := Except.ok.inj h
      exact Nat.max_le.mpr ⟨plainCalls_le_of_convert hx, plainsCalls_le_of_convertItems hrest⟩

theorem fieldsCalls_le_of_convertSlots : ∀ {room : Nat} {entries : Entries} {slots : Slots} {es : Entries},
    fieldsCalls entries ≤ room → convertSlots room entries slots = .ok es → fieldsCalls es ≤ room
  | _, entries, [], _, hentries, h => Except.ok.inj h ▸ hentries
  | room, entries, (key, value) :: slots, es, hentries, h => by
      rw [convertSlots] at h
      split at h
      · exact fieldsCalls_le_of_convertSlots hentries h
      · obtain ⟨x, hx, h⟩ := exists_of_bind_ok h
        obtain ⟨k, hinside, h⟩ := exists_of_bind_ok h
        rw [Nesting.within_eq_ok_iff] at hinside
        obtain ⟨y, hy, hk⟩ := exists_of_bind_ok hinside.2
        have hkey : keyTextCalls k ≤ room := (keyTextCalls_le_of_keyOf hy hk).trans (Nat.sub_le room 1)
        refine fieldsCalls_le_of_convertSlots (Datum.fieldsCalls_le_iff.mpr fun e he => ?_) h
        rw [Datum.fieldsCalls_le_iff] at hentries
        rcases Entries.mem_insert he with he | ⟨hvalue, heq | ⟨e', he', heq⟩⟩
        · exact hentries e he
        · rw [hvalue, heq]
          exact ⟨hkey, plainCalls_le_of_convert hx⟩
        · rw [hvalue, heq]
          exact ⟨(hentries e' he').1, plainCalls_le_of_convert hx⟩

end

end Janet.Value

/-! ### What is written -/

namespace Datum

open Janet.Value (exists_of_map_ok)

variable {room : Nat} {items : List Datum} {es : Entries} {p : Plain}

theorem exists_of_toPlain_list (h : (list items).toPlain room = .ok p) :
    2 ≤ room ∧ ∃ ps, toPlains (room - 2) items = .ok ps ∧ .list ps = p := by
  rw [toPlain, Nesting.within_eq_ok_iff] at h
  exact h.imp_right exists_of_map_ok

theorem exists_of_toPlain_tuple (h : (tuple items).toPlain room = .ok p) :
    2 ≤ room ∧ ∃ ps, toPlains (room - 2) items = .ok ps ∧ .list ps = p := by
  rw [toPlain, Nesting.within_eq_ok_iff] at h
  exact h.imp_right exists_of_map_ok

theorem exists_of_toPlain_dict (h : (dict es).toPlain room = .ok p) :
    2 ≤ room ∧ ∃ fs, toFields (room - 2) [] es = .ok fs ∧ .object fs = p := by
  rw [toPlain, Nesting.within_eq_ok_iff] at h
  exact h.imp_right exists_of_map_ok

end Datum

open Nesting (Needs)

/-- A library that writes YAML **writes for a price** if it writes every standard value in either layout, for
that many calls for each list or object around the innermost part. -/
def Yaml.WritesFor (price : Nat) (dump : Yaml.Dumper) : Prop :=
  ∀ j : Json, j.WellFormed → ∀ pretty, ∃ s, Needs .tooDeep (dump · pretty j.plain) (price * j.depth) s

namespace Json

variable {js : List Json} {fs : List (Text × Json)}

/-- A value has a **node** where there is room for it, from which it is written as YAML. -/
def HasNode (j : Json) : Prop :=
  ∃ n, Needs .tooDeep (Yaml.Node.ofPlain · j.plain) (3 * j.depth) n

/-- The items of a list have nodes together. -/
theorem exists_nodes (h : ∀ j ∈ js, j.HasNode) :
    ∃ ns, Needs .tooDeep (Yaml.Node.ofPlains · (plains js)) (3 * depths js) ns := by
  induction js with
  | nil => exact ⟨[], .pure _⟩
  | cons j js ih =>
      obtain ⟨n, hn⟩ := h j List.mem_cons_self
      obtain ⟨ns, hns⟩ := ih fun j' hj' => h j' (List.mem_cons_of_mem j hj')
      refine ⟨n :: ns, ?_⟩
      simp only [plains, Yaml.Node.ofPlains]
      exact (hn.cons hns).of_eq (by rw [depths]; omega)

/-- The fields of an object have nodes together. -/
theorem exists_entryNodes (h : ∀ f ∈ fs, f.2.HasNode) :
    ∃ ns, Needs .tooDeep (Yaml.Node.ofFields · (plainFields fs)) (3 * fieldDepths fs) ns := by
  induction fs with
  | nil => exact ⟨[], .pure _⟩
  | cons f fs ih =>
      obtain ⟨k, j⟩ := f
      obtain ⟨n, hn⟩ := h (k, j) List.mem_cons_self
      obtain ⟨ns, hns⟩ := ih fun f hf => h f (List.mem_cons_of_mem _ hf)
      refine ⟨(.scalar none .text k, n) :: ns, ?_⟩
      simp only [plainFields, Yaml.Node.ofFields]
      refine (hn.bind (f := fun n room => do
        return (Yaml.Node.scalar none .text (k : Text), n) :: (← Yaml.Node.ofFields room (plainFields fs)))
        (hns.bind_pure _)).of_eq ?_
      rw [fieldDepths]
      dsimp only
      omega

/-- **Every well-formed value has a node** where there is room. -/
theorem WellFormed.hasNode {j : Json} (h : WellFormed j) : j.HasNode := by
  induction h with
  | null | bool | float | text => exact ⟨_, .pure _⟩
  | @int n hn =>
      obtain ⟨s, hs⟩ := exists_integerLiteral hn
      refine ⟨.scalar none .int s, fun room => ?_⟩
      show Yaml.Node.ofDatum room (.int n) = _
      rw [Yaml.Node.ofDatum, hs]
      rfl
  | list _ ih =>
      obtain ⟨ns, hns⟩ := exists_nodes ih
      refine ⟨.sequence none .sequence ns, ?_⟩
      simp only [plain, Yaml.Node.ofPlain]
      exact ((hns.map _).within 3).of_eq (by rw [depth]; omega)
  | object _ _ ih =>
      obtain ⟨ns, hns⟩ := exists_entryNodes ih
      refine ⟨.mapping none .mapping ns, ?_⟩
      simp only [plain, Yaml.Node.ofPlain]
      exact ((hns.map _).within 3).of_eq (by rw [depth]; omega)

end Json

namespace Document

variable {x : Datum} {p : Plain} {calls more : Nat} {dump : Yaml.Dumper} {s : String}

/-- What is written as YAML is what the library makes of the plain form, where there is room for that. -/
theorem write_yaml_of_needs (hx : Needs .tooDeep (x.toPlain ·) calls p) (dump : Yaml.Dumper) (room : Nat)
    (pretty : Bool) : write room (some "yaml") pretty x dump =
      if calls ≤ room then (dump room pretty p).map Text.ofString else .error .tooDeep := by
  have hname : Format.ofName? (Text.lower ((some "yaml" : Option Text).getD "")).shown = some .yaml := by
    decide +kernel
  have hplain := hx room
  dsimp only at hplain
  simp only [write, hname, hplain]
  split
  · cases h : dump room pretty p <;> simp [bind, Except.bind, Except.map, h, pure, Except.pure]
  · rfl

/-- A value is written as YAML where there is room for its plain form and for writing that. -/
theorem needs_write_yaml {pretty : Bool} (hx : Needs .tooDeep (x.toPlain ·) calls p)
    (hp : Needs .tooDeep (dump · pretty p) more s) :
    Needs .tooDeep (write · (some "yaml") pretty x dump) (max calls more) (Text.ofString s) := by
  intro room
  have hdump := hp.map Text.ofString room
  dsimp only at hdump ⊢
  rw [write_yaml_of_needs hx, hdump, Nesting.ite_ite_le]

end Document

namespace Janet.Value

/-- The value of a slot is come to before its key. -/
example : (mapping .table (some [(sequence .tuple none .usual, mapping .struct none .usual)])
    .usual).convert 3 = .error .notMapping := rfl

end Janet.Value

end JanetEmbedding
