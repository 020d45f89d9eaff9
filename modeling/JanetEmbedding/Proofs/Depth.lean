import JanetEmbedding.Nesting
import Mathlib.Logic.Basic

/-!
# The calls that a walk needs

A walk through a value that comes to a result comes to it in every room that is large enough, and goes no
further in every smaller one. The number that lies between is what the walk **needs**, and it follows from the
walk: what is inside of a collection needs the calls for the collection besides its own, and of two walks one
after the other the longer one decides.

## Main definitions

* `Nesting.Needs`: a walk needs a number of calls for its result.

## Main results

* `Nesting.Needs.within`, `Nesting.Needs.bind`: what is needed inside, and for one walk after the other.
* `Nesting.Needs.eq_ok_iff`, `Nesting.Needs.unique`: when there is a result, and that there is one only.
-/

namespace JanetEmbedding.Nesting

variable {ε α β : Type} {tooDeep : ε} {walk : Nat → Except ε α} {calls more room : Nat} {a : α}

/-- A walk **needs** a number of calls for its result: where there is room for fewer it goes no further. -/
def Needs (tooDeep : ε) (walk : Nat → Except ε α) (calls : Nat) (a : α) : Prop :=
  ∀ room, walk room = if calls ≤ room then .ok a else .error tooDeep

/-- Where there has to be room for two things, there has to be room for the larger one. -/
theorem ite_ite_le {x y : Except ε α} : (if calls ≤ room then if more ≤ room then x else y else y) =
    if max calls more ≤ room then x else y := by
  by_cases hcalls : calls ≤ room
  · rw [if_pos hcalls]
    exact if_congr (by omega) rfl rfl
  · rw [if_neg hcalls, if_neg (by omega)]

namespace Needs

theorem eq_ok (h : Needs tooDeep walk calls a) (hroom : calls ≤ room) : walk room = .ok a := by
  rw [h room, if_pos hroom]

theorem eq_error (h : Needs tooDeep walk calls a) (hroom : room < calls) :
    walk room = .error tooDeep := by
  rw [h room, if_neg (Nat.not_le.mpr hroom)]

/-- There is a result exactly where there is room. -/
theorem eq_ok_iff (h : Needs tooDeep walk calls a) {b : α} :
    walk room = .ok b ↔ calls ≤ room ∧ b = a := by
  rw [h room]
  split
  next hroom => simp [hroom, eq_comm]
  next hroom => simp [hroom]

/-- **A walk has one result** and needs one number of calls for it. -/
theorem unique (h : Needs tooDeep walk calls a) {b : α} (h' : Needs tooDeep walk more b) :
    calls = more ∧ a = b := by
  have hle := (h.eq_ok_iff.mp (h'.eq_ok (Nat.le_refl more)))
  have hge := (h'.eq_ok_iff.mp (h.eq_ok (Nat.le_refl calls)))
  exact ⟨Nat.le_antisymm hle.1 hge.1, hge.2⟩

/-- The number of calls can be given in another form. -/
theorem of_eq (h : Needs tooDeep walk calls a) (hcalls : calls = more) : Needs tooDeep walk more a :=
  hcalls ▸ h

/-- What holds no collection is come to in every room. -/
theorem pure (a : α) : Needs tooDeep (fun _ => .ok a) 0 a := fun room => by
  rw [if_pos room.zero_le]

/-- **Inside of a collection** the calls for it are needed besides. -/
theorem within (h : Needs tooDeep walk calls a) (outer : Nat) :
    Needs tooDeep (fun room => within tooDeep outer room walk) (outer + calls) a := by
  intro room
  simp only [Nesting.within, h (room - outer)]
  by_cases houter : outer ≤ room
  · rw [if_pos houter]
    exact if_congr (by omega) rfl rfl
  · rw [if_neg houter, if_neg (by omega)]

theorem map (h : Needs tooDeep walk calls a) (f : α → β) :
    Needs tooDeep (fun room => (walk room).map f) calls (f a) := by
  intro room
  simp only [h room]
  split <;> rfl

theorem bind_pure (h : Needs tooDeep walk calls a) (f : α → β) :
    Needs tooDeep (fun room => do return f (← walk room)) calls (f a) := by
  intro room
  simp only [h room]
  split <;> rfl

/-- **One walk after the other** needs as many calls as the longer one. -/
theorem bind {f : α → Nat → Except ε β} {b : β} (h : Needs tooDeep walk calls a)
    (hnext : Needs tooDeep (f a) more b) :
    Needs tooDeep (fun room => walk room >>= fun a => f a room) (max calls more) b := by
  intro room
  simp only [h room]
  by_cases hcalls : calls ≤ room
  · rw [if_pos hcalls]
    show f a room = _
    rw [hnext room]
    exact if_congr (by omega) rfl rfl
  · rw [if_neg hcalls, if_neg (by omega)]
    rfl

/-- A walk through the items of a list, one after the other. -/
theorem cons {rest : Nat → Except ε (List α)} {as : List α} (h : Needs tooDeep walk calls a)
    (hrest : Needs tooDeep rest more as) :
    Needs tooDeep (fun room => do return (← walk room) :: (← rest room)) (max calls more) (a :: as) :=
  h.bind (f := fun a room => do return a :: (← rest room)) (hrest.bind_pure _)

end Needs

end JanetEmbedding.Nesting
