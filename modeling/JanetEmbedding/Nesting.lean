/-!
# How deeply values are nested

Whoever walks through a value keeps some calls open for each of the collections around the part that it is at.
The calls that can be open at once are limited. So a walk is given the number of calls that are left to it,
its **room**, and where it would need more than that it goes no further.

What a walk takes for a collection depends on the walk. What it takes for a value that holds nothing is set
aside: the room is what is left besides.

## Main definitions

* `Nesting.limit`: the room that a walk has.
* `Nesting.within`: going inside of a collection.
-/

namespace JanetEmbedding.Nesting

/-- The room that a walk through a value has. -/
def limit : Nat := 988

/-- Goes inside with some more calls open, if there is room for them. -/
def within {ε α : Type} (tooDeep : ε) (calls room : Nat) (inside : Nat → Except ε α) : Except ε α :=
  if calls ≤ room then inside (room - calls) else .error tooDeep

variable {ε α β : Type} {tooDeep : ε} {calls room : Nat} {inside : Nat → Except ε α}

@[simp] theorem within_add : within tooDeep calls (calls + room) inside = inside room := by
  simp [within]

theorem within_of_lt (h : room < calls) : within tooDeep calls room inside = .error tooDeep :=
  if_neg (Nat.not_le.mpr h)

/-- What is inside is come to only if there is room for it. -/
theorem within_eq_ok_iff {a : α} :
    within tooDeep calls room inside = .ok a ↔ calls ≤ room ∧ inside (room - calls) = .ok a := by
  unfold within
  split
  next h => exact (and_iff_right h).symm
  next h => exact iff_of_false nofun fun hinside => h hinside.1

/-- What is done with what is inside can be done on the way out. -/
theorem within_bind {f : α → Except ε β} :
    (within tooDeep calls room inside >>= f) = within tooDeep calls room fun room => inside room >>= f := by
  unfold within
  split <;> rfl

theorem within_map {f : α → β} :
    (within tooDeep calls room inside).map f =
      within tooDeep calls room fun room => (inside room).map f := by
  unfold within
  split <;> rfl

end JanetEmbedding.Nesting
