/-!
# Line endings

A text file may end its lines in a line feed, a carriage return, or the two in a row.
-/

namespace JanetEmbedding.Text

/-- Reads one more character, given whether the last one was a carriage return and the text so far in
reverse. -/
def feedNewline (m : Bool × List Char) (c : Char) : Bool × List Char :=
  if c = '\r' then (true, '\n' :: m.2)
  else if c = '\n' ∧ m.1 then (false, m.2)
  else (false, c :: m.2)

/-- Turns every carriage return, and every carriage return with its line feed, into one line feed. -/
def unifyNewlines (cs : List Char) : List Char := (cs.foldl feedNewline (false, [])).2.reverse

/-- No carriage return is left. -/
theorem not_mem_unifyNewlines (cs : List Char) : '\r' ∉ unifyNewlines cs := by
  have key : ∀ (cs : List Char) (m : Bool × List Char), '\r' ∉ m.2 →
      '\r' ∉ (cs.foldl feedNewline m).2 := by
    intro cs
    induction cs with
    | nil => exact fun m h => h
    | cons c cs ih =>
      intro m h
      rw [List.foldl_cons]
      apply ih
      unfold feedNewline
      split
      · simp [h]
      · rename_i hc
        have : '\r' ≠ c := fun e => hc e.symm
        split <;> simp [h, this]
  simpa [unifyNewlines] using key cs (false, []) (by simp)

end JanetEmbedding.Text
