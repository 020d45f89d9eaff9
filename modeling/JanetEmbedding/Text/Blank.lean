import JanetEmbedding.Text.Basic

/-!
# Blank characters

The blank characters of every script: the ASCII layout characters, the four ASCII information
separators, the next-line control and the Unicode space and line separators.
-/

namespace JanetEmbedding.Text

/-- The blank characters beyond ASCII. -/
def wideBlanks : List Nat :=
  [0x85, 0xA0, 0x1680, 0x2000, 0x2001, 0x2002, 0x2003, 0x2004, 0x2005, 0x2006, 0x2007, 0x2008,
    0x2009, 0x200A, 0x2028, 0x2029, 0x202F, 0x205F, 0x3000]

/-- Whether a character is one of the six ASCII layout characters: the space, the horizontal and
vertical tabs, the line and form feeds and the carriage return. -/
def isLayout (c : Char) : Bool := c == ' ' || (9 ≤ c.toNat && c.toNat ≤ 13)

/-- Whether a character is blank. -/
def isBlank (c : Char) : Bool :=
  isLayout c || (0x1C ≤ c.toNat && c.toNat ≤ 0x1F) || wideBlanks.contains c.toNat

/-- Drops the leading and the trailing items of a class. -/
def trimWith {α : Type} (p : α → Bool) (xs : List α) : List α :=
  ((xs.dropWhile p).reverse.dropWhile p).reverse

/-- A text without its leading and trailing blank characters. -/
def strip (t : Text) : Text := ⟨trimWith (fun p => p.char?.any isBlank) t.points⟩

/-- Every ASCII whitespace character of the core library is blank. -/
theorem isBlank_of_isWhitespace {c : Char} (h : c.isWhitespace) : isBlank c := by
  simp only [Char.isWhitespace, Bool.or_eq_true, decide_eq_true_eq] at h
  rcases h with ((rfl | rfl) | rfl) | rfl <;> decide

end JanetEmbedding.Text
