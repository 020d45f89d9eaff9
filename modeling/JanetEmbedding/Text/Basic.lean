/-!
# Texts

A text is a sequence of characters. Between them halves of characters may stand alone: a document can
name a **surrogate** by its number, though no character has that number.

## Main definitions

* `Text.Point`: a character or a surrogate.
* `Text`: a text.
* `Text.ofString`, `Text.toString?`: characters alone, to and fro.
* `Text.shown`: a text as characters, as well as it can be shown.
* `Point.ofUnits`: points of units of 16 bits, in which two surrogates are one character.
-/

namespace JanetEmbedding

/-- A point of a text: a character, or a surrogate by its number from the first one on. -/
inductive Text.Point where
  | char (c : Char)
  | surrogate (n : Fin 0x800)
  deriving DecidableEq, Repr

/-- A text: its points in order. -/
structure Text where
  points : List Text.Point
  deriving DecidableEq, Repr

namespace Text

namespace Point

/-- The number of the first surrogate. -/
def firstSurrogate : Nat := 0xD800

/-- The number of surrogates, of which the first half are first halves of characters. -/
def surrogateCount : Nat := 0x800

/-- The number of a point. -/
def code : Point → Nat
  | char c => c.toNat
  | surrogate n => firstSurrogate + n

/-- The point of a number that is no greater than that of any character. -/
def ofCode (n : Nat) : Point :=
  if h : firstSurrogate ≤ n ∧ n - firstSurrogate < surrogateCount then
    surrogate ⟨n - firstSurrogate, h.2⟩
  else char (Char.ofNat n)

/-- The character that a point is, unless it is a surrogate. -/
def char? : Point → Option Char
  | char c => some c
  | surrogate _ => none

/-- Whether a point is a given character. -/
def isChar (p : Point) (c : Char) : Bool := p == char c

/-- The character that two surrogates make, if the one is a first and the other a second half. -/
def joined? : Point → Point → Option Char
  | surrogate m, surrogate n =>
    if m.val < 0x400 ∧ 0x400 ≤ n.val then some (Char.ofNat (0x10000 + m.val * 0x400 + (n.val - 0x400)))
    else none
  | _, _ => none

/-- The points of units of 16 bits: a first half with a second half behind it is one character. -/
def ofUnits : List Point → List Point
  | p :: q :: ps =>
    match joined? p q with
    | some c => char c :: ofUnits ps
    | none => p :: ofUnits (q :: ps)
  | ps => ps

/-- The character that stands where there is no character. -/
def replacement : Char := '\uFFFD'

@[simp] theorem code_char (c : Char) : (char c).code = c.toNat := rfl

@[simp] theorem char?_char (c : Char) : (char c).char? = some c := rfl

theorem ofCode_code_surrogate (n : Fin 0x800) : ofCode (surrogate n).code = surrogate n := by
  have h : n.val < surrogateCount := n.isLt
  simp [ofCode, code, h]

end Point

/-- The text of some characters. -/
def ofChars (cs : List Char) : Text := ⟨cs.map .char⟩

/-- The text of a string. -/
def ofString (s : String) : Text := ofChars s.toList

instance : Coe String Text := ⟨ofString⟩

instance : Inhabited Text := ⟨⟨[]⟩⟩

instance : Append Text := ⟨fun s t => ⟨s.points ++ t.points⟩⟩

/-- Whether a text is empty. -/
def isEmpty (t : Text) : Bool := t.points.isEmpty

/-- The number of points. -/
def length (t : Text) : Nat := t.points.length

/-- The characters of a text that has no surrogates. -/
def toChars? (t : Text) : Option (List Char) := t.points.mapM Point.char?

/-- The string of a text that has no surrogates. -/
def toString? (t : Text) : Option String := t.toChars?.map String.ofList

/-- A text as characters: two surrogates that make one are joined, and any other is replaced. -/
def shown (t : Text) : String :=
  String.ofList ((Point.ofUnits t.points).map fun p => p.char?.getD Point.replacement)

/-- Texts one after the other, set apart by another one. -/
def intercalate (separator : Text) (parts : List Text) : Text :=
  ⟨List.intercalate separator.points (parts.map points)⟩

/-! ### Laws -/

@[simp] theorem points_ofChars (cs : List Char) : (ofChars cs).points = cs.map .char := rfl

@[simp] theorem points_append (s t : Text) : (s ++ t).points = s.points ++ t.points := rfl

/-- Every text of characters alone gives them back. -/
@[simp] theorem toChars?_ofChars (cs : List Char) : (ofChars cs).toChars? = some cs := by
  unfold toChars?
  induction cs with
  | nil => rfl
  | cons c cs ih => simp_all [ofChars]

theorem ofString_ofList (cs : List Char) : ofString (String.ofList cs) = ofChars cs :=
  congrArg ofChars String.toList_ofList

/-- Every text of a string gives it back. -/
@[simp] theorem toString?_ofString (s : String) : (ofString s).toString? = some s := by
  simp [toString?, ofString]

/-- A text that has characters is the text of these. -/
theorem eq_ofChars_of_toChars? {t : Text} {cs : List Char} (h : t.toChars? = some cs) :
    t = ofChars cs := by
  obtain ⟨ps⟩ := t
  simp only [toChars?] at h
  induction ps generalizing cs with
  | nil =>
    obtain rfl : [] = cs := by simpa using h
    rfl
  | cons p ps ih =>
    simp only [List.mapM_cons, Option.bind_eq_bind, Option.bind_eq_some_iff, Option.pure_def,
      Option.some.injEq] at h
    obtain ⟨c, hc, rest, hrest, rfl⟩ := h
    cases p with
    | char d =>
      obtain rfl := Option.some.inj hc
      have hps := ih hrest
      simp only [ofChars, Text.mk.injEq] at hps
      simp [ofChars, hps]
    | surrogate n => cases hc

/-- A text that is a string is the text of it. -/
theorem eq_ofString_of_toString? {t : Text} {s : String} (h : t.toString? = some s) :
    t = ofString s := by
  obtain ⟨cs, hcs, rfl⟩ := Option.map_eq_some_iff.mp h
  rw [eq_ofChars_of_toChars? hcs, ofString_ofList]
/-- Characters alone are the characters of their units. -/
@[simp] theorem ofUnits_chars (cs : List Char) :
    Point.ofUnits (cs.map .char) = cs.map .char := by
  induction cs with
  | nil => rfl
  | cons c cs ih =>
    cases cs with
    | nil => rfl
    | cons d ds =>
      simp only [List.map_cons, Point.ofUnits, Point.joined?] at ih ⊢
      rw [ih]

/-- Characters alone are shown as they are. -/
theorem shown_ofChars (cs : List Char) : (ofChars cs).shown = String.ofList cs := by
  have chars : (fun p => (Point.char? p).getD Point.replacement) ∘ Point.char = id := rfl
  simp [shown, chars]

/-- Different strings are different texts. -/
theorem ofString_inj {s t : String} : ofString s = ofString t ↔ s = t := by
  constructor
  · intro h
    simpa using congrArg toString? h
  · rintro rfl
    rfl

end Text

end JanetEmbedding
