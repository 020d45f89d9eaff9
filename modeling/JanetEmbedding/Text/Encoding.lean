import JanetEmbedding.Text.Quoted
import JanetEmbedding.Text.Utf8

/-!
# Encoding texts

The bytes of a text. A surrogate has none, so a text in which one stands cannot be handed to anybody who
takes bytes. There are two exceptions: in the name of a file some surrogates stand for a byte each, and a
terminal is shown a question mark in place of a surrogate.

## Main definitions

* `Text.EncodingFault`: what cannot be encoded.
* `Text.encodable`: a text without surrogates, as a string.
* `Text.nameFault?`, `Text.nameBytes`: the names of files.
* `Text.terminalBytes`: what a terminal is shown.

## Main statements

* `Text.encodable_eq_ok_iff`: every string can be encoded, and no other text.
-/

namespace JanetEmbedding.Text

/-- What cannot be encoded in a text: where it starts, and the numbers of the surrogates in a row that
stand there. -/
structure EncodingFault where
  position : Nat
  codes : List Nat
  deriving DecidableEq, Repr

/-- The wording of a fault. -/
def EncodingFault.message (f : EncodingFault) : String :=
  let place := match f.codes with
    | [n] => "character '" ++ String.ofList (numberEscape n) ++ s!"' in position {f.position}"
    | ns => s!"characters in position {f.position}-{f.position + ns.length - 1}"
  "'utf-8' codec can't encode " ++ place ++ ": surrogates not allowed"

/-- The numbers of the surrogates that points start with. -/
def surrogateRun (ps : List Point) : List Nat :=
  (ps.takeWhile fun p => p.char?.isNone).map Point.code

/-- The first fault of a text, given which points have bytes. -/
def faultOf? (hasBytes : Point → Bool) (t : Text) : Option EncodingFault :=
  match t.points.dropWhile hasBytes with
  | [] => none
  | rest => some ⟨(t.points.takeWhile hasBytes).length, surrogateRun rest⟩

/-- A text as a string, or its first fault. -/
def encodable (t : Text) : Except EncodingFault String :=
  match faultOf? (·.char?.isSome) t with
  | some f => .error f
  | none => .ok t.shown

/-! ### Names of files -/

/-- The byte that a surrogate stands for in the name of a file. The surrogates of bytes that are no ASCII
characters are in a row. -/
def nameByte? (n : Fin 0x800) : Option UInt8 :=
  if 0x480 ≤ n.val ∧ n.val < 0x500 then some (UInt8.ofNat (n.val - 0x400)) else none

/-- The bytes of a point in the name of a file. -/
def namePointBytes : Point → List UInt8
  | .char c => Utf8.encode [c]
  | .surrogate n => (nameByte? n).toList

/-- The first fault of the name of a file. -/
def nameFault? (t : Text) : Option EncodingFault := 
  faultOf? (fun p => !(namePointBytes p).isEmpty) t

/-- The bytes of the name of a file. -/
def nameBytes (t : Text) : List UInt8 := t.points.flatMap namePointBytes

/-! ### Terminals -/

/-- The bytes that a terminal is shown. -/
def terminalBytes (t : Text) : List UInt8 :=
  Utf8.encode (t.points.map fun p => p.char?.getD '?')

/-! ### Laws -/

/-- A text of characters has no fault. -/
theorem faultOf?_ofChars (cs : List Char) : faultOf? (·.char?.isSome) (ofChars cs) = none := by
  have all (cs : List Char) : (cs.map Point.char).dropWhile (·.char?.isSome) = [] := by
    induction cs with
    | nil => rfl
    | cons c cs ih => simp [List.dropWhile_cons, ih]
  simp [faultOf?, all]

/-- Points none of which is a surrogate are those of some characters. -/
theorem exists_chars {ps : List Point} (all : ps.dropWhile (·.char?.isSome) = []) :
    ∃ cs : List Char, ps = cs.map .char := by
  induction ps with
  | nil => exact ⟨[], rfl⟩
  | cons p ps ih =>
    cases p with
    | char c =>
      obtain ⟨cs, rfl⟩ := ih (by simpa [List.dropWhile_cons] using all)
      exact ⟨c :: cs, rfl⟩
    | surrogate n => simp [Point.char?] at all

/-- Every string can be encoded, and no other text. -/
theorem encodable_eq_ok_iff {t : Text} {s : String} : encodable t = .ok s ↔ t = ofString s := by
  constructor
  · intro h
    unfold encodable at h
    split at h
    · cases h
    · rename_i faultless
      unfold faultOf? at faultless
      split at faultless
      · rename_i all
        obtain ⟨cs, points⟩ := exists_chars all
        obtain rfl : t = ofChars cs := congrArg Text.mk points
        obtain rfl : String.ofList cs = s := by simpa [shown_ofChars] using h
        simp [ofString]
      · cases faultless
  · rintro rfl
    simp [encodable, ofString, faultOf?_ofChars, shown_ofChars]

end JanetEmbedding.Text
