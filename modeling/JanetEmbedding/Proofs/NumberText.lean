import JanetEmbedding.Json.Text
import JanetEmbedding.Json.Token
import JanetEmbedding.Proofs.Rounding

/-!
# Numbers as atoms

The text of an integer is read as the integer, and the text of a double as the double. A double keeps its
kind: its text has a point or an exponent, and without either a number is an integer.

## Conventions

* A *numeral* is a text cut into its sign, its digits before and behind the point, and its exponent. What
  reads a number cuts a text into these parts; here the parts come first, and the text is made of them.
* A whole double is written with zeros filled in up to the point and one behind it. Its numeral has other
  digits than its decimal, and only the same value.

## Main definitions

* `Json.Numeral`: the text of a number in its parts.
* `Json.Numeral.Spells`: a numeral is the text of a decimal.
* `Json.IsAtom`: a text that is read up to its end, and as a value.

## Main results

* `Json.Numeral.splitNumber_text`: a numeral is cut into its parts.
* `Json.LeadingDigits.exists_positional`, `Json.LeadingDigits.exists_scientific`: the text of a decimal is
  a numeral, in either notation.
* `Json.isAtom_integerText`, `Json.isAtom_textWith`: numbers are read back from their texts.
-/

namespace JanetEmbedding

open Text (isAsciiDigit)
open Number (digitsValue)

/-! ### Digits -/

namespace Number

/-- Digits are read on from what has been read. -/
theorem foldl_digits (ds : List Char) (n : Nat) :
    ds.foldl (fun n d => n * 10 + (d.toNat - '0'.toNat)) n =
      n * 10 ^ ds.length + digitsValue ds := by
  rw [digitsValue]
  induction ds generalizing n with
  | nil => simp
  | cons d ds ih =>
      rw [List.foldl_cons, ih, List.foldl_cons, ih (0 * 10 + _), List.length_cons, Nat.pow_succ]
      ring

theorem digitsValue_cons (d : Char) (ds : List Char) :
    digitsValue (d :: ds) = (d.toNat - '0'.toNat) * 10 ^ ds.length + digitsValue ds := by
  rw [digitsValue, List.foldl_cons, foldl_digits, Nat.zero_mul, Nat.zero_add]

theorem digitsValue_append (ds es : List Char) :
    digitsValue (ds ++ es) = digitsValue ds * 10 ^ es.length + digitsValue es := by
  rw [digitsValue, List.foldl_append, foldl_digits]
  rfl

@[simp] theorem digitsValue_replicate_zero (k : Nat) : digitsValue (List.replicate k '0') = 0 := by
  induction k with
  | zero => rfl
  | succ k ih => simp [List.replicate_succ, digitsValue_cons, ih]

end Number

namespace Double

@[simp] theorem digitsValue_decimalDigits (n : Nat) : digitsValue (decimalDigits n) = n := by
  have hfold : ∀ (ds : List Char) (n : Nat), ds.foldl (fun n d => n * 10 + (d.toNat - '0'.toNat)) n =
      Nat.ofDigitChars 10 ds n := by
    intro ds
    induction ds with
    | nil => exact fun _ => rfl
    | cons d ds ih =>
        intro n
        rw [List.foldl_cons, ih, Nat.mul_comm]
        rfl
  exact (hfold _ 0).trans (Nat.ofDigitChars_toDigits (by decide) (by decide))

theorem decimalDigits_ne_nil (n : Nat) : decimalDigits n ≠ [] := Nat.toDigits_ne_nil

theorem isAsciiDigit_decimalDigits {n : Nat} : ∀ c ∈ decimalDigits n, isAsciiDigit c = true :=
  fun _ hc => Nat.isDigit_of_mem_toDigits (by decide) (by decide) hc

/-- The first digit of a positive number is not zero. -/
theorem head?_decimalDigits {n : Nat} (hn : n ≠ 0) : (decimalDigits n).head? ≠ some '0' := by
  induction n using Nat.strongRecOn with
  | ind n ih =>
      rw [decimalDigits]
      rcases Nat.lt_or_ge n 10 with hlt | hge
      · have hdigit : ∀ k < 10, k ≠ 0 → [Nat.digitChar k].head? ≠ some '0' := by decide
        rw [Nat.toDigits_of_lt_base hlt]
        exact hdigit n hlt hn
      · have hdiv : n / 10 ≠ 0 := by omega
        rw [Nat.toDigits_of_base_le (by decide) hge, List.head?_append_of_ne_nil _ Nat.toDigits_ne_nil]
        exact ih (n / 10) (by omega) hdiv

end Double

/-! ### The parts of a number -/

namespace Json

/-- What follows digits does not go on with a digit. -/
def NoDigit (cs : List Char) : Prop := ∀ c ∈ cs.head?, isAsciiDigit c = false

/-- Digits are split off where they end. -/
theorem takeWhile_digits {ds cs : List Char} (hds : ∀ d ∈ ds, isAsciiDigit d = true)
    (hcs : NoDigit cs) :
    (ds ++ cs).takeWhile isAsciiDigit = ds ∧ (ds ++ cs).dropWhile isAsciiDigit = cs := by
  induction ds with
  | nil =>
      cases cs with
      | nil => exact ⟨rfl, rfl⟩
      | cons c cs =>
          have hc : ¬ isAsciiDigit c = true := Bool.eq_false_iff.mp (hcs c rfl)
          exact ⟨List.takeWhile_cons_of_neg hc, List.dropWhile_cons_of_neg hc⟩
  | cons d ds ih =>
      obtain ⟨htake, hdrop⟩ := ih fun d' hd' => hds d' (List.mem_cons_of_mem _ hd')
      have hd := hds d List.mem_cons_self
      rw [List.cons_append, List.takeWhile_cons_of_pos hd, List.dropWhile_cons_of_pos hd]
      exact ⟨congrArg (d :: ·) htake, hdrop⟩

/-- The sign of a number. -/
def signText (negative : Bool) : List Char := if negative then ['-'] else []

/-- A fraction with its point, if there is one. -/
def fractionText : List Char → List Char
  | [] => []
  | d :: ds => '.' :: d :: ds

theorem fractionText_of_ne_nil {ds : List Char} (hds : ds ≠ []) : fractionText ds = '.' :: ds := by
  cases ds with
  | nil => exact absurd rfl hds
  | cons d ds => rfl

/-- The digits of an exponent. -/
def exponentDigits (e : Int) : List Char :=
  List.replicate (numberLayout.exponentWidth - (Double.decimalDigits e.natAbs).length) '0' ++
    Double.decimalDigits e.natAbs

/-- An exponent with its letter and its sign, if there is one. -/
def exponentText : Option Int → List Char
  | none => []
  | some e => 'e' :: (if e < 0 then '-' else '+') :: exponentDigits e

/-- A **numeral** is the text of a number in its parts. The digits before the point are a single zero,
or do not start with one. -/
structure Numeral where
  negative : Bool
  whole : List Char
  fraction : List Char
  exponent : Option Int
  whole_ne_nil : whole ≠ []
  whole_digits : ∀ d ∈ whole, isAsciiDigit d = true
  whole_zero : whole.head? = some '0' → whole = ['0']
  fraction_digits : ∀ d ∈ fraction, isAsciiDigit d = true

/-- The characters that numerals consist of. -/
def IsNumberChar (c : Char) : Prop := isAsciiDigit c = true ∨ c ∈ ['-', '+', '.', 'e']

theorem isAsciiDigit_exponentDigits {e : Int} : ∀ d ∈ exponentDigits e, isAsciiDigit d = true := by
  intro d hd
  rcases List.mem_append.mp hd with hd | hd
  · obtain rfl := List.eq_of_mem_replicate hd
    rfl
  · exact Double.isAsciiDigit_decimalDigits d hd

theorem isEmpty_exponentDigits (e : Int) : (exponentDigits e).isEmpty = false :=
  List.isEmpty_eq_false_iff.mpr
    (List.append_ne_nil_of_right_ne_nil _ (Double.decimalDigits_ne_nil _))

theorem noDigit_exponentText (e : Option Int) : NoDigit (exponentText e) := by
  intro c hc
  cases e with
  | none => cases hc
  | some e =>
      cases hc
      rfl

theorem noDigit_fractionText (fraction : List Char) (e : Option Int) :
    NoDigit (fractionText fraction ++ exponentText e) := by
  cases fraction with
  | nil => exact noDigit_exponentText e
  | cons d ds =>
      intro c hc
      cases hc
      rfl

namespace Token

theorem splitExponent_eq (e : Option Int) :
    splitExponent (exponentText e) = (exponentText e, []) := by
  cases e with
  | none => rfl
  | some e =>
      have hends : NoDigit [] := fun _ h => nomatch h
      have hall : ∀ d ∈ exponentDigits e, isAsciiDigit d = true := isAsciiDigit_exponentDigits
      obtain ⟨htake, hdrop⟩ := takeWhile_digits hall hends
      rw [List.append_nil] at htake hdrop
      by_cases he : e < 0 <;>
        simp [exponentText, splitExponent, he, htake, hdrop, isEmpty_exponentDigits]

theorem splitFraction_eq {fraction : List Char} (hfraction : ∀ d ∈ fraction, isAsciiDigit d = true)
    (e : Option Int) :
    splitFraction (fractionText fraction ++ exponentText e) = (fraction, exponentText e) := by
  cases fraction with
  | nil => cases e <;> rfl
  | cons d ds =>
      obtain ⟨htake, hdrop⟩ := takeWhile_digits hfraction (noDigit_exponentText e)
      rw [List.cons_append] at htake hdrop
      simp [fractionText, splitFraction, htake, hdrop]

theorem readExponent?_exponentText (e : Option Int) :
    Number.readExponent? (exponentText e) = some (e.getD 0) := by
  cases e with
  | none => rfl
  | some e =>
      have hdigits : (exponentDigits e).all isAsciiDigit = true :=
        List.all_eq_true.mpr isAsciiDigit_exponentDigits
      have hne := isEmpty_exponentDigits e
      have hvalue : digitsValue (exponentDigits e) = e.natAbs := by
        rw [exponentDigits, Number.digitsValue_append, Number.digitsValue_replicate_zero,
          Double.digitsValue_decimalDigits, Nat.zero_mul, Nat.zero_add]
      by_cases he : e < 0
      · simp [exponentText, Number.readExponent?, Number.splitSign, he, hdigits, hne, hvalue]
        exact (abs_of_neg he).symm ▸ neg_neg e
      · simp [exponentText, Number.readExponent?, Number.splitSign, he, hdigits, hne, hvalue]
        omega

end Token

namespace Numeral

open Token

/-- The characters of a numeral. -/
def text (n : Numeral) : List Char :=
  signText n.negative ++ (n.whole ++ (fractionText n.fraction ++ exponentText n.exponent))

/-- The digits of a numeral with the power of ten that they stand at. -/
def decimal (n : Numeral) : Double.Decimal :=
  ⟨digitsValue (n.whole ++ n.fraction), n.exponent.getD 0 - n.fraction.length⟩

theorem isEmpty_whole (n : Numeral) : n.whole.isEmpty = false :=
  List.isEmpty_eq_false_iff.mpr n.whole_ne_nil

/-- The first character after the sign is a digit. -/
theorem exists_whole (n : Numeral) :
    ∃ d ds, n.whole = d :: ds ∧ isAsciiDigit d = true ∧ (d = '0' → ds = []) := by
  obtain ⟨d, ds, hwhole⟩ := List.exists_cons_of_ne_nil n.whole_ne_nil
  refine ⟨d, ds, hwhole, n.whole_digits d (hwhole ▸ List.mem_cons_self), ?_⟩
  rintro rfl
  have hzero := n.whole_zero (hwhole ▸ rfl)
  exact (List.cons.inj (hwhole.symm.trans hzero)).2

/-- **A numeral is split into its parts.** -/
theorem splitNumber_text (n : Numeral) :
    splitNumber n.text = ⟨n.negative, n.whole, n.fraction, exponentText n.exponent, []⟩ := by
  obtain ⟨d, ds, hwhole, hdigit, hzero⟩ := n.exists_whole
  obtain ⟨htake, -⟩ := takeWhile_digits n.whole_digits (noDigit_fractionText n.fraction n.exponent)
  have hsign : d ≠ '-' := by
    rintro rfl
    cases hdigit
  rw [hwhole, List.cons_append] at htake
  rw [text, hwhole]
  by_cases hd : d = '0'
  · obtain rfl := hzero hd
    subst hd
    cases n.negative <;>
      simp [signText, splitNumber, splitFraction_eq n.fraction_digits, splitExponent_eq]
  · cases n.negative <;>
      simp [signText, splitNumber, hsign, hd, htake, splitFraction_eq n.fraction_digits,
        splitExponent_eq]

theorem isNumberChar_text (n : Numeral) : ∀ c ∈ n.text, IsNumberChar c := by
  have hsign : ∀ c ∈ signText n.negative, IsNumberChar c := by
    cases n.negative <;> simp [signText, IsNumberChar]
  have hfraction : ∀ c ∈ fractionText n.fraction, IsNumberChar c := by
    intro c hc
    cases hds : n.fraction with
    | nil =>
        rw [hds] at hc
        cases hc
    | cons d ds =>
        rw [hds] at hc
        rcases List.mem_cons.mp hc with rfl | hc
        · exact .inr (by decide)
        · exact .inl (n.fraction_digits c (hds ▸ hc))
  have hexponent : ∀ c ∈ exponentText n.exponent, IsNumberChar c := by
    intro c hc
    cases he : n.exponent with
    | none =>
        rw [he] at hc
        cases hc
    | some e =>
        rw [he] at hc
        rcases List.mem_cons.mp hc with rfl | hc
        · exact .inr (by decide)
        · rcases List.mem_cons.mp hc with rfl | hc
          · split <;> exact .inr (by decide)
          · exact .inl (isAsciiDigit_exponentDigits c hc)
  intro c hc
  rw [text, List.mem_append, List.mem_append, List.mem_append] at hc
  rcases hc with hc | hc | hc | hc
  · exact hsign c hc
  · exact .inl (n.whole_digits c hc)
  · exact hfraction c hc
  · exact hexponent c hc

/-- No constant word is a numeral. -/
theorem ofAtom_text (n : Numeral) : ofAtom n.text = ofNumber n.text := by
  have hword : ∀ {word : String} {c : Char}, String.ofList n.text = word → c ∈ word.toList →
      IsNumberChar c := by
    rintro word c rfl hc
    rw [String.toList_ofList] at hc
    exact n.isNumberChar_text c hc
  rw [ofAtom]
  split
  next h => exact absurd (hword h (c := 'n') (by decide)) (by simp [IsNumberChar, isAsciiDigit])
  next h => exact absurd (hword h (c := 't') (by decide)) (by simp [IsNumberChar, isAsciiDigit])
  next h => exact absurd (hword h (c := 'f') (by decide)) (by simp [IsNumberChar, isAsciiDigit])
  next h => exact absurd (hword h (c := 'N') (by decide)) (by simp [IsNumberChar, isAsciiDigit])
  next h => exact absurd (hword h (c := 'I') (by decide)) (by simp [IsNumberChar, isAsciiDigit])
  next h => exact absurd (hword h (c := 'I') (by decide)) (by simp [IsNumberChar, isAsciiDigit])
  next => rfl

/-- **A numeral without a fraction and an exponent is an integer**, -/
theorem ofAtom_whole (n : Numeral) (hfraction : n.fraction = []) (hexponent : n.exponent = none)
    (hlength : n.whole.length ≤ Double.maxIntegerDigits) :
    ofAtom n.text = .scalar (.int (if n.negative then -(digitsValue n.whole : Int)
      else digitsValue n.whole)) := by
  rw [ofAtom_text, ofNumber, splitNumber_text]
  simp [n.isEmpty_whole, hfraction, hexponent, exponentText, Nat.not_lt.mpr hlength]

/-- and any other is a double. -/
theorem ofAtom_double (n : Numeral) (hparts : n.fraction ≠ [] ∨ n.exponent.isSome) :
    ofAtom n.text =
      .scalar (.float (.ofDecimal n.negative n.decimal.digits n.decimal.exponent)) := by
  have hdouble : (n.fraction.isEmpty && (exponentText n.exponent).isEmpty) = false := by
    rcases hparts with hne | hsome
    · rw [List.isEmpty_eq_false_iff.mpr hne, Bool.false_and]
    · obtain ⟨e, he⟩ := Option.isSome_iff_exists.mp hsome
      rw [he]
      exact Bool.and_false _
  rw [ofAtom_text, ofNumber, splitNumber_text]
  simp only [n.isEmpty_whole, hdouble, readExponent?_exponentText]
  rfl

/-- A numeral **spells** a decimal of a sign: it is the text of the decimal, not that of an integer,
and its digits stand for the value. -/
structure Spells (n : Numeral) (s : Bool) (cs : List Char) (d : Double.Decimal) : Prop where
  text : n.text = signText s ++ cs
  negative : n.negative = s
  marked : n.fraction ≠ [] ∨ n.exponent.isSome
  exponent : min d.exponent (-1) ≤ n.decimal.exponent
  value : n.decimal.value = d.value

end Numeral

/-! ### Decimals as numerals -/

variable {d : Double.Decimal} {ds : List Char}

/-- The **leading digits** of a number: its digits, of which the first is not zero. -/
structure LeadingDigits (ds : List Char) (n : Nat) : Prop where
  ne_nil : ds ≠ []
  digits : ∀ c ∈ ds, isAsciiDigit c = true
  head : ds.head? ≠ some '0'
  value : digitsValue ds = n

theorem leadingDigits {n : Nat} (hn : n ≠ 0) : LeadingDigits (Double.decimalDigits n) n :=
  ⟨Double.decimalDigits_ne_nil n, Double.isAsciiDigit_decimalDigits, Double.head?_decimalDigits hn,
    Double.digitsValue_decimalDigits n⟩

namespace LeadingDigits

/-- Digits behind the point, with zeros between. -/
theorem exists_below (h : LeadingDigits ds d.digits) (s : Bool) {zeros : Nat}
    (hzeros : d.exponent + ds.length = -zeros) :
    ∃ n : Numeral, n.Spells s ('0' :: '.' :: (List.replicate zeros '0' ++ ds)) d := by
  have hne := List.append_ne_nil_of_right_ne_nil (List.replicate zeros '0') h.ne_nil
  have hdigits : ∀ c ∈ List.replicate zeros '0' ++ ds, isAsciiDigit c = true := by
    intro c hc
    rcases List.mem_append.mp hc with hc | hc
    · exact List.eq_of_mem_replicate hc ▸ rfl
    · exact h.digits c hc
  let n : Numeral :=
    ⟨s, ['0'], List.replicate zeros '0' ++ ds, none, List.cons_ne_nil '0' [],
      List.all_eq_true.mp rfl, fun _ => rfl, hdigits⟩
  have hdecimal : n.decimal = d := by
    have hvalue : digitsValue (['0'] ++ (List.replicate zeros '0' ++ ds)) = d.digits := by
      rw [Number.digitsValue_append, Number.digitsValue_append, Number.digitsValue_replicate_zero,
        h.value]
      simp [digitsValue]
    have hexponent : (0 : Int) - (List.replicate zeros '0' ++ ds).length = d.exponent := by
      rw [List.length_append, List.length_replicate]
      omega
    exact congrArg₂ Double.Decimal.mk hvalue hexponent
  refine ⟨n, ?_, rfl, .inl hne, hdecimal ▸ Int.min_le_left .., hdecimal ▸ rfl⟩
  simp [Numeral.text, n, exponentText, fractionText_of_ne_nil hne]

/-- Digits with zeros filled in up to the point. -/
theorem exists_above (h : LeadingDigits ds d.digits) (s : Bool) {zeros : Nat}
    (hzeros : d.exponent = zeros) :
    ∃ n : Numeral, n.Spells s (ds ++ List.replicate zeros '0' ++ ['.', '0']) d := by
  have hdigits : ∀ c ∈ ds ++ List.replicate zeros '0', isAsciiDigit c = true := by
    intro c hc
    rcases List.mem_append.mp hc with hc | hc
    · exact h.digits c hc
    · exact List.eq_of_mem_replicate hc ▸ rfl
  have hhead : (ds ++ List.replicate zeros '0').head? ≠ some '0' := by
    rw [List.head?_append_of_ne_nil _ h.ne_nil]
    exact h.head
  let n : Numeral := ⟨s, ds ++ List.replicate zeros '0', ['0'], none,
    List.append_ne_nil_of_left_ne_nil h.ne_nil _, hdigits, fun hzero => absurd hzero hhead,
    List.all_eq_true.mp rfl⟩
  have hvalue : digitsValue (ds ++ List.replicate zeros '0' ++ ['0']) =
      d.digits * 10 ^ (zeros + 1) := by
    rw [List.append_assoc, ← List.replicate_succ', Number.digitsValue_append, h.value,
      Number.digitsValue_replicate_zero, List.length_replicate, Nat.add_zero]
  refine ⟨n, ?_, rfl, .inl (List.cons_ne_nil '0' []), Int.min_le_right .., ?_⟩
  · simp [Numeral.text, n, exponentText, fractionText]
  · show ((digitsValue (ds ++ List.replicate zeros '0' ++ ['0']) : Nat) : ℚ) * 10 ^ (0 - 1 : Int) =
      d.digits * 10 ^ d.exponent
    rw [hvalue, hzeros, zpow_natCast, pow_succ]
    push_cast
    rw [zpow_neg_one]
    field_simp

/-- The point stands between the digits. -/
theorem exists_between (h : LeadingDigits ds d.digits) (s : Bool) {point : Nat}
    (hpoint : d.exponent + ds.length = point) (hpos : 0 < point) (hlt : point < ds.length) :
    ∃ n : Numeral, n.Spells s (ds.take point ++ '.' :: ds.drop point) d := by
  have hdrop : ds.drop point ≠ [] := List.drop_eq_nil_iff.not.mpr (Nat.not_le.mpr hlt)
  have hhead : (ds.take point).head? ≠ some '0' := by
    rw [List.head?_take, if_neg hpos.ne']
    exact h.head
  have hne : ds.take point ≠ [] := List.take_eq_nil_iff.not.mpr fun hor =>
    hor.elim hpos.ne' h.ne_nil
  let n : Numeral := ⟨s, ds.take point, ds.drop point, none, hne,
    fun c hc => h.digits c (List.mem_of_mem_take hc), fun hzero => absurd hzero hhead,
    fun c hc => h.digits c (List.mem_of_mem_drop hc)⟩
  have hdecimal : n.decimal = d := by
    have hvalue : digitsValue (ds.take point ++ ds.drop point) = d.digits := by
      rw [List.take_append_drop, h.value]
    have hexponent : (0 : Int) - (ds.drop point).length = d.exponent := by
      rw [List.length_drop]
      omega
    exact congrArg₂ Double.Decimal.mk hvalue hexponent
  refine ⟨n, ?_, rfl, .inl hdrop, hdecimal ▸ Int.min_le_left .., hdecimal ▸ rfl⟩
  simp [Numeral.text, n, exponentText, fractionText_of_ne_nil hdrop]

/-- **A text with an exponent** is a numeral. -/
theorem exists_scientific (h : LeadingDigits ds d.digits) (s : Bool) :
    ∃ n : Numeral, n.Spells s (Double.scientific numberLayout ds (d.exponent + ds.length)) d := by
  obtain ⟨c, cs, rfl⟩ := List.exists_cons_of_ne_nil h.ne_nil
  have hhead : c ≠ '0' := fun hc => h.head (congrArg some hc)
  let n : Numeral := ⟨s, [c], cs, some (d.exponent + (c :: cs).length - 1), by simp,
    fun c' hc' => h.digits c' (List.mem_singleton.mp hc' ▸ List.mem_cons_self),
    fun hzero => absurd (Option.some.inj hzero) hhead,
    fun c' hc' => h.digits c' (List.mem_cons_of_mem c hc')⟩
  have hdecimal : n.decimal = d := by
    have hexponent : d.exponent + (c :: cs).length - 1 - cs.length = d.exponent := by
      rw [List.length_cons]
      omega
    exact congrArg₂ Double.Decimal.mk h.value hexponent
  refine ⟨n, ?_, rfl, .inr rfl, hdecimal ▸ Int.min_le_left .., hdecimal ▸ rfl⟩
  cases cs <;> simp [Numeral.text, n, exponentText, exponentDigits, fractionText, Double.scientific]

/-- **A positional text** is a numeral. -/
theorem exists_positional (h : LeadingDigits ds d.digits) (s : Bool) :
    ∃ n : Numeral, n.Spells s (Double.positional numberLayout ds (d.exponent + ds.length)) d := by
  have hlength := List.length_pos_of_ne_nil h.ne_nil
  rw [Double.positional]
  split
  next hpoint => exact h.exists_below s (by omega)
  next hpoint =>
    split
    next hlength => exact h.exists_above s (by omega)
    next hlength => exact h.exists_between s (by omega) (by omega) (by omega)

end LeadingDigits

/-! ### Atoms -/

/-- A text **is an atom** of a value: it is read up to its end, and as the value. -/
structure IsAtom (cs : List Char) (j : Json) : Prop where
  ne_nil : cs ≠ []
  chars : ∀ c ∈ cs, isAtomChar c = true
  token : Token.ofAtom cs = .scalar j

theorem isAtomChar_of_isNumberChar {c : Char} (h : IsNumberChar c) : isAtomChar c = true := by
  rcases h with hdigit | hc
  · have hdecimal : c.isDigit = true := hdigit
    rw [isAtomChar, Char.isAlphanum, hdecimal]
    simp
  · have hall : ∀ c ∈ ['-', '+', '.', 'e'], isAtomChar c = true :=
      List.all_eq_true.mp rfl
    exact hall c hc

theorem Numeral.isAtom (n : Numeral) {j : Json} (htoken : Token.ofAtom n.text = .scalar j) :
    IsAtom n.text j := by
  obtain ⟨d, ds, hwhole, -, -⟩ := n.exists_whole
  refine ⟨?_, fun c hc => isAtomChar_of_isNumberChar (n.isNumberChar_text c hc), htoken⟩
  rw [Numeral.text, hwhole]
  exact List.append_ne_nil_of_right_ne_nil _ (List.cons_ne_nil d _)

/-- **The text of an integer is read as the integer**, if it is not too long. -/
theorem isAtom_integerText {z : Int}
    (hz : (Double.decimalDigits z.natAbs).length ≤ Double.maxIntegerDigits) :
    IsAtom (integerText z) (.int z) := by
  have hzero : (Double.decimalDigits z.natAbs).head? = some '0' →
      Double.decimalDigits z.natAbs = ['0'] := by
    intro hhead
    by_cases hnatAbs : z.natAbs = 0
    · rw [hnatAbs]
      rfl
    · exact absurd hhead (Double.head?_decimalDigits hnatAbs)
  let n : Numeral := ⟨decide (z < 0), Double.decimalDigits z.natAbs, [], none,
    Double.decimalDigits_ne_nil _, Double.isAsciiDigit_decimalDigits, hzero, nofun⟩
  have htext : n.text = integerText z := by
    by_cases hneg : z < 0 <;>
      simp [Numeral.text, n, signText, fractionText, exponentText, integerText, hneg]
  have hvalue : (if n.negative then -(digitsValue n.whole : Int) else digitsValue n.whole) = z := by
    rw [show n.whole = Double.decimalDigits z.natAbs from rfl, Double.digitsValue_decimalDigits]
    by_cases hneg : z < 0
    · rw [show n.negative = true from decide_eq_true hneg, if_pos rfl]
      omega
    · rw [show n.negative = false from decide_eq_false hneg, if_neg Bool.false_ne_true]
      omega
  have htoken := n.ofAtom_whole rfl rfl hz
  rw [hvalue] at htoken
  exact htext ▸ n.isAtom htoken

/-- The text of a decimal is a numeral. -/
theorem exists_spells (hd : d.digits ≠ 0) (s : Bool) :
    ∃ n : Numeral, n.Spells s (d.text numberLayout) d := by
  rw [Double.Decimal.text, if_neg hd]
  split
  next => exact (leadingDigits hd).exists_positional s
  next => exact (leadingDigits hd).exists_scientific s

/-- A numeral that spells a decimal is read as the double of the decimal. -/
theorem Numeral.Spells.isAtom {n : Numeral} {s : Bool} {cs : List Char} (h : n.Spells s cs d)
    (hd : d.InRange) :
    IsAtom (signText s ++ cs) (.float (.ofDecimal s d.digits d.exponent)) := by
  have hrange : n.decimal.InRange := by
    have hdecimal := hd.exponent
    have hexponent := h.exponent
    exact ⟨h.value ▸ hd.lower, h.value ▸ hd.upper, by omega⟩
  have htoken := n.ofAtom_double h.marked
  rw [h.negative, hrange.ofDecimal_congr hd h.value s] at htoken
  exact h.text ▸ n.isAtom htoken

/-- **The text of a double is read as the double**, not-a-number and the infinities included. -/
theorem isAtom_textWith (x : Double) : IsAtom (x.textWith numberLayout).toList (.float x) := by
  cases x with
  | nan => exact ⟨by decide, List.all_eq_true.mp rfl, rfl⟩
  | infinite s => cases s <;> exact ⟨by decide, List.all_eq_true.mp rfl, rfl⟩
  | finite s m e hc =>
      have htext : (Double.textWith numberLayout (.finite s m e hc)).toList =
          signText s ++ (Double.shortest m e).text numberLayout := by
        cases s <;> simp [Double.textWith, signText]
      rw [htext]
      by_cases hm : m = 0
      · subst hm
        obtain rfl : e = -1074 := hc.2.2.2.resolve_left (by decide)
        cases s <;> exact ⟨by decide, List.all_eq_true.mp rfl, rfl⟩
      · have hrange := Double.inRange_shortest hc hm
        obtain ⟨n, hn⟩ := exists_spells hrange.digits_ne_zero s
        rw [← Double.ofDecimal_shortest hc s]
        exact hn.isAtom hrange

end Json

end JanetEmbedding
