import JanetEmbedding.Text.Utf8
import Mathlib.Data.List.Infix
import Mathlib.Tactic.IntervalCases
import Mathlib.Tactic.Positivity
import Mathlib.Tactic.SplitIfs

/-!
# What bytes are read as

The machine that reads UTF-8 looks at one byte at a time and keeps a range for the next one. What it has
to come to says nothing of ranges: where a character is encoded, that character is read; and where none
is, one replacement character is read for the longest piece that some character starts with, or for one
byte if no character starts with it. This module shows that there is one way to read bytes like that, and
that it is the machine's.

## Conventions

* A byte **leads** if it is the first of a character that takes several. Of these, `owed` stand behind
  the second one, so the character takes `owed + 2` bytes, and `owed` is at most 2.
* The **value** of the bytes seen of a character is the number that their bits give, without the marks.

## Main definitions

* `Utf8.Begins`: some character starts with some bytes.
* `Utf8.MalformedStart`: the malformed piece that some bytes start with.
* `Utf8.Reads`: what bytes are to be read as.
* `Utf8.Holds`: what the machine knows inside a character.

## Main results

* `Utf8.Reads.unique`: there is one way to read bytes.
* `Utf8.Holds.append_isPrefix_iff`: which bytes the machine takes inside a character.
* `Utf8.reads_decode`: the machine reads bytes in that way.
-/

namespace JanetEmbedding.Utf8

open String (utf8EncodeChar)

/-! ### What bytes are to be read as -/

/-- Some character **starts** with these bytes. -/
def Begins (bytes : List UInt8) : Prop := ∃ c, bytes <+: utf8EncodeChar c

/-- Bytes that may be a malformed piece: some character starts with them, or they are one byte. -/
def MayStand (piece : List UInt8) : Prop := piece ≠ [] ∧ (Begins piece ∨ piece.length = 1)

/-- **The malformed piece** that bytes start with if no character is encoded there: the longest that may
be one. -/
structure MalformedStart (bytes piece : List UInt8) : Prop where
  isPrefix : piece <+: bytes
  mayStand : MayStand piece
  no_char : ∀ c, ¬ utf8EncodeChar c <+: bytes
  longest : ∀ start, start <+: bytes → MayStand start → start.length ≤ piece.length

/-- **What bytes are to be read as**: a character where one is encoded, and one replacement character for
each malformed piece. -/
inductive Reads : List UInt8 → List Char → Prop
  | nil : Reads [] []
  | char (c : Char) {rest : List UInt8} {cs : List Char} :
      Reads rest cs → Reads (utf8EncodeChar c ++ rest) (c :: cs)
  | malformed {piece rest : List UInt8} {cs : List Char} :
      MalformedStart (piece ++ rest) piece → Reads rest cs →
        Reads (piece ++ rest) (replacement :: cs)

/-- No character starts with the bytes of another. -/
theorem eq_of_isPrefix {c d : Char} (h : utf8EncodeChar c <+: utf8EncodeChar d) : c = d := by
  obtain ⟨rest, hrest⟩ := h
  have hc := ByteArray.utf8DecodeChar?_utf8EncodeChar_append (b := rest.toByteArray) (c := c)
  have hd := ByteArray.utf8DecodeChar?_utf8EncodeChar_append (b := ByteArray.empty) (c := d)
  rw [← List.toByteArray_append, hrest] at hc
  rw [ByteArray.append_empty] at hd
  exact Option.some.inj (hc.symm.trans hd)

/-! ### Malformed pieces -/

/-- A start that goes beyond some bytes goes on with the byte behind them. -/
theorem append_head_isPrefix {seen start rest : List UInt8} (hstart : start <+: seen ++ rest)
    (hlonger : seen.length < start.length) :
    ∃ b, rest.head? = some b ∧ seen ++ [b] <+: start := by
  obtain ⟨more, rfl⟩ : seen <+: start :=
    List.prefix_of_prefix_length_le (List.prefix_append _ _) hstart hlonger.le
  obtain ⟨b, more, rfl⟩ : ∃ b bs, more = b :: bs :=
    List.exists_cons_of_ne_nil (by rintro rfl; simp at hlonger)
  obtain ⟨behind, rfl⟩ := (List.prefix_append_right_inj seen).mp hstart
  exact ⟨b, rfl, more, by simp⟩

/-- A part of a character is malformed in front of a byte that the character cannot go on with. -/
theorem malformedStart_append {seen rest : List UInt8} {c : Char} (hne : seen ≠ [])
    (hseen : seen <+: utf8EncodeChar c) (hproper : seen ≠ utf8EncodeChar c)
    (hnext : ∀ b ∈ rest.head?, ¬ Begins (seen ++ [b])) : MalformedStart (seen ++ rest) seen := by
  have hlongest :
      ∀ start, start <+: seen ++ rest → MayStand start → start.length ≤ seen.length := by
    intro start hstart hmay
    by_contra! hlonger
    obtain ⟨b, hb, hmore⟩ := append_head_isPrefix hstart hlonger
    obtain ⟨d, hd⟩ | hone := hmay.2
    · exact hnext b hb ⟨d, hmore.trans hd⟩
    · have := List.length_pos_iff.mpr hne
      omega
  refine ⟨List.prefix_append _ _, ⟨hne, .inl ⟨c, hseen⟩⟩, fun d hd => ?_, hlongest⟩
  -- A character that is encoded here would be a part of the other one.
  have hle := hlongest _ hd ⟨String.utf8EncodeChar_ne_nil, .inl ⟨d, List.prefix_rfl⟩⟩
  have hdseen := List.prefix_of_prefix_length_le hd (List.prefix_append _ _) hle
  obtain rfl := eq_of_isPrefix (hdseen.trans hseen)
  exact hproper (hseen.eq_of_length_le hdseen.length_le)

/-- A byte that no character starts with is malformed. -/
theorem malformedStart_singleton {b : UInt8} {rest : List UInt8} (hb : ¬ Begins [b]) :
    MalformedStart (b :: rest) [b] := by
  have hfirst : ∀ start, start <+: b :: rest → start ≠ [] → ¬ Begins start := by
    rintro start hstart hne ⟨c, hc⟩
    obtain ⟨a, start, rfl⟩ := List.exists_cons_of_ne_nil hne
    obtain ⟨rfl, -⟩ := List.cons_prefix_cons.mp hstart
    exact hb ⟨c, (List.prefix_append [a] start).trans hc⟩
  refine ⟨⟨rest, rfl⟩, ⟨List.cons_ne_nil _ _, .inr rfl⟩, fun c hc => ?_,
    fun start hstart hmay => ?_⟩
  · exact hfirst _ hc String.utf8EncodeChar_ne_nil ⟨c, List.prefix_rfl⟩
  · obtain hbegins | hone := hmay.2
    · exact absurd hbegins (hfirst start hstart hmay.1)
    · exact hone.le

theorem MalformedStart.unique {bytes p q : List UInt8} (hp : MalformedStart bytes p)
    (hq : MalformedStart bytes q) : p = q := by
  have hpq := List.prefix_of_prefix_length_le hp.isPrefix hq.isPrefix
    (hq.longest p hp.isPrefix hp.mayStand)
  exact hpq.eq_of_length_le (hp.longest q hq.isPrefix hq.mayStand)

/-! ### There is one way to read bytes -/

theorem Reads.eq_nil {cs : List Char} (h : Reads [] cs) : cs = [] := by
  generalize hbytes : ([] : List UInt8) = bytes at h
  cases h with
  | nil => rfl
  | char c => exact absurd (List.append_eq_nil_iff.mp hbytes.symm).1 String.utf8EncodeChar_ne_nil
  | malformed hpiece => exact absurd (List.append_eq_nil_iff.mp hbytes.symm).1 hpiece.mayStand.1

/-- Where a character is encoded, it is read. -/
theorem Reads.exists_of_char {c : Char} {rest : List UInt8} {cs : List Char}
    (h : Reads (utf8EncodeChar c ++ rest) cs) : ∃ cs', cs = c :: cs' ∧ Reads rest cs' := by
  generalize hbytes : utf8EncodeChar c ++ rest = bytes at h
  cases h with
  | nil => exact absurd (List.append_eq_nil_iff.mp hbytes).1 String.utf8EncodeChar_ne_nil
  | @char d rest' cs' h =>
      have hcd : c = d := by
        obtain hcd | hdc := List.prefix_or_prefix_of_prefix ⟨rest, hbytes⟩
          (List.prefix_append (utf8EncodeChar d) rest')
        · exact eq_of_isPrefix hcd
        · exact (eq_of_isPrefix hdc).symm
      subst hcd
      obtain rfl := List.append_cancel_left hbytes
      exact ⟨_, rfl, h⟩
  | malformed hpiece => exact absurd ⟨rest, hbytes⟩ (hpiece.no_char c)

/-- Where a malformed piece stands, a replacement character is read. -/
theorem Reads.exists_of_malformed {piece rest : List UInt8} {cs : List Char}
    (hpiece : MalformedStart (piece ++ rest) piece) (h : Reads (piece ++ rest) cs) :
    ∃ cs', cs = replacement :: cs' ∧ Reads rest cs' := by
  generalize hbytes : piece ++ rest = bytes at h hpiece
  cases h with
  | nil => exact absurd (List.append_eq_nil_iff.mp hbytes).1 hpiece.mayStand.1
  | char c => exact absurd (List.prefix_append _ _) (hpiece.no_char c)
  | malformed hother h =>
      obtain rfl := hpiece.unique hother
      obtain rfl := List.append_cancel_left hbytes
      exact ⟨_, rfl, h⟩

/-- **There is one way to read bytes.** -/
theorem Reads.unique {bytes : List UInt8} {cs ds : List Char} (hc : Reads bytes cs)
    (hd : Reads bytes ds) : cs = ds := by
  induction hc generalizing ds with
  | nil => exact hd.eq_nil.symm
  | char c _ ih =>
      obtain ⟨ds, rfl, hrest⟩ := hd.exists_of_char
      rw [ih hrest]
  | malformed hpiece _ ih =>
      obtain ⟨ds, rfl, hrest⟩ := hd.exists_of_malformed hpiece
      rw [ih hrest]

/-! ### Encodings -/

/-- The last bytes of the encoding of a number, as many as are asked for. Each holds six bits. -/
def continuations (n : Nat) : Nat → List UInt8
  | 0 => []
  | k + 1 => UInt8.ofNat (n / 64 ^ k % 64 + 0x80) :: continuations n k

/-- What a byte that leads is marked with. -/
def mark : Nat → Nat
  | 0 => 0xC0
  | 1 => 0xE0
  | _ => 0xF0

/-- The least number that takes `owed + 2` bytes. -/
def least : Nat → Nat
  | 0 => 0x80
  | 1 => 0x800
  | 2 => 0x10000
  | _ => 0x110000

theorem isValidChar_iff {n : Nat} :
    n.isValidChar ↔ n < 0xD800 ∨ 0xDFFF < n ∧ n < 0x110000 := Iff.rfl

theorem toNat_ofNat {n : Nat} (h : n.isValidChar) : (Char.ofNat n).toNat = n := by
  rw [Char.ofNat, dif_pos h]
  rfl

theorem utf8EncodeChar_of_lt {c : Char} (h : c.toNat < 0x80) :
    utf8EncodeChar c = [UInt8.ofNat c.toNat] := by
  rw [utf8EncodeChar, Char.toNat_val, if_pos (by omega)]

/-- The bytes of a character that takes several. -/
theorem utf8EncodeChar_of_least_le {c : Char} {owed : Nat} (howed : owed ≤ 2)
    (hle : least owed ≤ c.toNat) (hlt : c.toNat < least (owed + 1)) :
    utf8EncodeChar c = UInt8.ofNat (mark owed + c.toNat / 64 ^ (owed + 1)) ::
      continuations c.toNat (owed + 1) := by
  interval_cases owed <;> simp only [least] at hle hlt
  · have hlead : c.toNat / 64 % 32 + 0xC0 = 0xC0 + c.toNat / 64 := by omega
    rw [utf8EncodeChar, Char.toNat_val, if_neg (by omega), if_pos (by omega), hlead]
    simp [continuations, mark]
  · have hlead : c.toNat / 4096 % 16 + 0xE0 = 0xE0 + c.toNat / 4096 := by omega
    rw [utf8EncodeChar, Char.toNat_val, if_neg (by omega), if_neg (by omega), if_pos (by omega),
      hlead]
    simp [continuations, mark]
  · have hlead : c.toNat / 262144 % 8 + 0xF0 = 0xF0 + c.toNat / 262144 := by omega
    rw [utf8EncodeChar, Char.toNat_val, if_neg (by omega), if_neg (by omega), if_neg (by omega),
      hlead]
    simp [continuations, mark]

/-- How many bytes a character takes. -/
theorem exists_least_le {c : Char} (h : 0x80 ≤ c.toNat) :
    ∃ owed ≤ 2, least owed ≤ c.toNat ∧ c.toNat < least (owed + 1) := by
  have hvalid := isValidChar_iff.mp c.valid
  rw [Char.toNat_val] at hvalid
  by_cases two : c.toNat < 0x800
  · exact ⟨0, by omega, h, two⟩
  by_cases three : c.toNat < 0x10000
  · exact ⟨1, by omega, not_lt.mp two, three⟩
  · exact ⟨2, by omega, not_lt.mp three, by simp only [least]; omega⟩

/-! ### First bytes -/

/-- A byte that **leads**, with its value and the number of bytes owed. Some number that starts with the
value takes as many bytes. -/
structure Leads (b : UInt8) (value owed : Nat) : Prop where
  owed_le : owed ≤ 2
  toNat_eq : b.toNat = mark owed + value
  least_lt : least owed < (value + 1) * 64 ^ (owed + 1)
  lt_least : value * 64 ^ (owed + 1) < least (owed + 1)

/-- The least second byte. Below it, fewer bytes would do. -/
def lowest (owed value : Nat) : UInt8 :=
  if owed = 1 ∧ value = 0 then 0xA0 else if owed = 2 ∧ value = 0 then 0x90 else 0x80

/-- The greatest second byte. Above it are the surrogates, or what lies beyond the last character. -/
def highest (owed value : Nat) : UInt8 :=
  if owed = 1 ∧ value = 0xD then 0x9F else if owed = 2 ∧ value = 4 then 0x8F else 0xBF

theorem opening_of_lt {b : UInt8} (h : b.toNat < 0x80) :
    opening b = .char (Char.ofNat b.toNat) :=
  if_pos (UInt8.lt_iff_toNat_lt.mpr h)

theorem opening_of_leads {b : UInt8} {value owed : Nat} (h : Leads b value owed) :
    opening b = .lead value owed (lowest owed value) (highest owed value) := by
  obtain ⟨howed, hb, hleast, hmost⟩ := h
  have two : ∀ v < 32, 2 ≤ v → opening (UInt8.ofNat (0xC0 + v)) =
      .lead v 0 (lowest 0 v) (highest 0 v) := by decide
  have three : ∀ v < 16, opening (UInt8.ofNat (0xE0 + v)) =
      .lead v 1 (lowest 1 v) (highest 1 v) := by decide
  have four : ∀ v < 5, opening (UInt8.ofNat (0xF0 + v)) =
      .lead v 2 (lowest 2 v) (highest 2 v) := by decide
  rw [← UInt8.ofNat_toNat (x := b), hb]
  interval_cases owed <;> simp only [least] at hleast hmost
  · exact two value (by omega) (by omega)
  · exact three value (by omega)
  · exact four value (by omega)

/-- A byte leads in one way. -/
theorem Leads.unique {b : UInt8} {value owed value' owed' : Nat} (h : Leads b value owed)
    (h' : Leads b value' owed') : value = value' ∧ owed = owed' := by
  have hsame := (opening_of_leads h).symm.trans (opening_of_leads h')
  simp only [Opening.lead.injEq] at hsame
  exact ⟨hsame.1, hsame.2.1⟩

/-- A byte is a character of its own, leads, or is malformed. -/
theorem opening_cases (b : UInt8) :
    b.toNat < 0x80 ∨ (∃ value owed, Leads b value owed) ∨ opening b = .malformed := by
  have hb := b.toNat_lt
  by_cases one : b.toNat < 0x80
  · exact .inl one
  by_cases two : 0xC2 ≤ b.toNat ∧ b.toNat < 0xE0
  · refine .inr (.inl ⟨b.toNat - 0xC0, 0, by omega, ?_, ?_, ?_⟩) <;>
      simp only [mark, least] <;> omega
  by_cases three : 0xE0 ≤ b.toNat ∧ b.toNat < 0xF0
  · refine .inr (.inl ⟨b.toNat - 0xE0, 1, by omega, ?_, ?_, ?_⟩) <;>
      simp only [mark, least] <;> omega
  by_cases four : 0xF0 ≤ b.toNat ∧ b.toNat < 0xF5
  · refine .inr (.inl ⟨b.toNat - 0xF0, 2, by omega, ?_, ?_, ?_⟩) <;>
      simp only [mark, least] <;> omega
  refine .inr (.inr ?_)
  simp only [opening, UInt8.lt_iff_toNat_lt, ← UInt8.toNat_inj, UInt8.reduceToNat]
  split_ifs <;> first | rfl | omega

/-- The first byte of a character that takes several leads. -/
theorem exists_leads {c : Char} (h : 0x80 ≤ c.toNat) :
    ∃ b owed, Leads b (c.toNat / 64 ^ (owed + 1)) owed ∧ least owed ≤ c.toNat ∧
      utf8EncodeChar c = b :: continuations c.toNat (owed + 1) := by
  obtain ⟨owed, howed, hle, hlt⟩ := exists_least_le h
  refine ⟨_, owed, ⟨howed, ?_, ?_, ?_⟩, hle, utf8EncodeChar_of_least_le howed hle hlt⟩
  · interval_cases owed <;> simp only [least] at hlt <;>
      simp only [mark, UInt8.toNat_ofNat'] <;> omega
  · exact hle.trans_lt (Nat.lt_mul_of_div_lt (Nat.lt_succ_self _) (by positivity))
  · exact (Nat.div_mul_le_self _ _).trans_lt hlt

/-! ### Inside a character -/

/-- The numbers that start with a value and go on with a byte in a range. -/
def Completes (value owed : Nat) (low high : UInt8) (n : Nat) : Prop :=
  value * 64 + low.toNat ≤ n / 64 ^ owed + 0x80 ∧
    n / 64 ^ owed + 0x80 ≤ value * 64 + high.toNat

/-- Behind a byte that leads, the range leaves out what is no character and what takes fewer bytes. -/
theorem Leads.completes_iff {b : UInt8} {value owed n : Nat} (h : Leads b value owed) :
    Completes value owed (lowest owed value) (highest owed value) n ↔
      n / 64 ^ (owed + 1) = value ∧ least owed ≤ n ∧ n.isValidChar := by
  obtain ⟨howed, -, hleast, hmost⟩ := h
  rw [isValidChar_iff]
  interval_cases owed <;> simp only [least] at hleast hmost
  · simp only [Completes, lowest, highest, least, zero_ne_one, OfNat.zero_ne_ofNat, false_and,
      ↓reduceIte, UInt8.reduceToNat]
    omega
  · simp only [Completes, lowest, highest, least, OfNat.one_ne_ofNat, true_and, false_and,
      ↓reduceIte]
    split_ifs <;> simp only [UInt8.reduceToNat] <;> omega
  · simp only [Completes, lowest, highest, least, OfNat.ofNat_ne_one, true_and, false_and,
      ↓reduceIte]
    split_ifs <;> simp only [UInt8.reduceToNat] <;> omega

/-- **What the machine knows inside a character**: the characters that start with the bytes seen are
those whose number starts with the value and goes on with a byte in the range. -/
structure Holds (seen : List UInt8) (value owed : Nat) (low high : UInt8) : Prop where
  seen_ne_nil : seen ≠ []
  le_low : 0x80 ≤ low.toNat
  low_le : low.toNat ≤ high.toNat
  high_le : high.toNat ≤ 0xBF
  isValidChar : ∀ {n}, Completes value owed low high n → n.isValidChar
  encode_eq : ∀ {c : Char}, Completes value owed low high c.toNat →
    utf8EncodeChar c = seen ++ continuations c.toNat (owed + 1)
  completes : ∀ {c : Char}, seen <+: utf8EncodeChar c → Completes value owed low high c.toNat

theorem Leads.holds {b : UInt8} {value owed : Nat} (h : Leads b value owed) :
    Holds [b] value owed (lowest owed value) (highest owed value) where
  seen_ne_nil := List.cons_ne_nil _ _
  le_low := by unfold lowest; split_ifs <;> decide
  low_le := by unfold lowest highest; split_ifs <;> first | decide | omega
  high_le := by unfold highest; split_ifs <;> decide
  isValidChar hn := (h.completes_iff.mp hn).2.2
  encode_eq {c} hc := by
    obtain ⟨hvalue, hleast, hvalid⟩ := h.completes_iff.mp hc
    have hlt : c.toNat < least (owed + 1) := by
      have hmost := h.lt_least
      have howed := h.owed_le
      rw [isValidChar_iff] at hvalid
      interval_cases owed <;> simp only [least] at hmost ⊢ <;> omega
    rw [utf8EncodeChar_of_least_le h.owed_le hleast hlt, hvalue, ← h.toNat_eq, UInt8.ofNat_toNat,
      List.singleton_append]
  completes {c} hc := by
    have hseveral : 0x80 ≤ c.toNat := by
      by_contra! hlt
      have howed := h.owed_le
      rw [utf8EncodeChar_of_lt hlt, List.cons_prefix_cons, ← UInt8.toNat_inj, h.toNat_eq,
        UInt8.toNat_ofNat'] at hc
      interval_cases owed <;> simp only [mark] at hc <;> omega
    obtain ⟨a, owed', ha, hleast, hencode⟩ := exists_leads hseveral
    obtain ⟨rfl, -⟩ := List.cons_prefix_cons.mp (hencode ▸ hc)
    obtain ⟨rfl, rfl⟩ := h.unique ha
    exact h.completes_iff.mpr ⟨rfl, hleast, c.valid⟩

namespace Holds

variable {seen : List UInt8} {value owed : Nat} {low high : UInt8}

/-- **The bytes that the machine takes** inside a character are those that some character goes on with,
and they add six bits to its value. -/
theorem append_isPrefix_iff (h : Holds seen value owed low high) {c : Char} {b : UInt8} :
    seen ++ [b] <+: utf8EncodeChar c ↔
      low ≤ b ∧ b ≤ high ∧ c.toNat / 64 ^ owed + 0x80 = value * 64 + b.toNat := by
  have hle := h.le_low
  have hge := h.high_le
  rw [UInt8.le_iff_toNat_le, UInt8.le_iff_toNat_le]
  constructor
  · intro hb
    have hc := h.completes ((List.prefix_append _ _).trans hb)
    rw [h.encode_eq hc, List.prefix_append_right_inj, continuations, List.cons_prefix_cons,
      ← UInt8.toNat_inj, UInt8.toNat_ofNat'] at hb
    unfold Completes at hc
    omega
  · rintro ⟨hlow, hhigh, hnumber⟩
    have hc : Completes value owed low high c.toNat := by
      unfold Completes
      omega
    rw [h.encode_eq hc, List.prefix_append_right_inj, continuations, List.cons_prefix_cons,
      ← UInt8.toNat_inj, UInt8.toNat_ofNat']
    exact ⟨by omega, List.nil_prefix⟩

/-- Some character starts with the bytes seen and has more. -/
theorem exists_longer (h : Holds seen value owed low high) :
    ∃ c, seen <+: utf8EncodeChar c ∧ seen ≠ utf8EncodeChar c := by
  have hcompletes : Completes value owed low high ((value * 64 + low.toNat - 0x80) * 64 ^ owed) := by
    have hle := h.le_low
    have hrange := h.low_le
    rw [Completes, Nat.mul_div_cancel _ (by positivity)]
    omega
  have hnumber := toNat_ofNat (h.isValidChar hcompletes)
  have hencode := h.encode_eq (hnumber.symm ▸ hcompletes)
  refine ⟨_, ⟨_, hencode.symm⟩, fun heq => ?_⟩
  rw [← heq] at hencode
  simp [continuations] at hencode

/-- Behind a byte in the range, any continuation is one of a character as long as bytes are owed. -/
theorem append (h : Holds seen value (owed + 1) low high) {b : UInt8} (hlow : low ≤ b)
    (hhigh : b ≤ high) : Holds (seen ++ [b]) (value * 64 + (b.toNat - 0x80)) owed 0x80 0xBF := by
  have hb : 0x80 ≤ b.toNat := h.le_low.trans hlow
  have hnumber : ∀ n, Completes (value * 64 + (b.toNat - 0x80)) owed 0x80 0xBF n ↔
      n / 64 ^ (owed + 1) + 0x80 = value * 64 + b.toNat := by
    intro n
    rw [Completes, pow_succ, ← Nat.div_div_eq_div_mul]
    simp only [UInt8.reduceToNat]
    omega
  refine ⟨by simp, by decide, by decide, by decide, fun {n} hn => h.isValidChar ?_,
    fun {c} hc => ?_, fun {c} hc => (hnumber _).mpr (h.append_isPrefix_iff.mp hc).2.2⟩
  · have := (hnumber n).mp hn
    rw [UInt8.le_iff_toNat_le] at hlow hhigh
    unfold Completes
    omega
  · have hnext := h.append_isPrefix_iff.mpr ⟨hlow, hhigh, (hnumber _).mp hc⟩
    have hencode := h.encode_eq (h.completes ((List.prefix_append _ _).trans hnext))
    rw [continuations] at hencode
    rw [hencode, List.prefix_append_right_inj, List.cons_prefix_cons] at hnext
    rw [hencode, ← hnext.1, List.append_assoc, List.singleton_append]

/-- The last byte completes a character. -/
theorem encode_last (h : Holds seen value 0 low high) {b : UInt8} (hlow : low ≤ b)
    (hhigh : b ≤ high) :
    utf8EncodeChar (Char.ofNat (value * 64 + (b.toNat - 0x80))) = seen ++ [b] := by
  have hb : 0x80 ≤ b.toNat := h.le_low.trans hlow
  have hcompletes : Completes value 0 low high (value * 64 + (b.toNat - 0x80)) := by
    rw [UInt8.le_iff_toNat_le] at hlow hhigh
    unfold Completes
    omega
  have hnumber := toNat_ofNat (h.isValidChar hcompletes)
  have hencode := h.encode_eq (hnumber.symm ▸ hcompletes)
  have hnext : seen ++ [b] <+: utf8EncodeChar (Char.ofNat (value * 64 + (b.toNat - 0x80))) :=
    h.append_isPrefix_iff.mpr ⟨hlow, hhigh, by omega⟩
  exact (hnext.eq_of_length (by simp [hencode, continuations])).symm

end Holds

/-! ### The machine -/

/-- What a byte does between characters. -/
theorem enter_cases (b : UInt8) :
    (∃ c, enter b = ([.char c], .start) ∧ utf8EncodeChar c = [b]) ∨
    (∃ value owed low high, enter b = ([], .inside [b] value owed low high) ∧
      Holds [b] value owed low high) ∨
    (∃ reason, enter b = ([.malformed [b] reason], .start)) ∧ ¬ Begins [b] := by
  obtain hone | ⟨value, owed, hleads⟩ | hmalformed := opening_cases b
  · have hnumber : (Char.ofNat b.toNat).toNat = b.toNat :=
      toNat_ofNat (isValidChar_iff.mpr (.inl (by omega)))
    refine .inl ⟨Char.ofNat b.toNat, by rw [enter, opening_of_lt hone], ?_⟩
    rw [utf8EncodeChar_of_lt (by omega), hnumber, UInt8.ofNat_toNat]
  · exact .inr (.inl ⟨_, _, _, _, by rw [enter, opening_of_leads hleads], hleads.holds⟩)
  · refine .inr (.inr ⟨⟨_, by rw [enter, hmalformed]⟩, ?_⟩)
    rintro ⟨c, hc⟩
    by_cases hone : c.toNat < 0x80
    · rw [utf8EncodeChar_of_lt hone] at hc
      obtain ⟨rfl, -⟩ := List.cons_prefix_cons.mp hc
      rw [opening_of_lt (by rw [UInt8.toNat_ofNat']; omega)] at hmalformed
      cases hmalformed
    · obtain ⟨a, owed, hleads, -, hencode⟩ := exists_leads (not_lt.mp hone)
      obtain ⟨rfl, -⟩ := List.cons_prefix_cons.mp (hencode ▸ hc)
      rw [opening_of_leads hleads] at hmalformed
      cases hmalformed

/-- What a byte does inside a character. -/
theorem Holds.step_cases {seen : List UInt8} {value owed : Nat} {low high : UInt8}
    (h : Holds seen value owed low high) (b : UInt8) :
    (∃ c, step (.inside seen value owed low high) b = ([.char c], .start) ∧
      utf8EncodeChar c = seen ++ [b]) ∨
    (∃ value' owed' low' high', step (.inside seen value owed low high) b =
      ([], .inside (seen ++ [b]) value' owed' low' high') ∧
        Holds (seen ++ [b]) value' owed' low' high') ∨
    (∃ reason, step (.inside seen value owed low high) b =
      (.malformed seen reason :: (enter b).1, (enter b).2)) ∧ ¬ Begins (seen ++ [b]) := by
  by_cases hb : low ≤ b ∧ b ≤ high
  · cases owed with
    | zero => exact .inl ⟨_, by rw [step, if_pos hb], h.encode_last hb.1 hb.2⟩
    | succ owed => exact .inr (.inl ⟨_, _, _, _, by rw [step, if_pos hb], h.append hb.1 hb.2⟩)
  · refine .inr (.inr ⟨⟨_, by rw [step, if_neg hb]⟩, ?_⟩)
    rintro ⟨c, hc⟩
    obtain ⟨hlow, hhigh, -⟩ := h.append_isPrefix_iff.mp hc
    exact hb ⟨hlow, hhigh⟩

/-- A state that the machine gets to, and the bytes it has **seen** of the character it is in. -/
inductive State.Saw : State → List UInt8 → Prop
  | start : Saw .start []
  | inside {seen : List UInt8} {value owed : Nat} {low high : UInt8} :
      Holds seen value owed low high → Saw (.inside seen value owed low high) seen

/-- From any state that it gets to, the machine reads what it has seen together with the bytes that
follow. -/
theorem State.Saw.reads {s : State} {seen : List UInt8} (hs : s.Saw seen) (bytes : List UInt8) :
    Reads (seen ++ bytes) ((pieces s bytes).map Piece.shown) := by
  induction bytes generalizing s seen with
  | nil =>
      cases hs with
      | start => exact .nil
      | inside h =>
          obtain ⟨c, hseen, hproper⟩ := h.exists_longer
          exact .malformed (malformedStart_append h.seen_ne_nil hseen hproper (by simp)) .nil
  | cons b bytes ih =>
      -- A byte that a character does not go on with is read again, as the first of what follows.
      have hfirst :
          Reads (b :: bytes) (((enter b).1 ++ pieces (enter b).2 bytes).map Piece.shown) := by
        obtain ⟨c, hstep, hc⟩ | ⟨_, _, _, _, hstep, h⟩ | ⟨⟨_, hstep⟩, hb⟩ := enter_cases b <;>
          rw [hstep]
        · have hchar := Reads.char c (ih .start)
          rwa [hc] at hchar
        · exact ih (.inside h)
        · exact @Reads.malformed [b] _ _ (malformedStart_singleton hb) (ih .start)
      rw [pieces_cons]
      cases hs with
      | start => exact hfirst
      | inside h =>
          obtain ⟨c, hstep, hc⟩ | ⟨_, _, _, _, hstep, h'⟩ | ⟨⟨_, hstep⟩, hb⟩ := h.step_cases b <;>
            rw [hstep]
          · have hchar := Reads.char c (ih .start)
            rwa [hc, List.append_assoc] at hchar
          · have hinside := ih (.inside h')
            rwa [List.append_assoc] at hinside
          · obtain ⟨c, hseen, hproper⟩ := h.exists_longer
            exact .malformed
              (malformedStart_append h.seen_ne_nil hseen hproper (by simpa using hb)) hfirst

/-- **The machine reads bytes as they are to be read.** -/
theorem reads_decode (bytes : List UInt8) : Reads bytes (decode bytes) :=
  State.Saw.start.reads bytes

/-- A surrogate is three pieces, and a character that is broken off is one. -/
example : decode [0xED, 0xA0, 0x80, 0xF0, 0x9F, 0x98, 0x61] =
    [replacement, replacement, replacement, replacement, 'a'] := by decide

theorem decode_eq_iff {bytes : List UInt8} {cs : List Char} :
    decode bytes = cs ↔ Reads bytes cs :=
  ⟨fun h => h ▸ reads_decode bytes, fun h => (reads_decode bytes).unique h⟩

end JanetEmbedding.Utf8
