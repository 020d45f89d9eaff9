import JanetEmbedding.Number.Text
import Mathlib.Algebra.Order.Field.Power
import Mathlib.Data.Int.Log
import Mathlib.Data.Rat.Floor
import Mathlib.Tactic.FieldSimp
import Mathlib.Tactic.Linarith
import Mathlib.Tactic.NormNum
import Mathlib.Tactic.Positivity
import Mathlib.Tactic.Ring

/-!
# Decimals that are read as doubles

A double is written as the shortest decimal that reads back, which a search finds among the decimals of
one digit, of two, and so on. The zeros at its end are taken off after the search, so that what is
written need not be what the search has tried; and a number with a point in its text is read as digits
that stand at another power of ten. This module shows that none of it matters: the double of a decimal
depends on the value of the decimal alone.

## Conventions

Reading settles magnitudes far outside the range of the doubles by the number of digits, and only rounds
what is left. The estimate it takes for this is a rational one, 0.30103 for the decimal logarithm of two.
A decimal is therefore compared by its value only where it is *in range*, and the estimate is shown not
to leave the range that is rounded there.

## Main definitions

* `Double.Decimal.value`: the value of a decimal.
* `Double.Decimal.InRange`: the value lies in the range of the doubles.

## Main results

* `Double.ofRatio_congr`: the double of a quotient depends on the quotient alone.
* `Double.ofRatio_exact`: a double is read back from its exact value.
* `Double.Decimal.InRange.ofDecimal_congr`: the double of a decimal depends on its value alone.
* `Double.searchShortest_readsBack`: whatever the search finds reads back.
* `Double.ofDecimal_shortest`: the shortest decimal of a double reads back.
-/

namespace JanetEmbedding.Double

/-! ### Powers with a sign -/

/-- A power of a natural number, written as a quotient of two powers of which one is 1. -/
theorem zpow_eq_div {b : Nat} (hb : b ≠ 0) (e : Int) :
    (b : ℚ) ^ e = (b ^ e.toNat : Nat) / (b ^ (-e).toNat : Nat) := by
  have hb' : (b : ℚ) ≠ 0 := Nat.cast_ne_zero.mpr hb
  rcases Int.le_total 0 e with he | he
  · obtain ⟨n, rfl⟩ := Int.eq_ofNat_of_zero_le he
    simp
  · obtain ⟨n, hn⟩ := Int.eq_ofNat_of_zero_le (Int.neg_nonneg_of_nonpos he)
    obtain rfl : e = -(n : Int) := by omega
    simp

/-- The two sides of a comparison with a power, multiplied out. -/
theorem mul_pow_lt_iff {b n d : Nat} (hb : b ≠ 0) (hd : 0 < d) (e : Int) :
    n * b ^ (-e).toNat < d * b ^ e.toNat ↔ (n : ℚ) / d < (b : ℚ) ^ e := by
  have hpos : ∀ k : Nat, (0 : ℚ) < ((b ^ k : Nat) : ℚ) := fun k =>
    Nat.cast_pos.mpr (Nat.pow_pos (Nat.pos_of_ne_zero hb))
  rw [zpow_eq_div hb, div_lt_div_iff₀ (Nat.cast_pos.mpr hd) (hpos _), ← Nat.cast_mul, ← Nat.cast_mul,
    Nat.cast_lt, Nat.mul_comm d]

/-! ### Logarithms -/

/-- The logarithm of a number, rounded down, is told by the powers around the number. -/
theorem log_eq {v : ℚ} {k : Int} (hle : (2 : ℚ) ^ k ≤ v) (hlt : v < 2 ^ (k + 1)) : Int.log 2 v = k := by
  have hv : 0 < v := lt_of_lt_of_le (zpow_pos two_pos k) hle
  have hle' := (Int.zpow_le_iff_le_log (b := 2) Nat.one_lt_two hv).mp (by exact_mod_cast hle)
  have hlt' := (Int.lt_zpow_iff_log_lt (b := 2) Nat.one_lt_two hv).mp (by exact_mod_cast hlt)
  omega

/-- A number lies between the powers that its binary logarithm tells. -/
theorem log2_bounds {n : Nat} (hn : n ≠ 0) :
    (2 : ℚ) ^ (n.log2 : Int) ≤ n ∧ (n : ℚ) < 2 ^ (n.log2 + 1 : Int) := by
  constructor
  · rw [zpow_natCast]
    exact_mod_cast Nat.log2_self_le hn
  · exact_mod_cast Nat.lt_log2_self (n := n)

/-- **The binary logarithm of a quotient**, rounded down. -/
theorem floorLog2_eq {n d : Nat} (hn : n ≠ 0) (hd : 0 < d) :
    floorLog2 n d = Int.log 2 ((n : ℚ) / d) := by
  have hd' : (0 : ℚ) < d := Nat.cast_pos.mpr hd
  obtain ⟨e, he⟩ : ∃ e : Int, e = (n.log2 : Int) - (d.log2 : Int) := ⟨_, rfl⟩
  obtain ⟨hnle, hnlt⟩ := log2_bounds hn
  obtain ⟨hdle, hdlt⟩ := log2_bounds (Nat.ne_of_gt hd)
  have hlower : (2 : ℚ) ^ (e - 1) ≤ (n : ℚ) / d := by
    rw [le_div_iff₀ hd']
    calc (2 : ℚ) ^ (e - 1) * d ≤ 2 ^ (e - 1) * 2 ^ (d.log2 + 1 : Int) := by gcongr
      _ = 2 ^ (n.log2 : Int) := by
          rw [← zpow_add₀ (by norm_num)]
          congr 1
          omega
      _ ≤ n := hnle
  have hupper : (n : ℚ) / d < 2 ^ (e + 1) := by
    rw [div_lt_iff₀ hd']
    calc (n : ℚ) < 2 ^ (n.log2 + 1 : Int) := hnlt
      _ = 2 ^ (e + 1) * 2 ^ (d.log2 : Int) := by
          rw [← zpow_add₀ (by norm_num)]
          congr 1
          omega
      _ ≤ 2 ^ (e + 1) * d := by gcongr
  have hcases := mul_pow_lt_iff (b := 2) (n := n) two_ne_zero hd e
  simp only [floorLog2, Nat.pow_eq, ← he]
  push_cast at hcases
  split
  next hlt => exact (log_eq hlower (by rw [sub_add_cancel]; exact hcases.mp hlt)).symm
  next hge => exact (log_eq (not_lt.mp fun hlt => hge (hcases.mpr hlt)) hupper).symm

/-! ### Rounding to a natural number -/

variable {n d n' d' : Nat}

theorem roundHalfEven_mul (n d : Nat) {k : Nat} (hk : 0 < k) :
    roundHalfEven (n * k) (d * k) = roundHalfEven n d := by
  have hlt : 2 * (n % d * k) < d * k ↔ 2 * (n % d) < d := by
    rw [← Nat.mul_assoc]
    exact Nat.mul_lt_mul_right hk
  have hgt : d * k < 2 * (n % d * k) ↔ d < 2 * (n % d) := by
    rw [← Nat.mul_assoc]
    exact Nat.mul_lt_mul_right hk
  simp only [roundHalfEven, Nat.mul_div_mul_right n d hk, Nat.mul_mod_mul_right, hlt, hgt]

/-- Rounding depends on the quotient alone. -/
theorem roundHalfEven_congr (hd : 0 < d) (hd' : 0 < d') (h : n * d' = n' * d) :
    roundHalfEven n d = roundHalfEven n' d' := by
  rw [← roundHalfEven_mul n d hd', h, Nat.mul_comm d, roundHalfEven_mul n' d' hd]

/-- A natural number is not rounded. -/
theorem roundHalfEven_mul_self (q : Nat) (hd : 0 < d) : roundHalfEven (q * d) d = q := by
  simp [roundHalfEven, Nat.mul_div_cancel q hd, hd]

/-- What is rounded changes by a half at most. -/
theorem roundHalfEven_bounds (n : Nat) (hd : 0 < d) :
    2 * n ≤ 2 * (roundHalfEven n d * d) + d ∧ 2 * (roundHalfEven n d * d) ≤ 2 * n + d := by
  have hmod := Nat.div_add_mod' n d
  have hlt := Nat.mod_lt n hd
  have hsucc := Nat.add_one_mul (n / d) d
  simp only [roundHalfEven]
  split
  next => omega
  next =>
    split
    next => omega
    next => split <;> omega

/-- What is rounded to a positive number of at most 53 bits, or to the next one after these, is not far
from it. -/
theorem roundHalfEven_range (hd : 0 < d) (hpos : 0 < roundHalfEven n d)
    (hle : roundHalfEven n d ≤ 2 ^ 53) : (1 : ℚ) / 2 ≤ n / d ∧ (n : ℚ) / d < 2 ^ (54 : Int) := by
  obtain ⟨q, hq⟩ : ∃ q, q = roundHalfEven n d := ⟨_, rfl⟩
  have hround := roundHalfEven_bounds n hd
  rw [← hq] at hround hpos hle
  have hd' : (0 : ℚ) < d := Nat.cast_pos.mpr hd
  have hleast := Nat.mul_le_mul_right d hpos
  have hgreatest := Nat.mul_le_mul_right d hle
  constructor
  · have hhalf : 1 * d ≤ n * 2 := by omega
    rw [div_le_div_iff₀ two_pos hd']
    exact_mod_cast hhalf
  · have hlt : n < 2 ^ 54 * d := by omega
    rw [div_lt_iff₀ hd']
    exact_mod_cast hlt

/-- A quotient that is moved by a power of two. -/
theorem div_scaled (n d : Nat) (k : Int) :
    ((n * 2 ^ (-k).toNat : Nat) : ℚ) / (d * 2 ^ k.toNat : Nat) = n / d / 2 ^ k := by
  have hzpow := zpow_eq_div two_ne_zero k
  push_cast at hzpow ⊢
  rw [hzpow]
  field_simp

/-! ### Rounding to a double -/

/-- **The double of a quotient** depends on the quotient alone. -/
theorem ofRatio_congr (s : Bool) (hd : 0 < d) (hd' : 0 < d') (h : n * d' = n' * d) :
    ofRatio s n d = ofRatio s n' d' := by
  by_cases hn : n = 0
  · have hn' : n' = 0 := by
      subst hn
      simpa [Nat.ne_of_gt hd] using h.symm
    simp [ofRatio, hn, hn']
  · have hn' : n' ≠ 0 := by
      rintro rfl
      simp [hn, Nat.ne_of_gt hd'] at h
    have hquot : (n : ℚ) / d = n' / d' := by
      rw [div_eq_div_iff (Nat.cast_ne_zero.mpr (Nat.ne_of_gt hd))
        (Nat.cast_ne_zero.mpr (Nat.ne_of_gt hd'))]
      exact_mod_cast h
    have hlog : floorLog2 n d = floorLog2 n' d' := by
      rw [floorLog2_eq hn hd, floorLog2_eq hn' hd', hquot]
    have hround : ∀ a b : Nat, 0 < b →
        roundHalfEven (n * a) (d * b) = roundHalfEven (n' * a) (d' * b) := fun a b hb => by
      refine roundHalfEven_congr (Nat.mul_pos hd hb) (Nat.mul_pos hd' hb) ?_
      calc n * a * (d' * b) = n * d' * (a * b) := by ring
        _ = n' * a * (d * b) := by rw [h]; ring
    simp only [ofRatio, hn, hn', if_false, hlog, Nat.pow_eq, hround _ _ (Nat.two_pow_pos _)]

/-- The logarithm of a quotient that is a dyadic number. -/
theorem floorLog2_of_exact {m : Nat} {e : Int} (hn : n ≠ 0) (hd : 0 < d) (hm : m ≠ 0)
    (hvalue : n * 2 ^ (-e).toNat = m * (d * 2 ^ e.toNat)) : floorLog2 n d = m.log2 + e := by
  have hquot : (n : ℚ) / d = m * 2 ^ e := by
    have hd' : (d : ℚ) ≠ 0 := Nat.cast_ne_zero.mpr (Nat.ne_of_gt hd)
    have hpow : ((2 ^ (-e).toNat : Nat) : ℚ) ≠ 0 := Nat.cast_ne_zero.mpr (Nat.two_pow_pos _).ne'
    have hzpow := zpow_eq_div two_ne_zero e
    push_cast at hzpow hpow
    rw [hzpow, mul_div_assoc', div_eq_div_iff hd' hpow]
    have hcast : (n : ℚ) * 2 ^ (-e).toNat = m * (d * 2 ^ e.toNat) := by exact_mod_cast hvalue
    rw [hcast]
    ring
  obtain ⟨hle, hlt⟩ := log2_bounds hm
  rw [floorLog2_eq hn hd, hquot]
  refine log_eq ?_ ?_
  · rw [zpow_add₀ two_ne_zero]
    gcongr
  · rw [add_right_comm, zpow_add₀ two_ne_zero]
    gcongr

/-- **A double is read back from its exact value.** -/
theorem ofRatio_exact (s : Bool) {m : Nat} {e : Int} (h : Canonical m e) (hm : m ≠ 0) (hd : 0 < d)
    (hvalue : n * 2 ^ (-e).toNat = m * (d * 2 ^ e.toNat)) : ofRatio s n d = .finite s m e h := by
  have hn : n ≠ 0 := by
    rintro rfl
    rw [Nat.zero_mul] at hvalue
    exact (Nat.mul_pos (Nat.pos_of_ne_zero hm) (Nat.mul_pos hd (Nat.two_pow_pos _))).ne hvalue
  have hlog := floorLog2_of_exact hn hd hm hvalue
  obtain ⟨hlt, hleast, hgreatest, hfull⟩ := h
  have hexponent : max (floorLog2 n d - 52) (-1074) = e := by
    have hlog2 : m.log2 ≤ 52 := by
      have := (Nat.log2_lt hm).mpr hlt
      omega
    rcases hfull with hfull | rfl
    · have := (Nat.le_log2 hm).mpr hfull
      omega
    · omega
  have hne : m ≠ 2 ^ 53 := Nat.ne_of_lt hlt
  simp only [ofRatio, hn, if_false, hexponent, Nat.pow_eq, hvalue,
    roundHalfEven_mul_self m (Nat.mul_pos hd (Nat.two_pow_pos _)), hne, ofParts]
  exact dif_pos ⟨hlt, hleast, hgreatest, hfull⟩

theorem ofParts_eq_iff {s t : Bool} {m m' : Nat} {e e' : Int} {h : Canonical m e} :
    ofParts s m' e' = .finite t m e h ↔ s = t ∧ m' = m ∧ e' = e := by
  constructor
  · intro heq
    rw [ofParts] at heq
    split at heq
    · obtain ⟨rfl, rfl, rfl⟩ := Double.finite.inj heq
      exact ⟨rfl, rfl, rfl⟩
    · cases heq
  · rintro ⟨rfl, rfl, rfl⟩
    exact dif_pos h

/-- The sign is no part of the rounding. -/
theorem ofRatio_of_false {t : Bool} {m : Nat} {e : Int} {h : Canonical m e}
    (heq : ofRatio false n d = .finite t m e h) (s : Bool) : ofRatio s n d = .finite s m e h := by
  by_cases hn : n = 0
  · simp only [ofRatio, hn, if_true, zero] at heq ⊢
    obtain ⟨-, rfl, rfl⟩ := Double.finite.inj heq
    rfl
  · simp only [ofRatio, hn, if_false] at heq ⊢
    split at heq
    next hq =>
      rw [if_pos hq]
      exact ofParts_eq_iff.mpr ⟨rfl, (ofParts_eq_iff.mp heq).2⟩
    next hq =>
      rw [if_neg hq]
      exact ofParts_eq_iff.mpr ⟨rfl, (ofParts_eq_iff.mp heq).2⟩

/-- A quotient that is rounded to a double other than zero lies in the range of the doubles. -/
theorem ofRatio_bounds {s t : Bool} {m : Nat} {e : Int} {h : Canonical m e} (hm : m ≠ 0) (hd : 0 < d)
    (heq : ofRatio s n d = .finite t m e h) :
    (2 : ℚ) ^ (-1075 : Int) ≤ n / d ∧ (n : ℚ) / d < 2 ^ (1025 : Int) := by
  have hn : n ≠ 0 := by
    rintro rfl
    simp only [ofRatio, if_true, zero] at heq
    exact hm (Double.finite.inj heq).2.1.symm
  obtain ⟨k, hk⟩ : ∃ k, k = max (floorLog2 n d - 52) (-1074) := ⟨_, rfl⟩
  obtain ⟨q, hq⟩ : ∃ q, q = roundHalfEven (n * 2 ^ (-k).toNat) (d * 2 ^ k.toNat) := ⟨_, rfl⟩
  simp only [ofRatio, hn, if_false, Nat.pow_eq, ← hk, ← hq] at heq
  have hparts : 0 < q ∧ q ≤ 2 ^ 53 ∧ k ≤ 971 := by
    have hlt := h.1
    have hgreatest := h.2.2.1
    split at heq
    next hfull =>
      obtain ⟨-, rfl, rfl⟩ := ofParts_eq_iff.mp heq
      exact ⟨by omega, by omega, by omega⟩
    next =>
      obtain ⟨-, rfl, rfl⟩ := ofParts_eq_iff.mp heq
      exact ⟨Nat.pos_of_ne_zero hm, Nat.le_of_lt hlt, hgreatest⟩
  obtain ⟨hpos, hle, hgreatest⟩ := hparts
  have hpower : (0 : ℚ) < 2 ^ k := zpow_pos two_pos k
  obtain ⟨hlower, hupper⟩ := roundHalfEven_range (Nat.mul_pos hd (Nat.two_pow_pos k.toNat))
    (hq ▸ hpos) (hq ▸ hle)
  rw [div_scaled] at hlower hupper
  rw [le_div_iff₀ hpower] at hlower
  rw [div_lt_iff₀ hpower, ← zpow_add₀ two_ne_zero] at hupper
  constructor
  · calc (2 : ℚ) ^ (-1075 : Int) ≤ 2 ^ (k - 1) := zpow_le_zpow_right₀ one_le_two (by omega)
      _ = 1 / 2 * 2 ^ k := by rw [zpow_sub_one₀ two_ne_zero]; ring
      _ ≤ n / d := hlower
  · calc (n : ℚ) / d < 2 ^ (54 + k) := hupper
      _ ≤ 2 ^ (1025 : Int) := zpow_le_zpow_right₀ one_le_two (by omega)

/-! ### Decimals in range -/

/-- Powers of ten lie between powers of eight and of sixteen. -/
theorem pow_ten_bounds (k : Nat) : 2 ^ (3 * k) ≤ 10 ^ k ∧ 10 ^ k ≤ 2 ^ (4 * k) := by
  rw [Nat.pow_mul, Nat.pow_mul]
  exact ⟨Nat.pow_le_pow_left (by decide) k, Nat.pow_le_pow_left (by decide) k⟩

/-- Two powers are compared by a rational estimate of the logarithm of the one base by the other. -/
theorem pow_le_pow_of_estimate {a b p q c l m n : Nat} (ha : 0 < a) (hb : 0 < b) (hc : c ≠ 0)
    (hpow : a ^ p ≤ b ^ q) (hm : c * m ≤ p * l) (hn : q * l ≤ c * n) : a ^ m ≤ b ^ n := by
  refine (Nat.pow_le_pow_iff_left hc).mp ?_
  calc (a ^ m) ^ c = a ^ (c * m) := by rw [← Nat.pow_mul, Nat.mul_comm]
    _ ≤ a ^ (p * l) := Nat.pow_le_pow_right ha hm
    _ = (a ^ p) ^ l := Nat.pow_mul ..
    _ ≤ (b ^ q) ^ l := Nat.pow_le_pow_left hpow l
    _ = b ^ (q * l) := (Nat.pow_mul ..).symm
    _ ≤ b ^ (c * n) := Nat.pow_le_pow_right hb hn
    _ = (b ^ n) ^ c := by rw [← Nat.pow_mul, Nat.mul_comm]

/-- The estimate of a decimal logarithm by a binary one is not too large, -/
theorem pow_estimate_le {l k : Nat} (hl : l < 6000) (hk : 100000 * k ≤ 30103 * l) :
    10 ^ k ≤ 2 ^ (l + 65) :=
  pow_le_pow_of_estimate (p := 28) (q := 94) (c := 93) (l := l) (by decide) (by decide) (by decide)
    (by decide) (by omega) (by omega)

/-- and not too small. -/
theorem le_pow_estimate {l k : Nat} (hl : l < 6000) (hk : 30103 * l < 100000 * (k + 1)) :
    2 ^ (l - 31) ≤ 10 ^ (k + 1) :=
  pow_le_pow_of_estimate (p := 195) (q := 59) (c := 196) (l := l) (by decide) (by decide) (by decide)
    (by decide) (by omega) (by omega)

/-- Powers of ten are compared with powers of eight, -/
theorem le_zpow_ten {x : Int} (hx : 0 ≤ x) : (2 : ℚ) ^ (3 * x) ≤ 10 ^ x := by
  obtain ⟨n, rfl⟩ := Int.eq_ofNat_of_zero_le hx
  rw [zpow_mul]
  refine zpow_le_zpow_left₀ hx (by norm_num) ?_
  norm_num

/-- which are the larger ones below 1. -/
theorem zpow_ten_le {x : Int} (hx : x ≤ 0) : (10 : ℚ) ^ x ≤ 2 ^ (3 * x) := by
  have hle := le_zpow_ten (Int.neg_nonneg_of_nonpos hx)
  rw [mul_neg, zpow_neg, zpow_neg] at hle
  exact (inv_le_inv₀ (zpow_pos two_pos _) (zpow_pos (by norm_num) _)).mp hle

namespace Decimal

variable {d d' : Decimal}

/-- The **value** of a decimal. -/
def value (d : Decimal) : ℚ := d.digits * 10 ^ d.exponent

/-- A decimal is **in range** if its value lies in the range of the doubles, and its last digit not too
far behind the point. -/
structure InRange (d : Decimal) : Prop where
  lower : (2 : ℚ) ^ (-1075 : Int) ≤ d.value
  upper : d.value < 2 ^ (1025 : Int)
  exponent : -1100 ≤ d.exponent

namespace InRange

theorem digits_ne_zero (h : d.InRange) : d.digits ≠ 0 := by
  intro hzero
  have hlower := h.lower
  rw [value, hzero, Nat.cast_zero, zero_mul] at hlower
  exact absurd (zpow_pos two_pos (-1075 : Int)) (not_lt.mpr hlower)

/-- The digits are not too many for estimates. -/
theorem log2_lt (h : d.InRange) : d.digits.log2 < 6000 := by
  rw [Nat.log2_lt h.digits_ne_zero]
  obtain ⟨k, hk⟩ : ∃ k, k = (-d.exponent).toNat := ⟨_, rfl⟩
  have hexponent := h.exponent
  have hten : (10 : ℚ) ^ (-d.exponent) ≤ 2 ^ ((4 * k : Nat) : Int) := by
    calc (10 : ℚ) ^ (-d.exponent) ≤ 10 ^ (k : Int) :=
          zpow_le_zpow_right₀ (by norm_num) (by omega)
      _ ≤ 2 ^ ((4 * k : Nat) : Int) := by
          rw [zpow_natCast, zpow_natCast]
          exact_mod_cast (pow_ten_bounds k).2
  have hlt : (d.digits : ℚ) < 2 ^ ((6000 : Nat) : Int) := by
    calc (d.digits : ℚ) = d.value * 10 ^ (-d.exponent) := by
          rw [value, mul_assoc, ← zpow_add₀ (by norm_num), add_neg_cancel, zpow_zero, mul_one]
      _ < 2 ^ (1025 : Int) * 10 ^ (-d.exponent) :=
          mul_lt_mul_of_pos_right h.upper (zpow_pos (by norm_num) _)
      _ ≤ 2 ^ (1025 : Int) * 2 ^ ((4 * k : Nat) : Int) :=
          mul_le_mul_of_nonneg_left hten (zpow_nonneg zero_le_two _)
      _ = 2 ^ (1025 + (4 * k : Nat) : Int) := (zpow_add₀ two_ne_zero ..).symm
      _ ≤ 2 ^ ((6000 : Nat) : Int) := zpow_le_zpow_right₀ one_le_two (by omega)
  rw [zpow_natCast] at hlt
  exact_mod_cast hlt

/-- **The estimate of the magnitude** is not below the range that is rounded, -/
theorem le_estimate (h : d.InRange) :
    -400 ≤ ((d.digits.log2 * 30103 / 100000 : Nat) : Int) + d.exponent := by
  have hlog := h.log2_lt
  obtain ⟨l, hl⟩ : ∃ l, l = d.digits.log2 := ⟨_, rfl⟩
  obtain ⟨k, hk⟩ : ∃ k, k = l * 30103 / 100000 := ⟨_, rfl⟩
  rw [← hl] at hlog ⊢
  rw [← hk]
  by_contra hlt
  have hten : (0 : ℚ) < 10 := by norm_num
  have hdigits : (d.digits : ℚ) < 2 ^ (32 : Int) * 10 ^ ((k + 1 : Nat) : Int) := by
    have hpow : d.digits < 2 ^ 32 * 10 ^ (k + 1) := by
      calc d.digits < 2 ^ (l + 1) := hl ▸ Nat.lt_log2_self
        _ ≤ 2 ^ (32 + (l - 31)) := Nat.pow_le_pow_right (by decide) (by omega)
        _ = 2 ^ 32 * 2 ^ (l - 31) := Nat.pow_add ..
        _ ≤ 2 ^ 32 * 10 ^ (k + 1) := Nat.mul_le_mul_left _ (le_pow_estimate hlog (by omega))
    rw [zpow_natCast]
    exact_mod_cast hpow
  refine absurd h.lower (not_le.mpr ?_)
  calc d.value < 2 ^ (32 : Int) * 10 ^ ((k + 1 : Nat) : Int) * 10 ^ d.exponent :=
        mul_lt_mul_of_pos_right hdigits (zpow_pos hten _)
    _ = 2 ^ (32 : Int) * 10 ^ ((k + 1 : Nat) + d.exponent : Int) := by
        rw [mul_assoc, ← zpow_add₀ hten.ne']
    _ ≤ 2 ^ (32 : Int) * 2 ^ (3 * ((k + 1 : Nat) + d.exponent) : Int) :=
        mul_le_mul_of_nonneg_left (zpow_ten_le (by omega)) (zpow_nonneg zero_le_two _)
    _ = 2 ^ (32 + 3 * ((k + 1 : Nat) + d.exponent) : Int) := (zpow_add₀ two_ne_zero ..).symm
    _ ≤ 2 ^ (-1075 : Int) := zpow_le_zpow_right₀ one_le_two (by omega)

/-- and not above it. -/
theorem estimate_le (h : d.InRange) :
    ((d.digits.log2 * 30103 / 100000 : Nat) : Int) + d.exponent ≤ 400 := by
  have hlog := h.log2_lt
  have hdigits := (log2_bounds h.digits_ne_zero).1
  obtain ⟨l, hl⟩ : ∃ l, l = d.digits.log2 := ⟨_, rfl⟩
  obtain ⟨k, hk⟩ : ∃ k, k = l * 30103 / 100000 := ⟨_, rfl⟩
  rw [← hl] at hlog hdigits ⊢
  rw [← hk]
  by_contra hgt
  have hten : (0 : ℚ) < 10 := by norm_num
  have hestimate : (10 : ℚ) ^ (k : Int) ≤ 2 ^ ((l + 65 : Nat) : Int) := by
    rw [zpow_natCast, zpow_natCast]
    exact_mod_cast pow_estimate_le (k := k) hlog (by omega)
  have hvalue : (2 : ℚ) ^ (l : Int) * 10 ^ d.exponent ≤ d.value :=
    mul_le_mul_of_nonneg_right hdigits (zpow_nonneg hten.le _)
  refine lt_irrefl ((2 : ℚ) ^ (65 + 1025 : Int)) ?_
  calc (2 : ℚ) ^ (65 + 1025 : Int) ≤ 2 ^ (3 * (k + d.exponent)) :=
        zpow_le_zpow_right₀ one_le_two (by omega)
    _ ≤ 10 ^ (k + d.exponent) := le_zpow_ten (by omega)
    _ = 10 ^ (k : Int) * 10 ^ d.exponent := zpow_add₀ hten.ne' ..
    _ ≤ 2 ^ ((l + 65 : Nat) : Int) * 10 ^ d.exponent :=
        mul_le_mul_of_nonneg_right hestimate (zpow_nonneg hten.le _)
    _ = 2 ^ (65 : Int) * (2 ^ (l : Int) * 10 ^ d.exponent) := by
        rw [show ((l + 65 : Nat) : Int) = 65 + l by omega, zpow_add₀ two_ne_zero, mul_assoc]
    _ ≤ 2 ^ (65 : Int) * d.value := mul_le_mul_of_nonneg_left hvalue (zpow_nonneg zero_le_two _)
    _ < 2 ^ (65 : Int) * 2 ^ (1025 : Int) := mul_lt_mul_of_pos_left h.upper (zpow_pos two_pos _)
    _ = 2 ^ (65 + 1025 : Int) := (zpow_add₀ two_ne_zero ..).symm

end InRange

/-- The value as the quotient that is rounded. -/
theorem value_eq_div (d : Decimal) :
    d.value = (d.digits * 10 ^ d.exponent.toNat : Nat) / (10 ^ (-d.exponent).toNat : Nat) := by
  have hzpow := zpow_eq_div (b := 10) (by decide) d.exponent
  push_cast at hzpow ⊢
  rw [value, hzpow, mul_div_assoc]

/-- A decimal in range is rounded. -/
theorem InRange.ofDecimal_eq (h : d.InRange) (s : Bool) :
    ofDecimal s d.digits d.exponent =
      ofRatio s (d.digits * 10 ^ d.exponent.toNat) (10 ^ (-d.exponent).toNat) := by
  simp only [ofDecimal, h.digits_ne_zero, if_false, Nat.pow_eq]
  rw [if_neg (not_lt.mpr h.estimate_le), if_neg (not_lt.mpr h.le_estimate)]

/-- **The double of a decimal** depends on the value alone. -/
theorem InRange.ofDecimal_congr (h : d.InRange) (h' : d'.InRange) (hvalue : d.value = d'.value)
    (s : Bool) : ofDecimal s d.digits d.exponent = ofDecimal s d'.digits d'.exponent := by
  have hpos : ∀ x : Int, 0 < 10 ^ (-x).toNat := fun x => Nat.pow_pos (by decide)
  rw [h.ofDecimal_eq, h'.ofDecimal_eq]
  refine ofRatio_congr s (hpos _) (hpos _) ?_
  rw [value_eq_div, value_eq_div, div_eq_div_iff (Nat.cast_ne_zero.mpr (hpos _).ne')
    (Nat.cast_ne_zero.mpr (hpos _).ne')] at hvalue
  exact_mod_cast hvalue

/-- A decimal that reads back, told by what it is read as. -/
theorem exists_of_readsBack {m : Nat} {e : Int} (h : d.readsBack m e = true) :
    ∃ t hc, ofDecimal false d.digits d.exponent = .finite t m e hc := by
  rw [readsBack] at h
  split at h
  next t m' e' hc heq =>
    simp only [Bool.and_eq_true, beq_iff_eq] at h
    obtain ⟨rfl, rfl⟩ := h
    exact ⟨t, hc, heq⟩
  next => cases h

/-- A decimal that reads back is read with any sign. -/
theorem ofDecimal_of_readsBack {m : Nat} {e : Int} (hc : Canonical m e) (h : d.readsBack m e = true)
    (s : Bool) : ofDecimal s d.digits d.exponent = .finite s m e hc := by
  obtain ⟨t, hc', heq⟩ := exists_of_readsBack h
  have hzero : zero false = .finite t m e hc' → zero s = .finite s m e hc := by
    intro heq
    obtain ⟨-, rfl, rfl⟩ := Double.finite.inj heq
    rfl
  simp only [ofDecimal] at heq ⊢
  split at heq
  next hdigits =>
    rw [if_pos hdigits]
    exact hzero heq
  next hdigits =>
    rw [if_neg hdigits]
    split at heq
    next => cases heq
    next hlarge =>
      rw [if_neg hlarge]
      split at heq
      next hsmall =>
        rw [if_pos hsmall]
        exact hzero heq
      next hsmall =>
        rw [if_neg hsmall]
        exact ofRatio_of_false heq s

/-- A decimal that reads back as a double other than zero is in range. -/
theorem inRange_of_readsBack {m : Nat} {e : Int} (hm : m ≠ 0) (hexponent : -1100 ≤ d.exponent)
    (h : d.readsBack m e = true) : d.InRange := by
  obtain ⟨t, hc, heq⟩ := exists_of_readsBack h
  have hzero : zero false ≠ .finite t m e hc := fun heq => hm (Double.finite.inj heq).2.1.symm
  simp only [ofDecimal, Nat.pow_eq] at heq
  split at heq
  next => exact absurd heq hzero
  next =>
    split at heq
    next => cases heq
    next =>
      split at heq
      next => exact absurd heq hzero
      next =>
        obtain ⟨hlower, hupper⟩ := ofRatio_bounds hm (Nat.pow_pos (by decide)) heq
        rw [← value_eq_div] at hlower hupper
        exact ⟨hlower, hupper, hexponent⟩

/-- Moving a factor of ten does not change the value. -/
theorem value_stripZeros (k : Nat) (d : Decimal) :
    (stripZeros k d).value = d.value ∧ d.exponent ≤ (stripZeros k d).exponent := by
  induction k generalizing d with
  | zero => exact ⟨rfl, Int.le_refl _⟩
  | succ k ih =>
      rw [stripZeros]
      split
      next hdigits =>
        obtain ⟨hvalue, hexponent⟩ := ih ⟨d.digits / 10, d.exponent + 1⟩
        refine ⟨hvalue.trans ?_, Int.le_trans (Int.le_of_lt (Int.lt_succ _)) hexponent⟩
        have hten : (d.digits : ℚ) = (d.digits / 10 : Nat) * 10 := by
          exact_mod_cast (Nat.div_mul_cancel (Nat.dvd_of_mod_eq_zero hdigits.2)).symm
        rw [value, value, hten, zpow_add_one₀ (by norm_num)]
        ring
      next => exact ⟨rfl, Int.le_refl _⟩

theorem InRange.stripZeros (h : d.InRange) (k : Nat) : (d.stripZeros k).InRange := by
  obtain ⟨hvalue, hexponent⟩ := value_stripZeros k d
  exact ⟨hvalue ▸ h.lower, hvalue ▸ h.upper, Int.le_trans h.exponent hexponent⟩

end Decimal

/-! ### The shortest decimal -/

variable {m : Nat} {e : Int}

/-- The digits of the exact expansion, multiplied out. -/
theorem expansion_digits (m : Nat) (e : Int) :
    (expansion m e).digits * 10 ^ (expansion m e).exponent.toNat * 2 ^ (-e).toNat =
      m * (10 ^ (-(expansion m e).exponent).toNat * 2 ^ e.toNat) := by
  have hten : (10 : Nat) ^ (-e).toNat = 5 ^ (-e).toNat * 2 ^ (-e).toNat := by rw [← Nat.mul_pow]
  have hnonneg : (min e 0).toNat = 0 := by omega
  have hneg : (-(min e 0)).toNat = (-e).toNat := by omega
  show m * 2 ^ e.toNat * 5 ^ (-e).toNat * 10 ^ (min e 0).toNat * 2 ^ (-e).toNat =
    m * (10 ^ (-(min e 0)).toNat * 2 ^ e.toNat)
  rw [hnonneg, hneg, hten]
  ring

/-- The exact expansion has the value of the double. -/
theorem value_expansion (m : Nat) (e : Int) : (expansion m e).value = m * 2 ^ e := by
  have hzpow := zpow_eq_div two_ne_zero e
  have hcast := congrArg (Nat.cast : Nat → ℚ) (expansion_digits m e)
  push_cast at hzpow hcast
  rw [Decimal.value_eq_div, hzpow, mul_div_assoc', div_eq_div_iff
    (Nat.cast_ne_zero.mpr (Nat.pow_pos (by decide)).ne') (pow_ne_zero _ two_ne_zero)]
  push_cast
  rw [hcast]
  ring

/-- The exact expansion of a double is in range, -/
theorem inRange_expansion (hc : Canonical m e) (hm : m ≠ 0) : (expansion m e).InRange := by
  have hpower : (0 : ℚ) < 2 ^ e := zpow_pos two_pos e
  have hone : (1 : ℚ) ≤ m := by exact_mod_cast Nat.pos_of_ne_zero hm
  have hlt : (m : ℚ) < 2 ^ ((53 : Nat) : Int) := by
    rw [zpow_natCast]
    exact_mod_cast hc.1
  have hleast := hc.2.1
  have hgreatest := hc.2.2.1
  have hexponent : -1100 ≤ min e 0 := by omega
  refine ⟨?_, ?_, hexponent⟩ <;> rw [value_expansion]
  · calc (2 : ℚ) ^ (-1075 : Int) ≤ 2 ^ e := zpow_le_zpow_right₀ one_le_two (by omega)
      _ ≤ m * 2 ^ e := le_mul_of_one_le_left hpower.le hone
  · calc (m : ℚ) * 2 ^ e < 2 ^ ((53 : Nat) : Int) * 2 ^ e := mul_lt_mul_of_pos_right hlt hpower
      _ = 2 ^ ((53 : Nat) + e : Int) := (zpow_add₀ two_ne_zero ..).symm
      _ ≤ 2 ^ (1025 : Int) := zpow_le_zpow_right₀ one_le_two (by omega)

/-- and it reads back. -/
theorem expansion_readsBack (hc : Canonical m e) (hm : m ≠ 0) :
    (expansion m e).readsBack m e = true := by
  have hexact := ofRatio_exact false hc hm (Nat.pow_pos (by decide)) (expansion_digits m e)
  rw [Decimal.readsBack, (inRange_expansion hc hm).ofDecimal_eq, hexact]
  simp

/-- The leading digit of a double does not stand too far behind the point. -/
theorem floorLog10_bound (hc : Canonical m e) (hm : m ≠ 0) :
    -330 ≤ floorLog10 (magnitude m e).1 (magnitude m e).2 := by
  have hlog : floorLog2 (magnitude m e).1 (magnitude m e).2 = m.log2 + e := by
    have hpos := Nat.two_pow_pos e.toNat
    refine floorLog2_of_exact (Nat.mul_ne_zero hm hpos.ne') (Nat.two_pow_pos _) hm ?_
    show m * 2 ^ e.toNat * 2 ^ (-e).toNat = m * (2 ^ (-e).toNat * 2 ^ e.toNat)
    ring
  have hleast := hc.2.1
  simp only [floorLog10, hlog, Int.fdiv_eq_ediv_of_nonneg _ (show (0 : Int) ≤ 100000 by decide)]
  split
  · omega
  · split <;> omega

/-- **Whatever the search finds reads back.** -/
theorem searchShortest_readsBack (hc : Canonical m e) (hm : m ≠ 0) {lead : Int} (hlead : -330 ≤ lead)
    {fuel n : Nat} (hn : n + fuel ≤ 18) :
    (searchShortest m e lead fuel n).readsBack m e = true ∧
      -1100 ≤ (searchShortest m e lead fuel n).exponent := by
  induction fuel generalizing n with
  | zero => exact ⟨expansion_readsBack hc hm, (inRange_expansion hc hm).exponent⟩
  | succ fuel ih =>
      rcases hpair : neighbours (magnitude m e).1 (magnitude m e).2 (lead - n + 1) with ⟨near, far⟩
      have hnearExponent : near.exponent = lead - n + 1 := (congrArg (·.1.exponent) hpair).symm
      have hfarExponent : far.exponent = lead - n + 1 := (congrArg (·.2.exponent) hpair).symm
      simp only [searchShortest, hpair]
      cases hnear : near.readsBack m e with
      | true =>
          rw [if_pos rfl]
          exact ⟨hnear, by omega⟩
      | false =>
          rw [if_neg Bool.false_ne_true]
          cases hfar : far.readsBack m e with
          | true =>
              rw [if_pos rfl]
              exact ⟨hfar, by omega⟩
          | false =>
              rw [if_neg Bool.false_ne_true]
              exact ih (by omega)

/-- **The shortest decimal of a double** is in range, unless the double is zero. -/
theorem inRange_shortest (hc : Canonical m e) (hm : m ≠ 0) : (shortest m e).InRange := by
  obtain ⟨hreads, hexponent⟩ :=
    searchShortest_readsBack hc hm (floorLog10_bound hc hm) (Nat.le_refl (1 + 17))
  rw [shortest, if_neg hm]
  exact (Decimal.inRange_of_readsBack hm hexponent hreads).stripZeros 400

/-- **The shortest decimal of a double reads back**, with either sign. -/
theorem ofDecimal_shortest (hc : Canonical m e) (s : Bool) :
    ofDecimal s (shortest m e).digits (shortest m e).exponent = .finite s m e hc := by
  by_cases hm : m = 0
  · subst hm
    obtain rfl : e = -1074 := hc.2.2.2.resolve_left (by decide)
    rfl
  · obtain ⟨hreads, hexponent⟩ :=
      searchShortest_readsBack hc hm (floorLog10_bound hc hm) (Nat.le_refl (1 + 17))
    have hrange := Decimal.inRange_of_readsBack hm hexponent hreads
    rw [(inRange_shortest hc hm).ofDecimal_congr hrange ?_, Decimal.ofDecimal_of_readsBack hc hreads]
    rw [shortest, if_neg hm]
    exact (Decimal.value_stripZeros 400 _).1

end JanetEmbedding.Double
