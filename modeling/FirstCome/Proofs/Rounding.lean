import FirstCome.Report
import Mathlib.Tactic

/-!
Rounding keeps the order: of quotients to integers, and of fractions to binary numbers. A ratio of at
most one is thus not written as more than one.
-/
namespace FirstCome
namespace Decimal

variable {num den num' den' k : Nat}

theorem roundDiv_even_of_half (hd : 0 < den) (h : 2 * num = (2 * k + 1) * den) :
    roundDiv num den % 2 = 0 := by
  have hsplit := Nat.div_add_mod num den
  have hlt := Nat.mod_lt num hd
  have hquot : num / den = k := by
    refine Nat.div_eq_of_lt_le ?_ ?_ <;> nlinarith
  rw [hquot] at hsplit
  have hrem : 2 * (num % den) = den := by nlinarith
  simp only [roundDiv, hquot, hrem, lt_irrefl, if_false]
  omega

theorem roundDiv_near_rat (num : Nat) (hd : 0 < den) :
    (num / den : ℚ) - 1 / 2 ≤ roundDiv num den ∧ (roundDiv num den : ℚ) ≤ num / den + 1 / 2 := by
  obtain ⟨habove, hbelow⟩ := roundDiv_near num hd
  have hden : (0 : ℚ) < den := by exact_mod_cast hd
  have habove' : (2 * num : ℚ) ≤ 2 * (roundDiv num den * den) + den := by exact_mod_cast habove
  have hbelow' : 2 * ((roundDiv num den : ℚ) * den) ≤ 2 * num + den := by exact_mod_cast hbelow
  constructor
  · rw [sub_le_iff_le_add, div_le_iff₀ hden]
    linarith
  · rw [← sub_le_iff_le_add, le_div_iff₀ hden]
    linarith

theorem roundDiv_mono (hd : 0 < den) (hd' : 0 < den') (h : (num / den : ℚ) ≤ num' / den') :
    roundDiv num den ≤ roundDiv num' den' := by
  by_contra hlt
  have hsucc : (roundDiv num' den' : ℚ) + 1 ≤ roundDiv num den := by
    exact_mod_cast Nat.succ_le_of_lt (Nat.lt_of_not_le hlt)
  have hbelow := (roundDiv_near_rat num hd).2
  have habove := (roundDiv_near_rat num' hd').1
  -- only the same half can be rounded in both directions, and a half is rounded in one
  have hhalf {n d : Nat} (hpos : 0 < d) (hn : (n / d : ℚ) = roundDiv num' den' + 1 / 2) :
      roundDiv n d % 2 = 0 := by
    have hden : (d : ℚ) ≠ 0 := by exact_mod_cast hpos.ne'
    rw [div_eq_iff hden] at hn
    refine roundDiv_even_of_half (k := roundDiv num' den') hpos ?_
    have htwice : (2 * n : ℚ) = (2 * roundDiv num' den' + 1) * d := by linarith
    exact_mod_cast htwice
  have heven : roundDiv num den % 2 = 0 := hhalf hd (by linarith)
  have heven' : roundDiv num' den' % 2 = 0 := hhalf hd' (by linarith)
  have hnext : (roundDiv num den : ℚ) = roundDiv num' den' + 1 := by linarith
  have hnext' : roundDiv num den = roundDiv num' den' + 1 := by exact_mod_cast hnext
  omega

theorem le_roundDiv (hd : 0 < den) (h : (k : ℚ) ≤ num / den) : k ≤ roundDiv num den := by
  have hk : ((k * 1 : ℕ) / (1 : ℕ) : ℚ) ≤ num / den := by simpa using h
  rw [← roundDiv_mul k one_pos]
  exact roundDiv_mono one_pos hd hk

theorem roundDiv_le (hd : 0 < den) (h : (num / den : ℚ) ≤ k) : roundDiv num den ≤ k := by
  have hk : (num / den : ℚ) ≤ (k * 1 : ℕ) / (1 : ℕ) := by simpa using h
  rw [← roundDiv_mul k one_pos]
  exact roundDiv_mono hd one_pos hk

namespace Binary

def toRat (x : Binary) : ℚ := x.significand * 2 ^ x.exponent

theorem two_zpow (e : Int) : (2 : ℚ) ^ e = 2 ^ e.toNat / 2 ^ (-e).toNat := by
  obtain ⟨n, rfl | rfl⟩ := e.eq_nat_or_neg
  · simp
  · simp

theorem toRat_eq (x : Binary) : x.toRat = x.fraction.1 / x.fraction.2 := by
  simp only [toRat, two_zpow, fraction, Nat.shiftLeft_eq, one_mul]
  push_cast
  ring

theorem toRat_nonneg (x : Binary) : 0 ≤ x.toRat := by
  unfold toRat
  positivity

theorem fraction_snd_pos (x : Binary) : 0 < x.fraction.2 := by
  simp [fraction, Nat.shiftLeft_eq]

theorem scaled_eq (num den : Nat) (e : Int) :
    ((scaled num den e).1 : ℚ) / (scaled num den e).2 = num / den / 2 ^ e := by
  simp only [two_zpow, scaled, Nat.shiftLeft_eq]
  push_cast
  field_simp

theorem scaled_snd_pos (hd : 0 < den) (e : Int) : 0 < (scaled num den e).2 := by
  simp [scaled, Nat.shiftLeft_eq, hd]

theorem scaled_le_iff (hd : 0 < den) (e : Int) :
    (scaled num den e).2 ≤ (scaled num den e).1 ↔ (2 : ℚ) ^ e ≤ num / den := by
  have hpos : (0 : ℚ) < (scaled num den e).2 := by exact_mod_cast scaled_snd_pos hd e
  have hunit : (0 : ℚ) < 2 ^ e := by positivity
  rw [← one_le_div₀ hunit, ← scaled_eq, one_le_div₀ hpos, Nat.cast_le]

theorem log2_spec (hn : 0 < num) (hd : 0 < den) :
    (2 : ℚ) ^ log2 num den ≤ num / den ∧ (num / den : ℚ) < 2 ^ (log2 num den + 1) := by
  have hden : (0 : ℚ) < den := by exact_mod_cast hd
  have hnum_le : (2 : ℚ) ^ num.log2 ≤ num := by exact_mod_cast Nat.log2_self_le hn.ne'
  have hnum_lt : (num : ℚ) < 2 ^ (num.log2 + 1) := by exact_mod_cast Nat.lt_log2_self
  have hden_le : (2 : ℚ) ^ den.log2 ≤ den := by exact_mod_cast Nat.log2_self_le hd.ne'
  have hden_lt : (den : ℚ) < 2 ^ (den.log2 + 1) := by exact_mod_cast Nat.lt_log2_self
  -- the logarithms of the parts leave two candidates
  have hlow : (2 : ℚ) ^ ((num.log2 : Int) - den.log2 - 1) ≤ num / den := by
    rw [sub_sub, zpow_sub₀ two_ne_zero]
    exact div_le_div₀ (by positivity) (by exact_mod_cast hnum_le) hden (by exact_mod_cast hden_lt.le)
  have hhigh : (num / den : ℚ) < 2 ^ ((num.log2 : Int) - den.log2 + 1) := by
    rw [sub_add_eq_add_sub, zpow_sub₀ two_ne_zero]
    exact div_lt_div₀ (by exact_mod_cast hnum_lt) (by exact_mod_cast hden_le) (by positivity)
      (by positivity)
  unfold log2
  dsimp only
  split
  next hle => exact ⟨(scaled_le_iff hd _).mp hle, hhigh⟩
  next hnot =>
    rw [scaled_le_iff hd, not_le] at hnot
    rw [sub_add_cancel]
    exact ⟨hlow, hnot⟩

theorem log2_mono (hn : 0 < num) (hd : 0 < den) (hn' : 0 < num') (hd' : 0 < den')
    (h : (num / den : ℚ) ≤ num' / den') : log2 num den ≤ log2 num' den' := by
  have hlt : (2 : ℚ) ^ log2 num den < 2 ^ (log2 num' den' + 1) :=
    ((log2_spec hn hd).1.trans h).trans_lt (log2_spec hn' hd').2
  exact Int.lt_add_one_iff.mp ((zpow_lt_zpow_iff_right₀ one_lt_two).mp hlt)

/-! ### Fractions in units of a power of two -/

/-- The fraction in units of `2^e`, rounded. -/
def units (num den : Nat) (e : Int) : Nat := roundDiv (scaled num den e).1 (scaled num den e).2

theorem units_mono (hd : 0 < den) (hd' : 0 < den') (h : (num / den : ℚ) ≤ num' / den') (e : Int) :
    units num den e ≤ units num' den' e := by
  refine roundDiv_mono (scaled_snd_pos hd e) (scaled_snd_pos hd' e) ?_
  rw [scaled_eq, scaled_eq]
  exact div_le_div_of_nonneg_right h (by positivity)

theorem le_units (hd : 0 < den) {e : Int} (h : (k * 2 ^ e : ℚ) ≤ num / den) : k ≤ units num den e := by
  refine le_roundDiv (scaled_snd_pos hd e) ?_
  rw [scaled_eq]
  exact (le_div_iff₀ (by positivity)).mpr h

theorem units_le (hd : 0 < den) {e : Int} (h : (num / den : ℚ) ≤ k * 2 ^ e) : units num den e ≤ k := by
  refine roundDiv_le (scaled_snd_pos hd e) ?_
  rw [scaled_eq]
  exact (div_le_iff₀ (by positivity)).mpr h

def unitExponent (num den : Nat) : Int := max leastExponent (log2 num den - (precision - 1))

theorem toRat_ofRatio (hn : 0 < num) (hd : 0 < den) :
    (ofRatio num den).toRat =
      units num den (unitExponent num den) * 2 ^ unitExponent num den := by
  have hrounded : ofRatio num den =
      if units num den (unitExponent num den) = 1 <<< precision then
        ⟨1 <<< (precision - 1), unitExponent num den + 1⟩
      else ⟨units num den (unitExponent num den), unitExponent num den⟩ := by
    rw [ofRatio, if_neg (by omega)]
    rfl
  rw [hrounded]
  split
  next hm =>
    rw [hm, toRat, zpow_add_one₀ two_ne_zero]
    simp only [Nat.shiftLeft_eq, precision]
    push_cast
    ring
  · rfl

theorem toRat_ofRatio_of_zero (h : num = 0 ∨ den = 0) : (ofRatio num den).toRat = 0 := by
  simp [ofRatio, h, toRat]

theorem units_le_of_precision (hn : 0 < num) (hd : 0 < den) :
    units num den (unitExponent num den) ≤ 2 ^ precision := by
  refine units_le hd ((log2_spec hn hd).2.le.trans ?_)
  have hle : log2 num den + 1 ≤ precision + unitExponent num den := by
    unfold unitExponent
    omega
  calc (2 : ℚ) ^ (log2 num den + 1)
      ≤ 2 ^ (precision + unitExponent num den) := zpow_le_zpow_right₀ one_le_two hle
    _ = (2 ^ precision : ℕ) * 2 ^ unitExponent num den := by
        rw [zpow_add₀ two_ne_zero, zpow_natCast]
        push_cast
        rfl

theorem le_units_of_precision (hn : 0 < num) (hd : 0 < den)
    (h : leastExponent < unitExponent num den) :
    2 ^ (precision - 1) ≤ units num den (unitExponent num den) := by
  refine le_units hd (le_trans (le_of_eq ?_) (log2_spec hn hd).1)
  have heq : log2 num den = (precision - 1 : ℕ) + unitExponent num den := by
    simp only [unitExponent, precision] at h ⊢
    omega
  rw [heq, zpow_add₀ two_ne_zero, zpow_natCast]
  push_cast
  rfl

theorem ofRatio_mono (hd : 0 < den) (hd' : 0 < den') (h : (num / den : ℚ) ≤ num' / den') :
    (ofRatio num den).toRat ≤ (ofRatio num' den').toRat := by
  obtain rfl | hn := num.eq_zero_or_pos
  · rw [toRat_ofRatio_of_zero (.inl rfl)]
    exact toRat_nonneg _
  have hn' : 0 < num' := by
    by_contra hzero
    obtain rfl : num' = 0 := by omega
    have hpos : (0 : ℚ) < num / den := by positivity
    simp only [Nat.cast_zero, zero_div] at h
    exact absurd h (not_le.mpr hpos)
  have hlog := log2_mono hn hd hn' hd' h
  have hle : unitExponent num den ≤ unitExponent num' den' := by
    unfold unitExponent
    omega
  rw [toRat_ofRatio hn hd, toRat_ofRatio hn' hd']
  obtain heq | hlt := hle.eq_or_lt
  · rw [heq]
    have hunits : (units num den (unitExponent num' den') : ℚ) ≤
        units num' den' (unitExponent num' den') := by
      exact_mod_cast units_mono hd hd' h _
    exact mul_le_mul_of_nonneg_right hunits (by positivity)
  · -- the significand of the smaller is at most the least of the next exponent
    have hleast : leastExponent < unitExponent num' den' :=
      (le_max_left leastExponent (log2 num den - (precision - 1))).trans_lt hlt
    have hsmall : (units num den (unitExponent num den) : ℚ) ≤ 2 ^ precision := by
      exact_mod_cast units_le_of_precision hn hd
    have hlarge : (2 ^ (precision - 1) : ℚ) ≤ units num' den' (unitExponent num' den') := by
      exact_mod_cast le_units_of_precision hn' hd' hleast
    calc (units num den (unitExponent num den) : ℚ) * 2 ^ unitExponent num den
        ≤ 2 ^ precision * 2 ^ unitExponent num den :=
          mul_le_mul_of_nonneg_right hsmall (by positivity)
      _ = 2 ^ (precision - 1) * 2 ^ (unitExponent num den + 1) := by
          rw [zpow_add_one₀ two_ne_zero, precision]
          ring
      _ ≤ 2 ^ (precision - 1) * 2 ^ unitExponent num' den' :=
          mul_le_mul_of_nonneg_left (zpow_le_zpow_right₀ one_le_two hlt) (by positivity)
      _ ≤ units num' den' (unitExponent num' den') * 2 ^ unitExponent num' den' :=
          mul_le_mul_of_nonneg_right hlarge (by positivity)

theorem toRat_ofNat_mono {m n : Nat} (h : m ≤ n) : (ofNat m).toRat ≤ (ofNat n).toRat := by
  refine ofRatio_mono one_pos one_pos ?_
  simpa using h

variable {x y : Binary} {m n : Nat}

theorem toRat_ofRatio_le_ofNat (h : (num : ℚ) ≤ n * den) : (ofRatio num den).toRat ≤ (ofNat n).toRat := by
  obtain rfl | hd := den.eq_zero_or_pos
  · rw [toRat_ofRatio_of_zero (.inr rfl)]
    exact toRat_nonneg _
  have hden : (0 : ℚ) < den := by exact_mod_cast hd
  refine ofRatio_mono hd one_pos ?_
  rw [Nat.cast_one, div_one, div_le_iff₀ hden]
  exact h

theorem toRat_div_le_one (h : x.toRat ≤ y.toRat) : (x.div y).toRat ≤ (ofNat 1).toRat := by
  have hx : (0 : ℚ) < x.fraction.2 := by exact_mod_cast x.fraction_snd_pos
  have hy : (0 : ℚ) < y.fraction.2 := by exact_mod_cast y.fraction_snd_pos
  rw [toRat_eq, toRat_eq, div_le_div_iff₀ hx hy] at h
  have hle : ((x.fraction.1 * y.fraction.2 : ℕ) : ℚ) ≤
      (1 : ℕ) * (x.fraction.2 * y.fraction.1 : ℕ) := by
    push_cast
    linarith
  exact toRat_ofRatio_le_ofNat hle

theorem toRat_mul_le (hx : x.toRat ≤ 1) (hy : y.toRat ≤ n) : (x.mul y).toRat ≤ (ofNat n).toRat := by
  have hx' : (0 : ℚ) < x.fraction.2 := by exact_mod_cast x.fraction_snd_pos
  have hy' : (0 : ℚ) < y.fraction.2 := by exact_mod_cast y.fraction_snd_pos
  have hprod : x.toRat * y.toRat ≤ 1 * n :=
    mul_le_mul hx hy y.toRat_nonneg zero_le_one
  rw [toRat_eq, toRat_eq, div_mul_div_comm, div_le_iff₀ (mul_pos hx' hy'), one_mul] at hprod
  have hle : ((x.fraction.1 * y.fraction.1 : ℕ) : ℚ) ≤ n * (x.fraction.2 * y.fraction.2 : ℕ) := by
    push_cast
    exact hprod
  exact toRat_ofRatio_le_ofNat hle

theorem toRat_ofNat (h : n < 2 ^ precision) : (ofNat n).toRat = n := by
  obtain rfl | hn := n.eq_zero_or_pos
  · rw [ofNat, toRat_ofRatio_of_zero (.inl rfl), Nat.cast_zero]
  have hlog : log2 n 1 < precision := by
    have hle := (log2_spec hn one_pos).1
    have hlt : (n : ℚ) < 2 ^ precision := by exact_mod_cast h
    rw [Nat.cast_one, div_one] at hle
    rw [← zpow_natCast] at hlt
    exact (zpow_lt_zpow_iff_right₀ one_lt_two).mp (hle.trans_lt hlt)
  have hunit : (unitExponent n 1).toNat = 0 := by
    simp only [unitExponent, leastExponent, precision] at hlog ⊢
    omega
  have hunits : units n 1 (unitExponent n 1) = n * 2 ^ (-unitExponent n 1).toNat := by
    simp only [units, scaled, hunit, Nat.shiftLeft_eq, pow_zero, one_mul, roundDiv_one]
  rw [ofNat, toRat_ofRatio hn one_pos, hunits, two_zpow, hunit]
  push_cast
  field_simp

end Binary
end Decimal

namespace Ratio

open Decimal.Binary

variable {r : Ratio}

theorem toBinary_le_one (h : r.num ≤ r.den) :
    r.toBinary.toRat ≤ 1 ∧ (r.toBinary.mul (.ofNat 100)).toRat ≤ 100 := by
  have hone : (ofNat 1).toRat = 1 := by exact_mod_cast toRat_ofNat (n := 1) (by decide)
  have hhundred : (ofNat 100).toRat = 100 := by exact_mod_cast toRat_ofNat (n := 100) (by decide)
  have hle := (toRat_div_le_one (toRat_ofNat_mono h)).trans_eq hone
  refine ⟨hle, ?_⟩
  have hmul := toRat_mul_le (n := 100) hle (by exact_mod_cast hhundred.le)
  exact hmul.trans_eq hhundred

end Ratio
end FirstCome
