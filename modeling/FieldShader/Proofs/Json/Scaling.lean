import FieldShader.Json.Numeral
import FieldShader.Proofs.Number.Rounding

/-!
# How exactly a numeral is scaled

A numeral is scaled by a power of ten in double precision. The power is rounded, and so is the product
or the quotient, which together change the number by less than two units in its last place
(`Numeral.exists_scale`). Where the power is a double and the number that is meant has few bits, there
is no change at all (`Numeral.exists_scale_exact`).
-/

namespace FieldShader

namespace BinaryFormat

variable {x y : Magnitude}

/-- A positive magnitude has a positive numerator. -/
theorem num_pos_of_toRat_pos (h : 0 < x.toRat) : 0 < x.num := by
  rw [Magnitude.toRat_eq_div] at h
  have hden : (0 : ℚ) < x.den := by exact_mod_cast x.den_pos
  have hnum := (div_pos_iff_of_pos_right hden).1 h
  exact_mod_cast hnum

/-- The ratio that a product is rounded from. -/
theorem cast_mul_div (x y : Magnitude) :
    ((x.num * y.num : ℕ) : ℚ) / (x.den * y.den : ℕ) = x.toRat * y.toRat := by
  rw [Magnitude.toRat_eq_div, Magnitude.toRat_eq_div, div_mul_div_comm]
  push_cast
  rfl

/-- The ratio that a quotient is rounded from. -/
theorem cast_div_div (x y : Magnitude) :
    ((x.num * y.den : ℕ) : ℚ) / (x.den * y.num : ℕ) = x.toRat / y.toRat := by
  rw [Magnitude.toRat_eq_div, Magnitude.toRat_eq_div, div_div_div_eq]
  push_cast
  rfl

/-- A number that is neither tiny nor huge is rounded to a double next to it. -/
theorem exists_round_double {num den : Nat} (hden : 0 < den) (hlow : (2 : ℚ) ^ (-250 : ℤ) ≤ num / den)
    (hhigh : (num : ℚ) / den < 2 ^ (250 : ℤ)) :
    ∃ m, double.round num den = some m ∧ |m.toRat - num / den| ≤ num / den / 2 ^ 53 := by
  refine exists_round_near (f := double) (by decide) hden (le_trans ?_ hlow)
    (lt_of_lt_of_le hhigh ?_)
  · exact zpow_le_zpow_right₀ one_le_two (by decide)
  · exact zpow_le_zpow_right₀ one_le_two (by decide)

end BinaryFormat

namespace Numeral

open BinaryFormat

/-! ## Powers of ten -/

/-- A natural number of few bits is a double. -/
theorem toRat_nearestDouble {n : Nat} (h : n < 2 ^ 53) : (nearestDouble n).toRat = n := by
  by_cases hn : n = 0
  · subst hn
    rw [nearestDouble, round_zero]
    simp [Magnitude.toRat]
  · have hvalue : (n : ℚ) / (1 : ℕ) = n * 2 ^ (0 : ℤ) := by simp
    obtain ⟨m, hm, hexact⟩ := exists_round_exact (f := double) (by decide) one_pos hn h (by decide)
      (by decide) hvalue
    rw [nearestDouble, hm, Option.getD_some, hexact]
    simp

/-- A small power of ten is a double. -/
theorem toRat_powerOfTen {n : Nat} (h : n ≤ 22) : (powerOfTen n).toRat = 10 ^ n := by
  -- The power of two in it is not counted among the bits.
  have hbits : 5 ^ n < 2 ^ 53 := (Nat.pow_le_pow_right (by decide) h).trans_lt (by decide)
  have hsplit : ((5 ^ n : ℕ) : ℚ) * 2 ^ (n : ℤ) = 10 ^ n := by
    push_cast
    rw [zpow_natCast, ← mul_pow]
    norm_num
  have hvalue : ((10 ^ n : ℕ) : ℚ) / (1 : ℕ) = (5 ^ n : ℕ) * 2 ^ (n : ℤ) := by
    rw [hsplit]
    simp
  obtain ⟨m, hm, hexact⟩ := exists_round_exact (f := double) (by decide) one_pos (by positivity)
    hbits (by simp only [double]; omega) (by simp only [double]; omega) hvalue
  rw [powerOfTen, nearestDouble, Nat.pow_eq, hm, Option.getD_some, hexact, hsplit]

/-- A greater one is the double next to it. -/
theorem abs_powerOfTen_sub_le {n : Nat} (h : n ≤ 50) :
    |(powerOfTen n).toRat - 10 ^ n| ≤ 10 ^ n / 2 ^ 53 := by
  have hone : (1 : ℚ) ≤ 10 ^ n := one_le_pow₀ (by norm_num)
  have hbound : (10 : ℚ) ^ n ≤ 10 ^ 50 := pow_le_pow_right₀ (by norm_num) h
  have hcast : ((10 ^ n : ℕ) : ℚ) / (1 : ℕ) = 10 ^ n := by simp
  have hlow : (2 : ℚ) ^ (-250 : ℤ) ≤ ((10 ^ n : ℕ) : ℚ) / (1 : ℕ) := by
    rw [hcast]
    exact le_trans (by norm_num) hone
  have hhigh : ((10 ^ n : ℕ) : ℚ) / (1 : ℕ) < 2 ^ (250 : ℤ) := by
    rw [hcast]
    exact lt_of_le_of_lt hbound (by norm_num)
  obtain ⟨m, hm, hnear⟩ := exists_round_double one_pos hlow hhigh
  rw [powerOfTen, nearestDouble, Nat.pow_eq, hm, Option.getD_some]
  rwa [hcast] at hnear

/-- So it is not far from it. -/
theorem powerOfTen_bounds {n : Nat} (h : n ≤ 50) :
    1 / 2 < (powerOfTen n).toRat ∧ (powerOfTen n).toRat < 2 ^ 170 := by
  have hnear := abs_le.1 (abs_powerOfTen_sub_le h)
  have hone : (1 : ℚ) ≤ 10 ^ n := one_le_pow₀ (by norm_num)
  have hbound : (10 : ℚ) ^ n ≤ 10 ^ 50 := pow_le_pow_right₀ (by norm_num) h
  constructor <;> linarith [hnear.1, hnear.2]

/-! ## Scaling -/

/-- Two roundings of a product change it by less than two units. -/
theorem abs_sub_le_of_mul {w p t m : ℚ} (hw : 0 < w) (ht : 0 < t) (hp : |p - t| ≤ t / 2 ^ 53)
    (hm : |m - w * p| ≤ w * p / 2 ^ 53) : |m - w * t| ≤ 3 / 2 ^ 53 * (w * t) := by
  have hpos : 0 < w * t := mul_pos hw ht
  have hpower : |w * p - w * t| ≤ w * t / 2 ^ 53 := by
    rw [← mul_sub, abs_mul, abs_of_pos hw, mul_div_assoc]
    exact mul_le_mul_of_nonneg_left hp hw.le
  obtain ⟨hp1, hp2⟩ := abs_le.1 hpower
  obtain ⟨hm1, hm2⟩ := abs_le.1 hm
  rw [abs_le]
  constructor <;> linarith

/-- So do two roundings of a quotient. -/
theorem abs_sub_le_of_div {w p t m : ℚ} (hw : 0 < w) (ht : 0 < t) (hppos : 0 < p)
    (hp : |p - t| ≤ t / 2 ^ 53) (hm : |m - w / p| ≤ w / p / 2 ^ 53) :
    |m - w / t| ≤ 3 / 2 ^ 53 * (w / t) := by
  have hpos : 0 < w / p := div_pos hw hppos
  have hpower : |w / p - w / t| ≤ w / p / 2 ^ 53 := by
    have hdiff : w / p - w / t = w / p * ((t - p) / t) := by
      field_simp
    have hrel : |p - t| / t ≤ 1 / 2 ^ 53 := by
      rw [div_le_iff₀ ht]
      linarith
    rw [hdiff, abs_mul, abs_of_pos hpos, abs_div, abs_of_pos ht, abs_sub_comm, div_eq_mul_one_div (w / p)]
    exact mul_le_mul_of_nonneg_left hrel hpos.le
  obtain ⟨hp1, hp2⟩ := abs_le.1 hpower
  obtain ⟨hm1, hm2⟩ := abs_le.1 hm
  rw [abs_le]
  constructor <;> linarith

/-- Scaling multiplies by a power of ten or divides by one. -/
theorem scale_eq {w : Nat} {k : ℤ} (hk : k.natAbs ≤ 50) {m : Magnitude}
    (h : (if k < 0 then double.div (nearestDouble w) (powerOfTen k.natAbs)
      else double.mul (nearestDouble w) (powerOfTen k.natAbs)) = some m) :
    scale w k = .ok m := by
  unfold scale
  dsimp only
  by_cases hneg : k < 0
  · rw [if_pos hneg] at h ⊢
    rw [scaleDown, if_pos (by omega), h, Option.getD_some]
  · rw [if_neg hneg] at h ⊢
    have hnat : k.toNat = k.natAbs := by omega
    rw [if_pos (by omega), hnat, h]

/-- **Scaling is nearly exact**: it is off by less than two units in the last place. -/
theorem exists_scale {w : Nat} {k : ℤ} (hw : w ≠ 0) (hbits : w < 2 ^ 53) (hk : k.natAbs ≤ 50) :
    ∃ m, scale w k = .ok m ∧ |m.toRat - w * 10 ^ k| ≤ 3 / 2 ^ 53 * (w * 10 ^ k) := by
  have hvalue := toRat_nearestDouble hbits
  obtain ⟨hplow, hphigh⟩ := powerOfTen_bounds hk
  have hpower := abs_powerOfTen_sub_le hk
  have hwlow : (1 : ℚ) ≤ w := by exact_mod_cast Nat.pos_of_ne_zero hw
  have hwhigh : (w : ℚ) < 2 ^ 53 := by exact_mod_cast hbits
  have hppos : 0 < (powerOfTen k.natAbs).toRat := by linarith
  have hten : (0 : ℚ) < 10 ^ k.natAbs := by positivity
  by_cases hneg : k < 0
  · have hratio := cast_div_div (nearestDouble w) (powerOfTen k.natAbs)
    rw [hvalue] at hratio
    have hlow : (2 : ℚ) ^ (-250 : ℤ) ≤ w / (powerOfTen k.natAbs).toRat := by
      rw [le_div_iff₀ hppos]
      norm_num at hphigh ⊢
      linarith
    have hhigh : w / (powerOfTen k.natAbs).toRat < 2 ^ (250 : ℤ) := by
      rw [div_lt_iff₀ hppos]
      calc (w : ℚ) < 2 ^ (250 : ℤ) * (1 / 2) := hwhigh.trans (by norm_num)
        _ ≤ 2 ^ (250 : ℤ) * (powerOfTen k.natAbs).toRat := by gcongr
    rw [← hratio] at hlow hhigh
    obtain ⟨m, hm, hnear⟩ := exists_round_double
      (Nat.mul_pos (nearestDouble w).den_pos (num_pos_of_toRat_pos hppos)) hlow hhigh
    rw [hratio] at hnear
    refine ⟨m, scale_eq hk (by rw [if_pos hneg]; exact hm), ?_⟩
    have hexp : (w : ℚ) * 10 ^ k = w / 10 ^ k.natAbs := by
      have hk' : k = -(k.natAbs : ℤ) := by omega
      rw [div_eq_mul_inv, ← zpow_natCast, ← zpow_neg, ← hk']
    rw [hexp]
    exact abs_sub_le_of_div (by linarith) hten hppos hpower hnear
  · have hratio := cast_mul_div (nearestDouble w) (powerOfTen k.natAbs)
    rw [hvalue] at hratio
    have hlow : (2 : ℚ) ^ (-250 : ℤ) ≤ w * (powerOfTen k.natAbs).toRat := by
      norm_num
      nlinarith
    have hhigh : w * (powerOfTen k.natAbs).toRat < 2 ^ (250 : ℤ) := by
      calc w * (powerOfTen k.natAbs).toRat < 2 ^ 53 * 2 ^ 170 :=
            mul_lt_mul'' hwhigh hphigh (by linarith) (by linarith)
        _ < 2 ^ (250 : ℤ) := by norm_num
    rw [← hratio] at hlow hhigh
    obtain ⟨m, hm, hnear⟩ := exists_round_double
      (Nat.mul_pos (nearestDouble w).den_pos (powerOfTen k.natAbs).den_pos) hlow hhigh
    rw [hratio] at hnear
    refine ⟨m, scale_eq hk (by rw [if_neg hneg]; exact hm), ?_⟩
    have hexp : (w : ℚ) * 10 ^ k = w * 10 ^ k.natAbs := by
      have hk' : k = (k.natAbs : ℤ) := by omega
      rw [← zpow_natCast, ← hk']
    rw [hexp]
    exact abs_sub_le_of_mul (by linarith) hten hpower hnear

/-- **Scaling is exact** if the power of ten is a double and the result has few bits. -/
theorem exists_scale_exact {w b : Nat} {k q : ℤ} (hw : w ≠ 0) (hbits : w < 2 ^ 53)
    (hk : k.natAbs ≤ 22) (hb : b < 2 ^ 53) (hlow : -1074 ≤ q) (hhigh : q < 971)
    (h : (w : ℚ) * 10 ^ k = b * 2 ^ q) : ∃ m, scale w k = .ok m ∧ m.toRat = w * 10 ^ k := by
  have hvalue := toRat_nearestDouble hbits
  have hpower := toRat_powerOfTen hk
  have hppos : 0 < (powerOfTen k.natAbs).toRat := by
    rw [hpower]
    positivity
  have hbne : b ≠ 0 := by
    rintro rfl
    have hpos : (0 : ℚ) < w * 10 ^ k :=
      mul_pos (by exact_mod_cast Nat.pos_of_ne_zero hw) (zpow_pos (by norm_num) k)
    rw [h] at hpos
    simp at hpos
  by_cases hneg : k < 0
  · have hratio := cast_div_div (nearestDouble w) (powerOfTen k.natAbs)
    have hexp : (w : ℚ) / 10 ^ k.natAbs = b * 2 ^ q := by
      have hk' : k = -(k.natAbs : ℤ) := by omega
      rw [← h, div_eq_mul_inv, ← zpow_natCast, ← zpow_neg, ← hk']
    rw [hvalue, hpower, hexp] at hratio
    obtain ⟨m, hm, hexact⟩ := exists_round_exact (f := double) (by decide)
      (Nat.mul_pos (nearestDouble w).den_pos (num_pos_of_toRat_pos hppos)) hbne hb hlow hhigh hratio
    exact ⟨m, scale_eq (hk.trans (by decide)) (by rw [if_pos hneg]; exact hm), hexact.trans h.symm⟩
  · have hratio := cast_mul_div (nearestDouble w) (powerOfTen k.natAbs)
    have hexp : (w : ℚ) * 10 ^ k.natAbs = b * 2 ^ q := by
      have hk' : k = (k.natAbs : ℤ) := by omega
      rw [← h, ← zpow_natCast, ← hk']
    rw [hvalue, hpower, hexp] at hratio
    obtain ⟨m, hm, hexact⟩ := exists_round_exact (f := double) (by decide)
      (Nat.mul_pos (nearestDouble w).den_pos (powerOfTen k.natAbs).den_pos) hbne hb hlow hhigh hratio
    exact ⟨m, scale_eq (hk.trans (by decide)) (by rw [if_neg hneg]; exact hm), hexact.trans h.symm⟩

end Numeral

end FieldShader
