import FieldShader.Proofs.Number.Boundary
import FieldShader.Proofs.Number.Nearest

/-!
# The margin of the shortest decimal

The shortest decimal of a number of single precision is either at an end of the interval of that number
or at some distance from both: a decimal on a fine grid is next to the number, and one on a coarse grid
does not come near a boundary (`eq_boundary_of_near`). So what differs from the shortest decimal by a
small part of it still rounds to the same number (`BinaryFormat.near_of_close`), except that nothing is
said about a few numbers beside the exceptional boundary.
-/

namespace FieldShader

namespace BinaryFormat

variable {x : Magnitude} {d : Decimal} {y : ℚ}

/-- The numbers on both sides of the exceptional boundary. -/
def BesideException (x : Magnitude) : Prop :=
  (x.exponent = -107 ∨ x.exponent = -106) ∧ (x.significand = 11420669 ∨ x.significand = 11420670)

/-- The number differs from another by so small a part of it that two roundings to a double may come
to that. -/
def Close (y r : ℚ) : Prop := |y - r| ≤ 3 / 2 ^ 53 * r

/-! ## The two ends, counted in units -/

/-- The magnitude and the ends of its interval. -/
theorem ends_eq (x : Magnitude) :
    single.lowerEnd x = x.toRat - single.lowerPart x * 2 ^ x.exponent ∧
      upperEnd x = x.toRat + 2 ^ x.exponent / 2 := by
  rw [lowerEnd, upperEnd, Magnitude.toRat]
  constructor <;> ring

/-- A small part of a number near the magnitude is a small part of the unit. -/
theorem mul_toRat_lt (hx : single.Canonical x) (h : single.Near x d.toRat) :
    3 / 2 ^ 53 * d.toRat < 1 / 2 ^ 20 * 2 ^ x.exponent := by
  have hunit := two_zpow_pos x.exponent
  have hbits : (x.significand : ℚ) + 1 ≤ 2 ^ 24 := by
    exact_mod_cast Nat.succ_le_of_lt hx.significand_lt
  have hupper : d.toRat ≤ 2 ^ 24 * 2 ^ x.exponent := by
    refine h.upper.trans ?_
    rw [upperEnd]
    gcongr
    linarith
  linarith

/-- A decimal near a positive magnitude has a digit other than zero. -/
theorem digits_ne_zero_of_near (hpos : x.significand ≠ 0) (h : single.Near x d.toRat) :
    d.digits ≠ 0 := by
  intro hzero
  have hone : (1 : ℚ) ≤ x.significand := by exact_mod_cast Nat.pos_of_ne_zero hpos
  have hlower : 0 < single.lowerEnd x :=
    mul_pos (by linarith [(single.lowerPart_bounds x).2]) (two_zpow_pos _)
  have hle := h.lower
  rw [Decimal.toRat, hzero, Nat.cast_zero, zero_mul] at hle
  linarith

/-- The upper end is an odd number of half units. -/
theorem upperEnd_eq (x : Magnitude) :
    upperEnd x = (2 * x.significand + 1 : ℕ) * 2 ^ (x.exponent - 1) := by
  rw [upperEnd, zpow_sub_one₀ two_ne_zero]
  push_cast
  ring

/-- So is the lower end, where the unit may be that of the numbers below. -/
theorem exists_lowerEnd_eq (hx : single.Canonical x) (hpos : x.significand ≠ 0) :
    ∃ (n : ℕ) (e : ℤ), single.lowerEnd x = n * 2 ^ (e - 1) ∧ n < 2 ^ 25 ∧ -149 ≤ e ∧ e ≤ 104 ∧
      (2 : ℚ) ^ e = 2 * single.lowerPart x * 2 ^ x.exponent ∧
      (n = 22841339 → e = x.exponent ∧ x.significand = 11420670) := by
  have hbits := hx.significand_lt
  have hleast := hx.least_le
  have hgreatest := hx.le_greatest
  simp only [single] at hbits hleast hgreatest
  by_cases hpower : x.significand = 2 ^ (single.precision - 1) ∧ single.least < x.exponent
  · have hpart : single.lowerPart x = 1 / 4 := if_pos hpower
    obtain ⟨hsignificand, hlt⟩ := hpower
    simp only [single] at hsignificand hlt
    refine ⟨2 ^ 25 - 1, x.exponent - 1, ?_, by decide, by omega, by omega, ?_,
      fun h => absurd h (by decide)⟩
    · rw [lowerEnd, hpart, hsignificand, zpow_sub_one₀ two_ne_zero, zpow_sub_one₀ two_ne_zero]
      push_cast
      ring
    · rw [hpart, zpow_sub_one₀ two_ne_zero]
      ring
  · have hpart : single.lowerPart x = 1 / 2 := if_neg hpower
    refine ⟨2 * x.significand - 1, x.exponent, ?_, by omega, hleast, hgreatest, ?_,
      fun h => ⟨rfl, by omega⟩⟩
    · rw [lowerEnd, hpart, zpow_sub_one₀ two_ne_zero, Nat.cast_sub (by omega)]
      push_cast
      ring
    · rw [hpart]
      ring

section

variable (hx : single.Canonical x) (hnext : single.NextTo x d) (hclose : Close y d.toRat)
include hx hnext hclose

/-- Where the decimal is as near the upper end as that, its grid is coarse. -/
theorem le_zpow_of_upperEnd_le (hle : upperEnd x ≤ y) :
    47 / 64 * (2 : ℚ) ^ x.exponent ≤ 10 ^ d.exponent := by
  have hunit := two_zpow_pos x.exponent
  have hsmall := mul_toRat_lt hx hnext.near
  obtain ⟨hlower, hupper⟩ := ends_eq x
  have hpart := mul_le_mul_of_nonneg_right (single.lowerPart_bounds x).1 hunit.le
  have hdiff := (abs_le.1 hclose).2
  rcases le_or_gt d.toRat x.toRat with hbelow | habove
  · linarith
  · obtain ⟨hprev, hside⟩ := hnext.of_gt habove
    by_cases hnear : single.Near x (d.toRat - 10 ^ d.exponent)
    · linarith [hside hnear]
    · -- The multiple before is below the interval.
      have hbefore : d.toRat - 10 ^ d.exponent ≤ single.lowerEnd x := by
        by_contra hinside
        have hlow := lt_of_not_ge hinside
        have hhigh : d.toRat - 10 ^ d.exponent < upperEnd x := by linarith
        exact hnear ⟨hlow.le, hhigh.le, fun _ => ⟨hlow, hhigh⟩⟩
      linarith

/-- Where it is as near the lower end, its grid is coarse against the unit below. -/
theorem le_zpow_of_le_lowerEnd (hle : y ≤ single.lowerEnd x) :
    47 / 64 * (2 * single.lowerPart x * 2 ^ x.exponent) ≤ 10 ^ d.exponent := by
  have hunit := two_zpow_pos x.exponent
  have hsmall := mul_toRat_lt hx hnext.near
  obtain ⟨hlower, hupper⟩ := ends_eq x
  have hpart := mul_le_mul_of_nonneg_right (single.lowerPart_bounds x).1 hunit.le
  have hpart' := mul_le_mul_of_nonneg_right (single.lowerPart_bounds x).2 hunit.le
  have hdiff := (abs_le.1 hclose).1
  rcases le_or_gt d.toRat x.toRat with hbelow | habove
  · obtain ⟨hafter, hside⟩ := hnext.of_le hbelow
    by_cases hnear : single.Near x (d.toRat + 10 ^ d.exponent)
    · linarith [hside hnear]
    · -- The multiple after it is above the interval.
      have hbeyond : upperEnd x ≤ d.toRat + 10 ^ d.exponent := by
        by_contra hinside
        have hhigh := lt_of_not_ge hinside
        have hlow : single.lowerEnd x < d.toRat + 10 ^ d.exponent := by linarith
        exact hnear ⟨hlow.le, hhigh.le, fun _ => ⟨hlow, hhigh⟩⟩
      linarith
  · linarith

/-- What is close to the shortest decimal is below the upper end, unless the decimal is at that end. -/
theorem lt_upperEnd_of_close (hpos : x.significand ≠ 0) :
    y < upperEnd x ∨ d.toRat = upperEnd x ∨ BesideException x := by
  by_cases hlt : y < upperEnd x
  · exact .inl hlt
  · have hle := le_of_not_gt hlt
    have hnear : |d.toRat - (2 * x.significand + 1 : ℕ) * 2 ^ (x.exponent - 1)| ≤
        3 / 2 ^ 53 * d.toRat := by
      rw [← upperEnd_eq, abs_le]
      have hdiff := (abs_le.1 hclose).2
      have hupper := hnext.near.upper
      constructor <;> linarith
    have hbits : 2 * x.significand + 1 < 2 ^ 25 := by
      have := hx.significand_lt
      simp only [single] at this
      omega
    have hboundary := eq_boundary_of_near hx.least_le hx.le_greatest
      (digits_ne_zero_of_near hpos hnext.near) hbits (le_zpow_of_upperEnd_le hx hnext hclose hle) hnear
    rcases hboundary with heq | ⟨hexponent, hsignificand⟩
    · exact .inr (.inl (heq.trans (upperEnd_eq x).symm))
    · exact .inr (.inr ⟨hexponent, .inl (by omega)⟩)

/-- It is above the lower end, unless the decimal is at that end. -/
theorem lowerEnd_lt_of_close (hpos : x.significand ≠ 0) :
    single.lowerEnd x < y ∨ d.toRat = single.lowerEnd x ∨ BesideException x := by
  by_cases hlt : single.lowerEnd x < y
  · exact .inl hlt
  · have hle := le_of_not_gt hlt
    have hgrid := le_zpow_of_le_lowerEnd hx hnext hclose hle
    have hnear : |d.toRat - single.lowerEnd x| ≤ 3 / 2 ^ 53 * d.toRat := by
      rw [abs_le]
      have hdiff := (abs_le.1 hclose).1
      have hlower := hnext.near.lower
      constructor <;> linarith
    obtain ⟨n, e, heq, hbits, hleast, hgreatest, hunit, hexception⟩ := exists_lowerEnd_eq hx hpos
    rw [← hunit] at hgrid
    rw [heq] at hnear ⊢
    have hboundary := eq_boundary_of_near hleast hgreatest (digits_ne_zero_of_near hpos hnext.near)
      hbits hgrid hnear
    rcases hboundary with heq | ⟨hexponent, hsignificand⟩
    · exact .inr (.inl heq)
    · obtain ⟨rfl, hbelow⟩ := hexception hsignificand
      exact .inr (.inr ⟨hexponent, .inr hbelow⟩)

/-- **What is close to the shortest decimal rounds to the same number**, if it is not changed at all
where the decimal is on a boundary. -/
theorem near_of_close (hpos : x.significand ≠ 0)
    (hexact : d.toRat = upperEnd x ∨ d.toRat = single.lowerEnd x → y = d.toRat) :
    single.Near x y ∨ BesideException x := by
  rcases lt_upperEnd_of_close hx hnext hclose hpos with hhigh | heq | hexception
  · rcases lowerEnd_lt_of_close hx hnext hclose hpos with hlow | heq | hexception
    · exact .inl ⟨hlow.le, hhigh.le, fun _ => ⟨hlow, hhigh⟩⟩
    · rw [hexact (.inr heq)]
      exact .inl hnext.near
    · exact .inr hexception
  · rw [hexact (.inl heq)]
    exact .inl hnext.near
  · exact .inr hexception

end

end BinaryFormat

end FieldShader
