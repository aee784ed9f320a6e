import FieldShader.Proofs.Number.Rounding
import Mathlib.Tactic.LinearCombination

/-!
# Decimals near a boundary between two numbers

Two neighbouring numbers of single precision meet at an odd multiple of half a unit. A short decimal is
on that boundary or at some distance from it: `eq_boundary_of_near` says that a multiple of a power of
ten that is not small against the unit differs from the boundary by more than `3 / 2 ^ 53` of itself,
unless it is equal. There is one exception, the boundary above `11420669` units.

How near a decimal comes to a boundary is a question about fractions with bounded denominators near
the ratio of the power of ten to half a unit. Every such ratio is enclosed by fractions that are next
to each other, so that no fraction between them has a small denominator (`Fraction.eq_of_between`).
The enclosing fractions are found by going down the tree of fractions. Nothing is proved about this
search: what it finds is checked for every unit of the format (`enclosed_of_lt`).
-/

namespace FieldShader

/-- A fraction of naturals. -/
structure Fraction where
  num : Nat
  den : Nat

namespace Fraction

/-- The fraction that lies `n` steps from one fraction towards another. -/
def step (a b : Fraction) (n : Nat) : Fraction := ⟨a.num + n * b.num, a.den + n * b.den⟩

/-- The fraction is less than the other one. -/
def Less (a b : Fraction) : Prop := a.num * b.den < b.num * a.den

instance (a b : Fraction) : Decidable (Less a b) := Nat.decLt _ _

/-- The second fraction comes right after the first one. -/
def Next (a b : Fraction) : Prop := b.num * a.den = a.num * b.den + 1

instance (a b : Fraction) : Decidable (Next a b) := Nat.decEq _ _

/-- A fraction between two that come right after one another has a denominator as large as both
together. -/
theorem Next.den_le {a b x : Fraction} (h : a.Next b) (hlow : a.Less x) (hhigh : x.Less b) :
    a.den + b.den ≤ x.den := by
  unfold Next at h
  unfold Less at hlow hhigh
  zify at *
  -- The denominator is a sum of multiples of the other two.
  have hsum : (x.den : ℤ) = a.den * (b.num * x.den - x.num * b.den) +
      b.den * (x.num * a.den - a.num * x.den) := by
    linear_combination -(x.den : ℤ) * h
  have hleft : (a.den : ℤ) * 1 ≤ a.den * (b.num * x.den - x.num * b.den) :=
    mul_le_mul_of_nonneg_left (by omega) (by omega)
  have hright : (b.den : ℤ) * 1 ≤ b.den * (x.num * a.den - a.num * x.den) :=
    mul_le_mul_of_nonneg_left (by omega) (by omega)
  omega

/-- **A fraction with a small denominator between the outer two of three neighbours is the middle
one.** -/
theorem eq_of_between {a m b x : Fraction} {bound : Nat} (hleft : a.Next m) (hright : m.Next b)
    (hleft' : bound < a.den + m.den) (hright' : bound < m.den + b.den) (hx : x.den ≤ bound)
    (hlow : a.Less x) (hhigh : x.Less b) : x.num * m.den = m.num * x.den := by
  rcases lt_trichotomy (x.num * m.den) (m.num * x.den) with hlt | heq | hgt
  · have hden := hleft.den_le hlow hlt
    omega
  · exact heq
  · have hden := hright.den_le hgt hhigh
    omega

/-- A fraction that is equal to one with neighbours is a multiple of it. -/
theorem dvd_of_eq {a m x : Fraction} (hleft : a.Next m) (h : x.num * m.den = m.num * x.den) :
    m.den ∣ x.den := by
  unfold Next at hleft
  have hmul : (x.den : ℤ) = m.den * (a.den * x.num - a.num * x.den) := by
    zify at *
    linear_combination -(x.den : ℤ) * hleft - a.den * h
  exact Int.natCast_dvd_natCast.1 ⟨_, hmul⟩

/-! ## The search -/

/-- Goes down the tree of fractions from two that are next to each other, as far as no fraction
between them lies in the interval. -/
def descend (low high : Fraction) : Nat → Fraction → Fraction → Fraction × Fraction
  | 0, a, b => (a, b)
  | fuel + 1, a, b =>
    let m := a.step b 1
    if m.Less low then
      descend low high fuel (a.step b ((low.num * a.den - a.num * low.den - 1) /
        (b.num * low.den - low.num * b.den))) b
    else if high.Less m then
      descend low high fuel a (b.step a ((b.num * high.den - high.num * b.den - 1) /
        (high.num * a.den - a.num * high.den)))
    else (a, b)

/-- What is less than a fraction is less than what is at least as great. -/
theorem Less.trans_le {a b x : Fraction} (h : a.Less b) (hx : b.num * x.den ≤ x.num * b.den)
    (hpos : 0 < x.den) : a.Less x := by
  refine Nat.lt_of_mul_lt_mul_right (a := b.den) ?_
  calc a.num * x.den * b.den = a.num * b.den * x.den := Nat.mul_right_comm _ _ _
    _ < b.num * a.den * x.den := Nat.mul_lt_mul_of_pos_right h hpos
    _ = b.num * x.den * a.den := Nat.mul_right_comm _ _ _
    _ ≤ x.num * b.den * a.den := Nat.mul_le_mul_right _ hx
    _ = x.num * a.den * b.den := Nat.mul_right_comm _ _ _

/-- What is at most a fraction is less than what is greater than the fraction. -/
theorem Less.trans_ge {a b x : Fraction} (h : a.Less b) (hx : x.num * a.den ≤ a.num * x.den)
    (hpos : 0 < x.den) : x.Less b := by
  refine Nat.lt_of_mul_lt_mul_right (a := a.den) ?_
  calc x.num * b.den * a.den = x.num * a.den * b.den := Nat.mul_right_comm _ _ _
    _ ≤ a.num * x.den * b.den := Nat.mul_le_mul_right _ hx
    _ = a.num * b.den * x.den := Nat.mul_right_comm _ _ _
    _ < b.num * a.den * x.den := Nat.mul_lt_mul_of_pos_right h hpos
    _ = b.num * x.den * a.den := Nat.mul_right_comm _ _ _

end Fraction

/-! ## The fractions around the ratio of a power of ten to half a unit -/

/-- The exponent of the least power of ten that is not small against the unit. -/
def gridExponent (e : ℤ) : ℤ := (e * 30103 - 13408) / 100000 + 1

/-- The ratio of that power of ten to half a unit. -/
def gridRatio (e : ℤ) : Fraction :=
  ⟨10 ^ (gridExponent e).toNat * 2 ^ (1 - e).toNat,
    10 ^ (-gridExponent e).toNat * 2 ^ (e - 1).toNat⟩

/-- The number of grid points up to the greatest boundary. -/
def gridBound (e : ℤ) : Nat := 2 ^ 25 * (gridRatio e).den / (gridRatio e).num

/-- The ratio, less a small part of itself. -/
def gridLow (e : ℤ) : Fraction :=
  ⟨(gridRatio e).num * (2 ^ 53 - 3), (gridRatio e).den * 2 ^ 53⟩

/-- The ratio and a small part of itself. -/
def gridHigh (e : ℤ) : Fraction :=
  ⟨(gridRatio e).num * (2 ^ 53 + 3), (gridRatio e).den * 2 ^ 53⟩

/-- The two fractions that are found around the ratio. -/
def gridEnds (e : ℤ) : Fraction × Fraction :=
  Fraction.descend (gridLow e) (gridHigh e) 30 ⟨0, 1⟩ ⟨1, 0⟩

/-- The first fraction between them. -/
def gridMiddle (e : ℤ) : Fraction := (gridEnds e).1.step (gridEnds e).2 1

/-- Its neighbour on one side, with as large a denominator as may be. -/
def gridBefore (e : ℤ) : Fraction :=
  (gridEnds e).1.step (gridMiddle e) ((gridBound e - (gridEnds e).1.den) / (gridMiddle e).den)

/-- Its neighbour on the other side. -/
def gridAfter (e : ℤ) : Fraction :=
  (gridEnds e).2.step (gridMiddle e) ((gridBound e - (gridEnds e).2.den) / (gridMiddle e).den)

/-- The middle fraction is the only one around the ratio, and none at all if its denominator is too
large. It is the ratio itself but for the exception. -/
@[mk_iff]
structure Enclosed (e : ℤ) : Prop where
  grid : 64 * 10 ^ (gridExponent e - 1).toNat * 2 ^ (-e).toNat <
    47 * 2 ^ e.toNat * 10 ^ (1 - gridExponent e).toNat
  before : (gridBefore e).Next (gridMiddle e)
  after : (gridMiddle e).Next (gridAfter e)
  low : (gridBefore e).Less (gridLow e)
  high : (gridHigh e).Less (gridAfter e)
  bound_before : gridBound e < (gridBefore e).den + (gridMiddle e).den
  bound_after : gridBound e < (gridMiddle e).den + (gridAfter e).den
  middle : gridBound e < (gridMiddle e).den ∨
    (gridMiddle e).num * (gridRatio e).den = (gridRatio e).num * (gridMiddle e).den ∨
    (e = -107 ∨ e = -106) ∧ (gridMiddle e).num = 22841339 ∧ gridBound e < 2 * (gridMiddle e).den

instance (e : ℤ) : Decidable (Enclosed e) := decidable_of_iff _ (enclosed_iff e).symm

/-- The check for all units of the format. -/
theorem enclosed_of_lt : ∀ i < 254, Enclosed ((i : ℕ) - 149) := by decide +kernel

/-! ## Decimals near a boundary -/

section

variable {e k : ℤ} {d n : Nat}

/-- Every unit of the format is checked. -/
theorem enclosed (hlow : -149 ≤ e) (hhigh : e ≤ 104) : Enclosed e := by
  have h := enclosed_of_lt (e + 149).toNat (by omega)
  rwa [Int.toNat_of_nonneg (by omega), Int.add_sub_cancel] at h

/-- The ratio is that of the power of ten to half a unit. -/
theorem cast_gridRatio (e : ℤ) :
    ((gridRatio e).num : ℚ) / (gridRatio e).den = 10 ^ gridExponent e / 2 ^ (e - 1) := by
  have hneg : 1 - e = -(e - 1) := by omega
  rw [zpow_eq_div, zpow_eq_div 2, gridRatio, hneg]
  push_cast
  rw [div_div_div_eq]

/-- A power of ten that is not small against the unit has an exponent from the least one on. -/
theorem gridExponent_le (h : Enclosed e) (hk : 47 / 64 * (2 : ℚ) ^ e ≤ 10 ^ k) :
    gridExponent e ≤ k := by
  have hgrid : (10 : ℚ) ^ (gridExponent e - 1) < 47 / 64 * 2 ^ e := by
    have hneg : 1 - gridExponent e = -(gridExponent e - 1) := by omega
    have hcheck : (64 : ℚ) * 10 ^ (gridExponent e - 1).toNat * 2 ^ (-e).toNat <
        47 * 2 ^ e.toNat * 10 ^ (-(gridExponent e - 1)).toNat := by
      rw [← hneg]
      exact_mod_cast h.grid
    rw [zpow_eq_div, zpow_eq_div 2, ← mul_div_assoc, div_lt_div_iff₀ (by positivity) (by positivity)]
    linarith
  have hlt := (zpow_lt_zpow_iff_right₀ (by norm_num : (1 : ℚ) < 10)).1 (hgrid.trans_le hk)
  omega

/-- A fraction around the ratio whose denominator is not too large is the middle one. -/
theorem Enclosed.cross_middle (h : Enclosed e) {x : Fraction} (hpos : 0 < x.den)
    (hbound : x.den ≤ gridBound e)
    (hlow : (2 ^ 53 - 3) * ((gridRatio e).num * x.den) ≤ 2 ^ 53 * (x.num * (gridRatio e).den))
    (hhigh : 2 ^ 53 * (x.num * (gridRatio e).den) ≤ (2 ^ 53 + 3) * ((gridRatio e).num * x.den)) :
    x.num * (gridMiddle e).den = (gridMiddle e).num * x.den := by
  have hbefore : (gridBefore e).Less x := by
    refine h.low.trans_le ?_ hpos
    unfold gridLow
    calc (gridRatio e).num * (2 ^ 53 - 3) * x.den
        = (2 ^ 53 - 3) * ((gridRatio e).num * x.den) := by ring
      _ ≤ 2 ^ 53 * (x.num * (gridRatio e).den) := hlow
      _ = x.num * ((gridRatio e).den * 2 ^ 53) := by ring
  have hafter : x.Less (gridAfter e) := by
    refine h.high.trans_ge ?_ hpos
    unfold gridHigh
    calc x.num * ((gridRatio e).den * 2 ^ 53)
        = 2 ^ 53 * (x.num * (gridRatio e).den) := by ring
      _ ≤ (2 ^ 53 + 3) * ((gridRatio e).num * x.den) := hhigh
      _ = (gridRatio e).num * (2 ^ 53 + 3) * x.den := by ring
  exact Fraction.eq_of_between h.before h.after h.bound_before h.bound_after hbound hbefore hafter

/-- So it is the ratio, with one exception. -/
theorem Enclosed.cross_eq (h : Enclosed e) {x : Fraction} (hpos : 0 < x.den) (hnum : x.num < 2 ^ 25)
    (hlow : (2 ^ 53 - 3) * ((gridRatio e).num * x.den) ≤ 2 ^ 53 * (x.num * (gridRatio e).den))
    (hhigh : 2 ^ 53 * (x.num * (gridRatio e).den) ≤ (2 ^ 53 + 3) * ((gridRatio e).num * x.den)) :
    x.num * (gridRatio e).den = (gridRatio e).num * x.den ∨
      (e = -107 ∨ e = -106) ∧ x.num = 22841339 := by
  have hbound : x.den ≤ gridBound e := by
    have hrnum : 0 < (gridRatio e).num := by
      unfold gridRatio
      positivity
    have hle : x.num * (gridRatio e).den ≤ (2 ^ 25 - 1) * (gridRatio e).den :=
      Nat.mul_le_mul_right _ (by omega)
    rw [gridBound, Nat.le_div_iff_mul_le hrnum, Nat.mul_comm x.den]
    omega
  have hcross := h.cross_middle hpos hbound hlow hhigh
  -- The denominator is a multiple of that of the middle fraction.
  obtain ⟨t, ht⟩ := Fraction.dvd_of_eq h.before hcross
  have htpos : 0 < t := Nat.pos_of_ne_zero fun hzero => by
    rw [hzero, Nat.mul_zero] at ht
    omega
  have hmpos : 0 < (gridMiddle e).den := Nat.pos_of_ne_zero fun hzero => by
    rw [hzero, Nat.zero_mul] at ht
    omega
  rcases h.middle with hlarge | hratio | ⟨hexception, hnum, hlarge⟩
  · have hle := Nat.le_mul_of_pos_right (gridMiddle e).den htpos
    omega
  · refine .inl (Nat.eq_of_mul_eq_mul_right hmpos ?_)
    calc x.num * (gridRatio e).den * (gridMiddle e).den
        = x.num * (gridMiddle e).den * (gridRatio e).den := Nat.mul_right_comm _ _ _
      _ = (gridMiddle e).num * (gridRatio e).den * x.den := by
        rw [hcross, Nat.mul_right_comm]
      _ = (gridRatio e).num * x.den * (gridMiddle e).den := by
        rw [hratio, Nat.mul_right_comm]
  · have htone : t < 2 := by
      by_contra htwo
      have hle := Nat.mul_le_mul_left (gridMiddle e).den (Nat.not_lt.1 htwo)
      omega
    obtain rfl : t = 1 := by omega
    rw [Nat.mul_one] at ht
    rw [ht] at hcross
    exact .inr ⟨hexception, (Nat.eq_of_mul_eq_mul_right hmpos hcross).trans hnum⟩

/-- **Near the boundary there are no decimals but those on it**, with one exception. -/
theorem eq_boundary_of_near (hlow : -149 ≤ e) (hhigh : e ≤ 104) (hd : d ≠ 0) (hn : n < 2 ^ 25)
    (hk : 47 / 64 * (2 : ℚ) ^ e ≤ 10 ^ k)
    (hnear : |(d : ℚ) * 10 ^ k - n * 2 ^ (e - 1)| ≤ 3 / 2 ^ 53 * (d * 10 ^ k)) :
    (d : ℚ) * 10 ^ k = n * 2 ^ (e - 1) ∨ (e = -107 ∨ e = -106) ∧ n = 22841339 := by
  have henclosed := enclosed hlow hhigh
  obtain ⟨j, hj⟩ := Int.eq_ofNat_of_zero_le (sub_nonneg.2 (gridExponent_le henclosed hk))
  have hrden : (0 : ℚ) < (gridRatio e).den := by
    unfold gridRatio
    positivity
  have hunit := two_zpow_pos (e - 1)
  -- The decimal is counted in multiples of the least power of ten.
  have hcount : (d : ℚ) * 10 ^ k =
      (gridRatio e).num * (d * 10 ^ j : ℕ) / (gridRatio e).den * 2 ^ (e - 1) := by
    have hsplit : k = gridExponent e + j := by omega
    rw [mul_div_right_comm, cast_gridRatio, hsplit, zpow_add₀ (by norm_num), zpow_natCast]
    push_cast
    field_simp
  rw [hcount, ← sub_mul, abs_mul, abs_of_pos hunit, ← mul_assoc, mul_le_mul_iff_left₀ hunit,
    div_sub' hrden.ne', abs_div, abs_of_pos hrden, ← mul_div_assoc,
    div_le_div_iff_of_pos_right hrden, abs_le] at hnear
  obtain ⟨p, hp⟩ : ∃ p : Nat, (gridRatio e).num * (d * 10 ^ j) = p := ⟨_, rfl⟩
  obtain ⟨q, hq⟩ : ∃ q : Nat, n * (gridRatio e).den = q := ⟨_, rfl⟩
  have hp' : ((gridRatio e).num : ℚ) * (d * 10 ^ j : ℕ) = p := by exact_mod_cast hp
  have hq' : ((gridRatio e).den : ℚ) * n = q := by exact_mod_cast (Nat.mul_comm _ _).trans hq
  rw [hp', hq'] at hnear
  have hleft : (2 ^ 53 - 3) * p ≤ 2 ^ 53 * q := by
    have hle : (((2 ^ 53 - 3) * p : ℕ) : ℚ) ≤ (2 ^ 53 * q : ℕ) := by
      push_cast
      linarith [hnear.2]
    exact Nat.cast_le.1 hle
  have hright : 2 ^ 53 * q ≤ (2 ^ 53 + 3) * p := by
    have hle : ((2 ^ 53 * q : ℕ) : ℚ) ≤ ((2 ^ 53 + 3) * p : ℕ) := by
      push_cast
      linarith [hnear.1]
    exact Nat.cast_le.1 hle
  have hcross := henclosed.cross_eq (x := ⟨n, d * 10 ^ j⟩) (by positivity) hn
    (by rw [hp, hq]; exact hleft) (by rw [hp, hq]; exact hright)
  rcases hcross with heq | hexception
  · refine .inl ?_
    rw [hcount, hp', mul_left_inj' hunit.ne', div_eq_iff hrden.ne', ← hp]
    exact_mod_cast heq.symm
  · exact .inr hexception

end

end FieldShader
