import FieldShader.Proofs.Number.Rounding
import FieldShader.Proofs.Number.Shortest

/-!
# The shortest decimal is near its magnitude

`BinaryFormat.interval` counts the interval of a magnitude in naturals. In rational numbers it is the
interval of what is near the magnitude (`BinaryFormat.contains_interval`), and the multiples of a power
of ten next to the value are no further away than that power (`RoundingInterval.below_le`,
`RoundingInterval.lt_below`). So the shortest decimal rounds to its magnitude, and on its grid there is
no multiple nearer to the value (`BinaryFormat.shortest_spec`).
-/

namespace FieldShader

/-- The number that a decimal stands for. -/
def Decimal.toRat (d : Decimal) : ℚ := d.digits * 10 ^ d.exponent

/-- Powers of ten are positive. -/
theorem ten_zpow_pos (k : ℤ) : (0 : ℚ) < 10 ^ k := zpow_pos (by norm_num) k

namespace RoundingInterval

variable {i : RoundingInterval} {k : ℤ} {d : Decimal}

/-- The value that the interval is around. -/
def center (i : RoundingInterval) : ℚ := i.value / i.scale

/-- A multiple of a power of ten is compared with a number of units without a division. -/
theorem mul_zpow_le_iff (hscale : 0 < i.scale) (n v : Nat) (k : ℤ) :
    (n : ℚ) * 10 ^ k ≤ v / i.scale ↔
      n * Nat.pow 10 k.toNat * i.scale ≤ v * Nat.pow 10 (-k).toNat := by
  have hscale' : (0 : ℚ) < i.scale := by exact_mod_cast hscale
  rw [zpow_eq_div, ← mul_div_assoc, div_le_div_iff₀ (by positivity) hscale', Nat.pow_eq, Nat.pow_eq]
  exact_mod_cast Iff.rfl

/-- So it is from the other side. -/
theorem le_mul_zpow_iff (hscale : 0 < i.scale) (n v : Nat) (k : ℤ) :
    (v : ℚ) / i.scale ≤ n * 10 ^ k ↔
      v * Nat.pow 10 (-k).toNat ≤ n * Nat.pow 10 k.toNat * i.scale := by
  have hscale' : (0 : ℚ) < i.scale := by exact_mod_cast hscale
  rw [zpow_eq_div, ← mul_div_assoc, div_le_div_iff₀ hscale' (by positivity), Nat.pow_eq, Nat.pow_eq]
  exact_mod_cast Iff.rfl

/-- A decimal is in the interval if it is between the ends, which belong to it if it is closed. -/
theorem contains_iff (hscale : 0 < i.scale) :
    i.contains d = true ↔
      if i.closed then (i.low : ℚ) / i.scale ≤ d.toRat ∧ d.toRat ≤ i.high / i.scale
      else (i.low : ℚ) / i.scale < d.toRat ∧ d.toRat < i.high / i.scale := by
  unfold contains Decimal.toRat
  dsimp only
  split
  · rw [Bool.and_eq_true, decide_eq_true_eq, decide_eq_true_eq, le_mul_zpow_iff hscale,
      mul_zpow_le_iff hscale]
  · rw [Bool.and_eq_true, decide_eq_true_eq, decide_eq_true_eq]
    exact and_congr (lt_iff_lt_of_le_iff_le (mul_zpow_le_iff hscale _ _ _)).symm
      (lt_iff_lt_of_le_iff_le (le_mul_zpow_iff hscale _ _ _)).symm

/-- The multiple next below the value is not above it. -/
theorem below_le (hscale : 0 < i.scale) (k : ℤ) : (i.below k : ℚ) * 10 ^ k ≤ i.center := by
  rw [center, mul_zpow_le_iff hscale, Nat.mul_assoc]
  exact Nat.div_mul_le_self _ _

/-- The multiple after it is above the value. -/
theorem lt_below (hscale : 0 < i.scale) (k : ℤ) : i.center < (i.below k + 1 : ℕ) * 10 ^ k := by
  rw [← not_le, center, mul_zpow_le_iff hscale, not_le, Nat.mul_assoc, Nat.mul_comm (i.below k + 1)]
  refine Nat.lt_mul_div_succ _ (Nat.mul_pos ?_ hscale)
  exact Nat.pow_pos (by decide)

/-- Where the value is not past the middle between the two, the lower one is at most half a step away. -/
theorem sub_below_le (hscale : 0 < i.scale) (h : i.side k ≠ .gt) :
    2 * (i.center - i.below k * 10 ^ k) ≤ 10 ^ k := by
  have hmiddle : ((2 * i.value : ℕ) : ℚ) / i.scale ≤ (2 * i.below k + 1 : ℕ) * 10 ^ k := by
    rw [le_mul_zpow_iff hscale, Nat.mul_assoc, Nat.mul_assoc]
    exact Nat.compare_ne_gt.1 h
  rw [center]
  push_cast [mul_div_assoc] at hmiddle
  linarith

/-- Where it is not before the middle, the upper one is. -/
theorem below_sub_le (hscale : 0 < i.scale) (h : i.side k ≠ .lt) :
    2 * ((i.below k + 1 : ℕ) * 10 ^ k - i.center) ≤ 10 ^ k := by
  have hmiddle : ((2 * i.below k + 1 : ℕ) : ℚ) * 10 ^ k ≤ (2 * i.value : ℕ) / i.scale := by
    rw [mul_zpow_le_iff hscale, Nat.mul_assoc, Nat.mul_assoc]
    exact Nat.compare_ne_lt.1 h
  rw [center]
  push_cast [mul_div_assoc] at hmiddle ⊢
  linarith

end RoundingInterval

namespace BinaryFormat

variable {f : BinaryFormat} {x : Magnitude} {d : Decimal}

/-- The scale of an interval is a power of two. -/
theorem scale_interval_pos (f : BinaryFormat) (x : Magnitude) : 0 < (f.interval x).scale :=
  Nat.two_pow_pos _

/-- A number of quarter steps in the unit of the interval. -/
theorem cast_quarters (f : BinaryFormat) (x : Magnitude) (n : Nat) :
    ((n * Nat.pow 2 (x.exponent - 2).toNat : ℕ) : ℚ) / (f.interval x).scale =
      n / 4 * 2 ^ x.exponent := by
  have hneg : 2 - x.exponent = -(x.exponent - 2) := by omega
  have hquarter : (2 : ℚ) ^ x.exponent / 4 = 2 ^ (x.exponent - 2) := by
    rw [zpow_sub₀ two_ne_zero]
    norm_num
  simp only [interval, Nat.pow_eq, hneg]
  rw [div_mul_eq_mul_div, mul_div_assoc, hquarter, zpow_eq_div]
  push_cast
  rw [mul_div_assoc]

/-- The value of the interval is the magnitude. -/
theorem center_interval (f : BinaryFormat) (x : Magnitude) : (f.interval x).center = x.toRat := by
  refine (f.cast_quarters x (4 * x.significand)).trans ?_
  rw [Magnitude.toRat]
  push_cast
  ring

/-- Its upper end is that of the numbers near the magnitude. -/
theorem high_interval (f : BinaryFormat) (x : Magnitude) :
    ((f.interval x).high : ℚ) / (f.interval x).scale = upperEnd x := by
  refine (f.cast_quarters x (4 * x.significand + 2)).trans ?_
  rw [upperEnd]
  push_cast
  ring

/-- So is its lower end. -/
theorem low_interval (hx : x.significand ≠ 0) :
    ((f.interval x).low : ℚ) / (f.interval x).scale = f.lowerEnd x := by
  refine (f.cast_quarters x _).trans ?_
  rw [lowerEnd, lowerPart, Nat.pow_eq]
  by_cases h : x.significand = 2 ^ (f.precision - 1) ∧ f.least < x.exponent
  · rw [if_pos h, if_pos h, Nat.cast_sub (by omega)]
    push_cast
    ring
  · rw [if_neg h, if_neg h, Nat.cast_sub (by omega)]
    push_cast
    ring

/-- **The interval of a magnitude holds the decimals near it.** -/
theorem contains_interval (hx : x.significand ≠ 0) :
    (f.interval x).contains d = true ↔ f.Near x d.toRat := by
  rw [RoundingInterval.contains_iff (f.scale_interval_pos x), low_interval hx, high_interval]
  have hclosed : (f.interval x).closed = true ↔ x.significand % 2 = 0 := decide_eq_true_iff
  by_cases heven : x.significand % 2 = 0
  · rw [if_pos (hclosed.2 heven)]
    exact ⟨fun h => ⟨h.1, h.2, fun hodd => by omega⟩, fun h => ⟨h.lower, h.upper⟩⟩
  · rw [if_neg (mt hclosed.1 heven)]
    exact ⟨fun h => ⟨h.1.le, h.2.le, fun _ => h⟩, fun h => h.odd (by omega)⟩

/-! ## The shortest decimal -/

/-- The decimal is near the magnitude, and of the multiples of its power of ten that are near the
magnitude it is next to it. -/
structure NextTo (f : BinaryFormat) (x : Magnitude) (d : Decimal) : Prop where
  near : f.Near x d.toRat
  of_le : d.toRat ≤ x.toRat → x.toRat < d.toRat + 10 ^ d.exponent ∧
    (f.Near x (d.toRat + 10 ^ d.exponent) → 2 * (x.toRat - d.toRat) ≤ 10 ^ d.exponent)
  of_gt : x.toRat < d.toRat → d.toRat - 10 ^ d.exponent ≤ x.toRat ∧
    (f.Near x (d.toRat - 10 ^ d.exponent) → 2 * (d.toRat - x.toRat) ≤ 10 ^ d.exponent)

variable {tie : Tie} {k : ℤ}

/-- The multiple that is taken on a grid is next to the magnitude. -/
theorem nextTo_of_nearest (hx : x.significand ≠ 0)
    (h : (f.interval x).nearest tie k = some d) : d.exponent = k ∧ f.NextTo x d := by
  have hscale := f.scale_interval_pos x
  have hbelow := RoundingInterval.below_le hscale k
  have habove := RoundingInterval.lt_below hscale k
  obtain ⟨hcontains, hchoice⟩ := RoundingInterval.nearest_eq_some h
  have hnear := (contains_interval hx).1 hcontains
  rw [center_interval] at hbelow habove
  rcases hchoice with ⟨rfl, hother⟩ | ⟨rfl, hother⟩
  · have hnext : (⟨(f.interval x).below k, k⟩ : Decimal).toRat + 10 ^ k =
        (⟨(f.interval x).below k + 1, k⟩ : Decimal).toRat := by
      rw [Decimal.toRat, Decimal.toRat]
      push_cast
      ring
    refine ⟨rfl, hnear, fun _ => ⟨?_, fun hupper => ?_⟩, fun hgt => absurd hbelow (not_le.2 hgt)⟩
    · rw [hnext]
      exact habove
    · rw [hnext, ← contains_interval hx] at hupper
      have hside := hother.resolve_left (by rw [hupper]; nofun)
      have hhalf := RoundingInterval.sub_below_le hscale hside
      rwa [center_interval] at hhalf
  · have hnext : (⟨(f.interval x).below k + 1, k⟩ : Decimal).toRat - 10 ^ k =
        (⟨(f.interval x).below k, k⟩ : Decimal).toRat := by
      rw [Decimal.toRat, Decimal.toRat]
      push_cast
      ring
    refine ⟨rfl, hnear, fun hle => absurd habove (not_lt.2 hle), fun _ => ⟨?_, fun hlower => ?_⟩⟩
    · rw [hnext]
      exact hbelow
    · rw [hnext, ← contains_interval hx] at hlower
      have hside := hother.resolve_left (by rw [hlower]; nofun)
      have hhalf := RoundingInterval.below_sub_le hscale hside
      rwa [center_interval] at hhalf

/-- On a grid that is fine against the lower half of the interval a multiple is found. -/
theorem nearest_interval_ne_none (hx : x.significand ≠ 0)
    (h : (10 : ℚ) ^ k ≤ x.toRat - f.lowerEnd x) : (f.interval x).nearest tie k ≠ none := by
  have hscale := f.scale_interval_pos x
  have hbelow := RoundingInterval.below_le hscale k
  have habove := RoundingInterval.lt_below hscale k
  rw [center_interval] at hbelow habove
  refine RoundingInterval.nearest_ne_none ((contains_interval hx).2 ?_)
  have hlower : f.lowerEnd x < (⟨(f.interval x).below k, k⟩ : Decimal).toRat := by
    rw [Decimal.toRat]
    push_cast at habove
    linarith
  have hupper : (⟨(f.interval x).below k, k⟩ : Decimal).toRat < upperEnd x := by
    refine lt_of_le_of_lt hbelow ?_
    have hunit := two_zpow_pos x.exponent
    rw [Magnitude.toRat, upperEnd]
    linarith
  exact ⟨hlower.le, hupper.le, fun _ => ⟨hlower, hupper⟩⟩

/-- The grids that are tried for a number of single precision. -/
theorem grids_single : single.grids = (List.range 86).map fun (i : Nat) => 39 - (i : ℤ) := rfl

/-- What is found first along a range is found at no place before. -/
theorem findSome?_range_eq_some {α : Type} {g : Nat → Option α} {n : Nat} {y : α}
    (h : (List.range n).findSome? g = some y) : ∃ i < n, g i = some y ∧ ∀ j < i, g j = none := by
  induction n with
  | zero => cases h
  | succ n ih =>
    rw [List.range_succ, List.findSome?_append] at h
    cases hfirst : (List.range n).findSome? g with
    | some z =>
      rw [hfirst] at h
      obtain ⟨i, hi, hfound⟩ := ih (hfirst.trans h)
      exact ⟨i, hi.trans (Nat.lt_succ_self n), hfound⟩
    | none =>
      rw [hfirst, Option.none_or] at h
      have hnone := List.findSome?_eq_none_iff.1 hfirst
      refine ⟨n, Nat.lt_succ_self n, ?_, fun j hj => hnone j (List.mem_range.2 hj)⟩
      simpa using h

/-- **The shortest decimal of a number is next to it**, and on a grid that is not much finer than the
lower half of the interval. -/
theorem shortest_spec (tie : Tie) (hx : x.significand ≠ 0)
    (hfine : (10 : ℚ) ^ (-46 : ℤ) ≤ x.toRat - single.lowerEnd x) :
    single.NextTo x (single.shortest tie x) ∧ (single.shortest tie x).exponent.natAbs ≤ 46 ∧
      ((single.shortest tie x).exponent = 39 ∨
        x.toRat - single.lowerEnd x < 10 ^ ((single.shortest tie x).exponent + 1)) := by
  rw [shortest, if_neg hx, grids_single, List.findSome?_map]
  cases hfind : (List.range 86).findSome?
      ((single.interval x).nearest tie ∘ fun (i : Nat) => 39 - (i : ℤ)) with
  | none =>
    have hnone := List.findSome?_eq_none_iff.1 hfind 85 (by decide)
    exact absurd hnone (nearest_interval_ne_none hx hfine)
  | some d =>
    obtain ⟨i, hi, hfound, hbefore⟩ := findSome?_range_eq_some hfind
    obtain ⟨hexponent, hnext⟩ := nextTo_of_nearest hx hfound
    dsimp only at hexponent
    rw [Option.getD_some]
    refine ⟨hnext, by omega, ?_⟩
    rcases Nat.eq_zero_or_pos i with hzero | hpos
    · exact .inl (by omega)
    · -- No multiple was found on the grid before.
      refine .inr (lt_of_not_ge fun hcoarse => ?_)
      have hnone := hbefore (i - 1) (by omega)
      have hk : 39 - ((i - 1 : ℕ) : ℤ) = d.exponent + 1 := by omega
      rw [← hk] at hcoarse
      exact nearest_interval_ne_none hx hcoarse hnone

end BinaryFormat

end FieldShader
