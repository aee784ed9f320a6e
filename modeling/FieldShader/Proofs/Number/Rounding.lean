import FieldShader.Number.Magnitude
import Mathlib.Data.Int.Log
import Mathlib.Data.Rat.Floor
import Mathlib.Tactic.FieldSimp
import Mathlib.Tactic.Linarith
import Mathlib.Tactic.Positivity
import Mathlib.Tactic.Ring

/-!
# What rounding to a format answers

`Magnitude.toRat` is the rational number that a magnitude stands for. `BinaryFormat.round` works on a
ratio of naturals; here its answer is described by the rational number `num / den`. It is a multiple
of the unit of the binade, at most half a unit away (`BinaryFormat.exists_round`), and every number
in the rounding interval of a magnitude rounds to that magnitude (`BinaryFormat.round_eq`). Between
two powers of two the unit is small against the number, which bounds the relative error
(`BinaryFormat.exists_round_near`), and a number of few bits is not changed at all
(`BinaryFormat.exists_round_exact`).
-/

namespace FieldShader

/-- A power with an exponent of either sign, as a ratio of powers of naturals. -/
theorem zpow_eq_div (b : ℚ) (e : ℤ) : b ^ e = b ^ e.toNat / b ^ (-e).toNat := by
  obtain ⟨n, rfl | rfl⟩ := e.eq_nat_or_neg <;> simp

/-- Powers of two are positive. -/
theorem two_zpow_pos (e : ℤ) : (0 : ℚ) < 2 ^ e := zpow_pos two_pos e

namespace Magnitude

/-- The number that a magnitude stands for. -/
def toRat (x : Magnitude) : ℚ := x.significand * 2 ^ x.exponent

/-- A magnitude is the ratio of its numerator and its denominator. -/
theorem toRat_eq_div (x : Magnitude) : x.toRat = x.num / x.den := by
  rw [toRat, num, den, zpow_eq_div, Nat.pow_eq, Nat.pow_eq]
  push_cast
  ring

end Magnitude

/-! ## Rounding to a natural -/

section

variable {num den : Nat}

/-- A ratio is its quotient and a part below one. -/
theorem div_eq_add_mod (hden : 0 < den) :
    (num : ℚ) / den = (num / den : ℕ) + (num % den : ℕ) / (den : ℚ) := by
  have hne : (den : ℚ) ≠ 0 := by exact_mod_cast hden.ne'
  have hsplit : (num : ℚ) = den * (num / den : ℕ) + (num % den : ℕ) := by
    exact_mod_cast (Nat.div_add_mod num den).symm
  field_simp
  linarith

/-- The part below one is compared with one half without a division. -/
theorem mod_div_lt_half (hden : 0 < den) :
    (num % den : ℕ) / (den : ℚ) < 1 / 2 ↔ 2 * (num % den) < den := by
  have hpos : (0 : ℚ) < den := by exact_mod_cast hden
  rw [div_lt_div_iff₀ hpos two_pos, one_mul, mul_comm]
  exact_mod_cast Iff.rfl

/-- So it is from the other side. -/
theorem half_lt_mod_div (hden : 0 < den) :
    1 / 2 < (num % den : ℕ) / (den : ℚ) ↔ den < 2 * (num % den) := by
  have hpos : (0 : ℚ) < den := by exact_mod_cast hden
  rw [div_lt_div_iff₀ two_pos hpos, one_mul, mul_comm]
  exact_mod_cast Iff.rfl

/-- What a ratio has beyond its quotient is a part of one. -/
theorem mod_div_bounds (num : Nat) (hden : 0 < den) :
    (0 : ℚ) ≤ (num % den : ℕ) / (den : ℚ) ∧ (num % den : ℕ) / (den : ℚ) < 1 := by
  have hpos : (0 : ℚ) < den := by exact_mod_cast hden
  refine ⟨by positivity, ?_⟩
  rw [div_lt_one hpos]
  exact_mod_cast Nat.mod_lt num hden

/-- The nearest natural is at most one half away. -/
theorem abs_roundHalfEven_sub_le (num : Nat) (hden : 0 < den) :
    |(roundHalfEven num den : ℚ) - num / den| ≤ 1 / 2 := by
  obtain ⟨hrest, hlt⟩ := mod_div_bounds num hden
  rw [div_eq_add_mod hden, abs_le]
  unfold roundHalfEven
  dsimp only
  split
  · rename_i hlow
    have hhalf := (mod_div_lt_half hden).2 hlow
    constructor <;> linarith
  · rename_i hlow
    have hhalf := mt (mod_div_lt_half hden).1 hlow
    split
    · push_cast
      constructor <;> linarith
    · rename_i hhigh
      have hhalf' := mt (half_lt_mod_div hden).1 hhigh
      have hparity : ((num / den % 2 : ℕ) : ℚ) ≤ 1 := by
        exact_mod_cast (by omega : num / den % 2 ≤ 1)
      have hnonneg : (0 : ℚ) ≤ ((num / den % 2 : ℕ) : ℚ) := by positivity
      push_cast
      constructor <;> linarith

/-- A natural that is at most one half away is the nearest one, if it is even or strictly nearer. -/
theorem roundHalfEven_eq {n : Nat} (hden : 0 < den) (hlow : (n : ℚ) - 1 / 2 ≤ num / den)
    (hhigh : (num : ℚ) / den ≤ n + 1 / 2)
    (htie : n % 2 = 0 ∨ (n : ℚ) - 1 / 2 < num / den ∧ (num : ℚ) / den < n + 1 / 2) :
    roundHalfEven num den = n := by
  obtain ⟨hrest, hlt⟩ := mod_div_bounds num hden
  rw [div_eq_add_mod hden] at hlow hhigh htie
  -- The quotient is the natural or the one before it.
  have hbelow : num / den ≤ n := by
    have : ((num / den : ℕ) : ℚ) < (n + 1 : ℕ) := by
      push_cast
      linarith
    have := Nat.cast_lt.1 this
    omega
  have habove : n ≤ num / den + 1 := by
    have : (n : ℚ) < (num / den + 2 : ℕ) := by
      push_cast
      linarith
    have := Nat.cast_lt.1 this
    omega
  unfold roundHalfEven
  dsimp only
  rcases Nat.eq_or_lt_of_le hbelow with heq | hless
  · rw [heq] at hlow hhigh htie ⊢
    have hhalf : ¬den < 2 * (num % den) := by
      rw [← half_lt_mod_div hden]
      linarith
    split
    · rfl
    · rename_i hnot
      have hhalf' := mt (mod_div_lt_half hden).1 hnot
      rcases htie with heven | ⟨-, hstrict⟩
      · omega
      · linarith
  · have heq : n = num / den + 1 := by omega
    rw [heq] at hlow hhigh htie ⊢
    push_cast at hlow hhigh htie
    have hhalf : ¬2 * (num % den) < den := by
      rw [← mod_div_lt_half hden]
      linarith
    rw [if_neg hhalf]
    split
    · rfl
    · rename_i hnot
      have hhalf' := mt (half_lt_mod_div hden).1 hnot
      rcases htie with heven | ⟨hstrict, -⟩
      · omega
      · linarith

/-- A natural at most one half away from a number is at most what the number is at most. -/
theorem le_of_abs_sub_le {s n : Nat} {q : ℚ} (h : |(s : ℚ) - q| ≤ 1 / 2) (hq : q ≤ n) : s ≤ n := by
  have hlt : (s : ℚ) < (n + 1 : ℕ) := by
    push_cast
    linarith [(abs_le.1 h).2]
  exact Nat.lt_succ_iff.1 (Nat.cast_lt.1 hlt)

/-- And at least what the number is at least. -/
theorem ge_of_abs_sub_le {s n : Nat} {q : ℚ} (h : |(s : ℚ) - q| ≤ 1 / 2) (hq : n ≤ q) : n ≤ s := by
  have hlt : (n : ℚ) < (s + 1 : ℕ) := by
    push_cast
    linarith [(abs_le.1 h).1]
  exact Nat.lt_succ_iff.1 (Nat.cast_lt.1 hlt)

/-! ## Binades -/

/-- A power of two is compared with a ratio without a division. -/
theorem two_zpow_le_div (hden : 0 < den) (e : ℤ) :
    (2 : ℚ) ^ e ≤ num / den ↔ den * 2 ^ e.toNat ≤ num * 2 ^ (-e).toNat := by
  have hpos : (0 : ℚ) < den := by exact_mod_cast hden
  rw [zpow_eq_div, div_le_div_iff₀ (by positivity) hpos, mul_comm]
  exact_mod_cast Iff.rfl

/-- The binade of a positive ratio is its logarithm, rounded down. -/
theorem binade_eq_log (hnum : num ≠ 0) (hden : 0 < den) :
    binade num den = Int.log 2 ((num : ℚ) / den) := by
  have hpos : (0 : ℚ) < num / den := by
    have := Nat.pos_of_ne_zero hnum
    positivity
  have hdenpos : (0 : ℚ) < den := by exact_mod_cast hden
  have hnumlow : (2 : ℚ) ^ num.log2 ≤ num := by exact_mod_cast Nat.log2_self_le hnum
  have hnumhigh : (num : ℚ) < 2 ^ (num.log2 + 1) := by exact_mod_cast Nat.lt_log2_self
  have hdenlow : (2 : ℚ) ^ den.log2 ≤ den := by exact_mod_cast Nat.log2_self_le hden.ne'
  have hdenhigh : (den : ℚ) < 2 ^ (den.log2 + 1) := by exact_mod_cast Nat.lt_log2_self
  have hlow : (2 : ℚ) ^ ((num.log2 : ℤ) - den.log2 - 1) ≤ num / den := by
    have hsplit : (num.log2 : ℤ) - den.log2 - 1 = (num.log2 : ℤ) - (den.log2 + 1 : ℕ) := by
      push_cast
      ring
    rw [hsplit, zpow_sub₀ two_ne_zero, zpow_natCast, zpow_natCast]
    exact div_le_div₀ (by positivity) hnumlow hdenpos hdenhigh.le
  have hhigh : (num : ℚ) / den < 2 ^ ((num.log2 : ℤ) - den.log2 + 1) := by
    have hsplit : (num.log2 : ℤ) - den.log2 + 1 = (num.log2 + 1 : ℕ) - (den.log2 : ℤ) := by
      push_cast
      ring
    rw [hsplit, zpow_sub₀ two_ne_zero, zpow_natCast, zpow_natCast]
    exact div_lt_div₀ hnumhigh hdenlow (by positivity) (by positivity)
  rw [← Nat.cast_ofNat, Int.zpow_le_iff_le_log (by decide) hpos] at hlow
  rw [← Nat.cast_ofNat, Int.lt_zpow_iff_log_lt (by decide) hpos] at hhigh
  have htest (e : ℤ) : den * 2 ^ e.toNat ≤ num * 2 ^ (-e).toNat ↔ e ≤ Int.log 2 ((num : ℚ) / den) := by
    rw [← two_zpow_le_div hden, ← Int.zpow_le_iff_le_log (by decide) hpos, Nat.cast_ofNat]
  unfold binade
  simp only [Nat.pow_eq, htest]
  split <;> omega

end

/-! ## Rounding to a format -/

namespace BinaryFormat

variable {f : BinaryFormat} {num den : Nat} {r : ℚ}

/-- The exponent of the unit that a positive number is rounded to a multiple of. -/
def unitExponent (f : BinaryFormat) (r : ℚ) : ℤ :=
  max (Int.log 2 r - (f.precision - 1 : Nat)) f.least

/-- The unit of a number between two powers of two. -/
theorem unitExponent_of_binade {b : ℤ} (hlow : (2 : ℚ) ^ b ≤ r) (hhigh : r < 2 ^ (b + 1)) :
    f.unitExponent r = max (b - (f.precision - 1 : Nat)) f.least := by
  have hpos : 0 < r := (two_zpow_pos b).trans_le hlow
  rw [← Nat.cast_ofNat, Int.zpow_le_iff_le_log (by decide) hpos] at hlow
  rw [← Nat.cast_ofNat, Int.lt_zpow_iff_log_lt (by decide) hpos] at hhigh
  rw [unitExponent]
  congr 2
  omega

/-- A number in its own units is below the powers of two past the precision, and, unless the unit is the
least one, not below those of full precision. -/
theorem div_unit_bounds (hprecision : 0 < f.precision) (hr : 0 < r) :
    r / 2 ^ f.unitExponent r < 2 ^ f.precision ∧
      (f.unitExponent r = f.least ∨ 2 ^ (f.precision - 1) ≤ r / 2 ^ f.unitExponent r) := by
  obtain ⟨p, hp⟩ := Nat.exists_eq_succ_of_ne_zero hprecision.ne'
  have hhigh : r < 2 ^ (Int.log 2 r + 1) := by
    exact_mod_cast Int.lt_zpow_succ_log_self (by decide) r
  have hlow : (2 : ℚ) ^ Int.log 2 r ≤ r := by
    exact_mod_cast Int.zpow_log_le_self (by decide) hr
  have hunit := two_zpow_pos (f.unitExponent r)
  constructor
  · rw [div_lt_iff₀ hunit, ← zpow_natCast, ← zpow_add₀ two_ne_zero]
    refine hhigh.trans_le (zpow_le_zpow_right₀ one_le_two ?_)
    rw [unitExponent]
    omega
  · by_cases hleast : f.unitExponent r = f.least
    · exact .inl hleast
    · refine .inr ?_
      rw [le_div_iff₀ hunit, ← zpow_natCast, ← zpow_add₀ two_ne_zero]
      refine le_trans (zpow_le_zpow_right₀ one_le_two ?_) hlow
      rw [unitExponent] at hleast ⊢
      omega

/-- A ratio counted in units is a ratio of naturals again. -/
theorem cast_scaled_div (num den : Nat) (e : ℤ) :
    ((num * 2 ^ (-e).toNat : ℕ) : ℚ) / (den * 2 ^ e.toNat : ℕ) = num / den / 2 ^ e := by
  rw [zpow_eq_div]
  push_cast
  field_simp

/-- A positive ratio is rounded by the natural next to its number of units. -/
theorem round_eq_ite (hnum : num ≠ 0) (hden : 0 < den) {e : ℤ} {s : Nat}
    (he : f.unitExponent (num / den) = e)
    (hs : roundHalfEven (num * 2 ^ (-e).toNat) (den * 2 ^ e.toNat) = s) :
    f.round num den =
      if f.greatest < (if s = 2 ^ f.precision then e + 1 else e) then none
      else some (if s = 2 ^ f.precision then ⟨2 ^ (f.precision - 1), e + 1⟩ else ⟨s, e⟩) := by
  rw [unitExponent, ← binade_eq_log hnum hden] at he
  rw [round, if_neg hnum]
  simp only [he, Nat.pow_eq, hs]
  split <;> rfl

/-- **A positive ratio rounds to a multiple of its unit** that is at most half a unit away, unless it
is past the greatest magnitudes. -/
theorem exists_round (hprecision : 0 < f.precision) (hnum : num ≠ 0) (hden : 0 < den)
    (hfit : f.unitExponent (num / den) < f.greatest) :
    ∃ (s : ℕ) (m : Magnitude), f.round num den = some m ∧
      m.toRat = s * 2 ^ f.unitExponent (num / den) ∧
      |(s : ℚ) - num / den / 2 ^ f.unitExponent (num / den)| ≤ 1 / 2 := by
  obtain ⟨e, he⟩ : ∃ e, f.unitExponent (num / den) = e := ⟨_, rfl⟩
  obtain ⟨s, hs⟩ : ∃ s, roundHalfEven (num * 2 ^ (-e).toNat) (den * 2 ^ e.toNat) = s := ⟨_, rfl⟩
  have hround := round_eq_ite hnum hden he hs
  have hnear := abs_roundHalfEven_sub_le (num * 2 ^ (-e).toNat)
    (Nat.mul_pos hden (Nat.two_pow_pos e.toNat))
  rw [hs, cast_scaled_div] at hnear
  rw [he] at hfit ⊢
  refine ⟨s, if s = 2 ^ f.precision then ⟨2 ^ (f.precision - 1), e + 1⟩ else ⟨s, e⟩, ?_, ?_, hnear⟩
  · rw [hround, if_neg]
    split <;> omega
  · split
    · rename_i hcarry
      -- The carry to the next power of two does not change the number.
      obtain ⟨p, hp⟩ := Nat.exists_eq_succ_of_ne_zero hprecision.ne'
      rw [Magnitude.toRat, hcarry, hp, zpow_add_one₀ two_ne_zero]
      push_cast [Nat.succ_sub_one, pow_succ]
      ring
    · rfl

/-- **Rounding keeps a number up to a small part of it**, if the number is neither below full precision
nor past the greatest magnitudes. -/
theorem exists_round_near (hprecision : 0 < f.precision) (hden : 0 < den)
    (hlow : (2 : ℚ) ^ (f.least + f.precision - 1) ≤ num / den)
    (hhigh : (num : ℚ) / den < 2 ^ (f.greatest + f.precision - 1)) :
    ∃ m, f.round num den = some m ∧ |m.toRat - num / den| ≤ num / den / 2 ^ f.precision := by
  have hpos : (0 : ℚ) < num / den := (two_zpow_pos _).trans_le hlow
  have hnum : num ≠ 0 := by
    rintro rfl
    simp at hpos
  obtain ⟨p, hp⟩ := Nat.exists_eq_succ_of_ne_zero hprecision.ne'
  have hlog : (2 : ℚ) ^ Int.log 2 ((num : ℚ) / den) ≤ num / den := by
    exact_mod_cast Int.zpow_log_le_self (by decide) hpos
  rw [← Nat.cast_ofNat, Int.zpow_le_iff_le_log (by decide) hpos] at hlow
  rw [← Nat.cast_ofNat, Int.lt_zpow_iff_log_lt (by decide) hpos] at hhigh
  have he : f.unitExponent (num / den) = Int.log 2 ((num : ℚ) / den) - p := by
    rw [unitExponent, hp, Nat.succ_sub_one]
    omega
  obtain ⟨s, m, hround, hvalue, hnear⟩ := exists_round hprecision hnum hden (by omega)
  refine ⟨m, hround, ?_⟩
  rw [he] at hvalue hnear
  have hunit := two_zpow_pos (Int.log 2 ((num : ℚ) / den) - p)
  have hdiff : m.toRat - num / den = (s - num / den / 2 ^ (Int.log 2 ((num : ℚ) / den) - p)) *
      2 ^ (Int.log 2 ((num : ℚ) / den) - p) := by
    rw [hvalue, sub_mul, div_mul_cancel₀ _ hunit.ne']
  calc |m.toRat - num / den|
      = |(s : ℚ) - num / den / 2 ^ (Int.log 2 ((num : ℚ) / den) - p)| *
          2 ^ (Int.log 2 ((num : ℚ) / den) - p) := by rw [hdiff, abs_mul, abs_of_pos hunit]
    _ ≤ 1 / 2 * 2 ^ (Int.log 2 ((num : ℚ) / den) - p) := by gcongr
    _ = 2 ^ Int.log 2 ((num : ℚ) / den) / 2 ^ f.precision := by
      rw [zpow_sub₀ two_ne_zero, zpow_natCast, hp, pow_succ]
      field_simp
    _ ≤ num / den / 2 ^ f.precision := by gcongr

/-- **A number of few bits is rounded to itself.** -/
theorem exists_round_exact (hprecision : 0 < f.precision) (hden : 0 < den) {b : Nat} {q : ℤ}
    (hb : b ≠ 0) (hbits : b < 2 ^ f.precision) (hleast : f.least ≤ q) (hgreatest : q < f.greatest)
    (hr : (num : ℚ) / den = b * 2 ^ q) : ∃ m, f.round num den = some m ∧ m.toRat = b * 2 ^ q := by
  have hbpos : (0 : ℚ) < b := by exact_mod_cast Nat.pos_of_ne_zero hb
  have hpos : (0 : ℚ) < num / den := by
    rw [hr]
    exact mul_pos hbpos (two_zpow_pos q)
  have hnum : num ≠ 0 := by
    rintro rfl
    simp at hpos
  have hlog : Int.log 2 ((num : ℚ) / den) < f.precision + q := by
    rw [← Int.lt_zpow_iff_log_lt (by decide) hpos, hr, Nat.cast_ofNat, zpow_add₀ two_ne_zero,
      zpow_natCast]
    have hbits' : (b : ℚ) < 2 ^ f.precision := by exact_mod_cast hbits
    have hunit := two_zpow_pos q
    gcongr
  have he : f.unitExponent (num / den) ≤ q := by
    rw [unitExponent]
    omega
  obtain ⟨s, m, hround, hvalue, hnear⟩ := exists_round hprecision hnum hden (by omega)
  refine ⟨m, hround, ?_⟩
  generalize f.unitExponent (num / den) = e at he hvalue hnear
  obtain ⟨k, hk⟩ := Int.eq_ofNat_of_zero_le (sub_nonneg.2 he)
  have hunits : (b : ℚ) * 2 ^ q = (b * 2 ^ k : ℕ) * 2 ^ e := by
    have hsplit : q = k + e := by omega
    rw [hsplit, zpow_add₀ two_ne_zero, zpow_natCast]
    push_cast
    ring
  rw [hr, hunits, mul_div_cancel_right₀ _ (two_zpow_pos e).ne'] at hnear
  have hs : s = b * 2 ^ k :=
    Nat.le_antisymm (le_of_abs_sub_le hnear le_rfl) (ge_of_abs_sub_le hnear le_rfl)
  rw [hvalue, hs, hunits]

/-! ## The numbers that round to a magnitude -/

/-- The magnitude is one of the format, in the form in which it is rounded to. -/
structure Canonical (f : BinaryFormat) (x : Magnitude) : Prop where
  significand_lt : x.significand < 2 ^ f.precision
  least_le : f.least ≤ x.exponent
  le_greatest : x.exponent ≤ f.greatest
  full : x.exponent = f.least ∨ 2 ^ (f.precision - 1) ≤ x.significand

/-- **Rounding answers with a magnitude of the format.** -/
theorem canonical_of_round (hprecision : 0 < f.precision) (hrange : f.least ≤ f.greatest)
    (hden : 0 < den) {m : Magnitude} (h : f.round num den = some m) : f.Canonical m := by
  by_cases hnum : num = 0
  · subst hnum
    cases h
    exact ⟨Nat.two_pow_pos _, le_rfl, hrange, .inl rfl⟩
  have hr : (0 : ℚ) < num / den := by
    have := Nat.pos_of_ne_zero hnum
    positivity
  obtain ⟨e, he⟩ : ∃ e, f.unitExponent (num / den) = e := ⟨_, rfl⟩
  obtain ⟨s, hs⟩ : ∃ s, roundHalfEven (num * 2 ^ (-e).toNat) (den * 2 ^ e.toNat) = s := ⟨_, rfl⟩
  obtain ⟨hhigh, hlow⟩ := div_unit_bounds hprecision hr
  have hleast : f.least ≤ e := he ▸ le_max_right _ _
  have hnear := abs_roundHalfEven_sub_le (num * 2 ^ (-e).toNat)
    (Nat.mul_pos hden (Nat.two_pow_pos e.toNat))
  rw [hs, cast_scaled_div] at hnear
  rw [he] at hhigh hlow
  have hle : s ≤ 2 ^ f.precision := by
    refine le_of_abs_sub_le hnear ?_
    push_cast
    exact hhigh.le
  have hfull : e = f.least ∨ 2 ^ (f.precision - 1) ≤ s := by
    refine hlow.imp_right fun hlow => ge_of_abs_sub_le hnear ?_
    push_cast
    exact hlow
  rw [round_eq_ite hnum hden he hs] at h
  by_cases hcarry : s = 2 ^ f.precision
  · rw [if_pos hcarry, if_pos hcarry, Option.ite_none_left_eq_some, not_lt] at h
    obtain ⟨hgreatest, h⟩ := h
    cases h
    exact ⟨Nat.pow_lt_pow_right (by decide) (Nat.sub_lt hprecision one_pos),
      Int.le_add_one hleast, hgreatest, .inr le_rfl⟩
  · rw [if_neg hcarry, if_neg hcarry, Option.ite_none_left_eq_some, not_lt] at h
    obtain ⟨hgreatest, h⟩ := h
    cases h
    exact ⟨lt_of_le_of_ne hle hcarry, hleast, hgreatest, hfull⟩

/-- The part of a unit down to which numbers round to a magnitude: one half, or a quarter where the unit
below is half as large. -/
def lowerPart (f : BinaryFormat) (x : Magnitude) : ℚ :=
  if x.significand = 2 ^ (f.precision - 1) ∧ f.least < x.exponent then 1 / 4 else 1 / 2

/-- It is at least a quarter and at most one half. -/
theorem lowerPart_bounds (f : BinaryFormat) (x : Magnitude) :
    1 / 4 ≤ f.lowerPart x ∧ f.lowerPart x ≤ 1 / 2 := by
  unfold lowerPart
  split <;> norm_num

/-- The lower end of the interval of numbers that round to a magnitude. -/
def lowerEnd (f : BinaryFormat) (x : Magnitude) : ℚ :=
  (x.significand - f.lowerPart x) * 2 ^ x.exponent

/-- The upper end. -/
def upperEnd (x : Magnitude) : ℚ := (x.significand + 1 / 2) * 2 ^ x.exponent

/-- The number lies between the ends, which belong to the interval if the significand is even. -/
structure Near (f : BinaryFormat) (x : Magnitude) (r : ℚ) : Prop where
  lower : f.lowerEnd x ≤ r
  upper : r ≤ upperEnd x
  odd : x.significand % 2 = 1 → f.lowerEnd x < r ∧ r < upperEnd x

variable {x : Magnitude}

/-- The number of units is not above that of the magnitude by more than one half. -/
theorem Near.div_le (h : f.Near x r) : r / 2 ^ x.exponent ≤ x.significand + 1 / 2 :=
  (div_le_iff₀ (two_zpow_pos _)).2 h.upper

/-- Nor is it below by more than one half, or by more than a quarter at a power of two. -/
theorem Near.le_div (h : f.Near x r) :
    (x.significand : ℚ) - f.lowerPart x ≤ r / 2 ^ x.exponent :=
  (le_div_iff₀ (two_zpow_pos _)).2 h.lower

/-- For an odd significand the differences are less than that. -/
theorem Near.lt_div_lt (h : f.Near x r) (hodd : x.significand % 2 = 1) :
    (x.significand : ℚ) - 1 / 2 < r / 2 ^ x.exponent ∧
      r / 2 ^ x.exponent < x.significand + 1 / 2 := by
  obtain ⟨hlow, hhigh⟩ := h.odd hodd
  refine ⟨lt_of_le_of_lt ?_ ((lt_div_iff₀ (two_zpow_pos _)).2 hlow),
    (div_lt_iff₀ (two_zpow_pos _)).2 hhigh⟩
  linarith [(f.lowerPart_bounds x).2]

/-- In units of the magnitude, what is near it rounds to its significand. -/
theorem Near.roundHalfEven_eq (hden : 0 < den) (h : f.Near x (num / den)) :
    roundHalfEven (num * 2 ^ (-x.exponent).toNat) (den * 2 ^ x.exponent.toNat) =
      x.significand := by
  have hlow : (x.significand : ℚ) - 1 / 2 ≤ num / den / 2 ^ x.exponent := by
    linarith [h.le_div, (f.lowerPart_bounds x).2]
  refine FieldShader.roundHalfEven_eq (Nat.mul_pos hden (Nat.two_pow_pos _)) ?_ ?_ ?_
  · rwa [cast_scaled_div]
  · rw [cast_scaled_div]
    exact h.div_le
  · rw [cast_scaled_div]
    rcases Nat.mod_two_eq_zero_or_one x.significand with heven | hodd
    · exact .inl heven
    · exact .inr (h.lt_div_lt hodd)

/-- What is near a magnitude is past no power of two above it. -/
theorem Near.log_lt (hx : f.Canonical x) (hr : 0 < r) (h : f.Near x r) :
    Int.log 2 r < f.precision + x.exponent := by
  rw [← Int.lt_zpow_iff_log_lt (by decide) hr, Nat.cast_ofNat, zpow_add₀ two_ne_zero, zpow_natCast,
    ← div_lt_iff₀ (two_zpow_pos _)]
  have hlt : (x.significand : ℚ) + 1 ≤ 2 ^ f.precision := by
    exact_mod_cast Nat.succ_le_of_lt hx.significand_lt
  have hupper := h.div_le
  linarith

/-- What is near a positive magnitude is positive. -/
theorem Near.pos (hpos : x.significand ≠ 0) (h : f.Near x r) : 0 < r := by
  have hone : (1 : ℚ) ≤ x.significand := by exact_mod_cast Nat.pos_of_ne_zero hpos
  have hlower := h.le_div
  have hquotient : 0 < r / 2 ^ x.exponent := by linarith [(f.lowerPart_bounds x).2]
  exact (div_pos_iff_of_pos_right (two_zpow_pos _)).1 hquotient

/-- The unit of what is near a magnitude is that of the magnitude, unless a power of two is between
them. -/
theorem Near.unitExponent_eq (hprecision : 0 < f.precision) (hx : f.Canonical x) (hr : 0 < r)
    (h : f.Near x r)
    (hlow : f.least < x.exponent → 2 ^ ((f.precision - 1 : Nat) + x.exponent) ≤ r) :
    f.unitExponent r = x.exponent := by
  have hlog := h.log_lt hx hr
  rw [unitExponent]
  rcases hx.least_le.eq_or_lt with heq | hlt
  · omega
  · have hlow := hlow hlt
    rw [← Nat.cast_ofNat, Int.zpow_le_iff_le_log (by decide) hr] at hlow
    omega

/-- A magnitude with a power of two between it and what is near it is that power. -/
theorem Near.of_lt (hx : f.Canonical x) (h : f.Near x r) (hleast : f.least < x.exponent)
    (hbelow : r < 2 ^ ((f.precision - 1 : Nat) + x.exponent)) :
    x.significand = 2 ^ (f.precision - 1) ∧
      2 ^ (f.precision - 1) - 1 / 4 ≤ r / 2 ^ x.exponent ∧
        r / 2 ^ x.exponent < 2 ^ (f.precision - 1) := by
  have hlower := h.le_div
  have hfull := hx.full.resolve_left hleast.ne'
  rw [zpow_add₀ two_ne_zero, zpow_natCast, ← div_lt_iff₀ (two_zpow_pos _)] at hbelow
  have hpower : x.significand = 2 ^ (f.precision - 1) := by
    have hlt : (x.significand : ℚ) < (2 ^ (f.precision - 1) + 1 : ℕ) := by
      push_cast
      linarith [(f.lowerPart_bounds x).2]
    have := Nat.cast_lt.1 hlt
    omega
  have hpower' : (x.significand : ℚ) = 2 ^ (f.precision - 1) := by exact_mod_cast hpower
  rw [lowerPart, if_pos ⟨hpower, hleast⟩, hpower'] at hlower
  exact ⟨hpower, hlower, hbelow⟩

/-- Just below a power of two the unit is half as large, and the number of units is rounded up to the
next power of two. -/
theorem roundHalfEven_of_lt (hprecision : 0 < f.precision) (hden : 0 < den) {e : ℤ}
    (hlow : (2 : ℚ) ^ (f.precision - 1) - 1 / 4 ≤ num / den / 2 ^ e)
    (hhigh : (num : ℚ) / den / 2 ^ e < 2 ^ (f.precision - 1)) (hleast : f.least < e) :
    f.unitExponent (num / den) = e - 1 ∧
      roundHalfEven (num * 2 ^ (-(e - 1)).toNat) (den * 2 ^ (e - 1).toNat) = 2 ^ f.precision := by
  obtain ⟨p, hp⟩ := Nat.exists_eq_succ_of_ne_zero hprecision.ne'
  rw [hp, Nat.succ_sub_one] at hlow hhigh
  have hunit := two_zpow_pos e
  have hhalf : (2 : ℚ) ^ (e - 1) = 2 ^ e / 2 := zpow_sub_one₀ two_ne_zero _
  have hone : (1 : ℚ) ≤ 2 ^ p := one_le_pow₀ one_le_two
  constructor
  · have hbinade : (2 : ℚ) ^ (p + (e - 1)) ≤ num / den := by
      rw [zpow_add₀ two_ne_zero, zpow_natCast, hhalf, ← mul_div_assoc, mul_div_right_comm,
        ← le_div_iff₀ hunit]
      linarith
    have hnext : (num : ℚ) / den < 2 ^ (p + (e - 1) + 1) := by
      rw [div_lt_iff₀ hunit, ← zpow_natCast, ← zpow_add₀ two_ne_zero] at hhigh
      have hsplit : (p : ℤ) + (e - 1) + 1 = p + e := by ring
      rwa [hsplit]
    rw [unitExponent_of_binade hbinade hnext, hp, Nat.succ_sub_one]
    omega
  · have hdouble : (num : ℚ) / den / 2 ^ (e - 1) = 2 * (num / den / 2 ^ e) := by
      rw [hhalf]
      field_simp
    refine FieldShader.roundHalfEven_eq (Nat.mul_pos hden (Nat.two_pow_pos _)) ?_ ?_
      (.inl (by rw [hp, pow_succ, Nat.mul_mod_left]))
    · rw [cast_scaled_div, hdouble, hp]
      push_cast [pow_succ]
      linarith
    · rw [cast_scaled_div, hdouble, hp]
      push_cast [pow_succ]
      linarith

/-- **What is near a magnitude rounds to it.** -/
theorem round_eq (hprecision : 0 < f.precision) (hden : 0 < den) (hx : f.Canonical x)
    (hpos : x.significand ≠ 0) (h : f.Near x (num / den)) : f.round num den = some x := by
  have hr := h.pos hpos
  have hnum : num ≠ 0 := by
    rintro rfl
    simp at hr
  have hgreatest := hx.le_greatest
  by_cases hbelow : f.least < x.exponent ∧
      (num : ℚ) / den < 2 ^ ((f.precision - 1 : Nat) + x.exponent)
  · -- The carry to the next power of two undoes the smaller unit.
    obtain ⟨hleast, hbelow⟩ := hbelow
    obtain ⟨hpower, hlow, hhigh⟩ := h.of_lt hx hleast hbelow
    obtain ⟨he, hs⟩ := roundHalfEven_of_lt hprecision hden hlow hhigh hleast
    rw [round_eq_ite hnum hden he hs, if_pos rfl, if_pos rfl, Int.sub_add_cancel,
      if_neg (not_lt.2 hgreatest), ← hpower]
  · have he := h.unitExponent_eq hprecision hx hr
      fun hleast => le_of_not_gt fun hlt => hbelow ⟨hleast, hlt⟩
    have hne : x.significand ≠ 2 ^ f.precision := hx.significand_lt.ne
    rw [round_eq_ite hnum hden he (h.roundHalfEven_eq hden), if_neg hne, if_neg hne,
      if_neg (not_lt.2 hgreatest)]

end BinaryFormat

end FieldShader
