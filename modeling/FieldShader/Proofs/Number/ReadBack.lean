import FieldShader.Proofs.Json.NumeralValue
import FieldShader.Proofs.Number.Margin
import FieldShader.Proofs.Number.Pattern

/-!
# Numbers are read back

A finite number of single precision is written to a JSON text as its shortest decimal. The reader takes
the digits for a natural number, scales it by a power of ten in double precision, and rounds the result
to single precision. Neither of the first two roundings is one to the nearest double of the decimal, so
what is rounded last is only close to it; but the shortest decimal leaves margin enough for that.
`Single.readBack` says that the number that comes out is the one that went in, bit for bit.
-/

namespace FieldShader

/-! ## Powers of ten that meet a number of few bits -/

/-- A natural number of few bits has few factors five. -/
theorem le_of_eq_mul_five_pow {a b j : Nat} {s : ℤ} (ha : a ≠ 0) (hbits : a < 2 ^ 53)
    (h : (a : ℚ) = b * 5 ^ j * 2 ^ s) : j ≤ 22 := by
  have hcross : a * 2 ^ (-s).toNat = b * 5 ^ j * 2 ^ s.toNat := by
    rw [zpow_eq_div, ← mul_div_assoc, eq_div_iff (by positivity)] at h
    exact_mod_cast h
  have hdvd : 5 ^ j ∣ a := by
    have hcoprime : Nat.Coprime (5 ^ j) (2 ^ (-s).toNat) := Nat.Coprime.pow _ _ (by decide)
    refine hcoprime.dvd_of_dvd_mul_right ⟨b * 2 ^ s.toNat, ?_⟩
    rw [hcross]
    ring
  have hle := Nat.le_of_dvd (Nat.pos_of_ne_zero ha) hdvd
  by_contra hlarge
  have hpow : 5 ^ 23 ≤ 5 ^ j := Nat.pow_le_pow_right (by decide) (by omega)
  omega

/-- A decimal that is a number of few bits has a small power of ten. -/
theorem natAbs_le_of_mul_zpow_eq {w n : Nat} {k q : ℤ} (hw : w ≠ 0) (hwbits : w < 2 ^ 53)
    (hn : n < 2 ^ 53) (h : (w : ℚ) * 10 ^ k = n * 2 ^ q) : k.natAbs ≤ 22 := by
  have hten (e : ℤ) : (10 : ℚ) ^ e = 5 ^ e * 2 ^ e := by
    rw [← mul_zpow]
    norm_num
  obtain ⟨j, rfl | rfl⟩ := k.eq_nat_or_neg
  · rw [Int.natAbs_natCast]
    have hne : n ≠ 0 := by
      rintro rfl
      have hpos : (0 : ℚ) < w * 10 ^ (j : ℤ) :=
        mul_pos (by exact_mod_cast Nat.pos_of_ne_zero hw) (ten_zpow_pos _)
      rw [h] at hpos
      simp at hpos
    refine le_of_eq_mul_five_pow (b := w) (s := j - q) hne hn ?_
    rw [zpow_sub₀ two_ne_zero, mul_div_assoc', eq_div_iff (two_zpow_pos q).ne', ← h, hten,
      zpow_natCast 5]
    ring
  · rw [Int.natAbs_neg, Int.natAbs_natCast]
    refine le_of_eq_mul_five_pow (b := n) (s := q + j) hw hwbits ?_
    rw [zpow_add₀ two_ne_zero]
    rw [zpow_neg, ← div_eq_mul_inv, div_eq_iff (ten_zpow_pos _).ne', hten, zpow_natCast 5] at h
    linarith

namespace Single

/-- The parts of a finite number in a JSON text. -/
def jsonText (negative : Bool) (m : Magnitude) : NumberText :=
  NumberStyle.jsonSingle.text negative (BinaryFormat.single.shortest NumberStyle.jsonSingle.tie m)

/-- The number that a magnitude is read back as. -/
def reread? (negative : Bool) (m : Magnitude) : Option Single :=
  match (jsonText negative m).numeral.value with
  | .ok n => some n.toSingle
  | .error _ => none

/-- Zero is read back. -/
theorem reread?_zero (negative : Bool) :
    reread? negative ⟨0, -149⟩ = some (ofMagnitude? negative (some ⟨0, -149⟩)) := by
  cases negative <;> decide +kernel

/-- So are the numbers beside the exceptional boundary. -/
theorem reread?_of_besideException (negative : Bool) {m : Magnitude}
    (h : BinaryFormat.BesideException m) :
    reread? negative m = some (ofMagnitude? negative (some m)) := by
  obtain ⟨significand, exponent⟩ := m
  obtain ⟨rfl | rfl, rfl | rfl⟩ := h <;> cases negative <;> decide +kernel

section

open BinaryFormat

variable {m : Magnitude}

/-- The grids that are tried are fine enough for every number. -/
theorem zpow_le_sub_lowerEnd (hm : single.Canonical m) (hpos : m.significand ≠ 0) :
    (10 : ℚ) ^ (-46 : ℤ) ≤ m.toRat - single.lowerEnd m := by
  obtain ⟨n, e, -, -, hleast, -, hunit, -⟩ := exists_lowerEnd_eq hm hpos
  have hfine : (2 : ℚ) ^ (-149 : ℤ) ≤ 2 ^ e := zpow_le_zpow_right₀ one_le_two hleast
  calc (10 : ℚ) ^ (-46 : ℤ) ≤ 2 ^ (-149 : ℤ) / 2 := by norm_num
    _ ≤ 2 ^ e / 2 := by gcongr
    _ = m.toRat - single.lowerEnd m := by
      rw [hunit, (ends_eq m).1]
      ring

/-- The shortest decimal has few digits. -/
theorem digits_shortest_lt (tie : Tie) (hm : single.Canonical m) (hpos : m.significand ≠ 0) :
    (single.shortest tie m).digits < 2 ^ 53 := by
  obtain ⟨hnext, -, hcoarse⟩ := shortest_spec tie hpos (zpow_le_sub_lowerEnd hm hpos)
  generalize single.shortest tie m = d at hnext hcoarse ⊢
  have hunit := two_zpow_pos m.exponent
  have hgrid := ten_zpow_pos d.exponent
  have hbits : (m.significand : ℚ) + 1 ≤ 2 ^ 24 := by
    exact_mod_cast Nat.succ_le_of_lt hm.significand_lt
  have hupper : (d.digits : ℚ) * 10 ^ d.exponent ≤ 2 ^ 24 * 2 ^ m.exponent := by
    refine hnext.near.upper.trans ?_
    rw [upperEnd]
    gcongr
    linarith
  have hunits : (2 : ℚ) ^ m.exponent ≤ 40 * 10 ^ d.exponent := by
    rcases hcoarse with htop | hcoarse
    · calc (2 : ℚ) ^ m.exponent ≤ 2 ^ (104 : ℤ) := zpow_le_zpow_right₀ one_le_two hm.le_greatest
        _ ≤ 40 * 10 ^ d.exponent := by
          rw [htop]
          norm_num
    · have hpart := mul_le_mul_of_nonneg_right (single.lowerPart_bounds m).1 hunit.le
      rw [(ends_eq m).1, zpow_add_one₀ (by norm_num)] at hcoarse
      linarith
  have hdigits : (d.digits : ℚ) ≤ 2 ^ 24 * 40 := by
    refine le_of_mul_le_mul_right ?_ hgrid
    linarith
  have hdigits' : d.digits ≤ 2 ^ 24 * 40 := by exact_mod_cast hdigits
  omega

/-- Where the decimal is on a boundary, it is scaled without an error. -/
theorem toRat_eq_of_scale {w : Nat} {k : ℤ} {y : Magnitude} {r : ℚ} (hm : single.Canonical m)
    (hpos : m.significand ≠ 0) (hw : w ≠ 0) (hbits : w < 2 ^ 53) (hr : (w : ℚ) * 10 ^ k = r)
    (hy : Numeral.scale w k = .ok y) (hend : r = upperEnd m ∨ r = single.lowerEnd m) :
    y.toRat = r := by
  have hboundary : ∃ (n : ℕ) (e : ℤ), r = n * 2 ^ (e - 1) ∧ n < 2 ^ 25 ∧ -149 ≤ e ∧ e ≤ 104 := by
    rcases hend with heq | heq
    · have hsignificand := hm.significand_lt
      simp only [single] at hsignificand
      exact ⟨_, _, heq.trans (upperEnd_eq m), by omega, hm.least_le, hm.le_greatest⟩
    · obtain ⟨n, e, hlower, hn, hleast, hgreatest, -, -⟩ := exists_lowerEnd_eq hm hpos
      exact ⟨n, e, heq.trans hlower, hn, hleast, hgreatest⟩
  obtain ⟨n, e, heq, hn, hleast, hgreatest⟩ := hboundary
  have hn' : n < 2 ^ 53 := hn.trans (by decide)
  have hk := natAbs_le_of_mul_zpow_eq hw hbits hn' (hr.trans heq)
  obtain ⟨z, hz, hexact⟩ := Numeral.exists_scale_exact hw hbits hk hn' (by omega) (by omega)
    (hr.trans heq)
  rw [hy] at hz
  cases hz
  exact hexact.trans hr

/-- A positive magnitude of the format is read back. -/
theorem reread?_of_canonical (negative : Bool) (hm : single.Canonical m)
    (hpos : m.significand ≠ 0) : reread? negative m = some (ofMagnitude? negative (some m)) := by
  obtain ⟨hnext, hexponent, -⟩ :=
    shortest_spec NumberStyle.jsonSingle.tie hpos (zpow_le_sub_lowerEnd hm hpos)
  have hdigits := digits_shortest_lt NumberStyle.jsonSingle.tie hm hpos
  obtain ⟨w, k, hbits, hk, hwk, hvalue⟩ :=
    NumberStyle.scalesTo_text negative hdigits (hexponent.trans (by decide))
  have hw : w ≠ 0 := by
    rintro rfl
    rw [Nat.cast_zero, zero_mul, Decimal.toRat, eq_comm, mul_eq_zero, Nat.cast_eq_zero] at hwk
    exact hwk.elim (digits_ne_zero_of_near hpos hnext.near) (ten_zpow_pos _).ne'
  obtain ⟨y, hy, hclose⟩ := Numeral.exists_scale hw hbits hk
  rw [hwk] at hclose
  rcases near_of_close hm hnext hclose hpos (toRat_eq_of_scale hm hpos hw hbits hwk hy) with
    hnear | hexception
  · rw [Magnitude.toRat_eq_div] at hnear
    have hround := round_eq (by decide) y.den_pos hm hpos hnear
    have htext : (jsonText negative m).numeral.value = .ok (.double negative y) := by
      rw [jsonText, hvalue, hy, NumberStyle.negative_text]
      rfl
    rw [reread?, htext]
    show some (ofMagnitude? negative (single.round y.num y.den)) = _
    rw [hround]
  · exact reread?_of_besideException negative hexception

end

/-- **A finite number is read back** from its text in a JSON text. -/
theorem readBack {x : Single} {negative : Bool} {m : Magnitude}
    (h : x.value = .finite negative m) :
    ∃ n, (jsonText negative m).numeral.value = .ok n ∧ n.toSingle = x := by
  have hm := canonical_of_value h
  have hreread : reread? negative m = some (ofMagnitude? negative (some m)) := by
    by_cases hzero : m.significand = 0
    · obtain ⟨significand, exponent⟩ := m
      dsimp only at hzero
      subst hzero
      have hexponent : exponent = -149 := hm.full.resolve_right (Nat.not_le.2 (Nat.two_pow_pos _))
      rw [hexponent]
      exact reread?_zero negative
    · exact reread?_of_canonical negative hm hzero
  rw [ofMagnitude?_of_value h, reread?] at hreread
  split at hreread
  · rename_i n hn
    exact ⟨n, hn, Option.some.inj hreread⟩
  · cases hreread

end Single

end FieldShader
