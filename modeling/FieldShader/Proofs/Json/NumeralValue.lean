import FieldShader.Proofs.Json.Numeral
import FieldShader.Proofs.Json.Scaling
import FieldShader.Proofs.Number.Nearest

/-!
# The value of a written decimal

Whichever form a decimal is written in, its digits are read as one natural number, and the point and
the exponent come to one power of ten. What is read is that natural scaled by that power
(`NumberStyle.scalesTo_text`), which is the decimal again.
-/

namespace FieldShader

/-- The digits of a decimal are read as one natural number. -/
theorem Decimal.ofDigitChars_chars (d : Decimal) : Nat.ofDigitChars 10 d.chars 0 = d.digits :=
  Nat.ofDigitChars_toDigits (by decide) (by decide)

/-- The number of digits bounds the natural number. -/
theorem Decimal.digits_lt_pow (d : Decimal) : d.digits < 10 ^ d.chars.length :=
  (Nat.length_toDigits_le_iff (by decide) (List.length_pos_of_ne_nil d.chars_ne_nil)).1 le_rfl

/-- A natural number only grows with its digits. -/
theorem le_ofDigitChars (cs : List Char) (n : Nat) : n ≤ Nat.ofDigitChars 10 cs n := by
  induction cs generalizing n with
  | nil => exact le_rfl
  | cons c cs ih =>
    rw [Nat.ofDigitChars_cons]
    exact le_trans (by omega) (ih _)

namespace Numeral

/-- Digits are absorbed to the last as long as they stay below the bound. -/
theorem absorb_map_digitValue {bound acc : Nat} {cs : List Char}
    (h : Nat.ofDigitChars 10 cs acc < bound) :
    absorb bound acc (cs.map digitValue) = (Nat.ofDigitChars 10 cs acc, []) := by
  induction cs generalizing acc with
  | nil => rfl
  | cons c cs ih =>
    rw [Nat.ofDigitChars_cons, Nat.mul_comm] at h ⊢
    rw [List.map_cons, absorb]
    exact (if_pos (lt_of_le_of_lt (le_ofDigitChars cs _) h)).trans (ih h)

/-- The digits of an exponent are read as one natural number. -/
theorem foldl_map_digitValue (cs : List Char) (acc : Nat) :
    (cs.map digitValue).foldl (fun acc d => acc * 10 + d) acc = Nat.ofDigitChars 10 cs acc := by
  rw [List.foldl_map, Nat.ofDigitChars]
  simp only [Nat.mul_comm, digitValue]

end Numeral

namespace NumberText

variable {t : NumberText}

open Numeral

/-- The digits on both sides of the point, read as one natural number. -/
def digits (t : NumberText) : Nat := Nat.ofDigitChars 10 (t.whole ++ t.fraction) 0

/-- The digits before the point are absorbed. -/
theorem absorb_whole (h : t.digits < integerBound) :
    absorb integerBound 0 (t.whole.map digitValue) = (Nat.ofDigitChars 10 t.whole 0, []) := by
  refine absorb_map_digitValue (lt_of_le_of_lt ?_ h)
  rw [digits, Nat.ofDigitChars_append]
  exact le_ofDigitChars _ _

/-- The digits after the point are absorbed. -/
theorem absorb_fraction (h : t.digits < integerBound) :
    absorb integerBound (Nat.ofDigitChars 10 t.whole 0) (t.fraction.map digitValue) =
      (t.digits, []) := by
  rw [digits, Nat.ofDigitChars_append] at h ⊢
  exact absorb_map_digitValue h

/-- A number with a point and no exponent is scaled by the digits after the point. -/
theorem value_of_point (h : t.digits < integerBound) (hfraction : t.fraction ≠ [])
    (hexponent : t.exponent = none) :
    t.numeral.value = (scale t.digits (-t.fraction.length)).map (.double t.negative) := by
  rw [Numeral.value, numeral]
  simp only [absorb_whole h, absorb_fraction h, hexponent, Option.map_none, List.map_eq_nil_iff,
    hfraction, false_and, if_false, List.length_nil, List.length_map]
  simp only [Nat.cast_zero, Nat.sub_zero, zero_sub, bind, pure, Except.bind, Except.pure, Except.map]

/-- A number with an exponent is scaled by that and the digits after the point. -/
theorem value_of_power {down : Bool} {cs : List Char} (h : t.digits < integerBound)
    (hexponent : t.exponent = some (down, cs)) (hbound : Nat.ofDigitChars 10 cs 0 < exponentBound) :
    t.numeral.value = (scale t.digits (if down then -t.fraction.length - Nat.ofDigitChars 10 cs 0
      else -t.fraction.length + Nat.ofDigitChars 10 cs 0)).map (.double t.negative) := by
  rw [Numeral.value, numeral]
  simp only [absorb_whole h, absorb_fraction h, hexponent, Option.map_some, List.length_nil,
    List.length_map, foldl_map_digitValue, if_neg (Nat.not_le.2 hbound)]
  simp only [Nat.cast_zero, Nat.sub_zero, zero_sub, bind, pure, Except.bind, Except.pure, Except.map]

/-- The text is read by scaling a natural number of few bits to the given number. -/
def ScalesTo (t : NumberText) (r : ℚ) : Prop :=
  ∃ (w : Nat) (k : ℤ), w < 2 ^ 53 ∧ k.natAbs ≤ 50 ∧ (w : ℚ) * 10 ^ k = r ∧
    t.numeral.value = (scale w k).map (.double t.negative)

/-- A number with a point and no exponent is scaled down by the digits after the point. -/
theorem scalesTo_of_point {r : ℚ} (hdigits : t.digits < 2 ^ 53) (hfraction : t.fraction ≠ [])
    (hplaces : t.fraction.length ≤ 50) (hexponent : t.exponent = none)
    (hr : (t.digits : ℚ) * 10 ^ (-t.fraction.length : ℤ) = r) : t.ScalesTo r :=
  ⟨t.digits, -t.fraction.length, hdigits, by omega, hr,
    value_of_point (hdigits.trans (by decide)) hfraction hexponent⟩

end NumberText

namespace Decimal

variable {d : Decimal}

/-- A decimal that is padded with zeros has a digit more after the point. -/
theorem scalesTo_padded (negative : Bool) (hexponent : 0 ≤ d.exponent) (hleading : d.leading ≤ 12) :
    (⟨negative, d.chars ++ List.replicate d.exponent.toNat '0', ['0'], none⟩ :
      NumberText).ScalesTo d.toRat := by
  obtain ⟨e, he⟩ := Int.eq_ofNat_of_zero_le hexponent
  rw [leading, he] at hleading
  have hlength := List.length_pos_of_ne_nil d.chars_ne_nil
  have hdigits : (⟨negative, d.chars ++ List.replicate d.exponent.toNat '0', ['0'], none⟩ :
      NumberText).digits = d.digits * 10 ^ (e + 1) := by
    rw [NumberText.digits, Nat.ofDigitChars_append, Nat.ofDigitChars_append, d.ofDigitChars_chars,
      Nat.ofDigitChars_replicate_zero, he, pow_succ]
    simp [Nat.ofDigitChars_cons]
    ring
  have hlt : d.digits * 10 ^ (e + 1) < 2 ^ 53 := by
    calc d.digits * 10 ^ (e + 1) < 10 ^ d.chars.length * 10 ^ (e + 1) := by
          have hlt := d.digits_lt_pow
          gcongr
      _ = 10 ^ (d.chars.length + (e + 1)) := (pow_add _ _ _).symm
      _ ≤ 10 ^ 14 := Nat.pow_le_pow_right (by decide) (by omega)
      _ < 2 ^ 53 := by decide
  refine NumberText.scalesTo_of_point (hdigits ▸ hlt) (by simp) (by simp) rfl ?_
  rw [hdigits, toRat, he, zpow_natCast]
  push_cast [pow_succ]
  simp [mul_assoc]

/-- The positional form is read as the decimal. -/
theorem scalesTo_positionalText (negative : Bool) (hdigits : d.digits < 2 ^ 53)
    (hexponent : d.exponent.natAbs ≤ 50) (hleading : d.leading ≤ 12) :
    (d.positionalText negative).ScalesTo d.toRat := by
  unfold positionalText
  dsimp only
  split
  · exact scalesTo_padded negative (by omega) hleading
  · have hplaces : -((-d.exponent).toNat : ℤ) = d.exponent := by omega
    split
    · have hread : (⟨negative, d.chars.take (d.chars.length - (-d.exponent).toNat),
          d.chars.drop (d.chars.length - (-d.exponent).toNat), none⟩ : NumberText).digits =
            d.digits := by
        rw [NumberText.digits, List.take_append_drop, d.ofDigitChars_chars]
      have hlength : (d.chars.drop (d.chars.length - (-d.exponent).toNat)).length =
          (-d.exponent).toNat := by
        rw [List.length_drop]
        omega
      refine NumberText.scalesTo_of_point (hread ▸ hdigits) ?_ ?_ rfl ?_
      · exact List.ne_nil_of_length_pos (by rw [hlength]; omega)
      · rw [hlength]
        omega
      · rw [hread, hlength, hplaces, toRat]
    · have hread : (⟨negative, ['0'], List.replicate ((-d.exponent).toNat - d.chars.length) '0' ++
          d.chars, none⟩ : NumberText).digits = d.digits := by
        rw [NumberText.digits, Nat.ofDigitChars_append, Nat.ofDigitChars_append,
          Nat.ofDigitChars_replicate_zero, Nat.ofDigitChars_cons, Nat.ofDigitChars_nil]
        exact d.ofDigitChars_chars
      have hlength : (List.replicate ((-d.exponent).toNat - d.chars.length) '0' ++ d.chars).length =
          (-d.exponent).toNat := by
        rw [List.length_append, List.length_replicate]
        omega
      refine NumberText.scalesTo_of_point (hread ▸ hdigits) ?_ ?_ rfl ?_
      · simp [d.chars_ne_nil]
      · rw [hlength]
        omega
      · rw [hread, hlength, hplaces, toRat]

/-- So is the scientific form. -/
theorem scalesTo_scientificText (negative : Bool) (hdigits : d.digits < 2 ^ 53)
    (hexponent : d.exponent.natAbs ≤ 50) : (d.scientificText negative).ScalesTo d.toRat := by
  have hread : (d.scientificText negative).digits = d.digits := by
    rw [NumberText.digits, scientificText, List.take_append_drop, d.ofDigitChars_chars]
  have hpower : Nat.ofDigitChars 10 (Nat.toDigits 10 d.leading.natAbs) 0 = d.leading.natAbs :=
    Nat.ofDigitChars_toDigits (by decide) (by decide)
  have hlength : d.chars.length ≤ 16 :=
    (Nat.length_toDigits_le_iff (by decide) (by decide)).2 (hdigits.trans (by decide))
  have hpos := List.length_pos_of_ne_nil d.chars_ne_nil
  have hvalue := NumberText.value_of_power (t := d.scientificText negative)
    ((hread ▸ hdigits).trans (by decide)) rfl (by rw [hpower, leading]; unfold Numeral.exponentBound; omega)
  refine ⟨d.digits, d.exponent, hdigits, hexponent, rfl, ?_⟩
  rw [hvalue, hread, hpower]
  have hplaces : ((d.scientificText negative).fraction.length : ℤ) = d.chars.length - 1 := by
    rw [scientificText, List.length_drop]
    omega
  congr 2
  rw [hplaces]
  by_cases hneg : d.leading < 0
  · rw [if_pos (decide_eq_true hneg)]
    rw [leading] at hneg ⊢
    omega
  · rw [if_neg (by simpa using hneg)]
    rw [leading] at hneg ⊢
    omega

end Decimal

/-- The text has the sign that was asked for. -/
theorem NumberStyle.negative_text (s : NumberStyle) (negative : Bool) (d : Decimal) :
    (s.text negative d).negative = negative := by
  unfold text
  split
  · unfold Decimal.positionalText
    dsimp only
    split
    · rfl
    · split <;> rfl
  · rfl

/-- **A written decimal is read as itself**, scaled by a power of ten. -/
theorem NumberStyle.scalesTo_text (negative : Bool) {d : Decimal} (hdigits : d.digits < 2 ^ 53)
    (hexponent : d.exponent.natAbs ≤ 50) : (jsonSingle.text negative d).ScalesTo d.toRat := by
  rw [text]
  split
  · rename_i hpositional
    refine d.scalesTo_positionalText negative hdigits hexponent ?_
    unfold isPositional jsonSingle at hpositional
    simp only [Bool.and_eq_true, decide_eq_true_eq] at hpositional
    exact hpositional.2
  · exact d.scalesTo_scientificText negative hdigits hexponent

end FieldShader
