import FieldShader.Number.Single
import FieldShader.Proofs.Number.Rounding

/-!
# Bit patterns and magnitudes

The finite patterns of single precision and the signed magnitudes of the format stand for one another:
`Single.ofMagnitude?_of_value` in one direction, `Single.value_ofMagnitude?` in the other. Rounding
answers with a magnitude of the format, so no ratio is rounded to not-a-number
(`Single.value_ofRatio`).
-/

namespace FieldShader

namespace Single

/-- What a finite pattern stands for is a magnitude of the format. -/
theorem canonical_of_value {x : Single} {negative : Bool} {m : Magnitude}
    (h : x.value = .finite negative m) : BinaryFormat.single.Canonical m := by
  unfold value at h
  dsimp only at h
  have hexponent := Nat.mod_lt (x.bits.toNat / leadingBit) (by decide : 0 < 256)
  have hfraction := Nat.mod_lt x.bits.toNat (by decide : 0 < leadingBit)
  split at h
  · split at h <;> cases h
  · split at h
    · cases h
      exact ⟨hfraction.trans (by decide), le_rfl, (by decide : (-149 : ℤ) ≤ 104), .inl rfl⟩
    · cases h
      unfold leadingBit at *
      refine ⟨?_, ?_, ?_, .inr ?_⟩ <;> simp only [BinaryFormat.single] <;> omega

/-- A finite pattern is that of its magnitude and sign. -/
theorem ofMagnitude?_of_value {x : Single} {negative : Bool} {m : Magnitude}
    (h : x.value = .finite negative m) : ofMagnitude? negative (some m) = x := by
  have hbits := x.bits.isLt
  have hsign : (if x.negative then signBit else 0) = x.bits.toNat / signBit * signBit := by
    unfold Single.negative signBit
    split
    · rename_i hneg
      rw [decide_eq_true_eq] at hneg
      omega
    · rename_i hneg
      rw [decide_eq_true_eq] at hneg
      omega
  have hpattern : (if negative then signBit else 0) +
      ((m.exponent + 149).toNat * leadingBit + m.significand) = x.bits.toNat := by
    unfold value at h
    dsimp only at h
    split at h
    · split at h <;> cases h
    · split at h
      · cases h
        have hleast : ((-149 : ℤ) + 149).toNat = 0 := rfl
        rw [hsign, hleast]
        unfold leadingBit signBit at *
        dsimp only
        omega
      · cases h
        rw [hsign]
        unfold leadingBit signBit at *
        dsimp only
        omega
  rw [ofMagnitude?, hpattern, ofBits, BitVec.ofNat_toNat, BitVec.setWidth_eq]

/-- The fields of a pattern are the sign, the exponent and the fraction that it is the sum of. -/
theorem fields_eq {x : Single} {negative : Bool} {exponent fraction : Nat}
    (hexponent : exponent < 256) (hfraction : fraction < leadingBit)
    (h : x.bits.toNat =
      (if negative then signBit else 0) + (exponent * leadingBit + fraction)) :
    x.negative = negative ∧ x.bits.toNat / leadingBit % 256 = exponent ∧
      x.bits.toNat % leadingBit = fraction := by
  rw [Single.negative, h]
  unfold signBit leadingBit at *
  cases negative
  · simp only [Bool.false_eq_true, if_false, decide_eq_false_iff_not]
    omega
  · simp only [if_true, decide_eq_true_eq]
    omega

/-- The sum that makes up a pattern has no carry out of it. -/
theorem toNat_ofMagnitude? (negative : Bool) {significand n : Nat} (hbits : significand < 2 ^ 24)
    (hn : n ≤ 253) :
    (ofMagnitude? negative (some ⟨significand, n - 149⟩)).bits.toNat =
      (if negative then signBit else 0) + (n * leadingBit + significand) := by
  have hexponent : ((n : ℤ) - 149 + 149).toNat = n := by omega
  have hsign : (if negative then signBit else 0) ≤ signBit := by split <;> decide
  rw [ofMagnitude?, hexponent, ofBits, BitVec.toNat_ofNat]
  refine Nat.mod_eq_of_lt ?_
  dsimp only
  unfold signBit leadingBit at *
  omega

/-- **A magnitude of the format is what its pattern stands for.** -/
theorem value_ofMagnitude? (negative : Bool) {m : Magnitude}
    (hm : BinaryFormat.single.Canonical m) :
    (ofMagnitude? negative (some m)).value = .finite negative m := by
  obtain ⟨significand, exponent⟩ := m
  obtain ⟨hbits, hleast, hgreatest, hfull⟩ := hm
  simp only [BinaryFormat.single] at hbits hleast hgreatest hfull
  obtain ⟨n, rfl⟩ : ∃ n : Nat, exponent = n - 149 := ⟨(exponent + 149).toNat, by omega⟩
  have hpattern := toNat_ofMagnitude? negative hbits (n := n) (by omega)
  rw [value]
  by_cases hsmall : significand < leadingBit
  · -- Below full precision the exponent is the least one.
    have hzero : n = 0 := by
      unfold leadingBit at hsmall
      omega
    subst hzero
    obtain ⟨hnegative, hexponent, hfraction⟩ := fields_eq (by decide) hsmall hpattern
    rw [hnegative, hexponent, hfraction]
    rfl
  · -- The leading bit of the significand carries into the exponent.
    have hcarry : n * leadingBit + significand =
        (n + 1) * leadingBit + (significand - leadingBit) := by
      unfold leadingBit at *
      omega
    rw [hcarry] at hpattern
    obtain ⟨hnegative, hexponent, hfraction⟩ := fields_eq (by omega)
      (by unfold leadingBit; omega) hpattern
    rw [hnegative, hexponent, hfraction]
    rw [if_neg (by omega), if_neg (by omega), Nat.add_sub_cancel' (by omega)]
    congr 2
    omega

/-- The infinities are what the greatest exponent without a fraction stands for. -/
theorem value_ofMagnitude?_none (negative : Bool) :
    (ofMagnitude? negative none).value = .infinite negative := by
  cases negative <;> rfl

/-- **A ratio is rounded to a magnitude of the format or an infinity.** -/
theorem value_ofRatio (negative : Bool) (num : Nat) {den : Nat} (hden : 0 < den) :
    (ofRatio negative num den).value =
      match BinaryFormat.single.round num den with
      | some m => .finite negative m
      | none => .infinite negative := by
  unfold ofRatio
  cases h : BinaryFormat.single.round num den with
  | none => exact value_ofMagnitude?_none negative
  | some m =>
    have hm := BinaryFormat.canonical_of_round (by decide) (by decide) hden h
    exact value_ofMagnitude? negative hm

end Single

end FieldShader
