import FieldShader.Proofs.Number.Notation

/-!
# The shortest decimal lies in its interval

`BinaryFormat.shortest` tries one grid after the other and takes the nearest multiple in the
interval of the magnitude. That there is one on some grid is not needed here: were there none, the
magnitude would be written as it is.
-/

namespace FieldShader

namespace RoundingInterval

variable {i : RoundingInterval} {tie : Tie} {k : Int} {d : Decimal}

/-- The nearest multiple on a grid is in the interval, and one of the two neighbours of the value. The
other one is not in the interval, or not nearer. -/
theorem nearest_eq_some (h : i.nearest tie k = some d) :
    i.contains d = true ∧
      (d = ⟨i.below k, k⟩ ∧ (i.contains ⟨i.below k + 1, k⟩ = false ∨ i.side k ≠ .gt) ∨
        d = ⟨i.below k + 1, k⟩ ∧ (i.contains ⟨i.below k, k⟩ = false ∨ i.side k ≠ .lt)) := by
  unfold nearest at h
  dsimp only at h
  split at h
  · cases h
  · rename_i hlower hupper
    cases h
    exact ⟨hlower, .inl ⟨rfl, .inl hupper⟩⟩
  · rename_i hlower hupper
    cases h
    exact ⟨hupper, .inr ⟨rfl, .inl hlower⟩⟩
  · rename_i hlower hupper
    cases hside : i.side k with
    | lt =>
      simp only [hside] at h
      cases h
      exact ⟨hlower, .inl ⟨rfl, .inr nofun⟩⟩
    | gt =>
      simp only [hside] at h
      cases h
      exact ⟨hupper, .inr ⟨rfl, .inr nofun⟩⟩
    | eq =>
      have hd : d = ⟨i.below k, k⟩ ∨ d = ⟨i.below k + 1, k⟩ := by
        cases tie with
        | up =>
          simp only [hside] at h
          exact .inr (Option.some.inj h).symm
        | even =>
          simp only [hside] at h
          split at h
          · exact .inl (Option.some.inj h).symm
          · exact .inr (Option.some.inj h).symm
      rcases hd with rfl | rfl
      · exact ⟨hlower, .inl ⟨rfl, .inr nofun⟩⟩
      · exact ⟨hupper, .inr ⟨rfl, .inr nofun⟩⟩

/-- Where the lower neighbour is in the interval, a multiple is found. -/
theorem nearest_ne_none (h : i.contains ⟨i.below k, k⟩ = true) : i.nearest tie k ≠ none := by
  unfold nearest
  dsimp only
  rw [h]
  split
  · rename_i hfalse _
    cases hfalse
  · nofun
  · nofun
  · split <;> nofun

/-- An interval of positive numbers does not hold zero. -/
theorem digits_ne_zero_of_contains (hlow : 0 < i.low) (h : i.contains d = true) :
    d.digits ≠ 0 := by
  intro hd
  have hpos : 0 < i.low * Nat.pow 10 (-d.exponent).toNat :=
    Nat.mul_pos hlow (Nat.pow_pos (by decide))
  unfold contains at h
  simp only [hd, Nat.zero_mul] at h
  split at h <;> simp only [Bool.and_eq_true, decide_eq_true_eq] at h <;> omega

end RoundingInterval

namespace BinaryFormat

/-- Only positive numbers round to a positive magnitude. -/
theorem low_interval_pos (f : BinaryFormat) {x : Magnitude} (h : x.significand ≠ 0) :
    0 < (f.interval x).low := by
  refine Nat.mul_pos ?_ (Nat.two_pow_pos _)
  split <;> omega

/-- The shortest decimal of a positive magnitude is no zero. -/
theorem digits_shortest_ne_zero (f : BinaryFormat) (tie : Tie) {x : Magnitude}
    (h : x.significand ≠ 0) : (f.shortest tie x).digits ≠ 0 := by
  rw [shortest, if_neg h]
  cases hfind : f.grids.findSome? ((f.interval x).nearest tie) with
  | none => exact h
  | some d =>
    obtain ⟨k, -, hk⟩ := List.exists_of_findSome?_eq_some hfind
    exact RoundingInterval.digits_ne_zero_of_contains (f.low_interval_pos h)
      (RoundingInterval.nearest_eq_some hk).1

/-- The shortest decimal is plain. -/
theorem plain_shortest (f : BinaryFormat) (tie : Tie) (x : Magnitude) :
    (f.shortest tie x).Plain := by
  by_cases h : x.significand = 0
  · rw [shortest, if_pos h]
    exact fun _ => Int.le_refl 0
  · exact fun hd => absurd hd (f.digits_shortest_ne_zero tie h)

end BinaryFormat

end FieldShader
