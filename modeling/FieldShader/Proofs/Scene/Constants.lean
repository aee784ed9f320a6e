import FieldShader.Proofs.Glsl.Literals
import FieldShader.Proofs.Scene.Readings

/-!
# Numbers of a scene in its lines

Which numbers an emission writes: `Node.mem_constants_emit` says that a number in an emitted
declaration is a number of the scene, or of the translations on the way to it, or one of three that
are always the same. These are the coordinates of the origin, the color of a leaf whose material
nobody gave, and what a blend compares with and falls back on.
-/

namespace FieldShader

/-! ## Numbers of the parts -/

@[simp] theorem Scalar.constants_toExpr (s : Scalar) : s.toExpr.constants = s.numbers := by
  cases s <;> rfl

@[simp] theorem Vector.constants_toExpr (v : Vector) : v.toExpr.constants = v.numbers := by
  cases v with
  | components x y z => simp [toExpr, Expr.constants, numbers]
  | raw source => rfl

/-- The numbers that are written whatever the scene is. -/
def Single.fixed : List Single := [.zero, .half, .one]

namespace Space

/-- Mapping a position to world space adds the numbers on the way. -/
theorem constants_apply (s : Space) (e : Expr) :
    (s.apply e).constants = e.constants ++ s.numbers := by
  obtain ⟨mappings⟩ := s
  induction mappings generalizing e with
  | nil => simp [apply, numbers]
  | cons m rest ih =>
    obtain ⟨offset⟩ := m
    have hfirst : ((Mapping.translate offset).apply e).constants =
        e.constants ++ offset.numbers := by
      simp [Mapping.apply, Expr.constants]
    exact (ih _).trans (by simp [hfirst, numbers])

/-- The origin of a space is made of zeros and the numbers on the way to world space. -/
theorem mem_constants_origin {s : Space} {x : Single} (h : x ∈ s.origin.constants) :
    x ∈ Single.fixed ∨ x ∈ s.numbers := by
  rw [origin, constants_apply, Vector.constants_toExpr, List.mem_append] at h
  refine h.imp_left fun hzero => ?_
  have hzeros : ∀ x ∈ Vector.zero.numbers, x = .zero := by decide
  rw [hzeros x hzero]
  exact List.mem_cons_self

/-- The numbers of a space inside a transform. -/
theorem numbers_push (s : Space) (offset : Vector) :
    (s.push (.translate offset)).numbers = offset.numbers ++ s.numbers := by
  rw [numbers, push, List.flatMap_cons]
  rfl

end Space

namespace Primitive

variable {space : Space} {primitive : Primitive} {x : Single}

/-- The distance of a primitive has the numbers of its origin and of its own parameter. -/
theorem mem_constants_distance (h : x ∈ (primitive.distance space).constants) :
    x ∈ Single.fixed ∨ x ∈ space.numbers ∨ x ∈ primitive.numbers := by
  have horigin := space.mem_constants_origin (x := x)
  cases primitive <;>
    simp only [distance, Expr.point, Expr.constants, Scalar.constants_toExpr,
      Vector.constants_toExpr, List.nil_append, List.mem_append] at h <;>
    exact h.elim (fun h => (horigin h).imp_right .inl) fun h => .inr (.inr h)

/-- So has its normal. -/
theorem mem_constants_surfaceNormal (h : x ∈ (primitive.surfaceNormal space).constants) :
    x ∈ Single.fixed ∨ x ∈ space.numbers ∨ x ∈ primitive.numbers := by
  cases primitive with
  | sphere radius => exact (Space.mem_constants_origin h).imp_right .inl
  | plane normal | ground normal =>
    have hnormal : x ∈ normal.toExpr.constants := h
    rw [Vector.constants_toExpr] at hnormal
    exact .inr (.inr hnormal)

end Primitive

namespace OperatorKind

/-- A step has the numbers of its smoothing, and a blend has a zero and a half. -/
theorem mem_constants_combine {kind : OperatorKind} {smoothing : Scalar} {p : Property}
    {acc next step : Nat} {x : Single}
    (h : x ∈ (kind.combine smoothing p acc next step).constants) :
    x ∈ Single.fixed ∨ x ∈ smoothing.numbers := by
  cases p with
  | sdf =>
    have hsmoothing : x ∈ smoothing.toExpr.constants := by
      cases kind <;> simpa [combine, Expr.constants] using h
    rw [Scalar.constants_toExpr] at hsmoothing
    exact .inr hsmoothing
  | normal | color =>
    refine .inl ?_
    have hx : x = .zero ∨ x = .half := by
      cases kind <;>
        simpa [combine, blend, remoteness, Expr.zero, Expr.half, Expr.constants] using h
    rcases hx with rfl | rfl <;> decide

end OperatorKind

namespace Node

variable {space : Space} {p : Property} {d : Declaration} {x : Single}

/-- The color of a leaf is the one that was given or white. -/
theorem mem_numbers_finish {finish : Finish} (h : x ∈ finish.material.color.numbers) :
    x ∈ Single.fixed ∨ x ∈ (finish.custom?.map Material.numbers).getD [] := by
  cases finish with
  | standard =>
    have hwhite : ∀ x ∈ Material.white.color.numbers, x = .one := by decide
    rw [hwhite x h]
    exact .inl (by decide)
  | custom m => exact .inr h

/-- **Emitted lines write the numbers of the scene** and no others but those that are always the
same. -/
theorem mem_constants_emit {n : Node} (hd : d ∈ (n.emit space p).declarations)
    (h : x ∈ d.value.constants) :
    x ∈ Single.fixed ∨ x ∈ space.numbers ∨ x ∈ n.describe.numbers := by
  induction n using recTree generalizing space with
  | shape id primitive finish =>
    rw [describe, Description.numbers, List.mem_append]
    cases p with
    | sdf =>
      rw [List.mem_singleton.1 hd] at h
      exact (Primitive.mem_constants_distance h).imp_right (Or.imp_right .inl)
    | normal =>
      rw [List.mem_singleton.1 hd] at h
      exact (Primitive.mem_constants_surfaceNormal h).imp_right (Or.imp_right .inl)
    | color =>
      rw [List.mem_singleton.1 hd, Vector.constants_toExpr] at h
      exact (mem_numbers_finish h).imp_right fun h => .inr (.inr h)
  | material id finish =>
    cases p with
    | sdf | normal => cases hd
    | color =>
      rw [List.mem_singleton.1 hd, Vector.constants_toExpr] at h
      exact .inr (.inr h)
  | transform mapping child ih =>
    obtain ⟨offset⟩ := mapping
    have hchild := @ih (space.push (.translate offset)) hd
    rw [Space.numbers_push, List.mem_append] at hchild
    rw [describe, Description.numbers, List.mem_append]
    tauto
  | operator id kind smoothing children ih =>
    rw [describe, Description.numbers, List.mem_append, Description.numbersAll_eq_flatMap,
      describeAll_eq_map, List.flatMap_map, List.mem_flatMap]
    rw [emit] at hd
    split at hd
    · cases hd
    · rcases Emission.mem_andThen hd with hd | hd
      · obtain ⟨c, hc, hd⟩ := mem_emitAll hd
        exact (ih c hc hd).imp_right (Or.imp_right fun h => .inr ⟨c, hc, h⟩)
      · cases children with
        | nil => cases hd
        | cons first rest =>
          rcases OperatorKind.steps_cases hd with ⟨v, hv⟩ | ⟨acc, next, step, rfl⟩
          · rw [hv] at h
            cases h
          · exact (OperatorKind.mem_constants_combine h).imp_right fun h => .inr (.inl h)

end Node

end FieldShader
