import FieldShader.Proofs.Glsl.Sources
import FieldShader.Proofs.Scene.Scoping

/-!
# Raw fragments of a scene

`Node.fragments` are the texts of a scene that are raw source: of the parameters of its primitives,
of the offsets of its transforms, of the smoothings of its operators and of its colors.
`Node.mem_sources_emit` says that an emission writes no other text as it was given, but for the name
of the sample point. So what is known of the fragments of a scene is known of every generated line.
-/

namespace FieldShader

/-! ## Fragments of the parts -/

/-- The raw source of a scalar. -/
def Scalar.fragments : Scalar → List String
  | .number _ => []
  | .raw source => [source]

/-- The raw source of a vector, or of its components. -/
def Vector.fragments : Vector → List String
  | .components x y z => x.fragments ++ y.fragments ++ z.fragments
  | .raw source => [source]

/-- The raw source of the parameter of a primitive. -/
def Primitive.fragments : Primitive → List String
  | .sphere radius => radius.fragments
  | .plane normal | .ground normal => normal.fragments

/-- The raw source of the parameter of a mapping. -/
def Mapping.fragments : Mapping → List String
  | .translate offset => offset.fragments

/-- The raw source of a color. -/
def Material.fragments (m : Material) : List String := m.color.fragments

/-- The raw source on the way from a space out to world space. -/
def Space.fragments (s : Space) : List String := s.mappings.flatMap Mapping.fragments

namespace Node

mutual

/-- The raw source in the tree. -/
def fragments : Node → List String
  | .shape _ primitive finish => primitive.fragments ++ finish.material.fragments
  | .material _ finish => finish.material.fragments
  | .transform mapping child => mapping.fragments ++ child.fragments
  | .operator _ _ smoothing children => smoothing.fragments ++ fragmentsAll children

/-- The raw source in several trees. -/
def fragmentsAll : List Node → List String
  | [] => []
  | n :: ns => n.fragments ++ fragmentsAll ns

end

/-- The raw source of several trees, in the natural form. -/
theorem fragmentsAll_eq_flatMap (ns : List Node) : fragmentsAll ns = ns.flatMap fragments := by
  induction ns with
  | nil => rfl
  | cons n ns ih => rw [fragmentsAll, List.flatMap_cons, ih]

end Node

/-! ## Sources of emitted expressions -/

@[simp] theorem Scalar.sources_toExpr (s : Scalar) : s.toExpr.sources = s.fragments := by
  cases s <;> rfl

@[simp] theorem Vector.sources_toExpr (v : Vector) : v.toExpr.sources = v.fragments := by
  cases v with
  | components x y z => simp [toExpr, Expr.sources, fragments]
  | raw source => rfl

namespace Space

/-- Mapping a position to world space adds the fragments on the way. -/
theorem sources_apply (s : Space) (e : Expr) : (s.apply e).sources = e.sources ++ s.fragments := by
  obtain ⟨mappings⟩ := s
  induction mappings generalizing e with
  | nil => simp [apply, fragments]
  | cons m rest ih =>
    obtain ⟨offset⟩ := m
    have hfirst : ((Mapping.translate offset).apply e).sources = e.sources ++ offset.fragments := by
      simp [Mapping.apply, Expr.sources]
    exact (ih _).trans (by simp [hfirst, fragments, Mapping.fragments])

/-- The origin of a space is made of the fragments on the way to world space. -/
theorem sources_origin (s : Space) : s.origin.sources = s.fragments := by
  have hzero : Vector.zero.fragments = [] := rfl
  rw [origin, sources_apply, Vector.sources_toExpr, hzero, List.nil_append]

/-- The fragments of a space inside a transform. -/
theorem fragments_push (s : Space) (m : Mapping) :
    (s.push m).fragments = m.fragments ++ s.fragments := by
  rw [fragments, push, List.flatMap_cons]
  rfl

end Space

namespace Primitive

/-- The distance of a primitive is made of the sample point, the way to world space and its own
parameter. -/
theorem sources_distance_subset (primitive : Primitive) (space : Space) :
    (primitive.distance space).sources ⊆ "point" :: (space.fragments ++ primitive.fragments) := by
  cases primitive <;> simp [distance, fragments, Expr.sources, Expr.point, Space.sources_origin]

/-- Its normal is made of no more than its distance. -/
theorem sources_surfaceNormal_subset (primitive : Primitive) (space : Space) :
    (primitive.surfaceNormal space).sources ⊆
      "point" :: (space.fragments ++ primitive.fragments) := by
  cases primitive <;>
    simp [surfaceNormal, fragments, Expr.sources, Expr.point, Space.sources_origin]

end Primitive

namespace OperatorKind

/-- A step writes no fragment but those of the smoothing. -/
theorem sources_combine_subset (kind : OperatorKind) (smoothing : Scalar) (p : Property)
    (acc next step : Nat) :
    (kind.combine smoothing p acc next step).sources ⊆ smoothing.fragments := by
  cases kind <;> cases p <;>
    simp [combine, blend, remoteness, Expr.zero, Expr.half, Expr.sources]

/-- Nor does anything else that an operator declares after its operands. -/
theorem mem_sources_steps {kind : OperatorKind} {smoothing : Scalar} {p : Property}
    {id step acc : Nat} {operands : List Nat} {d : Declaration} {source : String}
    (hd : d ∈ kind.steps smoothing p id step acc operands) (h : source ∈ d.value.sources) :
    source ∈ smoothing.fragments := by
  induction operands generalizing step acc with
  | nil =>
    rw [List.mem_singleton.1 hd] at h
    cases h
  | cons next rest ih =>
    rcases List.mem_cons.1 hd with rfl | hd
    · exact sources_combine_subset kind smoothing p acc next step h
    · exact ih hd

end OperatorKind

namespace Node

variable {space : Space} {p : Property} {d : Declaration} {source : String}

/-- **Emitted lines write the fragments of the scene** and no other text as it was given, but for
the name of the sample point. -/
theorem mem_sources_emit {n : Node} (hd : d ∈ (n.emit space p).declarations)
    (h : source ∈ d.value.sources) :
    source = "point" ∨ source ∈ space.fragments ∨ source ∈ n.fragments := by
  induction n using recTree generalizing space with
  | shape id primitive finish =>
    rw [fragments, List.mem_append]
    cases p with
    | sdf =>
      rw [List.mem_singleton.1 hd] at h
      have hsource := primitive.sources_distance_subset space h
      rw [List.mem_cons, List.mem_append] at hsource
      tauto
    | normal =>
      rw [List.mem_singleton.1 hd] at h
      have hsource := primitive.sources_surfaceNormal_subset space h
      rw [List.mem_cons, List.mem_append] at hsource
      tauto
    | color =>
      rw [List.mem_singleton.1 hd, Vector.sources_toExpr] at h
      exact .inr (.inr (.inr h))
  | material id finish =>
    rw [fragments]
    cases p with
    | color =>
      rw [List.mem_singleton.1 hd, Vector.sources_toExpr] at h
      exact .inr (.inr h)
    | sdf => cases hd
    | normal => cases hd
  | transform mapping child ih =>
    have hchild := @ih (space.push mapping) hd
    rw [Space.fragments_push, List.mem_append] at hchild
    rw [fragments, List.mem_append]
    tauto
  | operator id kind smoothing children ih =>
    rw [fragments, List.mem_append, fragmentsAll_eq_flatMap, List.mem_flatMap]
    rw [emit] at hd
    split at hd
    · cases hd
    · rcases Emission.mem_andThen hd with hd | hd
      · obtain ⟨c, hc, hd⟩ := mem_emitAll hd
        rcases ih c hc hd with h | h | h
        · exact .inl h
        · exact .inr (.inl h)
        · exact .inr (.inr (.inr ⟨c, hc, h⟩))
      · cases children with
        | nil => cases hd
        | cons first rest => exact .inr (.inr (.inl (OperatorKind.mem_sources_steps hd h)))

/-- If the fragments of a scene are on one line each, so is every emitted line. -/
theorem newline_notMem_render_emit {n : Node} (hn : ∀ s ∈ n.fragments, '\n' ∉ s.toList)
    (hd : d ∈ (n.emit .world p).declarations) : '\n' ∉ d.render.toList := by
  refine Declaration.newline_notMem_render fun source h => ?_
  rcases mem_sources_emit hd h with rfl | h | h
  · decide
  · cases h
  · exact hn source h

end Node

end FieldShader
