import FieldShader.Proofs.Glsl.Scope
import FieldShader.Proofs.Scene.Declared

/-!
# Emitted declarations are in scope and well typed

`Node.wellTyped_emit`: whatever a tree emits for a property has the type of that property, also
when the emission fails further on. `Node.wellScoped_emit`: every variable that an emitted line
reads was declared before it. For distances that needs nothing. A normal or a color is mixed by
distances, which it does not declare, so the distances of the whole tree have to be known; it is
not enough that some emission of them was begun, since a failed one leaves some of them out.

The induction is over the tree. At an operator the operands' own variables are among what they
declared, because they were emitted completely (`Node.result_mem_declared`), and the distances of
the steps are declared by the operator's own emission of distances, not by its operands'.
-/

namespace FieldShader

/-! ## Parameters and positions -/

namespace Scalar

/-- A scalar reads no variable. -/
@[simp] theorem reads_toExpr (s : Scalar) : s.toExpr.reads = [] := by cases s <;> rfl

/-- A scalar is a number. -/
theorem hasType_toExpr (s : Scalar) : s.toExpr.HasType .float := by
  cases s with
  | number value => exact .number value
  | raw source => exact .raw source .float

end Scalar

namespace Vector

/-- A vector reads no variable. -/
@[simp] theorem reads_toExpr (v : Vector) : v.toExpr.reads = [] := by
  cases v with
  | components x y z => simp [toExpr, Expr.reads]
  | raw source => rfl

/-- A vector is a vector, whether it is given by components or as a fragment. -/
theorem hasType_toExpr (v : Vector) : v.toExpr.HasType .vec3 := by
  cases v with
  | components x y z => exact .vec3 x.hasType_toExpr y.hasType_toExpr z.hasType_toExpr
  | raw source => exact .raw source .vec3

end Vector

namespace Space

/-- Mapping a position to world space reads no further variable. -/
@[simp] theorem reads_apply (s : Space) (e : Expr) :
    (s.apply e).reads = e.reads := by
  obtain ⟨mappings⟩ := s
  induction mappings generalizing e with
  | nil => rfl
  | cons m rest ih =>
    obtain ⟨offset⟩ := m
    exact (ih _).trans (by simp [Mapping.apply, Expr.reads])

/-- A position stays a vector in world space. -/
theorem hasType_apply (s : Space) {e : Expr} (h : e.HasType .vec3) :
    (s.apply e).HasType .vec3 := by
  obtain ⟨mappings⟩ := s
  induction mappings generalizing e with
  | nil => exact h
  | cons m rest ih =>
    obtain ⟨offset⟩ := m
    exact ih (.group (.binary h offset.hasType_toExpr))

/-- The offset of the sample point from the origin of a space reads no variable. -/
@[simp] theorem reads_origin (s : Space) : s.origin.reads = [] := by simp [origin]

/-- The offset of the sample point from the origin of a space is a vector. -/
theorem hasType_sub_origin (s : Space) :
    (Expr.binary .sub .point s.origin).HasType .vec3 :=
  .binary .point (s.hasType_apply Vector.zero.hasType_toExpr)

end Space

namespace Primitive

/-- The distance of a primitive reads no variable. -/
@[simp] theorem reads_distance (space : Space) (primitive : Primitive) :
    (primitive.distance space).reads = [] := by
  cases primitive <;> simp [distance, Expr.reads, Expr.point]

/-- The normal of a primitive reads no variable. -/
@[simp] theorem reads_surfaceNormal (space : Space) (primitive : Primitive) :
    (primitive.surfaceNormal space).reads = [] := by
  cases primitive <;> simp [surfaceNormal, Expr.reads, Expr.point]

/-- A distance is a number. -/
theorem hasType_distance (space : Space) (primitive : Primitive) :
    (primitive.distance space).HasType .float := by
  cases primitive with
  | sphere radius => exact .binary (.length space.hasType_sub_origin) radius.hasType_toExpr
  | plane normal => exact .abs (.dot space.hasType_sub_origin normal.hasType_toExpr)
  | ground normal => exact .dot space.hasType_sub_origin normal.hasType_toExpr

/-- A normal is a vector. -/
theorem hasType_surfaceNormal (space : Space) (primitive : Primitive) :
    (primitive.surfaceNormal space).HasType .vec3 := by
  cases primitive with
  | sphere radius => exact .normalize space.hasType_sub_origin
  | plane normal | ground normal => exact .normalize normal.hasType_toExpr

end Primitive

/-! ## Steps of an operator -/

namespace OperatorKind

/-- A blend has the type of what it mixes if the distances are numbers. -/
theorem hasType_blend {a b da db c : Expr} {t : GlslType} (ha : a.HasType t) (hb : b.HasType t)
    (hda : da.HasType .float) (hdb : db.HasType .float) (hc : c.HasType .float) :
    (blend a b da db c).HasType t := by
  have hnear : (remoteness da c).HasType .float := .abs (.binary hda hc)
  have htotal : (Expr.binary .add (remoteness da c) (remoteness db c)).HasType .float :=
    .binary hnear (.abs (.binary hdb hc))
  exact .mix ha hb (.group (.ifGreater htotal (.number _) (.binary hnear (.group htotal))
    (.number _)))

/-- A step has the type of its property, in every combination of operator and property. -/
theorem hasType_combine (kind : OperatorKind) (smoothing : Scalar) (p : Property)
    (acc next step : Nat) : (kind.combine smoothing p acc next step).HasType p.type := by
  have hsdf (i : Nat) : (Expr.var (.numbered .sdf i)).HasType .float := .var _
  have hvar (i : Nat) : (Expr.var (.numbered p i)).HasType p.type := .var _
  cases p with
  | sdf =>
    cases kind with
    | union => exact .smin (hvar acc) (hvar next) smoothing.hasType_toExpr
    | difference => exact .smax (hvar acc) (.neg (hvar next)) smoothing.hasType_toExpr
    | cut => exact .smax (hvar acc) (hvar next) smoothing.hasType_toExpr
  | normal =>
    cases kind with
    | difference =>
      exact hasType_blend (hvar acc) (.neg (hvar next)) (hsdf acc) (.neg (hsdf next)) (hsdf step)
    | union | cut =>
      exact hasType_blend (hvar acc) (hvar next) (hsdf acc) (hsdf next) (hsdf step)
  | color =>
    cases kind <;> exact hasType_blend (hvar acc) (hvar next) (hsdf acc) (hsdf next) (hsdf step)

/-- A step reads the property of its two operands, and for a normal or a color the distances of
the operands and of the step itself. -/
theorem reads_combine {kind : OperatorKind} {smoothing : Scalar} {p : Property}
    {acc next step : Nat} {v : Variable}
    (h : v ∈ (kind.combine smoothing p acc next step).reads) :
    v = .numbered p acc ∨ v = .numbered p next ∨
      p ≠ .sdf ∧ (v = .numbered .sdf acc ∨ v = .numbered .sdf next ∨ v = .numbered .sdf step) := by
  cases kind <;> cases p <;>
    simp only [combine, blend, remoteness, Expr.zero, Expr.half, Expr.reads,
      Scalar.reads_toExpr, List.append_nil, List.mem_append, List.mem_singleton] at h <;>
    grind

/-- Everything an operator declares after its operands has the type of the property. -/
theorem wellTyped_steps {kind : OperatorKind} {smoothing : Scalar} {p : Property}
    {id step acc : Nat} {operands : List Nat} {d : Declaration}
    (hd : d ∈ kind.steps smoothing p id step acc operands) : d.WellTyped := by
  induction operands generalizing step acc with
  | nil =>
    rw [List.mem_singleton.1 hd]
    exact .var (.numbered p acc)
  | cons next rest ih =>
    rcases List.mem_cons.1 hd with rfl | hd
    · exact kind.hasType_combine smoothing p acc next step
    · exact ih hd

/-- The steps of an operator are in scope when the operands are known, and for a normal or a color
also the distances of the operands and of all steps. -/
theorem wellScoped_steps {kind : OperatorKind} {smoothing : Scalar} {p : Property}
    {id step acc : Nat} {operands : List Nat} {known : List Variable}
    (hacc : .numbered p acc ∈ known) (hops : ∀ i ∈ operands, .numbered p i ∈ known)
    (hsdf : p ≠ .sdf → .numbered .sdf acc ∈ known ∧ (∀ i ∈ operands, .numbered .sdf i ∈ known) ∧
      ∀ i ∈ List.range' step operands.length, .numbered .sdf i ∈ known) :
    WellScoped known (kind.steps smoothing p id step acc operands) := by
  induction operands generalizing step acc known with
  | nil => exact ⟨fun v hv => by rwa [List.mem_singleton.1 hv], trivial⟩
  | cons next rest ih =>
    rw [List.length_cons, List.range'_succ] at hsdf
    refine ⟨fun v hv => ?_, ih List.mem_cons_self (fun i hi => ?_) fun hp => ?_⟩
    · rcases reads_combine hv with rfl | rfl | ⟨hp, hv⟩
      · exact hacc
      · exact hops next List.mem_cons_self
      · obtain ⟨hsacc, hsops, hsteps⟩ := hsdf hp
        rcases hv with rfl | rfl | rfl
        · exact hsacc
        · exact hsops next List.mem_cons_self
        · exact hsteps step List.mem_cons_self
    · exact List.mem_cons_of_mem _ (hops i (List.mem_cons_of_mem _ hi))
    · obtain ⟨-, hsops, hsteps⟩ := hsdf hp
      refine ⟨List.mem_cons_of_mem _ (hsteps step List.mem_cons_self), fun i hi => ?_,
        fun i hi => ?_⟩
      · exact List.mem_cons_of_mem _ (hsops i (List.mem_cons_of_mem _ hi))
      · exact List.mem_cons_of_mem _ (hsteps i (List.mem_cons_of_mem _ hi))

end OperatorKind

/-! ## Whole trees -/

namespace Emission

/-- A declaration of a sequence is one of its parts'. -/
theorem mem_andThen {first second : Emission} {d : Declaration}
    (h : d ∈ (first.andThen second).declarations) :
    d ∈ first.declarations ∨ d ∈ second.declarations := by
  obtain ⟨ds, failure⟩ := first
  cases failure with
  | some e => exact .inl h
  | none => exact List.mem_append.1 h

/-- In a sequence the second emission is in scope of the first one's variables, and counts only
if the first one succeeds. -/
theorem wellScoped_andThen {first second : Emission} {known : List Variable}
    (h₁ : WellScoped known first.declarations)
    (h₂ : first.failure = none → WellScoped (first.targets ++ known) second.declarations) :
    WellScoped known (first.andThen second).declarations := by
  obtain ⟨ds, failure⟩ := first
  cases failure with
  | some e => exact h₁
  | none => exact wellScoped_append.2 ⟨h₁, h₂ rfl⟩

end Emission

namespace Node

/-- Several trees are emitted completely when each of them is. -/
theorem failure_emitAll_eq_none {space : Space} {p : Property} {ns : List Node} :
    (emitAll space p ns).failure = none ↔ ∀ n ∈ ns, (n.emit space p).failure = none := by
  induction ns with
  | nil => simp [emitAll, Emission.ok]
  | cons n ns ih => rw [emitAll, Emission.failure_andThen_eq_none, ih, List.forall_mem_cons]

/-- An operator that is emitted completely has two operands, each of them emitted completely. -/
theorem failure_emit_operator {space : Space} {p : Property} {id : Nat} {kind : OperatorKind}
    {smoothing : Scalar} {children : List Node}
    (h : ((operator id kind smoothing children).emit space p).failure = none) :
    2 ≤ children.length ∧ ∀ c ∈ children, (c.emit space p).failure = none := by
  rw [emit] at h
  split at h
  · cases h
  · rename_i harity
    exact ⟨by omega, failure_emitAll_eq_none.1 (Emission.failure_andThen_eq_none.1 h).1⟩

/-- What several trees emit, one of them emits. -/
theorem mem_emitAll {space : Space} {p : Property} {ns : List Node} {d : Declaration}
    (hd : d ∈ (emitAll space p ns).declarations) :
    ∃ n ∈ ns, d ∈ (n.emit space p).declarations := by
  induction ns with
  | nil => cases hd
  | cons n ns ih =>
    rcases Emission.mem_andThen hd with hd | hd
    · exact ⟨n, List.mem_cons_self, hd⟩
    · obtain ⟨m, hm, hd⟩ := ih hd
      exact ⟨m, List.mem_cons_of_mem _ hm, hd⟩

/-- **What a tree emits has the type of its property**, also before a failure. -/
theorem wellTyped_emit {n : Node} {space : Space} {p : Property} {d : Declaration}
    (hd : d ∈ (n.emit space p).declarations) : d.WellTyped := by
  induction n using recTree generalizing space with
  | shape id primitive finish =>
    cases p with
    | sdf =>
      rw [List.mem_singleton.1 hd]
      exact primitive.hasType_distance space
    | normal =>
      rw [List.mem_singleton.1 hd]
      exact primitive.hasType_surfaceNormal space
    | color =>
      rw [List.mem_singleton.1 hd]
      exact finish.material.color.hasType_toExpr
  | material id finish =>
    cases p with
    | color =>
      rw [List.mem_singleton.1 hd]
      exact finish.material.color.hasType_toExpr
    | sdf => cases hd
    | normal => cases hd
  | transform mapping child ih => exact ih hd
  | operator id kind smoothing children ih =>
    rw [emit] at hd
    split at hd
    · cases hd
    · rcases Emission.mem_andThen hd with hd | hd
      · obtain ⟨c, hc, hd⟩ := mem_emitAll hd
        exact ih c hc hd
      · cases children with
        | nil => cases hd
        | cons first rest => exact OperatorKind.wellTyped_steps hd

/-- The distances of a tree, declared before, are what the other properties of it rest on. -/
def DistancesKnown (n : Node) (space : Space) (p : Property) (known : List Variable) : Prop :=
  p ≠ .sdf → (n.emit space .sdf).failure = none ∧ n.declared .sdf ⊆ known

/-- Several trees are in scope one after the other, if each of them is. -/
theorem wellScoped_emitAll {space : Space} {p : Property} {ns : List Node}
    {known : List Variable}
    (h : ∀ n ∈ ns, ∀ {known' : List Variable}, known ⊆ known' →
      WellScoped known' (n.emit space p).declarations) :
    WellScoped known (emitAll space p ns).declarations := by
  induction ns generalizing known with
  | nil => trivial
  | cons n ns ih =>
    refine Emission.wellScoped_andThen (h n List.mem_cons_self (List.Subset.refl _)) fun _ => ?_
    refine ih fun m hm known' hsub => h m (List.mem_cons_of_mem _ hm) fun v hv => ?_
    exact hsub (List.mem_append_right _ hv)

/-- **What a tree emits is in scope** once its distances are known, and distances need nothing. -/
theorem wellScoped_emit {n : Node} {space : Space} {p : Property} {known : List Variable}
    (hsdf : n.DistancesKnown space p known) : WellScoped known (n.emit space p).declarations := by
  induction n using recTree generalizing space known with
  | shape id primitive finish =>
    cases p with
    | sdf => exact ⟨by simp, trivial⟩
    | normal => exact ⟨by simp, trivial⟩
    | color => exact ⟨by simp, trivial⟩
  | material id finish =>
    cases p with
    | color => exact ⟨by simp, trivial⟩
    | sdf => trivial
    | normal => trivial
  | transform mapping child ih => exact ih hsdf
  | operator id kind smoothing children ih =>
    have hchild (hp : p ≠ .sdf) (c : Node) (hc : c ∈ children) :
        (c.emit space .sdf).failure = none ∧ c.declared .sdf ⊆ known := by
      obtain ⟨hok, hsub⟩ := hsdf hp
      exact ⟨(failure_emit_operator hok).2 c hc, fun v hv => hsub (declared_operand_subset hc hv)⟩
    rw [emit]
    split
    · trivial
    · refine Emission.wellScoped_andThen ?_ fun hok => ?_
      · refine wellScoped_emitAll fun c hc known' hsub => ih c hc fun hp => ?_
        exact ⟨(hchild hp c hc).1, fun v hv => hsub ((hchild hp c hc).2 hv)⟩
      · -- The operands are complete, so each has declared the variable the steps read.
        have hresult (c : Node) (hc : c ∈ children) :
            .numbered p c.id ∈ (emitAll space p children).targets ++ known :=
          List.mem_append_left _
            (result_mem_targets_emitAll hok (failure_emitAll_eq_none.1 hok c hc) hc)
        have hdistance (hp : p ≠ .sdf) (c : Node) (hc : c ∈ children) :
            .numbered .sdf c.id ∈ (emitAll space p children).targets ++ known :=
          List.mem_append_right _ ((hchild hp c hc).2 (result_mem_declared (hchild hp c hc).1))
        have hstep (hp : p ≠ .sdf) (i : Nat) (hi : i ∈ List.range' (id + 1) (children.length - 1)) :
            .numbered .sdf i ∈ (emitAll space p children).targets ++ known :=
          List.mem_append_right _ ((hsdf hp).2 (step_mem_declared hi))
        cases children with
        | nil => trivial
        | cons first rest =>
          refine OperatorKind.wellScoped_steps (hresult first List.mem_cons_self) (fun i hi => ?_)
            fun hp => ⟨hdistance hp first List.mem_cons_self, fun i hi => ?_, fun i hi => ?_⟩
          · obtain ⟨c, hc, rfl⟩ := List.mem_map.1 hi
            exact hresult c (List.mem_cons_of_mem _ hc)
          · obtain ⟨c, hc, rfl⟩ := List.mem_map.1 hi
            exact hdistance hp c (List.mem_cons_of_mem _ hc)
          · rw [List.length_map] at hi
            exact hstep hp i hi

end Node

end FieldShader
