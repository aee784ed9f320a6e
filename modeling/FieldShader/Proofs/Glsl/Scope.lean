import FieldShader.Glsl.Declaration

/-!
# Scope and types of generated declarations

Two checks that a shader compiler makes of straight-line declarations. `WellScoped known ds` says
that every variable read on a right-hand side is in `known` or is declared by an earlier line of
`ds`; it splits along `++` (`wellScoped_append`), which is how it follows the emission of a tree
and the directives of a document. `Expr.HasType` is the typing of expressions under the signatures
of the shading language, with raw fragments of the type they were declared with, and a declaration
is `WellTyped` when its right-hand side has the type of its variable.

Of the overloads of the language only those that the generated code uses have a rule, so
`HasType` is no weaker than the typing of the language itself.
-/

namespace FieldShader

namespace Expr

/-- The variables that an expression reads. Names inside a raw fragment are the author's and not
counted. -/
def reads : Expr → List Variable
  | .number _ | .raw _ _ | .position _ => []
  | .var v => [v]
  | .unary _ a | .neg a | .group a => a.reads
  | .dot a b | .binary _ a b => a.reads ++ b.reads
  | .vec3 a b c | .ternary _ a b c => a.reads ++ b.reads ++ c.reads
  | .ifGreater a b yes no => a.reads ++ b.reads ++ yes.reads ++ no.reads

/-- The typing of expressions. -/
inductive HasType : Expr → GlslType → Prop
  | number (value : Single) : HasType (.number value) .float
  | vec3 {x y z : Expr} (hx : HasType x .float) (hy : HasType y .float) (hz : HasType z .float) :
      HasType (.vec3 x y z) .vec3
  | raw (source : String) (t : GlslType) : HasType (.raw source t) t
  /-- The sample point is a vector. -/
  | point : HasType .point .vec3
  | var (v : Variable) : HasType (.var v) v.property.type
  | length {a : Expr} (ha : HasType a .vec3) : HasType (.unary .length a) .float
  | abs {a : Expr} {t : GlslType} (ha : HasType a t) : HasType (.unary .abs a) t
  | normalize {a : Expr} (ha : HasType a .vec3) : HasType (.unary .normalize a) .vec3
  | dot {a b : Expr} (ha : HasType a .vec3) (hb : HasType b .vec3) : HasType (.dot a b) .float
  | smin {a b k : Expr} (ha : HasType a .float) (hb : HasType b .float)
      (hk : HasType k .float) : HasType (.ternary .smin a b k) .float
  | smax {a b k : Expr} (ha : HasType a .float) (hb : HasType b .float)
      (hk : HasType k .float) : HasType (.ternary .smax a b k) .float
  | mix {a b w : Expr} {t : GlslType} (ha : HasType a t) (hb : HasType b t)
      (hw : HasType w .float) : HasType (.ternary .mix a b w) t
  | neg {a : Expr} {t : GlslType} (ha : HasType a t) : HasType (.neg a) t
  /-- Sums, differences and quotients are taken of operands of one type. -/
  | binary {op : BinaryOperator} {a b : Expr} {t : GlslType} (ha : HasType a t)
      (hb : HasType b t) : HasType (.binary op a b) t
  /-- Only numbers are compared, and both results of a choice have its type. -/
  | ifGreater {a b yes no : Expr} {t : GlslType} (ha : HasType a .float) (hb : HasType b .float)
      (hyes : HasType yes t) (hno : HasType no t) : HasType (.ifGreater a b yes no) t
  | group {a : Expr} {t : GlslType} (ha : HasType a t) : HasType (.group a) t

/-- An expression has at most one type, the one its outermost symbol announces. -/
theorem HasType.type_eq {e : Expr} {t : GlslType} (h : e.HasType t) : e.type = t := by
  induction h with
  | number | vec3 | raw | point | var | length | dot => rfl
  | normalize _ ih | abs _ ih | neg _ ih | group _ ih => exact ih
  | smin _ _ _ ih | smax _ _ _ ih | mix _ _ _ ih => exact ih
  | binary _ _ ih => exact ih
  | ifGreater _ _ _ _ _ _ ih => exact ih

end Expr

namespace Declaration

/-- The right-hand side has the type that the line declares. -/
def WellTyped (d : Declaration) : Prop := d.value.HasType d.target.property.type

/-- A public variable has the type of the numbered one it is bound to. -/
theorem wellTyped_publish (p : Property) (id : Nat) : (publish p id).WellTyped :=
  .var (.numbered p id)

end Declaration

/-! ## Scope -/

/-- Every variable that a line reads is known before the lines or declared by an earlier one. -/
def WellScoped : List Variable → List Declaration → Prop
  | _, [] => True
  | known, d :: ds => d.value.reads ⊆ known ∧ WellScoped (d.target :: known) ds

/-- More may be known. -/
theorem WellScoped.mono {known known' : List Variable} {ds : List Declaration}
    (h : WellScoped known ds) (hsub : known ⊆ known') : WellScoped known' ds := by
  induction ds generalizing known known' with
  | nil => trivial
  | cons d ds ih =>
    refine ⟨fun v hv => hsub (h.1 hv), ih h.2 fun v hv => ?_⟩
    rcases List.mem_cons.1 hv with rfl | hv
    · exact List.mem_cons_self
    · exact List.mem_cons_of_mem _ (hsub hv)

/-- In a sequence the second part also knows what the first part declares. -/
theorem wellScoped_append {known : List Variable} {ds es : List Declaration} :
    WellScoped known (ds ++ es) ↔
      WellScoped known ds ∧ WellScoped (ds.map Declaration.target ++ known) es := by
  induction ds generalizing known with
  | nil => simp [WellScoped]
  | cons d ds ih =>
    rw [List.cons_append, WellScoped, WellScoped, ih, and_assoc]
    refine and_congr_right fun _ => and_congr_right fun _ => ⟨fun h => ?_, fun h => ?_⟩
    · exact h.mono List.perm_middle.subset
    · exact h.mono List.perm_middle.symm.subset

/-- An alias reads the numbered variable that it publishes. -/
theorem wellScoped_publish {known : List Variable} {p : Property} {id : Nat}
    (h : .numbered p id ∈ known) : WellScoped known [.publish p id] :=
  ⟨fun _ hv => by rwa [List.mem_singleton.1 hv], trivial⟩

end FieldShader
