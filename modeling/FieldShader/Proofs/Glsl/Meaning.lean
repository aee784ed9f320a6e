import FieldShader.Proofs.Glsl.Names
import FieldShader.Proofs.Glsl.Scope

/-!
# The meaning of generated declarations

What straight-line declarations compute, for any reading of the shading language. An
`Interpretation` gives every operation a function and every literal, raw fragment and position a
value, of one arbitrary type; nothing is assumed of them. `execute` runs declarations over a
`Store`, which knows variables by their names as a shader does, and gets stuck on a name that is
not bound.

A proof that knows in advance what every variable will hold does not want to follow the store. It
gives a valuation of all variables and shows that each declaration `Holds`: its right-hand side has
the value that the valuation gives to its left. `exists_execute` is the step from there to running:
declarations that are in scope and all hold run to the end, and every variable they declare is
bound to the value foreseen.
-/

namespace FieldShader

universe u

variable {V : Type u}

/-- A reading of the shading language: what its operations compute on values. -/
structure Interpretation (V : Type u) where
  /-- The value of a literal. -/
  literal : Single → V
  /-- The value of a fragment of source text of the given type. -/
  fragment : String → GlslType → V
  /-- The value of a position that the shader names. -/
  position : String → V
  /-- The vector with the given components. -/
  vector : V → V → V → V
  length : V → V
  abs : V → V
  normalize : V → V
  dot : V → V → V
  smin : V → V → V → V
  smax : V → V → V → V
  mix : V → V → V → V
  neg : V → V
  add : V → V → V
  sub : V → V → V
  div : V → V → V
  /-- The outcome of a comparison. -/
  greater : V → V → V
  /-- The choice between two values by the outcome of a comparison. -/
  choose : V → V → V → V

namespace Interpretation

variable (I : Interpretation V)

/-- The meaning of a function of one argument. -/
def unary : UnaryFunction → V → V
  | .length => I.length
  | .abs => I.abs
  | .normalize => I.normalize

/-- The meaning of a function of three arguments. -/
def ternary : TernaryFunction → V → V → V → V
  | .smin => I.smin
  | .smax => I.smax
  | .mix => I.mix

/-- The meaning of an operator between two operands. -/
def binary : BinaryOperator → V → V → V
  | .add => I.add
  | .sub => I.sub
  | .div => I.div

end Interpretation

/-- The values of the bound names. -/
abbrev Store (V : Type u) := String → Option V

/-- Binds a name, in place of an earlier value. -/
def Store.bind (σ : Store V) (name : String) (value : V) : Store V :=
  fun other => if other = name then some value else σ other

namespace Expr

/-- The value of an expression when every variable has one. -/
def value (I : Interpretation V) (ν : Variable → V) : Expr → V
  | .number x => I.literal x
  | .vec3 x y z => I.vector (x.value I ν) (y.value I ν) (z.value I ν)
  | .raw source t => I.fragment source t
  | .position name => I.position name
  | .var v => ν v
  | .unary f a => I.unary f (a.value I ν)
  | .dot a b => I.dot (a.value I ν) (b.value I ν)
  | .ternary f a b c => I.ternary f (a.value I ν) (b.value I ν) (c.value I ν)
  | .neg a => I.neg (a.value I ν)
  | .binary op a b => I.binary op (a.value I ν) (b.value I ν)
  | .ifGreater a b yes no =>
    I.choose (I.greater (a.value I ν) (b.value I ν)) (yes.value I ν) (no.value I ν)
  | .group a => a.value I ν

/-- The value of an expression in a store. There is none when a variable is not bound. -/
def eval (I : Interpretation V) (σ : Store V) : Expr → Option V
  | .number x => some (I.literal x)
  | .vec3 x y z => do return I.vector (← x.eval I σ) (← y.eval I σ) (← z.eval I σ)
  | .raw source t => some (I.fragment source t)
  | .position name => some (I.position name)
  | .var v => σ v.name
  | .unary f a => do return I.unary f (← a.eval I σ)
  | .dot a b => do return I.dot (← a.eval I σ) (← b.eval I σ)
  | .ternary f a b c => do return I.ternary f (← a.eval I σ) (← b.eval I σ) (← c.eval I σ)
  | .neg a => do return I.neg (← a.eval I σ)
  | .binary op a b => do return I.binary op (← a.eval I σ) (← b.eval I σ)
  | .ifGreater a b yes no => do
    return I.choose (I.greater (← a.eval I σ) (← b.eval I σ)) (← yes.eval I σ) (← no.eval I σ)
  | .group a => a.eval I σ

/-- In a store that binds what an expression reads, it has the value foreseen. -/
theorem eval_eq_some {I : Interpretation V} {ν : Variable → V} {σ : Store V} {e : Expr}
    (h : ∀ v ∈ e.reads, σ v.name = some (ν v)) : e.eval I σ = some (e.value I ν) := by
  induction e with
  | number | raw | position => rfl
  | var v => exact h v (List.mem_singleton_self v)
  | unary f a iha | neg a iha => rw [eval, iha h]; rfl
  | group a iha => exact iha h
  | dot a b iha ihb | binary op a b iha ihb =>
    have ha := iha fun v hv => h v (List.mem_append_left _ hv)
    have hb := ihb fun v hv => h v (List.mem_append_right _ hv)
    rw [eval, ha, hb]
    rfl
  | vec3 a b c iha ihb ihc | ternary f a b c iha ihb ihc =>
    simp only [reads, List.mem_append] at h
    have ha := iha fun v hv => h v (.inl (.inl hv))
    have hb := ihb fun v hv => h v (.inl (.inr hv))
    have hc := ihc fun v hv => h v (.inr hv)
    rw [eval, ha, hb, hc]
    rfl
  | ifGreater a b yes no iha ihb ihyes ihno =>
    simp only [reads, List.mem_append] at h
    have ha := iha fun v hv => h v (.inl (.inl (.inl hv)))
    have hb := ihb fun v hv => h v (.inl (.inl (.inr hv)))
    have hyes := ihyes fun v hv => h v (.inl (.inr hv))
    have hno := ihno fun v hv => h v (.inr hv)
    rw [eval, ha, hb, hyes, hno]
    rfl

end Expr

/-! ## Running declarations -/

/-- Runs declarations in order. -/
def execute (I : Interpretation V) : Store V → List Declaration → Option (Store V)
  | σ, [] => some σ
  | σ, d :: ds => do execute I (σ.bind d.target.name (← d.value.eval I σ)) ds

/-- The right-hand side has the value that is foreseen for the left. -/
def Declaration.Holds (I : Interpretation V) (ν : Variable → V) (d : Declaration) : Prop :=
  d.value.value I ν = ν d.target

/-- A store that binds known variables to the values foreseen goes on to do so when one more is
bound. This is where distinct variables need distinct names. -/
theorem Store.bind_eq_some {ν : Variable → V} {σ : Store V} {known : List Variable}
    (hσ : ∀ v ∈ known, σ v.name = some (ν v)) (w : Variable) :
    ∀ v ∈ w :: known, σ.bind w.name (ν w) v.name = some (ν v) := by
  intro v hv
  unfold Store.bind
  split
  · rename_i hname
    rw [Variable.name_injective hname]
  · rename_i hname
    rcases List.mem_cons.1 hv with rfl | hv
    · exact absurd rfl hname
    · exact hσ v hv

/-- **Declarations that are in scope and hold run to the end**, and bind every variable they declare
to the value foreseen. -/
theorem exists_execute {I : Interpretation V} {ν : Variable → V} {σ : Store V}
    {known : List Variable} {ds : List Declaration} (hscope : WellScoped known ds)
    (hholds : ∀ d ∈ ds, d.Holds I ν) (hσ : ∀ v ∈ known, σ v.name = some (ν v)) :
    ∃ σ', execute I σ ds = some σ' ∧
      ∀ v ∈ ds.map Declaration.target ++ known, σ' v.name = some (ν v) := by
  induction ds generalizing σ known with
  | nil => exact ⟨σ, rfl, hσ⟩
  | cons d ds ih =>
    obtain ⟨hvars, hrest⟩ := hscope
    have hd : d.value.eval I σ = some (ν d.target) := by
      rw [Expr.eval_eq_some fun v hv => hσ v (hvars hv), hholds d List.mem_cons_self]
    obtain ⟨σ', hrun, hσ'⟩ := ih hrest (fun y hy => hholds y (List.mem_cons_of_mem _ hy))
      (Store.bind_eq_some hσ d.target)
    refine ⟨σ', ?_, fun v hv => hσ' v ?_⟩
    · rw [execute, hd]
      exact hrun
    · exact List.perm_middle.symm.subset hv

end FieldShader
