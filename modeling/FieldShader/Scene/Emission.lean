import FieldShader.Scene.Space

/-!
# Emission of declarations

Compiling a tree for a property emits one declaration per variable of the tree, operands first, and
ends with the declaration of the tree's own variable. `Node.emit` answers with an `Emission`: the
declarations, and the failure that cut them short if there is one. A failure keeps what was emitted
before it, and nothing is emitted after it (`andThen_assoc`, `failure_andThen`).

An operator combines its operands from left to right. Step `i` binds the variable number `id + i`
to the combination of the previous result with the next operand, and the operator's variable is
bound to the last step. Distances are combined by smooth minimum and maximum. A normal or a color
is mixed by how far the distance of either operand is from the combined distance of the same step,
so it refers to distances that another emission declares.
-/

namespace FieldShader

/-- Why a property of a tree, or a directive, has no declarations. -/
inductive CompileError where
  /-- A material leaf was asked for something other than its color. -/
  | unsupportedProperty (property : Property)
  /-- A directive names no property. -/
  | unknownProperty (tag : String)
  /-- An operator has fewer than two operands. -/
  | tooFewOperands (kind : OperatorKind) (count : Nat)
deriving DecidableEq

namespace CompileError

/-- The error as a message. -/
def message : CompileError → String
  | .unsupportedProperty p => "material does not support property '" ++ p.tag ++ "'"
  | .unknownProperty tag => "unknown property '" ++ tag ++ "'"
  | .tooFewOperands kind count =>
    kind.name ++ " needs at least two operands, got " ++ toString count

end CompileError

/-- Declarations, and the failure that ended them. -/
structure Emission where
  /-- What was emitted, in order. -/
  declarations : List Declaration
  /-- What went wrong after that. -/
  failure : Option CompileError
deriving DecidableEq

namespace Emission

/-- A complete emission. -/
def ok (declarations : List Declaration) : Emission := ⟨declarations, none⟩

/-- An emission that fails at once. -/
def fail (e : CompileError) : Emission := ⟨[], some e⟩

/-- One emission after another, which is left out if the first one failed. -/
def andThen (first second : Emission) : Emission :=
  match first.failure with
  | some _ => first
  | none => ⟨first.declarations ++ second.declarations, second.failure⟩

@[simp] theorem fail_andThen (e : CompileError) (second : Emission) :
    (fail e).andThen second = fail e := rfl

@[simp] theorem ok_andThen (declarations : List Declaration) (second : Emission) :
    (ok declarations).andThen second = ⟨declarations ++ second.declarations, second.failure⟩ := rfl

@[simp] theorem andThen_ok_nil (first : Emission) : first.andThen (ok []) = first := by
  obtain ⟨declarations, failure⟩ := first
  cases failure <;> simp [andThen, ok]

/-- A sequence of emissions is cut short at the first failure, however it is grouped. -/
theorem andThen_assoc (first second third : Emission) :
    (first.andThen second).andThen third = first.andThen (second.andThen third) := by
  obtain ⟨declarations, failure⟩ := first
  obtain ⟨declarations', failure'⟩ := second
  cases failure <;> cases failure' <;> simp [andThen]

/-- The failure of a sequence is the first one. -/
theorem failure_andThen (first second : Emission) :
    (first.andThen second).failure = first.failure.or second.failure := by
  obtain ⟨declarations, failure⟩ := first
  cases failure <;> simp [andThen]

end Emission

namespace Material

/-- The color of the material under an identifier; a material has no other property. -/
def emit (m : Material) (id : Nat) (p : Property) : Emission :=
  match p with
  | .color => .ok [⟨.numbered .color id, m.color.toExpr⟩]
  | .sdf | .normal => .fail (.unsupportedProperty p)

end Material

namespace Primitive

/-- The signed distance of a primitive in a space. -/
def distance (space : Space) : Primitive → Expr
  | .sphere radius =>
    .binary .sub (.unary .length (.binary .sub .point space.origin)) radius.toExpr
  | .plane normal => .unary .abs (.dot (.binary .sub .point space.origin) normal.toExpr)
  | .ground normal => .dot (.binary .sub .point space.origin) normal.toExpr

/-- The surface normal of a primitive in a space. Moving a plane does not turn it. -/
def surfaceNormal (space : Space) : Primitive → Expr
  | .sphere _ => .unary .normalize (.binary .sub .point space.origin)
  | .plane normal | .ground normal => .unary .normalize normal.toExpr

end Primitive

namespace OperatorKind

/-- The distance between an operand's distance and the combined one. -/
def remoteness (operand combined : Expr) : Expr := .unary .abs (.binary .sub operand combined)

/-- Mixes two values by the weight `near / (near + far)`, where `near` and `far` are the
remotenesses of the first and the second operand: the operand closer to the combined distance
dominates. When both are zero the weight is one half. -/
def blend (first second firstDistance secondDistance combined : Expr) : Expr :=
  let near := remoteness firstDistance combined
  let total := Expr.binary .add near (remoteness secondDistance combined)
  .ternary .mix first second
    (.group (.ifGreater total .zero (.binary .div near (.group total)) .half))

/-- The value of one step: the result number `acc` so far combined with the operand number `next`
into number `step`. The subtracted volume of a difference is inside out, so its distance and its
normal are negated; a color has no direction. -/
def combine (kind : OperatorKind) (smoothing : Scalar) (p : Property) (acc next step : Nat) :
    Expr :=
  let value (id : Nat) := Expr.var (.numbered p id)
  let distance (id : Nat) := Expr.var (.numbered .sdf id)
  match kind, p with
  | .union, .sdf => .ternary .smin (value acc) (value next) smoothing.toExpr
  | .difference, .sdf => .ternary .smax (value acc) (.neg (value next)) smoothing.toExpr
  | .cut, .sdf => .ternary .smax (value acc) (value next) smoothing.toExpr
  | .difference, .normal =>
    blend (value acc) (.neg (value next)) (distance acc) (.neg (distance next)) (distance step)
  | .union, .normal | .cut, .normal | _, .color =>
    blend (value acc) (value next) (distance acc) (distance next) (distance step)

/-- The steps of the operator number `id` from step number `step` on, with the result number `acc`
so far and the operands still to come, and the declaration of the operator's variable. -/
def steps (kind : OperatorKind) (smoothing : Scalar) (p : Property) (id : Nat) :
    (step acc : Nat) → (operands : List Nat) → List Declaration
  | _, acc, [] => [⟨.numbered p id, .var (.numbered p acc)⟩]
  | step, acc, next :: rest =>
    ⟨.numbered p step, kind.combine smoothing p acc next step⟩ ::
      kind.steps smoothing p id (step + 1) step rest

/-- Everything an operator declares after its operands, which are given by their identifiers. -/
def fold (kind : OperatorKind) (smoothing : Scalar) (p : Property) (id : Nat) :
    (operands : List Nat) → List Declaration
  | [] => []
  | first :: rest => kind.steps smoothing p id (id + 1) first rest

end OperatorKind

namespace Node

mutual

/-- The declarations of a property of the tree in a space. -/
def emit (space : Space) (p : Property) : Node → Emission
  | .shape id primitive finish =>
    match p with
    | .color => finish.material.emit id .color
    | .sdf => .ok [⟨.numbered .sdf id, primitive.distance space⟩]
    | .normal => .ok [⟨.numbered .normal id, primitive.surfaceNormal space⟩]
  | .material id finish => finish.material.emit id p
  | .transform mapping child => child.emit (space.push mapping) p
  | .operator id kind smoothing children =>
    if children.length < 2 then .fail (.tooFewOperands kind children.length)
    else
      (emitAll space p children).andThen
        (.ok (kind.fold smoothing p id (children.map Node.id)))

/-- The declarations of several trees in a space, up to the first failure. -/
def emitAll (space : Space) (p : Property) : List Node → Emission
  | [] => .ok []
  | n :: ns => (n.emit space p).andThen (emitAll space p ns)

end

/-- The declarations of a property in world space, with the public alias at the end. -/
def publish (n : Node) (p : Property) : Except CompileError (List Declaration) :=
  let emission := n.emit .world p
  match emission.failure with
  | some e => .error e
  | none => .ok (emission.declarations ++ [.publish p n.id])

/-- Two planes joined: each operand, one step, the operator and its alias. -/
example : ((Node.operator 2 .difference (.raw "k")
      [.shape 0 (.ground (.raw "a")) .standard, .shape 1 (.plane (.raw "b")) .standard]).publish
        .sdf).toOption.map (·.map Declaration.render) =
    some ["float sdf0 = dot(point - vec3(0.0, 0.0, 0.0), (a));",
      "float sdf1 = abs(dot(point - vec3(0.0, 0.0, 0.0), (b)));",
      "float sdf3 = smax(sdf0, -sdf1, (k));", "float sdf2 = sdf3;", "float sdf = sdf2;"] := by
  decide +kernel

end Node

end FieldShader
