import FieldShader.Proofs.Glsl.Meaning
import FieldShader.Proofs.Scene.Scoping
import Mathlib.Data.List.Forall2

/-!
# The meaning of a scene

What a scene is, told by recursion on the tree and without any variable: at the sample point it has
a distance, a normal and a color, together a `Surface`. A leaf is placed by the translations around
it (`Mapping.move`, the innermost applied first), and an operator folds the surfaces of its operands
from the left with `Interpretation.join`. A tree with a leaf that has only a color has no surface.

`Node.ledger` writes down the surfaces that the recursion passes through, each under the identifier
that a shader would use for it: those of the operands, the result of every step, and the result of
the operator itself. It is the bridge to the generated lines, which declare the same identifiers in
the same order (`Node.keys_ledger`).
-/

namespace FieldShader

universe u

variable {V : Type u}

/-- What a scene is at the sample point. -/
structure Surface (V : Type u) where
  /-- The signed distance to it. -/
  distance : V
  /-- Its normal. -/
  normal : V
  /-- Its color. -/
  color : V

/-- The property of the surface. -/
def Surface.get (s : Surface V) : Property → V
  | .sdf => s.distance
  | .normal => s.normal
  | .color => s.color

/-! ## Parameters and leaves -/

/-- The value of a scalar parameter. -/
def Scalar.meaning (I : Interpretation V) : Scalar → V
  | .number x => I.literal x
  | .raw source => I.fragment source .float

/-- The value of a vector parameter. -/
def Vector.meaning (I : Interpretation V) : Vector → V
  | .components x y z => I.vector (x.meaning I) (y.meaning I) (z.meaning I)
  | .raw source => I.fragment source .vec3

/-- Where a mapping takes a position. -/
def Mapping.move (I : Interpretation V) : Mapping → V → V
  | .translate offset, position => I.add position (offset.meaning I)

namespace Interpretation

variable (I : Interpretation V)

/-- The way from the origin of a leaf to the sample point. -/
def offset (origin : V) : V := I.sub (I.position "point") origin

/-- The weight of the second of two operands in a blend: how far the first is from the combined
distance, as a part of how far both are, and one half when both are there already. -/
def weight (first second combined : V) : V :=
  let near := I.abs (I.sub first combined)
  let total := I.add near (I.abs (I.sub second combined))
  I.choose (I.greater total (I.literal .zero)) (I.div near total) (I.literal .half)

/-- The combined distance of two operands. -/
def meet (kind : OperatorKind) (smoothing first second : V) : V :=
  match kind with
  | .union => I.smin first second smoothing
  | .difference => I.smax first (I.neg second) smoothing
  | .cut => I.smax first second smoothing

/-- The combined normal, given the combined distance. What is subtracted is turned inside out. -/
def meetNormal (kind : OperatorKind) (combined : V) (first second : Surface V) : V :=
  match kind with
  | .difference => I.mix first.normal (I.neg second.normal)
    (I.weight first.distance (I.neg second.distance) combined)
  | .union | .cut =>
    I.mix first.normal second.normal (I.weight first.distance second.distance combined)

/-- One step of an operator: the surface so far, joined by the next operand's. -/
def join (kind : OperatorKind) (smoothing : V) (acc next : Surface V) : Surface V :=
  let combined := I.meet kind smoothing acc.distance next.distance
  { distance := combined
    normal := I.meetNormal kind combined acc next
    color := I.mix acc.color next.color (I.weight acc.distance next.distance combined) }

/-- An operator: its operands' surfaces, folded from the left. -/
def joinAll (kind : OperatorKind) (smoothing : V) : List (Surface V) → Option (Surface V)
  | [] => none
  | first :: rest => some (rest.foldl (I.join kind smoothing) first)

end Interpretation

namespace Primitive

/-- The signed distance from the sample point to a primitive with the given origin. -/
def distanceFrom (I : Interpretation V) (origin : V) : Primitive → V
  | .sphere radius => I.sub (I.length (I.offset origin)) (radius.meaning I)
  | .plane normal => I.abs (I.dot (I.offset origin) (normal.meaning I))
  | .ground normal => I.dot (I.offset origin) (normal.meaning I)

/-- The normal at the sample point of a primitive with the given origin. -/
def normalFrom (I : Interpretation V) (origin : V) : Primitive → V
  | .sphere _ => I.normalize (I.offset origin)
  | .plane normal | .ground normal => I.normalize (normal.meaning I)

/-- The surface of a primitive that is placed somewhere and has a material. -/
def surface (I : Interpretation V) (place : V → V) (primitive : Primitive) (finish : Finish) :
    Surface V :=
  let origin := place (Vector.zero.meaning I)
  { distance := primitive.distanceFrom I origin
    normal := primitive.normalFrom I origin
    color := finish.material.color.meaning I }

end Primitive

/-! ## Trees -/

namespace Node

mutual

/-- The surface of a tree; `place` takes positions of the tree to the world. -/
def surface (I : Interpretation V) (place : V → V) : Node → Option (Surface V)
  | .shape _ primitive finish => some (primitive.surface I place finish)
  | .material _ _ => none
  | .transform mapping child => child.surface I fun position => place (mapping.move I position)
  | .operator _ kind smoothing children => do
    I.joinAll kind (smoothing.meaning I) (← surfaces I place children)

/-- The surfaces of several trees in one place. -/
def surfaces (I : Interpretation V) (place : V → V) : List Node → Option (List (Surface V))
  | [] => some []
  | n :: ns => do return (← n.surface I place) :: (← surfaces I place ns)

end

/-- Every part of the tree has a distance: no leaf of it has only a color. -/
def Solid (n : Node) : Prop := ∀ m ∈ n.parts, m.category ≠ .material

/-- Several trees have surfaces when each of them has one. -/
theorem surfaces_eq_some {I : Interpretation V} {place : V → V} {ns : List Node}
    {ss : List (Surface V)} : surfaces I place ns = some ss ↔
      List.Forall₂ (fun n s => n.surface I place = some s) ns ss := by
  induction ns generalizing ss with
  | nil =>
    rw [surfaces, List.forall₂_nil_left_iff, Option.some_inj]
    exact eq_comm
  | cons n ns ih =>
    rw [surfaces]
    constructor
    · intro h
      obtain ⟨s, hs, h⟩ := Option.bind_eq_some_iff.1 h
      obtain ⟨rest, hrest, h⟩ := Option.bind_eq_some_iff.1 h
      cases h
      exact .cons hs (ih.1 hrest)
    · intro h
      cases h with
      | cons hs hrest =>
        rw [hs, ih.2 hrest]
        rfl

/-- If several trees have surfaces, each of them has. -/
theorem exists_surface_of_mem {I : Interpretation V} {place : V → V} {ns : List Node}
    {ss : List (Surface V)} (h : surfaces I place ns = some ss) {n : Node} (hn : n ∈ ns) :
    ∃ s, n.surface I place = some s := by
  rw [surfaces_eq_some] at h
  induction h with
  | nil => cases hn
  | cons hs _ ih =>
    rcases List.mem_cons.1 hn with rfl | hn
    · exact ⟨_, hs⟩
    · exact ih hn

/-- If each of several trees has a surface, they have surfaces. -/
theorem exists_surfaces {I : Interpretation V} {place : V → V} {ns : List Node}
    (h : ∀ n ∈ ns, ∃ s, n.surface I place = some s) : ∃ ss, surfaces I place ns = some ss := by
  induction ns with
  | nil => exact ⟨[], rfl⟩
  | cons n ns ih =>
    obtain ⟨s, hs⟩ := h n List.mem_cons_self
    obtain ⟨ss, hss⟩ := ih fun m hm => h m (List.mem_cons_of_mem _ hm)
    exact ⟨s :: ss, surfaces_eq_some.2 (.cons hs (surfaces_eq_some.1 hss))⟩

/-- The surface of an operator is the fold of its operands' surfaces, of which there is a first. -/
theorem surface_operator_eq_some {I : Interpretation V} {place : V → V} {id : Nat}
    {kind : OperatorKind} {smoothing : Scalar} {children : List Node} {s : Surface V} :
    (operator id kind smoothing children).surface I place = some s ↔
      ∃ first rest, surfaces I place children = some (first :: rest) ∧
        rest.foldl (I.join kind (smoothing.meaning I)) first = s := by
  rw [surface]
  constructor
  · intro h
    obtain ⟨ss, hss, h⟩ := Option.bind_eq_some_iff.1 h
    cases ss with
    | nil => cases h
    | cons first rest =>
      cases h
      exact ⟨first, rest, hss, rfl⟩
  · rintro ⟨first, rest, hss, rfl⟩
    rw [hss]
    rfl

/-! ## Solid trees -/

namespace Solid

/-- The subtree of a solid transform is solid. -/
theorem child {mapping : Mapping} {n : Node} (h : (transform mapping n).Solid) : n.Solid :=
  fun m hm => h m (mem_parts_transform.2 (.inr hm))

/-- The operands of a solid operator are solid. -/
theorem operand {id : Nat} {kind : OperatorKind} {smoothing : Scalar} {children : List Node}
    (h : (operator id kind smoothing children).Solid) {c : Node} (hc : c ∈ children) : c.Solid :=
  fun m hm => h m (mem_parts_operator.2 (.inr ⟨c, hc, hm⟩))

/-- A leaf that has only a color is not solid. -/
theorem not_material {id : Nat} {finish : Finish} : ¬(material id finish).Solid := by
  intro h
  exact h (.material id finish) (List.mem_singleton_self _) rfl

end Solid

/-- A solid tree that a builder made has a surface, wherever it is placed. -/
theorem Numbered.exists_surface {n : Node} (h : n.Numbered) (hsolid : n.Solid)
    (I : Interpretation V) (place : V → V) : ∃ s, n.surface I place = some s := by
  induction h generalizing place with
  | shape id primitive finish => exact ⟨_, rfl⟩
  | material id finish => exact absurd hsolid Solid.not_material
  | transform mapping _ ih => exact ih hsolid.child _
  | @operator children id kind smoothing harity _ _ _ ih =>
    obtain ⟨ss, hss⟩ := exists_surfaces fun c hc => ih c hc (hsolid.operand hc) place
    cases ss with
    | nil =>
      have hlen := (surfaces_eq_some.1 hss).length_eq
      simp [hlen] at harity
    | cons first rest => exact ⟨_, surface_operator_eq_some.2 ⟨first, rest, hss, rfl⟩⟩

/-- A solid tree that a builder made is emitted completely, for every property. -/
theorem Numbered.failure_emit {n : Node} (h : n.Numbered) (hsolid : n.Solid) (space : Space)
    (p : Property) : (n.emit space p).failure = none := by
  induction h generalizing space with
  | shape id primitive finish => cases p <;> rfl
  | material id finish => exact absurd hsolid Solid.not_material
  | transform mapping _ ih => exact ih hsolid.child _
  | @operator children id kind smoothing harity _ _ _ ih =>
    rw [emit, if_neg (by omega), Emission.failure_andThen_eq_none, failure_emitAll_eq_none]
    exact ⟨fun c hc => ih c hc (hsolid.operand hc) space, rfl⟩

/-! ## The ledger of a tree -/

end Node

namespace Interpretation

/-- The surfaces after each step of an operator, under the numbers of the steps, and the last of
them once more under the operator's own. -/
def stepLedger (I : Interpretation V) (kind : OperatorKind) (smoothing : V) (id : Nat) :
    (step : Nat) → (acc : Surface V) → List (Surface V) → List (Nat × Surface V)
  | _, acc, [] => [(id, acc)]
  | step, acc, next :: rest =>
    (step, I.join kind smoothing acc next) ::
      I.stepLedger kind smoothing id (step + 1) (I.join kind smoothing acc next) rest

/-- The surfaces that an operator adds to those of its operands. -/
def foldLedger (I : Interpretation V) (kind : OperatorKind) (smoothing : V) (id : Nat) :
    List (Surface V) → List (Nat × Surface V)
  | [] => []
  | first :: rest => I.stepLedger kind smoothing id (id + 1) first rest

/-- The last surface of an operator is its result. -/
theorem mem_stepLedger (I : Interpretation V) (kind : OperatorKind) (smoothing : V) (id step : Nat)
    (acc : Surface V) (ss : List (Surface V)) :
    (id, ss.foldl (I.join kind smoothing) acc) ∈ I.stepLedger kind smoothing id step acc ss := by
  induction ss generalizing step acc with
  | nil => exact List.mem_singleton_self _
  | cons next rest ih => exact List.mem_cons_of_mem _ (ih _ _)

/-- Steps are numbered one after the other, and the operator's own number comes last. -/
theorem keys_stepLedger (I : Interpretation V) (kind : OperatorKind) (smoothing : V)
    (id step : Nat) (acc : Surface V) (ss : List (Surface V)) :
    (I.stepLedger kind smoothing id step acc ss).map Prod.fst =
      List.range' step ss.length ++ [id] := by
  induction ss generalizing step acc with
  | nil => rfl
  | cons next rest ih =>
    rw [stepLedger, List.map_cons, ih, List.length_cons, List.range'_succ, List.cons_append]

end Interpretation

namespace Node

mutual

/-- The surfaces of a tree and of everything in it, under their identifiers. -/
def ledger (I : Interpretation V) (place : V → V) : Node → List (Nat × Surface V)
  | .shape id primitive finish => [(id, primitive.surface I place finish)]
  | .material _ _ => []
  | .transform mapping child => child.ledger I fun position => place (mapping.move I position)
  | .operator id kind smoothing children =>
    ledgers I place children ++
      I.foldLedger kind (smoothing.meaning I) id ((surfaces I place children).getD [])

/-- The surfaces of several trees and of everything in them. -/
def ledgers (I : Interpretation V) (place : V → V) : List Node → List (Nat × Surface V)
  | [] => []
  | n :: ns => n.ledger I place ++ ledgers I place ns

end

/-- The ledgers of several trees, in the natural form. -/
theorem ledgers_eq_flatMap (I : Interpretation V) (place : V → V) (ns : List Node) :
    ledgers I place ns = ns.flatMap (ledger I place) := by
  induction ns with
  | nil => rfl
  | cons n ns ih => rw [ledgers, List.flatMap_cons, ih]

/-- The surface of a tree is in its ledger. -/
theorem mem_ledger {I : Interpretation V} {place : V → V} {n : Node} {s : Surface V}
    (h : n.surface I place = some s) : (n.id, s) ∈ n.ledger I place := by
  induction n using recTree generalizing place with
  | shape id primitive finish =>
    cases h
    exact List.mem_singleton_self _
  | material id finish => cases h
  | transform mapping child ih => exact ih h
  | operator id kind smoothing children ih =>
    obtain ⟨first, rest, hss, rfl⟩ := surface_operator_eq_some.1 h
    rw [ledger, hss]
    exact List.mem_append_right _ (I.mem_stepLedger kind _ id (id + 1) first rest)

/-- **A tree with a surface has ledger entries for the variables it declares**, in the same order. -/
theorem keys_ledger {I : Interpretation V} {place : V → V} {n : Node} {s : Surface V}
    (h : n.surface I place = some s) (p : Property) :
    (n.ledger I place).map (fun entry => Variable.numbered p entry.1) = n.declared p := by
  induction n using recTree generalizing place s with
  | shape id primitive finish => rfl
  | material id finish => cases h
  | transform mapping child ih => exact ih h
  | operator id kind smoothing children ih =>
    obtain ⟨first, rest, hss, rfl⟩ := surface_operator_eq_some.1 h
    have hchildren := surfaces_eq_some.1 hss
    have hlen : children.length - 1 = rest.length := by
      rw [hchildren.length_eq]
      rfl
    have hkeys : ∀ c ∈ children,
        (c.ledger I place).map (fun entry => Variable.numbered p entry.1) = c.declared p := by
      intro c hc
      obtain ⟨t, ht⟩ := exists_surface_of_mem hss hc
      exact ih c hc ht
    rw [ledger, declared, hss, ledgers_eq_flatMap, declaredAll_eq_flatMap, List.map_append,
      List.map_flatMap, List.flatMap_congr hkeys, List.append_assoc, hlen]
    congr 1
    have hsteps := congrArg (List.map (Variable.numbered p))
      (I.keys_stepLedger kind (smoothing.meaning I) id (id + 1) first rest)
    rw [List.map_map] at hsteps
    refine hsteps.trans ?_
    rw [List.map_append, List.range'_eq_map_range, List.map_map]
    rfl

end Node

end FieldShader
