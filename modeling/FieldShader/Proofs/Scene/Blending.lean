import FieldShader.Proofs.Glsl.Exact
import FieldShader.Proofs.Scene.Reads
import FieldShader.Proofs.Scene.Uniqueness
import Mathlib.Data.List.MinMax

/-!
# Blended colors

A color line mixes two colors by a weight that is made from three distances, and it takes the
distances as they are: an author's shader may have changed them, and a scene with a leaf that has
only a color never had them. So nothing can be assumed of the distances, not even that a combined
distance has to do with those it was combined from.

`Node.exists_runExact` follows the color lines of a tree through exact arithmetic. The invariant is
that every color found so far lies in the box around the colors of all leaves; one step of an
operator keeps it, whatever the weight, because the weight is between zero and one. Nothing gets
stuck on the way, so no quotient was taken by anything that is not positive
(`Workshop.colors_within_leaves`).
-/

namespace FieldShader

/-- The store has these distances under the numbered variables for distances. -/
def HasDistances (dist : Nat → ℚ) (σ : Store Quantity) : Prop :=
  ∀ i, σ (Variable.numbered .sdf i).name = some (.scalar (dist i))

/-- The variable is bound to a color of the box around some triples. -/
def Painted (ts : List Triple) (σ : Store Quantity) (v : Variable) : Prop :=
  ∃ c, σ v.name = some (.color c) ∧ Spans ts c

/-- The distances are still there, and no color has left the box. -/
structure Keeps (dist : Nat → ℚ) (ts : List Triple) (σ σ' : Store Quantity) : Prop where
  distances : HasDistances dist σ'
  painted : ∀ {v}, Painted ts σ v → Painted ts σ' v

namespace Keeps

variable {dist : Nat → ℚ} {ts : List Triple} {σ σ₁ σ₂ : Store Quantity}

theorem refl (h : HasDistances dist σ) : Keeps dist ts σ σ := ⟨h, id⟩

theorem trans (h₁ : Keeps dist ts σ σ₁) (h₂ : Keeps dist ts σ₁ σ₂) : Keeps dist ts σ σ₂ :=
  ⟨h₂.distances, fun h => h₂.painted (h₁.painted h)⟩

/-- Binding a color variable to a color of the box touches no distance. -/
theorem bind (hdist : HasDistances dist σ) {c : Triple} (hc : Spans ts c) (i : Nat) :
    Keeps dist ts σ (σ.bind (Variable.numbered .color i).name (.color c)) ∧
      Painted ts (σ.bind (Variable.numbered .color i).name (.color c)) (.numbered .color i) := by
  refine ⟨⟨fun j => ?_, fun {v} hv => ?_⟩, c, ?_, hc⟩
  · have hne : (Variable.numbered .sdf j).name ≠ (Variable.numbered .color i).name :=
      fun h => nomatch Variable.name_injective h
    rw [Store.bind, if_neg hne, hdist]
  · obtain ⟨c', hv, hc'⟩ := hv
    unfold Painted Store.bind
    split
    · exact ⟨c, rfl, hc⟩
    · exact ⟨c', hv, hc'⟩
  · rw [Store.bind, if_pos rfl]

end Keeps

/-! ## One step -/

namespace OperatorKind

variable {dist : Nat → ℚ} {ts : List Triple} {σ : Store Quantity} {leaf : Triple}

/-- The weight of a step as an expression. -/
def weightExpr (acc next step : Nat) : Expr :=
  let near := remoteness (.var (.numbered .sdf acc)) (.var (.numbered .sdf step))
  let total := Expr.binary .add near
    (remoteness (.var (.numbered .sdf next)) (.var (.numbered .sdf step)))
  .group (.ifGreater total .zero (.binary .div near (.group total)) .half)

/-- All operators mix colors alike, the distances as they are. -/
theorem combine_color (kind : OperatorKind) (smoothing : Scalar) (acc next step : Nat) :
    kind.combine smoothing .color acc next step =
      .ternary .mix (.var (.numbered .color acc)) (.var (.numbered .color next))
        (weightExpr acc next step) := by
  cases kind <;> rfl

/-- **A weight has a value**, whatever the distances are: the quotient is only looked at where it
is by something positive. -/
theorem exact_weightExpr (hdist : HasDistances dist σ) (acc next step : Nat) :
    (weightExpr acc next step).exact leaf σ =
      some (.scalar (weight (dist acc) (dist next) (dist step))) := by
  have hremote (i : Nat) : (remoteness (.var (.numbered .sdf i))
      (.var (.numbered .sdf step))).exact leaf σ = some (.scalar |dist i - dist step|) := by
    simp [remoteness, Expr.exact, hdist i, hdist step, Quantity.scalar?, BinaryOperator.exact]
  simp only [weightExpr, Expr.exact, Expr.zero, Expr.half, hremote, rational?_zero, rational?_half,
    Quantity.scalar?, BinaryOperator.exact, Option.map_some, Option.bind_eq_bind, Option.bind_some,
    Option.pure_def]
  unfold weight
  split
  · rfl
  · rfl

/-- One step mixes two colors of the box to a color of the box. -/
theorem exact_combine (hdist : HasDistances dist σ) (kind : OperatorKind) (smoothing : Scalar)
    {acc next : Nat} (step : Nat) (hacc : Painted ts σ (.numbered .color acc))
    (hnext : Painted ts σ (.numbered .color next)) :
    ∃ c, (kind.combine smoothing .color acc next step).exact leaf σ = some (.color c) ∧
      Spans ts c := by
  obtain ⟨a, ha, hspanA⟩ := hacc
  obtain ⟨b, hb, hspanB⟩ := hnext
  refine ⟨interpolate a b (weight (dist acc) (dist next) (dist step)), ?_,
    hspanA.interpolate hspanB (weight_nonneg _ _ _) (weight_le_one _ _ _)⟩
  rw [combine_color, Expr.exact, exact_weightExpr hdist]
  simp [Expr.exact, ha, hb, Quantity.color?, Quantity.scalar?]

/-! ## All steps of an operator -/

/-- The steps of an operator keep the colors in the box, and the operator's own color is in it. -/
theorem exists_runExact_steps (tint : Variable → Triple) (hdist : HasDistances dist σ)
    (kind : OperatorKind) (smoothing : Scalar) (id step : Nat) {acc : Nat} {operands : List Nat}
    (hacc : Painted ts σ (.numbered .color acc))
    (hops : ∀ i ∈ operands, Painted ts σ (.numbered .color i)) :
    ∃ σ', runExact tint σ (kind.steps smoothing .color id step acc operands) = some σ' ∧
      Keeps dist ts σ σ' ∧ Painted ts σ' (.numbered .color id) := by
  induction operands generalizing σ step acc with
  | nil =>
    obtain ⟨c, hc, hspan⟩ := hacc
    obtain ⟨hkeep, hpaint⟩ := Keeps.bind hdist hspan id
    refine ⟨_, ?_, hkeep, hpaint⟩
    rw [steps, runExact, Expr.exact, hc]
    rfl
  | cons next rest ih =>
    obtain ⟨c, hc, hspan⟩ :=
      exact_combine hdist kind smoothing step hacc (hops next List.mem_cons_self)
    obtain ⟨hkeep, hpaint⟩ := Keeps.bind hdist hspan step
    obtain ⟨σ', hrun, hkeep', hpaint'⟩ := ih hkeep.distances (step + 1) hpaint
      fun i hi => hkeep.painted (hops i (List.mem_cons_of_mem _ hi))
    refine ⟨σ', ?_, hkeep.trans hkeep', hpaint'⟩
    rw [steps, runExact, hc]
    exact hrun

end OperatorKind

/-! ## Whole trees -/

namespace Node

/-- The identifier of a leaf. -/
def leafId? : Node → Option Nat
  | .shape id _ _ | .material id _ => some id
  | .transform .. | .operator .. => none

/-- The identifiers of the leaves of a tree. -/
def leafIds (n : Node) : List Nat := n.parts.filterMap leafId?

variable {dist : Nat → ℚ} {ts : List Triple} {σ : Store Quantity} {tint : Variable → Triple}
  {n : Node} {space : Space}

/-- The leaves of an operand are leaves of the operator. -/
theorem leafIds_operand_subset {id : Nat} {kind : OperatorKind} {smoothing : Scalar}
    {children : List Node} {c : Node} (hc : c ∈ children) :
    c.leafIds ⊆ (operator id kind smoothing children).leafIds := by
  intro i hi
  obtain ⟨m, hm, hi⟩ := List.mem_filterMap.1 hi
  exact List.mem_filterMap.2 ⟨m, mem_parts_operator.2 (.inr ⟨c, hc, hm⟩), hi⟩

/-- The leaves of a subtree are leaves of the transform around it. -/
theorem leafIds_child_subset {mapping : Mapping} {child : Node} :
    child.leafIds ⊆ (transform mapping child).leafIds := by
  intro i hi
  obtain ⟨m, hm, hi⟩ := List.mem_filterMap.1 hi
  exact List.mem_filterMap.2 ⟨m, mem_parts_transform.2 (.inr hm), hi⟩

/-- The line of a leaf binds it to its triple. -/
theorem exists_runExact_leaf (hdist : HasDistances dist σ) {id : Nat} (color : Vector)
    (ht : tint (.numbered .color id) ∈ ts) :
    ∃ σ', runExact tint σ [⟨.numbered .color id, color.toExpr⟩] = some σ' ∧
      Keeps dist ts σ σ' ∧ Painted ts σ' (.numbered .color id) := by
  obtain ⟨hkeep, hpaint⟩ := Keeps.bind hdist (Spans.of_mem ht) id
  refine ⟨_, ?_, hkeep, hpaint⟩
  cases color <;> rfl

/-- Several trees are evaluated one after the other, if each of them is wherever it stands. -/
theorem exists_runExact_emitAll {ns : List Node} (hdist : HasDistances dist σ)
    (h : ∀ n ∈ ns, ∀ {σ : Store Quantity}, HasDistances dist σ →
      ∃ σ', runExact tint σ (n.emit space .color).declarations = some σ' ∧
        Keeps dist ts σ σ' ∧ Painted ts σ' (n.result .color))
    (hok : ∀ n ∈ ns, (n.emit space .color).failure = none) :
    ∃ σ', runExact tint σ (emitAll space .color ns).declarations = some σ' ∧
      Keeps dist ts σ σ' ∧ ∀ n ∈ ns, Painted ts σ' (n.result .color) := by
  induction ns generalizing σ with
  | nil => exact ⟨σ, rfl, .refl hdist, nofun⟩
  | cons n ns ih =>
    obtain ⟨σ₁, hrun₁, hkeep₁, hpaint₁⟩ := h n List.mem_cons_self hdist
    obtain ⟨σ₂, hrun₂, hkeep₂, hpaint₂⟩ := ih hkeep₁.distances
      (fun m hm => h m (List.mem_cons_of_mem _ hm)) fun m hm => hok m (List.mem_cons_of_mem _ hm)
    refine ⟨σ₂, ?_, hkeep₁.trans hkeep₂, fun m hm => ?_⟩
    · rw [emitAll, Emission.andThen, hok n List.mem_cons_self, runExact_append, hrun₁]
      exact hrun₂
    · rcases List.mem_cons.1 hm with rfl | hm
      · exact hkeep₂.painted hpaint₁
      · exact hpaint₂ m hm

/-- **The colors of a tree stay in the box around those of its leaves.** The lines are evaluated to
the end wherever the distances are known, and leave every color in the box that was in it. -/
theorem exists_runExact (hdist : HasDistances dist σ)
    (hok : (n.emit space .color).failure = none)
    (hleaves : ∀ i ∈ n.leafIds, tint (.numbered .color i) ∈ ts) :
    ∃ σ', runExact tint σ (n.emit space .color).declarations = some σ' ∧
      Keeps dist ts σ σ' ∧ Painted ts σ' (n.result .color) := by
  induction n using recTree generalizing space σ with
  | shape id primitive finish =>
    exact exists_runExact_leaf hdist finish.material.color (hleaves id List.mem_cons_self)
  | material id finish =>
    exact exists_runExact_leaf hdist finish.material.color (hleaves id List.mem_cons_self)
  | transform mapping child ih =>
    exact @ih σ (space.push mapping) hdist hok fun i hi => hleaves i (leafIds_child_subset hi)
  | operator id kind smoothing children ih =>
    obtain ⟨harity, hchildren⟩ := failure_emit_operator hok
    obtain ⟨σ₁, hrun₁, hkeep₁, hpaint₁⟩ := exists_runExact_emitAll hdist
      (fun c hc σ hσ => ih c hc hσ (hchildren c hc) fun i hi =>
        hleaves i (leafIds_operand_subset hc hi)) hchildren
    obtain ⟨first, rest, rfl⟩ : ∃ first rest, children = first :: rest := by
      cases children with
      | nil => simp at harity
      | cons first rest => exact ⟨first, rest, rfl⟩
    have hrest : ∀ i ∈ rest.map Node.id, Painted ts σ₁ (.numbered .color i) := by
      intro i hi
      obtain ⟨c, hc, rfl⟩ := List.mem_map.1 hi
      exact hpaint₁ c (List.mem_cons_of_mem _ hc)
    obtain ⟨σ₂, hrun₂, hkeep₂, hpaint₂⟩ := OperatorKind.exists_runExact_steps tint
      hkeep₁.distances kind smoothing id (id + 1) (hpaint₁ first List.mem_cons_self) hrest
    refine ⟨σ₂, ?_, hkeep₁.trans hkeep₂, hpaint₂⟩
    rw [emit, if_neg (by omega), Emission.andThen, failure_emitAll_eq_none.2 hchildren]
    show runExact tint σ (_ ++ _) = _
    rw [runExact_append, hrun₁]
    exact hrun₂

/-- A color line that mixes is a step of an operator. -/
theorem mix_line_cases {d : Declaration} (hd : d ∈ (n.emit space .color).declarations)
    {first second w : Expr} (hmix : d.value = .ternary .mix first second w) :
    ∃ acc next step, d.target = .numbered .color step ∧ first = .var (.numbered .color acc) ∧
      second = .var (.numbered .color next) ∧ w = OperatorKind.weightExpr acc next step := by
  have hleaf {id : Nat} {color : Vector}
      (hd : d ∈ [Declaration.mk (.numbered .color id) color.toExpr]) : False := by
    rw [List.mem_singleton.1 hd] at hmix
    cases color <;> cases hmix
  induction n using recTree generalizing space with
  | shape id primitive finish => exact (hleaf hd).elim
  | material id finish => exact (hleaf hd).elim
  | transform mapping child ih => exact ih hd
  | operator id kind smoothing children ih =>
    rw [emit] at hd
    split at hd
    · cases hd
    · rcases Emission.mem_andThen hd with hd | hd
      · obtain ⟨c, hc, hd⟩ := mem_emitAll hd
        exact ih c hc hd
      · cases children with
        | nil => cases hd
        | cons _ rest =>
          rcases OperatorKind.steps_cases hd with ⟨v, hv⟩ | ⟨acc, next, step, rfl⟩
          · rw [hv] at hmix
            cases hmix
          · obtain ⟨-, hfirst, hsecond, hw⟩ :=
              Expr.ternary.inj ((kind.combine_color smoothing acc next step).symm.trans hmix)
            exact ⟨acc, next, step, rfl, hfirst.symm, hsecond.symm, hw.symm⟩

end Node

namespace Workshop

/-- **Blending never divides by zero and never leaves the range of its inputs.** Take anything that
a workshop has made, any rational numbers for the distances and any triples for the colors of the
leaves. Every line that mixes mixes the colors of two operands by a weight that has a value between
zero and one: one half when both operands are at the combined distance, zero when only the first of
them is, one when only the second is. All color lines have a value, so every division on the way was
by something positive, and every component of the color of the scene lies between the least and the
greatest one of its leaves. -/
theorem colors_within_leaves (a : Allocator) (actions : List Action) (name : String) (n : Node)
    (hn : ((opened a).run actions).find? name = some n) (space : Space)
    (tint : Variable → Triple) (dist : Nat → ℚ) (σ : Store Quantity) (hdist : HasDistances dist σ) :
    (∀ d ∈ (n.emit space .color).declarations, ∀ first second w,
      d.value = .ternary .mix first second w →
      ∃ acc next step q, d.target = .numbered .color step ∧
        first = .var (.numbered .color acc) ∧ second = .var (.numbered .color next) ∧
        w.exact (tint d.target) σ = some (.scalar q) ∧ 0 ≤ q ∧ q ≤ 1 ∧
        (dist acc = dist step → dist next = dist step → q = 1 / 2) ∧
        (dist acc = dist step → dist next ≠ dist step → q = 0) ∧
        (dist acc ≠ dist step → dist next = dist step → q = 1)) ∧
    ∃ σ' c, runExact tint σ (n.emit space .color).declarations = some σ' ∧
      σ' (n.result .color).name = some (.color c) ∧
      ∀ k, (n.leafIds.map fun i => tint (.numbered .color i) k).minimum ≤ c k ∧
        (c k : WithBot ℚ) ≤ (n.leafIds.map fun i => tint (.numbered .color i) k).maximum := by
  refine ⟨fun d hd first second w hmix => ?_, ?_⟩
  · obtain ⟨acc, next, step, htarget, hfirst, hsecond, rfl⟩ := Node.mix_line_cases hd hmix
    exact ⟨acc, next, step, _, htarget, hfirst, hsecond,
      OperatorKind.exact_weightExpr hdist acc next step, weight_nonneg _ _ _, weight_le_one _ _ _,
      weight_of_eq_of_eq, weight_of_eq_of_ne, weight_of_ne_of_eq⟩
  · have hok : (n.emit space .color).failure = none :=
      (((sound_opened a).run actions).numbered hn |>.complete_iff space .color).2 (.inl rfl)
    have hleaves : ∀ i ∈ n.leafIds, tint (.numbered .color i) ∈
        n.leafIds.map fun i => tint (.numbered .color i) := fun i hi => List.mem_map.2 ⟨i, hi, rfl⟩
    obtain ⟨σ', hrun, -, c, hc, hspan⟩ := Node.exists_runExact hdist hok hleaves
    refine ⟨σ', c, hrun, hc, fun k => ?_⟩
    obtain ⟨⟨lo, hlo, hle⟩, hi, hhi, hge⟩ := hspan k
    obtain ⟨i, hi', rfl⟩ := List.mem_map.1 hlo
    obtain ⟨j, hj, rfl⟩ := List.mem_map.1 hhi
    exact ⟨(List.minimum_le_of_mem' (List.mem_map_of_mem hi')).trans (WithTop.coe_le_coe.2 hle),
      (WithBot.coe_le_coe.2 hge).trans (List.le_maximum_of_mem' (List.mem_map_of_mem hj))⟩

/-- A union out of which a leaf is taken that has only a color, so that the scene has no
distance. -/
def motley : List Action :=
  [.shape "a" (.ground (.raw "a")) .standard, .shape "b" (.ground (.raw "b")) .standard,
    .material "c" (.custom ⟨.raw "c"⟩), .operator "u" .union (.raw "k") ["a", "b"],
    .operator "d" .difference (.raw "k") ["u", "c"]]

/-- Distances that fit nothing: all are one, but the combined distance of the union in `motley`. -/
def skewed (i : Nat) : ℚ := if i = 4 then 3 else 1

/-- A store with these distances. -/
def skewedStore : Store Quantity := fun name =>
  some (.scalar (if name = (Variable.numbered .sdf 4).name then 3 else 1))

/-- Black shapes in `motley`, and the leaf that has only a color white. -/
def contrast (v : Variable) : Triple := if v = .numbered .color 2 then 1 else 0

/-- The colors of `motley`, by `colors_within_leaves`: the last step mixes evenly, and the result is
a gray. -/
theorem colors_within_leaves_motley : ∃ n, ((opened .fresh).run motley).find? "d" = some n ∧
    HasDistances skewed skewedStore ∧
    (∃ w, ⟨.numbered .color 6, .ternary .mix (.var (.numbered .color 3))
        (.var (.numbered .color 2)) w⟩ ∈ (n.emit .world .color).declarations ∧
      w.exact 0 skewedStore = some (.scalar (1 / 2))) ∧
    ∃ σ' c, runExact contrast skewedStore (n.emit .world .color).declarations = some σ' ∧
      σ' "color5" = some (.color c) ∧ ∀ k, 0 ≤ c k ∧ c k ≤ 1 := by
  have hdist : HasDistances skewed skewedStore := by
    intro i
    simp only [skewed, skewedStore, Variable.name_injective.eq_iff, Variable.numbered.injEq,
      true_and]
  obtain ⟨n, hn⟩ : ∃ n, ((opened .fresh).run motley).find? "d" = some n := ⟨_, rfl⟩
  obtain ⟨hlines, σ', c, hrun, hc, hrange⟩ :=
    colors_within_leaves .fresh motley "d" n hn .world contrast skewed skewedStore hdist
  cases hn
  refine ⟨_, rfl, hdist, ⟨OperatorKind.weightExpr 3 2 6, by decide +kernel, ?_⟩, σ', c, hrun, hc,
    fun k => ?_⟩
  · obtain ⟨acc, next, step, q, htarget, hfirst, hsecond, hw, -, -, heven, -⟩ :=
      hlines ⟨.numbered .color 6, .ternary .mix (.var (.numbered .color 3))
        (.var (.numbered .color 2)) (OperatorKind.weightExpr 3 2 6)⟩ (by decide +kernel) _ _ _ rfl
    cases htarget
    cases hfirst
    cases hsecond
    rw [← heven rfl rfl]
    exact hw
  · obtain ⟨hlow, hhigh⟩ := hrange k
    have hbound : ∀ x ∈ ([0, 1, 2].map fun i => contrast (.numbered .color i) k),
        0 ≤ x ∧ x ≤ 1 := by
      simp [contrast]
    exact ⟨WithTop.coe_le_coe.1 ((List.le_minimum_of_forall_le fun x hx =>
        WithTop.coe_le_coe.2 (hbound x hx).1).trans hlow),
      WithBot.coe_le_coe.1 (hhigh.trans (List.maximum_le_of_forall_le fun x hx =>
        WithBot.coe_le_coe.2 (hbound x hx).2))⟩

end Workshop

end FieldShader
