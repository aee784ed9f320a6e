import FieldShader.Proofs.Scene.Declared
import Mathlib.Data.List.Lex

/-!
# Where an emission fails

A node is at fault for a property when it is an operator over fewer than two operands, or a leaf
that has only a color and is asked for something else (`Node.defect?`). A tree may be assembled by
hand, so such nodes can occur anywhere in it and in any number. `Node.compile_characterized` says
what an emission makes of them. It succeeds exactly when there are none, and otherwise it fails
with the defect that comes first in preorder, although an operator is judged before its operands
are visited and a leaf only when the emission reaches it.

A position in a tree is the list of numbers of the subtrees that the way to it goes into
(`Node.at?`), so that the lexicographic order of positions is preorder. What a failed emission
leaves behind are the subtrees to the left of the way to the first defect (`Node.leftOf`), each of
them complete, and nothing of the nodes on the way: every one of them was still waiting for a
subtree.
-/

namespace FieldShader

namespace Node

variable {n c m : Node} {space : Space} {p : Property} {e : CompileError} {π ρ : List Nat} {k : Nat}

/-! ## Subtrees and positions -/

/-- The subtrees right below the node. -/
def children : Node → List Node
  | .shape .. | .material .. => []
  | .transform _ child => [child]
  | .operator _ _ _ operands => operands

/-- The space in which these subtrees are. -/
def inside (space : Space) : Node → Space
  | .transform mapping _ => space.push mapping
  | .shape .. | .material .. | .operator .. => space

/-- Induction over a scene that treats all nodes alike. -/
@[elab_as_elim]
theorem recChildren {motive : Node → Prop}
    (node : ∀ n : Node, (∀ c ∈ n.children, motive c) → motive n) (n : Node) : motive n := by
  induction n using recTree with
  | shape id primitive finish => exact node _ nofun
  | material id finish => exact node _ nofun
  | transform mapping child ih =>
    refine node _ fun c hc => ?_
    rwa [List.mem_singleton.1 hc]
  | operator id kind smoothing operands ih => exact node _ ih

/-- The parts of a tree in preorder: the node, and then the parts of its subtrees. -/
theorem parts_eq_cons (n : Node) : n.parts = n :: partsAll n.children := by
  cases n <;> simp [parts, partsAll, children]

/-- The node at a position: each number is that of the subtree that the way goes into. -/
def at? (n : Node) : List Nat → Option Node
  | [] => some n
  | k :: rest => n.children[k]?.bind fun c => c.at? rest

/-- The subtrees to the left of the way to a position, in order and each in its space. -/
def leftOf (space : Space) (n : Node) : List Nat → List (Space × Node)
  | [] => []
  | k :: rest => (n.children.take k).map (n.inside space, ·) ++
      (n.children[k]?).elim [] fun c => c.leftOf (n.inside space) rest

/-- Positions lead to parts. -/
theorem mem_parts_of_at? (h : n.at? π = some m) : m ∈ n.parts := by
  induction π generalizing n with
  | nil =>
    rw [parts_eq_cons, ← Option.some.inj h]
    exact List.mem_cons_self
  | cons k rest ih =>
    obtain ⟨c, hc, hm⟩ := Option.bind_eq_some_iff.1 h
    rw [parts_eq_cons, partsAll_eq_flatMap]
    exact List.mem_cons_of_mem _ (List.mem_flatMap.2 ⟨c, List.mem_of_getElem? hc, ih hm⟩)

/-! ## Defects -/

/-- What is wrong with the node for a property, whatever is below it. -/
def defect? (p : Property) : Node → Option CompileError
  | .shape .. | .transform .. => none
  | .material .. => if p = .color then none else some (.unsupportedProperty p)
  | .operator _ kind _ operands =>
    if operands.length < 2 then some (.tooFewOperands kind operands.length) else none

/-- The first defect of a tree for a property, in preorder, and its position. -/
structure FirstDefect (n : Node) (p : Property) (π : List Nat) (e : CompileError) : Prop where
  defective : (n.at? π).bind (defect? p) = some e
  earlier : ∀ ρ < π, (n.at? ρ).bind (defect? p) = none

namespace FirstDefect

/-- A node that is at fault itself comes before everything below it. -/
theorem root (h : n.defect? p = some e) : n.FirstDefect p [] e :=
  ⟨h, fun ρ hρ => absurd hρ (List.not_lt_nil ρ)⟩

/-- The first defect of a subtree is that of the tree if the node itself has none and neither have
the subtrees before. -/
theorem child (hself : n.defect? p = none) (hc : n.children[k]? = some c)
    (hleft : ∀ b ∈ n.children.take k, ∀ m ∈ b.parts, m.defect? p = none)
    (h : c.FirstDefect p π e) : n.FirstDefect p (k :: π) e := by
  have hat (ρ : List Nat) : n.at? (k :: ρ) = c.at? ρ := by rw [at?, hc, Option.bind_some]
  refine ⟨by rw [hat, h.defective], fun ρ hρ => ?_⟩
  cases ρ with
  | nil => exact hself
  | cons j ρ =>
    rcases List.cons_lt_cons_iff.1 hρ with hj | ⟨rfl, hlt⟩
    · -- The way goes into a subtree further left, which has no defect at all.
      rw [Option.bind_eq_none_iff]
      intro m hm
      obtain ⟨b, hb, hm⟩ := Option.bind_eq_some_iff.1 hm
      refine hleft b ?_ m (mem_parts_of_at? hm)
      exact List.mem_of_getElem? (i := j) (by rw [List.getElem?_take_of_lt hj, hb])
    · rw [hat, h.earlier ρ hlt]

/-- There is no more than one first defect. -/
theorem unique {e' : CompileError} (h : n.FirstDefect p π e) (h' : n.FirstDefect p ρ e') :
    π = ρ ∧ e = e' := by
  rcases lt_trichotomy π ρ with hlt | rfl | hlt
  · have hnone := h'.earlier π hlt
    rw [h.defective] at hnone
    cases hnone
  · have hsome := h.defective.symm.trans h'.defective
    exact ⟨rfl, Option.some.inj hsome⟩
  · have hnone := h.earlier ρ hlt
    rw [h'.defective] at hnone
    cases hnone

end FirstDefect

/-! ## Emissions -/

/-- A node that is at fault emits nothing, whatever is below it. -/
theorem emit_of_defect (h : n.defect? p = some e) : n.emit space p = .fail e := by
  cases n with
  | shape | transform => cases h
  | material id finish =>
    cases p with
    | color => cases h
    | sdf | normal =>
      cases h
      rfl
  | operator id kind smoothing operands =>
    rw [defect?] at h
    split at h
    · rename_i harity
      cases h
      rw [emit, if_pos harity]
    · cases h

/-- Any other node emits its subtrees and then declarations of its own. -/
theorem emit_of_sound (space : Space) (h : n.defect? p = none) : ∃ own, n.emit space p =
    (emitAll (n.inside space) p n.children).andThen (.ok own) := by
  cases n with
  | shape id primitive finish => cases p <;> exact ⟨[_], rfl⟩
  | material id finish =>
    cases p with
    | color => exact ⟨[_], rfl⟩
    | sdf | normal => cases h
  | transform mapping child =>
    refine ⟨[], ?_⟩
    simp [emit, emitAll, children, inside]
  | operator id kind smoothing operands =>
    rw [defect?] at h
    split at h
    · cases h
    · rename_i harity
      refine ⟨kind.fold smoothing p id (operands.map Node.id), ?_⟩
      rw [emit, if_neg harity]
      rfl

/-- Several trees fail with the failure of the first one that fails, if each tree fails with its
first defect. -/
theorem failure_emitAll_eq {ns : List Node}
    (h : ∀ n ∈ ns, (n.emit space p).failure = n.parts.findSome? (defect? p)) :
    (emitAll space p ns).failure = (partsAll ns).findSome? (defect? p) := by
  induction ns with
  | nil => rfl
  | cons n ns ih =>
    rw [emitAll, partsAll, Emission.failure_andThen, List.findSome?_append,
      h n List.mem_cons_self, ih fun m hm => h m (List.mem_cons_of_mem _ hm)]

/-- **A tree fails with its first defect in preorder.** -/
theorem failure_emit_eq (n : Node) (space : Space) (p : Property) :
    (n.emit space p).failure = n.parts.findSome? (defect? p) := by
  induction n using recChildren generalizing space with
  | node n ih =>
    rw [parts_eq_cons, List.findSome?_cons]
    cases hdefect : n.defect? p with
    | some e => rw [emit_of_defect hdefect]; rfl
    | none =>
      obtain ⟨own, hown⟩ := emit_of_sound space hdefect
      rw [hown, Emission.failure_andThen, failure_emitAll_eq fun c hc => ih c hc _]
      exact Option.or_none

/-- So it is emitted completely exactly when it has none. -/
theorem failure_emit_eq_none_iff :
    (n.emit space p).failure = none ↔ ∀ m ∈ n.parts, m.defect? p = none := by
  rw [failure_emit_eq, List.findSome?_eq_none_iff]

/-- A part that is at fault makes the emission fail. -/
theorem exists_failure_emit (space : Space) (hm : m ∈ n.parts) (h : m.defect? p ≠ none) :
    ∃ e, (n.emit space p).failure = some e := by
  refine Option.ne_none_iff_exists'.1 fun hnone => ?_
  exact h (failure_emit_eq_none_iff.1 hnone m hm)

/-- Of several trees that fail, those before the one that fails are emitted completely, that one as
far as it goes, and the ones after it not at all. -/
theorem exists_of_failure_emitAll {ns : List Node} (h : (emitAll space p ns).failure = some e) :
    ∃ k c, ns[k]? = some c ∧ (c.emit space p).failure = some e ∧
      (∀ b ∈ ns.take k, (b.emit space p).failure = none) ∧
      (emitAll space p ns).declarations =
        (ns.take k).flatMap (fun b => (b.emit space p).declarations) ++
          (c.emit space p).declarations := by
  induction ns with
  | nil => cases h
  | cons n ns ih =>
    rw [emitAll] at h ⊢
    cases hn : (n.emit space p).failure with
    | some e' =>
      simp only [Emission.andThen, hn] at h ⊢
      exact ⟨0, n, rfl, hn.trans h, by simp, by simp⟩
    | none =>
      simp only [Emission.andThen, hn] at h ⊢
      obtain ⟨k, c, hc, hfail, hbefore, hall⟩ := ih h
      refine ⟨k + 1, c, by simpa using hc, hfail, fun b hb => ?_, ?_⟩
      · rw [List.take_succ_cons] at hb
        rcases List.mem_cons.1 hb with rfl | hb
        · exact hn
        · exact hbefore b hb
      · rw [hall, List.take_succ_cons, List.flatMap_cons, List.append_assoc]

/-- **What a failed emission leaves behind**: the subtrees to the left of the way to the first
defect, each of them complete. -/
theorem exists_firstDefect (h : (n.emit space p).failure = some e) :
    ∃ π, n.FirstDefect p π e ∧
      (∀ x ∈ n.leftOf space π, (x.2.emit x.1 p).failure = none) ∧
      (n.emit space p).declarations =
        (n.leftOf space π).flatMap fun x => (x.2.emit x.1 p).declarations := by
  induction n using recChildren generalizing space with
  | node n ih =>
    cases hdefect : n.defect? p with
    | some e' =>
      rw [emit_of_defect hdefect] at h ⊢
      cases h
      exact ⟨[], .root hdefect, nofun, rfl⟩
    | none =>
      -- The node itself is in order, so the failure is that of a subtree, and the node never gets
      -- to its own declarations.
      obtain ⟨own, hown⟩ := emit_of_sound space hdefect
      have hfail : (emitAll (n.inside space) p n.children).failure = some e := by
        rw [hown, Emission.failure_andThen] at h
        exact (Option.or_none).symm.trans h
      obtain ⟨k, c, hc, hfailc, hbefore, hall⟩ := exists_of_failure_emitAll hfail
      obtain ⟨π, hfirst, hleft, hdecls⟩ := ih c (List.mem_of_getElem? hc) hfailc
      have hleftOf : n.leftOf space (k :: π) =
          (n.children.take k).map (n.inside space, ·) ++ c.leftOf (n.inside space) π := by
        rw [leftOf, hc]
        rfl
      refine ⟨k :: π, hfirst.child hdefect hc fun b hb => ?_, fun x hx => ?_, ?_⟩
      · exact failure_emit_eq_none_iff.1 (hbefore b hb)
      · rw [hleftOf] at hx
        rcases List.mem_append.1 hx with hx | hx
        · obtain ⟨b, hb, rfl⟩ := List.mem_map.1 hx
          exact hbefore b hb
        · exact hleft x hx
      · have hcut : (n.emit space p).declarations =
            (emitAll (n.inside space) p n.children).declarations := by
          rw [hown, Emission.andThen, hfail]
        rw [hcut, hall, hdecls, hleftOf, List.flatMap_append, List.flatMap_map]

/-! ## Compiling -/

/-- **Success, error and partial output of a compilation.** It succeeds exactly when no part of the
tree is at fault, and fails with the first defect in preorder. The first defect has one position,
and what was written before it are the lines of the subtrees to the left of the way there, all of
them complete. -/
theorem compile_characterized (n : Node) (space : Space) (p : Property) (l : Listing) :
    ((n.compile space p l).2 = none ↔ ∀ m ∈ n.parts, m.defect? p = none) ∧
    (n.compile space p l).2 = n.parts.findSome? (defect? p) ∧
    ((∃ m ∈ n.parts, m.defect? p ≠ none) → ∃ π e, n.FirstDefect p π e) ∧
    ∀ π e, n.FirstDefect p π e →
      (∀ x ∈ n.leftOf space π, (x.2.compile x.1 p .empty).2 = none) ∧
      n.compile space p l =
        (l.writeAll ((n.leftOf space π).flatMap fun x => (x.2.compile x.1 p .empty).1.lines),
          some e) := by
  refine ⟨failure_emit_eq_none_iff, failure_emit_eq n space p, fun hdefect => ?_,
    fun π e hfirst => ?_⟩
  · obtain ⟨m, hm, hne⟩ := hdefect
    obtain ⟨e, he⟩ := exists_failure_emit .world hm hne
    obtain ⟨π, hfirst, -⟩ := exists_firstDefect he
    exact ⟨π, e, hfirst⟩
  · obtain ⟨m, hm, hdefect⟩ := Option.bind_eq_some_iff.1 hfirst.defective
    obtain ⟨e', he⟩ := exists_failure_emit space (mem_parts_of_at? hm)
      (Option.ne_none_iff_exists'.2 ⟨e, hdefect⟩)
    obtain ⟨π', hfirst', hleft, hdecls⟩ := exists_firstDefect he
    obtain ⟨rfl, rfl⟩ := hfirst.unique hfirst'
    refine ⟨hleft, ?_⟩
    simp only [lines_compile_empty]
    rw [compile, Emission.writeTo, hdecls, List.map_flatMap, he]

/-- A tree that no builder makes: its distance fails at the leaf that has only a color, although an
operator further on has no operands at all. -/
def wreck : Node :=
  .operator 9 .cut (.raw "k")
    [.operator 2 .union (.raw "k") [.shape 0 (.ground (.raw "a")) .standard,
        .transform (.translate (.raw "o")) (.shape 1 (.ground (.raw "b")) .standard)],
      .transform (.translate (.raw "u")) (.operator 5 .difference (.raw "k")
        [.shape 4 (.ground (.raw "c")) .standard, .material 3 .standard,
          .operator 7 .union (.raw "k") []])]

/-- Compiling the distance of `wreck` leaves the union and the shape before the leaf, by
`compile_characterized`. -/
theorem compile_characterized_wreck :
    wreck.FirstDefect .sdf [1, 0, 1] (.unsupportedProperty .sdf) ∧
    (∃ π e, wreck.FirstDefect .color π e) ∧
    wreck.compile .world .sdf ⟨["vec3 p = point;"], 1⟩ =
      (⟨["vec3 p = point;", "\tfloat sdf0 = dot(point - vec3(0.0, 0.0, 0.0), (a));",
          "\tfloat sdf1 = dot(point - (vec3(0.0, 0.0, 0.0) + (o)), (b));",
          "\tfloat sdf3 = smin(sdf0, sdf1, (k));", "\tfloat sdf2 = sdf3;",
          "\tfloat sdf4 = dot(point - (vec3(0.0, 0.0, 0.0) + (u)), (c));"], 1⟩,
        some (.unsupportedProperty .sdf)) := by
  have hfirst : wreck.FirstDefect .sdf [1, 0, 1] (.unsupportedProperty .sdf) :=
    .child rfl rfl (by decide) (.child rfl rfl nofun (.child rfl rfl (by decide) (.root rfl)))
  have hcolor := (compile_characterized wreck .world .color .empty).2.2.1
    ⟨.operator 7 .union (.raw "k") [], by simp [wreck, parts, partsAll], nofun⟩
  obtain ⟨-, -, -, hlines⟩ :=
    compile_characterized wreck .world .sdf ⟨["vec3 p = point;"], 1⟩
  exact ⟨hfirst, hcolor, (hlines _ _ hfirst).2.trans (by decide +kernel)⟩

end Node

end FieldShader
