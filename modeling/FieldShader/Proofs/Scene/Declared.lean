import FieldShader.Proofs.Glsl.Names
import FieldShader.Proofs.Scene.Numbering
import FieldShader.Scene.Compile
import Mathlib.Data.List.Perm.Basic

/-!
# The variables that an emission declares

`Node.declared` lists the variables of a tree without emitting anything. `Node.emit_declares` ties
the two recursions together: an emission that succeeds declares exactly these variables in this
order, and one that fails declares the first few of them. Both cases matter, since what is written
before a failure stays written.

For a numbered tree the declared variables are, up to order, its identifiers under the tag of the
property (`Node.Numbered.declared_subperm`), so no variable is declared twice
(`Node.Numbered.declared_nodup`). `Node.lineNames` are the same variables as they are read off the
emitted text, and `Node.published` are the declarations that a whole property is the text of.
-/

namespace FieldShader

/-- A line at depth zero is the line. -/
@[simp] theorem indent_zero (line : String) : indent 0 line = line := by simp [indent]

namespace Emission

/-- The variables that the emission declares, in order. -/
def targets (e : Emission) : List Variable := e.declarations.map Declaration.target

/-- The emission declares the given variables in order: all of them if it succeeds, and the first
few if it fails. -/
structure Declares (e : Emission) (vs : List Variable) : Prop where
  initial : e.targets <+: vs
  complete : e.failure = none → e.targets = vs

namespace Declares

variable {first second : Emission} {vs ws : List Variable}

/-- Nothing is declared by a failure alone. -/
theorem fail (e : CompileError) (vs : List Variable) : (Emission.fail e).Declares vs :=
  ⟨List.nil_prefix, nofun⟩

/-- A complete emission declares its targets. -/
theorem ok (ds : List Declaration) :
    (Emission.ok ds).Declares (ds.map Declaration.target) :=
  ⟨List.prefix_rfl, fun _ => rfl⟩

/-- In a sequence the variables of the second emission come after those of the first, which are
then complete. -/
theorem andThen (h₁ : first.Declares vs) (h₂ : second.Declares ws) :
    (first.andThen second).Declares (vs ++ ws) := by
  obtain ⟨ds, failure⟩ := first
  cases failure with
  | some e => exact ⟨h₁.initial.trans (List.prefix_append _ _), nofun⟩
  | none =>
    have hall : ds.map Declaration.target = vs := h₁.complete rfl
    have hsplit : (Emission.andThen ⟨ds, none⟩ second).targets = vs ++ second.targets := by
      simp [targets, Emission.andThen, hall]
    refine ⟨?_, fun h => ?_⟩
    · rw [hsplit]
      exact (List.prefix_append_right_inj vs).2 h₂.initial
    · rw [hsplit, h₂.complete h]

end Declares

/-- A sequence succeeds when both parts do. -/
theorem failure_andThen_eq_none {first second : Emission} :
    (first.andThen second).failure = none ↔ first.failure = none ∧ second.failure = none := by
  rw [failure_andThen, Option.or_eq_none_iff]

end Emission

namespace OperatorKind

/-- The steps of an operator are numbered one after the other, and its own variable comes last. -/
theorem targets_steps (kind : OperatorKind) (smoothing : Scalar) (p : Property)
    (id step acc : Nat) (operands : List Nat) :
    (kind.steps smoothing p id step acc operands).map Declaration.target =
      (List.range' step operands.length).map (.numbered p) ++ [.numbered p id] := by
  induction operands generalizing step acc with
  | nil => rfl
  | cons next rest ih =>
    rw [steps, List.map_cons, ih, List.length_cons, List.range'_succ, List.map_cons,
      List.cons_append]

/-- An operator over at least one operand declares its steps and then itself. -/
theorem targets_fold (kind : OperatorKind) (smoothing : Scalar) (p : Property) (id : Nat)
    {operands : List Nat} (h : operands ≠ []) :
    (kind.fold smoothing p id operands).map Declaration.target =
      ((List.range (operands.length - 1)).map fun step => .numbered p (id + 1 + step)) ++
        [.numbered p id] := by
  cases operands with
  | nil => exact absurd rfl h
  | cons first rest =>
    rw [fold, targets_steps, List.range'_eq_map_range, List.map_map]
    rfl

/-- Everything an operator declares is an alias of a step or a step. -/
theorem steps_cases {kind : OperatorKind} {smoothing : Scalar} {p : Property}
    {id step acc : Nat} {operands : List Nat} {d : Declaration}
    (hd : d ∈ kind.steps smoothing p id step acc operands) : (∃ v, d.value = .var v) ∨
      ∃ acc next step, d = ⟨.numbered p step, kind.combine smoothing p acc next step⟩ := by
  induction operands generalizing step acc with
  | nil =>
    rw [List.mem_singleton.1 hd]
    exact .inl ⟨_, rfl⟩
  | cons next rest ih =>
    rcases List.mem_cons.1 hd with rfl | hd
    · exact .inr ⟨acc, next, step, rfl⟩
    · exact ih hd

end OperatorKind

namespace Node

/-- The emissions of several trees declare the variables of the trees, if each of them does. -/
theorem emitAll_declares {space : Space} {p : Property} {ns : List Node}
    (h : ∀ n ∈ ns, (n.emit space p).Declares (n.declared p)) :
    (emitAll space p ns).Declares (declaredAll p ns) := by
  induction ns with
  | nil => exact .ok []
  | cons n ns ih =>
    exact (h n List.mem_cons_self).andThen (ih fun m hm => h m (List.mem_cons_of_mem _ hm))

/-- **The two recursions agree**: what a tree emits for a property declares the variables that the
tree lists for it. -/
theorem emit_declares (n : Node) (space : Space) (p : Property) :
    (n.emit space p).Declares (n.declared p) := by
  induction n using recTree generalizing space with
  | shape id primitive finish => cases p <;> exact .ok [_]
  | material id finish =>
    cases p with
    | color => exact .ok [_]
    | sdf => exact .fail _ _
    | normal => exact .fail _ _
  | transform mapping child ih => exact ih (space.push mapping)
  | operator id kind smoothing children ih =>
    rw [emit, declared]
    split
    · exact .fail _ _
    · rename_i harity
      have hne : children.map Node.id ≠ [] := by
        intro h
        rw [List.map_eq_nil_iff] at h
        simp [h] at harity
      have hfold := Emission.Declares.ok (kind.fold smoothing p id (children.map Node.id))
      rw [OperatorKind.targets_fold _ _ _ _ hne, List.length_map] at hfold
      rw [List.append_assoc]
      exact (emitAll_declares fun c hc => ih c hc space).andThen hfold

/-- A tree that was emitted completely has declared its own variable, and after all others. -/
theorem getLast?_declared {n : Node} {space : Space} {p : Property}
    (h : (n.emit space p).failure = none) : (n.declared p).getLast? = some (n.result p) := by
  induction n using recTree generalizing space with
  | shape id primitive finish => rfl
  | material id finish =>
    cases p with
    | color => rfl
    | sdf => cases h
    | normal => cases h
  | transform mapping child ih => exact @ih (space.push mapping) h
  | operator id kind smoothing children ih =>
    rw [declared]
    exact List.getLast?_concat

/-- A tree that was emitted completely has declared its own variable. -/
theorem result_mem_declared {n : Node} {space : Space} {p : Property}
    (h : (n.emit space p).failure = none) : n.result p ∈ n.declared p :=
  List.mem_of_getLast? (getLast?_declared h)

/-- Its own variable is then among those that the emitted lines declare. -/
theorem result_mem_targets {n : Node} {space : Space} {p : Property}
    (h : (n.emit space p).failure = none) : n.result p ∈ (n.emit space p).targets := by
  rw [(n.emit_declares space p).complete h]
  exact result_mem_declared h

/-- Operands that were emitted completely have declared their own variables. -/
theorem result_mem_targets_emitAll {space : Space} {p : Property} {ns : List Node} {n : Node}
    (h : (emitAll space p ns).failure = none) (hok : (n.emit space p).failure = none)
    (hn : n ∈ ns) : n.result p ∈ (emitAll space p ns).targets := by
  rw [(emitAll_declares fun m _ => m.emit_declares space p).complete h, declaredAll_eq_flatMap]
  exact List.mem_flatMap.2 ⟨n, hn, result_mem_declared hok⟩

section
variable {id : Nat} {kind : OperatorKind} {smoothing : Scalar} {children : List Node}
  {p : Property}

/-- What an operand declares, the operator declares. -/
theorem declared_operand_subset {c : Node} (hc : c ∈ children) :
    c.declared p ⊆ (operator id kind smoothing children).declared p := by
  intro v hv
  rw [declared, declaredAll_eq_flatMap, List.append_assoc]
  exact List.mem_append_left _ (List.mem_flatMap.2 ⟨c, hc, hv⟩)

/-- The steps of an operator, one for every operand after the first, are declared by it. -/
theorem step_mem_declared {step : Nat} (h : step ∈ List.range' (id + 1) (children.length - 1)) :
    .numbered p step ∈ (operator id kind smoothing children).declared p := by
  rw [List.range'_eq_map_range] at h
  obtain ⟨i, hi, rfl⟩ := List.mem_map.1 h
  rw [declared]
  exact List.mem_append_left _ (List.mem_append_right _ (List.mem_map.2 ⟨i, hi, rfl⟩))

end

/-! ## Numbered trees declare nothing twice -/

/-- Sublists up to order, side by side. -/
theorem subperm_flatMap {α β : Type} {l : List α} {f g : α → List β}
    (h : ∀ x ∈ l, (f x).Subperm (g x)) : (l.flatMap f).Subperm (l.flatMap g) := by
  induction l with
  | nil => exact List.Subperm.refl _
  | cons x xs ih =>
    rw [List.flatMap_cons, List.flatMap_cons]
    exact ((List.subperm_append_left _).2
      (ih fun y hy => h y (List.mem_cons_of_mem _ hy))).trans
      ((List.subperm_append_right _).2 (h x List.mem_cons_self))

/-- The declared variables of a numbered tree are among its identifiers, each under the tag of the
property and none more often than it is owned. -/
theorem Numbered.declared_subperm {n : Node} (h : n.Numbered) (p : Property) :
    (n.declared p).Subperm (n.ids.map (.numbered p)) := by
  induction h with
  | shape id primitive finish =>
    rw [declared, ids_shape]
    exact List.Subperm.refl _
  | material id finish =>
    rw [declared, ids_material]
    split
    · exact List.Subperm.refl _
    · exact List.nil_subperm
  | transform mapping _ ih =>
    rw [declared, ids_transform]
    exact ih
  | @operator children id kind smoothing harity _ _ _ ih =>
    have hown : (((List.range (children.length - 1)).map fun step =>
        Variable.numbered p (id + 1 + step)) ++ [Variable.numbered p id]).Perm
          ((List.range' id children.length).map (.numbered p)) := by
      obtain ⟨k, hk⟩ : ∃ k, children.length = k + 1 := ⟨children.length - 1, by omega⟩
      rw [hk, List.range'_succ, List.range'_eq_map_range, List.map_cons, List.map_map]
      exact List.perm_append_singleton _ _
    rw [declared, ids_operator, declaredAll_eq_flatMap, idsAll_eq_flatMap, List.map_append,
      List.map_flatMap, List.append_assoc]
    exact ((List.subperm_append_left _).2 hown.subperm).trans
      ((List.subperm_append_right _).2 (subperm_flatMap ih))

/-- Every declared variable of a numbered tree is made from an identifier it owns. -/
theorem Numbered.mem_ids_of_mem_declared {n : Node} (h : n.Numbered) {p : Property}
    {v : Variable} (hv : v ∈ n.declared p) : ∃ i ∈ n.ids, Variable.numbered p i = v :=
  List.mem_map.1 ((h.declared_subperm p).subset hv)

/-- A numbered tree declares no variable of a property twice. -/
theorem Numbered.declared_nodup {n : Node} (h : n.Numbered) (p : Property) :
    (n.declared p).Nodup := by
  obtain ⟨vs, hperm, hsub⟩ := h.declared_subperm p
  have hinj : Function.Injective (Variable.numbered p) := fun i j hij => by cases hij; rfl
  exact hperm.nodup_iff.1 ((h.nodup.map hinj).sublist hsub)

/-! ## The lines of a property -/

/-- The lines of a property, compiled into an empty listing. -/
@[simp] theorem lines_compile_empty (n : Node) (space : Space) (p : Property) :
    (n.compile space p .empty).1.lines =
      (n.emit space p).declarations.map Declaration.render := by
  simp [compile, Emission.writeTo, Listing.empty]

/-- The names that the lines of a property declare, those before a failure included. -/
def lineNames (n : Node) (space : Space) (p : Property) : List String :=
  (n.compile space p .empty).1.lines.map declaredName

/-- The names on the lines are those of the variables that are declared. -/
theorem lineNames_eq (n : Node) (space : Space) (p : Property) :
    n.lineNames space p = (n.emit space p).targets.map Variable.name := by
  simp [lineNames, Emission.targets]

/-- The declarations of a property in world space and its alias. -/
def published (n : Node) (p : Property) : List Declaration :=
  (n.emit .world p).declarations ++ [.publish p n.id]

/-- The lines of a property that is emitted completely are the renderings of its declarations. -/
theorem compileProperty_eq_ok {n : Node} {p : Property} (hok : (n.emit .world p).failure = none) :
    n.compileProperty p = .ok ((n.published p).map Declaration.render) := by
  simp only [compileProperty, publish, hok]
  rfl

end Node

end FieldShader
