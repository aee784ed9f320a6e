import FieldShader.Proofs.Scene.Outline
import FieldShader.Proofs.Scene.Reads
import Mathlib.Data.List.Rotate

/-!
# From the allocator to the lines

Identifiers are taken in one recursion and spelled out in another. Building takes a block for every
leaf and every operator, the blocks lie one after the other (`Node.blocks`), and together they are
everything between the allocator before the build and the one after it (`Description.ids_of_build`).
Emitting declares a variable for every identifier of a block, but in another order: an operator's
own identifier is the first of its block and is declared last, after those of the steps, so every
block is rotated by one (`Node.declared_eq_rotated`).

`Description.emits_allocated` puts the two together: no identifier is lost or used twice between the
allocator and the text.
-/

namespace FieldShader

namespace Node

variable {n : Node} {space : Space} {p : Property}

/-! ## Blocks of a tree -/

mutual

/-- The blocks of identifiers of the leaves and operators of a tree, operands first. -/
def blocks : Node → List (List Nat)
  | .shape id _ _ | .material id _ => [[id]]
  | .transform _ child => child.blocks
  | .operator id _ _ operands => blocksAll operands ++ [List.range' id operands.length]

/-- The blocks of several trees. -/
def blocksAll : List Node → List (List Nat)
  | [] => []
  | n :: ns => n.blocks ++ blocksAll ns

end

/-- The blocks of several trees, in the natural form. -/
theorem blocksAll_eq_flatMap (ns : List Node) : blocksAll ns = ns.flatMap blocks := by
  induction ns with
  | nil => rfl
  | cons n ns ih => rw [blocksAll, List.flatMap_cons, ih]

/-- The blocks make up the identifiers of the tree, in order. -/
theorem flatten_blocks (n : Node) : n.blocks.flatten = n.ids := by
  induction n using recTree with
  | shape | material => rfl
  | transform mapping child ih => exact ih
  | operator id kind smoothing operands ih =>
    rw [blocks, List.flatten_append, List.flatten_singleton, blocksAll_eq_flatMap, ids_operator,
      idsAll_eq_flatMap]
    congr 1
    rw [← List.flatMap_id, List.flatMap_assoc]
    refine List.flatMap_congr fun c hc => ?_
    rw [List.flatMap_id, ih c hc]

/-- The identifiers of the blocks, each block rotated by one. -/
def rotated (n : Node) : List Nat := n.blocks.flatMap (·.rotate 1)

/-- Rotating the blocks only changes the order. -/
theorem rotated_perm (n : Node) : n.rotated.Perm n.ids := by
  rw [← flatten_blocks, ← List.flatMap_id]
  exact List.Perm.flatMap_left _ fun block _ => block.rotate_perm 1

/-- The block of an operator, rotated: its steps, and then itself. -/
theorem rotate_range' {id k : Nat} (h : k ≠ 0) : (List.range' id k).rotate 1 =
    ((List.range (k - 1)).map fun step => id + 1 + step) ++ [id] := by
  obtain ⟨k, rfl⟩ := Nat.exists_eq_succ_of_ne_zero h
  rw [Nat.succ_eq_add_one, List.range'_succ, List.rotate_cons_succ, List.rotate_zero,
    List.range'_eq_map_range, Nat.add_sub_cancel]

/-- **An emission that is complete declares the rotated blocks.** -/
theorem declared_eq_rotated (h : (n.emit space p).failure = none) :
    n.declared p = n.rotated.map (.numbered p) := by
  induction n using recTree generalizing space with
  | shape id primitive finish => simp [declared, rotated, blocks]
  | material id finish =>
    cases p with
    | color => simp [declared, rotated, blocks]
    | sdf | normal => cases h
  | transform mapping child ih => exact @ih (space.push mapping) h
  | operator id kind smoothing operands ih =>
    obtain ⟨harity, hoperands⟩ := failure_emit_operator h
    have hchildren : declaredAll p operands =
        (operands.flatMap rotated).map (.numbered p) := by
      rw [declaredAll_eq_flatMap, List.map_flatMap]
      exact List.flatMap_congr fun c hc => ih c hc (hoperands c hc)
    have hown : (operator id kind smoothing operands).rotated =
        operands.flatMap rotated ++ (List.range' id operands.length).rotate 1 := by
      rw [rotated, blocks, List.flatMap_append, List.flatMap_singleton, blocksAll_eq_flatMap,
        List.flatMap_assoc]
      rfl
    rw [declared, hchildren, hown, rotate_range' (by omega), List.map_append, List.map_append,
      List.map_map, List.append_assoc]
    rfl

end Node

namespace Description

variable {d : Description} {a a' : Allocator} {n : Node}

/-! ## Identifiers that a build takes -/

/-- The identifiers are the `count` ones that were taken between two allocators, in order. -/
def Consecutive (ids : List Nat) (count : Nat) (a a' : Allocator) : Prop :=
  a'.next = a.next + count ∧ ids = List.range' a.next count

/-- Consecutive identifiers after consecutive ones. -/
theorem Consecutive.append {a₁ : Allocator} {xs ys : List Nat} {j k : Nat}
    (hx : Consecutive xs j a a₁) (hy : Consecutive ys k a₁ a') :
    Consecutive (xs ++ ys) (j + k) a a' := by
  obtain ⟨hnext, rfl⟩ := hx
  obtain ⟨hnext', rfl⟩ := hy
  refine ⟨by omega, ?_⟩
  rw [hnext, List.range'_append_1]

/-- A leaf owns the identifier that building it takes. -/
theorem ids_of_leaf {leaf : Nat → Node} (hids : ∀ id, (leaf id).ids = [id])
    (h : (do return leaf (← Build.reserve 1) : Build Node) a = .ok n a') :
    Consecutive n.ids 1 a a' := by
  obtain ⟨id, a₁, hreserve, h⟩ := Build.bind_eq_ok.1 h
  obtain ⟨rfl, rfl⟩ := Build.pure_eq_ok.1 h
  obtain ⟨-, -, rfl, hnext⟩ := Build.reserve_eq_ok.1 hreserve
  exact ⟨hnext, hids _⟩

/-- Several scenes own what building them takes, if each of them does. -/
theorem ids_of_buildAll {ds : List Description} {ns : List Node}
    (ih : ∀ d ∈ ds, ∀ {a a' : Allocator} {n : Node}, d.build a = .ok n a' →
      Consecutive n.ids d.size a a')
    (h : buildAll ds a = .ok ns a') :
    Consecutive (Node.idsAll ns) (ds.map size).sum a a' := by
  induction ds generalizing a ns with
  | nil =>
    obtain ⟨rfl, rfl⟩ := Build.pure_eq_ok.1 h
    exact ⟨rfl, rfl⟩
  | cons d ds ihds =>
    rw [buildAll] at h
    obtain ⟨n, a₁, h₁, h⟩ := Build.bind_eq_ok.1 h
    obtain ⟨ms, a₂, h₂, h⟩ := Build.bind_eq_ok.1 h
    obtain ⟨rfl, rfl⟩ := Build.pure_eq_ok.1 h
    exact (ih d List.mem_cons_self h₁).append
      (ihds (fun d hd => ih d (List.mem_cons_of_mem _ hd)) h₂)

/-- **A scene owns what building it takes**, all of it and in order. -/
theorem ids_of_build (h : d.build a = .ok n a') : Consecutive n.ids d.size a a' := by
  induction d using recTree generalizing a a' n with
  | shape primitive given =>
    exact ids_of_leaf (fun id => Node.ids_shape id primitive _) h
  | material color => exact ids_of_leaf (fun id => Node.ids_material id _) h
  | translate offset child ih =>
    obtain ⟨m, a₁, h₁, h⟩ := Build.bind_eq_ok.1 h
    obtain ⟨rfl, rfl⟩ := Build.pure_eq_ok.1 h
    rw [Node.translate, Node.ids_transform, size_translate]
    exact ih h₁
  | operator kind smoothing operands ih =>
    rw [build] at h
    split at h
    · exact absurd h Build.throw_ne_ok
    · obtain ⟨ns, a₁, h₁, h₂⟩ := Build.bind_eq_ok.1 h
      have hlength : ns.length = operands.length :=
        (buildAll_forest (fun d _ => build_forest) h₁).1
      obtain ⟨-, rfl, hnext⟩ := Build.operator_eq_ok h₂
      rw [Node.ids_operator, size_operator, hlength]
      exact (ids_of_buildAll (fun d hd => ih d hd) h₁).append ⟨by omega, rfl⟩

/-! ## Identifiers on the lines -/

end Description

/-- A scene is solid when no leaf of its description has only a color. -/
theorem Node.solid_iff_describe (n : Node) :
    n.Solid ↔ ∀ m ∈ n.describe.parts, ∀ color, m ≠ .material color := by
  have hpart (m : Node) : m.category ≠ .material ↔ ∀ color, m.describe ≠ .material color := by
    cases m with
    | shape | operator => exact iff_of_true nofun fun _ => nofun
    | material id finish => exact iff_of_false (· rfl) fun h => h _ rfl
    | transform mapping child =>
      obtain ⟨offset⟩ := mapping
      exact iff_of_true nofun fun _ => nofun
  rw [parts_describe, List.forall_mem_map]
  exact forall₂_congr fun m _ => hpart m

namespace Description

/-- **No identifier is lost or used twice** between allocation and emission. Let building a
description move the allocator. It moves by one for every leaf and by the number of operands for
every operator, and everything between is in the blocks of the scene, one after the other. The color
of the scene can be compiled, and its distance and its normal exactly when no leaf has only a color.
The lines of a property that can be compiled declare these identifiers, every block rotated by one:
each of them once, and no other. -/
theorem emits_allocated {d : Description} {a a' : Allocator} {n : Node}
    (h : d.build a = .ok n a') :
    a'.next = a.next + (d.parts.countP isLeaf + (d.parts.map arity).sum) ∧
    n.blocks.flatten = List.range' a.next (a'.next - a.next) ∧
    ∀ space p l,
      ((n.compile space p l).2 = none ↔
        p = .color ∨ ∀ m ∈ d.parts, ∀ color, m ≠ .material color) ∧
      ((n.compile space p l).2 = none →
        n.lineNames space p = (n.blocks.flatMap (·.rotate 1)).map (p.tag ++ toString ·) ∧
        ∀ i, (n.lineNames space p).count (p.tag ++ toString i) =
          if a.next ≤ i ∧ i < a'.next then 1 else 0) := by
  obtain ⟨hnext, hids⟩ := ids_of_build h
  refine ⟨by rw [hnext, size_eq], ?_, fun space p l => ⟨?_, fun hok => ?_⟩⟩
  · rw [n.flatten_blocks, hids, hnext, Nat.add_sub_cancel_left]
  · rw [← describe_of_build h, ← n.solid_iff_describe]
    exact (build_forest h).head.1.complete_iff space p
  · have hnames : n.lineNames space p = n.rotated.map (p.tag ++ toString ·) := by
      rw [Node.lineNames_eq, (n.emit_declares space p).complete hok, Node.declared_eq_rotated hok,
        List.map_map]
      rfl
    have hinj : Function.Injective fun i : Nat => p.tag ++ toString i := fun i j hij => by
      have hname : (Variable.numbered p i).name = (Variable.numbered p j).name := hij
      cases Variable.name_injective hname
      rfl
    have hnodup : n.rotated.Nodup := by
      rw [n.rotated_perm.nodup_iff, hids]
      exact List.nodup_range'
    refine ⟨hnames, fun i => ?_⟩
    rw [hnames, (hnodup.map hinj).count]
    refine if_congr ?_ rfl rfl
    rw [List.mem_map_of_injective hinj, n.rotated_perm.mem_iff, hids, List.mem_range'_1, hnext]

/-- An operator over an operator and a moved one. -/
def terraced : Description :=
  .operator .union (.raw "k") [
    .operator .cut (.raw "k") [.shape (.ground .up) none, .material (.raw "c"),
      .shape (.ground .up) none],
    .translate .up (.operator .difference (.raw "k") [.material (.raw "d"), .material (.raw "e")])]

/-- The color of `terraced`, built from the identifier three on, by `emits_allocated`. -/
theorem emits_allocated_terraced : ∃ n a', terraced.build { next := 3 } = .ok n a' ∧
    n.blocks = [[3], [4], [5], [6, 7, 8], [9], [10], [11, 12], [13, 14]] ∧
    (n.compile .world .sdf .empty).2 ≠ none ∧
    n.lineNames .world .color = ["color3", "color4", "color5", "color7", "color8", "color6",
      "color9", "color10", "color12", "color11", "color14", "color13"] := by
  obtain ⟨n, a', h⟩ : ∃ n a', terraced.build { next := 3 } = .ok n a' := ⟨_, _, rfl⟩
  obtain ⟨-, -, hlines⟩ := emits_allocated h
  obtain ⟨hsdf, -⟩ := hlines .world .sdf .empty
  obtain ⟨hcolor, hnames⟩ := hlines .world .color .empty
  refine ⟨n, a', h, ?_, fun hnone => ?_, ?_⟩
  · cases h
    rfl
  · rcases hsdf.1 hnone with hp | hsolid
    · cases hp
    · exact hsolid (.material (.raw "c")) (by simp [terraced, parts, partsAll]) _ rfl
  · rw [(hnames (hcolor.2 (.inl rfl))).1]
    cases h
    decide +kernel

end Description

end FieldShader
