import FieldShader.Proofs.Scene.Dependence
import FieldShader.Proofs.Scene.Outline

/-!
# Repainting

Repainting rebuilds a whole tree to give every leaf the same material. `Node.repaint_only_paints`
says that this is all it does: the new tree is the old one up to materials, so whatever does not
look at materials is the same for both, and what does look at them changes at the leaves. The
entries of the new tree are those of the old one with the new material in those about leaves
(`Node.entries_repaint`), which is what the lines of its colors are read from.

A material that was given is described even when it is equal to the standard one, so a description
tells the two apart after repainting.
-/

namespace FieldShader

namespace TreeEntry

/-- The entry of a tree that was given a material. -/
def repainted (finish : Finish) : TreeEntry → TreeEntry := mapLeaf id fun _ => finish

@[simp] theorem repainted_inside (finish : Finish) (mapping : Mapping) (e : TreeEntry) :
    (e.inside mapping).repainted finish = (e.repainted finish).inside mapping := by
  cases e <;> rfl

/-- The line of a leaf has the color of the material that was given. -/
theorem line_color_repainted {e : TreeEntry} {path : List Mapping} {leaf : Node}
    (h : e.leaf? = some (path, leaf)) (finish : Finish) (space : Space) :
    (e.repainted finish).line space .color =
      .ok ⟨.numbered .color leaf.id, finish.material.color.toExpr⟩ := by
  cases e with
  | shape | material =>
    cases h
    rfl
  | short | step | result => cases h

/-- A material that was given does not decide whether there is a line. -/
theorem lineRel_repainted (e : TreeEntry) (finish : Finish) (space : Space) (p : Property) :
    Emission.LineRel (fun _ _ => True) (· = ·) ((e.repainted finish).line space p)
      (e.line space p) := by
  cases e with
  | shape => cases p <;> exact .ok trivial
  | material =>
    cases p with
    | sdf | normal => exact .error rfl
    | color => exact .ok trivial
  | short => exact .error rfl
  | step | result => exact .ok trivial

end TreeEntry

namespace Description

/-- The primitive of a shape and the material that was given with it. -/
def shape? : Description → Option (Primitive × Option Material)
  | .shape primitive given => some (primitive, given)
  | .material .. | .translate .. | .operator .. => none

/-- The shapes of a description, in order. -/
def shapes (d : Description) : List (Primitive × Option Material) := d.parts.filterMap shape?

end Description

namespace Node

/-- The primitive of a shape. -/
def primitive? : Node → Option Primitive
  | .shape _ primitive _ => some primitive
  | .material .. | .transform .. | .operator .. => none

/-- The primitives of a tree, in order. -/
def primitives (n : Node) : List Primitive := n.parts.filterMap primitive?

/-! ## The repainted tree -/

/-- Repainting keeps the identifier of a tree. -/
@[simp] theorem id_repaint (finish : Finish) (n : Node) : (n.repaint finish).id = n.id := by
  induction n using recTree with
  | shape | material | operator => simp [repaint, id]
  | transform mapping child ih => simpa [repaint, id] using ih

/-- **A repainted tree is the tree up to materials.** -/
theorem alike_repaint (finish : Finish) (n : Node) : (n.repaint finish).Alike .shaped n := by
  induction n using recTree with
  | shape => exact .shape rfl trivial
  | material => exact .material trivial
  | transform mapping child ih => exact .transform ih
  | operator id kind smoothing children ih =>
    rw [repaint, repaintAll_eq_map]
    exact .operator rfl rfl (List.forall₂_map_left_iff.2 (List.forall₂_same.2 ih))

/-- **The entries about leaves have the new material**, and the others stay. -/
theorem entries_repaint (finish : Finish) (n : Node) :
    (n.repaint finish).entries = n.entries.map (TreeEntry.repainted finish) := by
  induction n using recTree with
  | shape | material => rfl
  | transform mapping child ih =>
    rw [repaint, entries, ih, entries, List.map_map, List.map_map]
    exact List.map_congr_left fun e _ => (e.repainted_inside finish mapping).symm
  | operator id kind smoothing children ih =>
    rw [repaint, repaintAll_eq_map]
    exact entries_operator_map (fun c _ => c.id_repaint finish) ih id kind smoothing

/-- The second of two materials is the one that stays. -/
theorem repaint_repaint (a b : Finish) (n : Node) : (n.repaint a).repaint b = n.repaint b := by
  induction n using recTree with
  | shape | material => rfl
  | transform mapping child ih => rw [repaint, repaint, ih, repaint]
  | operator id kind smoothing children ih =>
    have hchildren : (children.map (repaint a)).map (repaint b) = children.map (repaint b) := by
      rw [List.map_map]
      exact List.map_congr_left ih
    rw [repaint, repaint, repaint, repaintAll_eq_map, repaintAll_eq_map, repaintAll_eq_map,
      hchildren]

/-- Repainting keeps the variables of a tree. -/
theorem declared_repaint (finish : Finish) (n : Node) (p : Property) :
    (n.repaint finish).declared p = n.declared p := by
  induction n using recTree with
  | shape | material => rfl
  | transform mapping child ih => exact ih
  | operator id kind smoothing children ih =>
    rw [repaint, declared, declared, repaintAll_eq_map, List.length_map, declaredAll_eq_flatMap,
      declaredAll_eq_flatMap, List.flatMap_map, List.flatMap_congr ih]

/-- The number of nodes of several trees, in the natural form. -/
theorem countAll_eq_sum (ns : List Node) : countAll ns = (ns.map count).sum := by
  induction ns with
  | nil => rfl
  | cons n ns ih => rw [countAll, List.map_cons, List.sum_cons, ih]

/-- Repainting keeps the number of nodes. -/
theorem count_repaint (finish : Finish) (n : Node) : (n.repaint finish).count = n.count := by
  induction n using recTree with
  | shape | material => rfl
  | transform mapping child ih => rw [repaint, count, count, ih]
  | operator id kind smoothing children ih =>
    have hcounts : (children.map (repaint finish)).map count = children.map count := by
      rw [List.map_map]
      exact List.map_congr_left ih
    rw [repaint, count, count, repaintAll_eq_map, countAll_eq_sum, countAll_eq_sum, hcounts]

/-- The parts of a repainted tree are the repainted parts. -/
theorem parts_repaint (finish : Finish) (n : Node) :
    (n.repaint finish).parts = n.parts.map (repaint finish) := by
  induction n using recTree with
  | shape | material => rfl
  | transform mapping child ih => rw [repaint, parts, ih, parts, List.map_cons, repaint]
  | operator id kind smoothing children ih =>
    rw [repaint, repaintAll_eq_map, parts, parts, List.map_cons, repaint, repaintAll_eq_map,
      partsAll_eq_flatMap, partsAll_eq_flatMap, List.flatMap_map, List.map_flatMap,
      List.flatMap_congr ih]

/-! ## Descriptions and colors -/

/-- The shapes of a repainted tree are described with the material if it was given. -/
theorem shapes_describe_repaint (finish : Finish) (n : Node) :
    (n.repaint finish).describe.shapes = n.primitives.map fun g => (g, finish.custom?) := by
  rw [Description.shapes, parts_describe, parts_repaint, List.map_map, List.filterMap_map,
    primitives, List.map_filterMap]
  refine List.filterMap_congr fun m _ => ?_
  cases m with
  | shape | material | operator => rfl
  | transform mapping child =>
    obtain ⟨offset⟩ := mapping
    rfl

variable {n : Node} {space : Space}

/-- Repainting keeps whether a property is complete, and how far it goes if it is not. -/
theorem emit_repaint (finish : Finish) (n : Node) (space : Space) (p : Property) :
    ((n.repaint finish).emit space p).declarations.length = (n.emit space p).declarations.length ∧
      ((n.repaint finish).emit space p).failure = (n.emit space p).failure := by
  have hlines : List.Forall₂ (Emission.LineRel (fun _ _ => True) (· = ·))
      ((n.repaint finish).entries.map (TreeEntry.line space p))
      (n.entries.map (TreeEntry.line space p)) := by
    rw [entries_repaint, List.map_map, List.forall₂_map_left_iff, List.forall₂_map_right_iff]
    exact List.forall₂_same.2 fun e _ => e.lineRel_repainted finish space p
  obtain ⟨hdeclarations, hfailure⟩ := Emission.forall₂_ofLines hlines
  rw [← emit_eq_ofLines, ← emit_eq_ofLines] at hdeclarations hfailure
  exact ⟨hdeclarations.length_eq, eq_of_option_rel hfailure⟩

/-- The color of an entry after repainting: a leaf has the new one. -/
theorem render_color_repainted {e : TreeEntry} {finish : Finish} {d d' : Declaration}
    (hd : e.line space .color = .ok d) (hd' : (e.repainted finish).line space .color = .ok d') :
    d'.render = match e.leaf? with
      | some (_, leaf) =>
        "vec3 color" ++ toString leaf.id ++ " = " ++ finish.material.color.render ++ ";"
      | none => d.render := by
  cases hleaf : e.leaf? with
  | none =>
    rw [TreeEntry.repainted, TreeEntry.mapLeaf_eq_self hleaf] at hd'
    rw [Except.ok.inj (hd'.symm.trans hd)]
  | some x =>
    obtain ⟨path, leaf⟩ := x
    rw [TreeEntry.line_color_repainted hleaf] at hd'
    obtain rfl := Except.ok.inj hd'
    rfl

/-- **Repainting changes materials and nothing else.** The new tree is the old one up to materials:
its distances and normals, the names of its variables and the number of its nodes are the same. Its
color ends like that of the old tree after as many lines; the line of every leaf has the new color,
and the others are what they were. The last of two materials is the one that stays. In a description
the shapes have no material if they were given the standard one, and any other one, equal or not, on
every shape. -/
theorem repaint_only_paints (n : Node) (a b : Finish) :
    (n.repaint a).Alike .shaped n ∧
    (∀ space, ∀ p ≠ .color, ∀ l, (n.repaint a).compile space p l = n.compile space p l) ∧
    (∀ p, (n.repaint a).declaredNames p = n.declaredNames p) ∧
    (n.repaint a).count = n.count ∧
    (∀ space l, ((n.repaint a).compile space .color l).2 = (n.compile space .color l).2 ∧
      ∃ lines lines' : List String,
        (n.compile space .color l).1.lines = l.lines ++ lines.map (indent l.depth) ∧
        ((n.repaint a).compile space .color l).1.lines =
          l.lines ++ lines'.map (indent l.depth) ∧
        lines'.length = lines.length ∧
        ∀ (i : Nat) (e : TreeEntry) (line line' : String),
          n.entries[i]? = some e → lines[i]? = some line → lines'[i]? = some line' →
          line' = match e.leaf? with
            | some (_, leaf) =>
              "vec3 color" ++ toString leaf.id ++ " = " ++ a.material.color.render ++ ";"
            | none => line) ∧
    (n.repaint a).repaint b = n.repaint b ∧
    (n.repaint .standard).describe.shapes = n.primitives.map (fun g => (g, none)) ∧
    ∀ m, (n.repaint (.custom m)).describe.shapes = n.primitives.map fun g => (g, some m) := by
  refine ⟨n.alike_repaint a, fun space p hp l => ?_, fun p => ?_, n.count_repaint a,
    fun space l => ?_, n.repaint_repaint a b, n.shapes_describe_repaint .standard,
    fun m => n.shapes_describe_repaint (.custom m)⟩
  · rw [compile, compile, (n.alike_repaint a).emit_eq hp]
  · rw [declaredNames, declaredNames, declared_repaint]
  · obtain ⟨hlength, hfailure⟩ := n.emit_repaint a space .color
    refine ⟨hfailure, (n.emit space .color).declarations.map Declaration.render,
      ((n.repaint a).emit space .color).declarations.map Declaration.render,
      n.lines_compile_eq_append space .color l,
      (n.repaint a).lines_compile_eq_append space .color l, ?_, ?_⟩
    · rw [List.length_map, List.length_map, hlength]
    · intro i e line line' he hline hline'
      obtain ⟨e₁, d, he₁, hd, rfl⟩ := exists_entry hline
      obtain ⟨e₂, d', he₂, hd', rfl⟩ := exists_entry hline'
      obtain rfl := Option.some_inj.1 (he.symm.trans he₁)
      rw [entries_repaint, List.getElem?_map, he] at he₂
      obtain rfl := Option.some_inj.1 he₂
      exact render_color_repainted hd hd'

/-- An intersection that is moved, with a leaf that has only a color. -/
def mast : Node :=
  .transform (.translate .up) (.operator 3 .cut (.raw "k")
    [.shape 0 (.sphere (.raw "r")) .standard, .material 1 (.custom ⟨.raw "c"⟩),
      .shape 2 (.ground .up) (.custom ⟨.raw "d"⟩)])

/-- The material of `mast` replaced by one that is equal to the standard one, by
`repaint_only_paints`: a leaf becomes white and a step stays, and both shapes are described with
their material. The distances fail as they did, since one leaf has none. -/
theorem repaint_only_paints_mast :
    (mast.repaint (.custom .white)).compile .world .sdf .empty =
      mast.compile .world .sdf .empty ∧
    (mast.repaint (.custom .white)).declaredNames .sdf = ["sdf0", "sdf2", "sdf4", "sdf5", "sdf3"] ∧
    (∃ lines lines' : List String,
      (mast.compile .world .color .empty).1.lines = lines.map (indent 0) ∧
      ((mast.repaint (.custom .white)).compile .world .color .empty).1.lines =
        lines'.map (indent 0) ∧
      ∀ line line', lines[1]? = some line → lines'[1]? = some line' →
        line' = "vec3 color1 = vec3(1.0, 1.0, 1.0);") ∧
    (mast.repaint (.custom .white)).describe.shapes =
      [(.sphere (.raw "r"), some .white), (.ground .up, some .white)] ∧
    (mast.repaint .standard).describe.shapes =
      [(.sphere (.raw "r"), none), (.ground .up, none)] := by
  obtain ⟨-, hcompile, hnames, -, hcolor, -, hstandard, hcustom⟩ :=
    repaint_only_paints mast (.custom .white) .standard
  obtain ⟨-, lines, lines', hlines, hlines', -, hline⟩ := hcolor .world .empty
  refine ⟨hcompile .world .sdf nofun .empty, (hnames .sdf).trans (by decide +kernel),
    ⟨lines, lines', hlines, hlines', fun line line' h h' => ?_⟩, hcustom .white, hstandard⟩
  have hwhite : "vec3 color" ++ toString (1 : Nat) ++ " = " ++ Material.white.color.render ++ ";" =
      "vec3 color1 = vec3(1.0, 1.0, 1.0);" := by decide +kernel
  exact (hline 1 _ line line' rfl h h').trans hwhite

end Node

end FieldShader
