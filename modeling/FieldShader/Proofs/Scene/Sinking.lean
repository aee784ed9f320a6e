import FieldShader.Proofs.Scene.Entries
import FieldShader.Proofs.Scene.Listed

/-!
# Transforms below operators

A transform around an operator moves every operand. `Node.sunk` moves the transforms of a tree below
all operators, so that each leaf is inside exactly those that it was inside before, in the same
order, and no operator is inside any. The tree and its sunken form have the same entries
(`Node.entries_sunk`), and so the same lines.

The entry of a leaf has the mappings on the way from the root to it and no others, and
`Node.compile_sunk` says what becomes of them in the text of the line: the origin is mapped by the
innermost mapping first, and by those of the space around the tree last.
-/

namespace FieldShader

/-! ## The text of a position -/

/-- The image of a position as text. -/
def Mapping.applyText (mapping : Mapping) (position : String) : String :=
  "(" ++ position ++ " + " ++ mapping.argument ++ ")"

/-- The origin inside mappings, the outermost first, as text. -/
def originText (mappings : List Mapping) : String :=
  mappings.foldr Mapping.applyText "vec3(0.0, 0.0, 0.0)"

namespace Primitive

/-- The signed distance of a primitive as text, by that of its origin. -/
def distanceText (origin : String) : Primitive → String
  | .sphere radius => "length(point - " ++ origin ++ ") - " ++ radius.render
  | .plane normal => "abs(dot(point - " ++ origin ++ ", " ++ normal.render ++ "))"
  | .ground normal => "dot(point - " ++ origin ++ ", " ++ normal.render ++ ")"

/-- The surface normal of a primitive as text. Only that of a sphere looks at the origin. -/
def normalText (origin : String) : Primitive → String
  | .sphere _ => "normalize(point - " ++ origin ++ ")"
  | .plane normal | .ground normal => "normalize(" ++ normal.render ++ ")"

end Primitive

namespace Mapping

/-- The text of the image of a position. -/
theorem render_apply (mapping : Mapping) (position : Expr) :
    (mapping.apply position).render = mapping.applyText position.render := by
  cases mapping
  simp [apply, applyText, Expr.render, BinaryOperator.text, argument, Vector.render,
    String.append_assoc]

end Mapping

namespace Space

/-- Positions are mapped by the innermost mapping first. -/
theorem render_apply (space : Space) (position : Expr) : (space.apply position).render =
    space.mappings.reverse.foldr Mapping.applyText position.render := by
  obtain ⟨mappings⟩ := space
  rw [List.foldr_reverse]
  induction mappings generalizing position with
  | nil => rfl
  | cons mapping mappings ih =>
    have hstep := ih (mapping.apply position)
    rw [mapping.render_apply] at hstep
    exact hstep

/-- The mappings of a space come before those that it is entered through. -/
theorem reverse_mappings_enter (space : Space) (path : List Mapping) :
    (space.enter path).mappings.reverse = space.mappings.reverse ++ path := by
  induction path generalizing space with
  | nil => exact (List.append_nil _).symm
  | cons mapping path ih =>
    rw [enter_cons, ih, push, List.reverse_cons, List.append_assoc, List.singleton_append]

/-- The origin of a leaf, from the outermost mapping of the space to its own innermost. -/
theorem render_origin_enter (space : Space) (path : List Mapping) :
    (space.enter path).origin.render = originText (space.mappings.reverse ++ path) := by
  have hzero : Vector.zero.toExpr.render = "vec3(0.0, 0.0, 0.0)" := by decide +kernel
  rw [origin, render_apply, reverse_mappings_enter, hzero, originText]

end Space

namespace Primitive

variable {space : Space} {origin : String}

/-- The distance of a primitive as text. -/
theorem render_distance (h : space.origin.render = origin) (primitive : Primitive) :
    (primitive.distance space).render = primitive.distanceText origin := by
  subst h
  cases primitive with
  | sphere radius =>
    have hhead : "length(point - " = "length" ++ "(" ++ "point" ++ " - " := by decide +kernel
    have htail : ") - " = ")" ++ " - " := by decide +kernel
    calc ((sphere radius).distance space).render
      _ = "length" ++ "(" ++ ("point" ++ " - " ++ space.origin.render) ++ ")" ++ " - " ++
          radius.render := rfl
      _ = "length(point - " ++ space.origin.render ++ ") - " ++ radius.render := by
        simp only [hhead, htail, String.append_assoc]
  | plane normal =>
    have hhead : "abs(dot(point - " = "abs" ++ "(" ++ "dot(" ++ "point" ++ " - " := by
      decide +kernel
    have htail : "))" = ")" ++ ")" := by decide +kernel
    calc ((plane normal).distance space).render
      _ = "abs" ++ "(" ++ ("dot(" ++ ("point" ++ " - " ++ space.origin.render) ++ ", " ++
          normal.render ++ ")") ++ ")" := rfl
      _ = "abs(dot(point - " ++ space.origin.render ++ ", " ++ normal.render ++ "))" := by
        simp only [hhead, htail, String.append_assoc]
  | ground normal =>
    have hhead : "dot(point - " = "dot(" ++ "point" ++ " - " := by decide +kernel
    calc ((ground normal).distance space).render
      _ = "dot(" ++ ("point" ++ " - " ++ space.origin.render) ++ ", " ++ normal.render ++ ")" :=
        rfl
      _ = "dot(point - " ++ space.origin.render ++ ", " ++ normal.render ++ ")" := by
        simp only [hhead, String.append_assoc]

/-- The normal of a primitive as text. -/
theorem render_surfaceNormal (h : space.origin.render = origin) (primitive : Primitive) :
    (primitive.surfaceNormal space).render = primitive.normalText origin := by
  subst h
  have hsphere : "normalize(point - " = "normalize" ++ "(" ++ "point" ++ " - " := by
    decide +kernel
  have hflat : "normalize(" = "normalize" ++ "(" := by decide +kernel
  cases primitive with
  | sphere radius =>
    calc ((sphere radius).surfaceNormal space).render
      _ = "normalize" ++ "(" ++ ("point" ++ " - " ++ space.origin.render) ++ ")" := rfl
      _ = "normalize(point - " ++ space.origin.render ++ ")" := by
        simp only [hsphere, String.append_assoc]
  | plane normal | ground normal =>
    calc ((plane normal).surfaceNormal space).render
      _ = "normalize" ++ "(" ++ normal.render ++ ")" := rfl
      _ = "normalize(" ++ normal.render ++ ")" := by rw [hflat]

end Primitive

/-! ## Leaves and their paths -/

namespace TreeEntry

/-- The entry with transforms around the tree, the outermost first. -/
def under (outer : List Mapping) : TreeEntry → TreeEntry := mapLeaf (outer ++ ·) id

/-- No transforms around the tree are no change to its entries. -/
@[simp] theorem map_under_nil (es : List TreeEntry) : es.map (under []) = es := by
  refine (List.map_congr_left fun e _ => ?_).trans (List.map_id es)
  cases e <;> rfl

@[simp] theorem inside_under (mapping : Mapping) (outer : List Mapping) (e : TreeEntry) :
    (e.under outer).inside mapping = e.under (mapping :: outer) := by
  cases e <;> rfl

@[simp] theorem under_inside (mapping : Mapping) (outer : List Mapping) (e : TreeEntry) :
    (e.inside mapping).under outer = e.under (outer ++ [mapping]) := by
  cases e <;> simp [under, inside, mapLeaf]

end TreeEntry

namespace Node

mutual

/-- The leaves of the tree in order, each with the mappings on the way from the root to it. -/
def leaves : Node → List (List Mapping × Node)
  | .shape id primitive finish => [([], .shape id primitive finish)]
  | .material id finish => [([], .material id finish)]
  | .transform mapping child => child.leaves.map fun (path, leaf) => (mapping :: path, leaf)
  | .operator _ _ _ children => leavesAll children

/-- The leaves of several trees, in order. -/
def leavesAll : List Node → List (List Mapping × Node)
  | [] => []
  | n :: ns => n.leaves ++ leavesAll ns

end

/-- The leaves of several trees, in the natural form. -/
theorem leavesAll_eq_flatMap (ns : List Node) : leavesAll ns = ns.flatMap leaves := by
  induction ns with
  | nil => rfl
  | cons n ns ih => rw [leavesAll, List.flatMap_cons, ih]

/-- The entries that are about leaves are about the leaves of the tree, in order. -/
theorem filterMap_leaf?_entries (n : Node) : n.entries.filterMap TreeEntry.leaf? = n.leaves := by
  induction n using recTree with
  | shape | material => rfl
  | transform mapping child ih =>
    rw [entries, leaves, ← ih, List.filterMap_map, List.map_filterMap]
    refine List.filterMap_congr fun e _ => ?_
    cases e <;> rfl
  | operator id kind smoothing children ih =>
    have hshort : (kind.shortEntries children.length).filterMap TreeEntry.leaf? = [] :=
      List.filterMap_eq_nil_iff.2 fun e he => OperatorKind.leaf?_of_mem_shortEntries he
    have hfold : (kind.foldEntries smoothing id (children.map Node.id)).filterMap
        TreeEntry.leaf? = [] :=
      List.filterMap_eq_nil_iff.2 fun e he => OperatorKind.leaf?_of_mem_foldEntries he
    rw [entries, leaves, List.filterMap_append, List.filterMap_append, hshort, hfold,
      List.nil_append, List.append_nil, entriesAll_eq_flatMap, leavesAll_eq_flatMap,
      List.filterMap_flatMap]
    exact List.flatMap_congr ih

/-! ## Moving transforms down -/

mutual

/-- The tree inside transforms, the outermost first, with all transforms right above the leaves. -/
def sinkInto (path : List Mapping) : Node → Node
  | .shape id primitive finish => (shape id primitive finish).within path
  | .material id finish => (material id finish).within path
  -- The mapping is further inside than those met before, so it goes to the end of the path.
  | .transform mapping child => child.sinkInto (path ++ [mapping])
  | .operator id kind smoothing children =>
    .operator id kind smoothing (sinkAllInto path children)

/-- Several trees inside the same transforms. -/
def sinkAllInto (path : List Mapping) : List Node → List Node
  | [] => []
  | n :: ns => n.sinkInto path :: sinkAllInto path ns

end

/-- The tree with its transforms moved below all operators. -/
def sunk (n : Node) : Node := n.sinkInto []

/-- Several trees inside the same transforms, in the natural form. -/
theorem sinkAllInto_eq_map (path : List Mapping) (ns : List Node) :
    sinkAllInto path ns = ns.map (sinkInto path) := by
  induction ns with
  | nil => rfl
  | cons n ns ih => rw [sinkAllInto, List.map_cons, ih]

variable {core : Node}

/-- Transforms around a node have no identifier. -/
@[simp] theorem id_within (core : Node) (path : List Mapping) :
    (core.within path).id = core.id := by
  induction path with
  | nil => rfl
  | cons mapping path ih => exact ih

/-- Transforms around a node are gone in the tree without transforms. -/
@[simp] theorem bare_within (core : Node) (path : List Mapping) :
    (core.within path).bare = core.bare := by
  induction path with
  | nil => rfl
  | cons mapping path ih => exact ih

/-- Transforms around a node are transforms around its entries. -/
theorem entries_within (core : Node) (path : List Mapping) :
    (core.within path).entries = core.entries.map (TreeEntry.under path) := by
  induction path with
  | nil => exact (TreeEntry.map_under_nil core.entries).symm
  | cons mapping path ih =>
    have hwithin : core.within (mapping :: path) = .transform mapping (core.within path) := rfl
    rw [hwithin, entries, ih, List.map_map]
    exact List.map_congr_left fun e _ => e.inside_under mapping path

/-- Sinking keeps the identifier of a tree. -/
@[simp] theorem id_sinkInto (n : Node) (path : List Mapping) : (n.sinkInto path).id = n.id := by
  induction n using recTree generalizing path with
  | shape | material => rw [sinkInto, id_within]
  | transform mapping child ih => exact ih (path ++ [mapping])
  | operator => simp [sinkInto, id]

/-- Apart from transforms, sinking keeps a tree. -/
theorem bare_sinkInto (n : Node) (path : List Mapping) : (n.sinkInto path).bare = n.bare := by
  induction n using recTree generalizing path with
  | shape | material => rw [sinkInto, bare_within]
  | transform mapping child ih => exact ih (path ++ [mapping])
  | operator id kind smoothing children ih =>
    have hchildren : (children.map (sinkInto path)).map bare = children.map bare := by
      rw [List.map_map]
      exact List.map_congr_left fun c hc => ih c hc path
    rw [sinkInto, sinkAllInto_eq_map, bare, bare, bareAll_eq_map, bareAll_eq_map, hchildren]

/-- A tree that is sunk into transforms has the entries of the tree inside them. -/
theorem entries_sinkInto (n : Node) (path : List Mapping) :
    (n.sinkInto path).entries = n.entries.map (TreeEntry.under path) := by
  induction n using recTree generalizing path with
  | shape | material => rw [sinkInto, entries_within]
  | transform mapping child ih =>
    rw [sinkInto, ih, entries, List.map_map]
    exact List.map_congr_left fun e _ => (e.under_inside mapping path).symm
  | operator id kind smoothing children ih =>
    rw [sinkInto, sinkAllInto_eq_map]
    exact entries_operator_map (fun c _ => c.id_sinkInto path) (fun c hc => ih c hc path) id kind
      smoothing

/-- **A sunken tree has the entries of the tree.** -/
theorem entries_sunk (n : Node) : n.sunk.entries = n.entries := by
  rw [sunk, entries_sinkInto, TreeEntry.map_under_nil]

/-- A tree without transforms owns the same identifiers. -/
@[simp] theorem ids_bare (n : Node) : n.bare.ids = n.ids := by
  induction n using recTree with
  | shape | material => rw [bare]
  | transform mapping child ih => rw [bare, ih, ids_transform]
  | operator id kind smoothing children ih =>
    rw [bare, ids_operator, ids_operator, bareAll_eq_map, List.length_map, idsAll_eq_flatMap,
      idsAll_eq_flatMap, List.flatMap_map, List.flatMap_congr ih]

/-! ## What is inside a transform -/

/-- No operator of the tree is inside a transform of the tree. -/
def Sunken (n : Node) : Prop :=
  ∀ mapping child, transform mapping child ∈ n.parts → ∀ m ∈ child.parts, m.category ≠ .operator

/-- Inside transforms around a node there is no operator if the node has none. -/
theorem category_of_mem_within {path : List Mapping}
    (h : ∀ m ∈ core.parts, m.category ≠ .operator) :
    ∀ m ∈ (core.within path).parts, m.category ≠ .operator := by
  induction path with
  | nil => exact h
  | cons mapping path ih =>
    intro m hm
    rcases mem_parts_transform.1 hm with rfl | hm
    · exact nofun
    · exact ih m hm

/-- Transforms around a node without operators are around no operator. -/
theorem Sunken.within (hcore : core.Sunken) (h : ∀ m ∈ core.parts, m.category ≠ .operator)
    (path : List Mapping) : (core.within path).Sunken := by
  induction path with
  | nil => exact hcore
  | cons mapping path ih =>
    intro mapping' child hchild
    rcases mem_parts_transform.1 hchild with heq | hchild
    · obtain ⟨-, rfl⟩ := Node.transform.inj heq
      exact category_of_mem_within h
    · exact ih mapping' child hchild

/-- Sinking leaves no operator inside a transform. -/
theorem sunken_sinkInto (n : Node) (path : List Mapping) : (n.sinkInto path).Sunken := by
  induction n using recTree generalizing path with
  | shape | material =>
    refine Sunken.within (fun mapping child h => ?_) (fun m hm => ?_) path
    · cases List.mem_singleton.1 h
    · cases List.mem_singleton.1 hm
      exact nofun
  | transform mapping child ih => exact ih (path ++ [mapping])
  | operator id kind smoothing children ih =>
    intro mapping child hchild
    rw [sinkInto, sinkAllInto_eq_map] at hchild
    rcases mem_parts_operator.1 hchild with heq | ⟨c, hc, hchild⟩
    · cases heq
    · obtain ⟨c, hc', rfl⟩ := List.mem_map.1 hc
      exact ih c hc' path mapping child hchild

/-! ## The lines of the leaves -/

/-- The line of a shape's distance. -/
theorem render_line_sdf {space : Space} {path : List Mapping} {id : Nat} {primitive : Primitive}
    {finish : Finish} {d : Declaration}
    (h : (TreeEntry.shape path id primitive finish).line space .sdf = .ok d) :
    d.render = "float sdf" ++ toString id ++ " = " ++
      primitive.distanceText (originText (space.mappings.reverse ++ path)) ++ ";" := by
  obtain rfl := Except.ok.inj h
  rw [← Primitive.render_distance (space.render_origin_enter path)]
  rfl

/-- The line of a shape's normal. -/
theorem render_line_normal {space : Space} {path : List Mapping} {id : Nat} {primitive : Primitive}
    {finish : Finish} {d : Declaration}
    (h : (TreeEntry.shape path id primitive finish).line space .normal = .ok d) :
    d.render = "vec3 normal" ++ toString id ++ " = " ++
      primitive.normalText (originText (space.mappings.reverse ++ path)) ++ ";" := by
  obtain rfl := Except.ok.inj h
  rw [← Primitive.render_surfaceNormal (space.render_origin_enter path)]
  rfl

/-- **Transforms may be moved below operators.** The sunken form of a tree has the same leaves with
the same mappings above each of them, and no operator inside a transform; the rest of the tree and
all its identifiers stay. In any space both write the same lines of any property, and end alike.

The lines follow the entries of the tree, one line for each of them unless compiling fails, and the
entries of the leaves are the leaves with their paths from the root. The distance and the normal of
a leaf are taken from the origin as it is mapped by the innermost mapping of its path first and by
the outermost mapping of the space last, and by no other. -/
theorem compile_sunk (n : Node) (space : Space) (p : Property) (l : Listing) :
    n.sunk.leaves = n.leaves ∧ n.sunk.Sunken ∧ n.sunk.bare = n.bare ∧ n.sunk.ids = n.ids ∧
    n.sunk.compile space p l = n.compile space p l ∧
    n.entries.filterMap TreeEntry.leaf? = n.leaves ∧
    ∃ lines : List String, (n.compile space p l).1.lines = l.lines ++ lines.map (indent l.depth) ∧
      ((n.compile space p l).2 = none → lines.length = n.entries.length) ∧
      ∀ (i : Nat) (path : List Mapping) (id : Nat) (primitive : Primitive) (finish : Finish)
          (line : String),
        n.entries[i]? = some (.shape path id primitive finish) → lines[i]? = some line →
        (p = .sdf → line = "float sdf" ++ toString id ++ " = " ++
          primitive.distanceText (originText (space.mappings.reverse ++ path)) ++ ";") ∧
        (p = .normal → line = "vec3 normal" ++ toString id ++ " = " ++
          primitive.normalText (originText (space.mappings.reverse ++ path)) ++ ";") := by
  have hleaves : n.sunk.leaves = n.leaves := by
    rw [← filterMap_leaf?_entries, entries_sunk, filterMap_leaf?_entries]
  have hbare : n.sunk.bare = n.bare := n.bare_sinkInto []
  have hids : n.sunk.ids = n.ids := by rw [← ids_bare, hbare, ids_bare]
  have hcompile : n.sunk.compile space p l = n.compile space p l := by
    rw [compile, compile, emit_eq_ofLines, entries_sunk, ← emit_eq_ofLines]
  refine ⟨hleaves, n.sunken_sinkInto [], hbare, hids, hcompile, n.filterMap_leaf?_entries,
    (n.emit space p).declarations.map Declaration.render, n.lines_compile_eq_append space p l,
    fun hok => ?_, ?_⟩
  · rw [List.length_map, length_declarations hok]
  · intro i path id primitive finish line hentry hline
    obtain ⟨e, d, he, hd, rfl⟩ := exists_entry hline
    obtain rfl := Option.some_inj.1 (hentry.symm.trans he)
    refine ⟨fun hp => ?_, fun hp => ?_⟩
    · subst hp
      exact render_line_sdf hd
    · subst hp
      exact render_line_normal hd

/-- A transform around an operator, and one of its operands in another transform. -/
def nested : Node :=
  .transform (.translate (.raw "a")) (.operator 3 .difference (.raw "k")
    [.transform (.translate (.raw "b")) (.shape 0 (.sphere (.raw "r")) .standard),
      .transform (.translate (.raw "c")) (.operator 5 .cut (.raw "m")
        [.shape 1 (.plane .up) .standard, .shape 2 (.ground .up) .standard])])

/-- Both operands of `nested` in its sunken form, and the line of its first leaf in a space that has
a mapping of its own, by `compile_sunk`. -/
theorem compile_sunk_nested :
    nested.sunk = .operator 3 .difference (.raw "k")
      [.transform (.translate (.raw "a")) (.transform (.translate (.raw "b"))
          (.shape 0 (.sphere (.raw "r")) .standard)),
        .operator 5 .cut (.raw "m")
          [.transform (.translate (.raw "a")) (.transform (.translate (.raw "c"))
              (.shape 1 (.plane .up) .standard)),
            .transform (.translate (.raw "a")) (.transform (.translate (.raw "c"))
              (.shape 2 (.ground .up) .standard))]] ∧
    nested.sunk.compile ⟨[.translate (.raw "w")]⟩ .sdf .empty =
      nested.compile ⟨[.translate (.raw "w")]⟩ .sdf .empty ∧
    ∃ lines, (nested.compile ⟨[.translate (.raw "w")]⟩ .sdf .empty).1.lines = lines ∧
      lines.length = 7 ∧
      ∀ line, lines[0]? = some line → line =
        "float sdf0 = length(point - (((vec3(0.0, 0.0, 0.0) + (b)) + (a)) + (w))) - (r);" := by
  obtain ⟨-, -, -, -, hcompile, -, lines, hlines, hlength, hline⟩ :=
    compile_sunk nested ⟨[.translate (.raw "w")]⟩ .sdf .empty
  have hdepth : lines.map (indent Listing.empty.depth) = lines :=
    (List.map_congr_left fun line _ => indent_zero line).trans (List.map_id _)
  refine ⟨rfl, hcompile, lines, ?_, hlength (by decide +kernel), fun line h => ?_⟩
  · rw [hlines, hdepth]
    rfl
  · rw [(hline 0 [.translate (.raw "a"), .translate (.raw "b")] 0 _ _ line rfl h).1 rfl]
    decide +kernel

end Node

end FieldShader
