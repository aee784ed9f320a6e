import FieldShader.Proofs.Scene.Declared

/-!
# The names of a tree and the lines that declare them

A tree tells the names of the variables of a property without compiling it (`Node.declaredNames`),
and the name under which its own value is found (`Node.result`). `Node.compile_lists_names` says
that both agree with what is written when the property is compiled: one line for each name, in the
order of the names, and the tree's own name on the last of them.

A transform has no name of its own. It answers with the name of the node inside it, so a tree is
looked at here as a node that is no transform with transforms around it (`Node.within`).
-/

namespace FieldShader

namespace Node

/-! ## Transforms around a node -/

/-- A node inside transforms, the outermost first. -/
def within (core : Node) (mappings : List Mapping) : Node := mappings.foldr .transform core

/-- The identifier that a node has itself; a transform has none. -/
def ownId? : Node → Option Nat
  | .shape id _ _ | .material id _ | .operator id _ _ _ => some id
  | .transform _ _ => none

/-- Under the transforms around a tree there is a node with an identifier, which is the tree's. -/
theorem exists_within (n : Node) : ∃ (core : Node) (mappings : List Mapping),
    n = core.within mappings ∧ core.ownId? = some n.id := by
  induction n using recTree with
  | shape id primitive finish => exact ⟨.shape id primitive finish, [], rfl, rfl⟩
  | material id finish => exact ⟨.material id finish, [], rfl, rfl⟩
  | operator id kind smoothing children _ =>
    exact ⟨.operator id kind smoothing children, [], rfl, rfl⟩
  | transform mapping child ih =>
    obtain ⟨core, mappings, hchild, hid⟩ := ih
    exact ⟨core, mapping :: mappings, congrArg _ hchild, hid⟩

/-! ## Names and lines -/

/-- The names of the variables that hold a property in the tree, in the order in which they are
declared. -/
def declaredNames (n : Node) (p : Property) : List String := (n.declared p).map Variable.name

/-- Every variable that a tree declares for a property holds the property. -/
theorem property_of_mem_declared {n : Node} {p : Property} {v : Variable}
    (h : v ∈ n.declared p) : v.property = p := by
  induction n using recTree with
  | shape id primitive finish =>
    rw [List.mem_singleton.1 h]
    rfl
  | material id finish =>
    rw [declared] at h
    split at h
    · rw [List.mem_singleton.1 h]
      rfl
    · cases h
  | transform mapping child ih => exact ih h
  | operator id kind smoothing children ih =>
    rw [declared, declaredAll_eq_flatMap] at h
    rcases List.mem_append.1 h with h | h
    · rcases List.mem_append.1 h with h | h
      · obtain ⟨c, hc, h⟩ := List.mem_flatMap.1 h
        exact ih c hc h
      · obtain ⟨step, -, rfl⟩ := List.mem_map.1 h
        rfl
    · rw [List.mem_singleton.1 h]
      rfl

/-- The names of a tree are those that its declarations bind, if it is emitted completely. -/
theorem declaredNames_eq {n : Node} {space : Space} {p : Property}
    (h : (n.emit space p).failure = none) :
    n.declaredNames p = (n.emit space p).declarations.map (·.target.name) := by
  rw [declaredNames, ← (n.emit_declares space p).complete h, Emission.targets, List.map_map]
  rfl

/-- A declaration of a tree is a line that starts with the type of the property and the name. -/
theorem exists_render_eq {n : Node} {space : Space} {p : Property} {d : Declaration}
    (h : (n.emit space p).failure = none) (hd : d ∈ (n.emit space p).declarations) :
    ∃ value, d.render = p.type.keyword ++ " " ++ d.target.name ++ " = " ++ value ++ ";" := by
  have htarget : d.target ∈ n.declared p := by
    rw [← (n.emit_declares space p).complete h]
    exact List.mem_map_of_mem hd
  refine ⟨d.value.render, ?_⟩
  rw [Declaration.render, Variable.declare, property_of_mem_declared htarget]

/-- Compiling into a listing without indentation appends the text of the declarations. -/
theorem lines_compile {n : Node} {space : Space} {p : Property} {l : Listing} (h : l.depth = 0) :
    (n.compile space p l).1.lines =
      l.lines ++ (n.emit space p).declarations.map Declaration.render := by
  have hline : indent 0 ∘ Declaration.render = Declaration.render := by
    funext d
    exact indent_zero d.render
  rw [compile, Emission.writeTo, Listing.lines_writeAll, h, List.map_map, hline]

/-- **The names of a tree are the names of its lines.** Compiling a property into a listing without
indentation, if it succeeds, appends one line for each name that the tree lists for the property;
the line in each place declares the name in that place with the type of the property, and the last
name is that of the variable in which the tree's own value is found. That variable is named by the
property and by the identifier of the node inside all transforms around the tree. -/
theorem compile_lists_names (n : Node) (space : Space) (p : Property) :
    (∀ l l' : Listing, l.depth = 0 → n.compile space p l = (l', none) →
      ∃ lines, l'.lines = l.lines ++ lines ∧
        lines.length = (n.declaredNames p).length ∧
        (∀ (i : Nat) (line name : String),
          lines[i]? = some line → (n.declaredNames p)[i]? = some name →
          ∃ value, line = p.type.keyword ++ " " ++ name ++ " = " ++ value ++ ";") ∧
        (n.declaredNames p).getLast? = some (n.result p).name) ∧
    ∃ (core : Node) (mappings : List Mapping) (id : Nat), n = core.within mappings ∧
      core.ownId? = some id ∧ (n.result p).name = p.tag ++ toString id := by
  constructor
  · intro l l' hdepth hcompile
    have hok : (n.emit space p).failure = none := congrArg Prod.snd hcompile
    refine ⟨(n.emit space p).declarations.map Declaration.render, ?_, ?_, ?_, ?_⟩
    · rw [← lines_compile hdepth, hcompile]
    · rw [declaredNames_eq hok, List.length_map, List.length_map]
    · intro i line name hline hname
      rw [declaredNames_eq hok] at hname
      rw [List.getElem?_map, Option.map_eq_some_iff] at hline hname
      obtain ⟨d, hd, rfl⟩ := hline
      obtain ⟨d', hd', rfl⟩ := hname
      obtain rfl := Option.some_inj.1 (hd.symm.trans hd')
      exact exists_render_eq hok (List.mem_of_getElem? hd)
    · rw [declaredNames, List.getLast?_map, getLast?_declared hok, Option.map_some]
  · obtain ⟨core, mappings, hn, hid⟩ := n.exists_within
    exact ⟨core, mappings, n.id, hn, hid, rfl⟩

/-- A difference inside two transforms, with a transform and a material leaf among its operands. -/
def towed : Node :=
  .transform (.translate .up) (.transform (.translate (.raw "o"))
    (.operator 3 .difference (.raw "k") [.transform (.translate .up)
      (.shape 0 (.sphere (.raw "r")) .standard), .material 1 .standard,
      .shape 2 (.ground .up) (.custom ⟨.raw "c"⟩)]))

/-- The color of `towed` takes a line for each leaf, one for each step and one for the difference;
the fifth of them is the second step. -/
theorem compile_lists_names_towed :
    (towed.compile .world .color ⟨["void f();"], 0⟩).2 = none ∧
    towed.declaredNames .color = ["color0", "color1", "color2", "color4", "color5", "color3"] ∧
    (∃ lines, (towed.compile .world .color ⟨["void f();"], 0⟩).1.lines = "void f();" :: lines ∧
      lines.length = 6 ∧
      ∀ line, lines[4]? = some line → ∃ value, line = "vec3 color5 = " ++ value ++ ";") ∧
    (towed.result .color).name = "color3" := by
  have hok : (towed.compile .world .color ⟨["void f();"], 0⟩).2 = none := by decide +kernel
  have hnames : towed.declaredNames .color =
      ["color0", "color1", "color2", "color4", "color5", "color3"] := by decide +kernel
  obtain ⟨lines, hlines, hlength, hline, hlast⟩ := (compile_lists_names towed .world .color).1
    ⟨["void f();"], 0⟩ _ rfl (Prod.ext rfl hok)
  rw [hnames] at hlength hline hlast
  refine ⟨hok, hnames, ⟨lines, hlines, hlength, fun line h => ?_⟩, (Option.some_inj.1 hlast).symm⟩
  exact hline 4 line "color5" h rfl

end Node

end FieldShader
