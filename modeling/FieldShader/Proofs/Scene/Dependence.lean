import FieldShader.Proofs.Scene.Defects
import FieldShader.Proofs.Scene.Sinking

/-!
# What a property depends on

Two trees of the same form may differ in the parameters of their nodes: primitives, materials, kinds
of operators, smoothing factors. A `Likeness` says how far each of these has to agree, and
`Node.Alike` that it does so everywhere in two trees. Alike trees have alike entries
(`Node.Alike.entries`), and so what a property does not look at can be told from the line of one
entry.

A color looks at materials alone, a distance or a normal at everything but materials, and of the
normals only that of a sphere looks at transforms (`Node.compile_depends_only`).
-/

namespace FieldShader

/-- How far the parameters of two nodes have to agree. -/
structure Likeness where
  /-- For primitives. -/
  primitive : Primitive → Primitive → Prop
  /-- For the materials of leaves. -/
  finish : Finish → Finish → Prop
  /-- For the kinds of operators. -/
  kind : OperatorKind → OperatorKind → Prop
  /-- For smoothing factors. -/
  smoothing : Scalar → Scalar → Prop

namespace Likeness

/-- The same materials, and nothing else. -/
def painted : Likeness where
  primitive _ _ := True
  finish f f' := f.material = f'.material
  kind _ _ := True
  smoothing _ _ := True

/-- The same everything but materials. -/
def shaped : Likeness where
  primitive g g' := g = g'
  finish _ _ := True
  kind k k' := k = k'
  smoothing s s' := s = s'

/-- The same primitives and kinds of operators. -/
def oriented : Likeness where
  primitive g g' := g = g'
  finish _ _ := True
  kind k k' := k = k'
  smoothing _ _ := True

end Likeness

/-- Two trees with the same form, identifiers and transforms, whose parameters agree. -/
inductive Node.Alike (r : Likeness) : Node → Node → Prop
  | shape {id : Nat} {g g' : Primitive} {f f' : Finish} (hprimitive : r.primitive g g')
      (hfinish : r.finish f f') : Alike r (.shape id g f) (.shape id g' f')
  | material {id : Nat} {f f' : Finish} (hfinish : r.finish f f') :
      Alike r (.material id f) (.material id f')
  | transform {mapping : Mapping} {c d : Node} (h : Alike r c d) :
      Alike r (.transform mapping c) (.transform mapping d)
  | operator {id : Nat} {k k' : OperatorKind} {s s' : Scalar} {cs ds : List Node}
      (hkind : r.kind k k') (hsmoothing : r.smoothing s s') (h : List.Forall₂ (Alike r) cs ds) :
      Alike r (.operator id k s cs) (.operator id k' s' ds)

/-- Two entries about nodes whose parameters agree, with related paths. -/
inductive TreeEntry.Alike (r : Likeness) (P : List Mapping → List Mapping → Prop) :
    TreeEntry → TreeEntry → Prop
  | shape {path path' : List Mapping} {id : Nat} {g g' : Primitive} {f f' : Finish}
      (hpath : P path path') (hprimitive : r.primitive g g') (hfinish : r.finish f f') :
      Alike r P (.shape path id g f) (.shape path' id g' f')
  | material {path path' : List Mapping} {id : Nat} {f f' : Finish} (hpath : P path path')
      (hfinish : r.finish f f') : Alike r P (.material path id f) (.material path' id f')
  | short {k k' : OperatorKind} {count : Nat} (hkind : r.kind k k') :
      Alike r P (.short k count) (.short k' count)
  | step {k k' : OperatorKind} {s s' : Scalar} {acc next target : Nat} (hkind : r.kind k k')
      (hsmoothing : r.smoothing s s') :
      Alike r P (.step k s acc next target) (.step k' s' acc next target)
  | result {id last : Nat} : Alike r P (.result id last) (.result id last)

/-! ## Alike trees have alike entries -/

variable {r : Likeness}

namespace TreeEntry.Alike

variable {e e' : TreeEntry}

/-- The same transform around both trees keeps their entries alike. -/
theorem inside (h : TreeEntry.Alike r (· = ·) e e') (mapping : Mapping) :
    TreeEntry.Alike r (· = ·) (e.inside mapping) (e'.inside mapping) := by
  cases h with
  | shape hpath hprimitive hfinish => exact .shape (congrArg _ hpath) hprimitive hfinish
  | material hpath hfinish => exact .material (congrArg _ hpath) hfinish
  | short hkind => exact .short hkind
  | step hkind hsmoothing => exact .step hkind hsmoothing
  | result => exact .result

/-- Entries that are alike without transforms are alike but for their paths. -/
theorem of_bare (h : TreeEntry.Alike r (· = ·) e.bare e'.bare) :
    TreeEntry.Alike r (fun _ _ => True) e e' := by
  -- Entries of two sorts are never alike, which leaves one case for each sort.
  cases e <;> cases e' <;> cases h
  · exact .shape trivial ‹_› ‹_›
  · exact .material trivial ‹_›
  · exact .short ‹_›
  · exact .step ‹_› ‹_›
  · exact .result

end TreeEntry.Alike

namespace OperatorKind

variable {kind kind' : OperatorKind} {smoothing smoothing' : Scalar}
  {P : List Mapping → List Mapping → Prop}

/-- Operators with as many operands have too few alike. -/
theorem forall₂_shortEntries (hkind : r.kind kind kind') (count : Nat) :
    List.Forall₂ (TreeEntry.Alike r P) (kind.shortEntries count) (kind'.shortEntries count) := by
  unfold shortEntries
  split
  · exact .cons (.short hkind) .nil
  · exact .nil

/-- Operators with the same numbers have alike steps. -/
theorem forall₂_stepEntries (hkind : r.kind kind kind')
    (hsmoothing : r.smoothing smoothing smoothing') (id step acc : Nat) (operands : List Nat) :
    List.Forall₂ (TreeEntry.Alike r P) (kind.stepEntries smoothing id step acc operands)
      (kind'.stepEntries smoothing' id step acc operands) := by
  induction operands generalizing step acc with
  | nil => exact .cons .result .nil
  | cons next rest ih => exact .cons (.step hkind hsmoothing) (ih (step + 1) step)

/-- Operators with the same numbers have alike entries. -/
theorem forall₂_foldEntries (hkind : r.kind kind kind')
    (hsmoothing : r.smoothing smoothing smoothing') (id : Nat) (operands : List Nat) :
    List.Forall₂ (TreeEntry.Alike r P) (kind.foldEntries smoothing id operands)
      (kind'.foldEntries smoothing' id operands) := by
  cases operands with
  | nil => exact .nil
  | cons first rest => exact forall₂_stepEntries hkind hsmoothing id (id + 1) first rest

end OperatorKind

namespace Node

variable {n m : Node}

/-- Alike trees have the same identifier. -/
theorem Alike.id_eq (h : n.Alike r m) : n.id = m.id := by
  induction n using recTree generalizing m with
  | shape | material | operator =>
    cases h
    rfl
  | transform mapping child ih =>
    cases h with
    | @transform _ _ d h =>
      have hchild : child.id = d.id := ih h
      exact hchild

/-- Alike operands have alike entries. -/
theorem forall₂_entriesAll {ns ms : List Node} {R : TreeEntry → TreeEntry → Prop}
    (h : List.Forall₂ (fun n m => List.Forall₂ R n.entries m.entries) ns ms) :
    List.Forall₂ R (entriesAll ns) (entriesAll ms) := by
  induction h with
  | nil => exact .nil
  | cons hnm _ ih => exact List.rel_append hnm ih

/-- **Alike trees have alike entries**, one by one. -/
theorem Alike.entries (h : n.Alike r m) :
    List.Forall₂ (TreeEntry.Alike r (· = ·)) n.entries m.entries := by
  induction n using recTree generalizing m with
  | shape id primitive finish =>
    cases h with
    | shape hprimitive hfinish => exact .cons (.shape rfl hprimitive hfinish) .nil
  | material id finish =>
    cases h with
    | material hfinish => exact .cons (.material rfl hfinish) .nil
  | transform mapping child ih =>
    cases h with
    | transform h => exact List.rel_map (fun _ _ he => he.inside mapping) (ih h)
  | operator id kind smoothing children ih =>
    cases h with
    | @operator _ _ kind' _ smoothing' _ ms hkind hsmoothing h =>
      have hids : children.map Node.id = ms.map Node.id :=
        List.forall₂_eq_eq_eq ▸ List.rel_map (fun _ _ hcd => hcd.id_eq) h
      have hall :
          List.Forall₂ (TreeEntry.Alike r (· = ·)) (entriesAll children) (entriesAll ms) := by
        have hboth := (List.forall₂_and_left _ _).2 ⟨fun c hc => @ih c hc, h⟩
        exact forall₂_entriesAll (hboth.imp fun c d hcd => hcd.1 hcd.2)
      rw [Node.entries, Node.entries, hids, h.length_eq]
      exact List.rel_append
        (List.rel_append (OperatorKind.forall₂_shortEntries hkind ms.length) hall)
        (OperatorKind.forall₂_foldEntries hkind hsmoothing id _)

/-- Trees that are alike without their transforms have entries that are alike but for the paths. -/
theorem Alike.entries_of_bare (h : n.bare.Alike r m.bare) :
    List.Forall₂ (TreeEntry.Alike r fun _ _ => True) n.entries m.entries := by
  have hbare := h.entries
  rw [entries_bare, entries_bare, List.forall₂_map_left_iff, List.forall₂_map_right_iff] at hbare
  exact hbare.imp fun e e' he => he.of_bare

/-- So the entries in one place are alike but for the paths. -/
theorem Alike.entry_of_bare (h : n.bare.Alike r m.bare) {i : Nat} {e e' : TreeEntry}
    (he : n.entries[i]? = some e) (he' : m.entries[i]? = some e') :
    TreeEntry.Alike r (fun _ _ => True) e e' := by
  obtain ⟨hi, rfl⟩ := List.getElem?_eq_some_iff.1 he
  obtain ⟨hi', rfl⟩ := List.getElem?_eq_some_iff.1 he'
  exact h.entries_of_bare.get hi hi'

end Node

/-! ## Lines of alike entries -/

namespace TreeEntry.Alike

variable {e e' : TreeEntry} {P : List Mapping → List Mapping → Prop} {space space' : Space}

/-- A color is told by the material of a leaf, and by the numbers of an operator. -/
theorem line_color (h : TreeEntry.Alike .painted P e e') (space space' : Space) :
    Emission.LineRel (· = ·) (fun _ _ => True) (e.line space .color) (e'.line space' .color) := by
  cases h with
  | shape _ _ hfinish | material _ hfinish =>
    have hcolor := congrArg (fun m : Material => m.color.toExpr) hfinish
    exact .ok (congrArg (Declaration.mk _) hcolor)
  | short => exact .error trivial
  | @step k k' s s' acc next target =>
    have hcombine : k.combine s .color acc next target = k'.combine s' .color acc next target := by
      cases k <;> cases k' <;> rfl
    exact .ok (congrArg (Declaration.mk _) hcombine)
  | result => exact .ok rfl

/-- Only a color is told by the material of a leaf. -/
theorem line_eq (h : TreeEntry.Alike .shaped (· = ·) e e') {p : Property} (hp : p ≠ .color) :
    e.line space p = e'.line space p := by
  cases h with
  | shape hpath hprimitive _ =>
    cases hpath
    cases hprimitive
    cases p with
    | sdf | normal => rfl
    | color => exact absurd rfl hp
  | material =>
    cases p with
    | sdf | normal => rfl
    | color => exact absurd rfl hp
  | short hkind =>
    cases hkind
    rfl
  | step hkind hsmoothing =>
    cases hkind
    cases hsmoothing
    rfl
  | result => rfl

/-- A normal is there or not, whatever the transforms and the smoothing factors. -/
theorem line_normal (h : TreeEntry.Alike .oriented P e e') (space space' : Space) :
    Emission.LineRel (fun _ _ => True) (· = ·) (e.line space .normal) (e'.line space' .normal) := by
  cases h with
  | shape | step | result => exact .ok trivial
  | material => exact .error rfl
  | short hkind => exact .error (congrArg (CompileError.tooFewOperands · _) hkind)

/-- A normal that differs is that of a sphere. -/
theorem sphere_of_ne (h : TreeEntry.Alike .oriented P e e') {d d' : Declaration}
    (hd : e.line space .normal = .ok d) (hd' : e'.line space' .normal = .ok d') (hne : d ≠ d') :
    ∃ path path' id radius finish finish', e = .shape path id (.sphere radius) finish ∧
      e' = .shape path' id (.sphere radius) finish' := by
  cases h with
  | @shape path path' id g _ f f' _ hprimitive _ =>
    cases hprimitive
    cases g with
    | sphere radius => exact ⟨path, path', id, radius, f, f', rfl, rfl⟩
    | plane normal | ground normal => exact absurd (Except.ok.inj (hd.symm.trans hd')) hne
  | material => cases hd
  | short => cases hd
  | @step k _ _ _ _ _ _ hkind _ =>
    cases hkind
    cases k <;> exact absurd (Except.ok.inj (hd.symm.trans hd')) hne
  | result => exact absurd (Except.ok.inj (hd.symm.trans hd')) hne

end TreeEntry.Alike

/-! ## Whole trees -/

/-- Options that are related by equality are equal. -/
theorem eq_of_option_rel {α : Type} {x y : Option α} (h : Option.Rel (· = ·) x y) : x = y := by
  cases h with
  | some h => exact congrArg some h
  | none => rfl

namespace Node

variable {n m : Node} {space : Space}

/-- **Only colors look at materials.** -/
theorem Alike.emit_eq (h : n.Alike .shaped m) {p : Property} (hp : p ≠ .color) :
    n.emit space p = m.emit space p := by
  have hlines : n.entries.map (TreeEntry.line space p) = m.entries.map (TreeEntry.line space p) :=
    List.forall₂_eq_eq_eq ▸ List.rel_map (fun _ _ he => he.line_eq hp) h.entries
  rw [emit_eq_ofLines, hlines, ← emit_eq_ofLines]

/-- The colors of trees with the same materials are the same as far as they go, and both are
complete or neither is. -/
theorem Alike.emit_color (h : n.bare.Alike .painted m.bare) (space space' : Space) :
    (n.emit space .color).declarations = (m.emit space' .color).declarations ∧
      Option.Rel (fun _ _ => True) (n.emit space .color).failure
        (m.emit space' .color).failure := by
  rw [emit_eq_ofLines, emit_eq_ofLines]
  obtain ⟨hlines, hfailure⟩ := Emission.forall₂_ofLines (List.rel_map
    (fun e e' (he : TreeEntry.Alike .painted _ e e') => he.line_color space space')
    h.entries_of_bare)
  exact ⟨List.forall₂_eq_eq_eq ▸ hlines, hfailure⟩

/-- The normals of trees with the same primitives and operators fail alike after as many lines. -/
theorem Alike.emit_normal (h : n.bare.Alike .oriented m.bare) (space space' : Space) :
    (n.emit space .normal).declarations.length = (m.emit space' .normal).declarations.length ∧
      (n.emit space .normal).failure = (m.emit space' .normal).failure := by
  rw [emit_eq_ofLines n, emit_eq_ofLines m]
  obtain ⟨hlines, hfailure⟩ := Emission.forall₂_ofLines (List.rel_map
    (fun e e' (he : TreeEntry.Alike .oriented _ e e') => he.line_normal space space')
    h.entries_of_bare)
  exact ⟨hlines.length_eq, eq_of_option_rel hfailure⟩

/-- The color of a tree is complete if its operators have operands enough. -/
theorem failure_color_eq_none (h : ∀ id kind smoothing children,
    operator id kind smoothing children ∈ n.parts → 2 ≤ children.length) :
    (n.emit space .color).failure = none := by
  refine failure_emit_eq_none_iff.2 fun part hpart => ?_
  cases part with
  | shape | material | transform => rfl
  | operator id kind smoothing children =>
    exact if_neg (Nat.not_lt.2 (h id kind smoothing children hpart))

/-- **Each property looks at what it is about.** Take two trees that are the same tree without
their transforms, up to some parameters.

If their leaves have the same materials, they write the same lines of colors whatever else is
different, in any spaces, and both end without failure if every operator has operands enough. If
the trees have the same transforms and differ in materials alone, they write the same lines of
distances and of normals and end alike. If they have the same primitives and kinds of operators,
their normals end alike after as many lines, in any spaces, and the lines in one place are the
same or both declare the normal of one sphere. -/
theorem compile_depends_only (n m : Node) (space space' : Space) (l : Listing) :
    (n.bare.Alike .painted m.bare →
      (n.compile space .color l).1 = (m.compile space' .color l).1 ∧
      ((∀ id kind smoothing children,
          operator id kind smoothing children ∈ n.parts → 2 ≤ children.length) →
        (n.compile space .color l).2 = none ∧ (m.compile space' .color l).2 = none)) ∧
    (n.Alike .shaped m → ∀ p ≠ .color, n.compile space p l = m.compile space p l) ∧
    (n.bare.Alike .oriented m.bare →
      (n.compile space .normal l).2 = (m.compile space' .normal l).2 ∧
      ∃ lines lines' : List String,
        (n.compile space .normal l).1.lines = l.lines ++ lines.map (indent l.depth) ∧
        (m.compile space' .normal l).1.lines = l.lines ++ lines'.map (indent l.depth) ∧
        lines.length = lines'.length ∧
        ∀ (i : Nat) (line line' : String),
          lines[i]? = some line → lines'[i]? = some line' → line ≠ line' →
          ∃ path path' id radius finish finish',
            n.entries[i]? = some (.shape path id (.sphere radius) finish) ∧
            m.entries[i]? = some (.shape path' id (.sphere radius) finish') ∧
            line = "vec3 normal" ++ toString id ++ " = " ++ (Primitive.sphere radius).normalText
              (originText (space.mappings.reverse ++ path)) ++ ";" ∧
            line' = "vec3 normal" ++ toString id ++ " = " ++ (Primitive.sphere radius).normalText
              (originText (space'.mappings.reverse ++ path')) ++ ";") := by
  refine ⟨fun h => ?_, fun h p hp => ?_, fun h => ?_⟩
  · obtain ⟨hlines, hfailure⟩ := h.emit_color space space'
    refine ⟨?_, fun harity => ?_⟩
    · rw [compile, Emission.writeTo, hlines]
      rfl
    · have hok : (n.emit space .color).failure = none := failure_color_eq_none harity
      rw [hok] at hfailure
      refine ⟨hok, ?_⟩
      generalize hm : (m.emit space' .color).failure = failure at hfailure
      cases hfailure
      exact hm
  · rw [compile, compile, h.emit_eq hp]
  · obtain ⟨hlength, hfailure⟩ := h.emit_normal space space'
    refine ⟨hfailure, (n.emit space .normal).declarations.map Declaration.render,
      (m.emit space' .normal).declarations.map Declaration.render,
      n.lines_compile_eq_append space .normal l, m.lines_compile_eq_append space' .normal l, ?_, ?_⟩
    · rw [List.length_map, List.length_map, hlength]
    · intro i line line' hline hline' hne
      obtain ⟨e, d, he, hd, rfl⟩ := exists_entry hline
      obtain ⟨e', d', he', hd', rfl⟩ := exists_entry hline'
      obtain ⟨path, path', id, radius, finish, finish', rfl, rfl⟩ :=
        (h.entry_of_bare he he').sphere_of_ne hd hd' fun heq => hne (congrArg _ heq)
      exact ⟨path, path', id, radius, finish, finish', he, he', render_line_normal hd,
        render_line_normal hd'⟩

/-- A sphere that is moved, less the half-space below. -/
def bell : Node :=
  .operator 2 .difference (.raw "k")
    [.transform (.translate (.raw "a")) (.shape 0 (.sphere (.raw "r")) .standard),
      .shape 1 (.ground .up) (.custom ⟨.raw "c"⟩)]

/-- Other primitives and another operator, in other places, with the materials of `bell`. -/
def disguise : Node :=
  .transform (.translate .up) (.operator 2 .cut (.number .half)
    [.shape 0 (.plane .up) (.custom .white),
      .transform (.translate (.raw "b")) (.shape 1 (.sphere (.raw "q")) (.custom ⟨.raw "c"⟩))])

/-- The tree of `bell` with other materials. -/
def gilded : Node :=
  .operator 2 .difference (.raw "k")
    [.transform (.translate (.raw "a")) (.shape 0 (.sphere (.raw "r")) (.custom ⟨.raw "d"⟩)),
      .shape 1 (.ground .up) .standard]

/-- The tree of `bell` with other transforms and another smoothing factor. -/
def swung : Node :=
  .operator 2 .difference (.number .half) [.shape 0 (.sphere (.raw "r")) .standard,
    .transform (.translate .up) (.shape 1 (.ground .up) (.custom ⟨.raw "c"⟩))]

/-- What `bell` has in common with `disguise`, with `gilded` and with `swung`, by
`compile_depends_only`. -/
theorem compile_depends_only_bell :
    ((bell.compile .world .color .empty).1 = (disguise.compile .world .color .empty).1 ∧
      (disguise.compile .world .color .empty).2 = none) ∧
    bell.compile .world .sdf .empty = gilded.compile .world .sdf .empty ∧
    ∃ lines lines' : List String,
      (bell.compile .world .normal .empty).1.lines = lines.map (indent 0) ∧
      (swung.compile .world .normal .empty).1.lines = lines'.map (indent 0) ∧
      lines.length = lines'.length ∧
      ∀ (i : Nat) (line line' : String), lines[i]? = some line → lines'[i]? = some line' →
        line ≠ line' → i = 0 := by
  have hpainted : bell.bare.Alike .painted disguise.bare :=
    .operator trivial trivial (.cons (.shape trivial rfl) (.cons (.shape trivial rfl) .nil))
  have hshaped : bell.Alike .shaped gilded :=
    .operator rfl rfl (.cons (.transform (.shape rfl trivial)) (.cons (.shape rfl trivial) .nil))
  have horiented : bell.bare.Alike .oriented swung.bare :=
    .operator rfl trivial (.cons (.shape rfl trivial) (.cons (.shape rfl trivial) .nil))
  obtain ⟨hlines, houtcome⟩ :=
    (compile_depends_only bell disguise .world .world .empty).1 hpainted
  have hsdf := (compile_depends_only bell gilded .world .world .empty).2.1 hshaped .sdf nofun
  obtain ⟨-, lines, lines', hnormal, hnormal', hlength, hne⟩ :=
    (compile_depends_only bell swung .world .world .empty).2.2 horiented
  refine ⟨⟨hlines, (houtcome fun id kind smoothing children h => ?_).2⟩, hsdf, lines, lines',
    hnormal, hnormal', hlength, fun i line line' hline hline' h => ?_⟩
  · simp only [bell, parts, partsAll, List.mem_cons, List.mem_append, reduceCtorEq, or_false,
      operator.injEq, List.not_mem_nil] at h
    obtain ⟨-, -, -, rfl⟩ := h
    decide
  · obtain ⟨path, path', id, radius, finish, finish', hentry, -⟩ := hne i line line' hline hline' h
    cases i with
    | zero => rfl
    | succ i =>
      rw [← List.getElem?_tail] at hentry
      have hother := List.mem_of_getElem? hentry
      simp [bell, entries, entriesAll, OperatorKind.shortEntries, OperatorKind.foldEntries,
        OperatorKind.stepEntries] at hother

end Node

end FieldShader
