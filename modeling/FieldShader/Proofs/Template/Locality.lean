import FieldShader.Proofs.Template.Splice

/-!
# Splicing is exact and local

A compiled template is determined line by line. `Splicer.compile_local` says this in three parts: a
template in two parts is compiled part by part, the failures of the second part being moved down
by the lines of the first; a template of one line is copied, replaced by the lines of its property
or by what was emitted before a failure and a comment; and a template without directives comes
back unchanged.

The text that stands in place of a directive is written `Directive.dress`: every line is indented
as the directive was and ends as it did.
-/

namespace FieldShader

/-- Lines in place of a directive: indented by its tabs, ended by what its own line ended with, and
separated by line feeds. -/
def Directive.dress (d : Directive) (ending : List Char) (lines : List String) : String :=
  "\n".intercalate (lines.map fun line =>
    String.ofList (List.replicate d.depth '\t') ++ line ++ String.ofList ending)

/-- The failure, on a line that is moved down. -/
def DirectiveFailure.shift (f : DirectiveFailure) (lines : Nat) : DirectiveFailure :=
  { f with line := f.line + lines }

/-- The text of generated lines. -/
theorem ofList_joinLines_generate (d : Directive) (ending : List Char) (lines : List String) :
    String.ofList (joinLines (lines.map (Spliced.generate d ending))) = d.dress ending lines := by
  have hline : ∀ line ∈ lines, Spliced.generate d ending line =
      (String.ofList (List.replicate d.depth '\t') ++ line ++ String.ofList ending).toList := by
    intro line _
    simp [Spliced.generate, indent]
  rw [List.map_congr_left hline, Directive.dress, ← String.toList_inj, String.toList_ofList,
    toList_intercalate_newline, List.map_map]
  rfl

/-- The lines that declarations generate are their renderings. -/
theorem map_generate_render (d : Directive) (ending : List Char) (ds : List Declaration) :
    (ds.map fun x => Spliced.generate d ending x.render) =
      (ds.map Declaration.render).map (Spliced.generate d ending) := by
  rw [List.map_map]
  rfl

/-- Compiling a property in world space is emitting it and rendering what was emitted. -/
theorem Node.emit_of_compile_eq {n : Node} {p : Property} {l : Listing} {e : Option CompileError}
    (hl : n.compile .world p .empty = (l, e)) : (n.emit .world p).failure = e ∧
      l.lines = (n.emit .world p).declarations.map Declaration.render := by
  constructor
  · exact congrArg Prod.snd hl
  · rw [← lines_compile_empty, hl]

namespace Spliced

/-- On a line further down the same thing fails there. -/
theorem failure?_add (line lines : Nat) (x : Spliced) :
    x.failure? (line + lines) = (x.failure? line).map (·.shift lines) := by
  cases x with
  | copied line => rfl
  | substituted d p ds ending => rfl
  | failed d ds e ending => rfl

end Spliced

namespace Splicer

variable {s : Splicer}

/-- The failures of further lines are counted on from the lines before them. -/
theorem failuresFrom_append (line : Nat) (xs ys : List Spliced) :
    failuresFrom line (xs ++ ys) =
      failuresFrom line xs ++ failuresFrom (line + xs.length) ys := by
  induction xs generalizing line with
  | nil => rfl
  | cons x xs ih =>
    have hline : line + (x :: xs).length = line + 1 + xs.length := by
      rw [List.length_cons]
      omega
    rw [List.cons_append, failuresFrom, failuresFrom, ih, hline, List.append_assoc]

/-- The failures of lines that are moved down are moved down. -/
theorem failuresFrom_add (line lines : Nat) (xs : List Spliced) :
    failuresFrom (line + lines) xs = (failuresFrom line xs).map (·.shift lines) := by
  induction xs generalizing line with
  | nil => rfl
  | cons x xs ih =>
    have hline : line + lines + 1 = line + 1 + lines := by omega
    rw [failuresFrom, failuresFrom, hline, ih, Spliced.failure?_add, List.map_append]
    cases x.failure? line <;> rfl

/-! ## Two parts -/

section
variable (s : Splicer) (t u : String)

/-- The spliced lines of two texts with a line feed between them. -/
theorem splice_toList_append :
    s.splice (t ++ "\n" ++ u).toList = s.splice t.toList ++ s.splice u.toList := by
  rw [← splice_append]
  simp

/-- The shader of a template in two parts. -/
theorem source_compile_append :
    (s.compile (t ++ "\n" ++ u)).source = (s.compile t).source ++ "\n" ++ (s.compile u).source := by
  have hjoin := joinLines_append (s.flatMap_lines_ne_nil t.toList) (s.flatMap_lines_ne_nil u.toList)
  simp only [compile, splice_toList_append, List.flatMap_append, hjoin]
  rw [← String.toList_inj]
  simp

/-- The failures of a template in two parts. -/
theorem failures_compile_append :
    (s.compile (t ++ "\n" ++ u)).failures = (s.compile t).failures ++
      (s.compile u).failures.map (·.shift (t.toList.count '\n' + 1)) := by
  simp only [compile, splice_toList_append]
  rw [failuresFrom_append, length_splice, failuresFrom_add]

end

/-! ## One line -/

section
variable {line : String} {body ending : List Char} {d : Directive}

/-- What a template of one line is compiled to. -/
theorem compile_line (h : '\n' ∉ line.toList) {x : Spliced}
    (hx : s.spliceLine line.toList = x) :
    (s.compile line).source = String.ofList (joinLines x.lines) ∧
      (s.compile line).directives = x.isDirective.toNat ∧
      (s.compile line).failures = (x.failure? 1).toList := by
  subst hx
  refine ⟨?_, ?_, ?_⟩
  · simp [compile, s.splice_of_notMem h]
  · simp only [compile, s.splice_of_notMem h, List.countP_singleton]
    cases Spliced.isDirective (s.spliceLine line.toList) <;> rfl
  · simp [compile, s.splice_of_notMem h, failuresFrom]

/-- A line that is no directive comes back. -/
theorem compile_of_none (h : '\n' ∉ line.toList) (hcut : cutReturn line.toList = (body, ending))
    (hd : Directive.ofLine? body = none) :
    (s.compile line).source = line ∧ (s.compile line).directives = 0 ∧
      (s.compile line).failures = [] := by
  obtain ⟨hsource, hdirectives, hfailures⟩ := compile_line h (spliceLine_of_none hcut hd)
  refine ⟨?_, hdirectives, hfailures⟩
  rw [hsource, Spliced.lines, joinLines, String.ofList_toList]

/-- A line that is a directive counts as one, whether or not it fails. -/
theorem directives_of_some (h : '\n' ∉ line.toList)
    (hcut : cutReturn line.toList = (body, ending)) (hd : Directive.ofLine? body = some d) :
    (s.compile line).directives = 1 := by
  have hx : (s.spliceLine line.toList).isDirective = true := by
    rw [spliceLine_of_some hcut hd, substitute]
    split
    · rfl
    · split <;> rfl
  rw [(compile_line h rfl).2.1, hx]
  rfl

/-- A directive whose property can be compiled becomes the lines of the property. -/
theorem compile_of_ok (h : '\n' ∉ line.toList) (hcut : cutReturn line.toList = (body, ending))
    (hd : Directive.ofLine? body = some d) {p : Property}
    (htag : Property.ofTag? (String.ofList d.tag) = some p) {l : Listing}
    (hl : s.root.compile .world p .empty = (l, none)) :
    (s.compile line).source = d.dress ending
        (l.lines ++ if s.aliases then [(Declaration.publish p s.root.id).render] else []) ∧
      (s.compile line).failures = [] ∧
      s.root.compileProperty p =
        .ok (l.lines ++ [(Declaration.publish p s.root.id).render]) := by
  obtain ⟨hok, hlines⟩ := Node.emit_of_compile_eq hl
  have hx := (spliceLine_of_some hcut hd).trans (substitute_of_ok ending htag hok)
  obtain ⟨hsource, -, hfailures⟩ := compile_line h hx
  refine ⟨?_, hfailures, ?_⟩
  · rw [hsource, Spliced.lines, map_generate_render, ofList_joinLines_generate, List.map_append,
      hlines, aliasOf]
    cases s.aliases <;> rfl
  · rw [Node.compileProperty_eq_ok hok, Node.published, List.map_append, hlines]
    rfl

/-- A directive whose property cannot be compiled becomes what was emitted before the failure, and
a comment. -/
theorem compile_of_error (h : '\n' ∉ line.toList) (hcut : cutReturn line.toList = (body, ending))
    (hd : Directive.ofLine? body = some d) {p : Property}
    (htag : Property.ofTag? (String.ofList d.tag) = some p) {l : Listing} {e : CompileError}
    (hl : s.root.compile .world p .empty = (l, some e)) :
    (s.compile line).source = d.dress ending (l.lines ++
        ["// #evaluate " ++ String.ofList d.tag ++ ": " ++ e.message]) ∧
      (s.compile line).failures = [⟨1, String.ofList d.tag, e⟩] := by
  obtain ⟨he, hlines⟩ := Node.emit_of_compile_eq hl
  have hx := (spliceLine_of_some hcut hd).trans (substitute_of_error ending htag he)
  obtain ⟨hsource, -, hfailures⟩ := compile_line h hx
  refine ⟨?_, hfailures⟩
  rw [hsource, Spliced.lines, map_generate_render, ← List.map_singleton, ← List.map_append,
    ofList_joinLines_generate, hlines]
  rfl

/-- A directive that names no property becomes a comment alone. -/
theorem compile_of_unknown (h : '\n' ∉ line.toList)
    (hcut : cutReturn line.toList = (body, ending)) (hd : Directive.ofLine? body = some d)
    (htag : Property.ofTag? (String.ofList d.tag) = none) :
    (s.compile line).source = d.dress ending ["// #evaluate " ++ String.ofList d.tag ++ ": " ++
        (CompileError.unknownProperty (String.ofList d.tag)).message] ∧
      (s.compile line).failures =
        [⟨1, String.ofList d.tag, .unknownProperty (String.ofList d.tag)⟩] := by
  have hx := (spliceLine_of_some (s := s) hcut hd).trans (substitute_of_unknown ending htag)
  obtain ⟨hsource, -, hfailures⟩ := compile_line h hx
  refine ⟨?_, hfailures⟩
  rw [hsource, ← ofList_joinLines_generate]
  rfl

end

/-! ## No directives -/

/-- The lines of a text without directives are copied. -/
theorem splice_of_none {t : List Char}
    (h : ∀ line ∈ splitLines t, Directive.ofLine? (cutReturn line).1 = none) :
    s.splice t = (splitLines t).map .copied :=
  List.map_congr_left fun line hline => spliceLine_of_none rfl (h line hline)

/-- No copied line is a failure. -/
theorem failuresFrom_copied (line : Nat) (texts : List (List Char)) :
    failuresFrom line (texts.map .copied) = [] := by
  induction texts generalizing line with
  | nil => rfl
  | cons text rest ih => exact ih (line + 1)

/-- Nor is anything logged about it. -/
theorem logFrom_copied (s : Splicer) (primed : Bool) (line : Nat) (texts : List (List Char)) :
    s.logFrom primed line (texts.map .copied) = [] := by
  induction texts generalizing primed line with
  | nil => rfl
  | cons text rest ih => exact ih _ (line + 1)

/-- A text without directives comes back, and there is nothing to report. -/
theorem compile_eq_of_none {t : String}
    (h : ∀ line ∈ splitLines t.toList, Directive.ofLine? (cutReturn line).1 = none) :
    s.compile t = ⟨t, 0, [], []⟩ := by
  have hlines : ((splitLines t.toList).map Spliced.copied).flatMap Spliced.lines =
      splitLines t.toList := by
    rw [List.flatMap_map]
    exact List.flatMap_singleton' _
  have hnone : ((splitLines t.toList).map Spliced.copied).countP Spliced.isDirective = 0 := by
    rw [List.countP_eq_zero, List.forall_mem_map]
    exact fun _ _ => Bool.false_ne_true
  rw [compile, splice_of_none h]
  simp only [hlines, hnone, failuresFrom_copied, logFrom_copied, joinLines_splitLines,
    String.ofList_toList]

/-- A text without directives comes back. -/
theorem source_compile_of_none {t : String}
    (h : ∀ line ∈ splitLines t.toList, Directive.ofLine? (cutReturn line).1 = none) :
    (s.compile t).source = t := by
  rw [compile_eq_of_none h]

/-- **Splicing is exact and local.** A template in two parts is compiled part by part. A line that
is no directive is copied; a directive whose property can be compiled becomes the lines of the
property, and the alias if it is wanted; any other directive becomes the lines that were emitted
before the failure and one comment, and is the only failure. A template without directives comes
back as it is. -/
theorem compile_local (s : Splicer) :
    (∀ t u : String,
      (s.compile (t ++ "\n" ++ u)).source =
        (s.compile t).source ++ "\n" ++ (s.compile u).source ∧
      (s.compile (t ++ "\n" ++ u)).directives =
        (s.compile t).directives + (s.compile u).directives ∧
      (s.compile (t ++ "\n" ++ u)).failures = (s.compile t).failures ++
        (s.compile u).failures.map (·.shift (t.toList.count '\n' + 1))) ∧
    (∀ (line : String) (body ending : List Char), '\n' ∉ line.toList →
      cutReturn line.toList = (body, ending) →
      (Directive.ofLine? body = none → (s.compile line).source = line ∧
        (s.compile line).directives = 0 ∧ (s.compile line).failures = []) ∧
      ∀ d, Directive.ofLine? body = some d → (s.compile line).directives = 1 ∧
        (∀ p l, Property.ofTag? (String.ofList d.tag) = some p →
          s.root.compile .world p .empty = (l, none) →
          (s.compile line).source = d.dress ending (l.lines ++
            if s.aliases then [(Declaration.publish p s.root.id).render] else []) ∧
          (s.compile line).failures = [] ∧ s.root.compileProperty p =
            .ok (l.lines ++ [(Declaration.publish p s.root.id).render])) ∧
        (∀ p l e, Property.ofTag? (String.ofList d.tag) = some p →
          s.root.compile .world p .empty = (l, some e) →
          (s.compile line).source = d.dress ending (l.lines ++
            ["// #evaluate " ++ String.ofList d.tag ++ ": " ++ e.message]) ∧
          (s.compile line).failures = [⟨1, String.ofList d.tag, e⟩]) ∧
        (Property.ofTag? (String.ofList d.tag) = none →
          (s.compile line).source = d.dress ending ["// #evaluate " ++ String.ofList d.tag ++
            ": " ++ (CompileError.unknownProperty (String.ofList d.tag)).message] ∧
          (s.compile line).failures =
            [⟨1, String.ofList d.tag, .unknownProperty (String.ofList d.tag)⟩])) ∧
    ∀ t : String, (∀ line ∈ splitLines t.toList, Directive.ofLine? (cutReturn line).1 = none) →
      (s.compile t).source = t := by
  refine ⟨fun t u => ⟨s.source_compile_append t u, ?_, s.failures_compile_append t u⟩, ?_,
    fun t => source_compile_of_none⟩
  · simp only [compile, splice_toList_append, List.countP_append]
  · intro line body ending hline hcut
    refine ⟨compile_of_none hline hcut, fun d hd => ⟨?_, ?_, ?_, ?_⟩⟩
    · exact directives_of_some hline hcut hd
    · intro p l htag hl
      exact compile_of_ok hline hcut hd htag hl
    · intro p l e htag hl
      exact compile_of_error hline hcut hd htag hl
    · intro htag
      exact compile_of_unknown hline hcut hd htag

/-- A union of a ground with a leaf that has only a color: its distance fails on the second operand,
its color does not. -/
def halfColored : Splicer :=
  ⟨.operator 2 .union (.raw "k") [.shape 0 (.ground (.raw "n")) .standard, .material 1 .standard],
    true⟩

/-- The lines of `halfColored` under its one failing property, and the other parts of
`compile_local` on short templates. -/
theorem compile_local_halfColored :
    (halfColored.compile "\t#evaluate sdf\r").source =
      "\tfloat sdf0 = dot(point - vec3(0.0, 0.0, 0.0), (n));\r\n" ++
        "\t// #evaluate sdf: material does not support property 'sdf'\r" ∧
    (halfColored.compile "\t#evaluate sdf\r").failures =
      [⟨1, "sdf", .unsupportedProperty .sdf⟩] ∧
    (halfColored.compile ("a\nb" ++ "\n" ++ "\t#evaluate sdf\r")).failures =
      [⟨3, "sdf", .unsupportedProperty .sdf⟩] ∧
    (halfColored.compile "#evaluate color").failures = [] ∧
    (halfColored.compile "vec3 c = d;\r\n").source = "vec3 c = d;\r\n" := by
  have hline := (compile_local halfColored).2.1 "\t#evaluate sdf\r" "\t#evaluate sdf".toList ['\r']
    (by decide) (by decide)
  obtain ⟨-, -, hfail, -⟩ := hline.2 ⟨1, "sdf".toList⟩ (by decide +kernel)
  obtain ⟨hsource, hfailures⟩ := hfail .sdf
    ⟨["float sdf0 = dot(point - vec3(0.0, 0.0, 0.0), (n));"], 0⟩ (.unsupportedProperty .sdf)
    (by decide) (by decide +kernel)
  have hcolor := (compile_local halfColored).2.1 "#evaluate color" "#evaluate color".toList []
    (by decide) (by decide)
  obtain ⟨-, hok, -, -⟩ := hcolor.2 ⟨0, "color".toList⟩ (by decide +kernel)
  refine ⟨hsource.trans (by decide +kernel), hfailures, ?_, ?_, ?_⟩
  · rw [((compile_local halfColored).1 "a\nb" "\t#evaluate sdf\r").2.2, hfailures]
    decide +kernel
  · exact (hok .color _ (by decide) rfl).2.1
  · exact (compile_local halfColored).2.2 "vec3 c = d;\r\n" (by decide +kernel)

end Splicer

end FieldShader
