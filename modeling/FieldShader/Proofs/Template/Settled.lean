import FieldShader.Proofs.Template.Endings
import FieldShader.Proofs.Template.Locality
import FieldShader.Proofs.Template.Recognition

/-!
# A compiled template is settled

Compiling a template leaves nothing to compile: `Splicer.compile_settled` says that no line of a
compiled template is a directive, so that compiling it again gives the same text, whatever the
scene. This is not plain from the text of the lines, since the comment that stands in place of a
failed directive quotes the directive.

A copied line is no directive because it was none before. A generated line is none because of its
first letter: after the tabs of the directive it goes on with the keyword of a type or with the
slash of a comment, and a directive goes on with a number sign (`Directive.ofLine?_tabs`). What a
line ends with does not matter, for a carriage return is a blank (`Splicer.ofLine?_cutReturn`).

The lines of the compiled template are the lines that were spliced only if none of these breaks,
which is where the fragments of the scene come in.
-/

namespace FieldShader

/-- A line whose first character after its tabs is not that of the keyword is no directive. -/
theorem Directive.ofLine?_tabs {c : Char} (htab : c ≠ '\t') (hhash : c ≠ '#') (depth : Nat)
    (rest : List Char) : ofLine? (List.replicate depth '\t' ++ c :: rest) = none := by
  rw [Option.eq_none_iff_forall_ne_some]
  intro d hd
  obtain ⟨blanks, hspells⟩ := ofLine?_eq_some_iff.1 hd
  -- Both ways to write the line are cut at the end of the tabs.
  have hline := congrArg (List.dropWhile (· = '\t')) hspells.line_eq
  have hkeyword : List.replicate d.depth '\t' ++ "#evaluate ".toList ++ d.tag ++ blanks =
      List.replicate d.depth '\t' ++ '#' :: ("evaluate ".toList ++ d.tag ++ blanks) := by
    simp only [List.append_assoc]
    rfl
  rw [hkeyword, (takeWhile_tabs_append htab depth rest).2,
    (takeWhile_tabs_append (by decide) d.depth _).2] at hline
  exact hhash (List.cons.inj hline).1

/-- The text of a declaration starts with a letter of its type. -/
theorem Declaration.exists_toList_render (x : Declaration) :
    ∃ c rest, x.render.toList = c :: rest ∧ c ≠ '\t' ∧ c ≠ '#' := by
  obtain ⟨c, word, hkeyword, hc⟩ : ∃ c word, x.target.property.type.keyword.toList = c :: word ∧
      c ≠ '\t' ∧ c ≠ '#' := by
    cases x.target.property.type
    · exact ⟨'f', "loat".toList, rfl, by decide⟩
    · exact ⟨'v', "ec3".toList, rfl, by decide⟩
  refine ⟨c, word ++ (" " ++ x.target.name ++ " = " ++ x.value.render ++ ";").toList, ?_, hc⟩
  simp [render, Variable.declare, hkeyword]

/-- A comment starts with a slash. -/
theorem Spliced.exists_toList_comment (d : Directive) (e : CompileError) :
    ∃ rest, (comment d e).toList = '/' :: rest := by
  have hstart : "// #evaluate ".toList = '/' :: "/ #evaluate ".toList := by decide
  unfold comment
  rw [String.append_assoc, String.append_assoc, String.toList_append, hstart, List.cons_append]
  exact ⟨_, rfl⟩

namespace Splicer

variable {s : Splicer}

/-- A carriage return at the end of a line decides nothing about it. -/
theorem ofLine?_cutReturn (line : List Char) :
    Directive.ofLine? (cutReturn line).1 = Directive.ofLine? line := by
  rcases hcut : cutReturn line with ⟨body, ending⟩
  obtain ⟨rfl, hending⟩ := cutReturn_eq_iff.1 hcut
  have hblank : ∀ c ∈ ending, isBlank c = true := by
    rcases hending with rfl | ⟨rfl, -⟩
    · exact List.all_eq_true.1 (by decide)
    · nofun
  rw [Directive.ofLine?, Directive.ofLine?, trimEnd_append hblank]

/-- No line that stands in place of a line is a directive. -/
theorem ofLine?_of_mem_lines {line text : List Char} (h : text ∈ (s.spliceLine line).lines) :
    Directive.ofLine? text = none := by
  rcases hcut : cutReturn line with ⟨body, ending⟩
  cases hd : Directive.ofLine? body with
  | none =>
    rw [spliceLine_of_none hcut hd] at h
    rw [List.mem_singleton.1 h, ← ofLine?_cutReturn, hcut, hd]
  | some d =>
    rw [spliceLine_of_some hcut hd] at h
    obtain ⟨p, ds, comments, hlines, -, hcomments⟩ := s.lines_substitute d ending
    rw [hlines] at h
    obtain ⟨written, hwritten, rfl⟩ := List.mem_map.1 h
    obtain ⟨c, rest, hfirst, htab, hhash⟩ :
        ∃ c rest, written.toList = c :: rest ∧ c ≠ '\t' ∧ c ≠ '#' := by
      rcases List.mem_append.1 hwritten with hwritten | hwritten
      · obtain ⟨x, -, rfl⟩ := List.mem_map.1 hwritten
        exact x.exists_toList_render
      · rcases hcomments with rfl | ⟨e, rfl, -⟩
        · cases hwritten
        · obtain ⟨rest, hrest⟩ := Spliced.exists_toList_comment d e
          exact ⟨'/', rest, by rw [List.mem_singleton.1 hwritten, hrest], by decide, by decide⟩
    have hline : Spliced.generate d ending written =
        List.replicate d.depth '\t' ++ c :: (rest ++ ending) := by
      simp [Spliced.generate, indent, hfirst]
    rw [hline]
    exact Directive.ofLine?_tabs htab hhash d.depth _

/-- The lines of a compiled template are those that stand in place of the lines of the template, if
the fragments of the scene are on one line each. -/
theorem splitLines_source (hroot : ∀ source ∈ s.root.fragments, '\n' ∉ source.toList)
    (t : String) : splitLines (s.compile t).source.toList =
      (s.splice t.toList).flatMap Spliced.lines := by
  have hone : ∀ text ∈ (s.splice t.toList).flatMap Spliced.lines, '\n' ∉ text := by
    intro text htext
    obtain ⟨x, hx, htext⟩ := List.mem_flatMap.1 htext
    obtain ⟨line, hline, rfl⟩ := List.mem_map.1 hx
    exact newline_notMem_lines hroot (not_mem_of_mem_splitLines hline) text htext
  rw [compile, String.toList_ofList, splitLines_joinLines (s.flatMap_lines_ne_nil t.toList) hone]

/-- **A compiled template is settled.** If the fragments of a scene are on one line each, no line of
a template that it was spliced into is a directive. Compiling the result again, with any scene and
with or without aliases, gives it back: there are no directives, no failures and nothing to log. -/
theorem compile_settled (s : Splicer) (t : String)
    (hroot : ∀ source ∈ s.root.fragments, '\n' ∉ source.toList) :
    (∀ line ∈ splitLines (s.compile t).source.toList,
      Directive.ofLine? (cutReturn line).1 = none) ∧
    ∀ s' : Splicer, s'.compile (s.compile t).source = ⟨(s.compile t).source, 0, [], []⟩ := by
  have hnone : ∀ line ∈ splitLines (s.compile t).source.toList,
      Directive.ofLine? (cutReturn line).1 = none := by
    intro line hline
    rw [splitLines_source hroot] at hline
    obtain ⟨x, hx, hline⟩ := List.mem_flatMap.1 hline
    obtain ⟨before, -, rfl⟩ := List.mem_map.1 hx
    rw [ofLine?_cutReturn]
    exact ofLine?_of_mem_lines hline
  exact ⟨hnone, fun s' => compile_eq_of_none hnone⟩

/-- Two directives that fail, each in its own way: the comments quote them, and neither is compiled
again. -/
theorem compile_settled_halfColored :
    (∀ source ∈ halfColored.root.fragments, '\n' ∉ source.toList) ∧
    (halfColored.compile "\t#evaluate sdf\r\n#evaluate albedo ").source =
      "\tfloat sdf0 = dot(point - vec3(0.0, 0.0, 0.0), (n));\r\n" ++
        "\t// #evaluate sdf: material does not support property 'sdf'\r\n" ++
        "// #evaluate albedo: unknown property 'albedo'" ∧
    ∀ s' : Splicer,
      s'.compile (halfColored.compile "\t#evaluate sdf\r\n#evaluate albedo ").source =
        ⟨(halfColored.compile "\t#evaluate sdf\r\n#evaluate albedo ").source, 0, [], []⟩ := by
  have hroot : ∀ source ∈ halfColored.root.fragments, '\n' ∉ source.toList := by decide
  refine ⟨hroot, by decide +kernel, ?_⟩
  exact (compile_settled halfColored "\t#evaluate sdf\r\n#evaluate albedo " hroot).2

/-- A fragment that breaks its line can bring a directive with it, which the next run compiles. -/
example :
    let s : Splicer := ⟨.shape 0 (.ground (.raw "n\n#evaluate color\n")) .standard, false⟩
    (s.compile (s.compile "#evaluate sdf").source).directives = 1 := by decide +kernel

end Splicer

end FieldShader
