import FieldShader.Proofs.Scene.Fragments
import FieldShader.Proofs.Template.Splice

/-!
# Line ends of a compiled template

A template may separate its lines by a carriage return and a line feed. `FeedsFollowReturns` says
of a text that it does so throughout, and `Splicer.feedsFollowReturns_source_iff` says exactly when a
compiled template does so too: the lines that replace a directive end as its own line did, which is
right for every line but one. The last line of a template has no line feed after it and may have no
carriage return either; a directive that stands there and is replaced by several lines leaves them
parted by bare line feeds.

The proof is by lines. What separates the lines of a text is decided by how they end
(`feedsFollowReturns_joinLines`), provided that none of them holds a line feed, which is where the
fragments of the scene come in (`Splicer.newline_notMem_lines`).
-/

namespace FieldShader

/-! ## Line ends of a text -/

/-- Every line feed of the text comes right after a carriage return. -/
def FeedsFollowReturns (s : List Char) : Prop :=
  ∀ front back, s = front ++ '\n' :: back → front.getLast? = some '\r'

/-- A text without a line feed has none in a wrong place. -/
theorem feedsFollowReturns_of_notMem {s : List Char} (h : '\n' ∉ s) : FeedsFollowReturns s := by
  intro front back hs
  rw [hs] at h
  exact absurd (List.mem_append_right _ List.mem_cons_self) h

/-- The first line feed of a text and the others. -/
theorem feedsFollowReturns_append {line : List Char} (h : '\n' ∉ line) (s : List Char) :
    FeedsFollowReturns (line ++ '\n' :: s) ↔
      line.getLast? = some '\r' ∧ FeedsFollowReturns s := by
  constructor
  · intro hall
    refine ⟨hall line s rfl, fun front back hs => ?_⟩
    have hlast : (line ++ '\n' :: front).getLast? = some '\r' := by
      refine hall _ back ?_
      rw [hs, List.append_assoc, List.cons_append]
    cases front with
    | nil => simp at hlast
    | cons c rest => simpa using hlast
  · rintro ⟨hline, hs⟩ front back heq
    rcases List.append_eq_append_iff.1 heq with ⟨mid, rfl, hmid⟩ | ⟨mid, rfl, hmid⟩
    · cases mid with
      | nil => simpa using hline
      | cons c rest =>
        -- The line feed lies further on, behind the first one.
        obtain ⟨rfl, rfl⟩ : '\n' = c ∧ s = rest ++ '\n' :: back := by simpa using hmid
        have hrest := hs rest back rfl
        have hne : rest ≠ [] := by
          rintro rfl
          cases hrest
        obtain ⟨d, more, rfl⟩ := List.exists_cons_of_ne_nil hne
        simpa using hrest
    · cases mid with
      | nil => simpa using hline
      | cons c rest =>
        -- The line feed lies in the line itself, where there is none.
        obtain ⟨rfl, -⟩ : '\n' = c ∧ back = rest ++ '\n' :: s := by simpa using hmid
        exact absurd (List.mem_append_right _ List.mem_cons_self) h

/-- What separates the lines of a text is decided by how all of them but the last end. -/
theorem feedsFollowReturns_joinLines {lines : List (List Char)}
    (h : ∀ line ∈ lines, '\n' ∉ line) :
    FeedsFollowReturns (joinLines lines) ↔
      ∀ line ∈ lines.dropLast, line.getLast? = some '\r' := by
  induction lines with
  | nil => exact ⟨fun _ => nofun, fun _ => feedsFollowReturns_of_notMem nofun⟩
  | cons line rest ih =>
    have hline := h line List.mem_cons_self
    have hrest := ih fun l hl => h l (List.mem_cons_of_mem _ hl)
    cases rest with
    | nil => exact ⟨fun _ => nofun, fun _ => feedsFollowReturns_of_notMem hline⟩
    | cons next more =>
      rw [joinLines, feedsFollowReturns_append hline, hrest, List.dropLast_cons_cons,
        List.forall_mem_cons]

/-- The same of a text that is given. -/
theorem feedsFollowReturns_iff (s : List Char) :
    FeedsFollowReturns s ↔ ∀ line ∈ (splitLines s).dropLast, line.getLast? = some '\r' := by
  rw [← feedsFollowReturns_joinLines fun line => not_mem_of_mem_splitLines, joinLines_splitLines]

/-! ## Generated lines -/

/-- No number breaks a line. -/
theorem newline_notMem_toDigits (n : Nat) : '\n' ∉ Nat.toDigits 10 n := fun hmem =>
  absurd (Nat.isDigit_of_mem_toDigits (by decide) (by decide) hmem) (by decide)

/-- No message of an error breaks a line, unless the word that it quotes does. -/
theorem CompileError.newline_notMem_message {e : CompileError}
    (h : ∀ tag, e = .unknownProperty tag → '\n' ∉ tag.toList) : '\n' ∉ e.message.toList := by
  cases e with
  | unsupportedProperty p => cases p <;> decide +kernel
  | unknownProperty tag =>
    have htag := h tag rfl
    have hwords : '\n' ∉ "unknown property '".toList := by decide +kernel
    unfold message
    simp only [String.toList_append, List.mem_append, not_or]
    exact ⟨⟨hwords, htag⟩, by decide⟩
  | tooFewOperands kind count =>
    have hkind : '\n' ∉ (kind.name ++ " needs at least two operands, got ").toList := by
      cases kind <;> decide +kernel
    unfold message
    rw [String.toList_append, List.mem_append, not_or]
    exact ⟨hkind, by simpa using newline_notMem_toDigits count⟩

/-- An emission does not fail for want of a property. -/
theorem Node.failure_emit_ne_unknown {n : Node} {space : Space} {p : Property} (tag : String) :
    (n.emit space p).failure ≠ some (.unknownProperty tag) := by
  induction n using recTree generalizing space with
  | shape id primitive finish =>
    intro h
    cases p <;> cases h
  | material id finish =>
    intro h
    cases p <;> cases h
  | transform mapping child ih => exact ih
  | operator id kind smoothing children ih =>
    have hall (ns : List Node) (hns : ∀ c ∈ ns, ∀ {space : Space},
        (c.emit space p).failure ≠ some (.unknownProperty tag)) :
        (emitAll space p ns).failure ≠ some (.unknownProperty tag) := by
      intro h
      induction ns with
      | nil => cases h
      | cons c rest ihrest =>
        rw [emitAll, Emission.failure_andThen] at h
        rcases Option.or_eq_some_iff.1 h with h | ⟨-, h⟩
        · exact hns c List.mem_cons_self h
        · exact ihrest (fun m hm => hns m (List.mem_cons_of_mem _ hm)) h
    intro h
    rw [emit] at h
    split at h
    · cases h
    · rw [Emission.failure_andThen] at h
      rcases Option.or_eq_some_iff.1 h with h | ⟨-, h⟩
      · exact hall children ih h
      · cases h

/-- The word of a directive is on one line. -/
theorem Directive.newline_notMem_tag {line : List Char} {d : Directive}
    (h : Directive.ofLine? line = some d) : '\n' ∉ d.tag := by
  simp only [ofLine?, ofTrimmed?, Option.ite_none_right_eq_some, Option.some.injEq] at h
  obtain ⟨-, ⟨-, hword⟩, rfl⟩ := h
  intro hmem
  exact absurd (List.all_eq_true.1 hword _ hmem) (by decide +kernel)

namespace Splicer

variable {s : Splicer} {d : Directive} {ending : List Char}

/-- What stands in place of a directive: the text of declarations of its property, followed by a
comment if it fails, each line indented and ended as the directive is. -/
theorem lines_substitute (s : Splicer) (d : Directive) (ending : List Char) :
    ∃ p ds comments,
      (s.substitute d ending).lines =
        (ds.map Declaration.render ++ comments).map (Spliced.generate d ending) ∧
      ds ⊆ (s.root.emit .world p).declarations ++ s.aliasOf p ∧
      (comments = [] ∨ ∃ e, comments = [Spliced.comment d e] ∧
        ∀ tag, e = .unknownProperty tag → tag = String.ofList d.tag) := by
  cases htag : Property.ofTag? (String.ofList d.tag) with
  | none =>
    rw [substitute_of_unknown ending htag]
    refine ⟨.sdf, [], _, rfl, List.nil_subset _, .inr ⟨_, rfl, fun tag h => ?_⟩⟩
    cases h
    rfl
  | some p =>
    cases hfail : (s.root.emit .world p).failure with
    | none =>
      rw [substitute_of_ok ending htag hfail]
      refine ⟨p, _, [], ?_, List.Subset.refl _, .inl rfl⟩
      simp [Spliced.lines, Function.comp_def]
    | some e =>
      rw [substitute_of_error ending htag hfail]
      refine ⟨p, (s.root.emit .world p).declarations, [Spliced.comment d e], ?_,
        List.subset_append_left _ _, .inr ⟨e, rfl, fun tag h => ?_⟩⟩
      · simp [Spliced.lines, Function.comp_def]
      · rw [h] at hfail
        exact absurd hfail (Node.failure_emit_ne_unknown tag)

/-- The text of a declaration or a comment that stands in place of a directive is on one line. -/
theorem newline_notMem_generate {text : String} (h : '\n' ∉ text.toList)
    (hending : '\n' ∉ ending) : '\n' ∉ Spliced.generate d ending text := by
  simp [Spliced.generate, indent, h, hending]

/-- A splicer writes every line as one line, if the fragments of its scene are on one line each. -/
theorem newline_notMem_lines (hroot : ∀ source ∈ s.root.fragments, '\n' ∉ source.toList)
    {line : List Char} (hline : '\n' ∉ line) :
    ∀ text ∈ (s.spliceLine line).lines, '\n' ∉ text := by
  rcases hcut : cutReturn line with ⟨body, ending⟩
  obtain ⟨rfl, hends⟩ := cutReturn_eq_iff.1 hcut
  have hending : '\n' ∉ ending := fun h => hline (List.mem_append_right _ h)
  cases hd : Directive.ofLine? body with
  | none =>
    rw [spliceLine_of_none hcut hd]
    intro text htext
    rwa [List.mem_singleton.1 htext]
  | some d =>
    rw [spliceLine_of_some hcut hd]
    obtain ⟨p, ds, comments, hlines, hds, hcomments⟩ := s.lines_substitute d ending
    rw [hlines]
    intro text htext
    obtain ⟨written, hwritten, rfl⟩ := List.mem_map.1 htext
    refine newline_notMem_generate ?_ hending
    rcases List.mem_append.1 hwritten with hwritten | hwritten
    · obtain ⟨x, hx, rfl⟩ := List.mem_map.1 hwritten
      rcases List.mem_append.1 (hds hx) with hx | hx
      · exact Node.newline_notMem_render_emit hroot hx
      · unfold aliasOf at hx
        split at hx
        · rw [List.mem_singleton.1 hx]
          exact Declaration.newline_notMem_render nofun
        · cases hx
    · rcases hcomments with rfl | ⟨e, rfl, he⟩
      · cases hwritten
      · rw [List.mem_singleton.1 hwritten]
        have htag : '\n' ∉ (String.ofList d.tag).toList := by
          rw [String.toList_ofList]
          exact Directive.newline_notMem_tag hd
        have hmessage : '\n' ∉ e.message.toList :=
          CompileError.newline_notMem_message fun tag h => by rwa [he tag h]
        have hstart : '\n' ∉ "// #evaluate ".toList := by decide +kernel
        unfold Spliced.comment
        simp only [String.toList_append, List.mem_append, not_or]
        exact ⟨⟨⟨hstart, htag⟩, by decide⟩, hmessage⟩

/-! ## Line ends of the document -/

/-- A generated line ends as its directive does. -/
theorem getLast?_generate_return (d : Directive) (text : String) :
    (Spliced.generate d ['\r'] text).getLast? = some '\r' := by
  simp [Spliced.generate]

/-- A declaration in place of a directive without a carriage return ends with a semicolon. -/
theorem getLast?_generate_render (d : Directive) (x : Declaration) :
    (Spliced.generate d [] x.render).getLast? = some ';' := by
  have hline : Spliced.generate d [] x.render = List.replicate d.depth '\t' ++
      (x.target.property.type.keyword ++ " " ++ x.target.name ++ " = " ++
        x.value.render).toList ++ [';'] := by
    simp [Spliced.generate, indent, Declaration.render, Variable.declare]
  rw [hline, List.getLast?_concat]

/-- In place of a line with a carriage return all lines have one. -/
theorem getLast?_lines_of_return {line : List Char} (h : line.getLast? = some '\r') :
    ∀ text ∈ (s.spliceLine line).lines, text.getLast? = some '\r' := by
  obtain ⟨body, rfl⟩ := List.getLast?_eq_some_iff.1 h
  have hcut : cutReturn (body ++ ['\r']) = (body, ['\r']) :=
    cutReturn_eq_iff.2 ⟨rfl, .inl rfl⟩
  cases hd : Directive.ofLine? body with
  | none =>
    rw [spliceLine_of_none hcut hd]
    intro text htext
    rw [List.mem_singleton.1 htext]
    exact h
  | some d =>
    rw [spliceLine_of_some hcut hd]
    obtain ⟨p, ds, comments, hlines, -, -⟩ := s.lines_substitute d ['\r']
    rw [hlines]
    intro text htext
    obtain ⟨written, -, rfl⟩ := List.mem_map.1 htext
    exact getLast?_generate_return d written

/-- In place of a line without a carriage return all lines but the last lack it. -/
theorem getLast?_lines_ne_return {line : List Char} (h : line.getLast? ≠ some '\r') :
    ∀ text ∈ (s.spliceLine line).lines.dropLast, text.getLast? ≠ some '\r' := by
  have hcut : cutReturn line = (line, []) := cutReturn_eq_iff.2 ⟨by simp, .inr ⟨rfl, h⟩⟩
  cases hd : Directive.ofLine? line with
  | none =>
    rw [spliceLine_of_none hcut hd]
    nofun
  | some d =>
    rw [spliceLine_of_some hcut hd]
    obtain ⟨p, ds, comments, hlines, -, hcomments⟩ := s.lines_substitute d []
    -- Only declarations stand before the last line.
    have hinit : (ds.map Declaration.render ++ comments).dropLast ⊆ ds.map Declaration.render := by
      rcases hcomments with rfl | ⟨e, rfl, -⟩
      · rw [List.append_nil]
        exact List.dropLast_subset _
      · rw [List.dropLast_concat]
        exact List.Subset.refl _
    rw [hlines, ← List.map_dropLast]
    intro text htext
    obtain ⟨written, hwritten, rfl⟩ := List.mem_map.1 htext
    obtain ⟨x, -, rfl⟩ := List.mem_map.1 (hinit hwritten)
    rw [getLast?_generate_render]
    decide

/-- **Where a compiled template keeps carriage returns.** If every line feed of a template comes
after a carriage return, the same holds of the compiled template exactly when the last line of the
template has a carriage return as well or is not replaced by several lines. -/
theorem feedsFollowReturns_source_iff (s : Splicer) (t : String)
    (hroot : ∀ source ∈ s.root.fragments, '\n' ∉ source.toList)
    (ht : FeedsFollowReturns t.toList) :
    FeedsFollowReturns (s.compile t).source.toList ↔
      ∀ line, (splitLines t.toList).getLast? = some line →
        line.getLast? = some '\r' ∨ (s.spliceLine line).lines.length ≤ 1 := by
  obtain ⟨front, last, hlines⟩ : ∃ front last, splitLines t.toList = front ++ [last] :=
    ⟨_, _, (List.dropLast_concat_getLast (splitLines_ne_nil t.toList)).symm⟩
  have hfront : ∀ line ∈ front, line.getLast? = some '\r' := by
    have hall := (feedsFollowReturns_iff t.toList).1 ht
    rwa [hlines, List.dropLast_concat] at hall
  have hsource : (s.compile t).source.toList =
      joinLines (front.flatMap (fun line => (s.spliceLine line).lines) ++
        (s.spliceLine last).lines) := by
    simp [compile, splice, hlines, List.flatMap_map]
  have hone : ∀ text ∈ front.flatMap (fun line => (s.spliceLine line).lines) ++
      (s.spliceLine last).lines, '\n' ∉ text := by
    intro text htext
    have hline : ∃ line ∈ front ++ [last], text ∈ (s.spliceLine line).lines := by
      simpa [List.mem_append, List.mem_flatMap, or_comm] using htext
    obtain ⟨line, hline, htext⟩ := hline
    exact newline_notMem_lines hroot (not_mem_of_mem_splitLines (hlines ▸ hline)) text htext
  have hfirst : ∀ text ∈ front.flatMap (fun line => (s.spliceLine line).lines),
      text.getLast? = some '\r' := by
    intro text htext
    obtain ⟨line, hline, htext⟩ := List.mem_flatMap.1 htext
    exact getLast?_lines_of_return (hfront line hline) text htext
  rw [hsource, feedsFollowReturns_joinLines hone,
    List.dropLast_append_of_ne_nil (s.yields_spliceLine last).lines_ne_nil, hlines,
    List.getLast?_concat, List.forall_mem_append, and_iff_right hfirst]
  simp only [Option.some.injEq, forall_eq']
  by_cases hlast : last.getLast? = some '\r'
  · have hall := getLast?_lines_of_return (s := s) hlast
    exact ⟨fun _ => .inl hlast, fun _ text htext => hall text (List.dropLast_subset _ htext)⟩
  · have hnone := getLast?_lines_ne_return (s := s) hlast
    constructor
    · intro hall
      refine .inr ?_
      have hempty : (s.spliceLine last).lines.dropLast = [] :=
        List.eq_nil_iff_forall_not_mem.2 fun text htext => hnone text htext (hall text htext)
      have hlength := congrArg List.length hempty
      rw [List.length_dropLast, List.length_nil] at hlength
      omega
    · rintro (hreturn | hlength) text htext
      · exact absurd hreturn hlast
      · have hempty : (s.spliceLine last).lines.dropLast = [] := by
          apply List.eq_nil_of_length_eq_zero
          rw [List.length_dropLast]
          omega
        rw [hempty] at htext
        cases htext

/-- A ground, with its public alias. -/
def plainGround : Splicer := ⟨.shape 0 (.ground (.raw "n")) .standard, true⟩

/-- Between carriage returns a directive keeps them, and at the end of a template it does so when its
own line has one. -/
theorem feedsFollowReturns_source_plainGround :
    FeedsFollowReturns "\t#evaluate sdf\r\n#evaluate normal\r".toList ∧
    FeedsFollowReturns
      (plainGround.compile "\t#evaluate sdf\r\n#evaluate normal\r").source.toList := by
  have ht : FeedsFollowReturns "\t#evaluate sdf\r\n#evaluate normal\r".toList :=
    (feedsFollowReturns_iff _).2 (by decide)
  refine ⟨ht, (feedsFollowReturns_source_iff plainGround _ (by decide) ht).2 fun line hline => ?_⟩
  have hlast : line = "#evaluate normal\r".toList := by
    rw [show (splitLines "\t#evaluate sdf\r\n#evaluate normal\r".toList).getLast? =
      some "#evaluate normal\r".toList by decide] at hline
    exact (Option.some_inj.1 hline).symm
  rw [hlast]
  exact .inl (by decide)

/-- It is not enough that the line feeds of a template come after carriage returns: a directive in a
last line without one is replaced by lines that bare line feeds separate. -/
theorem bare_feed_after_last_directive :
    ¬ ∀ (s : Splicer) (t : String),
      (∀ source ∈ s.root.fragments, '\r' ∉ source.toList ∧ '\n' ∉ source.toList) →
      '\n' ∈ t.toList → FeedsFollowReturns t.toList →
      FeedsFollowReturns (s.compile t).source.toList := by
  intro h
  have hbare := h plainGround "vec3 n;\r\n#evaluate sdf" (by decide) (by decide)
    ((feedsFollowReturns_iff _).2 (by decide))
  rw [feedsFollowReturns_iff] at hbare
  exact absurd hbare (by decide +kernel)

end Splicer

end FieldShader
