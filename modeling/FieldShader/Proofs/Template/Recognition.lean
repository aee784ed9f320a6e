import FieldShader.Template.Directive
import Mathlib.Data.List.DropRight

/-!
# Which lines are directives

A directive can be written in many ways, which differ in the blanks at the end of the line alone.
`Directive.Spells` is the grammar: it says that a directive, followed by given blanks, is written as
a given line. `Directive.ofLine?_characterized` says that reading a line is the other direction of
this grammar: a line is read as a directive exactly if it spells that directive with some blanks, it
spells no other, and a line that spells none is not read as one.

Two facts make the reading unambiguous. No word character is a blank, so the word of a directive
ends where trimming the line stops; and the keyword does not start with a tab, so all tabs are
counted.
-/

namespace FieldShader

/-! ## The end of a line -/

/-- Blanks at the end of a text are trimmed, whatever stands before them. -/
theorem trimEnd_append {blanks : List Char} (h : ∀ c ∈ blanks, isBlank c = true) (s : List Char) :
    trimEnd (s ++ blanks) = trimEnd s := by
  unfold trimEnd
  rw [List.reverse_append, List.dropWhile_append_of_pos fun c hc => h c (List.mem_reverse.1 hc)]

/-- A text that ends with a word is not trimmed. -/
theorem trimEnd_append_word {word : List Char} (hne : word ≠ [])
    (h : ∀ c ∈ word, isWord c = true) (s : List Char) : trimEnd (s ++ word) = s ++ word := by
  obtain ⟨front, last, rfl⟩ : ∃ front last, word = front ++ [last] :=
    ⟨_, _, (List.dropLast_concat_getLast hne).symm⟩
  have hlast : isBlank last = false :=
    isBlank_of_isWord (h last (List.mem_append_right _ (List.mem_singleton_self last)))
  rw [← List.append_assoc]
  exact List.rdropWhile_concat_neg isBlank (s ++ front) last (by simp [hlast])

/-- What is trimmed off a text is made of blanks. -/
theorem exists_eq_trimEnd_append (s : List Char) :
    ∃ blanks, (∀ c ∈ blanks, isBlank c = true) ∧ s = trimEnd s ++ blanks :=
  ⟨s.rtakeWhile isBlank, fun _ hc => List.mem_rtakeWhile_imp hc,
    List.rdropWhile_append_rtakeWhile.symm⟩

namespace Directive

/-! ## The grammar -/

/-- A line spells a directive with the given blanks at its end: it is made of as many tabs as the
directive is deep, the keyword, one space, the word of the directive, which is not empty and made of
word characters, and the blanks. -/
structure Spells (d : Directive) (blanks line : List Char) : Prop where
  line_eq : line = List.replicate d.depth '\t' ++ "#evaluate ".toList ++ d.tag ++ blanks
  tag_ne_nil : d.tag ≠ []
  isWord_of_mem : ∀ c ∈ d.tag, isWord c = true
  isBlank_of_mem : ∀ c ∈ blanks, isBlank c = true

/-- The tabs at the front of a line, up to the first other character. -/
theorem takeWhile_tabs_append {c : Char} (hc : c ≠ '\t') (depth : Nat) (rest : List Char) :
    (List.replicate depth '\t' ++ c :: rest).takeWhile (· = '\t') = List.replicate depth '\t' ∧
      (List.replicate depth '\t' ++ c :: rest).dropWhile (· = '\t') = c :: rest := by
  have htab : ∀ x ∈ List.replicate depth '\t', decide (x = '\t') = true := by
    intro x hx
    rw [List.eq_of_mem_replicate hx]
    rfl
  constructor
  · rw [List.takeWhile_append_of_pos htab, List.takeWhile_cons_of_neg (by simpa using hc),
      List.append_nil]
  · rw [List.dropWhile_append_of_pos htab, List.dropWhile_cons_of_neg (by simpa using hc)]

/-- A line without blanks at its end is read as the directive that it spells. -/
theorem ofTrimmed?_eq_some_iff {line : List Char} {d : Directive} :
    ofTrimmed? line = some d ↔ d.Spells [] line := by
  constructor
  · intro h
    simp only [ofTrimmed?, Option.ite_none_right_eq_some, Option.some.injEq] at h
    obtain ⟨hkeyword, ⟨hne, hword⟩, rfl⟩ := h
    have htabs : line.takeWhile (· = '\t') =
        List.replicate (line.takeWhile (· = '\t')).length '\t' :=
      List.eq_replicate_iff.2 ⟨rfl, fun c hc => by simpa using List.mem_takeWhile_imp hc⟩
    have hbody := List.prefix_iff_eq_append.1 (List.isPrefixOf_iff_prefix.1 hkeyword)
    refine ⟨?_, hne, List.all_eq_true.1 hword, nofun⟩
    calc line = line.takeWhile (· = '\t') ++ line.dropWhile (· = '\t') :=
          List.takeWhile_append_dropWhile.symm
      _ = _ := by
          rw [List.append_nil, List.append_assoc, ← htabs]
          exact congrArg _ hbody.symm
  · rintro ⟨hline, hne, hword, -⟩
    obtain ⟨depth, tag⟩ := d
    have hparts : line = List.replicate depth '\t' ++ (keyword ++ tag) := by
      rw [hline, List.append_nil, List.append_assoc]
      rfl
    -- The keyword starts with a number sign, so all tabs are in front of it.
    obtain ⟨htake, hdrop⟩ := takeWhile_tabs_append (by decide : '#' ≠ '\t') depth
      ("evaluate ".toList ++ tag)
    rw [show '#' :: ("evaluate ".toList ++ tag) = keyword ++ tag from rfl] at htake hdrop
    have hkeyword : keyword.isPrefixOf (keyword ++ tag) = true :=
      List.isPrefixOf_iff_prefix.2 (List.prefix_append _ _)
    have hall : tag.all isWord = true := List.all_eq_true.2 hword
    simp only [ofTrimmed?, hparts, htake, hdrop, hkeyword, List.drop_left, hall,
      List.length_replicate]
    simp [show tag ≠ [] from hne]

/-- **A line is read as a directive if and only if it spells it** with some blanks at its end. -/
theorem ofLine?_eq_some_iff {line : List Char} {d : Directive} :
    ofLine? line = some d ↔ ∃ blanks, d.Spells blanks line := by
  rw [ofLine?, ofTrimmed?_eq_some_iff]
  constructor
  · rintro ⟨htrimmed, hne, hword, -⟩
    obtain ⟨blanks, hblanks, hline⟩ := exists_eq_trimEnd_append line
    refine ⟨blanks, ?_, hne, hword, hblanks⟩
    rw [htrimmed, List.append_nil] at hline
    exact hline
  · rintro ⟨blanks, hline, hne, hword, hblanks⟩
    refine ⟨?_, hne, hword, nofun⟩
    rw [hline, trimEnd_append hblanks, trimEnd_append_word hne hword, List.append_nil]

/-- A line spells at most one directive, and with the same blanks. -/
theorem Spells.unique {d d' : Directive} {blanks blanks' line : List Char}
    (h : d.Spells blanks line) (h' : d'.Spells blanks' line) : d = d' ∧ blanks = blanks' := by
  have hread : some d = some d' :=
    (ofLine?_eq_some_iff.2 ⟨blanks, h⟩).symm.trans (ofLine?_eq_some_iff.2 ⟨blanks', h'⟩)
  obtain rfl := Option.some_inj.1 hread
  exact ⟨rfl, List.append_cancel_left (h.line_eq.symm.trans h'.line_eq)⟩

/-- **Directives are recognised by their grammar.** A line is read as a directive exactly if it
spells it: its tabs, the keyword and one space, its word, and blanks up to the end. The parts of a
line that spells a directive are determined by the line, and a line that spells none is read as
none. -/
theorem ofLine?_characterized (line : List Char) :
    (∀ d, ofLine? line = some d ↔ ∃ blanks, d.Spells blanks line) ∧
    (∀ (d d' : Directive) (blanks blanks' : List Char),
      d.Spells blanks line → d'.Spells blanks' line → d = d' ∧ blanks = blanks') ∧
    (ofLine? line = none ↔ ∀ (d : Directive) (blanks : List Char), ¬ d.Spells blanks line) := by
  refine ⟨fun d => ofLine?_eq_some_iff, fun d d' blanks blanks' h h' => h.unique h', ?_⟩
  rw [Option.eq_none_iff_forall_ne_some]
  constructor
  · intro h d blanks hspells
    exact h d (ofLine?_eq_some_iff.2 ⟨blanks, hspells⟩)
  · intro h d hd
    obtain ⟨blanks, hspells⟩ := ofLine?_eq_some_iff.1 hd
    exact h d blanks hspells

/-- A word outside ASCII, a tab and a wide space at the end; and a line that starts with a space
after its tab. -/
theorem ofLine?_characterized_wide :
    ofLine? "\t\t#evaluate größe_2\t\u3000\r".toList = some ⟨2, "größe_2".toList⟩ ∧
    (∀ (d : Directive) (blanks : List Char),
      d.Spells blanks "\t\t#evaluate größe_2\t\u3000\r".toList →
      d = ⟨2, "größe_2".toList⟩ ∧ blanks = "\t\u3000\r".toList) ∧
    ∀ (d : Directive) (blanks : List Char), ¬ d.Spells blanks "\t #evaluate sdf".toList := by
  have hspells : Spells ⟨2, "größe_2".toList⟩ "\t\u3000\r".toList
      "\t\t#evaluate größe_2\t\u3000\r".toList :=
    ⟨by decide, by decide, List.all_eq_true.1 (by decide +kernel), List.all_eq_true.1 (by decide)⟩
  obtain ⟨hsome, hunique, -⟩ := ofLine?_characterized "\t\t#evaluate größe_2\t\u3000\r".toList
  refine ⟨(hsome _).2 ⟨_, hspells⟩, fun d blanks h => hunique d _ blanks _ h hspells, ?_⟩
  exact (ofLine?_characterized "\t #evaluate sdf".toList).2.2.1 (by decide +kernel)

end Directive

end FieldShader
