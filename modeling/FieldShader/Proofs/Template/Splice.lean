import FieldShader.Proofs.Scene.Declared
import FieldShader.Proofs.Text.Lines
import FieldShader.Template.Splice

/-!
# What becomes of a line

The facts about splicing that the properties of whole documents rest on. `Splicer.cutReturn_eq_iff`
says how a line is parted from its carriage return. `Splicer.spliceLine_of_none` and the three
equations of `Splicer.substitute` give each fate of a line; `Splicer.Yields` collects them, for
proofs that look at a line after it was spliced.

Lines are spliced one by one, so a document in two parts is spliced part by part
(`Splicer.splice_append`). No line vanishes: what replaces a directive has at least one line
(`Splicer.Yields.lines_ne_nil`), since a property that was emitted completely has declared its own
variable. Without this the parts of a document could not be joined by a line feed.
-/

namespace FieldShader

/-- A property that was emitted completely has at least one declaration. -/
theorem Node.declarations_ne_nil {n : Node} {space : Space} {p : Property}
    (h : (n.emit space p).failure = none) : (n.emit space p).declarations ≠ [] := by
  intro hnil
  have hresult := result_mem_targets h
  rw [Emission.targets, hnil] at hresult
  cases hresult

namespace Splicer

variable {s : Splicer}

/-- A line ends with a carriage return, which is cut off, or with anything else, and then nothing
is. -/
theorem cutReturn_eq_iff {line body ending : List Char} :
    cutReturn line = (body, ending) ↔
      line = body ++ ending ∧ (ending = ['\r'] ∨ ending = [] ∧ body.getLast? ≠ some '\r') := by
  unfold cutReturn
  constructor
  · intro h
    split at h
    · rename_i hlast
      obtain ⟨front, rfl⟩ := List.getLast?_eq_some_iff.1 hlast
      cases h
      simp
    · rename_i hlast
      cases h
      exact ⟨(List.append_nil line).symm, .inr ⟨rfl, hlast⟩⟩
  · rintro ⟨rfl, rfl | ⟨rfl, hlast⟩⟩
    · simp
    · rw [List.append_nil, if_neg hlast]

/-! ## The fates of a line -/

/-- The public alias of a property, if aliases are wanted. -/
def aliasOf (s : Splicer) (p : Property) : List Declaration :=
  if s.aliases then [.publish p s.root.id] else []

/-- The declarations that replace a directive, with the public alias if it is wanted. -/
theorem emit_of_failure_eq_none {p : Property} (h : (s.root.emit .world p).failure = none) :
    s.emit p = .ok ((s.root.emit .world p).declarations ++ s.aliasOf p) := by
  rw [emit, Emission.andThen, h]
  rfl

/-- A line that is no directive is copied, its carriage return included. -/
theorem spliceLine_of_none {line body ending : List Char}
    (hcut : cutReturn line = (body, ending)) (h : Directive.ofLine? body = none) :
    s.spliceLine line = .copied line := by
  simp only [spliceLine, hcut, h]

/-- A directive is replaced, whatever its line ends with. -/
theorem spliceLine_of_some {line body ending : List Char} {d : Directive}
    (hcut : cutReturn line = (body, ending)) (h : Directive.ofLine? body = some d) :
    s.spliceLine line = s.substitute d ending := by
  simp only [spliceLine, hcut, h]

/-- A directive whose word names no property fails before anything is emitted. -/
theorem substitute_of_unknown {d : Directive} (ending : List Char)
    (h : Property.ofTag? (String.ofList d.tag) = none) :
    s.substitute d ending =
      .failed d [] (.unknownProperty (String.ofList d.tag)) ending := by
  simp only [substitute, h]

/-- A directive whose property cannot be compiled keeps what was emitted before the failure, and no
alias follows. -/
theorem substitute_of_error {d : Directive} {p : Property} {e : CompileError} (ending : List Char)
    (h : Property.ofTag? (String.ofList d.tag) = some p)
    (he : (s.root.emit .world p).failure = some e) :
    s.substitute d ending = .failed d (s.root.emit .world p).declarations e ending := by
  have hemit : s.emit p = ⟨(s.root.emit .world p).declarations, some e⟩ := by
    rw [← he, emit, Emission.andThen, he]
    exact congrArg (Emission.mk _) he
  simp only [substitute, h, hemit]

/-- A directive whose property can be compiled is replaced by its declarations and the alias. -/
theorem substitute_of_ok {d : Directive} {p : Property} (ending : List Char)
    (h : Property.ofTag? (String.ofList d.tag) = some p)
    (hok : (s.root.emit .world p).failure = none) :
    s.substitute d ending =
      .substituted d p ((s.root.emit .world p).declarations ++ s.aliasOf p) ending := by
  simp only [substitute, h, emit_of_failure_eq_none hok, Emission.ok]

/-- What a splicer can make of a line. -/
inductive Yields (s : Splicer) : Spliced → Prop
  | copied (line : List Char) : Yields s (.copied line)
  | unknown (d : Directive) (ending : List Char)
      (tag : Property.ofTag? (String.ofList d.tag) = none) :
      Yields s (.failed d [] (.unknownProperty (String.ofList d.tag)) ending)
  | failed {d : Directive} {p : Property} {e : CompileError} (ending : List Char)
      (tag : Property.ofTag? (String.ofList d.tag) = some p)
      (failure : (s.root.emit .world p).failure = some e) :
      Yields s (.failed d (s.root.emit .world p).declarations e ending)
  | substituted {d : Directive} {p : Property} (ending : List Char)
      (tag : Property.ofTag? (String.ofList d.tag) = some p)
      (complete : (s.root.emit .world p).failure = none) :
      Yields s (.substituted d p ((s.root.emit .world p).declarations ++ s.aliasOf p) ending)

/-- Every line has one of these fates. -/
theorem yields_spliceLine (s : Splicer) (line : List Char) : s.Yields (s.spliceLine line) := by
  rcases hcut : cutReturn line with ⟨body, ending⟩
  cases h : Directive.ofLine? body with
  | none =>
    rw [spliceLine_of_none hcut h]
    exact .copied line
  | some d =>
    rw [spliceLine_of_some hcut h]
    cases htag : Property.ofTag? (String.ofList d.tag) with
    | none =>
      rw [substitute_of_unknown ending htag]
      exact .unknown d ending htag
    | some p =>
      cases hfail : (s.root.emit .world p).failure with
      | none =>
        rw [substitute_of_ok ending htag hfail]
        exact .substituted ending htag hfail
      | some e =>
        rw [substitute_of_error ending htag hfail]
        exact .failed ending htag hfail

/-- Something stands in place of every line: a failed directive leaves its comment, and a
successful one its own variable at least. -/
theorem Yields.lines_ne_nil {x : Spliced} (h : s.Yields x) : x.lines ≠ [] := by
  cases h with
  | copied line => simp [Spliced.lines]
  | unknown d ending _ => simp [Spliced.lines]
  | failed ending _ _ => simp [Spliced.lines]
  | substituted ending _ complete => simp [Spliced.lines, Node.declarations_ne_nil complete]

/-! ## Documents in two parts -/

/-- The two parts of a document are spliced one after the other. -/
theorem splice_append (s : Splicer) (t u : List Char) :
    s.splice (t ++ '\n' :: u) = s.splice t ++ s.splice u := by
  rw [splice, splitLines_append_newline, List.map_append]
  rfl

/-- There are as many spliced lines as lines. -/
theorem length_splice (s : Splicer) (t : List Char) :
    (s.splice t).length = t.count '\n' + 1 := by
  rw [splice, List.length_map, length_splitLines]

/-- A document of one line. -/
theorem splice_of_notMem (s : Splicer) {line : List Char} (h : '\n' ∉ line) :
    s.splice line = [s.spliceLine line] := by
  rw [splice, splitLines_of_not_mem h]
  rfl

/-- Every spliced line of a document is one that the splicer can make. -/
theorem yields_of_mem_splice {t : List Char} {x : Spliced} (h : x ∈ s.splice t) : s.Yields x := by
  obtain ⟨line, -, rfl⟩ := List.mem_map.1 h
  exact s.yields_spliceLine line

/-- A document has at least one line after splicing, as it has before. -/
theorem flatMap_lines_ne_nil (s : Splicer) (t : List Char) :
    (s.splice t).flatMap Spliced.lines ≠ [] := by
  obtain ⟨line, rest, h⟩ := List.exists_cons_of_ne_nil (splitLines_ne_nil t)
  rw [splice, h, List.map_cons, List.flatMap_cons]
  intro hnil
  exact (s.yields_spliceLine line).lines_ne_nil (List.append_eq_nil_iff.1 hnil).1

end Splicer

end FieldShader
