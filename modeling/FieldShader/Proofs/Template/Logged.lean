import FieldShader.Proofs.Scene.Listed
import FieldShader.Proofs.Template.Splice

/-!
# What is logged about a template

The log is written line by line with a flag that tells whether a distance was evaluated before. What
it says can be read off the template and the scene without splicing anything: `Splicer.report` is
what there is to say about one line, given the lines before it, and `Splicer.log_reports` is that the
log consists of these reports in order.

The induction is over the lines. `Splicer.logFrom_map` carries what the flag stands for, the tag of
the distance among the tags of the lines before, whether or not any of those directives succeeded.

A report has at most one failure, which is the one that is recorded, and a directive without a
failure is recorded as substituted. So both kinds of records can be counted without the log.
-/

namespace FieldShader

namespace LogRecord

/-- The failure that the record is about. -/
def failure? : LogRecord → Option DirectiveFailure
  | .failed f => some f
  | .built .. | .unprimed .. | .substituted .. => none

end LogRecord

/-- Only the tag of a property names it. -/
theorem Property.ofTag?_eq_some_iff {tag : String} {p : Property} :
    ofTag? tag = some p ↔ tag = p.tag := by
  refine ⟨fun h => (tag_eq_of_ofTag? h).symm, ?_⟩
  rintro rfl
  exact ofTag?_tag p

namespace Splicer

variable {s : Splicer}

/-! ## Reports -/

/-- The tag of the directive that a line of a template is, whatever the line ends with. -/
def tag? (line : List Char) : Option String :=
  (Directive.ofLine? (cutReturn line).1).map fun d => String.ofList d.tag

/-- The warning about a directive with the given tag, unless it evaluates the distance, names no
property, or comes after a directive with the tag of the distance. -/
def warning (before : List String) (line : Nat) (tag : String) : List LogRecord :=
  match Property.ofTag? tag with
  | some p => if p = .sdf ∨ Property.sdf.tag ∈ before then [] else [.unprimed line p]
  | none => []

/-- How a directive with the given tag ends: with a line for every name that the scene declares for
the property, and one for the alias, or with a failure. -/
def outcome (s : Splicer) (line : Nat) (tag : String) : LogRecord :=
  match Property.ofTag? tag with
  | some p =>
    match (s.root.compile .world p .empty).2 with
    | none => .substituted p ((s.root.declaredNames p).length + if s.aliases then 1 else 0)
        s.root.name (s.root.result p)
    | some e => .failed ⟨line, tag, e⟩
  | none => .failed ⟨line, tag, .unknownProperty tag⟩

/-- What is to be said about the line at an index. Lines are numbered from one. -/
def report (s : Splicer) (lines : List (List Char)) (i : Nat) : List LogRecord :=
  match lines[i]?.bind tag? with
  | some tag =>
    warning ((lines.take i).filterMap tag?) (i + 1) tag ++ [s.outcome (i + 1) tag]
  | none => []

/-! ## One line -/

/-- The property of a line is the one that its tag names. -/
theorem property?_spliceLine (line : List Char) :
    (s.spliceLine line).property? = (tag? line).bind Property.ofTag? := by
  rcases hcut : cutReturn line with ⟨body, ending⟩
  cases hd : Directive.ofLine? body with
  | none => simp [spliceLine_of_none hcut hd, Spliced.property?, tag?, hcut, hd]
  | some d =>
    rw [spliceLine_of_some hcut hd, tag?, hcut, hd, Option.map_some, Option.bind_some]
    cases htag : Property.ofTag? (String.ofList d.tag) with
    | none => rw [substitute_of_unknown ending htag, Spliced.property?, htag]
    | some p =>
      cases hfail : (s.root.emit .world p).failure with
      | none => rw [substitute_of_ok ending htag hfail, Spliced.property?]
      | some e => rw [substitute_of_error ending htag hfail, Spliced.property?, htag]

/-- A property is warned about unless it is the distance or the flag is set. -/
theorem warning_eq {primed : Bool} {before : List String}
    (hprimed : primed = true ↔ Property.sdf.tag ∈ before) (number : Nat) (tag : String) :
    warning before number tag =
      match Property.ofTag? tag with
      | some p => if p ≠ .sdf ∧ !primed then [LogRecord.unprimed number p] else []
      | none => [] := by
  unfold warning
  cases Property.ofTag? tag with
  | none => rfl
  | some p =>
    dsimp only
    by_cases hp : p = .sdf
    · rw [if_pos (.inl hp), if_neg fun h => h.1 hp]
    · cases primed with
      | true => rw [if_pos (.inr (hprimed.1 rfl)), if_neg fun h => Bool.noConfusion h.2]
      | false =>
        have hbefore : Property.sdf.tag ∉ before := fun h => Bool.noConfusion (hprimed.2 h)
        rw [if_neg (not_or.2 ⟨hp, hbefore⟩), if_pos ⟨hp, rfl⟩]

/-- The number of lines that replace a directive: one for each name, and one for the alias. -/
theorem length_substituted {p : Property} (h : (s.root.emit .world p).failure = none) :
    ((s.root.emit .world p).declarations ++ s.aliasOf p).length =
      (s.root.declaredNames p).length + if s.aliases then 1 else 0 := by
  rw [Node.declaredNames_eq h, List.length_append, List.length_map, aliasOf]
  cases s.aliases <;> rfl

/-- The log of one line, where the flag says what it stands for. -/
theorem logLine_spliceLine {primed : Bool} {before : List String}
    (hprimed : primed = true ↔ Property.sdf.tag ∈ before) (number : Nat) (line : List Char) :
    s.logLine primed number (s.spliceLine line) =
      match tag? line with
      | some tag => warning before number tag ++ [s.outcome number tag]
      | none => [] := by
  rcases hcut : cutReturn line with ⟨body, ending⟩
  cases hd : Directive.ofLine? body with
  | none =>
    have htag : tag? line = none := by rw [tag?, hcut, hd, Option.map_none]
    rw [htag, spliceLine_of_none hcut hd]
    rfl
  | some d =>
    have htag : tag? line = some (String.ofList d.tag) := by rw [tag?, hcut, hd, Option.map_some]
    rw [htag, spliceLine_of_some hcut hd]
    dsimp only
    rw [warning_eq hprimed]
    cases hp : Property.ofTag? (String.ofList d.tag) with
    | none =>
      rw [substitute_of_unknown ending hp]
      simp only [logLine, Spliced.property?, outcome, hp]
    | some p =>
      cases hfail : (s.root.emit .world p).failure with
      | none =>
        have hcompile : (s.root.compile .world p .empty).2 = none := hfail
        rw [substitute_of_ok ending hp hfail]
        simp only [logLine, Spliced.property?, outcome, hp, hcompile, length_substituted hfail]
      | some e =>
        have hcompile : (s.root.compile .world p .empty).2 = some e := hfail
        rw [substitute_of_error ending hp hfail]
        simp only [logLine, Spliced.property?, outcome, hp, hcompile]

/-! ## All lines -/

/-- A line names the distance when its tag is that of the distance. -/
theorem property?_spliceLine_eq_sdf_iff (line : List Char) :
    (s.spliceLine line).property? = some .sdf ↔ tag? line = some Property.sdf.tag := by
  rw [property?_spliceLine, Option.bind_eq_some_iff]
  constructor
  · rintro ⟨tag, htag, hp⟩
    rw [htag, Property.ofTag?_eq_some_iff.1 hp]
  · intro htag
    exact ⟨_, htag, Property.ofTag?_tag .sdf⟩

/-- The flag stands for the same after a line as before it. -/
theorem primed_iff_append {primed : Bool} {before : List (List Char)}
    (hprimed : primed = true ↔ Property.sdf.tag ∈ before.filterMap tag?) (line : List Char) :
    (primed || decide ((s.spliceLine line).property? = some .sdf)) = true ↔
      Property.sdf.tag ∈ (before ++ [line]).filterMap tag? := by
  rw [Bool.or_eq_true, decide_eq_true_iff, property?_spliceLine_eq_sdf_iff, hprimed,
    List.filterMap_append, List.mem_append]
  refine or_congr_right ?_
  cases htag : tag? line with
  | none => simp [htag]
  | some tag => simp [htag, eq_comm]

/-- The report on a line is about its tag and the tags of the lines before it. -/
theorem report_append (s : Splicer) (before : List (List Char)) (line : List Char)
    (rest : List (List Char)) :
    s.report (before ++ line :: rest) before.length =
      match tag? line with
      | some tag => warning (before.filterMap tag?) (before.length + 1) tag ++
          [s.outcome (before.length + 1) tag]
      | none => [] := by
  have hline : (before ++ line :: rest)[before.length]? = some line := by simp
  rw [report, hline, Option.bind_some, List.take_left]

/-- The log of the lines after those that the flag stands for. -/
theorem logFrom_map (s : Splicer) {primed : Bool} {before : List (List Char)}
    (hprimed : primed = true ↔ Property.sdf.tag ∈ before.filterMap tag?)
    (rest : List (List Char)) :
    s.logFrom primed (before.length + 1) (rest.map s.spliceLine) =
      (List.range' before.length rest.length).flatMap (s.report (before ++ rest)) := by
  induction rest generalizing primed before with
  | nil => rfl
  | cons line rest ih =>
    have htail := ih (s.primed_iff_append hprimed line)
    rw [List.length_append, List.length_singleton, List.append_assoc, List.singleton_append]
      at htail
    rw [List.map_cons, logFrom, s.logLine_spliceLine hprimed, htail, List.length_cons,
      List.range'_succ, List.flatMap_cons, report_append]

/-! ## Records by their kind -/

/-- The log of a line is a warning or none, and then a record of how the directive ended. -/
theorem exists_logLine (s : Splicer) (primed : Bool) (number : Nat) (x : Spliced) :
    ∃ warnings, (∀ r ∈ warnings, ∃ p, r = .unprimed number p) ∧
      s.logLine primed number x = warnings ++
        match x with
        | .copied _ => []
        | .substituted _ p declarations _ =>
          [.substituted p declarations.length s.root.name (s.root.result p)]
        | .failed d _ e _ => [.failed ⟨number, String.ofList d.tag, e⟩] := by
  refine ⟨_, fun r hr => ?_, rfl⟩
  split at hr
  · split at hr
    · exact ⟨_, List.mem_singleton.1 hr⟩
    · cases hr
  · cases hr

/-- What one line adds to the failures is the failure in its log. -/
theorem filterMap_logLine (s : Splicer) (primed : Bool) (number : Nat) (x : Spliced) :
    (s.logLine primed number x).filterMap LogRecord.failure? = (x.failure? number).toList := by
  obtain ⟨warnings, hwarnings, hlog⟩ := s.exists_logLine primed number x
  have hnil : warnings.filterMap LogRecord.failure? = [] := by
    refine List.filterMap_eq_nil_iff.2 fun r hr => ?_
    obtain ⟨p, rfl⟩ := hwarnings r hr
    rfl
  rw [hlog, List.filterMap_append, hnil]
  cases x <;> rfl

/-- A directive is recorded as substituted or has a failure, and no other line does either. -/
theorem countP_logLine (s : Splicer) (primed : Bool) (number : Nat) (x : Spliced) :
    (s.logLine primed number x).countP (·.level = .debug) + (x.failure? number).toList.length =
      if x.isDirective then 1 else 0 := by
  obtain ⟨warnings, hwarnings, hlog⟩ := s.exists_logLine primed number x
  have hzero : warnings.countP (·.level = .debug) = 0 := by
    refine List.countP_eq_zero.2 fun r hr => ?_
    obtain ⟨p, rfl⟩ := hwarnings r hr
    exact Bool.false_ne_true
  rw [hlog, List.countP_append, hzero]
  cases x <;> rfl

/-- The failures are those in the log, in the same order. -/
theorem filterMap_logFrom (s : Splicer) (primed : Bool) (number : Nat) (xs : List Spliced) :
    (s.logFrom primed number xs).filterMap LogRecord.failure? = failuresFrom number xs := by
  induction xs generalizing primed number with
  | nil => rfl
  | cons x xs ih => rw [logFrom, List.filterMap_append, filterMap_logLine, ih, failuresFrom]

/-- Each directive is recorded as substituted or is among the failures. -/
theorem countP_logFrom (s : Splicer) (primed : Bool) (number : Nat) (xs : List Spliced) :
    (s.logFrom primed number xs).countP (·.level = .debug) + (failuresFrom number xs).length =
      xs.countP Spliced.isDirective := by
  induction xs generalizing primed number with
  | nil => rfl
  | cons x xs ih =>
    have hline := s.countP_logLine primed number x
    have hlines := ih (primed || decide (x.property? = some .sdf)) (number + 1)
    rw [logFrom, failuresFrom, List.countP_append, List.length_append, List.countP_cons]
    omega

/-! ## Warnings -/

/-- How a directive ends is not a warning about what came before. -/
theorem outcome_ne_unprimed (s : Splicer) (number line : Nat) (tag : String) (p : Property) :
    s.outcome number tag ≠ .unprimed line p := by
  unfold outcome
  repeat' split
  all_goals exact LogRecord.noConfusion

/-- No line before another has a tag if none of the first lines has it. -/
theorem tag_notMem_take_iff {lines : List (List Char)} {i : Nat} {tag : String} :
    tag ∉ (lines.take i).filterMap tag? ↔ ∀ j < i, lines[j]?.bind tag? ≠ some tag := by
  constructor
  · intro h j hj htag
    obtain ⟨line, hline, htag⟩ := Option.bind_eq_some_iff.1 htag
    refine h (List.mem_filterMap.2 ⟨line, List.mem_of_getElem? (i := j) ?_, htag⟩)
    rw [List.getElem?_take, if_pos hj, hline]
  · intro h hmem
    obtain ⟨line, hline, htag⟩ := List.mem_filterMap.1 hmem
    obtain ⟨j, hj⟩ := List.mem_iff_getElem?.1 hline
    rw [List.getElem?_take] at hj
    split at hj
    · rename_i hlt
      exact h j hlt (by rw [hj, Option.bind_some, htag])
    · cases hj

/-- A tag is warned about if it names a normal or a color and no tag before it is that of the
distance. -/
theorem unprimed_mem_warning_iff {before : List String} {number line : Nat} {tag : String}
    {p : Property} : LogRecord.unprimed line p ∈ warning before number tag ↔
      line = number ∧ p ≠ .sdf ∧ tag = p.tag ∧ Property.sdf.tag ∉ before := by
  rw [← Property.ofTag?_eq_some_iff]
  unfold warning
  cases Property.ofTag? tag with
  | none => simp
  | some q =>
    dsimp only
    split
    · rename_i hq
      refine iff_of_false List.not_mem_nil ?_
      rintro ⟨-, hp, hqp, hbefore⟩
      obtain rfl := Option.some_inj.1 hqp
      exact hq.elim hp hbefore
    · rename_i hq
      obtain ⟨hq, hbefore⟩ := not_or.1 hq
      rw [List.mem_singleton, LogRecord.unprimed.injEq, Option.some_inj]
      constructor
      · rintro ⟨rfl, rfl⟩
        exact ⟨rfl, hq, rfl, hbefore⟩
      · rintro ⟨rfl, -, rfl, -⟩
        exact ⟨rfl, rfl⟩

/-- A line is warned about if it is a directive for a normal or a color and no line before it is
a directive for the distance. -/
theorem unprimed_mem_report_iff {lines : List (List Char)} {i line : Nat} {p : Property} :
    LogRecord.unprimed line p ∈ s.report lines i ↔
      line = i + 1 ∧ p ≠ .sdf ∧ lines[i]?.bind tag? = some p.tag ∧
        ∀ j < i, lines[j]?.bind tag? ≠ some Property.sdf.tag := by
  unfold report
  cases htag : lines[i]?.bind tag? with
  | none => simp
  | some tag =>
    rw [List.mem_append, List.mem_singleton, unprimed_mem_warning_iff, tag_notMem_take_iff,
      Option.some_inj]
    exact or_iff_left (s.outcome_ne_unprimed _ line tag p).symm

/-! ## The log of a template -/

/-- **The log tells what happened.** Let a scene be spliced into a template.

* The log consists of the reports on the lines of the template, in order: for each directive a
  warning or none, and then how it ends. It ends as compiling the property into an empty listing
  does, with one line for each name that the scene declares and one for the alias if there are
  aliases, and it fails if its tag names no property.
* The failures are those in the log, one for each record of a failure, and every directive is either
  among them or recorded as substituted.
* There is a warning about a line and a property, which is not the distance, exactly if the line is
  a directive for the property and none of the lines before it is a directive for the distance. -/
theorem log_reports (s : Splicer) (template : String) :
    let lines := splitLines template.toList
    let c := s.compile template
    c.log = (List.range lines.length).flatMap (s.report lines) ∧
    c.failures = c.log.filterMap LogRecord.failure? ∧
    c.log.countP (·.failure?.isSome) = c.failures.length ∧
    c.log.countP (·.level = .debug) + c.failures.length = c.directives ∧
    ∀ line p, LogRecord.unprimed line p ∈ c.log ↔
      p ≠ .sdf ∧ ∃ i, line = i + 1 ∧ lines[i]?.bind tag? = some p.tag ∧
        ∀ j < i, lines[j]?.bind tag? ≠ some Property.sdf.tag := by
  intro lines c
  have hlog : c.log = (List.range lines.length).flatMap (s.report lines) := by
    have h := @logFrom_map s false [] (by simp) lines
    rw [List.length_nil, List.nil_append, ← List.range_eq_range'] at h
    exact h
  have hfailures : c.failures = c.log.filterMap LogRecord.failure? :=
    (s.filterMap_logFrom false 1 _).symm
  refine ⟨hlog, hfailures, ?_, s.countP_logFrom false 1 _, fun line p => ?_⟩
  · rw [hfailures, List.length_filterMap_eq_countP]
  · rw [hlog, List.mem_flatMap]
    simp only [unprimed_mem_report_iff, List.mem_range]
    constructor
    · rintro ⟨i, -, rfl, hp, htag, hbefore⟩
      exact ⟨hp, i, rfl, htag, hbefore⟩
    · rintro ⟨hp, i, rfl, htag, hbefore⟩
      obtain ⟨x, hx, -⟩ := Option.bind_eq_some_iff.1 htag
      exact ⟨i, (List.getElem?_eq_some_iff.1 hx).1, rfl, hp, htag, hbefore⟩

/-- A failed directive for the distance is one as well: the second color is not warned about. -/
example : ((⟨.material 0 .standard, true⟩ : Splicer).compile
      "#evaluate color\n#evaluate sdf\n#evaluate color").log =
    [.unprimed 1 .color, .substituted .color 2 "material" (.numbered .color 0),
      .failed ⟨2, "sdf", .unsupportedProperty .sdf⟩,
      .substituted .color 2 "material" (.numbered .color 0)] := by decide +kernel

end Splicer

end FieldShader
