import FieldShader.Proofs.Scene.Scoping
import FieldShader.Proofs.Template.Splice

/-!
# Scope and types across a document

The directives of a template are spliced one by one, but what they declare is read by one compiler.
A normal or a color reads distances, which only an earlier `sdf` directive of the same document
declares. `Splicer.generated_scoped` says that such a document is in scope and well typed as a
whole whenever splicing it was silent: no directive failed, and no warning was logged that a
property is evaluated before any distance.

The induction is over the lines of the document. What it carries along is the flag by which the
log decides about the warning, and `Splicer.Primed` is what the flag promises: that all distances
of the scene were declared. A failed `sdf` directive sets the flag as well, without keeping the
promise, which is why a clean document is asked for.
-/

namespace FieldShader

namespace Spliced

/-- The declarations of the generated lines, those before a failure included. -/
def declarations : Spliced → List Declaration
  | .copied _ => []
  | .substituted _ _ ds _ | .failed _ ds _ _ => ds

/-- Where nothing failed, a line is copied or replaced by the text of its declarations alone. -/
theorem lines_of_failure?_eq_none {x : Spliced} {line : Nat} (h : x.failure? line = none) :
    (∃ text, x = .copied text ∧ x.lines = [text]) ∨
      ∃ d ending, x.lines = x.declarations.map fun y => generate d ending y.render := by
  cases x with
  | copied text => exact .inl ⟨text, rfl, rfl⟩
  | substituted d p ds ending => exact .inr ⟨d, ending, rfl⟩
  | failed d ds e ending => cases h

end Spliced

namespace Splicer

variable {s : Splicer} {known : List Variable} {p : Property} {x : Spliced} {line : Nat}

/-- The declarations of all generated lines of a document, in order. -/
def generated (s : Splicer) (template : String) : List Declaration :=
  (s.splice template.toList).flatMap Spliced.declarations

/-- When a distance counts as evaluated, all distances of the scene are known. -/
def Primed (s : Splicer) (primed : Bool) (known : List Variable) : Prop :=
  primed = true → (s.root.emit .world .sdf).failure = none ∧ s.root.declared .sdf ⊆ known

/-- Knowing more keeps the promise. -/
theorem Primed.mono {primed : Bool} {known' : List Variable} (h : s.Primed primed known)
    (hsub : known ⊆ known') : s.Primed primed known' := by
  intro hp
  obtain ⟨hok, hknown⟩ := h hp
  exact ⟨hok, fun v hv => hsub (hknown hv)⟩

/-- A line of a clean document that is not copied was replaced by its property. -/
theorem Yields.of_failure?_eq_none (h : s.Yields x) (hok : x.failure? line = none) :
    (∃ text, x = .copied text) ∨ ∃ d p ending, (s.root.emit .world p).failure = none ∧
      x = .substituted d p ((s.root.emit .world p).declarations ++ s.aliasOf p) ending := by
  cases h with
  | copied text => exact .inl ⟨text, rfl⟩
  | substituted ending tag complete => exact .inr ⟨_, _, ending, complete, rfl⟩
  | unknown d ending tag => cases hok
  | failed ending tag failure => cases hok

/-! ## One directive -/

/-- The public alias, if it is wanted, reads the variable of the whole scene. -/
theorem wellScoped_alias (h : s.root.result p ∈ known) :
    WellScoped known (s.aliasOf p) := by
  unfold aliasOf
  split
  · exact wellScoped_publish h
  · trivial

/-- What replaces a directive is in scope if the distances are known that its property needs. -/
theorem wellScoped_substituted (hok : (s.root.emit .world p).failure = none)
    (hsdf : s.root.DistancesKnown .world p known) :
    WellScoped known ((s.root.emit .world p).declarations ++ s.aliasOf p) := by
  have hresult : s.root.result p ∈ (s.root.emit .world p).declarations.map Declaration.target :=
    Node.result_mem_targets hok
  exact wellScoped_append.2
    ⟨Node.wellScoped_emit hsdf, wellScoped_alias (List.mem_append_left _ hresult)⟩

/-- What replaces a directive has the type of its property. -/
theorem wellTyped_substituted {d : Declaration}
    (hd : d ∈ (s.root.emit .world p).declarations ++ s.aliasOf p) : d.WellTyped := by
  rcases List.mem_append.1 hd with hd | hd
  · exact Node.wellTyped_emit hd
  · unfold aliasOf at hd
    split at hd
    · rw [List.mem_singleton.1 hd]
      exact Declaration.wellTyped_publish p s.root.id
    · cases hd

/-- After a directive for distances, the promise is kept: they are declared now. -/
theorem Primed.substituted {primed : Bool} (h : s.Primed primed known)
    (hok : (s.root.emit .world p).failure = none) :
    s.Primed (primed || p = .sdf) (((s.root.emit .world p).declarations ++
      s.aliasOf p).map Declaration.target ++ known) := by
  by_cases hp : p = .sdf
  · subst hp
    have hall : (s.root.emit .world .sdf).declarations.map Declaration.target =
        s.root.declared .sdf := (s.root.emit_declares .world .sdf).complete hok
    intro _
    refine ⟨hok, fun v hv => List.mem_append_left _ ?_⟩
    rw [List.map_append, hall]
    exact List.mem_append_left _ hv
  · have hflag : (primed || decide (p = .sdf)) = primed := by simp [hp]
    rw [hflag]
    exact h.mono fun v hv => List.mem_append_right _ hv

/-- Without a warning, the distances that a property needs are known. -/
theorem Primed.distancesKnown {primed : Bool} {d : Directive} {ds : List Declaration}
    {ending : List Char} (h : s.Primed primed known)
    (hlog : ∀ l q, LogRecord.unprimed l q ∉ s.logLine primed line (.substituted d p ds ending)) :
    s.root.DistancesKnown .world p known := by
  intro hp
  cases primed with
  | true => exact h rfl
  | false =>
    have hmem : LogRecord.unprimed line p ∈
        s.logLine false line (.substituted d p ds ending) := by
      simp [logLine, Spliced.property?, hp]
    exact absurd hmem (hlog line p)

/-! ## All lines -/

/-- The lines of a clean document without warnings are in scope and well typed from any point on,
given what the flag promises there. -/
theorem scoped_from {xs : List Spliced} {primed : Bool} (hx : ∀ x ∈ xs, s.Yields x)
    (hclean : failuresFrom line xs = [])
    (hlog : ∀ l q, LogRecord.unprimed l q ∉ s.logFrom primed line xs)
    (h : s.Primed primed known) :
    WellScoped known (xs.flatMap Spliced.declarations) ∧
      ∀ d ∈ xs.flatMap Spliced.declarations, d.WellTyped := by
  induction xs generalizing line primed known with
  | nil => exact ⟨trivial, nofun⟩
  | cons x xs ih =>
    rw [failuresFrom, List.append_eq_nil_iff, Option.toList_eq_nil_iff] at hclean
    have hrest : ∀ y ∈ xs, s.Yields y := fun y hy => hx y (List.mem_cons_of_mem _ hy)
    have hlogx : ∀ l q, LogRecord.unprimed l q ∉ s.logLine primed line x := by
      intro l q hmem
      exact hlog l q (List.mem_append_left _ hmem)
    have hlogxs : ∀ l q, LogRecord.unprimed l q ∉
        s.logFrom (primed || x.property? = some .sdf) (line + 1) xs := by
      intro l q hmem
      exact hlog l q (List.mem_append_right _ hmem)
    rw [List.flatMap_cons]
    rcases (hx x List.mem_cons_self).of_failure?_eq_none hclean.1 with
      ⟨text, rfl⟩ | ⟨d, p, ending, hok, rfl⟩
    · -- A copied line declares nothing and leaves the flag as it is.
      have hflag : (primed || decide ((Spliced.copied text).property? = some .sdf)) = primed := by
        simp [Spliced.property?]
      rw [hflag] at hlogxs
      exact ih hrest hclean.2 hlogxs h
    · have hflag : decide (some p = some Property.sdf) = decide (p = .sdf) := by simp
      rw [Spliced.property?, hflag] at hlogxs
      obtain ⟨hscope, htype⟩ := ih hrest hclean.2 hlogxs (h.substituted hok)
      refine ⟨wellScoped_append.2 ⟨?_, hscope⟩, fun y hy => ?_⟩
      · exact wellScoped_substituted hok (h.distancesKnown hlogx)
      · rcases List.mem_append.1 hy with hy | hy
        · exact wellTyped_substituted hy
        · exact htype y hy

/-- In a document without failures no line has one. -/
theorem failure?_eq_none_of_mem {xs : List Spliced} (h : failuresFrom line xs = [])
    (hx : x ∈ xs) : ∃ l, x.failure? l = none := by
  induction xs generalizing line with
  | nil => cases hx
  | cons y ys ih =>
    rw [failuresFrom, List.append_eq_nil_iff, Option.toList_eq_nil_iff] at h
    rcases List.mem_cons.1 hx with rfl | hx
    · exact ⟨line, h.1⟩
    · exact ih h.2 hx

/-- **A document that is spliced in silence is in scope and well typed.** If every directive
succeeds and nothing is logged about a property that comes before the distances, every line of the
document is a line of the template or the text of generated declarations; and of these, read in
order through the whole document, each reads only variables declared before it and has on its right
the type that it declares. -/
theorem generated_scoped (s : Splicer) (t : String) (hclean : (s.compile t).isClean = true)
    (hlog : ∀ line p, LogRecord.unprimed line p ∉ (s.compile t).log) :
    (∀ x ∈ s.splice t.toList, (∃ text, x = .copied text ∧ x.lines = [text]) ∨
      ∃ d ending, x.lines = x.declarations.map fun y => Spliced.generate d ending y.render) ∧
    WellScoped [] (s.generated t) ∧ ∀ d ∈ s.generated t, d.WellTyped := by
  have hfailures : failuresFrom 1 (s.splice t.toList) = [] := List.isEmpty_iff.1 hclean
  have hprimed : s.Primed false [] := nofun
  refine ⟨fun x hx => ?_, ?_⟩
  · obtain ⟨line, hline⟩ := failure?_eq_none_of_mem hfailures hx
    exact Spliced.lines_of_failure?_eq_none hline
  · exact scoped_from (fun x hx => yields_of_mem_splice hx) hfailures hlog hprimed

/-- A moved difference inside a union. -/
def nested : Splicer :=
  ⟨.operator 5 .union (.number .half)
    [.transform (.translate .up) (.operator 2 .difference (.raw "k")
      [.shape 0 (.ground .up) .standard, .shape 1 (.sphere (.raw "r")) .standard]),
      .shape 4 (.plane (.raw "n")) (.custom ⟨.raw "c"⟩)], true⟩

/-- A template that evaluates all properties, the distances twice. -/
def evaluateAll : String :=
  "#evaluate sdf\nvec3 n;\r\n\t#evaluate normal\r\n#evaluate sdf\n#evaluate color"

/-- The 32 declarations of `nested` in `evaluateAll` are in scope. -/
theorem generated_scoped_nested :
    (nested.generated evaluateAll).length = 32 ∧ WellScoped [] (nested.generated evaluateAll) := by
  refine ⟨by decide +kernel, (generated_scoped nested evaluateAll (by decide +kernel) ?_).2.1⟩
  have hlevel : ∀ r ∈ (nested.compile evaluateAll).log, r.level ≠ .warn := by decide +kernel
  intro line p hmem
  exact hlevel _ hmem rfl

end Splicer

end FieldShader
