import FieldShader.Proofs.Glsl.Printing

/-!
# Literals of floating-point numbers

A literal of the shading language is read as a floating-point number if it has digits on either side
of a point, after a sign or none: `IsFloatLiteral`. A number is written as such a literal exactly if
it is finite (`Single.isFloatLiteral_literal_iff`). Infinities and not-a-number are closed by a point
and a zero as well, but their names are no digits.

`Expr.constants` are the numbers in an expression, and each of their literals is a part of the text
of the expression (`Expr.literal_infix_render`).
-/

namespace FieldShader

/-- Digits on either side of a point, with a minus sign before them or none. -/
def IsFloatLiteral (text : String) : Prop :=
  ∃ sign whole fraction, text.toList = sign ++ whole ++ '.' :: fraction ∧
    (sign = [] ∨ sign = ['-']) ∧ whole ≠ [] ∧ fraction ≠ [] ∧
    (∀ c ∈ whole, c.isDigit = true) ∧ ∀ c ∈ fraction, c.isDigit = true

/-- A literal is made of digits, a point and a sign. -/
theorem IsFloatLiteral.cases_mem {text : String} (h : IsFloatLiteral text) {c : Char}
    (hc : c ∈ text.toList) : c = '-' ∨ c.isDigit = true ∨ c = '.' := by
  obtain ⟨sign, whole, fraction, htext, hsign, -, -, hwhole, hfraction⟩ := h
  rw [htext, List.mem_append, List.mem_append, List.mem_cons] at hc
  rcases hc with (hc | hc) | hc | hc
  · rcases hsign with rfl | rfl
    · cases hc
    · exact .inl (List.mem_singleton.1 hc)
  · exact .inr (.inl (hwhole c hc))
  · exact .inr (.inr hc)
  · exact .inr (.inl (hfraction c hc))

namespace Single

/-- The name of an infinity as it stands in place of a literal. -/
theorem literal_of_infinite {x : Single} {negative : Bool} (h : x.value = .infinite negative) :
    x.literal = if negative then "-inf.0" else "inf.0" := by
  simp only [literal, h]

/-- **A number is written as a literal of a floating-point number exactly if it is finite.** -/
theorem isFloatLiteral_literal_iff (x : Single) :
    IsFloatLiteral x.literal ↔ x.isFinite = true := by
  unfold isFinite
  cases hx : x.value with
  | nan =>
    have hliteral : x.literal = "NaN.0" := by simp only [literal, hx]
    refine iff_of_false (fun h => ?_) Bool.false_ne_true
    rw [hliteral] at h
    exact absurd (h.cases_mem (c := 'N') (by decide)) (by decide)
  | infinite negative =>
    refine iff_of_false (fun h => ?_) Bool.false_ne_true
    rw [literal_of_infinite hx] at h
    exact absurd (h.cases_mem (c := 'i') (by cases negative <;> decide)) (by decide)
  | finite negative m =>
    obtain ⟨whole, fraction, hpositional, hwhole, hfraction, hw, hf⟩ :=
      (BinaryFormat.single.shortest NumberStyle.literal.tie m).exists_positional
    refine iff_of_true ⟨if negative then ['-'] else [], whole, fraction, ?_, ?_, hwhole, hfraction,
      hw, hf⟩ rfl
    · simp only [literal, hx]
      rw [String.toList_ofList, List.append_assoc, ← hpositional]
      rfl
    · cases negative
      · exact .inl rfl
      · exact .inr rfl

end Single

/-! ## Expressions -/

namespace Expr

/-- The numbers in an expression. -/
def constants : Expr → List Single
  | .number value => [value]
  | .raw _ _ | .position _ | .var _ => []
  | .unary _ a | .neg a | .group a => a.constants
  | .dot a b | .binary _ a b => a.constants ++ b.constants
  | .vec3 a b c | .ternary _ a b c => a.constants ++ b.constants ++ c.constants
  | .ifGreater a b yes no => a.constants ++ b.constants ++ yes.constants ++ no.constants

/-- The literal of a number in an expression is a part of the text of the expression. -/
theorem literal_infix_render {e : Expr} {x : Single} (h : x ∈ e.constants) :
    x.literal.toList <:+: e.render.toList := by
  induction e with
  | number value =>
    rw [List.mem_singleton.1 h]
    exact List.infix_refl _
  | raw source t | position name | var v => cases h
  | unary f a iha | neg a iha | group a iha =>
    have ha := iha h
    simp only [render, String.toList_append]
    grind
  | dot a b iha ihb | binary op a b iha ihb =>
    simp only [constants, List.mem_append] at h
    simp only [render, String.toList_append]
    grind
  | vec3 a b c iha ihb ihc | ternary f a b c iha ihb ihc =>
    simp only [constants, List.mem_append] at h
    simp only [render, String.toList_append]
    grind
  | ifGreater a b yes no iha ihb ihyes ihno =>
    simp only [constants, List.mem_append] at h
    simp only [render, String.toList_append]
    grind

end Expr

/-- So it is of the text of a declaration. -/
theorem Declaration.literal_infix_render {d : Declaration} {x : Single}
    (h : x ∈ d.value.constants) : x.literal.toList <:+: d.render.toList := by
  have hvalue := Expr.literal_infix_render h
  simp only [render, Variable.declare, String.toList_append]
  grind

end FieldShader
