import FieldShader.Proofs.Glsl.Names
import FieldShader.Proofs.Number.Notation

/-!
# What a generated line is made of

Generated text is made of fixed words, names, digits and the texts that a scene gives. Only the last
are not known beforehand: `Expr.sources` are the texts in an expression that are written as they were
given, and `Declaration.newline_notMem_render` says that a generated line is one line if they are.
The numbers of a scene never break a line, whatever their value (`Single.newline_notMem_literal`).
-/

namespace FieldShader

/-! ## Numbers -/

namespace Decimal

variable {d : Decimal} {c : Char}

/-- The positional form has digits and a point. -/
theorem mem_positional (h : c ∈ d.positional) : c.isDigit = true ∨ c = '.' := by
  unfold positional at h
  simp only at h
  split at h
  · rcases List.mem_append.1 h with h | h
    · rcases List.mem_append.1 h with h | h
      · exact .inl (isDigit_of_mem_chars h)
      · exact .inl (isDigit_of_mem_replicate h)
    · rcases List.mem_cons.1 h with rfl | h
      · exact .inr rfl
      · rw [List.mem_singleton.1 h]
        exact .inl (by decide)
  · split at h
    · rcases List.mem_append.1 h with h | h
      · exact .inl (isDigit_of_mem_chars (List.mem_of_mem_take h))
      · rcases List.mem_cons.1 h with rfl | h
        · exact .inr rfl
        · exact .inl (isDigit_of_mem_chars (List.mem_of_mem_drop h))
    · rcases List.mem_cons.1 h with rfl | h
      · exact .inl (by decide)
      · rcases List.mem_cons.1 h with rfl | h
        · exact .inr rfl
        · rcases List.mem_append.1 h with h | h
          · exact .inl (isDigit_of_mem_replicate h)
          · exact .inl (isDigit_of_mem_chars h)

end Decimal

namespace Single

/-- A literal of the shading language is on one line. -/
theorem newline_notMem_literal (x : Single) : '\n' ∉ x.literal.toList := by
  unfold literal
  split
  · decide
  · split <;> decide
  · rename_i negative m _
    have hpositional (d : Decimal) : NumberStyle.literal.isPositional d = true := rfl
    rw [String.toList_ofList, NumberStyle.write, if_pos (hpositional _)]
    intro h
    rcases List.mem_append.1 h with h | h
    · split at h
      · exact absurd (List.mem_singleton.1 h) (by decide)
      · cases h
    · rcases Decimal.mem_positional h with h | h
      · exact absurd h (by decide)
      · exact absurd h (by decide)

end Single

/-! ## Expressions -/

namespace Expr

/-- The texts that are written as they were given: raw fragments and the names of positions. -/
def sources : Expr → List String
  | .number _ | .var _ => []
  | .raw source _ => [source]
  | .position name => [name]
  | .unary _ a | .neg a | .group a => a.sources
  | .dot a b | .binary _ a b => a.sources ++ b.sources
  | .vec3 a b c | .ternary _ a b c => a.sources ++ b.sources ++ c.sources
  | .ifGreater a b yes no => a.sources ++ b.sources ++ yes.sources ++ no.sources

/-- The text of an expression is on one line if the texts that were given are. -/
theorem newline_notMem_render {e : Expr} (h : ∀ source ∈ e.sources, '\n' ∉ source.toList) :
    '\n' ∉ e.render.toList := by
  induction e with
  | number x => exact x.newline_notMem_literal
  | var v => exact fun h => absurd (Variable.isAlphanum_of_mem_name h) (by decide)
  | raw source t =>
    have hsource := h source (List.mem_singleton_self source)
    simpa [render] using hsource
  | position name => exact h name (List.mem_singleton_self name)
  | unary f a iha =>
    have hname : '\n' ∉ f.name.toList := by cases f <;> decide
    simpa [render, hname] using iha h
  | neg a iha | group a iha => simpa [render] using iha h
  | dot a b iha ihb =>
    have ha := iha fun s hs => h s (List.mem_append_left _ hs)
    have hb := ihb fun s hs => h s (List.mem_append_right _ hs)
    simp [render, ha, hb]
  | binary op a b iha ihb =>
    have hop : '\n' ∉ op.text.toList := by cases op <;> decide
    have ha := iha fun s hs => h s (List.mem_append_left _ hs)
    have hb := ihb fun s hs => h s (List.mem_append_right _ hs)
    simp [render, hop, ha, hb]
  | vec3 a b c iha ihb ihc =>
    simp only [sources, List.mem_append] at h
    have ha := iha fun s hs => h s (.inl (.inl hs))
    have hb := ihb fun s hs => h s (.inl (.inr hs))
    have hc := ihc fun s hs => h s (.inr hs)
    simp [render, ha, hb, hc]
  | ternary f a b c iha ihb ihc =>
    have hname : '\n' ∉ f.name.toList := by cases f <;> decide
    simp only [sources, List.mem_append] at h
    have ha := iha fun s hs => h s (.inl (.inl hs))
    have hb := ihb fun s hs => h s (.inl (.inr hs))
    have hc := ihc fun s hs => h s (.inr hs)
    simp [render, hname, ha, hb, hc]
  | ifGreater a b yes no iha ihb ihyes ihno =>
    simp only [sources, List.mem_append] at h
    have ha := iha fun s hs => h s (.inl (.inl (.inl hs)))
    have hb := ihb fun s hs => h s (.inl (.inl (.inr hs)))
    have hyes := ihyes fun s hs => h s (.inl (.inr hs))
    have hno := ihno fun s hs => h s (.inr hs)
    simp [render, ha, hb, hyes, hno]

end Expr

/-- A generated line is one line if the texts that were given for its value are. -/
theorem Declaration.newline_notMem_render {d : Declaration}
    (h : ∀ source ∈ d.value.sources, '\n' ∉ source.toList) : '\n' ∉ d.render.toList := by
  have hkeyword : '\n' ∉ d.target.property.type.keyword.toList := by
    cases d.target.property.type <;> decide
  have hname : '\n' ∉ d.target.name.toList :=
    fun h => absurd (Variable.isAlphanum_of_mem_name h) (by decide)
  have hvalue := Expr.newline_notMem_render h
  simp [render, Variable.declare, hkeyword, hname, hvalue]

end FieldShader
