import FieldShader.Glsl.Declaration
import FieldShader.Text.Lines

/-!
# Names of variables

A shader tells variables apart by their names alone, so what is proved of variables reaches the
text of a shader only when no two variables share a name. `Variable.name_injective` is that fact:
a name starts with the tag of its property, whose first letter no other tag has, and the decimal
digits after it read back as the number; a public variable has no digits, and a numbered one has
at least one.

In the other direction, `declaredName` finds the name that a line of text declares, and
`declaredName_render` says that this is the name of the declaration that was written.
-/

namespace FieldShader

namespace Property

/-- The tags differ in their first letter, so no tag followed by anything is another tag followed
by anything. -/
theorem tag_append_inj {p q : Property} {xs ys : List Char}
    (h : p.tag.toList ++ xs = q.tag.toList ++ ys) : p = q ∧ xs = ys := by
  cases p <;> cases q <;> simp_all [tag]

/-- A tag is made of letters. -/
theorem isAlphanum_of_mem_tag {p : Property} {c : Char} (h : c ∈ p.tag.toList) :
    c.isAlphanum = true := by
  have hall : p.tag.toList.all Char.isAlphanum = true := by cases p <;> rfl
  exact List.all_eq_true.1 hall c h

end Property

namespace Variable

/-- The number of the variable in decimal, nothing for a public one. -/
def digits : Variable → List Char
  | .numbered _ id => Nat.toDigits 10 id
  | .shared _ => []

/-- A name is the tag of its property and the digits of its number. -/
theorem toList_name (v : Variable) : v.name.toList = v.property.tag.toList ++ v.digits := by
  cases v with
  | numbered p id => simp [name, property, digits]
  | shared p => simp [name, property, digits]

/-- Decimal digits read back as their number, and a number has at least one. -/
theorem eq_of_digits_eq {v w : Variable} (hp : v.property = w.property)
    (hd : v.digits = w.digits) : v = w := by
  cases v with
  | numbered p i =>
    cases w with
    | numbered q j =>
      have hnumber : i = j := by
        simpa [digits] using congrArg (fun ds => Nat.ofDigitChars 10 ds 0) hd
      rw [show p = q from hp, hnumber]
    | shared q => exact absurd hd Nat.toDigits_ne_nil
  | shared p =>
    cases w with
    | numbered q j => exact absurd hd.symm Nat.toDigits_ne_nil
    | shared q => rw [show p = q from hp]

/-- **Distinct variables have distinct names**, across properties and between numbered and public
ones. -/
theorem name_injective : Function.Injective name := by
  intro v w h
  have hl : v.property.tag.toList ++ v.digits = w.property.tag.toList ++ w.digits := by
    rw [← toList_name, ← toList_name, h]
  obtain ⟨hp, hd⟩ := Property.tag_append_inj hl
  exact eq_of_digits_eq hp hd

/-- A name is made of letters and digits. -/
theorem isAlphanum_of_mem_name {v : Variable} {c : Char} (h : c ∈ v.name.toList) :
    c.isAlphanum = true := by
  rw [toList_name, List.mem_append] at h
  rcases h with h | h
  · exact Property.isAlphanum_of_mem_tag h
  · cases v with
    | numbered p id =>
      have hdigit := Nat.isDigit_of_mem_toDigits (by decide) (by decide) h
      simp [Char.isAlphanum, hdigit]
    | shared p => cases h

/-- A name is one word. -/
theorem space_notMem_name (v : Variable) : ' ' ∉ v.name.toList :=
  fun h => absurd (isAlphanum_of_mem_name h) (by decide)

end Variable

/-! ## Reading a name back -/

/-- The name that a generated line declares: what stands between its first two spaces. -/
def declaredName (line : String) : String :=
  String.ofList ((pieces ' ' line.toList).getD 1 [])

/-- A keyword is one word. -/
theorem GlslType.space_notMem_keyword (t : GlslType) : ' ' ∉ t.keyword.toList := by
  cases t <;> decide

/-- A line declares the variable it was written for, whatever value it is bound to. -/
@[simp] theorem declaredName_declare (v : Variable) (value : String) :
    declaredName (v.declare value) = v.name := by
  have hline : (v.declare value).toList = v.property.type.keyword.toList ++ ' ' ::
      (v.name.toList ++ ' ' :: ("= ".toList ++ value.toList ++ ";".toList)) := by
    simp [Variable.declare]
  unfold declaredName
  rw [hline, pieces_append (GlslType.space_notMem_keyword _), pieces_append v.space_notMem_name]
  simp

/-- The name on the line of a declaration is the name of its variable. -/
@[simp] theorem declaredName_render (d : Declaration) : declaredName d.render = d.target.name :=
  declaredName_declare d.target d.value.render

end FieldShader
