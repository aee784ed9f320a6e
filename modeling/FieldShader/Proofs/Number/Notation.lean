import FieldShader.Number.Notation
import Mathlib.Data.List.Basic

/-!
# The parts of a written number

A `NumberText` is a number as it is written, part by part, and `NumberText.chars` puts the parts
together. `NumberStyle.text` gives the parts of every number that the library writes
(`NumberStyle.write_eq_chars`). They are digits where digits belong, there is a digit before the
point, and none of several digits before the point starts with a zero
(`NumberStyle.wellFormed_text`): the grammar of numbers asks for no more.
-/

namespace FieldShader

/-- A number as it is written, by its parts. -/
structure NumberText where
  /-- Whether it starts with a minus sign. -/
  negative : Bool
  /-- The digits before the point. -/
  whole : List Char
  /-- The digits after the point, which is left out if there are none. -/
  fraction : List Char
  /-- The sign of the exponent and its digits, if there is one. -/
  exponent : Option (Bool × List Char)

namespace NumberText

/-- The point and what follows it. -/
def point (t : NumberText) : List Char := if t.fraction = [] then [] else '.' :: t.fraction

/-- The exponent, its sign always written. -/
def power (t : NumberText) : List Char :=
  match t.exponent with
  | none => []
  | some (down, digits) => 'e' :: (if down then '-' else '+') :: digits

/-- The whole text. -/
def chars (t : NumberText) : List Char :=
  (if t.negative then ['-'] else []) ++ (t.whole ++ (t.point ++ t.power))

/-- The parts are digits where digits are asked for, and the first of several is no zero. -/
structure WellFormed (t : NumberText) : Prop where
  whole : ∀ c ∈ t.whole, c.isDigit = true
  whole_ne_nil : t.whole ≠ []
  leading : ∀ cs, t.whole = '0' :: cs → cs = []
  fraction : ∀ c ∈ t.fraction, c.isDigit = true
  exponent : ∀ down digits, t.exponent = some (down, digits) →
    digits ≠ [] ∧ ∀ c ∈ digits, c.isDigit = true

end NumberText

namespace Decimal

/-! ## Digits -/

/-- The digits of a decimal are digits. -/
theorem isDigit_of_mem_chars {d : Decimal} {c : Char} (h : c ∈ d.chars) : c.isDigit = true :=
  Nat.isDigit_of_mem_toDigits (by decide) (by decide) h

/-- So are zeros. -/
theorem isDigit_of_mem_replicate {n : Nat} {c : Char} (h : c ∈ List.replicate n '0') :
    c.isDigit = true := by
  rw [(List.mem_replicate.1 h).2]
  rfl

/-- There is at least one digit. -/
theorem chars_ne_nil (d : Decimal) : d.chars ≠ [] := Nat.toDigits_ne_nil

/-- A number other than zero does not start with the digit zero. -/
theorem toDigits_ne_zero_cons {n : Nat} (h : n ≠ 0) (cs : List Char) :
    Nat.toDigits 10 n ≠ '0' :: cs := by
  have hdigit : ∀ n < 10, n ≠ 0 → n.digitChar ≠ '0' := by decide
  induction n using Nat.strongRecOn generalizing cs with
  | ind n ih =>
    by_cases hlt : n < 10
    · rw [Nat.toDigits_of_lt_base hlt]
      intro heq
      exact hdigit n hlt h (List.cons.inj heq).1
    · rw [Nat.toDigits_of_base_le (by decide) (Nat.le_of_not_lt hlt)]
      intro heq
      obtain ⟨c, more, hfront⟩ := List.exists_cons_of_ne_nil
        (Nat.toDigits_ne_nil : Nat.toDigits 10 (n / 10) ≠ [])
      rw [hfront, List.cons_append] at heq
      refine ih (n / 10) (by omega) (by omega) more ?_
      rw [hfront, (List.cons.inj heq).1]

/-- The decimal has no zeros after its digits if it is zero. -/
def Plain (d : Decimal) : Prop := d.digits = 0 → d.exponent ≤ 0

/-- The digits before the point of such a decimal do not start with a zero, unless that is all. -/
theorem Plain.eq_nil_of_append {d : Decimal} (h : d.Plain) {cs : List Char}
    (heq : d.chars ++ List.replicate d.exponent.toNat '0' = '0' :: cs) : cs = [] := by
  by_cases hd : d.digits = 0
  · have hexp : d.exponent.toNat = 0 := by
      have hle := h hd
      omega
    rw [hexp, chars, hd] at heq
    simpa using heq.symm
  · obtain ⟨c, more, hchars⟩ := List.exists_cons_of_ne_nil d.chars_ne_nil
    rw [hchars, List.cons_append] at heq
    refine absurd hchars ?_
    rw [(List.cons.inj heq).1]
    exact toDigits_ne_zero_cons hd more

/-- Nor do the first of its digits. -/
theorem eq_nil_of_take {d : Decimal} {k : Nat} {cs : List Char}
    (heq : d.chars.take k = '0' :: cs) : cs = [] := by
  by_cases hd : d.digits = 0
  · have hzero : d.chars = ['0'] := by
      rw [chars, hd]
      rfl
    rw [hzero] at heq
    cases k with
    | zero => cases heq
    | succ k => simpa using heq.symm
  · obtain ⟨c, more, hchars⟩ := List.exists_cons_of_ne_nil d.chars_ne_nil
    refine absurd hchars ?_
    rw [hchars] at heq
    cases k with
    | zero => cases heq
    | succ k =>
      rw [(List.cons.inj heq).1]
      exact toDigits_ne_zero_cons hd more

/-! ## The two forms -/

/-- The parts of the positional form. -/
def positionalText (negative : Bool) (d : Decimal) : NumberText :=
  let places := (-d.exponent).toNat
  if places = 0 then ⟨negative, d.chars ++ List.replicate d.exponent.toNat '0', ['0'], none⟩
  else if places < d.chars.length then
    ⟨negative, d.chars.take (d.chars.length - places), d.chars.drop (d.chars.length - places),
      none⟩
  else ⟨negative, ['0'], List.replicate (places - d.chars.length) '0' ++ d.chars, none⟩

/-- The parts of the scientific form. -/
def scientificText (negative : Bool) (d : Decimal) : NumberText :=
  ⟨negative, d.chars.take 1, d.chars.drop 1,
    some (decide (d.leading < 0), Nat.toDigits 10 d.leading.natAbs)⟩

/-- The positional form is made of its parts. -/
theorem chars_positionalText (negative : Bool) (d : Decimal) :
    (d.positionalText negative).chars = (if negative then ['-'] else []) ++ d.positional := by
  unfold positionalText positional
  dsimp only
  split
  · simp [NumberText.chars, NumberText.point, NumberText.power]
  · split
    · have hne : d.chars.drop (d.chars.length - (-d.exponent).toNat) ≠ [] := by
        rw [ne_eq, List.drop_eq_nil_iff]
        omega
      simp only [NumberText.chars, NumberText.point, NumberText.power, if_neg hne,
        List.append_nil]
    · simp [NumberText.chars, NumberText.point, NumberText.power, d.chars_ne_nil]

/-- The scientific form is made of its parts. -/
theorem chars_scientificText (negative : Bool) (d : Decimal) :
    (d.scientificText negative).chars = (if negative then ['-'] else []) ++ d.scientific := by
  have hpos := List.length_pos_of_ne_nil d.chars_ne_nil
  have hone : d.chars.drop 1 = [] ↔ d.chars.length = 1 := by
    rw [List.drop_eq_nil_iff]
    omega
  have hpoint : (d.scientificText negative).point =
      if d.chars.length = 1 then [] else '.' :: d.chars.drop 1 := if_congr hone rfl rfl
  rw [NumberText.chars, hpoint]
  by_cases hsign : d.leading < 0 <;>
    simp [NumberText.power, scientificText, scientific, hsign]

/-- The positional form of a plain decimal is well formed. -/
theorem Plain.wellFormed_positionalText {d : Decimal} (h : d.Plain) (negative : Bool) :
    (d.positionalText negative).WellFormed := by
  unfold positionalText
  dsimp only
  split
  · refine ⟨fun c hc => ?_, ?_, fun cs => h.eq_nil_of_append, ?_, nofun⟩
    · exact (List.mem_append.1 hc).elim isDigit_of_mem_chars isDigit_of_mem_replicate
    · simp [d.chars_ne_nil]
    · simp
  · split
    · refine ⟨fun c hc => isDigit_of_mem_chars (List.mem_of_mem_take hc), ?_,
        fun cs => eq_nil_of_take, fun c hc => isDigit_of_mem_chars (List.mem_of_mem_drop hc), nofun⟩
      rw [ne_eq, List.take_eq_nil_iff]
      exact not_or.2 ⟨by omega, d.chars_ne_nil⟩
    · refine ⟨by simp, by simp, fun cs hcs => (List.cons.inj hcs).2.symm, fun c hc => ?_, nofun⟩
      exact (List.mem_append.1 hc).elim isDigit_of_mem_replicate isDigit_of_mem_chars

/-- The scientific form is well formed. -/
theorem wellFormed_scientificText (negative : Bool) (d : Decimal) :
    (d.scientificText negative).WellFormed := by
  refine ⟨fun c hc => isDigit_of_mem_chars (List.mem_of_mem_take hc), ?_,
    fun cs => eq_nil_of_take, fun c hc => isDigit_of_mem_chars (List.mem_of_mem_drop hc), ?_⟩
  · show d.chars.take 1 ≠ []
    rw [ne_eq, List.take_eq_nil_iff]
    exact not_or.2 ⟨nofun, d.chars_ne_nil⟩
  · rintro down digits ⟨⟩
    exact ⟨Nat.toDigits_ne_nil, fun c => Nat.isDigit_of_mem_toDigits (by decide) (by decide)⟩

end Decimal

namespace NumberStyle

/-- The parts of a decimal in the form that the style chooses. -/
def text (s : NumberStyle) (negative : Bool) (d : Decimal) : NumberText :=
  if s.isPositional d then d.positionalText negative else d.scientificText negative

/-- A number is written as the parts of its shortest decimal. -/
theorem write_eq_chars (s : NumberStyle) (f : BinaryFormat) (negative : Bool) (x : Magnitude) :
    s.write f negative x = (s.text negative (f.shortest s.tie x)).chars := by
  unfold write text
  by_cases h : s.isPositional (f.shortest s.tie x) = true
  · simp only [if_pos h, Decimal.chars_positionalText]
  · simp only [if_neg h, Decimal.chars_scientificText]

/-- The text of a plain decimal is well formed. -/
theorem wellFormed_text (s : NumberStyle) (negative : Bool) {d : Decimal} (h : d.Plain) :
    (s.text negative d).WellFormed := by
  unfold text
  split
  · exact h.wellFormed_positionalText negative
  · exact d.wellFormed_scientificText negative

end NumberStyle

end FieldShader
