import FieldShader.Proofs.Json.Scan
import FieldShader.Proofs.Number.Notation

/-!
# Numerals of a written text

`NumberText.numeral` is what a reader makes of the digits of a number text. A well-formed number text
is cut into one token, which has the value of that numeral (`Token.ofSymbols_numberText`), if what
follows cannot be part of it (`Token.Stops`): no further digit, no point and no exponent.
-/

namespace FieldShader

/-- The value of a decimal digit. -/
def digitValue (c : Char) : Nat := c.toNat - '0'.toNat

/-- The numeral that is made of the digits of a number text. -/
def NumberText.numeral (t : NumberText) : Numeral :=
  ⟨t.negative, t.whole.map digitValue, t.fraction.map digitValue,
    t.exponent.map fun e => (e.1, e.2.map digitValue)⟩

namespace Token

/-- The rest of a text does not go on with a number. -/
def Stops (rest : List Symbol) : Prop :=
  ∀ c rest', rest = .char c :: rest' → c.isDigit = false ∧ c ≠ '.' ∧ c ≠ 'e' ∧ c ≠ 'E'

variable {rest : List Symbol}

/-- A digit is no other character. -/
theorem ne_of_isDigit {c x : Char} (hc : c.isDigit = true) (hx : x.isDigit = false) : c ≠ x := by
  rintro rfl
  rw [hc] at hx
  cases hx

/-- Where no digit comes, none are taken. -/
theorem takeDigits_of_notDigit (h : ∀ c rest', rest = .char c :: rest' → c.isDigit = false) :
    takeDigits rest = ([], rest) := by
  cases rest with
  | nil => rfl
  | cons s rest' =>
    cases s with
    | stray byte => rfl
    | char c => rw [takeDigits, h c rest' rfl, if_neg Bool.false_ne_true]

/-- Digits are taken as far as they go. -/
theorem takeDigits_append {cs : List Char} (hcs : ∀ c ∈ cs, c.isDigit = true)
    (h : ∀ c rest', rest = .char c :: rest' → c.isDigit = false) :
    takeDigits (cs.map .char ++ rest) = (cs.map digitValue, rest) := by
  induction cs with
  | nil => exact takeDigits_of_notDigit h
  | cons c cs ih =>
    have hrest := ih fun d hd => hcs d (List.mem_cons_of_mem _ hd)
    rw [List.map_cons, List.cons_append, takeDigits, if_pos (hcs c List.mem_cons_self), hrest]
    rfl

/-- The digit zero is the character. -/
theorem eq_zero_of_digitValue {c : Char} (hc : c.isDigit = true) (h : digitValue c = 0) :
    c = '0' := by
  have hval : '0'.toNat ≤ c.toNat := by
    simp only [Char.isDigit, Bool.and_eq_true, decide_eq_true_eq] at hc
    exact hc.1
  have heq : c.toNat = '0'.toNat := by
    unfold digitValue at h
    omega
  rw [← Char.ofNat_toNat c, heq]
  rfl

/-- An exponent, or nothing in its place, ends the number. -/
theorem scanExponent_power {t : NumberText} (ht : t.WellFormed) (h : Stops rest) :
    scanExponent t.negative (t.whole.map digitValue) (t.fraction.map digitValue)
      (t.power.map .char ++ rest) = (.number t.numeral.value, rest) := by
  obtain ⟨negative, whole, fraction, exponent⟩ := t
  cases exponent with
  | none =>
    cases rest with
    | nil => rfl
    | cons s rest' =>
      cases s with
      | stray byte => rfl
      | char c =>
        obtain ⟨-, -, he, hE⟩ := h c rest' rfl
        simp [NumberText.power, scanExponent, he, hE, NumberText.numeral]
  | some e =>
    obtain ⟨down, digits⟩ := e
    obtain ⟨hne, hdigits⟩ := ht.exponent down digits rfl
    have htake : takeDigits (digits.map .char ++ rest) = (digits.map digitValue, rest) :=
      takeDigits_append hdigits fun c rest' hrest => (h c rest' hrest).1
    obtain ⟨d, ds, rfl⟩ := List.exists_cons_of_ne_nil hne
    cases down <;>
      simp only [NumberText.power, List.map_cons, List.cons_append, scanExponent, NumberText.numeral,
        Option.map_some, if_true, Bool.false_eq_true, if_false] <;>
      rw [← List.cons_append, ← List.map_cons, htake] <;> simp

/-- After the whole digits comes no further one. -/
theorem notDigit_point_append (t : NumberText) (h : Stops rest) (c : Char) (rest' : List Symbol)
    (heq : (t.point ++ t.power).map .char ++ rest = .char c :: rest') : c.isDigit = false := by
  obtain ⟨negative, whole, fraction, exponent⟩ := t
  cases fraction with
  | cons d ds =>
    cases heq
    rfl
  | nil =>
    cases exponent with
    | none => exact (h c rest' heq).1
    | some e =>
      cases heq
      rfl

/-- A numeral after its sign is taken to its end. -/
theorem scanNumeral_chars {t : NumberText} (ht : t.WellFormed) (h : Stops rest) :
    scanNumeral t.negative ((t.whole ++ (t.point ++ t.power)).map .char ++ rest) =
      (.number t.numeral.value, rest) := by
  have htake : takeDigits ((t.whole ++ (t.point ++ t.power)).map .char ++ rest) =
      (t.whole.map digitValue, (t.point ++ t.power).map .char ++ rest) := by
    rw [List.map_append, List.append_assoc]
    exact takeDigits_append ht.whole (notDigit_point_append t h)
  have hexponent := scanExponent_power ht h
  unfold scanNumeral
  rw [htake]
  split
  · rename_i hnil
    exact absurd (List.map_eq_nil_iff.1 (Prod.mk.inj hnil).1) ht.whole_ne_nil
  · rename_i hzero
    -- A second digit after a zero would make the text ill-formed.
    obtain ⟨c, cs, hwhole, hc, hcs⟩ := List.map_eq_cons_iff.1 (Prod.mk.inj hzero).1
    have hc0 := eq_zero_of_digitValue (ht.whole c (by rw [hwhole]; exact List.mem_cons_self)) hc
    rw [ht.leading cs (by rw [hwhole, hc0])] at hcs
    cases hcs
  · rename_i heq
    obtain ⟨rfl, rfl⟩ := Prod.mk.inj heq
    cases hfraction : t.fraction with
    | nil =>
      have hpoint : t.point = [] := if_pos hfraction
      rw [hfraction] at hexponent
      rw [hpoint, List.nil_append]
      split
      · rename_i rest' hdot
        -- The text goes on with an exponent or with what stops a number, not with a point.
        exfalso
        cases hpower : t.exponent with
        | none =>
          rw [NumberText.power, hpower] at hdot
          exact (h '.' rest' hdot).2.1 rfl
        | some e =>
          rw [NumberText.power, hpower] at hdot
          cases hdot
      · exact hexponent
    | cons d ds =>
      have hpoint : t.point = '.' :: t.fraction := if_neg (by rw [hfraction]; exact List.cons_ne_nil d ds)
      have hdigits : takeDigits (t.fraction.map .char ++ (t.power.map .char ++ rest)) =
          (t.fraction.map digitValue, t.power.map .char ++ rest) := by
        refine takeDigits_append ht.fraction fun c rest' heq => ?_
        have hstop := notDigit_point_append { t with fraction := [] } h c rest'
        exact hstop heq
      rw [hpoint, List.cons_append, List.map_cons, List.cons_append, List.map_append,
        List.append_assoc]
      rw [hfraction] at hexponent hdigits ⊢
      simp only [hdigits]
      exact hexponent

/-- **A number text is one token, with the value of its numeral**, if what follows cannot be part
of it. -/
theorem ofSymbols_numberText {t : NumberText} (ht : t.WellFormed) (h : Stops rest) :
    ofSymbols (t.chars.map .char ++ rest) = .number t.numeral.value :: ofSymbols rest := by
  have hnumeral := scanNumeral_chars ht h
  cases hnegative : t.negative with
  | true =>
    have hscan : scan '-' ((t.whole ++ (t.point ++ t.power)).map .char ++ rest) =
        (.number t.numeral.value, rest) := by
      rw [← hnumeral, hnegative]
      rfl
    have hchars : t.chars = '-' :: (t.whole ++ (t.point ++ t.power)) := by
      rw [NumberText.chars, hnegative]
      rfl
    rw [hchars, List.map_cons, List.cons_append]
    exact ofSymbols_scan (by decide) hscan
  | false =>
    obtain ⟨c, cs, hwhole⟩ := List.exists_cons_of_ne_nil ht.whole_ne_nil
    have hc : c.isDigit = true := ht.whole c (by rw [hwhole]; exact List.mem_cons_self)
    have hne (x : Char) (hx : x.isDigit = false) : c ≠ x := ne_of_isDigit hc hx
    have hspace : isSpace c = false := by
      simp [isSpace, hne]
    have hchars : t.chars = t.whole ++ (t.point ++ t.power) := by
      rw [NumberText.chars, hnegative]
      rfl
    rw [hnegative, hwhole, List.cons_append, List.map_cons, List.cons_append] at hnumeral
    rw [hchars, hwhole, List.cons_append, List.map_cons, List.cons_append]
    refine ofSymbols_scan hspace ?_
    rw [scan, if_neg (hne _ rfl), if_neg (hne _ rfl), if_neg (hne _ rfl), if_neg (hne _ rfl),
      if_neg (hne _ rfl), if_neg (hne _ rfl), if_neg (hne _ rfl), if_neg (hne _ rfl), if_pos hc]
    exact hnumeral

/-- The word `null` is one token. -/
theorem ofSymbols_null (rest : List Symbol) :
    ofSymbols ("null".toList.map .char ++ rest) = .null :: ofSymbols rest :=
  ofSymbols_scan (by decide) rfl

end Token

end FieldShader
