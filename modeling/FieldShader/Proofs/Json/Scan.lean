import FieldShader.Json.Document
import FieldShader.Json.Token
import Mathlib.Data.List.Basic

/-!
# Tokens of a written text

`Token.ofSymbols` runs on fuel and cuts one token after the other. Since no token leaves more
symbols behind than it was given (`Token.length_scan_le`), the fuel does not matter, and the cut can
be described by equations: `Token.ofSymbols_space` for a blank and `Token.ofSymbols_scan` for
anything else.

With these a written string is one token, whatever comes after it (`Token.ofSymbols_textChars`): every
escape of the writer is undone by the reader, and no other character is taken for one.
-/

namespace FieldShader

namespace Token

/-! ## No token adds symbols -/

/-- What follows a string is part of what follows its opening quote. -/
theorem length_skipText_le {s rest : List Symbol} (h : skipText s = .ok rest) :
    rest.length ≤ s.length := by
  fun_induction skipText s with
  | case1 | case4 | case6 | case7 | case9 | case10 => cases h
  | case2 _ s ih => exact Nat.le_succ_of_le (ih h)
  | case3 =>
    cases h
    exact Nat.le_succ _
  | case5 | case8 | case11 =>
    rename_i ih
    have hrest := ih h
    simp only [List.length_cons]
    omega

/-- What follows digits is part of the text. -/
theorem length_takeDigits_le (s : List Symbol) : (takeDigits s).2.length ≤ s.length := by
  fun_induction takeDigits s <;> grind

/-- The token of an exponent, once its digits are taken, and what follows it. -/
def finishExponent (negative : Bool) (whole fraction : List Nat) (down : Bool) :
    List Nat × List Symbol → Token × List Symbol
  | ([], rest) => (missingDigit rest, [])
  | (digits, rest) =>
    (.number (Numeral.mk negative whole fraction (some (down, digits))).value, rest)

/-- What follows an exponent is part of the text. -/
theorem length_scanExponent_le (negative : Bool) (whole fraction : List Nat) (s : List Symbol) :
    (scanExponent negative whole fraction s).2.length ≤ s.length := by
  have hfinish (down : Bool) (rest : List Symbol) (hrest : rest.length < s.length) :
      (finishExponent negative whole fraction down (takeDigits rest)).2.length ≤ s.length := by
    have hdigits := length_takeDigits_le rest
    generalize takeDigits rest = taken at hdigits ⊢
    obtain ⟨digits, rest'⟩ := taken
    cases digits with
    | nil => exact Nat.zero_le _
    | cons d ds => exact Nat.le_trans hdigits (Nat.le_of_lt hrest)
  unfold scanExponent
  dsimp only
  split
  · split
    · split
      · exact hfinish true _ (by simp only [List.length_cons]; omega)
      · exact hfinish false _ (by simp only [List.length_cons]; omega)
      · exact hfinish false _ (by simp only [List.length_cons]; omega)
    · exact Nat.le_refl _
  · exact Nat.le_refl _

/-- What follows a numeral is part of what follows its whole digits. -/
theorem length_scanNumeral_le (negative : Bool) (s : List Symbol) :
    (scanNumeral negative s).2.length ≤ (takeDigits s).2.length := by
  unfold scanNumeral
  split
  · simp
  · simp
  · rename_i rest _ heq
    rw [heq]
    dsimp only
    split
    · rename_i rest'
      have hdigits := length_takeDigits_le rest'
      split
      · simp
      · rename_i heq
        rw [heq] at hdigits
        exact Nat.le_trans (Nat.le_trans (length_scanExponent_le _ _ _ _) hdigits)
          (Nat.le_succ _)
    · exact length_scanExponent_le _ _ _ _

/-- What follows a literal is part of what follows its first letter. -/
theorem length_literalRest_le {letters : List Char} {s rest : List Symbol}
    (h : literalRest letters s = .ok rest) : rest.length ≤ s.length := by
  fun_induction literalRest letters s with
  | case1 =>
    cases h
    exact Nat.le_refl _
  | case2 | case4 => cases h
  | case3 _ _ _ ih => exact Nat.le_succ_of_le (ih h)

/-- What follows a token is part of what follows its first character. -/
theorem length_scan_le (c : Char) (rest : List Symbol) :
    (scan c rest).2.length ≤ rest.length := by
  have hliteral (token : Token) (letters : String) :
      (scanLiteral token letters rest).2.length ≤ rest.length := by
    unfold scanLiteral
    split
    · exact length_literalRest_le ‹_›
    · exact Nat.zero_le _
  have htext : (scanText rest).2.length ≤ rest.length := by
    unfold scanText
    split
    · exact length_skipText_le ‹_›
    · split <;> exact Nat.zero_le _
  have hnumeral : c.isDigit = true → (scanNumeral false (.char c :: rest)).2.length ≤ rest.length := by
    intro hc
    have hdigits : (takeDigits (.char c :: rest)).2 = (takeDigits rest).2 := by
      rw [takeDigits, if_pos hc]
    refine Nat.le_trans (length_scanNumeral_le _ _) ?_
    rw [hdigits]
    exact length_takeDigits_le rest
  have hsigned : (scanNumeral true rest).2.length ≤ rest.length :=
    Nat.le_trans (length_scanNumeral_le _ _) (length_takeDigits_le _)
  have hsame (token : Token) : (token, rest).2.length ≤ rest.length := Nat.le_refl _
  have hite {p : Prop} [Decidable p] {x y : Token × List Symbol}
      (hx : p → x.2.length ≤ rest.length) (hy : y.2.length ≤ rest.length) :
      (if p then x else y).2.length ≤ rest.length := by
    by_cases h : p
    · rw [if_pos h]
      exact hx h
    · rwa [if_neg h]
  -- One alternative for every first character, in the order in which they are tried.
  unfold scan
  exact hite (fun _ => hsame _) <| hite (fun _ => hsame _) <| hite (fun _ => hsame _) <|
    hite (fun _ => hsame _) <| hite (fun _ => hsame _) <| hite (fun _ => hsame _) <|
    hite (fun _ => htext) <| hite (fun _ => hsigned) <| hite hnumeral <|
    hite (fun _ => hliteral _ _) <| hite (fun _ => hliteral _ _) <| hite (fun _ => hliteral _ _) <|
    Nat.zero_le _

/-! ## The fuel does not matter -/

/-- Any fuel that covers the symbols gives the same tokens. -/
theorem ofSymbolsFrom_congr {fuel fuel' : Nat} {s : List Symbol} (h : s.length ≤ fuel)
    (h' : s.length ≤ fuel') : ofSymbolsFrom fuel s = ofSymbolsFrom fuel' s := by
  induction fuel generalizing fuel' s with
  | zero =>
    obtain rfl := List.eq_nil_of_length_eq_zero (Nat.le_zero.1 h)
    cases fuel' <;> rfl
  | succ fuel ih =>
    cases s with
    | nil => cases fuel' <;> rfl
    | cons x rest =>
      obtain ⟨fuel', rfl⟩ := Nat.exists_eq_succ_of_ne_zero (Nat.ne_of_gt (Nat.lt_of_lt_of_le
        (Nat.succ_pos rest.length) h'))
      have hle := Nat.le_of_succ_le_succ h
      have hle' := Nat.le_of_succ_le_succ h'
      cases x with
      | stray byte => rfl
      | char c =>
        have hscan := length_scan_le c rest
        simp only [ofSymbolsFrom]
        rw [ih hle hle', ih (Nat.le_trans hscan hle) (Nat.le_trans hscan hle')]

/-- At the end of the text there are no more tokens. -/
@[simp] theorem ofSymbols_nil : ofSymbols [] = [] := rfl

/-- A blank is no token. -/
theorem ofSymbols_space {c : Char} (h : isSpace c = true) (rest : List Symbol) :
    ofSymbols (.char c :: rest) = ofSymbols rest := by
  rw [ofSymbols, List.length_cons, ofSymbolsFrom, if_pos h]
  rfl

/-- Anything else starts a token, and the text goes on after it. -/
theorem ofSymbols_scan {c : Char} (h : isSpace c = false) {rest rest' : List Symbol} {t : Token}
    (hscan : scan c rest = (t, rest')) :
    ofSymbols (.char c :: rest) = t :: ofSymbols rest' := by
  have hle := length_scan_le c rest
  rw [hscan] at hle
  rw [ofSymbols, List.length_cons, ofSymbolsFrom, h, if_neg nofun, hscan]
  exact congrArg _ (ofSymbolsFrom_congr hle (Nat.le_refl _))

section
variable (rest : List Symbol)

@[simp] theorem ofSymbols_openList :
    ofSymbols (.char '[' :: rest) = .openList :: ofSymbols rest := ofSymbols_scan (by decide) rfl

@[simp] theorem ofSymbols_closeList :
    ofSymbols (.char ']' :: rest) = .closeList :: ofSymbols rest := ofSymbols_scan (by decide) rfl

@[simp] theorem ofSymbols_openObject :
    ofSymbols (.char '\x7b' :: rest) = .openObject :: ofSymbols rest :=
  ofSymbols_scan (by decide) rfl

@[simp] theorem ofSymbols_closeObject :
    ofSymbols (.char '\x7d' :: rest) = .closeObject :: ofSymbols rest :=
  ofSymbols_scan (by decide) rfl

@[simp] theorem ofSymbols_comma :
    ofSymbols (.char ',' :: rest) = .comma :: ofSymbols rest := ofSymbols_scan (by decide) rfl

@[simp] theorem ofSymbols_colon :
    ofSymbols (.char ':' :: rest) = .colon :: ofSymbols rest := ofSymbols_scan (by decide) rfl

end

/-! ## Strings -/

/-- A short escape is one that the reader knows, and its letter is not that of a long one. -/
theorem simpleEscape?_of_mem_shortEscapes {e : Char × Char} (h : e ∈ Document.shortEscapes) :
    simpleEscape? (.char e.2) = some e.1 ∧ e.2 ≠ 'u' := by
  revert e
  decide

/-- The long escape of a control character gives its number. -/
theorem hexUnit?_digitChar {n : Nat} (h : n < 32) :
    hexUnit? (.char '0') (.char '0') (.char (Nat.digitChar (n / 16)))
      (.char (Nat.digitChar (n % 16))) = some n := by
  revert n
  decide

/-- The three ways in which a character is written inside a string. -/
theorem escapedChar_cases (c : Char) :
    (∃ letter, Document.escapedChar c = ['\\', letter] ∧
      simpleEscape? (.char letter) = some c ∧ letter ≠ 'u') ∨
    (∃ n < 32, c = Char.ofNat n ∧ Document.escapedChar c =
      ['\\', 'u', '0', '0', Nat.digitChar (n / 16), Nat.digitChar (n % 16)]) ∨
    (Document.escapedChar c = [c] ∧ c ≠ '"' ∧ c ≠ '\\' ∧ ¬c < ' ') := by
  unfold Document.escapedChar
  cases hlookup : Document.shortEscapes.lookup c with
  | some letter =>
    obtain ⟨front, back, heq, -⟩ := List.lookup_eq_some_iff.1 hlookup
    have hmem : (c, letter) ∈ Document.shortEscapes := by
      rw [heq]
      exact List.mem_append_right _ List.mem_cons_self
    exact .inl ⟨letter, rfl, simpleEscape?_of_mem_shortEscapes hmem⟩
  | none =>
    have hne (e : Char × Char) (he : e ∈ Document.shortEscapes) : c ≠ e.1 := by
      simpa using List.lookup_eq_none_iff.1 hlookup e he
    by_cases hc : c < ' '
    · refine .inr (.inl ⟨c.toNat, hc, (Char.ofNat_toNat c).symm, ?_⟩)
      simp only [if_pos hc]
    · refine .inr (.inr ⟨?_, hne ('"', '"') (by decide), hne ('\\', '\\') (by decide), hc⟩)
      simp only [if_neg hc]

/-- Passing over a string, a written character is passed over as a whole. -/
theorem skipText_escapedChar (c : Char) (rest : List Symbol) :
    skipText ((Document.escapedChar c).map .char ++ rest) = skipText rest := by
  rcases escapedChar_cases c with ⟨letter, heq, hescape, hu⟩ | ⟨n, hn, rfl, heq⟩ |
    ⟨heq, hquote, hbackslash, hcontrol⟩
  · rw [heq]
    conv_lhs => rw [List.map_cons, List.map_singleton, List.cons_append, List.singleton_append,
      skipText.eq_def]
    simp [hescape, hu]
  · rw [heq]
    simp [skipText, hexUnit?_digitChar hn]
  · rw [heq]
    conv_lhs => rw [List.map_singleton, List.singleton_append, skipText.eq_def]
    simp [hquote, hbackslash, hcontrol]

/-- Reading a string, a written character is read as itself. -/
theorem readText_escapedChar (c : Char) (rest : List Symbol) :
    readText none ((Document.escapedChar c).map .char ++ rest) =
      (readText none rest).map (.char c :: ·) := by
  rcases escapedChar_cases c with ⟨letter, heq, hescape, hu⟩ | ⟨n, hn, rfl, heq⟩ |
    ⟨heq, hquote, hbackslash, hcontrol⟩
  · rw [heq]
    conv_lhs => rw [List.map_cons, List.map_singleton, List.cons_append, List.singleton_append,
      readText.eq_def]
    simp [hescape, hu]
  · have hlow : isLowSurrogate n = false := by
      simp only [isLowSurrogate, Bool.and_eq_false_iff, decide_eq_false_iff_not]
      omega
    have hhigh : isHighSurrogate n = false := by
      simp only [isHighSurrogate, Bool.and_eq_false_iff, decide_eq_false_iff_not]
      omega
    rw [heq]
    simp [readText, hexUnit?_digitChar hn, hlow, hhigh]
  · rw [heq]
    conv_lhs => rw [List.map_singleton, List.singleton_append, readText.eq_def]
    simp [hquote, hbackslash, hcontrol]

/-- A written string is passed over up to its closing quote. -/
theorem skipText_escaped (cs : List Char) (rest : List Symbol) :
    skipText ((cs.flatMap Document.escapedChar).map .char ++ .char '"' :: rest) = .ok rest := by
  induction cs with
  | nil =>
    rw [skipText.eq_def]
    simp
  | cons c cs ih =>
    rw [List.flatMap_cons, List.map_append, List.append_assoc, skipText_escapedChar, ih]

/-- A written string is read as its characters. -/
theorem readText_escaped (cs : List Char) (rest : List Symbol) :
    readText none ((cs.flatMap Document.escapedChar).map .char ++ .char '"' :: rest) =
      .ok (cs.map .char) := by
  induction cs with
  | nil =>
    rw [readText.eq_def]
    simp
  | cons c cs ih =>
    rw [List.flatMap_cons, List.map_append, List.append_assoc, readText_escapedChar, ih]
    rfl

/-- **A written string is one token, with its own content**, whatever comes after it. -/
theorem ofSymbols_textChars (s : String) (rest : List Symbol) :
    ofSymbols ((Document.textChars s).map .char ++ rest) = .text (.ok s) :: ofSymbols rest := by
  have hvalue : textValue ((s.toList.flatMap Document.escapedChar).map .char ++
      .char '"' :: rest) = .ok s := by
    rw [textValue, readText_escaped]
    simp only [bind, Except.bind, Symbol.chars?_map_char, String.ofList_toList]
    rfl
  have hscan : scan '"' ((s.toList.flatMap Document.escapedChar).map .char ++
      .char '"' :: rest) = (.text (.ok s), rest) := by
    simp [scan, scanText, skipText_escaped, hvalue]
  have htext : (Document.textChars s).map Symbol.char ++ rest = .char '"' ::
      ((s.toList.flatMap Document.escapedChar).map .char ++ .char '"' :: rest) := by
    simp [Document.textChars]
  rw [htext]
  exact ofSymbols_scan (by decide) hscan

end Token

end FieldShader
