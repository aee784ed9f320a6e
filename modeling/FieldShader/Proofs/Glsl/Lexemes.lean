import FieldShader.Proofs.Glsl.Grammar
import Mathlib.Data.List.SplitBy

/-!
# Tokens of a line

How the characters of a line fall into tokens. A line is a list of `Glyph`s, which are characters
and, each as a whole, the fragments of an author's source, since nothing is known of what is in
them. Characters that stand next to each other belong to one token as far as they can: letters,
digits, underscores and points are written together, and so are the characters that the operators of
the language are made of. A run of those must be one token, a name, a literal without a sign or a
single mark (`lexeme?`). So `- -1.0` is two minus signs and a literal, while `--1.0` has no tokens
here, and neither has anything else that the language would read as a longer operator.

Two parts of a line are read apart when nothing at the seam belongs together (`Spelled.append`).
-/

namespace FieldShader

/-- A piece of a line. -/
inductive Glyph where
  /-- A character. -/
  | char (c : Char)
  /-- A fragment of source text, in its parentheses. -/
  | fragment (source : String)
deriving DecidableEq

namespace Glyph

/-- The characters that the glyph stands for. -/
def chars : Glyph → List Char
  | .char c => [c]
  | .fragment source => '(' :: (source.toList ++ [')'])

/-- The character, unless the glyph is a fragment. -/
def char? : Glyph → Option Char
  | .char c => some c
  | .fragment _ => none

/-- Whether the glyph is written together with others of a name or a literal. -/
def isWordy : Glyph → Bool
  | .char c => c.isAlphanum || c == '_' || c == '.'
  | .fragment _ => false

/-- Whether the glyph is written together with others of an operator. -/
def isSign : Glyph → Bool
  | .char c => ['+', '-', '*', '/', '%', '<', '>', '=', '!', '&', '|', '^', '~'].contains c
  | .fragment _ => false

/-- Whether the glyph stands for itself, whatever is next to it. -/
def isLoose (g : Glyph) : Bool := !g.isWordy && !g.isSign

/-- Whether two glyphs that stand next to each other belong to one token. -/
def fuses (g h : Glyph) : Bool := g.isWordy && h.isWordy || g.isSign && h.isSign

/-- The glyphs of a text in which no fragment stands. -/
def ofText (text : String) : List Glyph := text.toList.map .char

/-- A text has the characters that it is made of. -/
theorem mapM_char?_ofText (text : String) : (ofText text).mapM char? = some text.toList := by
  unfold ofText
  induction text.toList with
  | nil => rfl
  | cons c cs ih => simp [ih, char?]

theorem fuses_of_isLoose_left {g h : Glyph} (hg : g.isLoose = true) : g.fuses h = false := by
  simp only [isLoose, Bool.and_eq_true, Bool.not_eq_true'] at hg
  simp [fuses, hg]

theorem fuses_of_isLoose_right {g h : Glyph} (hh : h.isLoose = true) : g.fuses h = false := by
  simp only [isLoose, Bool.and_eq_true, Bool.not_eq_true'] at hh
  simp [fuses, hh]

end Glyph

/-! ## Runs of glyphs -/

/-- Whether the characters are a name. -/
def isName : List Char → Bool
  | [] => false
  | c :: cs => (c.isAlpha || c == '_') && cs.all fun c => c.isAlphanum || c == '_'

/-- Whether the characters are a literal without a sign: digits, a point and digits. -/
def isNumeral (cs : List Char) : Bool :=
  match cs.takeWhile Char.isDigit, cs.dropWhile Char.isDigit with
  | _ :: _, '.' :: d :: ds => (d :: ds).all Char.isDigit
  | _, _ => false

/-- The marks that the grammar knows. -/
def isMark (c : Char) : Bool := ['(', ')', ',', ';', '=', '+', '-', '/', '>', '?', ':'].contains c

/-- The tokens of characters that belong together: one, or none if they are a blank. -/
def lexemeOfChars? : List Char → Option (List Lexeme)
  | [' '] | ['\t'] => some []
  | cs =>
    if isName cs then some [.name (String.ofList cs)]
    else if isNumeral cs then some [.numeral (String.ofList cs)]
    else match cs with
      | [c] => if isMark c then some [.mark c] else none
      | _ => none

/-- Characters that are no blank are a name, a literal or a single mark. -/
theorem lexemeOfChars?_of_not_blank {cs : List Char} (h : ¬(cs = [' '] ∨ cs = ['\t'])) :
    lexemeOfChars? cs =
      if isName cs then some [.name (String.ofList cs)]
      else if isNumeral cs then some [.numeral (String.ofList cs)]
      else match cs with
        | [c] => if isMark c then some [.mark c] else none
        | _ => none := by
  unfold lexemeOfChars?
  split
  · exact absurd (.inl rfl) h
  · exact absurd (.inr rfl) h
  · rfl

/-- The tokens of glyphs that belong together. -/
def lexeme? : List Glyph → Option (List Lexeme)
  | [.fragment source] => some [.fragment source]
  | run => (run.mapM Glyph.char?).bind lexemeOfChars?

/-- The tokens of a line, if it can be told apart into tokens that the grammar knows. -/
def lexemes? (line : List Glyph) : Option (List Lexeme) :=
  ((line.splitBy Glyph.fuses).mapM lexeme?).map List.flatten

/-- The glyphs are read as these tokens. -/
def Spelled (line : List Glyph) (ts : List Lexeme) : Prop := lexemes? line = some ts

/-- Nothing belongs together at the seam of two lines. -/
def Apart (xs ys : List Glyph) : Prop :=
  ∀ x ∈ xs.getLast?, ∀ y ∈ ys.head?, x.fuses y = false

namespace Spelled

variable {xs ys : List Glyph} {ts us : List Lexeme}

/-- **Parts that stand apart are read apart.** -/
theorem append (hx : Spelled xs ts) (hy : Spelled ys us) (h : Apart xs ys) :
    Spelled (xs ++ ys) (ts ++ us) := by
  obtain ⟨tss, hxs, rfl⟩ := Option.map_eq_some_iff.1 hx
  obtain ⟨uss, hys, rfl⟩ := Option.map_eq_some_iff.1 hy
  rw [Spelled, lexemes?, List.splitBy_append h, List.mapM_append, hxs, hys]
  simp

/-- Glyphs that all belong together are read as one token or a blank. -/
theorem of_run {run : List Glyph} (hne : run ≠ [])
    (hchain : run.IsChain fun x y => x.fuses y = true) (h : lexeme? run = some ts) :
    Spelled run ts := by
  rw [Spelled, lexemes?, List.splitBy_of_isChain hne hchain]
  simp [h]

end Spelled

/-! ## Names and literals -/

/-- Characters that are all written together belong to one token. -/
theorem spelled_of_wordy {text : String} {token : Lexeme} (hne : text.toList ≠ [])
    (hwordy : ∀ c ∈ text.toList, (Glyph.char c).isWordy = true)
    (h : lexemeOfChars? text.toList = some [token]) : Spelled (Glyph.ofText text) [token] := by
  have hrun : lexeme? (Glyph.ofText text) = lexemeOfChars? text.toList := by
    rw [← Option.bind_some (text.toList) lexemeOfChars?, ← Glyph.mapM_char?_ofText]
    unfold Glyph.ofText
    obtain ⟨c, cs, htext⟩ := List.exists_cons_of_ne_nil hne
    rw [htext]
    cases cs <;> rfl
  refine .of_run (by simpa [Glyph.ofText] using hne) ?_ (hrun.trans h)
  rw [Glyph.ofText, List.isChain_map]
  refine List.Pairwise.isChain (List.pairwise_of_forall_mem_list fun c hc d hd => ?_)
  simp [Glyph.fuses, hwordy c hc, hwordy d hd]

/-- A name is read as a name. -/
theorem spelled_name {text : String} (h : isName text.toList = true) :
    Spelled (Glyph.ofText text) [.name text] := by
  refine spelled_of_wordy ?_ (fun c hc => ?_) ?_
  · intro hnil
    rw [hnil] at h
    cases h
  · obtain ⟨d, ds, htext⟩ : ∃ d ds, text.toList = d :: ds := by
      cases htext : text.toList with
      | nil => rw [htext] at hc; cases hc
      | cons d ds => exact ⟨d, ds, rfl⟩
    rw [htext] at h hc
    simp only [isName, Bool.and_eq_true, Bool.or_eq_true, List.all_eq_true] at h
    rcases List.mem_cons.1 hc with rfl | hc
    · rcases h.1 with halpha | hunder
      · simp [Glyph.isWordy, Char.isAlphanum, halpha]
      · simp [Glyph.isWordy, hunder]
    · rcases h.2 c hc with halnum | hunder
      · simp [Glyph.isWordy, halnum]
      · simp [Glyph.isWordy, hunder]
  · rw [lexemeOfChars?_of_not_blank fun hblank => ?_, if_pos h, String.ofList_toList]
    rcases hblank with hblank | hblank <;> exact absurd (hblank ▸ h) (by decide)

/-- No name starts with a digit. -/
theorem notName_of_isDigit {c : Char} (h : c.isDigit = true) : (c.isAlpha || c == '_') = false := by
  have hne : c ≠ '_' := by
    rintro rfl
    exact absurd h (by decide)
  have hle : c.val ≤ 57 := of_decide_eq_true (Bool.and_eq_true_iff.1 h).2
  have hletter : c.isAlpha = false := by
    refine Bool.eq_false_iff.2 fun hc => ?_
    rcases Bool.or_eq_true_iff.1 hc with hupper | hlower
    · have hlow : 65 ≤ c.val := (of_decide_eq_true hupper).1
      exact absurd (UInt32.le_trans hlow hle) (by decide)
    · have hlow : 97 ≤ c.val := of_decide_eq_true (Bool.and_eq_true_iff.1 hlower).1
      exact absurd (UInt32.le_trans hlow hle) (by decide)
  rw [hletter, Bool.false_or, beq_eq_false_iff_ne]
  exact hne

/-- Digits around a point are a literal. -/
theorem isNumeral_append {whole fraction : List Char} (hwhole : whole ≠ [])
    (hfraction : fraction ≠ []) (hw : ∀ c ∈ whole, c.isDigit = true)
    (hf : ∀ c ∈ fraction, c.isDigit = true) : isNumeral (whole ++ '.' :: fraction) = true := by
  have htake : (whole ++ '.' :: fraction).takeWhile Char.isDigit = whole := by
    rw [List.takeWhile_append_of_pos hw, List.takeWhile_cons_of_neg (by decide), List.append_nil]
  have hdrop : (whole ++ '.' :: fraction).dropWhile Char.isDigit = '.' :: fraction := by
    rw [List.dropWhile_append_of_pos hw, List.dropWhile_cons_of_neg (by decide)]
  rw [isNumeral, htake, hdrop]
  obtain ⟨c, cs, rfl⟩ := List.exists_cons_of_ne_nil hwhole
  obtain ⟨d, ds, rfl⟩ := List.exists_cons_of_ne_nil hfraction
  exact List.all_eq_true.2 hf

/-- A literal is read as a literal. -/
theorem spelled_numeral {whole fraction : List Char} (hwhole : whole ≠ [])
    (hfraction : fraction ≠ []) (hw : ∀ c ∈ whole, c.isDigit = true)
    (hf : ∀ c ∈ fraction, c.isDigit = true) {text : String}
    (htext : text.toList = whole ++ '.' :: fraction) :
    Spelled (Glyph.ofText text) [.numeral text] := by
  have hnumeral := isNumeral_append hwhole hfraction hw hf
  refine spelled_of_wordy (by simp [htext]) (fun c hc => ?_) ?_
  · rw [htext, List.mem_append, List.mem_cons] at hc
    rcases hc with hc | rfl | hc
    · simp [Glyph.isWordy, Char.isAlphanum, hw c hc]
    · rfl
    · simp [Glyph.isWordy, Char.isAlphanum, hf c hc]
  · have hname : isName text.toList = false := by
      obtain ⟨c, cs, rfl⟩ := List.exists_cons_of_ne_nil hwhole
      rw [htext, List.cons_append, isName, notName_of_isDigit (hw c List.mem_cons_self),
        Bool.false_and]
    rw [← htext] at hnumeral
    rw [lexemeOfChars?_of_not_blank fun hblank => ?_, if_neg (by simp [hname]), if_pos hnumeral,
      String.ofList_toList]
    rcases hblank with hblank | hblank <;> exact absurd (hblank ▸ hnumeral) (by decide)

/-! ## Separators -/

/-- Glyphs that stand between two parts of a line and keep them apart. -/
structure Separator (gs : List Glyph) (ts : List Lexeme) : Prop where
  spelled : Spelled gs ts
  first : ∃ g, gs.head? = some g ∧ g.isLoose = true
  last : ∃ g, gs.getLast? = some g ∧ g.isLoose = true

namespace Spelled

variable {xs ys gs : List Glyph} {ts us vs : List Lexeme}

/-- A separator after a part of a line. -/
theorem append_separator (hx : Spelled xs ts) (hsep : Separator gs us) :
    Spelled (xs ++ gs) (ts ++ us) := by
  refine hx.append hsep.spelled fun x _ y hy => ?_
  obtain ⟨g, hg, hloose⟩ := hsep.first
  cases hg.symm.trans hy
  exact Glyph.fuses_of_isLoose_right hloose

/-- A separator before a part of a line. -/
theorem separator_append (hsep : Separator gs us) (hy : Spelled ys vs) :
    Spelled (gs ++ ys) (us ++ vs) := by
  refine hsep.spelled.append hy fun x hx y _ => ?_
  obtain ⟨g, hg, hloose⟩ := hsep.last
  cases hg.symm.trans hx
  exact Glyph.fuses_of_isLoose_left hloose

/-- A separator between two parts of a line. -/
theorem join (hx : Spelled xs ts) (hsep : Separator gs us) (hy : Spelled ys vs) :
    Spelled (xs ++ (gs ++ ys)) (ts ++ (us ++ vs)) := by
  refine hx.append (separator_append hsep hy) fun x _ y hy => ?_
  obtain ⟨g, hg, hloose⟩ := hsep.first
  rw [List.head?_append, hg] at hy
  cases hy
  exact Glyph.fuses_of_isLoose_right hloose

end Spelled

end FieldShader
