import FieldShader.Proofs.Glsl.Lexemes
import FieldShader.Proofs.Glsl.Names
import FieldShader.Proofs.Number.Notation
import FieldShader.Glsl.Listing

/-!
# Expressions read back from their text

`Expr.render` writes an expression without asking where parentheses are needed, so not every
expression is read back from its text: the sum of one and a difference is not. `Expr.WellGrouped`
says that every operand binds tight enough for its place. The text of a well-grouped expression is
read as `Expr.term`, the tree that the expression was written for (`Expr.WellGrouped.phrase`), and
so is the text of a declaration (`Declaration.readsAs`), by any reader of the grammar and at any
depth of indentation.
-/

namespace FieldShader

open Glyph

/-! ## Glyphs of an expression -/

/-- A call with the given arguments, at least one. -/
def Glyph.call (f : String) (first : List Glyph) (rest : List (List Glyph)) : List Glyph :=
  ofText f ++ (ofText "(" ++ (first ++ (rest.flatMap (ofText ", " ++ ·) ++ ofText ")")))

namespace Expr

/-- The text of an expression as glyphs, in which raw fragments are known as such. -/
def glyphs : Expr → List Glyph
  | .number value => ofText value.literal
  | .vec3 x y z => call "vec3" x.glyphs [y.glyphs, z.glyphs]
  | .raw source _ => [.fragment source]
  | .position name => ofText name
  | .var v => ofText v.name
  | .unary f a => call f.name a.glyphs []
  | .dot a b => call "dot" a.glyphs [b.glyphs]
  | .ternary f a b c => call f.name a.glyphs [b.glyphs, c.glyphs]
  | .neg a => ofText "-" ++ a.glyphs
  | .binary op a b => a.glyphs ++ (ofText op.text ++ b.glyphs)
  | .ifGreater a b yes no =>
    a.glyphs ++ (ofText " > " ++ (b.glyphs ++ (ofText " ? " ++ (yes.glyphs ++
      (ofText " : " ++ no.glyphs)))))
  | .group a => ofText "(" ++ (a.glyphs ++ ofText ")")

end Expr

/-- The glyphs of a text are its characters. -/
@[simp] theorem Glyph.chars_ofText (text : String) : (ofText text).flatMap chars = text.toList := by
  rw [ofText, List.flatMap_map]
  exact List.flatMap_singleton' _

/-- The glyphs of an expression make up its text. -/
theorem Expr.chars_glyphs (e : Expr) : e.glyphs.flatMap chars = e.render.toList := by
  induction e with
  | raw source t => simp [glyphs, render, chars]
  | _ => simp_all [glyphs, render, call, List.flatMap_append]

/-! ## Phrases -/

/-- The glyphs are read as an expression of the category with this tree. -/
def Phrase (c : Category) (gs : List Glyph) (t : Term) : Prop :=
  ∃ ts, Spelled gs ts ∧ Derives c ts t

theorem separator_open : Separator (ofText "(") [.mark '('] := ⟨rfl, ⟨_, rfl, rfl⟩, _, rfl, rfl⟩

theorem separator_close : Separator (ofText ")") [.mark ')'] := ⟨rfl, ⟨_, rfl, rfl⟩, _, rfl, rfl⟩

theorem separator_comma : Separator (ofText ", ") [.mark ','] := ⟨rfl, ⟨_, rfl, rfl⟩, _, rfl, rfl⟩

theorem separator_greater : Separator (ofText " > ") [.mark '>'] :=
  ⟨rfl, ⟨_, rfl, rfl⟩, _, rfl, rfl⟩

theorem separator_question : Separator (ofText " ? ") [.mark '?'] :=
  ⟨rfl, ⟨_, rfl, rfl⟩, _, rfl, rfl⟩

theorem separator_colon : Separator (ofText " : ") [.mark ':'] := ⟨rfl, ⟨_, rfl, rfl⟩, _, rfl, rfl⟩

namespace BinaryOperator

/-- The operator as a mark. -/
def mark : BinaryOperator → Char
  | .add => '+'
  | .sub => '-'
  | .div => '/'

/-- The category that the operator belongs to. -/
def category : BinaryOperator → Category
  | .add | .sub => .sum
  | .div => .quotient

theorem mark_mem_operators (op : BinaryOperator) : op.mark ∈ op.category.operators := by
  cases op <;> decide

theorem separator_text (op : BinaryOperator) : Separator (ofText op.text) [.mark op.mark] := by
  cases op <;> exact ⟨rfl, ⟨_, rfl, rfl⟩, _, rfl, rfl⟩

end BinaryOperator

namespace Phrase

variable {c c' : Category} {xs ys zs us vs : List Glyph} {t u v w : Term} {f : String}

/-- What binds tight enough stands in a looser place. -/
theorem loosen (h : Phrase c xs t) (hc : c ≠ .header) (hle : c.rank ≤ c'.rank) :
    Phrase c' xs t := by
  obtain ⟨ts, hspell, hderive⟩ := h
  exact ⟨ts, hspell, hderive.loosen hc hle⟩

/-- An expression in parentheses. -/
theorem group (h : Phrase .choice xs t) : Phrase .primary (ofText "(" ++ (xs ++ ofText ")")) t := by
  obtain ⟨ts, hspell, hderive⟩ := h
  exact ⟨_, .separator_append separator_open (hspell.append_separator separator_close),
    .group hderive⟩

/-- More arguments of a call. -/
theorem arguments {args terms : List Term} {rest : List (List Glyph)}
    (h : Phrase .header xs (.call f args)) (hrest : List.Forall₂ (Phrase .choice) rest terms) :
    Phrase .header (xs ++ rest.flatMap (ofText ", " ++ ·)) (.call f (args ++ terms)) := by
  induction hrest generalizing xs args with
  | nil => simpa using h
  | @cons gs u rest terms hu _ ih =>
    obtain ⟨ts, hspell, hderive⟩ := h
    obtain ⟨us, hspell', hderive'⟩ := hu
    have hnext : Phrase .header (xs ++ (ofText ", " ++ gs)) (.call f (args ++ [u])) :=
      ⟨_, hspell.join separator_comma hspell', .next hderive hderive'⟩
    have hall := ih hnext
    rwa [List.append_assoc, ← List.flatMap_cons, List.append_assoc] at hall

/-- A call. -/
theorem call {terms : List Term} {rest : List (List Glyph)} (hf : isName f.toList = true)
    (h : Phrase .choice xs t) (hrest : List.Forall₂ (Phrase .choice) rest terms) :
    Phrase .primary (Glyph.call f xs rest) (.call f (t :: terms)) := by
  obtain ⟨ts, hspell, hderive⟩ := h
  have hfirst : Phrase .header (ofText f ++ (ofText "(" ++ xs)) (.call f [t]) :=
    ⟨_, (spelled_name hf).join separator_open hspell, .first f hderive⟩
  obtain ⟨us, hspell', hderive'⟩ := hfirst.arguments hrest
  refine ⟨_, ?_, .call hderive'⟩
  have hclosed := hspell'.append_separator separator_close
  simpa [Glyph.call] using hclosed

/-- A binary operator. -/
theorem binary (op : BinaryOperator) (hx : Phrase op.category xs t)
    (hc : op.category.tighter? = some c) (hy : Phrase c ys u) :
    Phrase op.category (xs ++ (ofText op.text ++ ys)) (.binary op.mark t u) := by
  obtain ⟨ts, hspell, hderive⟩ := hx
  obtain ⟨us, hspell', hderive'⟩ := hy
  exact ⟨_, hspell.join op.separator_text hspell',
    .binary op.mark_mem_operators hc hderive hderive'⟩

/-- A choice by a comparison. -/
theorem choice (hx : Phrase .comparison xs t) (hy : Phrase .sum ys u) (hu : Phrase .choice us v)
    (hv : Phrase .choice vs w) :
    Phrase .choice (xs ++ (ofText " > " ++ (ys ++ (ofText " ? " ++ (us ++ (ofText " : " ++ vs))))))
      (.choice (.binary '>' t u) v w) := by
  obtain ⟨ts, hspell, hderive⟩ := hx
  obtain ⟨us, hspell', hderive'⟩ := hy
  obtain ⟨vs, hspellYes, hyes⟩ := hu
  obtain ⟨ws, hspellNo, hno⟩ := hv
  have htest : Derives .comparison (ts ++ .mark '>' :: us) (.binary '>' t u) :=
    .binary List.mem_cons_self rfl hderive hderive'
  refine ⟨_, hspell.join separator_greater (hspell'.join separator_question
    (hspellYes.join separator_colon hspellNo)), ?_⟩
  have hall := Derives.choice htest hyes hno
  simpa using hall

/-- A name. -/
theorem name (hf : isName f.toList = true) : Phrase .primary (ofText f) (.name f) :=
  ⟨_, spelled_name hf, .name f⟩

/-- A sign in front of an operand that does not start with a sign itself. -/
theorem negation (h : Phrase .unary xs t) (hhead : ∀ g ∈ xs.head?, g.isSign = false) :
    Phrase .unary (ofText "-" ++ xs) (.negation t) := by
  obtain ⟨ts, hspell, hderive⟩ := h
  have hminus : Spelled (ofText "-") [.mark '-'] := rfl
  refine ⟨_, hminus.append hspell fun x hx y hy => ?_, .negation hderive⟩
  have hlast : (ofText "-").getLast? = some (.char '-') := rfl
  rw [hlast] at hx
  obtain rfl := Option.some.inj hx
  have hwordy : (Glyph.char '-').isWordy = false := rfl
  rw [fuses, hwordy, hhead y hy, Bool.false_and, Bool.and_false, Bool.or_false]

end Phrase

/-! ## Literals and variables -/

/-- A letter or a digit is no sign. -/
theorem Glyph.isSign_of_isAlphanum {c : Char} (h : c.isAlphanum = true) :
    (Glyph.char c).isSign = false := by
  have hnone : ['+', '-', '*', '/', '%', '<', '>', '=', '!', '&', '|', '^', '~'].all
      (fun d => !d.isAlphanum) = true := rfl
  rw [isSign, List.contains_eq_mem, decide_eq_false_iff_not]
  intro hmem
  have hsign := List.all_eq_true.1 hnone c hmem
  rw [h] at hsign
  cases hsign

/-- A positional numeral has digits on either side of a point. -/
theorem Decimal.exists_positional (d : Decimal) : ∃ whole fraction,
    d.positional = whole ++ '.' :: fraction ∧ whole ≠ [] ∧ fraction ≠ [] ∧
      (∀ c ∈ whole, c.isDigit = true) ∧ ∀ c ∈ fraction, c.isDigit = true := by
  unfold positional
  dsimp only
  split
  · refine ⟨d.chars ++ List.replicate d.exponent.toNat '0', ['0'], by simp,
      by simp [d.chars_ne_nil], by simp, fun c hc => ?_, by simp⟩
    exact (List.mem_append.1 hc).elim isDigit_of_mem_chars isDigit_of_mem_replicate
  · split
    · refine ⟨_, _, rfl, ?_, ?_, fun c hc => isDigit_of_mem_chars (List.mem_of_mem_take hc),
        fun c hc => isDigit_of_mem_chars (List.mem_of_mem_drop hc)⟩
      · rw [ne_eq, List.take_eq_nil_iff]
        exact not_or.2 ⟨by omega, d.chars_ne_nil⟩
      · rw [ne_eq, List.drop_eq_nil_iff]
        omega
    · refine ⟨['0'], _, rfl, by simp, by simp [d.chars_ne_nil], by simp, fun c hc => ?_⟩
      exact (List.mem_append.1 hc).elim isDigit_of_mem_replicate isDigit_of_mem_chars

/-- The tree of a literal. A negative one is the unary minus of a literal. -/
def Single.term (x : Single) : Term :=
  match x.value with
  | .finite negative m =>
    let magnitude := Term.numeral (String.ofList (NumberStyle.literal.write .single false m))
    if negative then .negation magnitude else magnitude
  | .nan | .infinite _ => .numeral x.literal

/-- The category of a literal. -/
def Single.category (x : Single) : Category :=
  match x.value with
  | .finite true _ => .unary
  | .finite false _ | .nan | .infinite _ => .primary

/-- **The literal of a finite number** is read as the number, a sign as a unary minus. -/
theorem Single.phrase_literal {x : Single} (h : x.isFinite = true) :
    Phrase x.category (ofText x.literal) x.term := by
  unfold isFinite at h
  cases hx : x.value with
  | nan | infinite => simp [hx] at h
  | finite negative m =>
    obtain ⟨whole, fraction, hpositional, hwhole, hfraction, hw, hf⟩ :=
      (BinaryFormat.single.shortest NumberStyle.literal.tie m).exists_positional
    have hunsigned : NumberStyle.literal.write .single false m = whole ++ '.' :: fraction :=
      hpositional
    have hmagnitude : Phrase .primary
        (ofText (String.ofList (NumberStyle.literal.write .single false m)))
        (.numeral (String.ofList (NumberStyle.literal.write .single false m))) := by
      refine ⟨_, spelled_numeral hwhole hfraction hw hf ?_, .numeral _⟩
      rw [String.toList_ofList, hunsigned]
    simp only [category, literal, term, hx]
    cases negative with
    | false => exact hmagnitude
    | true =>
      have hminus : ofText (String.ofList (NumberStyle.literal.write .single true m)) =
          ofText "-" ++ ofText (String.ofList (NumberStyle.literal.write .single false m)) := by
        simp [ofText, NumberStyle.write]
      rw [hminus]
      refine (hmagnitude.loosen (by decide) (by decide)).negation fun g hg => ?_
      obtain ⟨c, cs, rfl⟩ := List.exists_cons_of_ne_nil hwhole
      rw [hunsigned, ofText, String.toList_ofList] at hg
      cases hg
      exact isSign_of_isAlphanum (by simp [Char.isAlphanum, hw c List.mem_cons_self])

/-- The name of a variable is a name. -/
theorem Variable.isName_name (v : Variable) : isName v.name.toList = true := by
  have hall : ∀ c ∈ v.name.toList, c.isAlphanum = true := fun c => isAlphanum_of_mem_name
  have hfirst : ∃ c cs, v.name.toList = c :: cs ∧ c.isAlpha = true := by
    rw [toList_name]
    cases v.property <;> exact ⟨_, _, rfl, by decide⟩
  obtain ⟨c, cs, hname, halpha⟩ := hfirst
  rw [hname] at hall ⊢
  simp only [isName, Bool.and_eq_true, Bool.or_eq_true, List.all_eq_true]
  exact ⟨.inl halpha, fun d hd => .inl (hall d (List.mem_cons_of_mem _ hd))⟩

/-! ## Well-grouped expressions -/

namespace Expr

/-- The tree that the expression was written for. Parentheses leave no trace in it. -/
def term : Expr → Term
  | .number value => value.term
  | .vec3 x y z => .call "vec3" [x.term, y.term, z.term]
  | .raw source _ => .fragment source
  | .position name => .name name
  | .var v => .name v.name
  | .unary f a => .call f.name [a.term]
  | .dot a b => .call "dot" [a.term, b.term]
  | .ternary f a b c => .call f.name [a.term, b.term, c.term]
  | .neg a => .negation a.term
  | .binary op a b => .binary op.mark a.term b.term
  | .ifGreater a b yes no => .choice (.binary '>' a.term b.term) yes.term no.term
  | .group a => a.term

/-- The category of the text of the expression. -/
def category : Expr → Category
  | .number value => value.category
  | .neg _ => .unary
  | .binary op _ _ => op.category
  | .ifGreater .. => .choice
  | .vec3 .. | .raw .. | .position _ | .var _ | .unary .. | .dot .. | .ternary .. | .group _ =>
    .primary

/-- Every operand binds tight enough for its place, only variables are negated, and every number
has a literal. -/
inductive WellGrouped : Expr → Prop
  | number {value : Single} (h : value.isFinite = true) : WellGrouped (.number value)
  | vec3 {x y z : Expr} (hx : WellGrouped x) (hy : WellGrouped y) (hz : WellGrouped z) :
      WellGrouped (.vec3 x y z)
  | raw (source : String) (t : GlslType) : WellGrouped (.raw source t)
  | position {name : String} (h : isName name.toList = true) : WellGrouped (.position name)
  | var (v : Variable) : WellGrouped (.var v)
  | unary (f : UnaryFunction) {a : Expr} (ha : WellGrouped a) : WellGrouped (.unary f a)
  | dot {a b : Expr} (ha : WellGrouped a) (hb : WellGrouped b) : WellGrouped (.dot a b)
  | ternary (f : TernaryFunction) {a b c : Expr} (ha : WellGrouped a) (hb : WellGrouped b)
      (hc : WellGrouped c) : WellGrouped (.ternary f a b c)
  | neg (v : Variable) : WellGrouped (.neg (.var v))
  | binary {op : BinaryOperator} {c : Category} {a b : Expr} (ha : WellGrouped a)
      (hb : WellGrouped b) (hleft : a.category.rank ≤ op.category.rank)
      (hc : op.category.tighter? = some c) (hright : b.category.rank ≤ c.rank) :
      WellGrouped (.binary op a b)
  | ifGreater {a b yes no : Expr} (ha : WellGrouped a) (hb : WellGrouped b)
      (hyes : WellGrouped yes) (hno : WellGrouped no)
      (hleft : a.category.rank ≤ Category.comparison.rank)
      (hright : b.category.rank ≤ Category.sum.rank) : WellGrouped (.ifGreater a b yes no)
  | group {a : Expr} (ha : WellGrouped a) : WellGrouped (.group a)

/-- No expression is a call without its closing parenthesis. -/
theorem category_ne_header (e : Expr) : e.category ≠ .header := by
  cases e with
  | number value => rw [category, Single.category]; split <;> nofun
  | binary op a b => cases op <;> nofun
  | _ => nofun

/-- Every expression may stand where a choice may. -/
theorem rank_category_le (e : Expr) : e.category.rank ≤ Category.choice.rank := by
  cases e.category <;> decide

namespace WellGrouped

/-- What is well grouped is read, in any place that it binds tight enough for. -/
theorem phrase {e : Expr} (h : e.WellGrouped) {c : Category} (hc : e.category.rank ≤ c.rank) :
    Phrase c e.glyphs e.term := by
  refine Phrase.loosen ?_ e.category_ne_header hc
  clear hc
  have hargument {e : Expr} (h : Phrase e.category e.glyphs e.term) :
      Phrase .choice e.glyphs e.term := h.loosen e.category_ne_header e.rank_category_le
  induction h with
  | number hvalue => exact Single.phrase_literal hvalue
  | vec3 _ _ _ ihx ihy ihz =>
    exact Phrase.call rfl (hargument ihx) (.cons (hargument ihy) (.cons (hargument ihz) .nil))
  | raw source t => exact ⟨_, rfl, .fragment source⟩
  | position hname => exact .name hname
  | var v => exact .name v.isName_name
  | unary f _ iha => exact Phrase.call (by cases f <;> rfl) (hargument iha) .nil
  | dot _ _ iha ihb => exact Phrase.call rfl (hargument iha) (.cons (hargument ihb) .nil)
  | ternary f _ _ _ iha ihb ihc =>
    exact Phrase.call (by cases f <;> rfl) (hargument iha)
      (.cons (hargument ihb) (.cons (hargument ihc) .nil))
  | neg v =>
    refine ((Phrase.name v.isName_name).loosen nofun (by decide)).negation fun g hg => ?_
    obtain ⟨c, hc, rfl⟩ := List.mem_map.1 (List.mem_of_head? hg)
    exact isSign_of_isAlphanum (Variable.isAlphanum_of_mem_name hc)
  | @binary op c a b _ _ hleft hc hright iha ihb =>
    exact (iha.loosen a.category_ne_header hleft).binary op hc
      (ihb.loosen b.category_ne_header hright)
  | @ifGreater a b yes no _ _ _ _ hleft hright iha ihb ihyes ihno =>
    exact (iha.loosen a.category_ne_header hleft).choice (ihb.loosen b.category_ne_header hright)
      (hargument ihyes) (hargument ihno)
  | group _ iha => exact (hargument iha).group

end WellGrouped

end Expr

/-! ## Lines -/

/-- A declaration as it is read: its type, its name and the tree of its value. -/
structure Reading where
  /-- The keyword of the type. -/
  type : String
  /-- The name that is declared. -/
  name : String
  /-- The tree of the value. -/
  value : Term

/-- The production of a declaration. -/
def Reading.Derived (r : Reading) (ts : List Lexeme) : Prop :=
  ∃ us, ts = .name r.type :: .name r.name :: .mark '=' :: (us ++ [.mark ';']) ∧
    Derives .choice us r.value

/-- The line is read as the declaration: it falls into tokens, its fragments each being one, that
are derived as this declaration and as no other. -/
def ReadsAs (line : String) (r : Reading) : Prop :=
  ∃ gs ts, line.toList = gs.flatMap Glyph.chars ∧ Spelled gs ts ∧ r.Derived ts ∧
    ∀ r' : Reading, r'.Derived ts → r' = r

/-- Tokens are derived as at most one declaration. -/
theorem Reading.Derived.unique {r r' : Reading} {ts : List Lexeme} (h : r.Derived ts)
    (h' : r'.Derived ts) : r' = r := by
  obtain ⟨us, rfl, hvalue⟩ := h
  obtain ⟨us', heq, hvalue'⟩ := h'
  simp only [List.cons.injEq, Lexeme.name.injEq, true_and, List.append_cancel_right_eq] at heq
  obtain ⟨htype, hname, rfl⟩ := heq
  obtain ⟨type, name, value⟩ := r
  obtain ⟨type', name', value'⟩ := r'
  cases htype
  cases hname
  cases hvalue.unique hvalue'
  rfl

namespace Declaration

/-- The declaration as it is meant to be read. -/
def reading (d : Declaration) : Reading :=
  ⟨d.target.property.type.keyword, d.target.name, d.value.term⟩

/-- The text of a declaration as glyphs. -/
def glyphs (d : Declaration) : List Glyph :=
  ofText d.target.property.type.keyword ++ (ofText " " ++ (ofText d.target.name ++
    (ofText " = " ++ (d.value.glyphs ++ ofText ";"))))

/-- The glyphs of a declaration make up its text. -/
theorem chars_glyphs (d : Declaration) : d.glyphs.flatMap Glyph.chars = d.render.toList := by
  simp [glyphs, render, Variable.declare, List.flatMap_append, d.value.chars_glyphs]

/-- **A declaration of a well-grouped value is read back**, at any depth of indentation. -/
theorem readsAs {d : Declaration} (h : d.value.WellGrouped) (depth : Nat) :
    ReadsAs (indent depth d.render) d.reading := by
  obtain ⟨ts, hvalue, hderive⟩ := h.phrase d.value.rank_category_le
  have hblank : Separator (ofText " ") [] := ⟨rfl, ⟨_, rfl, rfl⟩, _, rfl, rfl⟩
  have hequals : Separator (ofText " = ") [.mark '='] := ⟨rfl, ⟨_, rfl, rfl⟩, _, rfl, rfl⟩
  have hend : Separator (ofText ";") [.mark ';'] := ⟨rfl, ⟨_, rfl, rfl⟩, _, rfl, rfl⟩
  have hkeyword : isName d.target.property.type.keyword.toList = true := by
    cases d.target.property <;> rfl
  have hline : Spelled d.glyphs (.name d.target.property.type.keyword ::
      .name d.target.name :: .mark '=' :: (ts ++ [.mark ';'])) :=
    (spelled_name hkeyword).join hblank ((spelled_name d.target.isName_name).join hequals
      (hvalue.append_separator hend))
  have hindented (n : Nat) : Spelled (List.replicate n (.char '\t') ++ d.glyphs)
      (.name d.target.property.type.keyword ::
        .name d.target.name :: .mark '=' :: (ts ++ [.mark ';'])) := by
    induction n with
    | zero => exact hline
    | succ n ih =>
      have htab : Separator [.char '\t'] [] := ⟨rfl, ⟨_, rfl, rfl⟩, _, rfl, rfl⟩
      exact Spelled.separator_append htab ih
  have hderived : d.reading.Derived (.name d.target.property.type.keyword ::
      .name d.target.name :: .mark '=' :: (ts ++ [.mark ';'])) := ⟨ts, rfl, hderive⟩
  refine ⟨_, _, ?_, hindented depth, hderived, fun r' hr' => hderived.unique hr'⟩
  have htabs : (List.replicate depth (Glyph.char '\t')).flatMap Glyph.chars =
      List.replicate depth '\t' := by
    induction depth with
    | zero => rfl
    | succ n ih => rw [List.replicate_succ, List.flatMap_cons, ih]; rfl
  rw [List.flatMap_append, htabs, chars_glyphs]
  simp [indent]

end Declaration

end FieldShader
