import Mathlib.Data.List.Basic

/-!
# The grammar of expressions

The part of the shading language's grammar that generated lines are written in, as productions over
tokens and with the tree that each production builds. The binary operators are layered by how tight
they bind, a quotient tighter than sums and differences and these tighter than a comparison, and all
of them group to the left; a unary minus binds tighter than any of them and a choice looser.
Parentheses leave no trace in the tree.

The productions are the specification and are not meant to be run. `Reads` is the same language as a
reader would go through it, from left to right with one token of lookahead. It is there for one
result: a derived line is read, and a reader has no choice (`Reads.unique`), so a sequence of tokens
has no more than one tree (`Derives.unique`).
-/

namespace FieldShader

/-- A token of a line. A fragment of an author's source counts as one, with its parentheses. -/
inductive Lexeme where
  /-- A name or a keyword. -/
  | name (text : String)
  /-- A literal, without a sign. -/
  | numeral (text : String)
  /-- A fragment of source text in parentheses. -/
  | fragment (source : String)
  /-- A mark or an operator of one character. -/
  | mark (c : Char)
deriving DecidableEq

/-- The tree of an expression. -/
inductive Term where
  /-- A variable. -/
  | name (text : String)
  /-- A literal, without a sign. -/
  | numeral (text : String)
  /-- A fragment of source text. -/
  | fragment (source : String)
  /-- A function or a constructor and its arguments. -/
  | call (function : String) (arguments : List Term)
  /-- The unary minus. -/
  | negation (operand : Term)
  /-- A binary operator. -/
  | binary (operator : Char) (left right : Term)
  /-- A choice between two expressions. -/
  | choice (test yes no : Term)

/-- The categories of the grammar, from what binds tightest on; `header` is a call before its
closing parenthesis. -/
inductive Category where
  | header
  | primary
  | unary
  | quotient
  | sum
  | comparison
  | choice
deriving DecidableEq

namespace Category

/-- How loosely the category binds. -/
def rank : Category → Nat
  | .header => 0
  | .primary => 1
  | .unary => 2
  | .quotient => 3
  | .sum => 4
  | .comparison => 5
  | .choice => 6

/-- The category that binds one step tighter. -/
def tighter? : Category → Option Category
  | .header | .primary => none
  | .unary => some .primary
  | .quotient => some .unary
  | .sum => some .quotient
  | .comparison => some .sum
  | .choice => some .comparison

/-- The operators whose applications form the category. -/
def operators : Category → List Char
  | .quotient => ['/']
  | .sum => ['+', '-']
  | .comparison => ['>']
  | .header | .primary | .unary | .choice => []

/-- What stands for itself binds tight enough for any place. -/
theorem rank_primary_le {c : Category} (hc : c ≠ .header) : Category.primary.rank ≤ c.rank := by
  cases c <;> first | exact absurd rfl hc | decide

end Category

/-- The productions of the grammar. -/
inductive Derives : Category → List Lexeme → Term → Prop
  | name (text : String) : Derives .primary [.name text] (.name text)
  | numeral (text : String) : Derives .primary [.numeral text] (.numeral text)
  | fragment (source : String) : Derives .primary [.fragment source] (.fragment source)
  | group {ts : List Lexeme} {t : Term} (inner : Derives .choice ts t) :
      Derives .primary (.mark '(' :: (ts ++ [.mark ')'])) t
  | first (f : String) {ts : List Lexeme} {t : Term} (argument : Derives .choice ts t) :
      Derives .header (.name f :: .mark '(' :: ts) (.call f [t])
  | next {f : String} {args : List Term} {ts us : List Lexeme} {u : Term}
      (header : Derives .header ts (.call f args)) (argument : Derives .choice us u) :
      Derives .header (ts ++ .mark ',' :: us) (.call f (args ++ [u]))
  | call {ts : List Lexeme} {t : Term} (header : Derives .header ts t) :
      Derives .primary (ts ++ [.mark ')']) t
  | negation {ts : List Lexeme} {t : Term} (operand : Derives .unary ts t) :
      Derives .unary (.mark '-' :: ts) (.negation t)
  | binary {c c' : Category} {op : Char} {ts us : List Lexeme} {t u : Term}
      (hop : op ∈ c.operators) (hc : c.tighter? = some c') (left : Derives c ts t)
      (right : Derives c' us u) : Derives c (ts ++ .mark op :: us) (.binary op t u)
  | choice {ts us vs : List Lexeme} {t u v : Term} (test : Derives .comparison ts t)
      (yes : Derives .choice us u) (no : Derives .choice vs v) :
      Derives .choice (ts ++ .mark '?' :: (us ++ .mark ':' :: vs)) (.choice t u v)
  | lift {c c' : Category} {ts : List Lexeme} {t : Term} (hc : c.tighter? = some c')
      (inner : Derives c' ts t) : Derives c ts t

/-- What binds tight enough is an expression of every looser category. -/
theorem Derives.loosen {c c' : Category} {ts : List Lexeme} {t : Term} (h : Derives c ts t)
    (hc : c ≠ .header) (hle : c.rank ≤ c'.rank) : Derives c' ts t := by
  have hstep {c c' : Category} (hc : c ≠ .header) (hlt : c.rank < c'.rank) :
      ∃ c'', c'.tighter? = some c'' ∧ c''.rank + 1 = c'.rank := by
    cases c' with
    | header => cases hlt
    | primary => cases c <;> first | exact absurd rfl hc | exact absurd hlt (by decide)
    | unary | quotient | sum | comparison | choice => exact ⟨_, rfl, rfl⟩
  induction hn : c'.rank generalizing c' with
  | zero =>
    cases c <;> first | exact absurd rfl hc | exact absurd (hn ▸ hle) (by decide)
  | succ n ih =>
    rcases Nat.eq_or_lt_of_le hle with heq | hlt
    · obtain rfl : c = c' := by cases c <;> cases c' <;> first | rfl | exact absurd heq (by decide)
      exact h
    · obtain ⟨c'', htighter, hrank⟩ := hstep hc hlt
      exact .lift htighter (ih (by omega) (by omega))

/-! ## Reading from left to right -/

/-- The rank of the tightest category that goes on with the token after an expression. -/
def Lexeme.rank : Lexeme → Nat
  | .mark '(' => Category.primary.rank
  | .mark '/' => Category.quotient.rank
  | .mark '+' | .mark '-' => Category.sum.rank
  | .mark '>' => Category.comparison.rank
  | .mark '?' => Category.choice.rank
  | .mark _ | .name _ | .numeral _ | .fragment _ => 7

/-- An expression of the rank cannot go on with what follows. -/
def Stops (rank : Nat) (rest : List Lexeme) : Prop := ∀ t ∈ rest.head?, rank < t.rank

/-- An operator goes on with expressions of its category and not of a tighter one. -/
theorem rank_operator {c : Category} {op : Char} (h : op ∈ c.operators) :
    (Lexeme.mark op).rank = c.rank := by
  cases c <;> simp only [Category.operators, List.not_mem_nil, List.mem_cons, or_false] at h
  · rw [h]; rfl
  · rcases h with rfl | rfl <;> rfl
  · rw [h]; rfl

/-- What a reader is about to do. -/
inductive Intent where
  /-- Read an expression of the category. -/
  | want (c : Category)
  /-- Go on after an expression of the next tighter category. -/
  | tail (c : Category) (left : Term)
  /-- Go on after some arguments of a call. -/
  | arguments (f : String) (args : List Term)

/-- What a reader makes of the first tokens, and what is left. -/
inductive Reads : Intent → List Lexeme → Term → List Lexeme → Prop
  | name {text : String} {rest : List Lexeme} (h : Stops Category.primary.rank rest) :
      Reads (.want .primary) (.name text :: rest) (.name text) rest
  | numeral (text : String) (rest : List Lexeme) :
      Reads (.want .primary) (.numeral text :: rest) (.numeral text) rest
  | fragment (source : String) (rest : List Lexeme) :
      Reads (.want .primary) (.fragment source :: rest) (.fragment source) rest
  | group {ts rest : List Lexeme} {t : Term}
      (inner : Reads (.want .choice) ts t (.mark ')' :: rest)) :
      Reads (.want .primary) (.mark '(' :: ts) t rest
  | call {f : String} {ts mid rest : List Lexeme} {t u : Term}
      (argument : Reads (.want .choice) ts t mid) (more : Reads (.arguments f [t]) mid u rest) :
      Reads (.want .primary) (.name f :: .mark '(' :: ts) u rest
  | close (f : String) (args : List Term) (rest : List Lexeme) :
      Reads (.arguments f args) (.mark ')' :: rest) (.call f args) rest
  | comma {f : String} {args : List Term} {ts mid rest : List Lexeme} {t u : Term}
      (argument : Reads (.want .choice) ts t mid)
      (more : Reads (.arguments f (args ++ [t])) mid u rest) :
      Reads (.arguments f args) (.mark ',' :: ts) u rest
  | negation {ts rest : List Lexeme} {t : Term} (operand : Reads (.want .unary) ts t rest) :
      Reads (.want .unary) (.mark '-' :: ts) (.negation t) rest
  | unsigned {ts rest : List Lexeme} {t : Term} (h : ts.head? ≠ some (.mark '-'))
      (operand : Reads (.want .primary) ts t rest) : Reads (.want .unary) ts t rest
  | climb {c c' : Category} {ts mid rest : List Lexeme} {t u : Term} (hc : c.tighter? = some c')
      (hunary : c ≠ .unary) (left : Reads (.want c') ts t mid)
      (more : Reads (.tail c t) mid u rest) : Reads (.want c) ts u rest
  | apply {c c' : Category} {op : Char} {ts mid rest : List Lexeme} {t u v : Term}
      (hop : op ∈ c.operators) (hc : c.tighter? = some c') (right : Reads (.want c') ts u mid)
      (more : Reads (.tail c (.binary op t u)) mid v rest) :
      Reads (.tail c t) (.mark op :: ts) v rest
  | choose {ts mid rest : List Lexeme} {t u v : Term}
      (yes : Reads (.want .choice) ts u (.mark ':' :: mid))
      (no : Reads (.want .choice) mid v rest) :
      Reads (.tail .choice t) (.mark '?' :: ts) (.choice t u v) rest
  | stop {c : Category} {rest : List Lexeme} {t : Term} (h : Stops c.rank rest) :
      Reads (.tail c t) rest t rest

namespace Reads

variable {r : Intent} {ts us rest rest' : List Lexeme} {t u : Term}

/-- **A reader has no choice**: what it makes of some tokens is determined. -/
theorem unique (h : Reads r ts t rest) (h' : Reads r ts u rest') : t = u ∧ rest = rest' := by
  induction h generalizing u rest' with
  | name hstop =>
    cases h' with
    | name => exact ⟨rfl, rfl⟩
    | call => exact absurd (hstop _ rfl) (by decide)
    | climb hc => cases hc
  | numeral | fragment =>
    cases h' with
    | climb hc => cases hc
    | _ => exact ⟨rfl, rfl⟩
  | close =>
    cases h'
    exact ⟨rfl, rfl⟩
  | group _ ih =>
    cases h' with
    | group inner =>
      obtain ⟨rfl, heq⟩ := ih inner
      exact ⟨rfl, (List.cons.inj heq).2⟩
    | climb hc => cases hc
  | call _ _ iharg ihmore =>
    cases h' with
    | name hstop => exact absurd (hstop _ rfl) (by decide)
    | call argument more =>
      obtain ⟨rfl, rfl⟩ := iharg argument
      exact ihmore more
    | climb hc => cases hc
  | comma _ _ iharg ihmore =>
    cases h' with
    | comma argument more =>
      obtain ⟨rfl, rfl⟩ := iharg argument
      exact ihmore more
  | negation _ ih =>
    cases h' with
    | negation operand =>
      obtain ⟨rfl, rfl⟩ := ih operand
      exact ⟨rfl, rfl⟩
    | unsigned hhead => exact absurd rfl hhead
    | climb _ hunary => exact absurd rfl hunary
  | unsigned hhead _ ih =>
    cases h' with
    | negation => exact absurd rfl hhead
    | unsigned _ operand => exact ih operand
    | climb _ hunary => exact absurd rfl hunary
  | climb hc hunary _ _ ihleft ihmore =>
    cases h' with
    | climb hc' _ left more =>
      cases hc.symm.trans hc'
      obtain ⟨rfl, rfl⟩ := ihleft left
      exact ihmore more
    | negation | unsigned => exact absurd rfl hunary
    | name | numeral | fragment | group | call => cases hc
  | apply hop hc _ _ ihright ihmore =>
    cases h' with
    | apply hop' hc' right more =>
      cases hc.symm.trans hc'
      obtain ⟨rfl, rfl⟩ := ihright right
      exact ihmore more
    | choose => cases hop
    | stop hstop => exact absurd (hstop _ rfl) (by rw [rank_operator hop]; exact Nat.lt_irrefl _)
  | choose _ _ ihyes ihno =>
    cases h' with
    | apply hop => cases hop
    | choose yes no =>
      obtain ⟨rfl, heq⟩ := ihyes yes
      obtain rfl := (List.cons.inj heq).2
      obtain ⟨rfl, rfl⟩ := ihno no
      exact ⟨rfl, rfl⟩
    | stop hstop => exact absurd (hstop _ rfl) (by decide)
  | stop hstop =>
    cases h' with
    | apply hop => exact absurd (hstop _ rfl) (by rw [rank_operator hop]; exact Nat.lt_irrefl _)
    | choose => exact absurd (hstop _ rfl) (by decide)
    | stop => exact ⟨rfl, rfl⟩

/-- A primary expression does not start with a sign. -/
theorem head_ne_minus (h : Reads (.want .primary) ts t rest) :
    ts.head? ≠ some (.mark '-') := by
  cases h with
  | name | numeral | fragment | group | call => nofun
  | climb hc => cases hc

/-- What follows the arguments of a call goes on with no expression. -/
theorem stops_of_arguments {f : String} {args : List Term}
    (h : Reads (.arguments f args) ts t rest) : Stops Category.choice.rank ts := by
  cases h with
  | close => exact fun t ht => by cases ht; decide
  | comma => exact fun t ht => by cases ht; decide

end Reads

/-! ## Derived tokens are read -/

/-- What stops an expression stops every tighter one. -/
theorem Stops.mono {j k : Nat} {rest : List Lexeme} (h : Stops k rest) (hle : j ≤ k) :
    Stops j rest :=
  fun t ht => Nat.lt_of_le_of_lt hle (h t ht)

/-- What a derivation promises a reader, whatever comes next. Layers of binary operators are derived
from the left and read with what was read so far at hand, so after an expression of such a layer a
reader may go on with more of the layer. -/
structure Readable (c : Category) (ts : List Lexeme) (t : Term) : Prop where
  /-- After some arguments of a call the reader may go on with more. -/
  header : c = .header → ∀ {f args rest u rest'}, t = .call f args →
    Reads (.arguments f args) rest u rest' → Reads (.want .primary) (ts ++ rest) u rest'
  /-- An expression is read if what follows does not go on with it. -/
  whole : c ≠ .header → ∀ {rest}, Stops c.rank rest → Reads (.want c) (ts ++ rest) t rest
  /-- After an expression of a layer the reader may go on with the layer. -/
  layer : c.operators ≠ [] → ∀ {c' rest u rest'}, c.tighter? = some c' → Stops c'.rank rest →
    Reads (.tail c t) rest u rest' → Reads (.want c) (ts ++ rest) u rest'

namespace Readable

variable {c c' : Category} {ts : List Lexeme} {t : Term}

/-- It is enough to read the expression as a whole where there are no operators to go on with. -/
theorem of_whole (hc : c ≠ .header) (hops : c.operators = [])
    (h : ∀ {rest}, Stops c.rank rest → Reads (.want c) (ts ++ rest) t rest) : Readable c ts t :=
  ⟨fun heq => absurd heq hc, fun _ => h, fun hne => absurd hops hne⟩

/-- A reader that may go on may also stop. -/
theorem of_layer (hc : c.tighter? = some c') (h : ∀ {rest u rest'}, Stops c'.rank rest →
      Reads (.tail c t) rest u rest' → Reads (.want c) (ts ++ rest) u rest') : Readable c ts t := by
  have hrank : c'.rank ≤ c.rank := by cases c <;> cases hc <;> decide
  refine ⟨fun heq => ?_, fun _ rest hstop => h (hstop.mono hrank) (.stop hstop),
    fun _ c'' rest u rest' hc' hstop hmore => ?_⟩
  · rw [heq] at hc
    cases hc
  · cases hc.symm.trans hc'
    exact h hstop hmore

end Readable

/-- **What is derived is read.** -/
theorem Derives.readable {c : Category} {ts : List Lexeme} {t : Term} (h : Derives c ts t) :
    Readable c ts t := by
  induction h with
  | name text => exact .of_whole nofun rfl fun hstop => .name hstop
  | numeral text => exact .of_whole nofun rfl fun _ => .numeral text _
  | fragment source => exact .of_whole nofun rfl fun _ => .fragment source _
  | group _ ih =>
    refine .of_whole nofun rfl fun {rest} _ => ?_
    rw [List.cons_append, List.append_assoc]
    exact .group (ih.whole nofun fun x hx => by cases hx; decide)
  | first f _ ih =>
    refine ⟨fun _ f' args rest u rest' heq hmore => ?_, fun hne => absurd rfl hne, nofun⟩
    cases heq
    exact .call (ih.whole nofun hmore.stops_of_arguments) hmore
  | @next f args ts us u _ _ ihheader ih =>
    refine ⟨fun _ f' args' rest v rest' heq hmore => ?_, fun hne => absurd rfl hne, nofun⟩
    cases heq
    rw [List.append_assoc, List.cons_append]
    exact ihheader.header rfl rfl (.comma (ih.whole nofun hmore.stops_of_arguments) hmore)
  | @call ts t header ih =>
    obtain ⟨f, args, rfl⟩ : ∃ f args, t = .call f args := by
      cases header with
      | first f => exact ⟨f, _, rfl⟩
      | next => exact ⟨_, _, rfl⟩
      | lift hc => cases hc
      | binary hop => cases hop
    refine .of_whole nofun rfl fun {rest} _ => ?_
    rw [List.append_assoc]
    exact ih.header rfl rfl (.close f args rest)
  | negation _ ih =>
    exact .of_whole nofun rfl fun hstop => .negation (ih.whole nofun hstop)
  | @binary c c' op ts us t u hop hc _ _ ihleft ihright =>
    have hne : c' ≠ .header := by cases c <;> cases hc <;> nofun
    refine .of_layer hc fun {rest v rest'} hstop hmore => ?_
    rw [List.append_assoc, List.cons_append]
    refine ihleft.layer (List.ne_nil_of_mem hop) hc (fun x hx => ?_)
      (.apply hop hc (ihright.whole hne hstop) hmore)
    -- The operator belongs to the layer, so nothing tighter goes on with it.
    cases hx
    rw [rank_operator hop]
    cases c <;> cases hc <;> decide
  | choice _ _ _ ihtest ihyes ihno =>
    refine .of_whole nofun rfl fun {rest} hstop => ?_
    rw [List.append_assoc, List.cons_append, List.append_assoc, List.cons_append]
    exact .climb rfl nofun (ihtest.whole nofun fun x hx => by cases hx; decide)
      (.choose (ihyes.whole nofun fun x hx => by cases hx; decide) (ihno.whole nofun hstop))
  | @lift c c' ts t hc _ ih =>
    have hne : c' ≠ .header := by cases c <;> cases hc <;> nofun
    by_cases hunary : c = .unary
    · subst hunary
      cases hc
      refine .of_whole nofun rfl fun hstop => ?_
      have hread := ih.whole nofun (hstop.mono (by decide))
      exact .unsigned hread.head_ne_minus hread
    · exact .of_layer hc fun hstop hmore => .climb hc hunary (ih.whole hne hstop) hmore

/-- **Tokens have at most one tree.** -/
theorem Derives.unique {ts : List Lexeme} {t u : Term} (h : Derives .choice ts t)
    (h' : Derives .choice ts u) : t = u := by
  have hread {t : Term} (h : Derives .choice ts t) : Reads (.want .choice) (ts ++ []) t [] :=
    h.readable.whole nofun nofun
  exact ((hread h).unique (hread h')).1

end FieldShader
