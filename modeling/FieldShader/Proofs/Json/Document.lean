import FieldShader.Json.Value
import FieldShader.Proofs.Number.ReadBack

/-!
# Reading back what was written

What a reader sees of a written document. `Document.tokens` are its tokens, blanks and layout
forgotten (`Token.ofSymbols_prettyChars`), and `Document.value` is the value that they stand for. A
number that is not finite is written as `null` and read as that; every other leaf is read as it was
written.

Reading needs room: a document that is nested no deeper than there is room for is read to its end,
and any other is refused for its depth (`JsonValue.read_tokens`). Both are shown by induction over
the document, an array or an object being read element by element.
-/

namespace FieldShader

namespace Document

/-- Induction over a document. At an array or an object the statement may be assumed of everything
in it. -/
@[elab_as_elim]
theorem recTree {motive : Document → Prop} (number : ∀ x, motive (.number x))
    (text : ∀ s, motive (.text s))
    (list : ∀ items, (∀ d ∈ items, motive d) → motive (.list items))
    (object : ∀ members, (∀ m ∈ members, motive m.2) → motive (.object members))
    (d : Document) : motive d := by
  refine @Document.rec motive (fun ds => ∀ d ∈ ds, motive d) (fun ms => ∀ m ∈ ms, motive m.2)
    (fun m => motive m.2) number text list object nofun (fun d ds hd hds e he => ?_) nofun
    (fun m ms hm hms e he => ?_) (fun k d hd => hd) d
  · rcases List.mem_cons.1 he with rfl | he
    · exact hd
    · exact hds e he
  · rcases List.mem_cons.1 he with rfl | he
    · exact hm
    · exact hms e he

/-! ## Tokens -/

/-- The token of a number. -/
def numberToken (x : Single) : Token :=
  match x.value with
  | .finite negative m => .number (Single.jsonText negative m).numeral.value
  | _ => .null

mutual

/-- The tokens of a document. -/
def tokens : Document → List Token
  | .number x => [numberToken x]
  | .text s => [.text (.ok s)]
  | .list items => .openList :: (itemTokens items ++ [.closeList])
  | .object members => .openObject :: (memberTokens members ++ [.closeObject])

/-- The tokens of the elements of an array. -/
def itemTokens : List Document → List Token
  | [] => []
  | [d] => d.tokens
  | d :: ds => d.tokens ++ .comma :: itemTokens ds

/-- The tokens of the members of an object. -/
def memberTokens : List (String × Document) → List Token
  | [] => []
  | [(k, d)] => .text (.ok k) :: .colon :: d.tokens
  | (k, d) :: rest => .text (.ok k) :: .colon :: (d.tokens ++ .comma :: memberTokens rest)

end

end Document

namespace Token

variable {rest : List Symbol}

/-- A character that is no part of a number stops it. -/
theorem stops_cons {c : Char} (h : c.isDigit = false ∧ c ≠ '.' ∧ c ≠ 'e' ∧ c ≠ 'E') :
    Stops (.char c :: rest) := by
  rintro d rest' ⟨⟩
  exact h

/-- The end of a text stops a number. -/
theorem stops_nil : Stops [] := nofun

/-- So does the end of a line. -/
theorem stops_newline (depth : Nat) (rest : List Symbol) :
    Stops ((Document.newline depth).map .char ++ rest) :=
  stops_cons (by decide)

/-- The start of a line is blank. -/
theorem ofSymbols_newline (depth : Nat) (rest : List Symbol) :
    ofSymbols ((Document.newline depth).map .char ++ rest) = ofSymbols rest := by
  have hblanks (n : Nat) : ofSymbols ((List.replicate n ' ').map .char ++ rest) = ofSymbols rest := by
    induction n with
    | zero => rfl
    | succ n ih =>
      rw [List.replicate_succ, List.map_cons, List.cons_append, ofSymbols_space (by decide), ih]
  rw [Document.newline, List.map_cons, List.cons_append, ofSymbols_space (by decide), hblanks]

/-- A number is one token. -/
theorem ofSymbols_numberChars (x : Single) (h : Stops rest) :
    ofSymbols ((Document.numberChars x).map .char ++ rest) =
      Document.numberToken x :: ofSymbols rest := by
  unfold Document.numberChars Document.numberToken Single.json?
  cases x.value with
  | nan => exact ofSymbols_null rest
  | infinite negative => exact ofSymbols_null rest
  | finite negative m =>
    dsimp only
    rw [Option.getD_some, String.toList_ofList, NumberStyle.write_eq_chars]
    exact ofSymbols_numberText (NumberStyle.wellFormed_text _ _ (BinaryFormat.plain_shortest _ _ _)) h

/-- A key and its colon are two tokens, whatever the value is. -/
theorem ofSymbols_key (k : String) (s : List Char) :
    ofSymbols ((Document.textChars k ++ ':' :: ' ' :: s).map .char ++ rest) =
      .text (.ok k) :: .colon :: ofSymbols (s.map .char ++ rest) := by
  rw [List.map_append, List.append_assoc, ofSymbols_textChars, List.map_cons, List.map_cons,
    List.cons_append, List.cons_append, ofSymbols_colon, ofSymbols_space (by decide)]

/-- The elements of an array are cut one after the other. -/
theorem ofSymbols_prettyItems (depth : Nat) {ds : List Document}
    (hds : ∀ d ∈ ds, ∀ rest, Stops rest →
      ofSymbols ((d.prettyChars depth).map .char ++ rest) = d.tokens ++ ofSymbols rest)
    (h : Stops rest) : ofSymbols ((Document.prettyItems depth ds).map .char ++ rest) =
      Document.itemTokens ds ++ ofSymbols rest := by
  induction ds with
  | nil => rfl
  | cons d ds ih =>
    have hd := hds d List.mem_cons_self
    have hrest := ih fun e he => hds e (List.mem_cons_of_mem _ he)
    cases ds with
    | nil =>
      rw [Document.prettyItems, Document.itemTokens, List.map_append, List.append_assoc,
        ofSymbols_newline, hd _ h]
    | cons e es =>
      rw [Document.prettyItems, Document.itemTokens, List.append_assoc, List.map_append,
        List.append_assoc, ofSymbols_newline, List.map_append, List.append_assoc, List.map_cons,
        List.cons_append, hd _ (stops_cons (by decide)), ofSymbols_comma, hrest,
        List.append_assoc, List.cons_append]
      all_goals nofun

/-- The members of an object are cut one after the other. -/
theorem ofSymbols_prettyMembers (depth : Nat) {ms : List (String × Document)}
    (hms : ∀ m ∈ ms, ∀ rest, Stops rest →
      ofSymbols ((m.2.prettyChars depth).map .char ++ rest) = m.2.tokens ++ ofSymbols rest)
    (h : Stops rest) : ofSymbols ((Document.prettyMembers depth ms).map .char ++ rest) =
      Document.memberTokens ms ++ ofSymbols rest := by
  induction ms with
  | nil => rfl
  | cons m ms ih =>
    have hm := hms m List.mem_cons_self
    have hrest := ih fun n hn => hms n (List.mem_cons_of_mem _ hn)
    obtain ⟨k, d⟩ := m
    cases ms with
    | nil =>
      rw [Document.prettyMembers, Document.memberTokens, List.append_assoc, List.map_append,
        List.append_assoc, ofSymbols_newline, ofSymbols_key, hm _ h]
      rfl
    | cons n ns =>
      rw [Document.prettyMembers, Document.memberTokens, List.append_assoc, List.map_append,
        List.append_assoc, ofSymbols_newline, ofSymbols_key, List.map_append, List.append_assoc,
        List.map_cons, List.cons_append, hm _ (stops_cons (by decide)), ofSymbols_comma, hrest]
      · simp
      all_goals nofun

/-- **A written document is cut into its tokens**, at any depth and whatever comes after it, as long
as that does not go on with a number. -/
theorem ofSymbols_prettyChars (d : Document) (depth : Nat) (h : Stops rest) :
    ofSymbols ((d.prettyChars depth).map .char ++ rest) = d.tokens ++ ofSymbols rest := by
  induction d using Document.recTree generalizing depth rest with
  | number x => exact ofSymbols_numberChars x h
  | text s => exact ofSymbols_textChars s rest
  | list items ih =>
    cases items with
    | nil => simp [Document.prettyChars, Document.tokens, Document.itemTokens]
    | cons d ds =>
      have hitems := ofSymbols_prettyItems (depth + 1) (fun e he rest hrest => ih e he _ hrest)
        (stops_newline depth (.char ']' :: rest))
      rw [Document.prettyChars, Document.tokens]
      simp [hitems, ofSymbols_newline]
  | object members ih =>
    cases members with
    | nil => simp [Document.prettyChars, Document.tokens, Document.memberTokens]
    | cons m ms =>
      have hmembers := ofSymbols_prettyMembers (depth + 1)
        (fun e he rest hrest => ih e he _ hrest) (stops_newline depth (.char '\x7d' :: rest))
      rw [Document.prettyChars, Document.tokens]
      simp [hmembers, ofSymbols_newline]

/-- So is its text. -/
theorem ofSymbols_pretty (d : Document) : ofSymbols (Symbol.ofString d.pretty) = d.tokens := by
  have h := ofSymbols_prettyChars d 0 stops_nil
  rw [List.append_nil, ofSymbols_nil, List.append_nil] at h
  rw [Symbol.ofString, Document.pretty, String.toList_ofList, h]

end Token

/-! ## Values -/

namespace Document

/-- The value of a number: a number, or the value `null` if it is not finite. -/
def numberValue (x : Single) : JsonValue :=
  match numberToken x with
  | .number (.ok n) => .number n
  | _ => .null

mutual

/-- The value that a document stands for. -/
def value : Document → JsonValue
  | .number x => numberValue x
  | .text s => .text s
  | .list items => .list (itemValues items)
  | .object members => .object (memberValues members)

/-- The values of the elements of an array. -/
def itemValues : List Document → List JsonValue
  | [] => []
  | d :: ds => d.value :: itemValues ds

/-- The values of the members of an object, under their keys. -/
def memberValues : List (String × Document) → List (String × JsonValue)
  | [] => []
  | (k, d) :: rest => (k, d.value) :: memberValues rest

end

mutual

/-- The number of arrays and objects inside each other. -/
def depth : Document → Nat
  | .number _ | .text _ => 0
  | .list items => itemDepth items + 1
  | .object members => memberDepth members + 1

/-- The depth of the deepest element of an array. -/
def itemDepth : List Document → Nat
  | [] => 0
  | d :: ds => max d.depth (itemDepth ds)

/-- The depth of the deepest member of an object. -/
def memberDepth : List (String × Document) → Nat
  | [] => 0
  | (_, d) :: rest => max d.depth (memberDepth rest)

end

/-! ## Tokens of several documents -/

/-- The elements of an array, each but the first after a comma. -/
theorem itemTokens_cons (d : Document) (ds : List Document) :
    itemTokens (d :: ds) = d.tokens ++ ds.flatMap fun e => .comma :: e.tokens := by
  induction ds generalizing d with
  | nil => rw [itemTokens, List.flatMap_nil, List.append_nil]
  | cons e es ih =>
    rw [itemTokens, ih, List.flatMap_cons, List.cons_append]
    nofun

/-- The members of an object, each but the first after a comma. -/
theorem memberTokens_cons (k : String) (d : Document) (ms : List (String × Document)) :
    memberTokens ((k, d) :: ms) = .text (.ok k) :: .colon :: (d.tokens ++
      ms.flatMap fun m => .comma :: .text (.ok m.1) :: .colon :: m.2.tokens) := by
  induction ms generalizing k d with
  | nil => rw [memberTokens, List.flatMap_nil, List.append_nil]
  | cons m ms ih =>
    obtain ⟨k', d'⟩ := m
    rw [memberTokens, ih, List.flatMap_cons]
    · rfl
    · nofun

/-- A document starts with a token that closes nothing and separates nothing. -/
theorem tokens_eq_cons (d : Document) : ∃ t ts, d.tokens = t :: ts ∧
    t ≠ .closeList ∧ t ≠ .comma := by
  cases d with
  | number x =>
    refine ⟨numberToken x, [], by rw [tokens], ?_⟩
    unfold numberToken
    split <;> exact ⟨nofun, nofun⟩
  | text s => exact ⟨.text (.ok s), [], by rw [tokens], nofun, nofun⟩
  | list items => exact ⟨.openList, _, by rw [tokens], nofun, nofun⟩
  | object members => exact ⟨.openObject, _, by rw [tokens], nofun, nofun⟩

/-- Every element has a token of its own. -/
theorem length_le_itemTokens (ds : List Document) : ds.length ≤ (itemTokens ds).length := by
  cases ds with
  | nil => exact Nat.zero_le _
  | cons d ds =>
    obtain ⟨t, ts, htokens, -⟩ := d.tokens_eq_cons
    have hrest : ds.length ≤ (ds.flatMap fun e => Token.comma :: e.tokens).length := by
      induction ds with
      | nil => exact Nat.zero_le _
      | cons e es ih =>
        rw [List.flatMap_cons, List.length_append, List.length_cons, List.length_cons]
        omega
    rw [itemTokens_cons, htokens, List.length_append, List.length_cons, List.length_cons]
    omega

/-- Every member has a token of its own. -/
theorem length_le_memberTokens (ms : List (String × Document)) :
    ms.length ≤ (memberTokens ms).length := by
  cases ms with
  | nil => exact Nat.zero_le _
  | cons m ms =>
    have hrest : ms.length ≤ (ms.flatMap fun m =>
        Token.comma :: .text (.ok m.1) :: .colon :: m.2.tokens).length := by
      induction ms with
      | nil => exact Nat.zero_le _
      | cons n ns ih =>
        rw [List.flatMap_cons, List.length_append, List.length_cons, List.length_cons]
        omega
    rw [memberTokens_cons, List.length_cons, List.length_cons, List.length_cons,
      List.length_append]
    omega

end Document

/-! ## Reading -/

namespace Reader

variable {α σ : Type} {item : Reader α} {rest : List Token}

/-- The first element of an array comes right after the bracket. -/
theorem nextElement_true {t : Token} (hclose : t ≠ .closeList) (hcomma : t ≠ .comma) :
    nextElement true (t :: rest) = .ok (true, t :: rest) := by
  cases t <;> first | rfl | exact absurd rfl ‹_›

/-- Every other one comes after a comma. -/
theorem nextElement_false {t : Token} (hclose : t ≠ .closeList) :
    nextElement false (.comma :: t :: rest) = .ok (true, t :: rest) := by
  cases t <;> first | rfl | exact absurd rfl ‹_›

end Reader

namespace JsonValue

open Document

variable {room fuel : Nat}

/-- A number is read as its value. -/
theorem read_numberToken (room : Nat) (x : Single) (rest : List Token) :
    read room (numberToken x :: rest) = .ok (numberValue x, rest) := by
  unfold numberValue numberToken
  cases hx : x.value with
  | nan => cases room <;> rfl
  | infinite negative => cases room <;> rfl
  | finite negative m =>
    obtain ⟨n, hn, -⟩ := Single.readBack hx
    dsimp only
    rw [hn]
    cases room <;> rfl

/-- What reading a document comes to: its value where there is room for it, and a fault where there
is not. -/
def Reads (room : Nat) (d : Document) : Prop :=
  ∀ rest, read room (d.tokens ++ rest) =
    if d.depth ≤ room then .ok (d.value, rest) else .error .tooDeep

/-- An element and those after it are read one after the other. -/
theorem elements_append {d : Document} {ds : List Document} (first : Bool) {tokens : List Token}
    (hnext : ∀ more, Reader.nextElement first (tokens ++ more) = .ok (true, d.tokens ++ more))
    (hd : Reads room d) {more rest : List Token}
    (hds : Reader.elements (read room) fuel false more =
      if itemDepth ds ≤ room then .ok (itemValues ds, rest) else .error .tooDeep) :
    Reader.elements (read room) (fuel + 1) first (tokens ++ more) =
      if itemDepth (d :: ds) ≤ room then .ok (itemValues (d :: ds), rest)
      else .error .tooDeep := by
  have hdepth : itemDepth (d :: ds) ≤ room ↔ d.depth ≤ room ∧ itemDepth ds ≤ room := by
    rw [itemDepth, Nat.max_le]
  rw [Reader.elements, hnext]
  simp only [bind, Except.bind, hd more]
  by_cases hroom : d.depth ≤ room
  · rw [if_pos hroom]
    dsimp only
    rw [hds]
    by_cases hrest : itemDepth ds ≤ room
    · rw [if_pos hrest, if_pos (hdepth.2 ⟨hroom, hrest⟩)]
      rfl
    · rw [if_neg hrest, if_neg fun h => hrest (hdepth.1 h).2]
  · rw [if_neg hroom, if_neg fun h => hroom (hdepth.1 h).1]

/-- The elements of an array after the first are read one after the other. -/
theorem elements_flatMap {ds : List Document} (hds : ∀ d ∈ ds, Reads room d)
    (hfuel : ds.length < fuel) (rest : List Token) :
    Reader.elements (read room) fuel false
        ((ds.flatMap fun e => .comma :: e.tokens) ++ .closeList :: rest) =
      if itemDepth ds ≤ room then .ok (itemValues ds, .closeList :: rest)
      else .error .tooDeep := by
  induction ds generalizing fuel with
  | nil =>
    obtain ⟨fuel, rfl⟩ := Nat.exists_eq_succ_of_ne_zero (Nat.ne_of_gt hfuel)
    rfl
  | cons d ds ih =>
    obtain ⟨fuel, rfl⟩ := Nat.exists_eq_succ_of_ne_zero (Nat.ne_of_gt (Nat.zero_lt_of_lt hfuel))
    obtain ⟨t, ts, htokens, hclose, -⟩ := d.tokens_eq_cons
    rw [List.flatMap_cons, List.append_assoc]
    refine elements_append false (fun more => ?_) (hds d List.mem_cons_self)
      (ih (fun e he => hds e (List.mem_cons_of_mem _ he)) (Nat.lt_of_succ_lt_succ hfuel))
    rw [htokens]
    exact Reader.nextElement_false hclose

/-- So are all elements. -/
theorem elements_itemTokens {ds : List Document} (hds : ∀ d ∈ ds, Reads room d)
    (hfuel : ds.length < fuel) (rest : List Token) :
    Reader.elements (read room) fuel true (itemTokens ds ++ .closeList :: rest) =
      if itemDepth ds ≤ room then .ok (itemValues ds, .closeList :: rest)
      else .error .tooDeep := by
  obtain ⟨fuel, rfl⟩ := Nat.exists_eq_succ_of_ne_zero (Nat.ne_of_gt (Nat.zero_lt_of_lt hfuel))
  cases ds with
  | nil => rfl
  | cons d ds =>
    obtain ⟨t, ts, htokens, hclose, hcomma⟩ := d.tokens_eq_cons
    rw [itemTokens_cons, List.append_assoc]
    refine elements_append true (fun more => ?_) (hds d List.mem_cons_self)
      (elements_flatMap (fun e he => hds e (List.mem_cons_of_mem _ he))
        (Nat.lt_of_succ_lt_succ hfuel) rest)
    rw [htokens]
    exact Reader.nextElement_true hclose hcomma

section
variable {σ : Type} {member : σ → String → Reader σ} {step : σ → String × Document → σ}

/-- A reader of members takes on the members of the list one by one, as `step` says, as long as
there is room. -/
def TakesOn (room : Nat) (member : σ → String → Reader σ) (step : σ → String × Document → σ)
    (ms : List (String × Document)) : Prop :=
  ∀ m ∈ ms, ∀ state rest, member state m.1 (.colon :: (m.2.tokens ++ rest)) =
    if m.2.depth ≤ room then .ok (step state m, rest) else .error .tooDeep

/-- A member and those after it are read one after the other. -/
theorem members_append {m : String × Document} {ms : List (String × Document)} (first : Bool)
    {tokens more rest : List Token} (state : σ)
    (hnext : Reader.nextMember first tokens = .ok (some m.1, .colon :: (m.2.tokens ++ more)))
    (hm : TakesOn room member step (m :: ms))
    (hms : Reader.members member fuel false (step state m) more =
      if memberDepth ms ≤ room then .ok (ms.foldl step (step state m), rest)
      else .error .tooDeep) :
    Reader.members member (fuel + 1) first state tokens =
      if memberDepth (m :: ms) ≤ room then .ok ((m :: ms).foldl step state, rest)
      else .error .tooDeep := by
  have hdepth : memberDepth (m :: ms) ≤ room ↔ m.2.depth ≤ room ∧ memberDepth ms ≤ room := by
    rw [memberDepth, Nat.max_le]
  rw [Reader.members, hnext]
  simp only [bind, Except.bind, hm m List.mem_cons_self state more]
  by_cases hroom : m.2.depth ≤ room
  · rw [if_pos hroom]
    dsimp only
    rw [hms]
    by_cases hrest : memberDepth ms ≤ room
    · rw [if_pos hrest, if_pos (hdepth.2 ⟨hroom, hrest⟩), List.foldl_cons]
    · rw [if_neg hrest, if_neg fun h => hrest (hdepth.1 h).2]
  · rw [if_neg hroom, if_neg fun h => hroom (hdepth.1 h).1]

/-- The members of an object after the first are read one after the other. -/
theorem members_flatMap {ms : List (String × Document)} (hms : TakesOn room member step ms)
    (hfuel : ms.length < fuel) (state : σ) (rest : List Token) :
    Reader.members member fuel false state
        ((ms.flatMap fun m => .comma :: .text (.ok m.1) :: .colon :: m.2.tokens) ++
          .closeObject :: rest) =
      if memberDepth ms ≤ room then .ok (ms.foldl step state, .closeObject :: rest)
      else .error .tooDeep := by
  induction ms generalizing fuel state with
  | nil =>
    obtain ⟨fuel, rfl⟩ := Nat.exists_eq_succ_of_ne_zero (Nat.ne_of_gt hfuel)
    rfl
  | cons m ms ih =>
    obtain ⟨fuel, rfl⟩ := Nat.exists_eq_succ_of_ne_zero (Nat.ne_of_gt (Nat.zero_lt_of_lt hfuel))
    rw [List.flatMap_cons, List.append_assoc]
    exact members_append false state rfl hms (ih (fun n hn => hms n (List.mem_cons_of_mem _ hn))
      (Nat.lt_of_succ_lt_succ hfuel) (step state m))

/-- So are all members. -/
theorem members_memberTokens {ms : List (String × Document)} (hms : TakesOn room member step ms)
    (hfuel : ms.length < fuel) (state : σ) (rest : List Token) :
    Reader.members member fuel true state (memberTokens ms ++ .closeObject :: rest) =
      if memberDepth ms ≤ room then .ok (ms.foldl step state, .closeObject :: rest)
      else .error .tooDeep := by
  obtain ⟨fuel, rfl⟩ := Nat.exists_eq_succ_of_ne_zero (Nat.ne_of_gt (Nat.zero_lt_of_lt hfuel))
  cases ms with
  | nil => rfl
  | cons m ms =>
    have hrest := members_flatMap (fun n hn => hms n (List.mem_cons_of_mem _ hn))
      (Nat.lt_of_succ_lt_succ hfuel) (step state m) rest
    rw [memberTokens_cons, List.cons_append, List.cons_append, List.append_assoc]
    exact members_append true state rfl hms hrest

end

/-- Keeps a member in front of those before it. -/
def keep (room : Nat) (kept : List (String × JsonValue)) (k : String) :
    Reader (List (String × JsonValue)) := fun tokens => do
  let ((), tokens) ← Reader.colon tokens
  let (v, tokens) ← read room tokens
  return ((k, v) :: kept, tokens)

/-- How an object is read. -/
theorem read_openObject (room : Nat) (rest : List Token) :
    read (room + 1) (.openObject :: rest) = do
      let (kept, rest) ← Reader.members (keep room) (rest.length + 1) true [] rest
      let ((), rest) ← Reader.closeObject rest
      return (.object kept.reverse, rest) := by
  rw [read]
  rfl

/-- Members that can be read are kept. -/
theorem takesOn_keep {room : Nat} {ms : List (String × Document)}
    (hms : ∀ m ∈ ms, Reads room m.2) :
    TakesOn room (keep room) (fun kept m => (m.1, m.2.value) :: kept) ms := by
  intro m hm state rest
  simp only [keep, Reader.colon, bind, Except.bind, hms m hm rest]
  by_cases h : m.2.depth ≤ room
  · rw [if_pos h, if_pos h]
    rfl
  · rw [if_neg h, if_neg h]

/-- The kept members are the values in reverse. -/
theorem foldl_keep (ms : List (String × Document)) (kept : List (String × JsonValue)) :
    ms.foldl (fun kept m => (m.1, m.2.value) :: kept) kept =
      (memberValues ms).reverse ++ kept := by
  induction ms generalizing kept with
  | nil => rfl
  | cons m ms ih =>
    rw [List.foldl_cons, ih, memberValues, List.reverse_cons, List.append_assoc]
    rfl

/-- **A document is read back as its value** if there is room for it, and refused for its depth
otherwise. -/
theorem read_tokens (room : Nat) (d : Document) : Reads room d := by
  induction d using Document.recTree generalizing room with
  | number x =>
    intro rest
    rw [tokens, List.singleton_append, read_numberToken, depth, if_pos (Nat.zero_le _), value]
  | text s =>
    intro rest
    rw [tokens, depth, if_pos (Nat.zero_le _), value]
    cases room <;> rfl
  | list items ih =>
    intro rest
    rw [tokens, List.cons_append, List.append_assoc, List.singleton_append, depth, value]
    cases room with
    | zero => rfl
    | succ room =>
      have hfuel : items.length < (itemTokens items ++ .closeList :: rest).length + 1 := by
        have hle := length_le_itemTokens items
        rw [List.length_append]
        omega
      rw [read, elements_itemTokens (fun d hd => ih d hd room) hfuel]
      by_cases h : itemDepth items ≤ room
      · rw [if_pos h, if_pos (Nat.succ_le_succ h)]
        rfl
      · rw [if_neg h, if_neg fun hle => h (Nat.le_of_succ_le_succ hle)]
        rfl
  | object members ih =>
    intro rest
    rw [tokens, List.cons_append, List.append_assoc, List.singleton_append, depth, value]
    cases room with
    | zero => rfl
    | succ room =>
      have hfuel : members.length < (memberTokens members ++ .closeObject :: rest).length + 1 := by
        have hle := length_le_memberTokens members
        rw [List.length_append]
        omega
      rw [read_openObject, members_memberTokens (takesOn_keep fun m hm => ih m hm room) hfuel]
      by_cases h : memberDepth members ≤ room
      · rw [if_pos h, if_pos (Nat.succ_le_succ h), foldl_keep, List.append_nil]
        simp only [bind, Except.bind, Reader.closeObject, List.reverse_reverse]
        rfl
      · rw [if_neg h, if_neg fun hle => h (Nat.le_of_succ_le_succ hle)]
        rfl

end JsonValue

end FieldShader
