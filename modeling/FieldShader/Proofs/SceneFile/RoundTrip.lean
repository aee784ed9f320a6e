import FieldShader.Proofs.SceneFile.Values

/-!
# Scene files are read back

A scene file that was written is read back as it was, if all its numbers are finite and it is not
nested too deeply for the reader; otherwise what was written is refused, and never taken for another
file (`SceneFile.answers_ofString`). Nothing more is asked of the file: it may have any version and
name, any number of children, materials or none, and any fragments, which the writer escapes.

A number that is not finite is written as `null`, which no number is read from. A nested array or
object counts against the room whether or not it had to be written: a ground without a normal is
written with the normal that it stands for.
-/

namespace FieldShader

namespace Reader

/-- A member is read, and then those after it. -/
theorem members_succ {σ : Type} {member : σ → String → Reader σ} {fuel : Nat} {first : Bool}
    {state : σ} {k : String} {tokens rest : List Token}
    (h : nextMember first tokens = .ok (some k, rest)) :
    members member (fuel + 1) first state tokens =
      member state k rest >>= fun x => members member fuel false x.1 x.2 := by
  rw [members, h]
  rfl

end Reader

namespace Description

open Document

/-- Takes on a member of the outermost description: the type is looked at, anything else is kept. -/
def takeOn (room : Nat) (state : Option Form × List (String × JsonValue)) (k : String) :
    Reader (Option Form × List (String × JsonValue)) := fun tokens =>
  if k = "type" then
    if state.1.isSome then .error (.duplicateField "type")
    else do
      let ((), tokens) ← Reader.colon tokens
      let (form, tokens) ← readForm tokens
      return ((some form, state.2), tokens)
  else do
    let ((), tokens) ← Reader.colon tokens
    let (v, tokens) ← JsonValue.read room tokens
    return ((state.1, (k, v) :: state.2), tokens)

/-- The outermost description, once its members are gone through. -/
def finishWith : Option Form × List (String × JsonValue) → Reader Description
  | (none, _), _ => .error (.missingField "type")
  | (some form, kept), tokens => do
    let ((), rest) ← Reader.closeObject tokens
    return (← assemble form {} kept.reverse, rest)

/-- How the outermost description is read. -/
theorem read_openObject (room : Nat) (rest : List Token) :
    read (room + 1) (.openObject :: rest) =
      Reader.members (takeOn room) (rest.length + 1) true (none, []) rest >>= fun x =>
        finishWith x.1 x.2 := by
  rw [read]
  refine bind_congr fun x => ?_
  obtain ⟨⟨form?, kept⟩, tokens⟩ := x
  cases form? with
  | none => rfl
  | some form => simp only [finishWith, assemble, bind_assoc]

/-- The fields are kept. -/
theorem takesOn_takeOn (room : Nat) (d : Description) :
    JsonValue.TakesOn room (takeOn room) (fun state m => (state.1, (m.1, m.2.value) :: state.2))
      d.fields := by
  intro m hm state rest
  simp only [takeOn, if_neg (d.fields_ne_type m hm), Reader.colon, bind, Except.bind,
    JsonValue.read_tokens room m.2 rest]
  by_cases h : m.2.depth ≤ room
  · rw [if_pos h, if_pos h]
    rfl
  · rw [if_neg h, if_neg h]

/-- The kept fields are their values in reverse. -/
theorem foldl_takeOn (ms : List (String × Document)) (form? : Option Form)
    (kept : List (String × JsonValue)) :
    ms.foldl (fun state m => (state.1, (m.1, m.2.value) :: state.2)) (form?, kept) =
      (form?, (memberValues ms).reverse ++ kept) := by
  induction ms generalizing kept with
  | nil => rfl
  | cons m ms ih =>
    rw [List.foldl_cons, ih, memberValues, List.reverse_cons, List.append_assoc]
    rfl

/-- The members of the outermost description are gone through if there is room for them. -/
theorem members_tokens (d : Description) (room : Nat) (rest : List Token) {fuel : Nat}
    (hfuel : d.fields.length + 1 < fuel) :
    Reader.members (takeOn room) fuel true (none, [])
        (memberTokens (("type", .text d.form.name) :: d.fields) ++ .closeObject :: rest) =
      if memberDepth d.fields ≤ room then
        .ok ((some d.form, (memberValues d.fields).reverse), .closeObject :: rest)
      else .error .tooDeep := by
  obtain ⟨fuel, rfl⟩ := Nat.exists_eq_succ_of_ne_zero (Nat.ne_of_gt (Nat.zero_lt_of_lt hfuel))
  have hfields := JsonValue.members_flatMap (takesOn_takeOn room d) (Nat.lt_of_succ_lt_succ hfuel)
    (some d.form, []) rest
  rw [foldl_takeOn, List.append_nil] at hfields
  rw [memberTokens_cons, tokens, List.cons_append, List.cons_append, List.append_assoc,
    Reader.members_succ rfl, ← hfields]
  simp only [takeOn, Reader.colon, readForm, Reader.identifier, choose_name, bind, Except.bind,
    pure, Except.pure, List.singleton_append]
  rfl

/-- The outermost description is read like the ones inside it, if there is room for it. -/
theorem answers_read (d : Description) (room : Nat) (rest : List Token) :
    Answers (read room (d.document.tokens ++ rest))
      (d.document.depth ≤ room ∧ AllFinite d.numbers) (d, rest) := by
  rw [document_eq, tokens, depth, memberDepth, depth, Nat.zero_max, List.cons_append,
    List.append_assoc, List.singleton_append]
  cases room with
  | zero => exact ⟨fun h => absurd h.1 (Nat.not_succ_le_zero _), fun _ => ⟨_, rfl⟩⟩
  | succ room =>
    have hlen := length_le_memberTokens (("type", .text d.form.name) :: d.fields)
    have hfuel : d.fields.length + 1 < (memberTokens (("type", .text d.form.name) :: d.fields) ++
        .closeObject :: rest).length + 1 := by
      rw [List.length_append]
      rw [List.length_cons] at hlen
      omega
    rw [read_openObject, members_tokens d room rest hfuel]
    by_cases hroom : memberDepth d.fields ≤ room
    · have hassemble : Answers (finishWith (some d.form, (memberValues d.fields).reverse)
          (.closeObject :: rest)) (AllFinite d.numbers) (d, rest) := by
        simp only [finishWith, Reader.closeObject, bind, Except.bind, List.reverse_reverse]
        exact d.answers_assemble.map (f := fun d => (d, rest))
      rw [if_pos hroom]
      exact hassemble.congr (iff_and_self.2 fun _ => Nat.succ_le_succ hroom)
    · rw [if_neg hroom]
      exact ⟨fun h => absurd (Nat.le_of_succ_le_succ h.1) hroom, fun _ => ⟨_, rfl⟩⟩

end Description

namespace SceneFile

open Document

/-- The numbers of a scene file. -/
def numbers (f : SceneFile) : List Single := f.root.numbers

variable {draft : Draft}

/-- The last member of a scene file is its description. -/
theorem answers_root (d : Description) (room fuel : Nat) (rest : List Token)
    (hroot : draft.root = none) :
    Answers (Reader.members (Draft.member room) (fuel + 2) false draft
        (.comma :: .text (.ok "root") :: .colon :: (d.document.tokens ++ .closeObject :: rest)))
      (d.document.depth ≤ room ∧ AllFinite d.numbers)
      ({ draft with root := some d }, .closeObject :: rest) := by
  have hmember : draft.member room "root" (.colon :: (d.document.tokens ++ .closeObject :: rest)) =
      Description.read room (d.document.tokens ++ .closeObject :: rest) >>= fun x =>
        .ok ({ draft with root := some x.1 }, x.2) := by
    simp only [Draft.member, hroot]
    rfl
  have hend : Answers (Reader.members (Draft.member room) (fuel + 1) false
      { draft with root := some d } (.closeObject :: rest)) True
      ({ draft with root := some d }, .closeObject :: rest) := .of_ok _
  rw [Reader.members_succ rfl, hmember, bind_assoc]
  exact ((d.answers_read room _).bind hend).congr (iff_of_eq (and_true _))

/-- The members of a scene file are gone through in the order in which they are written. -/
theorem answers_members (f : SceneFile) (room : Nat) {fuel : Nat} (hfuel : 4 ≤ fuel)
    (rest : List Token) :
    Answers (Reader.members (Draft.member room) fuel true {}
        (memberTokens (("version", .text f.version) :: ((match f.name with
          | none => []
          | some name => [("name", .text name)]) ++ [("root", f.root.document)])) ++
          .closeObject :: rest))
      (f.root.document.depth ≤ room ∧ AllFinite f.numbers)
      (⟨some f.version, f.name.map some, some f.root⟩, .closeObject :: rest) := by
  obtain ⟨version, name, root⟩ := f
  obtain ⟨fuel, rfl⟩ := Nat.exists_eq_add_of_le' hfuel
  have hversion (more : List Token) : Draft.member room {} "version"
      (.colon :: .text (.ok version) :: more) = .ok ({ version := some version }, more) := by
    simp only [Draft.member]
    rfl
  rw [memberTokens_cons]
  cases name with
  | none =>
    simp only [tokens, List.nil_append, List.flatMap_cons, List.flatMap_nil, List.append_nil,
      List.cons_append]
    rw [Reader.members_succ rfl, hversion]
    exact answers_root root room (fuel + 1) rest rfl
  | some name =>
    have hname (more : List Token) : Draft.member room { version := some version } "name"
        (.colon :: .text (.ok name) :: more) =
          .ok ({ version := some version, name := some (some name) }, more) := by
      simp only [Draft.member]
      rfl
    simp only [tokens, List.nil_append, List.flatMap_cons, List.flatMap_nil, List.append_nil,
      List.cons_append]
    rw [Reader.members_succ rfl, hversion]
    dsimp only [bind, Except.bind]
    rw [Reader.members_succ rfl, hname]
    exact answers_root root room fuel rest rfl

/-- A scene file is written one level deeper than its description. -/
theorem depth_document (f : SceneFile) : f.document.depth = f.root.document.depth + 1 := by
  rw [document, depth]
  cases f.name <;> simp [memberDepth, depth]

/-- **Scene files are read back** from their tokens. -/
theorem answers_read (f : SceneFile) (room : Nat) (rest : List Token) :
    Answers (read room (f.document.tokens ++ rest))
      (f.document.depth ≤ room ∧ AllFinite f.numbers) (f, rest) := by
  rw [depth_document, document, tokens, List.cons_append, List.append_assoc, List.singleton_append]
  cases room with
  | zero => exact ⟨fun h => absurd h.1 (Nat.not_succ_le_zero _), fun _ => ⟨_, rfl⟩⟩
  | succ room =>
    have hfuel (ms : List (String × Document)) : 4 ≤ (memberTokens
        (("version", .text f.version) :: ms) ++ .closeObject :: rest).length + 1 := by
      rw [memberTokens_cons, tokens]
      simp only [List.length_append, List.length_cons]
      omega
    have hend : Answers (do
        let file ← Draft.finish ⟨some f.version, f.name.map some, some f.root⟩
        let ((), rest) ← Reader.closeObject (.closeObject :: rest)
        return (file, rest)) True (f, rest) := by
      obtain ⟨version, name, root⟩ := f
      cases name <;> exact .of_ok _
    rw [read]
    exact ((f.answers_members room (hfuel _) rest).bind hend).congr
      (by rw [and_true, Nat.succ_le_succ_iff])

/-- **A scene file is read back from its text** if all its numbers are finite and it is not nested
too deeply; otherwise the text is refused. -/
theorem answers_ofString (f : SceneFile) :
    Answers (ofString f.toString)
      (f.document.depth ≤ depthLimit ∧ AllFinite f.numbers) f := by
  have hread := f.answers_read depthLimit []
  rw [List.append_nil] at hread
  rw [ofString, ofSymbols, Reader.whole, toString, Token.ofSymbols_pretty]
  exact (hread.bind (.of_ok f)).congr (iff_of_eq (and_true _))

/-- **A scene file survives being written and read**: if all its numbers are finite and its document
has at most 127 arrays and objects inside each other, the file that is read is the one that was
written, bit for bit. -/
theorem ofString_toString (f : SceneFile) (hfinite : ∀ x ∈ f.numbers, x.isFinite = true)
    (hdepth : f.document.depth ≤ 127) : ofString f.toString = .ok f :=
  f.answers_ofString.ok ⟨hdepth, hfinite⟩

/-- A file with a name, minus zero, a fragment that looks like a number, a material that is given, one
that is not, and a ground with its normal. -/
def courtyard : SceneFile :=
  ⟨"0.1", some "court \"yard\"\n", .operator .union (.number .half)
    [.translate (.components (.number .one) (.raw "-1.5") (.number (.ofBits 0x80000000)))
      (.shape (.sphere (.number (.ofBits 1))) (some ⟨.raw "c"⟩)),
    .shape (.ground .up) none, .material (.raw "null")]⟩

/-- All of that survives. -/
theorem ofString_toString_courtyard :
    (∀ x ∈ courtyard.numbers, x.isFinite = true) ∧ courtyard.document.depth ≤ 127 ∧
      ofString courtyard.toString = .ok courtyard := by
  have hfinite : ∀ x ∈ courtyard.numbers, x.isFinite = true := by decide
  have hdepth : courtyard.document.depth ≤ 127 := by decide
  exact ⟨hfinite, hdepth, ofString_toString courtyard hfinite hdepth⟩

end SceneFile

end FieldShader
