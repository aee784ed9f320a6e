import FieldShader.Proofs.SceneFile.Depth
import FieldShader.Proofs.SceneFile.RoundTrip
import FieldShader.Proofs.Text.Utf8

/-!
# Scene files that were read

A scene file that was read from a text need not survive being written and read again.
`SceneFile.ofString_toString_iff` says exactly which ones do, and that the others are refused.

Two things make the difference. A numeral that is out of range is rounded to an infinity, which is
written as `null`; nothing that is read is rounded to not-a-number. And the normal of a ground is
written even if it was left out, so that a file may be written one level deeper than the reader has
room for, but no more than that (`Description.tames`).
-/

namespace FieldShader

variable {n : Nat}

namespace Description

/-! ## The outermost description -/

/-- Members that are taken on were read with the room that is left. -/
theorem gives_takeOn (room : Nat) {state : Option Form × List (String × JsonValue)}
    (h : ∀ m ∈ state.2, m.2.nesting ≤ room) (k : String) (tokens : List Token) :
    Gives (takeOn room state k tokens) fun x => ∀ m ∈ x.1.2, m.2.nesting ≤ room := by
  unfold takeOn
  split
  · split
    · exact .of_error _
    · refine (Gives.trivial _).bind fun colon _ => (Gives.trivial _).bind fun form _ => ?_
      exact .of_ok h
  · refine (Gives.trivial _).bind fun colon _ => (JsonValue.gives_read room _).bind fun v hv => ?_
    exact .of_ok (List.forall_mem_cons.2 ⟨hv, h⟩)

/-- Members that were kept are put together within the bound. -/
theorem gives_finishWith {state : Option Form × List (String × JsonValue)}
    (h : ∀ m ∈ state.2, m.2.nesting ≤ n) (tokens : List Token) :
    Gives (finishWith state tokens) fun x => Tame x.1.numbers x.1.document (n + 2) := by
  obtain ⟨form?, kept⟩ := state
  cases form? with
  | none => exact .of_error _
  | some form =>
    have hkept : ∀ m ∈ kept.reverse, m.2.nesting ≤ n := fun m hm => h m (List.mem_reverse.1 hm)
    refine (Gives.trivial _).bind fun close _ => ?_
    refine Gives.bind (p := fun d => Tame d.numbers d.document (n + 2)) ?_ fun d hd => .of_ok hd
    exact (gives_ofMembers form hkept (fun m _ => tames m.2) (Draft.tame_empty n)).bind
      fun draft hdraft => hdraft.gives_finish form

/-- Nothing but an array or an object is read. -/
theorem gives_read_cons (room : Nat) {t : Token} (rest : List Token) (hlist : t ≠ .openList)
    (hobject : t ≠ .openObject) (p : Description × List Token → Prop) :
    Gives (read room (t :: rest)) p := by
  cases t with
  | openList => exact absurd rfl hlist
  | openObject => exact absurd rfl hobject
  | null | bool b | number value | text content | closeList | closeObject | comma | colon
  | brokenText used skipped | broken used skipped => cases room <;> exact Reader.gives_refuse _ _

/-- **The outermost description is written at most one level deeper than there was room for.** -/
theorem gives_read (room : Nat) (tokens : List Token) :
    Gives (read room tokens) fun x => Tame x.1.numbers x.1.document (room + 1) := by
  cases tokens with
  | nil => cases room <;> exact .of_error _
  | cons t rest =>
    by_cases hlist : t = .openList
    · subst hlist
      cases room with
      | zero => exact .of_error _
      | succ room =>
        rw [read]
        refine (Gives.trivial _).bind fun next _ => ?_
        obtain ⟨more, rest⟩ := next
        cases more with
        | false => exact .of_error _
        | true =>
          refine (Gives.trivial _).bind fun form _ => ?_
          have hitem : ∀ tokens, Gives (JsonValue.read room tokens) fun x => x.1.nesting ≤ room :=
            JsonValue.gives_read room
          refine (Reader.gives_elements (p := fun v => v.nesting ≤ room) hitem _ false _).bind
            fun items hitems => ?_
          refine (Gives.trivial _).bind fun close _ => ?_
          refine (gives_ofItems form.1 0 _ hitems (fun v _ => tames v) (Draft.tame_empty room)).bind
            fun draft hdraft => ?_
          exact (hdraft.gives_finish form.1).bind fun d hd => .of_ok hd
    by_cases hobject : t = .openObject
    · subst hobject
      cases room with
      | zero => exact .of_error _
      | succ room =>
        rw [read_openObject]
        refine (Reader.gives_members (p := fun state => ∀ m ∈ state.2, m.2.nesting ≤ room)
          (fun state k tokens h => gives_takeOn room h k tokens) _ true
          (fun m hm => absurd hm List.not_mem_nil) rest).bind
            fun x hx => ?_
        exact gives_finishWith hx x.2
    exact gives_read_cons room rest hlist hobject _

end Description

namespace SceneFile

/-! ## Scene files -/

/-- What was met of a file stays within the bound. -/
theorem Draft.gives_member (room : Nat) {draft : Draft}
    (h : ∀ d ∈ draft.root, Tame d.numbers d.document (room + 1)) (k : String)
    (tokens : List Token) : Gives (draft.member room k tokens) fun x =>
      ∀ d ∈ x.1.root, Tame d.numbers d.document (room + 1) := by
  unfold member
  dsimp only
  split
  · split
    · exact .of_error _
    · exact (Gives.trivial _).bind fun colon _ => (Gives.trivial _).bind fun version _ => .of_ok h
  split
  · split
    · exact .of_error _
    · exact (Gives.trivial _).bind fun colon _ => (Gives.trivial _).bind fun name _ => .of_ok h
  split
  · split
    · exact .of_error _
    · refine (Gives.trivial _).bind fun colon _ => ?_
      refine (Description.gives_read room _).bind fun x hx => .of_ok ?_
      rintro _ ⟨⟩
      exact hx
  · exact (Gives.trivial _).bind fun colon _ => (Gives.trivial _).bind fun skipped _ => .of_ok h

/-- The description of a file is the one that was met. -/
theorem Draft.gives_finish {draft : Draft} (h : ∀ d ∈ draft.root, Tame d.numbers d.document n) :
    Gives draft.finish fun f => Tame f.numbers f.root.document n := by
  obtain ⟨version, name, root⟩ := draft
  cases version with
  | none => exact .of_error _
  | some version =>
    cases root with
    | none => exact .of_error _
    | some root => exact .of_ok (h root rfl)

/-- The fields of a file in an array. -/
theorem gives_readItems (room : Nat) (tokens : List Token) :
    Gives (readItems room tokens) fun x => Tame x.1.numbers x.1.root.document (room + 1) := by
  unfold readItems
  dsimp only
  refine (Gives.trivial _).bind fun next _ => ?_
  split
  · refine (Gives.trivial _).bind fun version _ => (Gives.trivial _).bind fun next _ => ?_
    split
    · refine (Gives.trivial _).bind fun name _ => (Gives.trivial _).bind fun next _ => ?_
      split
      · refine (Description.gives_read room _).bind fun root hroot => ?_
        exact (Gives.trivial _).bind fun close _ => .of_ok hroot
      · exact .of_error _
    · exact .of_error _
  · exact .of_error _

/-- **A file is written at most one level deeper than there was room for.** -/
theorem gives_read (room : Nat) (tokens : List Token) :
    Gives (read room tokens) fun x => Tame x.1.numbers x.1.document (room + 1) := by
  have hwhole {room : Nat} {f : SceneFile} (h : Tame f.numbers f.root.document (room + 1)) :
      Tame f.numbers f.document (room + 2) := by
    refine ⟨h.ne_nan, ?_⟩
    rw [depth_document]
    exact Nat.succ_le_succ h.depth_le
  cases tokens with
  | nil => cases room <;> exact .of_error _
  | cons t rest =>
    cases t with
    | openList =>
      cases room with
      | zero => exact .of_error _
      | succ room => exact (gives_readItems room rest).mono fun x hx => hwhole hx
    | openObject =>
      cases room with
      | zero => exact .of_error _
      | succ room =>
        rw [read]
        refine (Reader.gives_members
          (p := fun draft => ∀ d ∈ draft.root, Tame d.numbers d.document (room + 1))
          (fun draft k tokens h => Draft.gives_member room h k tokens) _ true
          (fun d hd => absurd hd (Option.not_mem_none d)) rest).bind
            fun draft hdraft => ?_
        refine (Draft.gives_finish hdraft).bind fun f hf => ?_
        exact (Gives.trivial _).bind fun close _ => .of_ok (hwhole hf)
    | null | bool b | number value | text content | closeList | closeObject | comma | colon
    | brokenText used skipped | broken used skipped => cases room <;> exact Reader.gives_refuse _ _

/-- So is a file of which nothing else follows. -/
theorem gives_ofSymbols (s : List Symbol) :
    Gives (ofSymbols s) fun f => Tame f.numbers f.document (depthLimit + 1) := by
  refine (gives_read depthLimit _).bind fun x hx => ?_
  obtain ⟨f, rest⟩ := x
  cases rest with
  | nil => exact .of_ok hx
  | cons t rest => exact .of_error _

/-- The bytes of a text are read like the text. -/
theorem ofBytes_toUTF8 (s : String) : ofBytes s.toUTF8.data.toList = ofString s := by
  rw [ofBytes, ofString, Symbol.decode_toUTF8]

/-- A result that passes a test is there. -/
theorem exists_of_any {α : Type} {r : Except Fault α} {p : α → Bool}
    (h : r.toOption.any p = true) : ∃ x, r = .ok x ∧ p x = true := by
  cases r with
  | error e => cases h
  | ok x => exact ⟨x, rfl, h⟩

/-- **A file that was read survives being written and read again exactly if** no number was out of
range and no normal that was left out takes a level too many. If not it is refused, and never taken
for another file. Its bytes are read like its text. -/
theorem ofString_toString_iff {s : List Symbol} {f : SceneFile} (h : ofSymbols s = .ok f) :
    (∀ x ∈ f.numbers, x.value ≠ .nan) ∧ f.document.depth ≤ depthLimit + 1 ∧
      (ofString f.toString = .ok f ↔
        (∀ x ∈ f.numbers, ∀ negative, x.value ≠ .infinite negative) ∧
          f.document.depth ≤ depthLimit) ∧
      (∀ g, ofString f.toString = .ok g → g = f) ∧
      ofBytes f.toString.toUTF8.data.toList = ofString f.toString := by
  obtain ⟨hnan, hdepth⟩ := gives_ofSymbols s f h
  have hanswers := f.answers_ofString
  have hfinite : AllFinite f.numbers ↔
      ∀ x ∈ f.numbers, ∀ negative, x.value ≠ .infinite negative := by
    refine forall₂_congr fun x hx => ?_
    have hx := hnan x hx
    unfold Single.isFinite
    cases hvalue : x.value with
    | nan => exact absurd hvalue hx
    | infinite negative => simp
    | finite negative m => simp
  refine ⟨hnan, hdepth, ?_, fun g hg => (hanswers.eq_of_ok hg).2, ofBytes_toUTF8 _⟩
  rw [← hfinite, and_comm]
  exact ⟨fun hok => (hanswers.eq_of_ok hok).1, hanswers.ok⟩

/-- A ground without a normal inside a number of translations, as it may stand in a file. -/
def bareGround : Nat → Document
  | 0 => .list [.text "ground"]
  | n + 1 => .list [.text "translate", .text "o", bareGround n]

/-- As many translations as the reader has room for. -/
def deepestGround : Document := .object [("version", .text "0"), ("root", bareGround 125)]

/-- A file without a number out of range that takes a level too many once it is written. -/
theorem ofString_toString_iff_deepestGround :
    ∃ f, ofSymbols (Symbol.ofString deepestGround.pretty) = .ok f ∧
      (AllFinite f.numbers ∧ f.document.depth = depthLimit + 1) ∧ ofString f.toString ≠ .ok f := by
  have hread : ∃ f, ofSymbols (Symbol.ofString deepestGround.pretty) = .ok f ∧
      decide (AllFinite f.numbers ∧ f.document.depth = depthLimit + 1) = true := by
    apply exists_of_any
    rw [ofSymbols, Reader.whole, Token.ofSymbols_pretty]
    decide +kernel
  obtain ⟨f, hf, hdeep⟩ := hread
  have hdeep := of_decide_eq_true hdeep
  obtain ⟨-, -, hiff, -⟩ := ofString_toString_iff hf
  refine ⟨f, hf, hdeep, fun hok => ?_⟩
  have hle := (hiff.1 hok).2
  omega

/-- A sphere of a radius that is out of range. -/
def outOfRange : String :=
  "\x7b\"version\":\"0\",\"root\":\x7b\"type\":\"sphere\",\"radius\":1e39\x7d\x7d"

/-- **Not every file that was read survives**: a radius that is out of range is read as an infinity,
and written as `null`. -/
theorem not_forall_ofString_toString :
    ¬∀ s f, ofString s = .ok f → ofString f.toString = .ok f := by
  -- What was read is only known to have a number that is not finite, which is all that is needed.
  have hread : ∃ f, ofString outOfRange = .ok f ∧ (!decide (AllFinite f.numbers)) = true := by
    apply exists_of_any
    rw [ofString, Symbol.ofString, outOfRange, String.toList_ofList]
    decide +kernel
  intro h
  obtain ⟨f, hf, hinfinite⟩ := hread
  have hfinite := (f.answers_ofString.eq_of_ok (h outOfRange f hf)).1.2
  simp [hfinite] at hinfinite

end SceneFile

end FieldShader
