import FieldShader.Json.Value

/-!
# How deep a value is that was read

A reader with room for a number of arrays and objects inside each other only gives values that are
nested so deeply (`JsonValue.gives_read`). `Gives` is this kind of statement about a result: whatever
it gives has a property, and a fault gives nothing. It composes along `do` blocks.
-/

namespace FieldShader

/-! ## Results that have a property -/

/-- Whatever the result gives has the property. -/
def Gives {α : Type} (r : Except Fault α) (p : α → Prop) : Prop := ∀ x, r = .ok x → p x

namespace Gives

variable {α β : Type} {r : Except Fault α} {p q : α → Prop} {p' : β → Prop} {x : α}

/-- A result that is no fault has to have the property. -/
theorem of_ok (h : p x) : Gives (.ok x) p := by
  intro y hy
  cases hy
  exact h

/-- A fault gives nothing. -/
theorem of_error (e : Fault) : Gives (.error e) p := nofun

/-- A sequence of two results has a property if the second has it after the first. -/
theorem bind {f : α → Except Fault β} (h : Gives r p) (hf : ∀ x, p x → Gives (f x) p') :
    Gives (r >>= f) p' := by
  intro y hy
  cases r with
  | error e => cases hy
  | ok x => exact hf x (h x rfl) y hy

/-- What is known of every result is nothing. -/
theorem trivial (r : Except Fault α) : Gives r fun _ => True := fun _ _ => True.intro

/-- A property may be weakened. -/
theorem mono (h : Gives r p) (hpq : ∀ x, p x → q x) : Gives r q := fun x hx => hpq x (h x hx)

end Gives

namespace Reader

variable {α σ : Type}

/-- Elements have the property that each of them is read with. -/
theorem gives_elements {item : Reader α} {p : α → Prop}
    (h : ∀ tokens, Gives (item tokens) fun x => p x.1) (fuel : Nat) (first : Bool)
    (tokens : List Token) :
    Gives (elements item fuel first tokens) fun xs => ∀ x ∈ xs.1, p x := by
  induction fuel generalizing first tokens with
  | zero => exact .of_error _
  | succ fuel ih =>
    rw [elements]
    refine (Gives.trivial _).bind fun next _ => ?_
    obtain ⟨more, rest⟩ := next
    cases more with
    | false => exact .of_ok nofun
    | true =>
      refine (h rest).bind fun x hx => ?_
      refine (ih false x.2).bind fun xs hxs => ?_
      exact .of_ok (List.forall_mem_cons.2 ⟨hx, hxs⟩)

/-- Members keep the property of the state that each of them keeps. -/
theorem gives_members {member : σ → String → Reader σ} {p : σ → Prop}
    (h : ∀ state k tokens, p state → Gives (member state k tokens) fun x => p x.1) (fuel : Nat)
    (first : Bool) {state : σ} (hstate : p state) (tokens : List Token) :
    Gives (members member fuel first state tokens) fun x => p x.1 := by
  induction fuel generalizing first state tokens with
  | zero => exact .of_error _
  | succ fuel ih =>
    rw [members]
    refine (Gives.trivial _).bind fun next _ => ?_
    obtain ⟨k?, rest⟩ := next
    cases k? with
    | none => exact .of_ok hstate
    | some k => exact (h state k rest hstate).bind fun x hx => ih false hx x.2

end Reader

namespace JsonValue

/-! ## Induction -/

/-- A property holds of every value if it holds of an array when it holds of its elements, and of an
object when it holds of its members. -/
theorem recTree {motive : JsonValue → Prop} (null : motive .null) (bool : ∀ b, motive (.bool b))
    (number : ∀ n, motive (.number n)) (text : ∀ s, motive (.text s))
    (list : ∀ items, (∀ v ∈ items, motive v) → motive (.list items))
    (object : ∀ members, (∀ m ∈ members, motive m.2) → motive (.object members))
    (v : JsonValue) : motive v := by
  refine @JsonValue.rec motive (fun vs => ∀ v ∈ vs, motive v) (fun ms => ∀ m ∈ ms, motive m.2)
    (fun m => motive m.2) null bool number text list object nofun (fun v vs hv hvs w hw => ?_) nofun
    (fun m ms hm hms w hw => ?_) (fun k v hv => hv) v
  · rcases List.mem_cons.1 hw with rfl | hw
    · exact hv
    · exact hvs w hw
  · rcases List.mem_cons.1 hw with rfl | hw
    · exact hm
    · exact hms w hw

/-! ## Nesting -/

mutual

/-- The number of arrays and objects inside each other. -/
def nesting : JsonValue → Nat
  | .list items => itemNesting items + 1
  | .object members => memberNesting members + 1
  | .null | .bool _ | .number _ | .text _ => 0

/-- The nesting of the element that is nested most. -/
def itemNesting : List JsonValue → Nat
  | [] => 0
  | v :: vs => max v.nesting (itemNesting vs)

/-- The nesting of the member that is nested most. -/
def memberNesting : List (String × JsonValue) → Nat
  | [] => 0
  | (_, v) :: ms => max v.nesting (memberNesting ms)

end

/-- Elements are bounded one by one. -/
theorem itemNesting_le {vs : List JsonValue} {n : Nat} :
    itemNesting vs ≤ n ↔ ∀ v ∈ vs, v.nesting ≤ n := by
  induction vs with
  | nil => simp [itemNesting]
  | cons v vs ih => rw [itemNesting, Nat.max_le, ih, List.forall_mem_cons]

/-- So are members. -/
theorem memberNesting_le {ms : List (String × JsonValue)} {n : Nat} :
    memberNesting ms ≤ n ↔ ∀ m ∈ ms, m.2.nesting ≤ n := by
  induction ms with
  | nil => simp [memberNesting]
  | cons m ms ih => rw [memberNesting, Nat.max_le, ih, List.forall_mem_cons]

/-- A value that opens neither an array nor an object is not nested. -/
theorem gives_read_cons (room : Nat) {t : Token} (rest : List Token) (hlist : t ≠ .openList)
    (hobject : t ≠ .openObject) : Gives (read room (t :: rest)) fun x => x.1.nesting = 0 := by
  cases t with
  | openList => exact absurd rfl hlist
  | openObject => exact absurd rfl hobject
  | null | bool b => cases room <;> exact .of_ok rfl
  | number value | text content =>
    cases room <;> exact (Gives.trivial _).bind fun _ _ => .of_ok rfl
  | closeList | closeObject | comma | colon | brokenText used skipped | broken used skipped =>
    cases room <;> exact .of_error _

/-- **A value that is read is not nested more than there was room for.** -/
theorem gives_read (room : Nat) (tokens : List Token) :
    Gives (read room tokens) fun x => x.1.nesting ≤ room := by
  induction room generalizing tokens with
  | zero =>
    cases tokens with
    | nil => exact .of_error _
    | cons t rest =>
      by_cases hlist : t = .openList
      · subst hlist
        exact .of_error _
      by_cases hobject : t = .openObject
      · subst hobject
        exact .of_error _
      exact (gives_read_cons 0 rest hlist hobject).mono fun _ h => Nat.le_of_eq h
  | succ room ih =>
    cases tokens with
    | nil => exact .of_error _
    | cons t rest =>
      by_cases hlist : t = .openList
      · subst hlist
        rw [read]
        refine (Reader.gives_elements (p := fun v => v.nesting ≤ room) ih _ true rest).bind
          fun x hx => ?_
        refine (Gives.trivial _).bind fun close _ => .of_ok ?_
        exact Nat.succ_le_succ (itemNesting_le.2 hx)
      by_cases hobject : t = .openObject
      · subst hobject
        rw [read]
        refine (Reader.gives_members (p := fun kept => ∀ m ∈ kept, m.2.nesting ≤ room)
          (fun kept k tokens hkept => ?_) _ true (fun m hm => absurd hm List.not_mem_nil) rest).bind
            fun x hx => ?_
        · refine (Gives.trivial _).bind fun colon _ => ?_
          refine (ih colon.2).bind fun v hv => .of_ok ?_
          exact List.forall_mem_cons.2 ⟨hv, hkept⟩
        · refine (Gives.trivial _).bind fun close _ => .of_ok ?_
          refine Nat.succ_le_succ (memberNesting_le.2 fun m hm => hx m ?_)
          exact List.mem_reverse.1 hm
      refine (gives_read_cons (room + 1) rest hlist hobject).mono fun _ h => ?_
      omega

end JsonValue

end FieldShader
