import FieldShader.Proofs.Json.Nesting
import FieldShader.Proofs.Number.Pattern
import FieldShader.Proofs.SceneFile.Values

/-!
# What is read from a value, and how deep it is written

A value that stands for a part of a scene need not be the one that the part is written as: members may be
in any order, an array may stand for an object, and what is left out is filled in. `Description.tames`
bounds what comes out of all of these. No number is not-a-number, since numerals are rounded. A scalar, a
vector and a material are written no deeper than their value, and a description at most one level deeper,
which is the normal of a ground that was left out.
-/

namespace FieldShader

/-- The numbers and the document of something that was read: no number is not-a-number, and the
document has a bounded depth. -/
structure Tame (numbers : List Single) (document : Document) (depth : Nat) : Prop where
  ne_nan : ∀ x ∈ numbers, x.value ≠ .nan
  depth_le : document.depth ≤ depth

variable {numbers : List Single} {document : Document} {n n' : Nat}

/-- The bound may be raised. -/
theorem Tame.mono (h : Tame numbers document n) (hn : n ≤ n') : Tame numbers document n' :=
  ⟨h.ne_nan, h.depth_le.trans hn⟩

/-! ## Parts -/

/-- A number that is read is rounded from a ratio. -/
theorem JsonNumber.value_toSingle_ne_nan (n : JsonNumber) : n.toSingle.value ≠ .nan := by
  have hratio (negative : Bool) (num : Nat) {den : Nat} (hden : 0 < den) :
      (Single.ofRatio negative num den).value ≠ .nan := by
    rw [Single.value_ofRatio negative num hden]
    split <;> nofun
  cases n with
  | integer i => exact hratio _ _ one_pos
  | double negative m => exact hratio _ _ m.den_pos

/-- A scalar is no deeper than the value that it is read from. -/
theorem Scalar.tame_of_ofJson? {v : JsonValue} {s : Scalar} (h : ofJson? v = some s) :
    Tame s.numbers s.document v.nesting := by
  unfold ofJson? at h
  split at h
  · rename_i n
    cases h
    refine ⟨?_, Nat.zero_le _⟩
    rintro x hx
    rw [List.mem_singleton.1 hx]
    exact n.value_toSingle_ne_nan
  · cases h
    exact ⟨nofun, Nat.zero_le _⟩
  · cases h

/-- So is a scalar in place of a fault. -/
theorem Scalar.gives_ofJson (v : JsonValue) :
    Gives (ofJson v) fun s => Tame s.numbers s.document v.nesting := by
  unfold ofJson
  split
  · rename_i s hs
    exact .of_ok (tame_of_ofJson? hs)
  · exact .of_error _

/-- A vector is no deeper than its value. -/
theorem Vector.gives_ofJson (v : JsonValue) :
    Gives (ofJson v) fun s => Tame s.numbers s.document v.nesting := by
  unfold ofJson ofJson?
  split
  · rename_i s hs
    refine .of_ok ?_
    split at hs
    · cases hs
      exact ⟨nofun, Nat.zero_le _⟩
    · rename_i x y z
      simp only [Option.bind_eq_bind, Option.bind_eq_some_iff, Option.pure_def] at hs
      obtain ⟨x', hx, y', hy, z', hz, hs⟩ := hs
      cases hs
      have hx' := Scalar.tame_of_ofJson? hx
      have hy' := Scalar.tame_of_ofJson? hy
      have hz' := Scalar.tame_of_ofJson? hz
      constructor
      · simp only [numbers, List.mem_append]
        rintro n (hn | hn | hn)
        exacts [hx'.ne_nan n hn, hy'.ne_nan n hn, hz'.ne_nan n hn]
      · have hdepth := And.intro hx'.depth_le (And.intro hy'.depth_le hz'.depth_le)
        simp only [Vector.document, Document.depth, Document.itemDepth, JsonValue.nesting,
          JsonValue.itemNesting]
        omega
    · cases hs
  · exact .of_error _

/-- A material is one level deeper than its color. -/
theorem Material.tame_mk {color : Vector} (h : Tame color.numbers color.document n) :
    Tame (Material.mk color).numbers (Material.mk color).document (n + 1) := by
  refine ⟨h.ne_nan, ?_⟩
  have hdepth := h.depth_le
  simp only [document, Document.depth, Document.memberDepth]
  omega

/-- Looks at one member of a material for the color. -/
def Material.colorMember (color? : Option Vector) (m : String × JsonValue) :
    Except Fault (Option Vector) :=
  if m.1 = "color" then
    if color?.isSome then throw (.duplicateField "color")
    else do return some (← Vector.ofJson m.2)
  else return color?

/-- How the color of a material is looked for. -/
theorem Material.ofJson_object (ms : List (String × JsonValue)) :
    ofJson (.object ms) = ms.foldlM colorMember none >>= fun color? =>
      match color? with
      | some color => .ok ⟨color⟩
      | none => .error (.missingField "color") := rfl

/-- The color comes from one of the members. -/
theorem Material.gives_colorMembers {ms : List (String × JsonValue)} {color? : Option Vector}
    (hcolor : ∀ c ∈ color?, Tame c.numbers c.document n) (hms : ∀ m ∈ ms, m.2.nesting ≤ n) :
    Gives (ms.foldlM colorMember color?) fun color? =>
      ∀ c ∈ color?, Tame c.numbers c.document n := by
  induction ms generalizing color? with
  | nil => exact .of_ok hcolor
  | cons m ms ih =>
    obtain ⟨hm, hms⟩ := List.forall_mem_cons.1 hms
    rw [List.foldlM_cons]
    refine Gives.bind (p := fun color? => ∀ c ∈ color?, Tame c.numbers c.document n) ?_
      fun _ hcolor => ih hcolor hms
    unfold colorMember
    split
    · split
      · exact .of_error _
      · refine (Vector.gives_ofJson m.2).bind fun c hc => .of_ok ?_
        rintro c' ⟨⟩
        exact hc.mono hm
    · exact .of_ok hcolor

/-- A material is no deeper than its value. -/
theorem Material.gives_ofJson (v : JsonValue) :
    Gives (ofJson v) fun m => Tame m.numbers m.document v.nesting := by
  cases v with
  | object ms =>
    rw [ofJson_object]
    have hnone : ∀ c ∈ (none : Option Vector),
        Tame c.numbers c.document (JsonValue.memberNesting ms) := nofun
    refine (gives_colorMembers hnone (JsonValue.memberNesting_le.1 le_rfl)).bind fun color? h => ?_
    cases color? with
    | none => exact .of_error _
    | some color => exact .of_ok (tame_mk (h color rfl))
  | list items =>
    cases items with
    | nil => exact .of_error _
    | cons v rest =>
      refine (Vector.gives_ofJson v).bind fun color h => ?_
      split
      · exact .of_ok (tame_mk (h.mono (Nat.le_max_left _ _)))
      · exact .of_error _
  | null | bool b | number n | text s => exact .of_error _

/-- A value that is refused gives nothing. -/
theorem Reader.gives_refuse {α : Type} {p : α → Prop} (t : Token) (expected : String) :
    Gives (refuse t expected) p := (Gives.trivial _).bind fun _ _ => .of_error _

namespace Description

/-! ## Fields -/

/-- The fields that were met come from values of a bounded depth. A description may be one level
deeper than its value. -/
structure Draft.Tame (draft : Draft) (n : Nat) : Prop where
  radius : ∀ s ∈ draft.radius, FieldShader.Tame s.numbers s.document n
  normal : ∀ v ∈ draft.normal, FieldShader.Tame v.numbers v.document n
  material : ∀ given ∈ draft.material, ∀ m ∈ given, FieldShader.Tame m.numbers m.document n
  color : ∀ v ∈ draft.color, FieldShader.Tame v.numbers v.document n
  offset : ∀ v ∈ draft.offset, FieldShader.Tame v.numbers v.document n
  child : ∀ d ∈ draft.child, FieldShader.Tame d.numbers d.document (n + 1)
  smoothing : ∀ s ∈ draft.smoothing, FieldShader.Tame s.numbers s.document n
  children : ∀ ds ∈ draft.children, ∀ d ∈ ds, FieldShader.Tame d.numbers d.document n

/-- Nothing was met yet. -/
theorem Draft.tame_empty (n : Nat) : Draft.Tame {} n :=
  ⟨nofun, nofun, nofun, nofun, nofun, nofun, nofun, nofun⟩

/-- What is read from a value as a description, and as several. -/
structure Tames (v : JsonValue) : Prop where
  one : Gives (ofJson v) fun d => Tame d.numbers d.document (v.nesting + 1)
  several : Gives (listOfJson v) fun ds => ∀ d ∈ ds, Tame d.numbers d.document v.nesting

variable {draft : Draft} {v : JsonValue} {form : Form}

/-- A field that is met stays within the bound. -/
theorem Draft.Tame.gives_meet (h : draft.Tame n) (f : Field) (hv : v.nesting ≤ n) (ht : Tames v) :
    Gives (draft.meet f v) fun draft => draft.Tame n := by
  cases f with
  | radius =>
    refine (Scalar.gives_ofJson v).bind fun s hs => .of_ok { h with radius := ?_ }
    rintro _ ⟨⟩
    exact hs.mono hv
  | normal =>
    refine (Vector.gives_ofJson v).bind fun s hs => .of_ok { h with normal := ?_ }
    rintro _ ⟨⟩
    exact hs.mono hv
  | material =>
    cases v with
    | null =>
      refine .of_ok { h with material := ?_ }
      rintro _ ⟨⟩ _ ⟨⟩
    | bool _ | number _ | text _ | list _ | object _ =>
      refine (Material.gives_ofJson _).bind fun m hm => .of_ok { h with material := ?_ }
      rintro _ ⟨⟩ _ ⟨⟩
      exact hm.mono hv
  | color =>
    refine (Vector.gives_ofJson v).bind fun s hs => .of_ok { h with color := ?_ }
    rintro _ ⟨⟩
    exact hs.mono hv
  | offset =>
    refine (Vector.gives_ofJson v).bind fun s hs => .of_ok { h with offset := ?_ }
    rintro _ ⟨⟩
    exact hs.mono hv
  | child =>
    refine ht.one.bind fun d hd => .of_ok { h with child := ?_ }
    rintro _ ⟨⟩
    exact hd.mono (Nat.succ_le_succ hv)
  | smoothing =>
    refine (Scalar.gives_ofJson v).bind fun s hs => .of_ok { h with smoothing := ?_ }
    rintro _ ⟨⟩
    exact hs.mono hv
  | children =>
    refine ht.several.bind fun ds hds => .of_ok { h with children := ?_ }
    rintro _ ⟨⟩
    exact fun d hd => (hds d hd).mono hv

/-- A field that has to be there was met. -/
theorem Draft.gives_require {α : Type} (f : Field) (o : Option α) :
    Gives (require f o) fun x => x ∈ o := by
  cases o with
  | none => exact .of_error _
  | some x => exact .of_ok rfl

/-- Several documents are bounded one by one. -/
theorem itemDepth_documents_le {ds : List Description} (h : ∀ d ∈ ds, d.document.depth ≤ n) :
    Document.itemDepth (documents ds) ≤ n := by
  induction ds with
  | nil => exact Nat.zero_le _
  | cons d ds ih =>
    obtain ⟨hd, hds⟩ := List.forall_mem_cons.1 h
    exact Nat.max_le.2 ⟨hd, ih hds⟩

/-- A shape is written one level deeper than its parameter and its material. -/
theorem tame_shape (primitive : Primitive) (given : Option Material)
    (hparameter : Tame primitive.numbers primitive.parameter.2 n)
    (hgiven : ∀ m ∈ given, Tame m.numbers m.document n) :
    Tame (shape primitive given).numbers (shape primitive given).document (n + 1) := by
  have hdepth := hparameter.depth_le
  constructor
  · intro x hx
    rw [Description.numbers] at hx
    rcases List.mem_append.1 hx with hx | hx
    · exact hparameter.ne_nan x hx
    · cases given with
      | none => cases hx
      | some m => exact (hgiven m rfl).ne_nan x hx
  · cases given with
    | none =>
      simp only [Description.document, Document.depth, Document.memberDepth]
      omega
    | some m =>
      have hm := (hgiven m rfl).depth_le
      simp only [Description.document, Document.depth, Document.memberDepth]
      omega

/-- A material is written one level deeper than its color. -/
theorem tame_material {color : Vector} (h : Tame color.numbers color.document n) :
    Tame (material color).numbers (material color).document (n + 1) := by
  refine ⟨h.ne_nan, ?_⟩
  have hdepth := h.depth_le
  simp only [Description.document, Document.depth, Document.memberDepth]
  omega

/-- A translation is written one level deeper than its offset and its child. -/
theorem tame_translate {offset : Vector} {child : Description}
    (hoffset : Tame offset.numbers offset.document n)
    (hchild : Tame child.numbers child.document n) :
    Tame (translate offset child).numbers (translate offset child).document (n + 1) := by
  constructor
  · rw [Description.numbers]
    exact List.forall_mem_append.2 ⟨hoffset.ne_nan, hchild.ne_nan⟩
  · have hdepth := hoffset.depth_le
    have hdepth' := hchild.depth_le
    simp only [Description.document, Document.depth, Document.memberDepth]
    omega

/-- An operator is written two levels deeper than its children, which are in an array. -/
theorem tame_operator (kind : OperatorKind) {smoothing : Scalar} {children : List Description}
    (hsmoothing : Tame smoothing.numbers smoothing.document n)
    (hchildren : ∀ d ∈ children, Tame d.numbers d.document n) :
    Tame (operator kind smoothing children).numbers (operator kind smoothing children).document
      (n + 2) := by
  constructor
  · rw [Description.numbers, numbersAll_eq_flatMap]
    refine List.forall_mem_append.2 ⟨hsmoothing.ne_nan, ?_⟩
    intro x hx
    obtain ⟨d, hd, hx⟩ := List.mem_flatMap.1 hx
    exact (hchildren d hd).ne_nan x hx
  · have hdepth := hsmoothing.depth_le
    have hdepth' := itemDepth_documents_le fun d hd => (hchildren d hd).depth_le
    simp only [Description.document, Document.depth, Document.memberDepth]
    omega

/-- The normal that stands for one that was left out takes a level of its own. -/
theorem tame_up (n : Nat) : Tame Vector.up.numbers Vector.up.document (n + 1) := by
  refine ⟨?_, Nat.succ_le_succ (Nat.zero_le n)⟩
  decide

/-- **A description is written at most two levels deeper than what its fields were read from.** -/
theorem Draft.Tame.gives_finish (h : draft.Tame n) (form : Form) :
    Gives (draft.finish form) fun d => FieldShader.Tame d.numbers d.document (n + 2) := by
  have hgiven : ∀ m ∈ draft.material.getD none, FieldShader.Tame m.numbers m.document n := by
    cases hm : draft.material with
    | none => exact fun _ h => nomatch h
    | some given => exact h.material given hm
  cases form with
  | sphere =>
    refine (gives_require _ _).bind fun radius hradius => .of_ok ?_
    exact (tame_shape (.sphere radius) _ (h.radius radius hradius) hgiven).mono (Nat.le_succ _)
  | plane =>
    refine (gives_require _ _).bind fun normal hnormal => .of_ok ?_
    exact (tame_shape (.plane normal) _ (h.normal normal hnormal) hgiven).mono (Nat.le_succ _)
  | ground =>
    -- The second level is for a normal that is filled in, and for what that does to the levels above.
    refine .of_ok (tame_shape (.ground _) _ ?_ fun m hm => (hgiven m hm).mono (Nat.le_succ _))
    cases hnormal : draft.normal with
    | none => exact tame_up n
    | some normal => exact (h.normal normal hnormal).mono (Nat.le_succ _)
  | material =>
    refine (gives_require _ _).bind fun color hcolor => .of_ok ?_
    exact (tame_material (h.color color hcolor)).mono (Nat.le_succ _)
  | translate =>
    refine (gives_require _ _).bind fun offset hoffset => ?_
    refine (gives_require _ _).bind fun child hchild => .of_ok ?_
    exact tame_translate ((h.offset offset hoffset).mono (Nat.le_succ _)) (h.child child hchild)
  | operator kind =>
    refine (gives_require _ _).bind fun smoothing hsmoothing => ?_
    refine (gives_require _ _).bind fun children hchildren => .of_ok ?_
    exact tame_operator kind (h.smoothing smoothing hsmoothing) (h.children children hchildren)

/-! ## Whole descriptions -/

/-- Members that are gone through keep what was met within the bound. -/
theorem gives_ofMembers (form : Form) {ms : List (String × JsonValue)}
    (hms : ∀ m ∈ ms, m.2.nesting ≤ n) (ht : ∀ m ∈ ms, Tames m.2) (h : draft.Tame n) :
    Gives (ofMembers form draft ms) fun draft => draft.Tame n := by
  induction ms generalizing draft with
  | nil => exact .of_ok h
  | cons m ms ih =>
    obtain ⟨k, v⟩ := m
    obtain ⟨hm, hms⟩ := List.forall_mem_cons.1 hms
    obtain ⟨htm, ht⟩ := List.forall_mem_cons.1 ht
    rw [ofMembers_cons]
    split
    · exact ih hms ht h
    · rename_i f hf
      split
      · exact .of_error _
      · exact (h.gives_meet f hm htm).bind fun _ h => ih hms ht h

/-- How the items of an array are gone through. -/
theorem ofItems_cons (form : Form) (position : Nat) (f : Field) (left : List Field) (draft : Draft)
    (v : JsonValue) (rest : List JsonValue) :
    ofItems form position (f :: left) draft (v :: rest) =
      draft.meet f v >>= fun draft => ofItems form (position + 1) left draft rest := by
  cases v <;> rw [ofItems] <;> first | rfl | nofun

/-- So do items. -/
theorem gives_ofItems (form : Form) (position : Nat) (left : List Field) {vs : List JsonValue}
    (hvs : ∀ v ∈ vs, v.nesting ≤ n) (ht : ∀ v ∈ vs, Tames v) (h : draft.Tame n) :
    Gives (ofItems form position left draft vs) fun draft => draft.Tame n := by
  induction vs generalizing draft position left with
  | nil =>
    rw [ofItems]
    exact (Gives.trivial _).bind fun _ _ => .of_ok h
  | cons v vs ih =>
    obtain ⟨hv, hvs⟩ := List.forall_mem_cons.1 hvs
    obtain ⟨htv, ht⟩ := List.forall_mem_cons.1 ht
    cases left with
    | nil => cases v <;> exact .of_error _
    | cons f left =>
      rw [ofItems_cons]
      exact (h.gives_meet f hv htv).bind fun _ h => ih _ _ hvs ht h

/-- Several descriptions are each read from one of the values. -/
theorem gives_ofAll {vs : List JsonValue} (hvs : ∀ v ∈ vs, v.nesting ≤ n) (ht : ∀ v ∈ vs, Tames v) :
    Gives (ofAll vs) fun ds => ∀ d ∈ ds, Tame d.numbers d.document (n + 1) := by
  induction vs with
  | nil => exact .of_ok nofun
  | cons v vs ih =>
    obtain ⟨hv, hvs⟩ := List.forall_mem_cons.1 hvs
    obtain ⟨htv, ht⟩ := List.forall_mem_cons.1 ht
    rw [ofAll]
    refine htv.one.bind fun d hd => (ih hvs ht).bind fun ds hds => .of_ok ?_
    exact List.forall_mem_cons.2 ⟨hd.mono (Nat.succ_le_succ hv), hds⟩

/-- **A description is written at most one level deeper than the value it was read from**, whichever
value that is. -/
theorem tames (v : JsonValue) : Tames v := by
  -- Which of the two a value stands for is up to the field, so the induction carries both.
  induction v using JsonValue.recTree with
  | null | bool b | number m | text s => exact ⟨.of_error _, .of_error _⟩
  | list items ih =>
    have hnesting : ∀ v ∈ items, v.nesting ≤ JsonValue.itemNesting items :=
      JsonValue.itemNesting_le.1 le_rfl
    refine ⟨?_, gives_ofAll hnesting ih⟩
    cases items with
    | nil => exact .of_error _
    | cons v items =>
      refine (Gives.trivial _).bind fun form _ => ?_
      have hitems := gives_ofItems form 0 form.fields
        (fun w hw => hnesting w (List.mem_cons_of_mem v hw))
        (fun w hw => ih w (List.mem_cons_of_mem v hw)) (Draft.tame_empty _)
      exact hitems.bind fun draft h => h.gives_finish form
  | object ms ih =>
    have hnesting : ∀ m ∈ ms, m.2.nesting ≤ JsonValue.memberNesting ms :=
      JsonValue.memberNesting_le.1 le_rfl
    refine ⟨(Gives.trivial _).bind fun form _ => ?_, .of_error _⟩
    exact (gives_ofMembers form hnesting ih (Draft.tame_empty _)).bind fun draft h =>
      h.gives_finish form

end Description

end FieldShader
