import FieldShader.Proofs.Json.Document
import FieldShader.Proofs.Scene.Numbering
import FieldShader.SceneFile.Decode
import FieldShader.SceneFile.Encode

/-!
# Descriptions and the values that they are written as

A scene file writes a description as a JSON value. Reading that value gives the description back if
all its numbers are finite, and a fault if not: `Description.answers_ofJson`. `Answers` is this kind
of statement about a result. It composes along `do` blocks, so the proof follows the fields of a
description in the order in which they are read, and the condition on a description is put together
from those on its fields.
-/

namespace FieldShader

/-! ## Results -/

/-- The result is the given one under a condition, and a fault otherwise. -/
structure Answers {α : Type} (r : Except Fault α) (c : Prop) (x : α) : Prop where
  ok : c → r = .ok x
  fault : ¬c → ∃ e, r = .error e

namespace Answers

variable {α β : Type} {r : Except Fault α} {c c' : Prop} {x : α} {y : β}

/-- A result without a condition. -/
theorem of_ok (x : α) : Answers (.ok x) True x := ⟨fun _ => rfl, fun h => absurd trivial h⟩

/-- The condition may be put in other words. -/
theorem congr (h : Answers r c x) (hc : c ↔ c') : Answers r c' x :=
  ⟨fun h' => h.ok (hc.2 h'), fun h' => h.fault fun h'' => h' (hc.1 h'')⟩

/-- A sequence of two results needs the conditions of both. -/
theorem bind {f : α → Except Fault β} (h : Answers r c x) (hf : Answers (f x) c' y) :
    Answers (r >>= f) (c ∧ c') y := by
  refine ⟨fun ⟨hc, hc'⟩ => ?_, fun hn => ?_⟩
  · rw [h.ok hc]
    exact hf.ok hc'
  · by_cases hc : c
    · rw [h.ok hc]
      exact hf.fault fun hc' => hn ⟨hc, hc'⟩
    · obtain ⟨e, he⟩ := h.fault hc
      exact ⟨e, by rw [he]; rfl⟩

/-- A result that is wrapped keeps its condition. -/
theorem map {f : α → β} (h : Answers r c x) : Answers (r >>= fun x => .ok (f x)) c (f x) :=
  (h.bind (of_ok (f x))).congr (iff_of_eq (and_true c))

/-- Nothing else can be the result. -/
theorem eq_of_ok (h : Answers r c x) {x' : α} (hr : r = .ok x') : c ∧ x' = x := by
  by_cases hc : c
  · rw [h.ok hc] at hr
    cases hr
    exact ⟨hc, rfl⟩
  · obtain ⟨e, he⟩ := h.fault hc
    rw [he] at hr
    cases hr

end Answers

/-! ## The numbers of a scene -/

/-- All numbers are finite. -/
def AllFinite (xs : List Single) : Prop := ∀ x ∈ xs, x.isFinite = true

instance (xs : List Single) : Decidable (AllFinite xs) :=
  inferInstanceAs (Decidable (∀ x ∈ xs, x.isFinite = true))

@[simp] theorem allFinite_nil : AllFinite [] := nofun

@[simp] theorem allFinite_append {xs ys : List Single} :
    AllFinite (xs ++ ys) ↔ AllFinite xs ∧ AllFinite ys := List.forall_mem_append

/-- The number of a scalar. -/
def Scalar.numbers : Scalar → List Single
  | .number x => [x]
  | .raw _ => []

/-- The numbers of a vector. -/
def Vector.numbers : Vector → List Single
  | .components x y z => x.numbers ++ (y.numbers ++ z.numbers)
  | .raw _ => []

/-- The numbers of a primitive. -/
def Primitive.numbers : Primitive → List Single
  | .sphere radius => radius.numbers
  | .plane normal | .ground normal => normal.numbers

/-- The numbers of a material. -/
def Material.numbers (m : Material) : List Single := m.color.numbers

namespace Description

mutual

/-- The numbers of a description. -/
def numbers : Description → List Single
  | .shape primitive given => primitive.numbers ++ (given.map Material.numbers).getD []
  | .material color => color.numbers
  | .translate offset child => offset.numbers ++ child.numbers
  | .operator _ smoothing children => smoothing.numbers ++ numbersAll children

/-- The numbers of several descriptions. -/
def numbersAll : List Description → List Single
  | [] => []
  | d :: ds => d.numbers ++ numbersAll ds

end

end Description

/-! ## Scalars, vectors and materials -/

/-- A finite number is read as itself, any other as no scalar. -/
theorem Scalar.ofJson?_numberValue (x : Single) : Scalar.ofJson? (Document.numberValue x) =
    if x.isFinite then some (.number x) else none := by
  unfold Document.numberValue Document.numberToken Single.isFinite
  cases hx : x.value with
  | nan => rfl
  | infinite negative => rfl
  | finite negative m =>
    obtain ⟨n, hn, hsingle⟩ := Single.readBack hx
    simp [hn, Scalar.ofJson?, hsingle]

/-- A scalar is read back from its value. -/
theorem Scalar.ofJson?_value (s : Scalar) : Scalar.ofJson? s.document.value =
    if AllFinite s.numbers then some s else none := by
  cases s with
  | number x =>
    have hfinite : AllFinite (Scalar.number x).numbers ↔ x.isFinite = true := by
      simp [AllFinite, Scalar.numbers]
    rw [Scalar.document, Document.value, Scalar.ofJson?_numberValue]
    exact if_congr hfinite.symm rfl rfl
  | raw source =>
    rw [Scalar.document, Document.value]
    rfl

/-- So is a vector. -/
theorem Vector.ofJson?_value (v : Vector) : Vector.ofJson? v.document.value =
    if AllFinite v.numbers then some v else none := by
  cases v with
  | components x y z =>
    have hfinite : AllFinite (Vector.components x y z).numbers ↔
        AllFinite x.numbers ∧ AllFinite y.numbers ∧ AllFinite z.numbers := by
      simp only [Vector.numbers, allFinite_append]
    rw [Vector.document, Document.value, if_congr hfinite rfl rfl]
    simp only [Document.itemValues, Vector.ofJson?, Scalar.ofJson?_value]
    by_cases hx : AllFinite x.numbers <;> by_cases hy : AllFinite y.numbers <;>
      by_cases hz : AllFinite z.numbers <;> simp [hx, hy, hz]
  | raw source =>
    rw [Vector.document, Document.value]
    rfl

/-- A scalar is read back, or faulty. -/
theorem Scalar.answers_ofJson (s : Scalar) :
    Answers (Scalar.ofJson s.document.value) (AllFinite s.numbers) s := by
  constructor
  · intro h
    rw [ofJson, ofJson?_value, if_pos h]
  · intro h
    rw [ofJson, ofJson?_value, if_neg h]
    exact ⟨_, rfl⟩

/-- A vector is read back, or faulty. -/
theorem Vector.answers_ofJson (v : Vector) :
    Answers (Vector.ofJson v.document.value) (AllFinite v.numbers) v := by
  constructor
  · intro h
    rw [ofJson, ofJson?_value, if_pos h]
  · intro h
    rw [ofJson, ofJson?_value, if_neg h]
    exact ⟨_, rfl⟩

/-- A material is read back, or faulty. -/
theorem Material.answers_ofJson (m : Material) :
    Answers (Material.ofJson m.document.value) (AllFinite m.numbers) m := by
  have hcolor := m.color.answers_ofJson.map (f := Material.mk)
  have hread : Material.ofJson m.document.value =
      Vector.ofJson m.color.document.value >>= fun color => .ok ⟨color⟩ := by
    rw [Material.document, Document.value]
    cases h : Vector.ofJson m.color.document.value <;>
      simp [Document.memberValues, Material.ofJson, h, bind, Except.bind, pure, Except.pure]
  rw [hread]
  exact hcolor

/-! ## Forms and fields -/

namespace Description

/-- The form of a description. -/
def form : Description → Form
  | .shape (.sphere _) _ => .sphere
  | .shape (.plane _) _ => .plane
  | .shape (.ground _) _ => .ground
  | .material _ => .material
  | .translate _ _ => .translate
  | .operator kind _ _ => .operator kind

/-- What a description is written as besides its form. -/
def fields : Description → List (String × Document)
  | .shape primitive none => [primitive.parameter]
  | .shape primitive (some m) => [primitive.parameter, ("material", m.document)]
  | .material color => [("color", color.document)]
  | .translate offset child => [("offset", offset.document), ("child", child.document)]
  | .operator _ smoothing children =>
    [("smoothing", smoothing.document), ("children", .list (documents children))]

/-- A description is written as its form and its fields. -/
theorem document_eq (d : Description) :
    d.document = .object (("type", .text d.form.name) :: d.fields) := by
  cases d with
  | shape primitive given => cases primitive <;> cases given <;> rfl
  | material color => rfl
  | translate offset child => rfl
  | operator kind smoothing children => rfl

/-- No field has the name of the form's. -/
theorem fields_ne_type (d : Description) : ∀ m ∈ d.fields, m.1 ≠ "type" := by
  cases d with
  | shape primitive given => cases primitive <;> cases given <;> simp [fields, Primitive.parameter]
  | material color => simp [fields]
  | translate offset child => simp [fields]
  | operator kind smoothing children => simp [fields]

/-- A form is known by its name. -/
theorem choose_name (form : Form) : Reader.choose Form.choices form.name = .ok form := by
  rcases form with _ | _ | _ | _ | _ | (_ | _ | _) <;> rfl

/-- Looks at one member for the form. -/
def formMember (form? : Option Form) (m : String × JsonValue) : Except Fault (Option Form) :=
  if m.1 = "type" then
    if form?.isSome then throw (.duplicateField "type")
    else do return some (← Form.ofJson m.2)
  else return form?

/-- How the form is looked for. -/
theorem formOf_eq (ms : List (String × JsonValue)) :
    formOf ms = ms.foldlM formMember none >>= fun form? =>
      match form? with
      | some form => .ok form
      | none => .error (.missingField "type") := rfl

/-- The form is read off the first member, if no other one is of that name. -/
theorem formOf_cons (form : Form) {ms : List (String × JsonValue)}
    (hms : ∀ m ∈ ms, m.1 ≠ "type") : formOf (("type", .text form.name) :: ms) = .ok form := by
  have hrest : ms.foldlM formMember (some form) = .ok (some form) := by
    induction ms with
    | nil => rfl
    | cons m ms ih =>
      rw [List.foldlM_cons, formMember, if_neg (hms m List.mem_cons_self)]
      exact ih fun n hn => hms n (List.mem_cons_of_mem _ hn)
  have hfirst : formMember none ("type", .text form.name) = .ok (some form) := by
    rw [formMember, if_pos rfl, Form.ofJson, choose_name]
    rfl
  rw [formOf_eq, List.foldlM_cons, hfirst]
  simp only [bind, Except.bind, hrest]

/-! ## Filling in -/

section
variable {form : Form} {draft draft' : Draft} {k : String} {v : JsonValue} {f : Field}
  {c c' : Prop} {rest : List (String × JsonValue)} {d : Description}

/-- The descriptions that a value stands for. -/
def listOfJson : JsonValue → Except Fault (List Description)
  | .list items => ofAll items
  | v => .error (.invalidType v.found "a sequence")

/-- What becomes of a draft when a field is met. -/
def Draft.meet (draft : Draft) (f : Field) (v : JsonValue) : Except Fault Draft :=
  draft.fill f v (fun _ => ofJson v) fun _ => listOfJson v

/-- How the members of an object are gone through. -/
theorem ofMembers_cons (form : Form) (draft : Draft) (k : String) (v : JsonValue)
    (rest : List (String × JsonValue)) : ofMembers form draft ((k, v) :: rest) =
      match form.field? k with
      | none => ofMembers form draft rest
      | some f =>
        if draft.has f then .error (.duplicateField f.name)
        else draft.meet f v >>= fun draft => ofMembers form draft rest := by
  cases v <;> rw [ofMembers] <;> first | rfl | nofun

/-- What the members of an object come to under a form. -/
def assemble (form : Form) (draft : Draft) (ms : List (String × JsonValue)) :
    Except Fault Description := do
  (← ofMembers form draft ms).finish form

/-- Without members there is only the draft. -/
theorem assemble_nil (h : Answers (draft.finish form) c d) : Answers (assemble form draft []) c d :=
  h

/-- A member that is no field of the form is passed over. -/
theorem assemble_of_none (h : form.field? k = none) :
    assemble form draft ((k, v) :: rest) = assemble form draft rest := by
  rw [assemble, ofMembers_cons, h]
  rfl

/-- A field that is met for the first time is filled in. -/
theorem assemble_of_some (hfield : form.field? k = some f) (hhas : draft.has f = false)
    (hmeet : Answers (draft.meet f v) c draft')
    (hrest : Answers (assemble form draft' rest) c' d) :
    Answers (assemble form draft ((k, v) :: rest)) (c ∧ c') d := by
  rw [assemble, ofMembers_cons, hfield]
  dsimp only
  rw [hhas, if_neg nofun, bind_assoc]
  exact hmeet.bind hrest

end

/-! ## Whole descriptions -/

/-- The type is no field of any form. -/
theorem field?_type (form : Form) : form.field? "type" = none := by
  rcases form with _ | _ | _ | _ | _ | (_ | _ | _) <;> rfl

/-- The keys of values are those of the documents. -/
theorem keys_memberValues (ms : List (String × Document)) :
    (Document.memberValues ms).map Prod.fst = ms.map Prod.fst := by
  induction ms with
  | nil => rfl
  | cons m ms ih =>
    obtain ⟨k, d⟩ := m
    rw [Document.memberValues, List.map_cons, List.map_cons, ih]

/-- A description is read from its value by putting its fields together. -/
theorem ofJson_value (d : Description) : ofJson d.document.value =
    assemble d.form {} (Document.memberValues d.fields) := by
  have hkeys : ∀ m ∈ Document.memberValues d.fields, m.1 ≠ "type" := by
    intro m hm
    have hkey : m.1 ∈ d.fields.map Prod.fst := by
      rw [← keys_memberValues]
      exact List.mem_map_of_mem hm
    obtain ⟨n, hn, heq⟩ := List.mem_map.1 hkey
    rw [← heq]
    exact d.fields_ne_type n hn
  have hform := formOf_cons d.form hkeys
  rw [document_eq, Document.value, Document.memberValues, Document.value, ofJson, hform]
  exact assemble_of_none (field?_type d.form)

/-- The numbers of several descriptions, in the natural form. -/
theorem numbersAll_eq_flatMap (ds : List Description) : numbersAll ds = ds.flatMap numbers := by
  induction ds with
  | nil => rfl
  | cons d ds ih => rw [numbersAll, List.flatMap_cons, ih]

/-- Several descriptions are read one after the other. -/
theorem answers_ofAll {ds : List Description}
    (h : ∀ d ∈ ds, Answers (ofJson d.document.value) (AllFinite d.numbers) d) :
    Answers (ofAll (Document.itemValues (documents ds))) (AllFinite (numbersAll ds)) ds := by
  induction ds with
  | nil => exact (Answers.of_ok []).congr (iff_of_true trivial allFinite_nil)
  | cons d ds ih =>
    have hrest := ih fun e he => h e (List.mem_cons_of_mem _ he)
    rw [documents, Document.itemValues, ofAll, numbersAll]
    exact ((h d List.mem_cons_self).bind (hrest.map (f := (d :: ·)))).congr allFinite_append.symm

/-- The material of a shape is read back, or absent if it was not written. -/
theorem answers_material (form : Form) (draft : Draft) (primitive : Primitive)
    (given : Option Material) (hfield : form.field? "material" = some .material)
    (hnone : draft.material = none)
    (hfinish : Answers (draft.finish form) True (.shape primitive none))
    (hgiven : ∀ m, Answers ({ draft with material := some (some m) }.finish form) True
      (.shape primitive (some m))) :
    Answers (assemble form draft (Document.memberValues
        (match given with
        | none => []
        | some m => [("material", m.document)])))
      (AllFinite ((given.map Material.numbers).getD [])) (.shape primitive given) := by
  cases given with
  | none => exact (assemble_nil hfinish).congr (iff_of_true trivial allFinite_nil)
  | some m =>
    have hmeet : Answers (draft.meet .material m.document.value) (AllFinite m.numbers)
        { draft with material := some (some m) } :=
      m.answers_ofJson.map
    have hhas : draft.has .material = false := by rw [Draft.has, hnone]; rfl
    exact (assemble_of_some (k := "material") hfield hhas hmeet (assemble_nil (hgiven m))).congr
      (iff_of_eq (and_true _))

/-- A shape is put together again from its fields. -/
theorem answers_shape (primitive : Primitive) (given : Option Material) :
    Answers (assemble (shape primitive given).form {}
        (Document.memberValues (shape primitive given).fields))
      (AllFinite (shape primitive given).numbers) (shape primitive given) := by
  have hfields : (shape primitive given).fields = primitive.parameter ::
      match given with
      | none => []
      | some m => [("material", m.document)] := by cases given <;> rfl
  rw [hfields, numbers]
  cases primitive with
  | sphere radius =>
    have hradius : Answers (Draft.meet {} .radius radius.document.value)
        (AllFinite radius.numbers) { radius := some radius } := radius.answers_ofJson.map
    have hrest := answers_material .sphere { radius := some radius } (.sphere radius) given rfl rfl
      (.of_ok _) fun m => .of_ok _
    exact (assemble_of_some (k := "radius") rfl rfl hradius hrest).congr allFinite_append.symm
  | plane normal =>
    have hnormal : Answers (Draft.meet {} .normal normal.document.value)
        (AllFinite normal.numbers) { normal := some normal } := normal.answers_ofJson.map
    have hrest := answers_material .plane { normal := some normal } (.plane normal) given rfl rfl
      (.of_ok _) fun m => .of_ok _
    exact (assemble_of_some (k := "normal") rfl rfl hnormal hrest).congr allFinite_append.symm
  | ground normal =>
    have hnormal : Answers (Draft.meet {} .normal normal.document.value)
        (AllFinite normal.numbers) { normal := some normal } := normal.answers_ofJson.map
    have hrest := answers_material .ground { normal := some normal } (.ground normal) given rfl rfl
      (.of_ok _) fun m => .of_ok _
    exact (assemble_of_some (k := "normal") rfl rfl hnormal hrest).congr allFinite_append.symm

/-- **A description is put together again from its fields** if all its numbers are finite;
otherwise one of them is faulty. -/
theorem answers_assemble (d : Description) :
    Answers (assemble d.form {} (Document.memberValues d.fields)) (AllFinite d.numbers) d := by
  induction d using recTree with
  | shape primitive given => exact answers_shape primitive given
  | material color =>
    have hcolor : Answers (Draft.meet {} .color color.document.value) (AllFinite color.numbers)
        { color := some color } := color.answers_ofJson.map
    have hfinish : Answers (Draft.finish { color := some color } .material) True
        (.material color) := .of_ok _
    exact (assemble_of_some rfl rfl hcolor (assemble_nil hfinish)).congr (iff_of_eq (and_true _))
  | translate offset child ih =>
    have hoffset : Answers (Draft.meet {} .offset offset.document.value)
        (AllFinite offset.numbers) { offset := some offset } := offset.answers_ofJson.map
    have hchild : Answers (Draft.meet { offset := some offset } .child child.document.value)
        (AllFinite child.numbers) { offset := some offset, child := some child } := by
      rw [← ofJson_value] at ih
      exact ih.map
    have hfinish : Answers
        (Draft.finish { offset := some offset, child := some child } .translate) True
        (.translate offset child) := .of_ok _
    have hall := assemble_of_some (k := "offset") rfl rfl hoffset
      (assemble_of_some (k := "child") rfl rfl hchild (assemble_nil hfinish))
    refine hall.congr ?_
    rw [numbers, allFinite_append, and_true]
  | operator kind smoothing children ih =>
    have hsmoothing : Answers (Draft.meet {} .smoothing smoothing.document.value)
        (AllFinite smoothing.numbers) { smoothing := some smoothing } :=
      smoothing.answers_ofJson.map
    have hitems := answers_ofAll fun d hd => by
      have hd := ih d hd
      rwa [← ofJson_value] at hd
    have hchildren : Answers
        (Draft.meet { smoothing := some smoothing } .children
          (Document.list (documents children)).value)
        (AllFinite (numbersAll children))
        { smoothing := some smoothing, children := some children } := by
      rw [Document.value]
      exact hitems.map
    have hfinish : Answers
        (Draft.finish { smoothing := some smoothing, children := some children } (.operator kind))
        True (.operator kind smoothing children) := .of_ok _
    have hall := assemble_of_some (k := "smoothing") rfl rfl hsmoothing
      (assemble_of_some (k := "children") rfl rfl hchildren (assemble_nil hfinish))
    refine hall.congr ?_
    rw [numbers, allFinite_append, and_true]

end Description

end FieldShader
