import FieldShader.Scene.Description

/-!
# A workshop of scenes

A workshop is an allocator and a shelf of named nodes under construction. An `Action` builds a node
from the nodes it names, which leave the shelf whether or not it succeeds, and puts the result back
under a name. Scenes built in one workshop share its identifiers and so never share a variable. The
shelf is seen through `find?`: `find?_insert_self`, `find?_erase_self` and their companions for
other names say what each change of it does.
-/

namespace FieldShader

/-- Nodes under construction. -/
structure Workshop where
  /-- Where new identifiers come from. -/
  allocator : Allocator
  /-- The nodes by name, the latest first. -/
  shelf : List (String × Node)

/-- What can be done in a workshop; `into` names the result. -/
inductive Action where
  | shape (into : String) (primitive : Primitive) (finish : Finish)
  | material (into : String) (finish : Finish)
  | operator (into : String) (kind : OperatorKind) (smoothing : Scalar) (operands : List String)
  | build (into : String) (description : Description)
  /-- Moves a node by offsets, the innermost first. -/
  | translate (into : String) (name : String) (offsets : List Vector)
  | repaint (into : String) (name : String) (finish : Finish)
  | discard (name : String)
  | reserve (count : Nat)

/-- Why an action is not carried out. -/
inductive WorkshopError where
  /-- There is no node of that name. -/
  | missing (name : String)
  /-- The node cannot be built. -/
  | build (e : BuildError)
deriving DecidableEq

namespace Workshop

/-- An empty workshop. -/
def empty : Workshop := ⟨.fresh, []⟩

/-- The node of the given name. -/
def find? (w : Workshop) (name : String) : Option Node := w.shelf.lookup name

/-- Takes a name off the shelf. -/
def erase (w : Workshop) (name : String) : Workshop :=
  { w with shelf := w.shelf.filter (·.1 ≠ name) }

/-- Puts a node on the shelf, in place of one of the same name. -/
def insert (w : Workshop) (name : String) (n : Node) : Workshop :=
  { w with shelf := (name, n) :: (w.erase name).shelf }

/-- A name that is taken off the shelf is gone. -/
@[simp] theorem find?_erase_self (w : Workshop) (name : String) :
    (w.erase name).find? name = none := by
  simpa [find?, erase, List.lookup_eq_none_iff] using fun _ _ _ h => Ne.symm h

/-- The other names stay where they are. -/
theorem find?_erase_of_ne (w : Workshop) {name other : String} (h : other ≠ name) :
    (w.erase name).find? other = w.find? other := by
  obtain ⟨allocator, shelf⟩ := w
  simp only [find?, erase]
  induction shelf with
  | nil => rfl
  | cons entry rest ih =>
    obtain ⟨key, n⟩ := entry
    by_cases hk : key = name
    · subst hk
      have hne : (other == key) = false := by simpa using h
      rw [List.filter_cons_of_neg (by simp), ih, List.lookup_cons, hne]
    · rw [List.filter_cons_of_pos (by simpa using hk), List.lookup_cons, List.lookup_cons, ih]

/-- A node that is put on the shelf is found under its name. -/
@[simp] theorem find?_insert_self (w : Workshop) (name : String) (n : Node) :
    (w.insert name n).find? name = some n := by
  simp [find?, insert]

/-- The other names keep their nodes. -/
theorem find?_insert_of_ne (w : Workshop) {name other : String} (h : other ≠ name) (n : Node) :
    (w.insert name n).find? other = w.find? other := by
  have hne : (other == name) = false := by simpa using h
  rw [← find?_erase_of_ne w h]
  simp [find?, insert, List.lookup_cons, hne]

/-- Takes named nodes off the shelf in order, up to the first name that is missing. -/
def takeAll (w : Workshop) : List String → Workshop × Except WorkshopError (List Node)
  | [] => (w, .ok [])
  | name :: names =>
    match w.find? name with
    | none => (w, .error (.missing name))
    | some n =>
      let (w', rest) := (w.erase name).takeAll names
      (w', rest.map (n :: ·))

/-- Builds a node with identifiers of the workshop and puts it on the shelf. The identifiers that a
failed build has taken stay taken. -/
def produce (w : Workshop) (into : String) (b : Build Node) :
    Workshop × Except WorkshopError Unit :=
  match b.run w.allocator with
  | .ok n a => ({ w with allocator := a }.insert into n, .ok ())
  | .error e a => ({ w with allocator := a }, .error (.build e))

/-- Rebuilds one node under another name. -/
def modify (w : Workshop) (into name : String) (f : Node → Node) :
    Workshop × Except WorkshopError Unit :=
  match w.find? name with
  | none => (w, .error (.missing name))
  | some n => ((w.erase name).insert into (f n), .ok ())

/-- Carries out an action. -/
def step (w : Workshop) : Action → Workshop × Except WorkshopError Unit
  | .shape into primitive finish => w.produce into (Build.shape primitive finish)
  | .material into finish => w.produce into (Build.material finish)
  | .operator into kind smoothing operands =>
    match w.takeAll operands with
    | (w', .ok nodes) => w'.produce into (Build.operator kind smoothing nodes)
    | (w', .error e) => (w', .error e)
  | .build into description => w.produce into description.build
  | .translate into name offsets =>
    w.modify into name fun n => offsets.foldl (fun inner offset => inner.translate offset) n
  | .repaint into name finish => w.modify into name (·.repaint finish)
  | .discard name => (w.erase name, .ok ())
  | .reserve count =>
    match w.allocator.reserve count with
    | .ok (_, a) => ({ w with allocator := a }, .ok ())
    | .error e => (w, .error (.build e))

/-- Carries out actions in order, going on after one that fails. -/
def run (w : Workshop) (actions : List Action) : Workshop :=
  actions.foldl (fun w action => (w.step action).1) w

end Workshop

end FieldShader
