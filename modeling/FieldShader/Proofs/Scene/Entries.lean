import FieldShader.Proofs.Scene.Tree
import FieldShader.Scene.Compile
import Mathlib.Data.List.Forall2

/-!
# The entries of a tree

What a tree writes for a property depends on the space around it and on the property, but the order
of its lines does not: there is a line for every leaf, and for every operator a line for each of its
steps and one for the operator itself. `Node.entries` lists what these lines are about, and a leaf
has there the mappings between it and the root. `TreeEntry.line` is the line of one entry, without
looking at any other.

`Node.emit_eq_ofLines` says that a tree emits the lines of its entries, one after another, up to the
first entry that has none. So two trees can be compared entry by entry, and no proof about the text
of a line has to go through a tree again.
-/

namespace FieldShader

/-- What a line of a tree is about. -/
inductive TreeEntry where
  /-- A primitive, and the mappings between it and the root, the outermost first. -/
  | shape (path : List Mapping) (id : Nat) (primitive : Primitive) (finish : Finish)
  /-- A leaf that has only a color, with its mappings. -/
  | material (path : List Mapping) (id : Nat) (finish : Finish)
  /-- An operator with too few operands. It has no line of any property. -/
  | short (kind : OperatorKind) (count : Nat)
  /-- Number `target` combines the result number `acc` so far with the operand number `next`. -/
  | step (kind : OperatorKind) (smoothing : Scalar) (acc next target : Nat)
  /-- The variable of an operator is bound to its last step. -/
  | result (id last : Nat)

/-- The space inside further transforms, the outermost first. -/
def Space.enter (space : Space) (path : List Mapping) : Space := path.foldl .push space

@[simp] theorem Space.enter_cons (space : Space) (mapping : Mapping) (path : List Mapping) :
    space.enter (mapping :: path) = (space.push mapping).enter path := rfl

namespace TreeEntry

/-- The entry with its path and its finish changed, if it is a leaf. -/
def mapLeaf (path : List Mapping → List Mapping) (finish : Finish → Finish) : TreeEntry → TreeEntry
  | .shape ms id primitive f => .shape (path ms) id primitive (finish f)
  | .material ms id f => .material (path ms) id (finish f)
  | .short kind count => .short kind count
  | .step kind smoothing acc next target => .step kind smoothing acc next target
  | .result id last => .result id last

/-- The leaf that an entry is about, with its path. -/
def leaf? : TreeEntry → Option (List Mapping × Node)
  | .shape path id primitive finish => some (path, .shape id primitive finish)
  | .material path id finish => some (path, .material id finish)
  | .short .. | .step .. | .result .. => none

/-- Only leaves are changed. -/
theorem mapLeaf_eq_self {e : TreeEntry} (h : e.leaf? = none) (path : List Mapping → List Mapping)
    (finish : Finish → Finish) : e.mapLeaf path finish = e := by
  cases e with
  | shape | material => cases h
  | short | step | result => rfl

/-- Entries none of which is about a leaf stay as they are. -/
theorem map_mapLeaf_eq_self {es : List TreeEntry} (h : ∀ e ∈ es, e.leaf? = none)
    (path : List Mapping → List Mapping) (finish : Finish → Finish) :
    es.map (mapLeaf path finish) = es :=
  (List.map_congr_left fun e he => mapLeaf_eq_self (h e he) path finish).trans (List.map_id es)

/-- The entry with one more transform around the tree. -/
def inside (mapping : Mapping) : TreeEntry → TreeEntry := mapLeaf (mapping :: ·) id

/-- The entry of a tree without transforms. -/
def bare : TreeEntry → TreeEntry := mapLeaf (fun _ => []) id

@[simp] theorem bare_inside (mapping : Mapping) (e : TreeEntry) :
    (e.inside mapping).bare = e.bare := by
  cases e <;> rfl

/-- The line of an entry for a property of a tree in a space, if it has one. -/
def line (space : Space) (p : Property) : TreeEntry → Except CompileError Declaration
  | .shape path id primitive finish =>
    match p with
    | .sdf => .ok ⟨.numbered .sdf id, primitive.distance (space.enter path)⟩
    | .normal => .ok ⟨.numbered .normal id, primitive.surfaceNormal (space.enter path)⟩
    | .color => .ok ⟨.numbered .color id, finish.material.color.toExpr⟩
  | .material _ id finish =>
    match p with
    | .color => .ok ⟨.numbered .color id, finish.material.color.toExpr⟩
    | .sdf | .normal => .error (.unsupportedProperty p)
  | .short kind count => .error (.tooFewOperands kind count)
  | .step kind smoothing acc next target =>
    .ok ⟨.numbered p target, kind.combine smoothing p acc next target⟩
  | .result id last => .ok ⟨.numbered p id, .var (.numbered p last)⟩

/-- A transform around the tree is a transform around the space. -/
@[simp] theorem line_inside (space : Space) (p : Property) (mapping : Mapping) (e : TreeEntry) :
    (e.inside mapping).line space p = e.line (space.push mapping) p := by
  cases e <;> rfl

end TreeEntry

/-! ## Lines one after another -/

namespace Emission

/-- The emission of lines, up to the first one that is missing. -/
def ofLines : List (Except CompileError Declaration) → Emission
  | [] => .ok []
  | .error e :: _ => .fail e
  | .ok d :: rest => (ok [d]).andThen (ofLines rest)

variable {xs ys : List (Except CompileError Declaration)}

/-- Lines after other lines are an emission after another. -/
theorem ofLines_append : ofLines (xs ++ ys) = (ofLines xs).andThen (ofLines ys) := by
  induction xs with
  | nil => rfl
  | cons x xs ih =>
    cases x with
    | error e => rfl
    | ok d => rw [List.cons_append, ofLines, ofLines, ih, andThen_assoc]

/-- Lines none of which is missing are all emitted. -/
theorem ofLines_map_ok (ds : List Declaration) : ofLines (ds.map .ok) = .ok ds := by
  induction ds with
  | nil => rfl
  | cons d ds ih =>
    rw [List.map_cons, ofLines, ih]
    rfl

/-- What is emitted at a place is the line of that place. -/
theorem getElem?_of_ofLines {i : Nat} {d : Declaration}
    (h : (ofLines xs).declarations[i]? = some d) : xs[i]? = some (.ok d) := by
  induction xs generalizing i with
  | nil => cases h
  | cons x xs ih =>
    cases x with
    | error e => cases h
    | ok first =>
      cases i with
      | zero =>
        obtain rfl : first = d := Option.some_inj.1 h
        rfl
      | succ i => exact ih h

/-- Without a failure every line is emitted. -/
theorem length_ofLines (h : (ofLines xs).failure = none) :
    (ofLines xs).declarations.length = xs.length := by
  induction xs with
  | nil => rfl
  | cons x xs ih =>
    cases x with
    | error e => cases h
    | ok d => exact congrArg (· + 1) (ih h)

/-- Two lines that are both there, or both missing. -/
inductive LineRel (R : Declaration → Declaration → Prop) (S : CompileError → CompileError → Prop) :
    Except CompileError Declaration → Except CompileError Declaration → Prop
  | ok {d d' : Declaration} (h : R d d') : LineRel R S (.ok d) (.ok d')
  | error {e e' : CompileError} (h : S e e') : LineRel R S (.error e) (.error e')

/-- Lines that are missing in the same places are emitted up to the same place. -/
theorem forall₂_ofLines {R : Declaration → Declaration → Prop}
    {S : CompileError → CompileError → Prop} (h : List.Forall₂ (LineRel R S) xs ys) :
    List.Forall₂ R (ofLines xs).declarations (ofLines ys).declarations ∧
      Option.Rel S (ofLines xs).failure (ofLines ys).failure := by
  induction h with
  | nil => exact ⟨.nil, .none⟩
  | cons hxy _ ih =>
    cases hxy with
    | ok hd => exact ⟨.cons hd ih.1, ih.2⟩
    | error he => exact ⟨.nil, .some he⟩

end Emission

/-! ## Entries of an operator -/

namespace OperatorKind

/-- What is listed of an operator before its operands: that it has too few of them. -/
def shortEntries (kind : OperatorKind) (count : Nat) : List TreeEntry :=
  if count < 2 then [.short kind count] else []

/-- The steps of an operator from step number `step` on, and its own variable. -/
def stepEntries (kind : OperatorKind) (smoothing : Scalar) (id : Nat) :
    (step acc : Nat) → (operands : List Nat) → List TreeEntry
  | _, acc, [] => [.result id acc]
  | step, acc, next :: rest =>
    .step kind smoothing acc next step :: kind.stepEntries smoothing id (step + 1) step rest

/-- The entries of an operator after those of its operands. -/
def foldEntries (kind : OperatorKind) (smoothing : Scalar) (id : Nat) :
    (operands : List Nat) → List TreeEntry
  | [] => []
  | first :: rest => kind.stepEntries smoothing id (id + 1) first rest

/-- The lines of the steps are those that an operator declares. -/
theorem map_line_stepEntries (kind : OperatorKind) (smoothing : Scalar) (space : Space)
    (p : Property) (id step acc : Nat) (operands : List Nat) :
    (kind.stepEntries smoothing id step acc operands).map (TreeEntry.line space p) =
      (kind.steps smoothing p id step acc operands).map .ok := by
  induction operands generalizing step acc with
  | nil => rfl
  | cons next rest ih =>
    rw [stepEntries, List.map_cons, ih, steps, List.map_cons]
    rfl

/-- An operator declares the lines of its entries. -/
theorem map_line_foldEntries (kind : OperatorKind) (smoothing : Scalar) (space : Space)
    (p : Property) (id : Nat) (operands : List Nat) :
    (kind.foldEntries smoothing id operands).map (TreeEntry.line space p) =
      (kind.fold smoothing p id operands).map .ok := by
  cases operands with
  | nil => rfl
  | cons first rest => exact kind.map_line_stepEntries smoothing space p id (id + 1) first rest

/-- An operator with too few operands is no leaf. -/
theorem leaf?_of_mem_shortEntries {kind : OperatorKind} {count : Nat} {e : TreeEntry}
    (h : e ∈ kind.shortEntries count) : e.leaf? = none := by
  unfold shortEntries at h
  split at h
  · rw [List.mem_singleton.1 h]
    rfl
  · cases h

/-- The steps of an operator are about no leaf. -/
theorem leaf?_of_mem_stepEntries {kind : OperatorKind} {smoothing : Scalar} {id step acc : Nat}
    {operands : List Nat} {e : TreeEntry}
    (h : e ∈ kind.stepEntries smoothing id step acc operands) : e.leaf? = none := by
  induction operands generalizing step acc with
  | nil =>
    rw [List.mem_singleton.1 h]
    rfl
  | cons next rest ih =>
    rcases List.mem_cons.1 h with rfl | h
    · rfl
    · exact ih h

/-- The entries of an operator are about no leaf. -/
theorem leaf?_of_mem_foldEntries {kind : OperatorKind} {smoothing : Scalar} {id : Nat}
    {operands : List Nat} {e : TreeEntry} (h : e ∈ kind.foldEntries smoothing id operands) :
    e.leaf? = none := by
  cases operands with
  | nil => cases h
  | cons first rest => exact leaf?_of_mem_stepEntries h

end OperatorKind

/-! ## Entries of a tree -/

namespace Node

mutual

/-- What the lines of the tree are about, in order. An operator with too few operands comes before
what is below it, as it is looked at first. -/
def entries : Node → List TreeEntry
  | .shape id primitive finish => [.shape [] id primitive finish]
  | .material id finish => [.material [] id finish]
  | .transform mapping child => child.entries.map (TreeEntry.inside mapping)
  | .operator id kind smoothing children =>
    kind.shortEntries children.length ++ entriesAll children ++
      kind.foldEntries smoothing id (children.map Node.id)

/-- The entries of several trees, in order. -/
def entriesAll : List Node → List TreeEntry
  | [] => []
  | n :: ns => n.entries ++ entriesAll ns

end

/-- Each leaf has its own transforms, and those around the operator in front of them. -/
example : (Node.transform (.translate (.raw "a")) (.operator 2 .cut (.raw "k")
    [.transform (.translate (.raw "b")) (.shape 0 (.sphere (.raw "r")) .standard),
      .material 1 .standard])).entries =
    [.shape [.translate (.raw "a"), .translate (.raw "b")] 0 (.sphere (.raw "r")) .standard,
      .material [.translate (.raw "a")] 1 .standard, .step .cut (.raw "k") 0 1 3,
      .result 2 3] := rfl

/-- The entries of several trees, in the natural form. -/
theorem entriesAll_eq_flatMap (ns : List Node) : entriesAll ns = ns.flatMap entries := by
  induction ns with
  | nil => rfl
  | cons n ns ih => rw [entriesAll, List.flatMap_cons, ih]

/-- Operands that are changed in their leaves alone change the entries of an operator there. -/
theorem entries_operator_map {children : List Node} {change : Node → Node}
    {path : List Mapping → List Mapping} {finish : Finish → Finish}
    (hid : ∀ c ∈ children, (change c).id = c.id)
    (h : ∀ c ∈ children, (change c).entries = c.entries.map (TreeEntry.mapLeaf path finish))
    (id : Nat) (kind : OperatorKind) (smoothing : Scalar) :
    (operator id kind smoothing (children.map change)).entries =
      (operator id kind smoothing children).entries.map (TreeEntry.mapLeaf path finish) := by
  have hids : (children.map change).map Node.id = children.map Node.id := by
    rw [List.map_map]
    exact List.map_congr_left hid
  have hall : entriesAll (children.map change) =
      (entriesAll children).map (TreeEntry.mapLeaf path finish) := by
    rw [entriesAll_eq_flatMap, entriesAll_eq_flatMap, List.flatMap_map, List.map_flatMap]
    exact List.flatMap_congr h
  rw [entries, entries, List.length_map, hids, hall, List.map_append, List.map_append,
    TreeEntry.map_mapLeaf_eq_self fun e he => OperatorKind.leaf?_of_mem_shortEntries he,
    TreeEntry.map_mapLeaf_eq_self fun e he => OperatorKind.leaf?_of_mem_foldEntries he]

/-- Several trees emit the lines of their entries if each of them does. -/
theorem emitAll_eq_ofLines {ns : List Node} {space : Space} {p : Property}
    (h : ∀ n ∈ ns, n.emit space p = .ofLines (n.entries.map (TreeEntry.line space p))) :
    emitAll space p ns = .ofLines ((entriesAll ns).map (TreeEntry.line space p)) := by
  induction ns with
  | nil => rfl
  | cons n ns ih =>
    rw [emitAll, h n List.mem_cons_self, ih fun m hm => h m (List.mem_cons_of_mem _ hm),
      entriesAll, List.map_append, Emission.ofLines_append]

/-- **A tree emits the lines of its entries**, up to the first entry that has none. -/
theorem emit_eq_ofLines (n : Node) (space : Space) (p : Property) :
    n.emit space p = .ofLines (n.entries.map (TreeEntry.line space p)) := by
  induction n using recTree generalizing space with
  | shape id primitive finish => cases p <;> rfl
  | material id finish => cases p <;> rfl
  | transform mapping child ih =>
    rw [emit, ih, entries, List.map_map]
    congr 2
    funext e
    exact (e.line_inside space p mapping).symm
  | operator id kind smoothing children ih =>
    rw [emit, entries, OperatorKind.shortEntries]
    -- An operator with too few operands fails before they are looked at, and so does its entry.
    split
    · rfl
    · rw [List.nil_append, List.map_append, Emission.ofLines_append,
        OperatorKind.map_line_foldEntries, Emission.ofLines_map_ok,
        emitAll_eq_ofLines fun c hc => ih c hc space]

variable {n : Node} {space : Space} {p : Property}

/-- What a tree writes at a place is the line of its entry there. -/
theorem exists_entry {i : Nat} {line : String}
    (h : ((n.emit space p).declarations.map Declaration.render)[i]? = some line) :
    ∃ e d, n.entries[i]? = some e ∧ e.line space p = .ok d ∧ d.render = line := by
  rw [List.getElem?_map, emit_eq_ofLines] at h
  obtain ⟨d, hd, rfl⟩ := Option.map_eq_some_iff.1 h
  have hline := Emission.getElem?_of_ofLines hd
  rw [List.getElem?_map] at hline
  obtain ⟨e, he, hd⟩ := Option.map_eq_some_iff.1 hline
  exact ⟨e, d, he, hd, rfl⟩

/-- A tree that is emitted completely has a line for every entry. -/
theorem length_declarations (h : (n.emit space p).failure = none) :
    (n.emit space p).declarations.length = n.entries.length := by
  rw [emit_eq_ofLines] at h ⊢
  rw [Emission.length_ofLines h, List.length_map]

/-- Compiling appends the text of what is emitted, at the depth of the listing. -/
theorem lines_compile_eq_append (n : Node) (space : Space) (p : Property) (l : Listing) :
    (n.compile space p l).1.lines = l.lines ++
      ((n.emit space p).declarations.map Declaration.render).map (indent l.depth) :=
  Listing.lines_writeAll l _

/-! ## Trees without transforms -/

mutual

/-- The tree without its transforms. -/
def bare : Node → Node
  | .shape id primitive finish => .shape id primitive finish
  | .material id finish => .material id finish
  | .transform _ child => child.bare
  | .operator id kind smoothing children => .operator id kind smoothing (bareAll children)

/-- Several trees without their transforms. -/
def bareAll : List Node → List Node
  | [] => []
  | n :: ns => n.bare :: bareAll ns

end

/-- Several trees without their transforms, in the natural form. -/
theorem bareAll_eq_map (ns : List Node) : bareAll ns = ns.map bare := by
  induction ns with
  | nil => rfl
  | cons n ns ih => rw [bareAll, List.map_cons, ih]

/-- A transform has no identifier of its own. -/
@[simp] theorem id_bare (n : Node) : n.bare.id = n.id := by
  induction n using recTree with
  | shape | material | operator => simp [bare, id]
  | transform mapping child ih => simpa [bare, id] using ih

/-- Without its transforms a tree has the same entries, but no path to a leaf. -/
theorem entries_bare (n : Node) :
    n.bare.entries = n.entries.map TreeEntry.bare := by
  induction n using recTree with
  | shape | material => rfl
  | transform mapping child ih =>
    rw [bare, ih, entries, List.map_map]
    exact List.map_congr_left fun e _ => (e.bare_inside mapping).symm
  | operator id kind smoothing children ih =>
    rw [bare, bareAll_eq_map]
    exact entries_operator_map (fun c _ => c.id_bare) ih id kind smoothing

end Node

end FieldShader
