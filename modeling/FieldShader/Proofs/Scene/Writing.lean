import FieldShader.Proofs.Scene.Declared

/-!
# Writing while a tree is walked

`Node.compile` collects the declarations of a tree and then writes them. `Node.write` does the same
work the other way round: a listing is handed through the tree, a declaration is written to it when
its turn comes, and a failure ends the walk there and then. `Writing.Writes` relates the two, as a
walk that writes an emission to whatever listing it is started on. Putting walks together keeps it,
so that `Node.writes` follows the cases of the tree.

A walk knows of its listing only what it writes there. `Node.compile_only_appends` says what that
comes to, for a walk that ends with a failure as for any other: the lines that were there stay, the
depth stays, and the lines that come after them are those of an empty listing, indented.
-/

namespace FieldShader

/-- Lines that are written in two parts. -/
theorem Listing.writeAll_append (l : Listing) (xs ys : List String) :
    l.writeAll (xs ++ ys) = (l.writeAll xs).writeAll ys := List.foldl_append

/-- A walk that writes to a listing and may fail. What was written before a failure stays. -/
abbrev Writing := EStateM CompileError Listing Unit

namespace Writing

/-- Writes the line of a declaration. -/
def declare (d : Declaration) : Writing := modify (·.write d.render)

/-- The end of a walk: the listing that it leaves, and what went wrong. -/
def ended : Listing × Option CompileError → EStateM.Result CompileError Listing Unit
  | (l, none) => .ok () l
  | (l, some e) => .error e l

/-- The walk writes the declarations of an emission and fails as it does, on any listing. -/
def Writes (w : Writing) (e : Emission) : Prop := ∀ l : Listing, w.run l = ended (e.writeTo l)

namespace Writes

variable {w w' : Writing} {e e' : Emission}

/-- A walk that does nothing writes nothing. -/
theorem pure : Writes (Pure.pure ()) (.ok []) := fun _ => rfl

/-- A declaration is one line. -/
theorem declare (d : Declaration) : Writes (Writing.declare d) (.ok [d]) := fun _ => rfl

/-- A failure writes nothing. -/
theorem throw (e : CompileError) : Writes (MonadExcept.throw e) (.fail e) := fun _ => rfl

/-- Of two walks the second starts on the listing that the first has left, unless that one failed. -/
theorem bind (h : Writes w e) (h' : Writes w' e') : Writes (w >>= fun _ => w') (e.andThen e') := by
  intro l
  have hw : w l = ended (e.writeTo l) := h l
  show EStateM.bind w (fun _ => w') l = _
  unfold EStateM.bind
  rw [hw]
  obtain ⟨ds, failure⟩ := e
  cases failure with
  | some x => rfl
  | none =>
    have hlines : (Emission.andThen ⟨ds, none⟩ e').writeTo l =
        e'.writeTo (Emission.writeTo ⟨ds, none⟩ l).1 := by
      simp only [Emission.andThen, Emission.writeTo, List.map_append, Listing.writeAll_append]
    rw [hlines]
    exact h' _

end Writes

end Writing

/-! ## Walks over a tree -/

/-- Writes the color of the material under an identifier, and fails for any other property. -/
def Material.write (m : Material) (id : Nat) (p : Property) : Writing :=
  match p with
  | .color => .declare ⟨.numbered .color id, m.color.toExpr⟩
  | .sdf | .normal => throw (.unsupportedProperty p)

/-- Writes the steps of an operator, each of them reading the one before, and its own variable. -/
def OperatorKind.writeSteps (kind : OperatorKind) (smoothing : Scalar) (p : Property) (id : Nat) :
    (step acc : Nat) → (operands : List Nat) → Writing
  | _, acc, [] => .declare ⟨.numbered p id, .var (.numbered p acc)⟩
  | step, acc, next :: rest => do
    Writing.declare ⟨.numbered p step, kind.combine smoothing p acc next step⟩
    kind.writeSteps smoothing p id (step + 1) step rest

namespace Node

mutual

/-- Writes the declarations of a property of the tree in a space. -/
def write (space : Space) (p : Property) : Node → Writing
  | .shape id primitive finish =>
    match p with
    | .color => finish.material.write id .color
    | .sdf => .declare ⟨.numbered .sdf id, primitive.distance space⟩
    | .normal => .declare ⟨.numbered .normal id, primitive.surfaceNormal space⟩
  | .material id finish => finish.material.write id p
  | .transform mapping child => child.write (space.push mapping) p
  | .operator id kind smoothing children =>
    match children.map Node.id with
    | first :: second :: rest => do
      writeAll space p children
      kind.writeSteps smoothing p id (id + 1) first (second :: rest)
    | operands => throw (.tooFewOperands kind operands.length)

/-- Writes the declarations of several trees, up to the first failure. -/
def writeAll (space : Space) (p : Property) : List Node → Writing
  | [] => return ()
  | n :: ns => do
    n.write space p
    writeAll space p ns

end

end Node

/-! ## What the walks write -/

/-- A material writes what it emits. -/
theorem Material.writes (m : Material) (id : Nat) (p : Property) :
    Writing.Writes (m.write id p) (m.emit id p) := by
  cases p with
  | color => exact .declare _
  | sdf | normal => exact .throw _

/-- The steps of an operator are written as they are emitted. -/
theorem OperatorKind.writes_steps (kind : OperatorKind) (smoothing : Scalar) (p : Property)
    (id step acc : Nat) (operands : List Nat) :
    Writing.Writes (kind.writeSteps smoothing p id step acc operands)
      (.ok (kind.steps smoothing p id step acc operands)) := by
  induction operands generalizing step acc with
  | nil => exact .declare _
  | cons next rest ih => exact (Writing.Writes.declare _).bind (ih (step + 1) step)

namespace Node

/-- Several trees write what they emit, if each of them does. -/
theorem writes_all {space : Space} {p : Property} {ns : List Node}
    (h : ∀ n ∈ ns, Writing.Writes (n.write space p) (n.emit space p)) :
    Writing.Writes (writeAll space p ns) (emitAll space p ns) := by
  induction ns with
  | nil => exact .pure
  | cons n ns ih =>
    exact (h n List.mem_cons_self).bind (ih fun m hm => h m (List.mem_cons_of_mem _ hm))

/-- **A tree writes what it emits**, to any listing. -/
theorem writes (n : Node) (space : Space) (p : Property) :
    Writing.Writes (n.write space p) (n.emit space p) := by
  induction n using recTree generalizing space with
  | shape id primitive finish =>
    cases p with
    | color => exact finish.material.writes id .color
    | sdf | normal => exact .declare _
  | material id finish => exact finish.material.writes id p
  | transform mapping child ih => exact ih (space.push mapping)
  | operator id kind smoothing children ih =>
    rw [write, emit]
    rcases children with _ | ⟨first, _ | ⟨second, rest⟩⟩
    · exact .throw _
    · exact .throw _
    · have harity : ¬(first :: second :: rest).length < 2 := by simp
      rw [if_neg harity]
      exact (writes_all fun c hc => ih c hc space).bind (kind.writes_steps smoothing p id _ _ _)

/-- **Compiling only appends.** It ends as a walk does that writes to the listing as it goes along,
with the same listing and the same failure, if any. The lines of the listing stay and so does its
depth; the lines that are added are those that an empty listing would hold, each indented by the
depth; and the failure is the same for every listing. -/
theorem compile_only_appends (n : Node) (space : Space) (p : Property) (l : Listing) :
    (n.write space p).run l = Writing.ended (n.compile space p l) ∧
    (n.compile space p l).1.lines =
      l.lines ++ (n.compile space p .empty).1.lines.map (indent l.depth) ∧
    (n.compile space p l).1.depth = l.depth ∧
    (n.compile space p l).2 = (n.compile space p .empty).2 := by
  refine ⟨n.writes space p l, ?_, Listing.depth_writeAll _ _, rfl⟩
  rw [lines_compile_empty]
  exact Listing.lines_writeAll _ _

end Node

end FieldShader
