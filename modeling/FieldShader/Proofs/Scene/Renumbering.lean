import FieldShader.Proofs.Scene.Scoping

/-!
# Renumbering a scene

The identifiers of a scene are names and nothing else: giving a tree other identifiers gives its
lines other names. `Node.renumber` replaces the identifiers of a tree by a map on them, and
`Declaration.renumber` does the same with the variables of a line, on both sides and nowhere else.
`Node.emit_renumber` says that the two agree. The map only has to keep the block of every operator
together (`Node.KeepsBlocks`), since the identifiers of the steps are counted from the operator's
own; it need not be injective.

The lines of a tree also do not tell a given material from the standard one of the same color
(`Node.emit_explicit`).
-/

namespace FieldShader

variable {r : Nat → Nat}

/-! ## Declarations -/

/-- The variable under another number; a public variable has none. -/
def Variable.renumber (r : Nat → Nat) : Variable → Variable
  | .numbered p id => .numbered p (r id)
  | .shared p => .shared p

namespace Expr

/-- The expression with its variables renumbered. Literals and raw fragments are left alone. -/
def renumber (r : Nat → Nat) : Expr → Expr
  | .number value => .number value
  | .raw source t => .raw source t
  | .position name => .position name
  | .var v => .var (v.renumber r)
  | .vec3 x y z => .vec3 (x.renumber r) (y.renumber r) (z.renumber r)
  | .unary f a => .unary f (a.renumber r)
  | .dot a b => .dot (a.renumber r) (b.renumber r)
  | .ternary f a b c => .ternary f (a.renumber r) (b.renumber r) (c.renumber r)
  | .neg a => .neg (a.renumber r)
  | .binary op a b => .binary op (a.renumber r) (b.renumber r)
  | .ifGreater a b yes no =>
    .ifGreater (a.renumber r) (b.renumber r) (yes.renumber r) (no.renumber r)
  | .group a => .group (a.renumber r)

/-- An expression that reads no variable stays as it is. -/
theorem renumber_of_reads_eq_nil {e : Expr} (h : e.reads = []) : e.renumber r = e := by
  induction e with
  | number | raw | position => rfl
  | var v => cases h
  | unary f a iha => rw [renumber, iha h]
  | neg a iha => rw [renumber, iha h]
  | group a iha => rw [renumber, iha h]
  | dot a b iha ihb =>
    obtain ⟨ha, hb⟩ := List.append_eq_nil_iff.1 h
    rw [renumber, iha ha, ihb hb]
  | binary op a b iha ihb =>
    obtain ⟨ha, hb⟩ := List.append_eq_nil_iff.1 h
    rw [renumber, iha ha, ihb hb]
  | vec3 a b c iha ihb ihc =>
    simp only [reads, List.append_eq_nil_iff] at h
    rw [renumber, iha h.1.1, ihb h.1.2, ihc h.2]
  | ternary f a b c iha ihb ihc =>
    simp only [reads, List.append_eq_nil_iff] at h
    rw [renumber, iha h.1.1, ihb h.1.2, ihc h.2]
  | ifGreater a b yes no iha ihb ihyes ihno =>
    simp only [reads, List.append_eq_nil_iff] at h
    rw [renumber, iha h.1.1.1, ihb h.1.1.2, ihyes h.1.2, ihno h.2]

end Expr

namespace Declaration

/-- The line with the variables of both sides renumbered. -/
def renumber (r : Nat → Nat) (d : Declaration) : Declaration :=
  ⟨d.target.renumber r, d.value.renumber r⟩

/-- A line whose text stays the same declares the same variable. -/
theorem target_of_render_renumber {d : Declaration} (h : (d.renumber r).render = d.render) :
    d.target.renumber r = d.target := by
  have hname := congrArg declaredName h
  rw [declaredName_render, declaredName_render] at hname
  exact Variable.name_injective hname

end Declaration

namespace Emission

/-- The emission with the variables of all its lines renumbered. -/
def renumber (r : Nat → Nat) (e : Emission) : Emission :=
  ⟨e.declarations.map (Declaration.renumber r), e.failure⟩

/-- A sequence is renumbered part by part. -/
theorem renumber_andThen (first second : Emission) :
    (first.andThen second).renumber r = (first.renumber r).andThen (second.renumber r) := by
  obtain ⟨ds, failure⟩ := first
  cases failure <;> simp [andThen, renumber]

end Emission

namespace OperatorKind

/-- A step refers to its operands and to itself by their numbers alone. -/
theorem renumber_combine (kind : OperatorKind) (smoothing : Scalar) (p : Property)
    (acc next step : Nat) : (kind.combine smoothing p acc next step).renumber r =
      kind.combine smoothing p (r acc) (r next) (r step) := by
  have hsmoothing : smoothing.toExpr.renumber r = smoothing.toExpr :=
    Expr.renumber_of_reads_eq_nil smoothing.reads_toExpr
  cases kind <;> cases p <;>
    simp [combine, blend, remoteness, Expr.renumber, Variable.renumber, Expr.zero, Expr.half,
      hsmoothing]

/-- The steps of an operator, renumbered, are the steps over the new numbers of its operands, if
its own new numbers follow one another. -/
theorem renumber_steps (kind : OperatorKind) (smoothing : Scalar) (p : Property)
    {id step start acc : Nat} {operands : List Nat}
    (h : ∀ j < operands.length, r (step + j) = start + j) :
    (kind.steps smoothing p id step acc operands).map (Declaration.renumber r) =
      kind.steps smoothing p (r id) start (r acc) (operands.map r) := by
  -- `start` is not written `r step`: after the last operand no step is left, and nothing is known
  -- of `r` there.
  induction operands generalizing step start acc with
  | nil => rfl
  | cons next rest ih =>
    have hstep : r step = start := h 0 (Nat.zero_lt_succ _)
    have hhead : Declaration.renumber r
        ⟨.numbered p step, kind.combine smoothing p acc next step⟩ =
          ⟨.numbered p start, kind.combine smoothing p (r acc) (r next) start⟩ := by
      simp [Declaration.renumber, Variable.renumber, renumber_combine, hstep]
    have hrest (j : Nat) (hj : j < rest.length) : r (step + 1 + j) = start + 1 + j := by
      rw [Nat.add_assoc, Nat.add_assoc, Nat.add_comm 1 j]
      exact h (j + 1) (Nat.succ_lt_succ hj)
    rw [steps, List.map_cons, ih hrest, List.map_cons, steps, hhead, hstep]

/-- Everything an operator declares after its operands is renumbered with its block. -/
theorem renumber_fold (kind : OperatorKind) (smoothing : Scalar) (p : Property) {id : Nat}
    {operands : List Nat} (h : ∀ j < operands.length, r (id + j) = r id + j) :
    (kind.fold smoothing p id operands).map (Declaration.renumber r) =
      kind.fold smoothing p (r id) (operands.map r) := by
  cases operands with
  | nil => rfl
  | cons first rest =>
    refine kind.renumber_steps smoothing p fun j hj => ?_
    rw [Nat.add_assoc, Nat.add_assoc, Nat.add_comm 1 j]
    exact h (j + 1) (Nat.succ_lt_succ hj)

end OperatorKind

namespace Node

variable {n : Node}

/-- Several changed trees emit changed lines if each of them does, when a sequence of emissions is
changed part by part. -/
theorem emitAll_map {space : Space} {p : Property} {ns : List Node} {f : Node → Node}
    {g : Emission → Emission} (hnil : g (.ok []) = .ok [])
    (hseq : ∀ first second, g (first.andThen second) = (g first).andThen (g second))
    (h : ∀ n ∈ ns, (f n).emit space p = g (n.emit space p)) :
    emitAll space p (ns.map f) = g (emitAll space p ns) := by
  induction ns with
  | nil => exact hnil.symm
  | cons n ns ih =>
    rw [List.map_cons, emitAll, emitAll, hseq, h n List.mem_cons_self,
      ih fun m hm => h m (List.mem_cons_of_mem _ hm)]

/-! ## Trees -/

mutual

/-- The tree with its identifiers replaced. -/
def renumber (r : Nat → Nat) : Node → Node
  | .shape id primitive finish => .shape (r id) primitive finish
  | .material id finish => .material (r id) finish
  | .transform mapping child => .transform mapping (child.renumber r)
  | .operator id kind smoothing children =>
    .operator (r id) kind smoothing (renumberAll r children)

/-- Several trees with their identifiers replaced. -/
def renumberAll (r : Nat → Nat) : List Node → List Node
  | [] => []
  | n :: ns => n.renumber r :: renumberAll r ns

end

/-- Several renumbered trees, in the natural form. -/
theorem renumberAll_eq_map (ns : List Node) : renumberAll r ns = ns.map (renumber r) := by
  induction ns with
  | nil => rfl
  | cons n ns ih => rw [renumberAll, List.map_cons, ih]

/-- The identifier of a renumbered tree is the new one of the tree. -/
@[simp] theorem id_renumber (n : Node) : (n.renumber r).id = r n.id := by
  induction n using recTree with
  | shape | material | operator => simp [renumber, id]
  | transform mapping child ih => simpa [renumber, id] using ih

/-- The block of every operator of the tree stays together and in order. -/
def KeepsBlocks (r : Nat → Nat) (n : Node) : Prop :=
  ∀ id kind smoothing children, operator id kind smoothing children ∈ n.parts →
    ∀ j < children.length, r (id + j) = r id + j

namespace KeepsBlocks

/-- The blocks of a subtree are among those of the tree. -/
theorem child {mapping : Mapping} (h : (transform mapping n).KeepsBlocks r) :
    n.KeepsBlocks r :=
  fun id kind smoothing children hm =>
    h id kind smoothing children (mem_parts_transform.2 (.inr hm))

variable {id : Nat} {kind : OperatorKind} {smoothing : Scalar} {children : List Node}

/-- So are those of an operand. -/
theorem operand (h : (operator id kind smoothing children).KeepsBlocks r) {c : Node}
    (hc : c ∈ children) : c.KeepsBlocks r :=
  fun id' kind' smoothing' children' hm =>
    h id' kind' smoothing' children' (mem_parts_operator.2 (.inr ⟨c, hc, hm⟩))

/-- The block of the operator itself is kept. -/
theorem own (h : (operator id kind smoothing children).KeepsBlocks r) :
    ∀ j < children.length, r (id + j) = r id + j :=
  h id kind smoothing children (mem_parts_operator.2 (.inl rfl))

end KeepsBlocks

/-- A renumbered tree owns the new identifiers, in the same order. -/
theorem ids_renumber (h : n.KeepsBlocks r) : (n.renumber r).ids = n.ids.map r := by
  induction n using recTree with
  | shape | material => simp [renumber]
  | transform mapping child ih => simpa [renumber] using ih h.child
  | operator id kind smoothing children ih =>
    have hblock : List.range' (r id) children.length =
        (List.range' id children.length).map r := by
      rw [List.range'_eq_map_range, List.range'_eq_map_range, List.map_map]
      refine List.map_congr_left fun j hj => ?_
      exact (h.own j (List.mem_range.1 hj)).symm
    rw [renumber, ids_operator, ids_operator, renumberAll_eq_map, List.length_map,
      idsAll_eq_flatMap, idsAll_eq_flatMap, List.flatMap_map, List.map_append, List.map_flatMap,
      hblock, List.flatMap_congr fun c hc => ih c hc (h.operand hc)]

/-- A tree whose identifiers are all fixed stays as it is. -/
theorem Numbered.renumber_eq_self (hn : n.Numbered) (h : ∀ i ∈ n.ids, r i = i) :
    n.renumber r = n := by
  induction hn with
  | shape id primitive finish => rw [renumber, h id (by simp)]
  | material id finish => rw [renumber, h id (by simp)]
  | transform mapping _ ih =>
    rw [ids_transform] at h
    rw [renumber, ih h]
  | @operator children id kind smoothing harity _ _ _ ih =>
    rw [ids_operator] at h
    have hid : r id = id :=
      h id (List.mem_append_right _ (List.mem_range'_1.2 ⟨Nat.le_refl _, by omega⟩))
    have hchildren (c : Node) (hc : c ∈ children) : c.renumber r = c :=
      ih c hc fun i hi => h i (List.mem_append_left _ (mem_idsAll.2 ⟨c, hc, hi⟩))
    rw [renumber, hid, renumberAll_eq_map, List.map_congr_left hchildren, List.map_id']

/-- **A renumbered tree emits the renumbered lines of the tree**, and fails like it. -/
theorem emit_renumber (h : n.KeepsBlocks r) (space : Space) (p : Property) :
    (n.renumber r).emit space p = (n.emit space p).renumber r := by
  induction n using recTree generalizing space with
  | shape id primitive finish =>
    have hcolor := Expr.renumber_of_reads_eq_nil (r := r) finish.material.color.reads_toExpr
    have hdistance := Expr.renumber_of_reads_eq_nil (r := r) (primitive.reads_distance space)
    have hnormal := Expr.renumber_of_reads_eq_nil (r := r) (primitive.reads_surfaceNormal space)
    cases p <;> simp [renumber, emit, Material.emit, Emission.ok, Emission.renumber,
      Declaration.renumber, Variable.renumber, hcolor, hdistance, hnormal]
  | material id finish =>
    have hcolor := Expr.renumber_of_reads_eq_nil (r := r) finish.material.color.reads_toExpr
    cases p <;> simp [renumber, emit, Material.emit, Emission.ok, Emission.fail,
      Emission.renumber, Declaration.renumber, Variable.renumber, hcolor]
  | transform mapping child ih => exact ih h.child (space.push mapping)
  | operator id kind smoothing children ih =>
    have hids : (children.map (renumber r)).map Node.id = (children.map Node.id).map r := by
      rw [List.map_map, List.map_map]
      exact List.map_congr_left fun c _ => c.id_renumber
    have hfold : (kind.fold smoothing p id (children.map Node.id)).map (Declaration.renumber r) =
        kind.fold smoothing p (r id) ((children.map Node.id).map r) :=
      kind.renumber_fold smoothing p (by simpa using h.own)
    have hoperands := emitAll_map rfl Emission.renumber_andThen
      fun c hc => ih c hc (h.operand hc) space
    rw [renumber, renumberAll_eq_map, emit, emit, List.length_map, hids]
    split
    · rfl
    · rw [hoperands, Emission.renumber_andThen, ← hfold]
      rfl

/-! ## Materials as values -/

mutual

/-- The tree with every material given: two trees that agree in this form differ at most in which
of their materials are the standard one and which are given and equal to it. -/
def explicit : Node → Node
  | .shape id primitive finish => .shape id primitive (.custom finish.material)
  | .material id finish => .material id (.custom finish.material)
  | .transform mapping child => .transform mapping child.explicit
  | .operator id kind smoothing children => .operator id kind smoothing (explicitAll children)

/-- Several trees with every material given. -/
def explicitAll : List Node → List Node
  | [] => []
  | n :: ns => n.explicit :: explicitAll ns

end

/-- Several trees with every material given, in the natural form. -/
theorem explicitAll_eq_map (ns : List Node) : explicitAll ns = ns.map explicit := by
  induction ns with
  | nil => rfl
  | cons n ns ih => rw [explicitAll, List.map_cons, ih]

/-- Giving the materials keeps the identifier of a tree. -/
@[simp] theorem id_explicit (n : Node) : n.explicit.id = n.id := by
  induction n using recTree with
  | shape | material | operator => simp [explicit, id]
  | transform mapping child ih => simpa [explicit, id] using ih

/-- It keeps all identifiers in the tree. -/
@[simp] theorem ids_explicit (n : Node) : n.explicit.ids = n.ids := by
  induction n using recTree with
  | shape | material => simp [explicit]
  | transform mapping child ih => simpa [explicit] using ih
  | operator id kind smoothing children ih =>
    rw [explicit, ids_operator, ids_operator, explicitAll_eq_map, List.length_map,
      idsAll_eq_flatMap, idsAll_eq_flatMap, List.flatMap_map, List.flatMap_congr ih]

/-- **Emitted lines do not tell a given material from the standard one**: a tree emits the same
lines with every material given. -/
theorem emit_explicit (n : Node) (space : Space) (p : Property) :
    n.explicit.emit space p = n.emit space p := by
  induction n using recTree generalizing space with
  | shape id primitive finish => cases p <;> rfl
  | material id finish => rfl
  | transform mapping child ih => exact ih (space.push mapping)
  | operator id kind smoothing children ih =>
    have hids : (children.map explicit).map Node.id = children.map Node.id := by
      rw [List.map_map]
      exact List.map_congr_left fun c _ => c.id_explicit
    have hoperands : emitAll space p (children.map explicit) = emitAll space p children :=
      emitAll_map (g := fun e => e) rfl (fun _ _ => rfl) fun c hc => ih c hc space
    rw [explicit, explicitAll_eq_map, emit, emit, List.length_map, hids, hoperands]

end Node

end FieldShader
