import FieldShader.Proofs.Scene.Surface
import FieldShader.Proofs.Scene.Uniqueness

/-!
# Compiling preserves meaning

Running the generated lines of a scene computes its surface, for every reading of the shading
language. The proof gives a valuation of all variables beforehand, by the ledger of the scene, and
then follows the emission: `Node.holds_emit` says that under a valuation that agrees with the ledger
every emitted declaration holds. That there is such a valuation needs the identifiers of the scene
to be distinct (`exists_carries`), and that the lines run to the end needs them in scope
(`exists_execute`); both are what a workshop guarantees. `Workshop.compile_preserves` puts the parts
together.

Nothing in the induction is about a store. The one place where an operand's position in the tree
matters is `Space.Places`, which relates the chain of mappings that an emission carries to the place
that the meaning carries.
-/

namespace FieldShader

universe u

variable {V : Type u} {I : Interpretation V} {ν : Variable → V}

/-! ## Values of parameters and leaves -/

@[simp] theorem Scalar.value_toExpr (s : Scalar) : s.toExpr.value I ν = s.meaning I := by
  cases s <;> rfl

@[simp] theorem Vector.value_toExpr (v : Vector) : v.toExpr.value I ν = v.meaning I := by
  cases v with
  | components x y z => simp [toExpr, Expr.value, meaning]
  | raw source => rfl

/-- The image of a position has the value that the mapping moves it to. -/
theorem Mapping.value_apply (m : Mapping) (e : Expr) :
    (m.apply e).value I ν = m.move I (e.value I ν) := by
  cases m with
  | translate offset => simp [apply, move, Expr.value, Interpretation.binary]

/-- Mapping a position out of the space is placing its value. -/
def Space.Places (space : Space) (I : Interpretation V) (ν : Variable → V) (place : V → V) :
    Prop := ∀ e, (space.apply e).value I ν = place (e.value I ν)

namespace Space.Places

variable {space : Space} {place : V → V}

/-- World space is where things are. -/
theorem world : Space.world.Places I ν fun position => position := fun _ => rfl

/-- Inside a transform, the mapping comes before what is around it. -/
theorem push (h : space.Places I ν place) (m : Mapping) :
    (space.push m).Places I ν fun position => place (m.move I position) := by
  intro e
  rw [apply_push, h, m.value_apply]

/-- The offset of the sample point from the origin of the space. -/
theorem value_offset (h : space.Places I ν place) :
    (Expr.binary .sub .point space.origin).value I ν =
      I.offset (place (Vector.zero.meaning I)) := by
  have horigin : space.origin.value I ν = place (Vector.zero.meaning I) := by
    rw [origin, h, Vector.value_toExpr]
  rw [Expr.value, horigin]
  rfl

/-- The distance of a primitive in the space. -/
theorem value_distance (h : space.Places I ν place) (primitive : Primitive) :
    (primitive.distance space).value I ν =
      primitive.distanceFrom I (place (Vector.zero.meaning I)) := by
  cases primitive with
  | sphere radius =>
    rw [Primitive.distance, Expr.value, Expr.value, h.value_offset, Scalar.value_toExpr]
    rfl
  | plane normal =>
    rw [Primitive.distance, Expr.value, Expr.value, h.value_offset, Vector.value_toExpr]
    rfl
  | ground normal =>
    rw [Primitive.distance, Expr.value, h.value_offset, Vector.value_toExpr]
    rfl

/-- The normal of a primitive in the space. -/
theorem value_surfaceNormal (h : space.Places I ν place) (primitive : Primitive) :
    (primitive.surfaceNormal space).value I ν =
      primitive.normalFrom I (place (Vector.zero.meaning I)) := by
  cases primitive with
  | sphere radius =>
    rw [Primitive.surfaceNormal, Expr.value, h.value_offset]
    rfl
  | plane normal | ground normal =>
    rw [Primitive.surfaceNormal, Expr.value, Vector.value_toExpr]
    rfl

end Space.Places

/-! ## Steps of an operator -/

/-- The variables of an identifier have the values of a surface. -/
def Carries (ν : Variable → V) (id : Nat) (s : Surface V) : Prop :=
  ∀ p, ν (.numbered p id) = s.get p

namespace OperatorKind

variable {kind : OperatorKind} {smoothing : Scalar} {p : Property} {acc next : Surface V}
  {id step accId nextId : Nat}

/-- **One step computes one join**, for every property and operator. A normal or a color reads the
combined distance, which is why the step itself has to carry it. -/
theorem value_combine (hacc : Carries ν accId acc) (hnext : Carries ν nextId next)
    (hstep : Carries ν step (I.join kind (smoothing.meaning I) acc next)) :
    (kind.combine smoothing p accId nextId step).value I ν =
      (I.join kind (smoothing.meaning I) acc next).get p := by
  have hcombined := hstep .sdf
  cases p with
  | sdf =>
    cases kind <;>
      simp only [combine, Expr.value, hacc .sdf, hnext .sdf, Scalar.value_toExpr] <;> rfl
  | normal =>
    cases kind <;>
      simp only [combine, blend, remoteness, Expr.zero, Expr.half, Expr.value, hacc .sdf,
        hnext .sdf, hacc .normal, hnext .normal, hcombined] <;> rfl
  | color =>
    cases kind <;>
      simp only [combine, blend, remoteness, Expr.zero, Expr.half, Expr.value, hacc .sdf,
        hnext .sdf, hacc .color, hnext .color, hcombined] <;> rfl

/-- The steps of an operator hold when its operands and the ledger of its steps are carried. -/
theorem holds_steps {operands : List Nat} {ss : List (Surface V)} (hacc : Carries ν accId acc)
    (hoperands : List.Forall₂ (Carries ν) operands ss)
    (hledger : ∀ entry ∈ I.stepLedger kind (smoothing.meaning I) id step acc ss,
      Carries ν entry.1 entry.2) :
    ∀ d ∈ kind.steps smoothing p id step accId operands, d.Holds I ν := by
  induction hoperands generalizing step accId acc with
  | nil =>
    intro d hd
    have hid : Carries ν id acc := hledger (id, acc) (List.mem_singleton_self _)
    rw [List.mem_singleton.1 hd]
    exact (hacc p).trans (hid p).symm
  | @cons nextId next rest ss hnext _ ih =>
    intro d hd
    have hstep : Carries ν step (I.join kind (smoothing.meaning I) acc next) :=
      hledger (step, _) List.mem_cons_self
    rcases List.mem_cons.1 hd with rfl | hd
    · exact (value_combine hacc hnext hstep).trans (hstep p).symm
    · exact ih hstep (fun entry he => hledger entry (List.mem_cons_of_mem _ he)) d hd

end OperatorKind

/-! ## Whole trees -/

namespace Node

/-- Operands are carried, each by its own identifier, when their ledgers are. -/
theorem carries_operands {place : V → V} {ns : List Node} {ss : List (Surface V)}
    (hss : List.Forall₂ (fun n s => n.surface I place = some s) ns ss)
    (hledger : ∀ n ∈ ns, ∀ entry ∈ n.ledger I place, Carries ν entry.1 entry.2) :
    List.Forall₂ (Carries ν) (ns.map Node.id) ss := by
  induction hss with
  | nil => exact .nil
  | @cons n s ns ss hs _ ih =>
    rw [List.map_cons]
    refine .cons (hledger n List.mem_cons_self (n.id, s) (mem_ledger hs)) (ih ?_)
    intro m hm
    exact hledger m (List.mem_cons_of_mem _ hm)

/-- **Everything a tree emits holds** under a valuation that agrees with the ledger of the tree. -/
theorem holds_emit {n : Node} {space : Space} {place : V → V} {s : Surface V} {p : Property}
    (hspace : space.Places I ν place) (hs : n.surface I place = some s)
    (hledger : ∀ entry ∈ n.ledger I place, Carries ν entry.1 entry.2) :
    ∀ d ∈ (n.emit space p).declarations, d.Holds I ν := by
  induction n using recTree generalizing space place s with
  | shape id primitive finish =>
    have hid : Carries ν id (primitive.surface I place finish) :=
      hledger (id, _) (List.mem_singleton_self _)
    intro d hd
    cases p with
    | sdf =>
      rw [List.mem_singleton.1 hd]
      exact (hspace.value_distance primitive).trans (hid .sdf).symm
    | normal =>
      rw [List.mem_singleton.1 hd]
      exact (hspace.value_surfaceNormal primitive).trans (hid .normal).symm
    | color =>
      rw [List.mem_singleton.1 hd]
      exact (Vector.value_toExpr _).trans (hid .color).symm
  | material id finish => cases hs
  | transform mapping child ih => exact ih (hspace.push mapping) hs hledger
  | operator id kind smoothing children ih =>
    obtain ⟨first, rest, hss, rfl⟩ := surface_operator_eq_some.1 hs
    rw [ledger, hss, ledgers_eq_flatMap] at hledger
    have hchildren : ∀ c ∈ children, ∀ entry ∈ c.ledger I place, Carries ν entry.1 entry.2 := by
      intro c hc entry he
      exact hledger entry (List.mem_append_left _ (List.mem_flatMap.2 ⟨c, hc, he⟩))
    intro d hd
    rw [emit] at hd
    split at hd
    · cases hd
    · rcases Emission.mem_andThen hd with hd | hd
      · obtain ⟨c, hc, hd⟩ := mem_emitAll hd
        obtain ⟨t, ht⟩ := exists_surface_of_mem hss hc
        exact ih c hc hspace ht (hchildren c hc) d hd
      · have hoperands := carries_operands (surfaces_eq_some.1 hss) hchildren
        cases children with
        | nil => cases hd
        | cons c cs =>
          rw [List.map_cons] at hoperands
          cases hoperands with
          | cons hfirst hrest =>
            refine OperatorKind.holds_steps hfirst hrest (fun entry he => ?_) d hd
            exact hledger entry (List.mem_append_right _ he)

end Node

/-! ## A valuation from a ledger -/

/-- A ledger without repeated identifiers is carried by some valuation, which may have any values
for the public variables. -/
theorem exists_carries {l : List (Nat × Surface V)} (h : (l.map Prod.fst).Nodup) (s : Surface V) :
    ∃ ν : Variable → V, (∀ p, ν (.shared p) = s.get p) ∧
      ∀ entry ∈ l, Carries ν entry.1 entry.2 := by
  induction l with
  | nil =>
    refine ⟨fun v => s.get v.property, fun p => rfl, nofun⟩
  | cons entry l ih =>
    rw [List.map_cons, List.nodup_cons] at h
    obtain ⟨ν, hshared, hν⟩ := ih h.2
    refine ⟨fun v => match v with
      | .shared p => s.get p
      | .numbered p i => if i = entry.1 then entry.2.get p else ν (.numbered p i),
      fun p => rfl, fun other hother p => ?_⟩
    rcases List.mem_cons.1 hother with rfl | hother
    · simp
    · have hne : other.1 ≠ entry.1 := by
        intro heq
        exact h.1 (heq ▸ List.mem_map_of_mem hother)
      simp only [if_neg hne]
      exact hν other hother p

/-! ## Published properties -/

namespace Node

variable {n : Node}

/-- The alias of a published property is declared. -/
theorem shared_mem_published (n : Node) (p : Property) :
    .shared p ∈ (n.published p).map Declaration.target := by
  rw [published, List.map_append]
  exact List.mem_append_right _ (List.mem_singleton_self _)

/-- A published property is in scope once the distances are known. -/
theorem wellScoped_published {p : Property} {known : List Variable}
    (hok : (n.emit .world p).failure = none) (hsdf : n.DistancesKnown .world p known) :
    WellScoped known (n.published p) := by
  refine wellScoped_append.2 ⟨wellScoped_emit hsdf, wellScoped_publish ?_⟩
  exact List.mem_append_left _ (result_mem_targets hok)

/-- Any properties are in scope one after the other, once the distances are known. -/
theorem wellScoped_flatMap_published {ps : List Property} {known : List Variable}
    (hok : ∀ p, (n.emit .world p).failure = none) (hsdf : n.declared .sdf ⊆ known) :
    WellScoped known (ps.flatMap n.published) := by
  induction ps generalizing known with
  | nil => trivial
  | cons p ps ih =>
    rw [List.flatMap_cons]
    refine wellScoped_append.2 ⟨wellScoped_published (hok p) fun _ => ⟨hok .sdf, hsdf⟩, ih ?_⟩
    exact fun v hv => List.mem_append_right _ (hsdf hv)

/-- A published property holds when the ledger is carried and the alias has the surface's value. -/
theorem holds_published {s : Surface V} {p : Property} (hs : n.surface I (fun position => position) = some s)
    (hledger : ∀ entry ∈ n.ledger I fun position => position, Carries ν entry.1 entry.2)
    (hshared : ∀ p, ν (.shared p) = s.get p) : ∀ d ∈ n.published p, d.Holds I ν := by
  intro d hd
  rcases List.mem_append.1 hd with hd | hd
  · exact holds_emit .world hs hledger d hd
  · rw [List.mem_singleton.1 hd]
    have hid : Carries ν n.id s := hledger (n.id, s) (mem_ledger hs)
    exact (hid p).trans (hshared p).symm

/-- The identifiers in the ledger of a numbered tree are distinct. -/
theorem Numbered.nodup_keys_ledger (h : n.Numbered) {place : V → V} {s : Surface V}
    (hs : n.surface I place = some s) : ((n.ledger I place).map Prod.fst).Nodup := by
  have hnd := h.declared_nodup .sdf
  rw [← keys_ledger hs .sdf, ← Function.comp_def (Variable.numbered .sdf) Prod.fst,
    ← List.map_map] at hnd
  exact hnd.of_map

/-- Running the distances of a solid numbered tree, and then any properties, binds every alias to
what the surface of the tree has there. -/
theorem Numbered.exists_execute (h : n.Numbered) (hsolid : n.Solid) {s : Surface V}
    (hs : n.surface I (fun position => position) = some s) (σ : Store V) (ps : List Property) :
    ∃ σ', execute I σ ((.sdf :: ps).flatMap n.published) = some σ' ∧
      ∀ p ∈ Property.sdf :: ps, σ' p.tag = some (s.get p) := by
  obtain ⟨ν, hshared, hledger⟩ := exists_carries (h.nodup_keys_ledger hs) s
  have hok : ∀ p, (n.emit .world p).failure = none := h.failure_emit hsolid .world
  have hscope : WellScoped [] ((Property.sdf :: ps).flatMap n.published) := by
    rw [List.flatMap_cons]
    refine wellScoped_append.2 ⟨wellScoped_published (hok .sdf) (absurd rfl),
      wellScoped_flatMap_published hok ?_⟩
    have hall : (n.emit .world .sdf).targets = n.declared .sdf :=
      (n.emit_declares .world .sdf).complete (hok .sdf)
    rw [published, List.map_append, ← Emission.targets, hall, List.append_assoc]
    exact List.subset_append_left _ _
  have hholds : ∀ d ∈ (Property.sdf :: ps).flatMap n.published, d.Holds I ν := by
    intro d hd
    obtain ⟨p, -, hd⟩ := List.mem_flatMap.1 hd
    exact holds_published hs hledger hshared d hd
  obtain ⟨σ', hrun, hσ'⟩ := FieldShader.exists_execute (σ := σ) hscope hholds
    fun v hv => absurd hv List.not_mem_nil
  refine ⟨σ', hrun, fun p hp => ?_⟩
  have htarget : Variable.shared p ∈
      ((Property.sdf :: ps).flatMap n.published).map Declaration.target := by
    rw [List.map_flatMap]
    exact List.mem_flatMap.2 ⟨p, hp, n.shared_mem_published p⟩
  rw [← hshared p]
  exact hσ' (.shared p) (List.mem_append_left _ htarget)

end Node

namespace Workshop

/-- **Compiling preserves meaning.** Whatever a workshop has built without a leaf that has only a
color: the lines of each property are the renderings of declarations, and for every reading of the
shading language, and any values that names have before, running the distances and then any
properties binds the alias of each of them to what the scene has there by its recursive meaning. -/
theorem compile_preserves (a : Allocator) (actions : List Action) (name : String) (n : Node)
    (hn : ((opened a).run actions).find? name = some n)
    (hsolid : ∀ m ∈ n.parts, m.category ≠ .material) :
    ∃ lines : Property → List Declaration,
      (∀ p, n.compileProperty p = .ok ((lines p).map Declaration.render)) ∧
      ∀ (V : Type u) (I : Interpretation V), ∃ s, n.surface I (fun position => position) = some s ∧
        ∀ (σ : Store V) (ps : List Property),
          ∃ σ', execute I σ ((.sdf :: ps).flatMap lines) = some σ' ∧
            ∀ p ∈ Property.sdf :: ps, σ' p.tag = some (s.get p) := by
  have hnum : n.Numbered := ((sound_opened a).run actions).numbered hn
  refine ⟨n.published, fun p => ?_, fun V I => ?_⟩
  · exact Node.compileProperty_eq_ok (hnum.failure_emit hsolid .world p)
  · obtain ⟨s, hs⟩ := hnum.exists_surface hsolid I fun position => position
    exact ⟨s, hs, hnum.exists_execute hsolid hs⟩

/-- A reading in integers, along the second axis and in halves of the unit. -/
def heights : Interpretation Int where
  literal x := if x = .one then 2 else if x = .half then 1 else 0
  fragment _ _ := 1
  position _ := 7
  vector _ y _ := y
  length x := x.natAbs
  abs x := x.natAbs
  normalize := Int.sign
  dot x y := x * y
  smin x y _ := min x y
  smax x y _ := max x y
  mix x y w := if w = 0 then x else y
  neg x := -x
  add x y := x + y
  sub x y := x - y
  div x y := x / y
  greater x y := if x > y then 1 else 0
  choose c x y := if c = 0 then y else x

/-- A sphere that is moved up, less the half-space below. -/
def dome : List Action :=
  [.shape "s" (.sphere (.number .one)) .standard, .translate "s" "s" [.up],
    .shape "g" (.ground .up) .standard, .operator "d" .difference (.number .zero) ["s", "g"]]

/-- Running the lines of `dome` in `heights`, by `compile_preserves`: the sphere is three halves
away, and the half-space is not what is seen. -/
theorem compile_preserves_dome :
    ∃ lines : Property → List Declaration,
      (∀ p, (Node.operator 2 .difference (.number .zero)
        [.transform (.translate .up) (.shape 0 (.sphere (.number .one)) .standard),
          .shape 1 (.ground .up) .standard]).compileProperty p =
            .ok ((lines p).map Declaration.render)) ∧
      ∀ σ : Store Int, ∃ σ', execute heights σ ([.sdf, .normal].flatMap lines) = some σ' ∧
        σ' "sdf" = some 3 ∧ σ' "normal" = some 1 := by
  obtain ⟨lines, hlines, hrun⟩ := compile_preserves .fresh dome "d" _ rfl (by decide)
  obtain ⟨s, hs, hexec⟩ := hrun Int heights
  have hvalue : s = ⟨3, 1, 2⟩ := (Option.some_inj.1 hs).symm
  subst hvalue
  refine ⟨lines, hlines, fun σ => ?_⟩
  obtain ⟨σ', hσ', hbound⟩ := hexec σ [.normal]
  exact ⟨σ', hσ', hbound .sdf (by decide), hbound .normal (by decide)⟩

end Workshop

end FieldShader
