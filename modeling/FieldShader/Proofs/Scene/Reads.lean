import FieldShader.Proofs.Scene.Scoping
import FieldShader.Proofs.Scene.Surface

/-!
# What emitted declarations read

`FieldShader.Proofs.Scene.Scoping` bounds what an emission reads, for trees whose distances are
known. This module says what an emission does read, whether or not it, or an emission of distances,
was cut short. A line that reads a generated variable at all reads one that the same emission has
declared before (`Node.exists_read_mem_targets`). A complete emission of a normal or a color reads
every distance of the tree but its result (`Node.exists_distance_read`), because each operand and
each step is blended by its distance; the result is the one distance that only a blend further out
would read.

When a builder's tree is emitted completely is decided by its leaves (`Node.Numbered.complete_iff`),
and a failed emission stops short of the tree's own variable
(`Node.Numbered.result_notMem_targets`).
-/

namespace FieldShader

/-! ## Steps of an operator -/

namespace OperatorKind

variable {kind : OperatorKind} {smoothing : Scalar} {p : Property} {id step acc next i : Nat}
  {operands : List Nat} {d : Declaration} {v : Variable}

/-- A step reads what was combined before it. -/
theorem mem_reads_combine (kind : OperatorKind) (smoothing : Scalar) (p : Property)
    (acc next step : Nat) :
    .numbered p acc ∈ (kind.combine smoothing p acc next step).reads := by
  cases kind <;> cases p <;> simp [combine, blend, Expr.reads]

/-- A step of a normal or a color reads the distances of its operands and its own. -/
theorem distance_mem_reads_combine (hp : p ≠ .sdf) (hi : i = acc ∨ i = next ∨ i = step) :
    .numbered .sdf i ∈ (kind.combine smoothing p acc next step).reads := by
  rcases hi with rfl | rfl | rfl <;> cases p
  case inl.sdf | inr.inl.sdf | inr.inr.sdf => exact absurd rfl hp
  all_goals cases kind <;> simp [combine, blend, remoteness, Expr.reads]

/-- Everything an operator declares after its operands reads its property and nothing else but
distances. -/
theorem reads_steps (hd : d ∈ kind.steps smoothing p id step acc operands)
    (hv : v ∈ d.value.reads) :
    (∃ i, v = .numbered p i) ∨ p ≠ .sdf ∧ ∃ i, v = .numbered .sdf i := by
  induction operands generalizing step acc with
  | nil =>
    rw [List.mem_singleton.1 hd] at hv
    exact .inl ⟨acc, List.mem_singleton.1 hv⟩
  | cons next rest ih =>
    rcases List.mem_cons.1 hd with rfl | hd
    · rcases reads_combine hv with rfl | rfl | ⟨hp, rfl | rfl | rfl⟩
      · exact .inl ⟨acc, rfl⟩
      · exact .inl ⟨next, rfl⟩
      · exact .inr ⟨hp, acc, rfl⟩
      · exact .inr ⟨hp, next, rfl⟩
      · exact .inr ⟨hp, step, rfl⟩
    · exact ih hd

/-- Every such declaration reads the first operand or an earlier step. -/
theorem exists_read_steps (hd : d ∈ kind.steps smoothing p id step acc operands) :
    ∃ i, .numbered p i ∈ d.value.reads ∧ (i = acc ∨ i ∈ List.range' step operands.length) := by
  induction operands generalizing step acc with
  | nil =>
    rw [List.mem_singleton.1 hd]
    exact ⟨acc, List.mem_singleton_self _, .inl rfl⟩
  | cons next rest ih =>
    rcases List.mem_cons.1 hd with rfl | hd
    · exact ⟨acc, kind.mem_reads_combine smoothing p acc next step, .inl rfl⟩
    · obtain ⟨i, hread, hi⟩ := ih hd
      rw [List.length_cons, List.range'_succ]
      exact ⟨i, hread, .inr (List.mem_cons.2 hi)⟩

/-- For a normal or a color the distances of all operands and of all steps are read. -/
theorem exists_distance_read_steps (kind : OperatorKind) (smoothing : Scalar)
    (id step acc : Nat) (operands : List Nat) (hp : p ≠ .sdf)
    (hi : i = acc ∧ operands ≠ [] ∨ i ∈ operands ∨ i ∈ List.range' step operands.length) :
    ∃ d ∈ kind.steps smoothing p id step acc operands, .numbered .sdf i ∈ d.value.reads := by
  induction operands generalizing step acc with
  | nil => simp at hi
  | cons next rest ih =>
    have hfirst (h : i = acc ∨ i = next ∨ i = step) :
        ∃ d ∈ kind.steps smoothing p id step acc (next :: rest), .numbered .sdf i ∈ d.value.reads :=
      ⟨_, List.mem_cons_self, distance_mem_reads_combine hp h⟩
    have hrest (h : i ∈ rest ∨ i ∈ List.range' (step + 1) rest.length) :
        ∃ d ∈ kind.steps smoothing p id step acc (next :: rest),
          .numbered .sdf i ∈ d.value.reads := by
      obtain ⟨d, hd, hread⟩ := ih (step + 1) step (.inr h)
      exact ⟨d, List.mem_cons_of_mem _ hd, hread⟩
    rw [List.length_cons, List.range'_succ, List.mem_cons, List.mem_cons] at hi
    rcases hi with ⟨rfl, -⟩ | (rfl | hi) | (rfl | hi)
    · exact hfirst (.inl rfl)
    · exact hfirst (.inr (.inl rfl))
    · exact hrest (.inl hi)
    · exact hfirst (.inr (.inr rfl))
    · exact hrest (.inr hi)

end OperatorKind

/-! ## Sequences -/

namespace Emission

variable {first second : Emission}

/-- The declarations of a sequence are those of its first part, and those of its second part if the
first one is complete. -/
theorem mem_declarations_andThen {d : Declaration} :
    d ∈ (first.andThen second).declarations ↔
      d ∈ first.declarations ∨ first.failure = none ∧ d ∈ second.declarations := by
  obtain ⟨ds, failure⟩ := first
  cases failure <;> simp [andThen]

/-- So are the variables that it declares. -/
theorem mem_targets_andThen {v : Variable} :
    v ∈ (first.andThen second).targets ↔
      v ∈ first.targets ∨ first.failure = none ∧ v ∈ second.targets := by
  obtain ⟨ds, failure⟩ := first
  cases failure <;> simp [andThen, targets]

end Emission

namespace Node

variable {space : Space} {p : Property} {d : Declaration} {v : Variable}

/-- Of several trees that are emitted completely, everything is emitted. -/
theorem mem_declarations_emitAll {ns : List Node} {n : Node}
    (h : (emitAll space p ns).failure = none) (hn : n ∈ ns)
    (hd : d ∈ (n.emit space p).declarations) : d ∈ (emitAll space p ns).declarations := by
  induction ns with
  | nil => cases hn
  | cons m ns ih =>
    rw [emitAll, Emission.failure_andThen_eq_none] at h
    rw [emitAll, Emission.mem_declarations_andThen]
    rcases List.mem_cons.1 hn with rfl | hn
    · exact .inl hd
    · exact .inr ⟨h.1, ih h.2 hn⟩

/-! ## Whole trees -/

/-- An emission reads its own property and nothing else but distances. -/
theorem reads_emit {n : Node} (hd : d ∈ (n.emit space p).declarations)
    (hv : v ∈ d.value.reads) :
    (∃ i, v = .numbered p i) ∨ p ≠ .sdf ∧ ∃ i, v = .numbered .sdf i := by
  induction n using recTree generalizing space with
  | shape id primitive finish =>
    cases p <;>
      · rw [List.mem_singleton.1 hd] at hv
        simp at hv
  | material id finish =>
    cases p with
    | color =>
      rw [List.mem_singleton.1 hd] at hv
      simp at hv
    | sdf => cases hd
    | normal => cases hd
  | transform mapping child ih => exact @ih (space.push mapping) hd
  | operator id kind smoothing children ih =>
    rw [emit] at hd
    split at hd
    · cases hd
    · rcases Emission.mem_andThen hd with hd | hd
      · obtain ⟨c, hc, hd⟩ := mem_emitAll hd
        exact ih c hc hd
      · cases children with
        | nil => cases hd
        | cons first rest => exact OperatorKind.reads_steps hd hv

/-- Among several trees a line that reads anything reads a variable declared by one of them, if
that holds of each tree. -/
theorem exists_read_mem_targets_emitAll {ns : List Node}
    (h : ∀ n ∈ ns, ∀ d ∈ (n.emit space p).declarations, d.value.reads ≠ [] →
      ∃ v ∈ d.value.reads, v ∈ (n.emit space p).targets)
    (hd : d ∈ (emitAll space p ns).declarations) (hne : d.value.reads ≠ []) :
    ∃ v ∈ d.value.reads, v ∈ (emitAll space p ns).targets := by
  induction ns with
  | nil => cases hd
  | cons n ns ih =>
    rw [emitAll, Emission.mem_declarations_andThen] at hd
    rw [emitAll]
    rcases hd with hd | ⟨hok, hd⟩
    · obtain ⟨v, hv, hmem⟩ := h n List.mem_cons_self d hd hne
      exact ⟨v, hv, Emission.mem_targets_andThen.2 (.inl hmem)⟩
    · obtain ⟨v, hv, hmem⟩ := ih (fun m hm => h m (List.mem_cons_of_mem _ hm)) hd
      exact ⟨v, hv, Emission.mem_targets_andThen.2 (.inr ⟨hok, hmem⟩)⟩

/-- **A line that reads a generated variable reads one of its own emission**, even if the emission
fails further on. -/
theorem exists_read_mem_targets {n : Node} (hd : d ∈ (n.emit space p).declarations)
    (hne : d.value.reads ≠ []) : ∃ v ∈ d.value.reads, v ∈ (n.emit space p).targets := by
  induction n using recTree generalizing space d with
  | shape id primitive finish =>
    cases p <;>
      · rw [List.mem_singleton.1 hd] at hne
        simp at hne
  | material id finish =>
    cases p with
    | color =>
      rw [List.mem_singleton.1 hd] at hne
      simp at hne
    | sdf => cases hd
    | normal => cases hd
  | transform mapping child ih => exact @ih (space.push mapping) d hd hne
  | operator id kind smoothing children ih =>
    rw [emit] at hd ⊢
    split at hd
    · cases hd
    · rename_i harity
      rw [if_neg harity]
      rcases Emission.mem_declarations_andThen.1 hd with hd | ⟨hok, hd⟩
      · obtain ⟨v, hv, hmem⟩ := exists_read_mem_targets_emitAll
          (fun c hc d hd hne => ih c hc hd hne) hd hne
        exact ⟨v, hv, Emission.mem_targets_andThen.2 (.inl hmem)⟩
      · cases children with
        | nil => cases hd
        | cons first rest =>
          obtain ⟨i, hread, hi⟩ := OperatorKind.exists_read_steps hd
          refine ⟨_, hread, Emission.mem_targets_andThen.2 ?_⟩
          rcases hi with rfl | hi
          · exact .inl (result_mem_targets_emitAll hok
              (failure_emitAll_eq_none.1 hok first List.mem_cons_self) List.mem_cons_self)
          · refine .inr ⟨hok, ?_⟩
            have hsteps := kind.targets_steps smoothing p id (id + 1) first.id (rest.map Node.id)
            have hmem : Variable.numbered p i ∈
                (kind.steps smoothing p id (id + 1) first.id (rest.map Node.id)).map
                  Declaration.target := by
              rw [hsteps]
              exact List.mem_append_left _ (List.mem_map_of_mem hi)
            exact hmem

/-- **A complete emission of a normal or a color reads every distance of the tree but its result**,
which only a blend around the tree would read. -/
theorem exists_distance_read {n : Node} (hp : p ≠ .sdf) (hok : (n.emit space p).failure = none)
    (hv : v ∈ n.declared .sdf) (hne : v ≠ n.result .sdf) :
    ∃ d ∈ (n.emit space p).declarations, v ∈ d.value.reads := by
  induction n using recTree generalizing space with
  | shape id primitive finish => exact absurd (List.mem_singleton.1 hv) hne
  | material id finish => cases hv
  | transform mapping child ih => exact @ih (space.push mapping) hok hv hne
  | operator id kind smoothing children ih =>
    obtain ⟨harity, hchildren⟩ := failure_emit_operator hok
    have hall : (emitAll space p children).failure = none := failure_emitAll_eq_none.2 hchildren
    rw [emit, if_neg (by omega)]
    have hfold (d : Declaration) (hd : d ∈ kind.fold smoothing p id (children.map Node.id))
        (hv : v ∈ d.value.reads) : ∃ d ∈ ((emitAll space p children).andThen
          (.ok (kind.fold smoothing p id (children.map Node.id)))).declarations,
            v ∈ d.value.reads :=
      ⟨d, Emission.mem_declarations_andThen.2 (.inr ⟨hall, hd⟩), hv⟩
    obtain ⟨first, rest, rfl⟩ : ∃ first rest, children = first :: rest := by
      cases children with
      | nil => simp at harity
      | cons first rest => exact ⟨first, rest, rfl⟩
    have hrest : rest ≠ [] := by
      rintro rfl
      simp at harity
    rw [declared, List.mem_append, List.mem_append, declaredAll_eq_flatMap, List.mem_flatMap]
      at hv
    rcases hv with (⟨c, hc, hv⟩ | hv) | hv
    · by_cases hresult : v = c.result .sdf
      · -- The result of an operand is blended by the operator.
        subst hresult
        have hoperand : c.id = first.id ∧ rest.map Node.id ≠ [] ∨ c.id ∈ rest.map Node.id ∨
            c.id ∈ List.range' (id + 1) (rest.map Node.id).length := by
          rcases List.mem_cons.1 hc with rfl | hc
          · exact .inl ⟨rfl, by simpa using hrest⟩
          · exact .inr (.inl (List.mem_map_of_mem hc))
        obtain ⟨d, hd, hread⟩ := OperatorKind.exists_distance_read_steps kind smoothing id (id + 1)
          first.id (rest.map Node.id) hp hoperand
        exact hfold d hd hread
      · obtain ⟨d, hd, hread⟩ := ih c hc (hchildren c hc) hv hresult
        exact ⟨d, Emission.mem_declarations_andThen.2
          (.inl (mem_declarations_emitAll hall hc hd)), hread⟩
    · obtain ⟨k, hk, rfl⟩ := List.mem_map.1 hv
      have hstep : id + 1 + k ∈ List.range' (id + 1) (rest.map Node.id).length := by
        rw [List.mem_range, List.length_cons] at hk
        rw [List.mem_range'_1, List.length_map]
        omega
      obtain ⟨d, hd, hread⟩ := OperatorKind.exists_distance_read_steps kind smoothing id (id + 1)
        first.id (rest.map Node.id) hp (.inr (.inr hstep))
      exact hfold d hd hread
    · exact absurd (List.mem_singleton.1 hv) hne

/-! ## Trees of a builder -/

/-- A tree is solid when its subtrees are: an operator is none of the leaves that are not. -/
theorem solid_operator {id : Nat} {kind : OperatorKind} {smoothing : Scalar}
    {children : List Node} :
    (operator id kind smoothing children).Solid ↔ ∀ c ∈ children, c.Solid := by
  refine ⟨fun h c hc => h.operand hc, fun h m hm => ?_⟩
  rcases mem_parts_operator.1 hm with rfl | ⟨c, hc, hm⟩
  · nofun
  · exact h c hc m hm

/-- **When a builder's tree is emitted completely**: its color always, and its distance and its
normal unless it has a leaf that has only a color. -/
theorem Numbered.complete_iff {n : Node} (h : n.Numbered) (space : Space) (p : Property) :
    (n.emit space p).failure = none ↔ p = .color ∨ n.Solid := by
  induction h generalizing space with
  | shape id primitive finish =>
    have hsolid : (Node.shape id primitive finish).Solid := by
      intro m hm
      rw [List.mem_singleton.1 hm]
      nofun
    exact iff_of_true (by cases p <;> rfl) (.inr hsolid)
  | material id finish =>
    cases p with
    | color => exact iff_of_true rfl (.inl rfl)
    | sdf | normal => exact iff_of_false nofun fun h => Solid.not_material (h.resolve_left nofun)
  | @transform child mapping _ ih =>
    have hsolid : (Node.transform mapping child).Solid ↔ child.Solid := by
      refine ⟨fun h => h.child, fun h m hm => ?_⟩
      rcases mem_parts_transform.1 hm with rfl | hm
      · nofun
      · exact h m hm
    rw [hsolid]
    exact ih (space.push mapping)
  | @operator children id kind smoothing harity _ _ _ ih =>
    rw [emit, if_neg (by omega), Emission.failure_andThen_eq_none, failure_emitAll_eq_none,
      solid_operator]
    constructor
    · intro hok
      by_cases hp : p = .color
      · exact .inl hp
      · exact .inr fun c hc => ((ih c hc space).1 (hok.1 c hc)).resolve_left hp
    · intro hsolid
      exact ⟨fun c hc => (ih c hc space).2 (hsolid.imp_right fun h => h c hc), rfl⟩

/-- A failed emission of a builder's tree stops short of the tree's own variable. -/
theorem Numbered.result_notMem_targets {n : Node} (h : n.Numbered)
    (hfail : (n.emit space p).failure ≠ none) : n.result p ∉ (n.emit space p).targets := by
  induction h generalizing space with
  | shape id primitive finish => exact absurd (by cases p <;> rfl) hfail
  | material id finish =>
    cases p with
    | color => exact absurd rfl hfail
    | sdf => nofun
    | normal => nofun
  | transform mapping _ ih => exact @ih (space.push mapping) hfail
  | @operator children id kind smoothing harity hnumbered _ hbelow _ =>
    rw [emit, if_neg (by omega)] at hfail ⊢
    intro hmem
    rcases Emission.mem_targets_andThen.1 hmem with hmem | ⟨hok, -⟩
    · -- What the operands declare has numbers below the operator's.
      have hdeclared := (emitAll_declares fun c _ => c.emit_declares space p).initial.subset hmem
      rw [declaredAll_eq_flatMap] at hdeclared
      obtain ⟨c, hc, hv⟩ := List.mem_flatMap.1 hdeclared
      obtain ⟨i, hi, heq⟩ := (hnumbered c hc).mem_ids_of_mem_declared hv
      have hlt := hbelow i (mem_idsAll.2 ⟨c, hc, hi⟩)
      have hid : i = id := by
        cases heq
        rfl
      omega
    · exact hfail (Emission.failure_andThen_eq_none.2 ⟨hok, rfl⟩)

end Node

end FieldShader
