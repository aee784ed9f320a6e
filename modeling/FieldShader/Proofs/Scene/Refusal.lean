import FieldShader.Proofs.Scene.Outline

/-!
# Which descriptions are refused

An operator over fewer than two operands is short of them (`Description.shortage?`), and that is
the only thing that can be wrong with a description while identifiers last.
`Description.build_characterized` says what building makes of such operators: it is refused because
of the one that comes first in preorder (`Description.FirstShortage`), although operands are built
before the operator over them gets its identifiers. What is gone then are the identifiers of the
descriptions to the left of the way to that operator, each of which was built completely.

The number of operands is checked where an operator is built from a description, where it is
constructed from nodes that exist, and where it is compiled. The first check leaves nothing to the
second one (`Description.buildWith_eq`), and the first and the third answer alike
(`Node.firstShortage_describe`).
-/

namespace FieldShader

namespace Description

variable {d c : Description} {a a' : Allocator} {kind : OperatorKind} {count k : Nat}
  {π ρ : List Nat}

/-! ## Operators that are short of operands -/

/-- The kind and the number of operands of an operator that has too few. -/
def shortage? : Description → Option (OperatorKind × Nat)
  | .shape .. | .material .. | .translate .. => none
  | .operator kind _ operands =>
    if operands.length < 2 then some (kind, operands.length) else none

/-- The first operator in preorder that has too few operands: its position, its kind and how many
it has. -/
structure FirstShortage (d : Description) (π : List Nat) (kind : OperatorKind) (count : Nat) :
    Prop where
  short : (d.at? π).bind shortage? = some (kind, count)
  earlier : ∀ ρ < π, (d.at? ρ).bind shortage? = none

/-- The parts of a description in preorder: itself, and then those of the descriptions below. -/
theorem parts_eq_cons (d : Description) : d.parts = d :: partsAll d.children := by
  cases d <;> simp [parts, partsAll, children]

/-- The parts of a description below are parts. -/
theorem parts_subset (hc : c ∈ d.children) : c.parts ⊆ d.parts := by
  intro m hm
  rw [parts_eq_cons d, partsAll_eq_flatMap]
  exact List.mem_cons_of_mem _ (List.mem_flatMap.2 ⟨c, hc, hm⟩)

/-- Every part has a position. -/
theorem exists_at?_of_mem_parts {m : Description} (h : m ∈ d.parts) : ∃ π, d.at? π = some m := by
  induction d using recTree with
  | shape | material =>
    obtain rfl := List.mem_singleton.1 h
    exact ⟨[], rfl⟩
  | translate offset child ih =>
    rcases List.mem_cons.1 h with rfl | h
    · exact ⟨[], rfl⟩
    · obtain ⟨π, hπ⟩ := ih h
      exact ⟨0 :: π, hπ⟩
  | operator kind smoothing operands ih =>
    rw [parts, partsAll_eq_flatMap] at h
    rcases List.mem_cons.1 h with rfl | h
    · exact ⟨[], rfl⟩
    · obtain ⟨c, hc, hm⟩ := List.mem_flatMap.1 h
      obtain ⟨π, hπ⟩ := ih c hc hm
      obtain ⟨k, hk⟩ := List.mem_iff_getElem?.1 hc
      exact ⟨k :: π, by rw [at?, children, hk, Option.bind_some, hπ]⟩

namespace FirstShortage

/-- What lies before the operator on the way to it is in order: the description itself, and
everything in the descriptions to the left. -/
theorem cons_inv (h : d.FirstShortage (k :: π) kind count) : d.shortage? = none ∧
    ∃ c, d.children[k]? = some c ∧ c.FirstShortage π kind count ∧
      ∀ b ∈ d.children.take k, ∀ m ∈ b.parts, m.shortage? = none := by
  obtain ⟨m, hm, hshort⟩ := Option.bind_eq_some_iff.1 h.short
  obtain ⟨c, hc, hm⟩ := Option.bind_eq_some_iff.1 hm
  have hat (ρ : List Nat) : d.at? (k :: ρ) = c.at? ρ := by rw [at?, hc, Option.bind_some]
  refine ⟨h.earlier [] (List.nil_lt_cons k π), c, hc,
    ⟨by rw [hm, Option.bind_some, hshort], fun ρ hρ => ?_⟩, fun b hb m' hm' => ?_⟩
  · rw [← hat]
    exact h.earlier _ (List.cons_lt_cons_iff.2 (.inr ⟨rfl, hρ⟩))
  · obtain ⟨j, hj⟩ := List.mem_iff_getElem?.1 hb
    rw [List.getElem?_take] at hj
    obtain ⟨hjk, hj⟩ := Option.ite_none_right_eq_some.1 hj
    obtain ⟨ρ, hρ⟩ := exists_at?_of_mem_parts hm'
    have hnone := h.earlier (j :: ρ) (List.cons_lt_cons_iff.2 (.inl hjk))
    rwa [at?, hj, Option.bind_some, hρ, Option.bind_some] at hnone

/-- All descriptions to the left of the way to the operator are in order. -/
theorem leftOf (h : d.FirstShortage π kind count) :
    ∀ b ∈ d.leftOf π, ∀ m ∈ b.parts, m.shortage? = none := by
  induction π generalizing d with
  | nil => nofun
  | cons k π ih =>
    obtain ⟨-, c, hc, hfirst, hleft⟩ := h.cons_inv
    intro b hb
    rw [Description.leftOf, hc, List.mem_append] at hb
    exact hb.elim (hleft b) (ih hfirst b)

end FirstShortage

/-! ## Descriptions that are built -/

/-- Wherever the identifiers of the description fit, it is built and takes them. -/
def Buildable (d : Description) : Prop :=
  ∀ a : Allocator, a.next + d.size ≤ identifierLimit →
    ∃ n a', d.build a = .ok n a' ∧ a'.next = a.next + d.size

/-- Wherever the identifiers of the description fit, it is refused, after so many of them. -/
def RefusedAfter (d : Description) (e : BuildError) (taken : Nat) : Prop :=
  ∀ a : Allocator, a.next + d.size ≤ identifierLimit →
    ∃ a', d.build a = .error e a' ∧ a'.next = a.next + taken

/-- Of descriptions that can be built, all are. -/
theorem exists_buildAll {ds : List Description} (h : ∀ d ∈ ds, d.Buildable)
    (hroom : a.next + (ds.map size).sum ≤ identifierLimit) :
    ∃ ns a', buildAll ds a = .ok ns a' ∧ ns.length = ds.length ∧
      a'.next = a.next + (ds.map size).sum := by
  induction ds generalizing a with
  | nil => exact ⟨[], a, rfl, rfl, rfl⟩
  | cons d ds ih =>
    rw [List.map_cons, List.sum_cons] at hroom ⊢
    obtain ⟨n, a₁, hn, hnext⟩ := h d List.mem_cons_self a (by omega)
    obtain ⟨ns, a₂, hns, hlength, hnexts⟩ :=
      ih (fun d hd => h d (List.mem_cons_of_mem _ hd)) (a := a₁) (by omega)
    refine ⟨n :: ns, a₂, ?_, by rw [List.length_cons, hlength, List.length_cons], by omega⟩
    rw [buildAll]
    exact Build.bind_eq_ok.2 ⟨n, a₁, hn, Build.bind_eq_ok.2 ⟨ns, a₂, hns, rfl⟩⟩

/-- A description that is refused ends the building of several, after those before it. -/
theorem exists_buildAll_error {ds : List Description} {e : BuildError} {taken : Nat}
    (hd : ds[k]? = some d) (hrefused : d.RefusedAfter e taken)
    (hleft : ∀ b ∈ ds.take k, b.Buildable)
    (hroom : a.next + (ds.map size).sum ≤ identifierLimit) :
    ∃ a', buildAll ds a = .error e a' ∧
      a'.next = a.next + (((ds.take k).map size).sum + taken) := by
  induction ds generalizing a k with
  | nil => cases hd
  | cons b ds ih =>
    rw [List.map_cons, List.sum_cons] at hroom
    cases k with
    | zero =>
      cases hd
      obtain ⟨a', herror, hnext⟩ := hrefused a (by omega)
      refine ⟨a', ?_, by simpa using hnext⟩
      rw [buildAll]
      exact Build.bind_eq_error.2 (.inl herror)
    | succ k =>
      rw [List.take_succ_cons] at hleft ⊢
      rw [List.map_cons, List.sum_cons]
      obtain ⟨n, a₁, hn, hnext⟩ := hleft b List.mem_cons_self a (by omega)
      obtain ⟨a', herror, hnext'⟩ :=
        ih (a := a₁) (by simpa using hd) (fun c hc => hleft c (List.mem_cons_of_mem _ hc))
          (by omega)
      refine ⟨a', ?_, by omega⟩
      rw [buildAll]
      exact Build.bind_eq_error.2 (.inr ⟨n, a₁, hn, Build.bind_eq_error.2 (.inl herror)⟩)

/-- A leaf can be built. -/
theorem exists_leaf (leaf : Nat → Node) (hroom : a.next + 1 ≤ identifierLimit) :
    ∃ n a', (do return leaf (← Build.reserve 1) : Build Node) a = .ok n a' ∧
      a'.next = a.next + 1 := by
  obtain ⟨a', hreserve, hnext⟩ := Build.exists_reserve Nat.one_ne_zero hroom
  exact ⟨leaf a.next, a', Build.bind_eq_ok.2 ⟨_, a', hreserve, rfl⟩, hnext⟩

/-- **A description that is in order can be built.** -/
theorem buildable (h : ∀ m ∈ d.parts, m.shortage? = none) : d.Buildable := by
  induction d using recTree with
  | shape primitive given => exact fun a hroom => exists_leaf (.shape · primitive _) hroom
  | material color => exact fun a hroom => exists_leaf (.material · _) hroom
  | translate offset child ih =>
    intro a hroom
    rw [size_translate] at hroom ⊢
    obtain ⟨n, a', hbuild, hnext⟩ :=
      ih (fun m hm => h m (parts_subset List.mem_cons_self hm)) a hroom
    exact ⟨n.translate offset, a', Build.bind_eq_ok.2 ⟨n, a', hbuild, rfl⟩, hnext⟩
  | operator kind smoothing operands ih =>
    intro a hroom
    rw [size_operator] at hroom ⊢
    have harity : ¬operands.length < 2 := by
      intro hlt
      have hnone := h _ (by rw [parts_eq_cons]; exact List.mem_cons_self)
      rw [shortage?, if_pos hlt] at hnone
      cases hnone
    obtain ⟨ns, a₁, hns, hlength, hnext₁⟩ := exists_buildAll
      (fun c hc => ih c hc fun m hm => h m (parts_subset hc hm)) (a := a) (by omega)
    obtain ⟨a', hreserve, hnext⟩ : ∃ a', Build.reserve ns.length a₁ = .ok a₁.next a' ∧
        a'.next = a₁.next + ns.length := Build.exists_reserve (by omega) (by omega)
    refine ⟨.operator a₁.next kind smoothing ns, a', ?_, by omega⟩
    rw [build, if_neg harity]
    refine Build.bind_eq_ok.2 ⟨ns, a₁, hns, ?_⟩
    rw [Build.operator, if_neg (by omega)]
    exact Build.bind_eq_ok.2 ⟨_, a', hreserve, rfl⟩

/-- **A description that is not is refused** because of its first operator that is short of
operands, after everything to the left of the way there. -/
theorem FirstShortage.refused (h : d.FirstShortage π kind count) :
    d.RefusedAfter (.tooFewChildren kind.name count) ((d.leftOf π).map size).sum := by
  induction π generalizing d with
  | nil =>
    intro a _
    have hshort : d.shortage? = some (kind, count) := h.short
    cases d with
    | shape | material | translate => cases hshort
    | operator kind' smoothing operands =>
      rw [shortage?] at hshort
      split at hshort
      · rename_i harity
        cases hshort
        refine ⟨a, ?_, rfl⟩
        rw [build, if_pos harity]
        rfl
      · cases hshort
  | cons k π ih =>
    intro a hroom
    obtain ⟨hself, c, hc, hfirst, hleft⟩ := h.cons_inv
    rw [Description.leftOf, hc, List.map_append, List.sum_append]
    cases d with
    | shape | material => cases hc
    | translate offset child =>
      obtain ⟨rfl, rfl⟩ : k = 0 ∧ child = c := by
        cases k with
        | zero => exact ⟨rfl, Option.some.inj hc⟩
        | succ k => cases hc
      rw [size_translate] at hroom
      obtain ⟨a', herror, hnext⟩ := ih hfirst a hroom
      refine ⟨a', Build.bind_eq_error.2 (.inl herror), ?_⟩
      rw [hnext]
      simp
    | operator kind' smoothing operands =>
      have harity : ¬operands.length < 2 := by
        intro hlt
        rw [shortage?, if_pos hlt] at hself
        cases hself
      rw [size_operator] at hroom
      have hroom' : a.next + (operands.map size).sum ≤ identifierLimit := by omega
      obtain ⟨a', herror, hnext⟩ := exists_buildAll_error hc (ih hfirst)
        (fun b hb => buildable (hleft b hb)) hroom'
      refine ⟨a', ?_, hnext⟩
      rw [build, if_neg harity]
      exact Build.bind_eq_error.2 (.inl herror)

/-! ## The check of the constructor -/

mutual

/-- Building with a constructor of operators other than `Build.operator`. -/
def buildWith (construct : OperatorKind → Scalar → List Node → Build Node) :
    Description → Build Node
  | .shape primitive given => Build.shape primitive (.ofMaterial? given)
  | .material color => Build.material (.custom ⟨color⟩)
  | .translate offset child => do return (← child.buildWith construct).translate offset
  | .operator kind smoothing children =>
    if children.length < 2 then throw (.tooFewChildren kind.name children.length)
    else do construct kind smoothing (← buildAllWith construct children)

/-- Building several scenes with a constructor of operators. -/
def buildAllWith (construct : OperatorKind → Scalar → List Node → Build Node) :
    List Description → Build (List Node)
  | [] => return []
  | d :: ds => do
    let n ← d.buildWith construct
    return n :: (← buildAllWith construct ds)

end

/-- Several scenes are built as they are with `Build.operator`, if each of them is. -/
theorem buildAllWith_eq {construct : OperatorKind → Scalar → List Node → Build Node}
    {ds : List Description} (h : ∀ d ∈ ds, d.buildWith construct = d.build) :
    buildAllWith construct ds = buildAll ds := by
  induction ds with
  | nil => rfl
  | cons d ds ih =>
    rw [buildAllWith, buildAll, h d List.mem_cons_self,
      ih fun c hc => h c (List.mem_cons_of_mem _ hc)]

/-- **What the constructor does with fewer than two operands never matters.** -/
theorem buildWith_eq {construct : OperatorKind → Scalar → List Node → Build Node}
    (h : ∀ kind smoothing ns, 2 ≤ ns.length →
      construct kind smoothing ns = Build.operator kind smoothing ns) (d : Description) :
    d.buildWith construct = d.build := by
  induction d using recTree with
  | shape | material => rfl
  | translate offset child ih => rw [buildWith, build, ih]
  | operator kind smoothing operands ih =>
    rw [buildWith, build, buildAllWith_eq ih]
    split
    · rfl
    · rename_i harity
      funext a
      show EStateM.bind _ _ a = EStateM.bind _ _ a
      unfold EStateM.bind
      split
      · rename_i ns a₁ hns
        have hlength := (buildAll_forest (fun d _ => build_forest) hns).1
        exact congrFun (h kind smoothing ns (by omega)) a₁
      · rfl

end Description

/-! ## The check of the compiler -/

/-- An operator is known by its word. -/
theorem OperatorKind.name_injective : Function.Injective OperatorKind.name := by
  intro kind kind' h
  cases kind <;> cases kind' <;> first | rfl | exact absurd h (by decide)

namespace Node

variable {n : Node} {kind : OperatorKind} {count : Nat} {π : List Nat}

/-- The color of a node is only refused for want of operands, which its description shows. -/
theorem defect?_color_eq (n : Node) : n.defect? .color =
    n.describe.shortage?.map fun x => .tooFewOperands x.1 x.2 := by
  cases n with
  | shape | material => rfl
  | transform mapping child =>
    obtain ⟨offset⟩ := mapping
    rfl
  | operator id kind smoothing operands =>
    rw [defect?, describe, Description.shortage?, describeAll_eq_map, List.length_map]
    split <;> rfl

/-- Nothing is wrong with the color of a tree exactly when its description is in order. -/
theorem color_sound_iff : (∀ m ∈ n.parts, m.defect? .color = none) ↔
    ∀ m ∈ n.describe.parts, m.shortage? = none := by
  rw [parts_describe]
  simp only [List.forall_mem_map, defect?_color_eq, Option.map_eq_none_iff]

/-- **A description lacks operands first where the color of its scene fails first.** -/
theorem firstShortage_describe : n.describe.FirstShortage π kind count ↔
    n.FirstDefect .color π (.tooFewOperands kind count) := by
  have hat (ρ : List Nat) : (n.at? ρ).bind (defect? .color) =
      ((n.describe.at? ρ).bind Description.shortage?).map fun x => .tooFewOperands x.1 x.2 := by
    rw [at?_describe]
    cases n.at? ρ with
    | none => rfl
    | some m => exact m.defect?_color_eq
  constructor
  · rintro ⟨hshort, hearlier⟩
    exact ⟨by rw [hat, hshort]; rfl, fun ρ hρ => by rw [hat, hearlier ρ hρ]; rfl⟩
  · rintro ⟨hdefect, hearlier⟩
    refine ⟨?_, fun ρ hρ => ?_⟩
    · rw [hat] at hdefect
      obtain ⟨⟨kind', count'⟩, hshort, heq⟩ := Option.map_eq_some_iff.1 hdefect
      cases heq
      exact hshort
    · have hnone := hearlier ρ hρ
      rwa [hat, Option.map_eq_none_iff] at hnone

/-- A tree fails with its first defect, wherever that is. -/
theorem FirstDefect.failure_emit {p : Property} {e : CompileError} (h : n.FirstDefect p π e)
    (space : Space) : (n.emit space p).failure = some e := by
  obtain ⟨m, hm, hdefect⟩ := Option.bind_eq_some_iff.1 h.defective
  obtain ⟨e', he'⟩ := exists_failure_emit space (mem_parts_of_at? hm)
    (Option.ne_none_iff_exists'.2 ⟨e, hdefect⟩)
  obtain ⟨π', hfirst, -, -⟩ := exists_firstDefect he'
  rw [he', (h.unique hfirst).2]

/-- **The color of a tree fails with the first shortage of its description.** -/
theorem failure_color_eq_some_iff {e : CompileError} {space : Space} :
    (n.emit space .color).failure = some e ↔
      ∃ π kind count, n.describe.FirstShortage π kind count ∧ e = .tooFewOperands kind count := by
  constructor
  · intro h
    obtain ⟨π, hfirst, -, -⟩ := exists_firstDefect h
    obtain ⟨m, -, hm⟩ := Option.bind_eq_some_iff.1 hfirst.defective
    rw [defect?_color_eq] at hm
    obtain ⟨⟨kind, count⟩, -, rfl⟩ := Option.map_eq_some_iff.1 hm
    exact ⟨π, kind, count, firstShortage_describe.2 hfirst, rfl⟩
  · rintro ⟨π, kind, count, hfirst, rfl⟩
    exact (firstShortage_describe.1 hfirst).failure_emit space

end Node

/-! ## The outcome of a build -/

namespace Description

variable {d : Description} {a : Allocator}

/-- A description that is not in order has a first operator that is short of operands. -/
theorem exists_firstShortage (h : ¬∀ m ∈ d.parts, m.shortage? = none) :
    ∃ π kind count, d.FirstShortage π kind count := by
  obtain ⟨n, rfl⟩ := d.exists_describe
  rw [← Node.color_sound_iff] at h
  push Not at h
  obtain ⟨m, hm, hdefect⟩ := h
  obtain ⟨e, he⟩ := Node.exists_failure_emit .world hm hdefect
  obtain ⟨π, kind, count, hfirst, -⟩ := Node.failure_color_eq_some_iff.1 he
  exact ⟨π, kind, count, hfirst⟩

/-- With room for its identifiers, a description is refused only because of its first operator that
is short of operands. -/
theorem exists_build_error_iff (hroom : a.next + d.size ≤ identifierLimit) {e : BuildError} :
    (∃ a', d.build a = .error e a') ↔
      ∃ π kind count, d.FirstShortage π kind count ∧ e = .tooFewChildren kind.name count := by
  constructor
  · rintro ⟨a', h⟩
    by_cases hall : ∀ m ∈ d.parts, m.shortage? = none
    · obtain ⟨n, a₁, hbuild, -⟩ := buildable hall a hroom
      cases hbuild.symm.trans h
    · obtain ⟨π, kind, count, hfirst⟩ := exists_firstShortage hall
      obtain ⟨a₁, herror, -⟩ := hfirst.refused a hroom
      cases herror.symm.trans h
      exact ⟨π, kind, count, hfirst, rfl⟩
  · rintro ⟨π, kind, count, hfirst, rfl⟩
    obtain ⟨a', herror, -⟩ := hfirst.refused a hroom
    exact ⟨a', herror⟩

/-- With room for its identifiers, a description that is built is in order. -/
theorem sound_of_build (hroom : a.next + d.size ≤ identifierLimit) {n : Node} {a' : Allocator}
    (h : d.build a = .ok n a') : ∀ m ∈ d.parts, m.shortage? = none := by
  by_contra hall
  obtain ⟨π, kind, count, hfirst⟩ := exists_firstShortage hall
  obtain ⟨a₁, herror, -⟩ := hfirst.refused a hroom
  cases herror.symm.trans h

/-- **Which descriptions are refused, and when.** Let there be room for the identifiers of a
description. It can be built exactly when every operator in it has two operands, and then takes
these identifiers. Otherwise there is a first operator in preorder that has fewer; the build is
refused with its kind and its number of operands, and what is gone are the identifiers of the
descriptions to the left of the way there, all of them in order. Building never gives identifiers
back, and never leaves it to the constructor of operators to count operands. And for every scene
that has this description, built or assembled by hand, the color fails exactly when the build is
refused, with the same kind and number. -/
theorem build_characterized (d : Description) (a : Allocator)
    (hroom : a.next + d.size ≤ identifierLimit) :
    ((∃ n a', d.build a = .ok n a') ↔ ∀ m ∈ d.parts, m.shortage? = none) ∧
    (∀ n a', d.build a = .ok n a' → a'.next = a.next + d.size) ∧
    ((∃ e a', d.build a = .error e a') ↔ ∃ π kind count, d.FirstShortage π kind count) ∧
    (∀ π kind count, d.FirstShortage π kind count →
      (∀ b ∈ d.leftOf π, ∀ m ∈ b.parts, m.shortage? = none) ∧
      ∃ e a', d.build a = .error e a' ∧ e = .tooFewChildren kind.name count ∧
        e.message = kind.name ++ " needs at least two children, got " ++ toString count ∧
        a'.next = a.next + ((d.leftOf π).map size).sum) ∧
    Build.Grows d.build ∧
    (∀ construct, (∀ kind smoothing ns, 2 ≤ ns.length →
        construct kind smoothing ns = Build.operator kind smoothing ns) →
      d.buildWith construct = d.build) ∧
    ∀ n : Node, n.describe = d → ∀ space l,
      ((∃ e a', d.build a = .error e a') ↔ (n.compile space .color l).2 ≠ none) ∧
      ∀ kind count, (∃ a', d.build a = .error (.tooFewChildren kind.name count) a') ↔
        (n.compile space .color l).2 = some (.tooFewOperands kind count) := by
  refine ⟨⟨?_, fun h => ?_⟩, fun n a' h => ?_, ⟨?_, ?_⟩, fun π kind count hfirst => ?_,
    d.build_grows, fun construct h => buildWith_eq h d, ?_⟩
  · rintro ⟨n, a', h⟩
    exact sound_of_build hroom h
  · obtain ⟨n, a', hbuild, -⟩ := buildable h a hroom
    exact ⟨n, a', hbuild⟩
  · obtain ⟨m, a₁, hbuild, hnext⟩ := buildable (sound_of_build hroom h) a hroom
    cases hbuild.symm.trans h
    exact hnext
  · rintro ⟨e, h⟩
    obtain ⟨π, kind, count, hfirst, -⟩ := (exists_build_error_iff hroom).1 h
    exact ⟨π, kind, count, hfirst⟩
  · rintro ⟨π, kind, count, hfirst⟩
    exact ⟨_, (exists_build_error_iff hroom).2 ⟨π, kind, count, hfirst, rfl⟩⟩
  · obtain ⟨a', herror, hnext⟩ := hfirst.refused a hroom
    exact ⟨hfirst.leftOf, _, a', herror, rfl, rfl, hnext⟩
  · -- A refused build and a failed color go back to the same shortage.
    rintro n rfl space l
    have hcolor {e} : (n.compile space .color l).2 = some e ↔ _ := Node.failure_color_eq_some_iff
    refine ⟨⟨?_, fun h => ?_⟩, fun kind count => ?_⟩
    · rintro ⟨e, h⟩
      obtain ⟨π, kind, count, hfirst, -⟩ := (exists_build_error_iff hroom).1 h
      rw [hcolor.2 ⟨π, kind, count, hfirst, rfl⟩]
      nofun
    · obtain ⟨e, he⟩ := Option.ne_none_iff_exists'.1 h
      obtain ⟨π, kind, count, hfirst, -⟩ := hcolor.1 he
      exact ⟨_, (exists_build_error_iff hroom).2 ⟨π, kind, count, hfirst, rfl⟩⟩
    · rw [exists_build_error_iff hroom, hcolor]
      constructor
      · rintro ⟨π, kind', count', hfirst, heq⟩
        obtain ⟨hname, rfl⟩ := BuildError.tooFewChildren.inj heq
        obtain rfl := OperatorKind.name_injective hname
        exact ⟨π, _, _, hfirst, rfl⟩
      · rintro ⟨π, kind', count', hfirst, heq⟩
        cases heq
        exact ⟨π, _, _, hfirst, rfl⟩

/-- The description of `Node.wreck` is refused because of the operator without operands, after the
union and the two leaves to its left, by `build_characterized`. -/
theorem build_characterized_wreck :
    Node.wreck.describe.FirstShortage [1, 0, 2] .union 0 ∧
    ∃ e a', Node.wreck.describe.build { next := 5 } = .error e a' ∧
      e.message = "union needs at least two children, got 0" ∧ a'.next = 5 + (4 + 1 + 1) ∧
      (Node.wreck.compile .world .color .empty).2 = some (.tooFewOperands .union 0) := by
  have hfirst : Node.wreck.describe.FirstShortage [1, 0, 2] .union 0 :=
    Node.firstShortage_describe.2 (.child rfl rfl (by decide)
      (.child rfl rfl nofun (.child rfl rfl (by decide) (.root rfl))))
  obtain ⟨-, -, -, hrefused, -, -, hscene⟩ :=
    build_characterized Node.wreck.describe { next := 5 } (by decide)
  obtain ⟨-, e, a', herror, rfl, hmessage, hnext⟩ := hrefused _ _ _ hfirst
  exact ⟨hfirst, _, a', herror, hmessage, hnext,
    ((hscene Node.wreck rfl .world .empty).2 .union 0).1 ⟨a', herror⟩⟩

end Description

end FieldShader
