import FieldShader.Proofs.Scene.Reads
import FieldShader.Proofs.Scene.Uniqueness
import FieldShader.Proofs.Template.Document

/-!
# What failed directives leave behind

A directive that fails keeps the lines that were emitted before the failure. `Splicer.Leftover`
says of a variable that only such lines declare it, and `Splicer.Inert` says of a document that no
generated line reads one. `Splicer.inert_iff` says exactly which documents are inert.

Two things keep a document from being so. A failed directive may have got as far as a line that
reads the lines before it, which are left behind with it. And a color is emitted for every tree, but
its blends read distances, those of a directive that failed among them. A normal does no harm: it
fails with the distances (`Node.Numbered.complete_iff`).
-/

namespace FieldShader

/-- Whether the line is a directive that failed. -/
def Spliced.isFailed : Spliced → Bool
  | .copied _ | .substituted .. => false
  | .failed .. => true

namespace Splicer

/-- The variable is declared in the document, but only on lines left behind by failed
directives. -/
def Leftover (s : Splicer) (t : String) (v : Variable) : Prop :=
  v ∈ (s.generated t).map Declaration.target ∧
    ∀ x ∈ s.splice t.toList, v ∈ x.declarations.map Declaration.target → x.isFailed = true

/-- No generated line of the document reads a variable that is only left behind. -/
def Inert (s : Splicer) (t : String) : Prop :=
  ∀ d ∈ s.generated t, ∀ v ∈ d.value.reads, ¬s.Leftover t v

instance (s : Splicer) (t : String) : DecidablePred (s.Leftover t) :=
  fun v => inferInstanceAs (Decidable (v ∈ (s.generated t).map Declaration.target ∧
    ∀ x ∈ s.splice t.toList, v ∈ x.declarations.map Declaration.target → x.isFailed = true))

instance (s : Splicer) (t : String) : Decidable (s.Inert t) :=
  inferInstanceAs (Decidable (∀ d ∈ s.generated t, ∀ v ∈ d.value.reads, ¬s.Leftover t v))

variable {s : Splicer} {t : String} {x y : Spliced} {d : Declaration} {v : Variable}
  {p : Property} {i : Nat}

/-! ## Lines and the emissions they come from -/

/-- A declaration of a failed directive was emitted, for a property that cannot be emitted
completely. -/
theorem Yields.of_isFailed (h : s.Yields x) (hfail : x.isFailed = true)
    (hd : d ∈ x.declarations) : ∃ p, x.property? = some p ∧
      (s.root.emit .world p).failure ≠ none ∧ x.declarations = (s.root.emit .world p).declarations := by
  cases h with
  | copied line => cases hfail
  | unknown d ending tag => cases hd
  | @failed d p e ending tag failure => exact ⟨p, tag, by rw [failure]; nofun, rfl⟩
  | substituted ending tag complete => cases hfail

/-- A declaration of any other directive was emitted completely, or publishes what was. -/
theorem Yields.of_not_isFailed (h : s.Yields x) (hok : x.isFailed = false)
    (hd : d ∈ x.declarations) : ∃ p, x.property? = some p ∧
      (s.root.emit .world p).failure = none ∧
      x.declarations = (s.root.emit .world p).declarations ++ s.aliasOf p := by
  cases h with
  | copied line => cases hd
  | unknown d ending tag => cases hok
  | failed ending tag failure => cases hok
  | @substituted d p ending tag complete => exact ⟨p, rfl, complete, rfl⟩

/-- A directive for a property that can be emitted has all declarations of it. -/
theorem Yields.of_complete (h : s.Yields x) (hp : x.property? = some p)
    (hok : (s.root.emit .world p).failure = none) :
    x.declarations = (s.root.emit .world p).declarations ++ s.aliasOf p := by
  cases h with
  | copied line => cases hp
  | unknown d ending tag =>
    rw [Spliced.property?, tag] at hp
    cases hp
  | failed ending tag failure =>
    rw [Spliced.property?, tag] at hp
    cases hp
    rw [failure] at hok
    cases hok
  | substituted ending tag complete =>
    cases hp
    rfl

/-- An alias declares no numbered variable. -/
theorem numbered_notMem_aliasOf : .numbered p i ∉ (s.aliasOf q).map Declaration.target := by
  unfold aliasOf
  split
  · simp [Declaration.publish]
  · nofun

/-- What an alias reads is the variable of the whole scene. -/
theorem reads_aliasOf (hd : d ∈ s.aliasOf p) (hv : v ∈ d.value.reads) :
    v = .numbered p s.root.id := by
  unfold aliasOf at hd
  split at hd
  · rw [List.mem_singleton.1 hd] at hv
    exact List.mem_singleton.1 hv
  · cases hd

variable (hroot : s.root.Numbered)
include hroot

/-- A numbered variable of a tree that a builder made is only declared by directives for its own
property, and all of them fail or none. -/
theorem Yields.of_numbered (h : s.Yields x)
    (hv : .numbered p i ∈ x.declarations.map Declaration.target) :
    x.property? = some p ∧ .numbered p i ∈ (s.root.emit .world p).targets ∧
      (x.isFailed = true ↔ (s.root.emit .world p).failure ≠ none) := by
  have hown {q : Property} (hq : .numbered p i ∈ (s.root.emit .world q).targets) : q = p := by
    have hdeclared := (s.root.emit_declares .world q).initial.subset hq
    obtain ⟨j, -, heq⟩ := hroot.mem_ids_of_mem_declared hdeclared
    cases heq
    rfl
  obtain ⟨d, hd, -⟩ := List.mem_map.1 hv
  cases hx : x.isFailed with
  | true =>
    obtain ⟨q, hq, hfail, hds⟩ := h.of_isFailed hx hd
    rw [hds] at hv
    obtain rfl := hown hv
    exact ⟨hq, hv, iff_of_true rfl hfail⟩
  | false =>
    obtain ⟨q, hq, hok, hds⟩ := h.of_not_isFailed hx hd
    rw [hds, List.map_append, List.mem_append] at hv
    have hmem := hv.resolve_right numbered_notMem_aliasOf
    obtain rfl := hown hmem
    exact ⟨hq, hmem, iff_of_false nofun (not_not_intro hok)⟩

/-- The variables that a failed directive declares are left behind. -/
theorem leftover_of_isFailed (hx : x ∈ s.splice t.toList) (hfail : x.isFailed = true)
    (hv : v ∈ x.declarations.map Declaration.target) : s.Leftover t v := by
  obtain ⟨d, hd, rfl⟩ := List.mem_map.1 hv
  have hyields := yields_of_mem_splice hx
  obtain ⟨q, hq, hincomplete, hds⟩ := hyields.of_isFailed hfail hd
  have htarget : d.target ∈ s.root.declared q := by
    rw [hds] at hv
    exact (s.root.emit_declares .world q).initial.subset hv
  obtain ⟨i, -, heq⟩ := hroot.mem_ids_of_mem_declared htarget
  rw [← heq] at hv ⊢
  refine ⟨?_, fun y hy hmem => ?_⟩
  · rw [generated, List.map_flatMap]
    exact List.mem_flatMap.2 ⟨x, hx, hv⟩
  · exact ((yields_of_mem_splice hy).of_numbered hroot hmem).2.2.2 hincomplete

/-- What is left behind was declared by a failed directive of its property. -/
theorem Leftover.exists_failed (h : s.Leftover t (.numbered p i)) :
    ∃ y ∈ s.splice t.toList, y.isFailed = true ∧ y.property? = some p ∧ y.declarations ≠ [] ∧
      (s.root.emit .world p).failure ≠ none := by
  obtain ⟨hmem, hall⟩ := h
  rw [generated, List.map_flatMap] at hmem
  obtain ⟨y, hy, hv⟩ := List.mem_flatMap.1 hmem
  obtain ⟨hp, -, hiff⟩ := (yields_of_mem_splice hy).of_numbered hroot hv
  have hfail := hall y hy hv
  refine ⟨y, hy, hfail, hp, ?_, hiff.1 hfail⟩
  intro hnil
  rw [hnil] at hv
  cases hv

/-! ## When a document is inert -/

/-- In an inert document the leftovers do not read one another. -/
theorem Inert.reads_of_isFailed (h : s.Inert t) (hx : x ∈ s.splice t.toList)
    (hfail : x.isFailed = true) (hd : d ∈ x.declarations) : d.value.reads = [] := by
  obtain ⟨p, -, -, hds⟩ := (yields_of_mem_splice hx).of_isFailed hfail hd
  by_contra hne
  have hemitted : d ∈ (s.root.emit .world p).declarations := hds ▸ hd
  obtain ⟨v, hv, htarget⟩ := Node.exists_read_mem_targets hemitted hne
  have hleft : s.Leftover t v := by
    refine leftover_of_isFailed hroot hx hfail ?_
    rw [hds]
    exact htarget
  exact h d (List.mem_flatMap.2 ⟨x, hx, hd⟩) v hv hleft

/-- In an inert document with a color, a failed directive for distances leaves nothing: its first
line would be read by the color. -/
theorem Inert.declarations_of_color (h : s.Inert t) (hx : x ∈ s.splice t.toList)
    (hy : y ∈ s.splice t.toList) (hcolor : x.property? = some .color)
    (hsdf : y.property? = some .sdf) (hfail : y.isFailed = true) : y.declarations = [] := by
  by_contra hne
  obtain ⟨d, hd⟩ := List.exists_mem_of_ne_nil _ hne
  obtain ⟨q, hq, hincomplete, hds⟩ := (yields_of_mem_splice hy).of_isFailed hfail hd
  obtain rfl : q = .sdf := Option.some.inj (hq.symm.trans hsdf)
  have htarget : d.target ∈ (s.root.emit .world .sdf).targets := by
    rw [hds] at hd
    exact List.mem_map_of_mem hd
  have hresult : d.target ≠ s.root.result .sdf := by
    intro heq
    rw [heq] at htarget
    exact hroot.result_notMem_targets hincomplete htarget
  have hok : (s.root.emit .world .color).failure = none := (hroot.complete_iff _ _).2 (.inl rfl)
  obtain ⟨d', hd', hread⟩ := Node.exists_distance_read (by decide) hok
    ((s.root.emit_declares .world .sdf).initial.subset htarget) hresult
  have hmem : d' ∈ x.declarations := by
    rw [(yields_of_mem_splice hx).of_complete hcolor hok]
    exact List.mem_append_left _ hd'
  exact h d' (List.mem_flatMap.2 ⟨x, hx, hmem⟩) _ hread
    (leftover_of_isFailed hroot hy hfail (List.mem_map_of_mem hd))

/-- A line that reads what is left behind is left behind itself, or belongs to a color. -/
theorem Leftover.of_mem_reads (h : s.Leftover t v) (hx : x ∈ s.splice t.toList)
    (hd : d ∈ x.declarations) (hv : v ∈ d.value.reads) (hok : x.isFailed = false) :
    x.property? = some .color ∧ ∃ i, v = .numbered .sdf i := by
  obtain ⟨p, hp, hcomplete, hds⟩ := (yields_of_mem_splice hx).of_not_isFailed hok hd
  have hkind : (∃ i, v = .numbered p i) ∨ p ≠ .sdf ∧ ∃ i, v = .numbered .sdf i := by
    rw [hds] at hd
    rcases List.mem_append.1 hd with hd | hd
    · exact Node.reads_emit hd hv
    · exact .inl ⟨_, reads_aliasOf hd hv⟩
  rcases hkind with ⟨i, rfl⟩ | ⟨hne, i, rfl⟩
  · obtain ⟨y, -, -, -, -, hfail⟩ := h.exists_failed hroot
    exact absurd hcomplete hfail
  · obtain ⟨y, -, -, -, -, hfail⟩ := h.exists_failed hroot
    have hsolid : ¬s.root.Solid := fun hsolid =>
      hfail ((hroot.complete_iff _ _).2 (.inr hsolid))
    obtain rfl := ((hroot.complete_iff _ _).1 hcomplete).resolve_right hsolid
    exact ⟨hp, i, rfl⟩

omit hroot

/-- **Which leftovers are inert.** For a scene that a builder made, no generated line of a document
reads a variable that only failed directives declare, exactly when the lines that failed directives
left behind read no generated variable at all, and no directive for colors stands in a document
with a failed directive for distances that left any line. -/
theorem inert_iff (a : Allocator) (actions : List Action) (name : String) (s : Splicer)
    (hroot : ((Workshop.opened a).run actions).find? name = some s.root) (t : String) :
    s.Inert t ↔
      (∀ x ∈ s.splice t.toList, x.isFailed = true → ∀ d ∈ x.declarations, d.value.reads = []) ∧
      ∀ x ∈ s.splice t.toList, ∀ y ∈ s.splice t.toList, x.property? = some .color →
        y.property? = some .sdf → y.isFailed = true → y.declarations = [] := by
  have hnum : s.root.Numbered := ((Workshop.sound_opened a).run actions).numbered hroot
  constructor
  · intro h
    exact ⟨fun x hx hfail d hd => h.reads_of_isFailed hnum hx hfail hd,
      fun x hx y hy hcolor hsdf hfail => h.declarations_of_color hnum hx hy hcolor hsdf hfail⟩
  · rintro ⟨hsilent, hcolors⟩ d hd v hv hleft
    obtain ⟨x, hx, hd⟩ := List.mem_flatMap.1 hd
    cases hfail : x.isFailed with
    | true =>
      rw [hsilent x hx hfail d hd] at hv
      cases hv
    | false =>
      obtain ⟨hcolor, i, rfl⟩ := hleft.of_mem_reads hnum hx hd hv hfail
      obtain ⟨y, hy, hyfail, hsdf, hne, -⟩ := hleft.exists_failed hnum
      exact hne (hcolors x hx y hy hcolor hsdf hyfail)

/-- A run that joins a leaf that has only a color with a ground, in either order. -/
def mixedUnions : List Action :=
  [.material "m" (.custom ⟨.raw "c"⟩), .shape "g" (.ground (.raw "n")) .standard,
    .operator "colorFirst" .union (.raw "k") ["m", "g"],
    .material "m" (.custom ⟨.raw "c"⟩), .shape "g" (.ground (.raw "n")) .standard,
    .operator "colorLast" .union (.raw "k") ["g", "m"]]

/-- The union that begins with the leaf: nothing is emitted for its distance. -/
def colorFirst : Splicer :=
  ⟨.operator 2 .union (.raw "k") [.material 0 (.custom ⟨.raw "c"⟩),
    .shape 1 (.ground (.raw "n")) .standard], true⟩

/-- The union that ends with it: the distance of the ground is emitted. -/
def colorLast : Splicer :=
  ⟨.operator 6 .union (.raw "k") [.shape 5 (.ground (.raw "n")) .standard,
    .material 4 (.custom ⟨.raw "c"⟩)], true⟩

/-- Where a failed directive leaves nothing, a document with a color is inert. -/
theorem inert_colorFirst :
    ((Workshop.opened .fresh).run mixedUnions).find? "colorFirst" = some colorFirst.root ∧
      colorFirst.Inert "#evaluate sdf\n#evaluate color" := by
  refine ⟨rfl, (inert_iff .fresh mixedUnions "colorFirst" colorFirst rfl _).2 ⟨?_, ?_⟩⟩
  · decide +kernel
  · decide +kernel

/-- Leftovers are not inert in general: the color of a scene is blended by a distance that only a
failed directive has declared. -/
theorem not_inert_colorLast :
    ((Workshop.opened .fresh).run mixedUnions).find? "colorLast" = some colorLast.root ∧
      ¬colorLast.Inert "#evaluate sdf\n#evaluate color" := by
  exact ⟨rfl, by decide +kernel⟩

end Splicer

end FieldShader
