import FieldShader.Proofs.Scene.Declared
import FieldShader.Scene.Workshop

/-!
# Scenes of one workshop share no variable

A workshop hands out identifiers and never takes one back, whatever is built, moved, repainted,
thrown away or refused in it. `Workshop.Sound` is what every action keeps: each node on the shelf
is numbered below the allocator's next identifier, and no two nodes share an identifier
(`Workshop.Sound.step`, and by induction `Workshop.Sound.run`). An action that fails may have used
up its operands and some identifiers; it leaves a smaller shelf and a larger next identifier, which
is why `Workshop.Sound.of_subset` covers all failures at once.

`Workshop.names_distinct` draws the conclusion for the emitted text.
-/

namespace FieldShader

namespace Workshop

/-- A workshop with nothing on its shelf, and identifiers from the given allocator. -/
def opened (a : Allocator) : Workshop := ⟨a, []⟩

/-- Every node on the shelf is numbered with identifiers that have been handed out, and no two
nodes share one. -/
structure Sound (w : Workshop) : Prop where
  numbered : ∀ {name n}, w.find? name = some n → n.Numbered
  below : ∀ {name n}, w.find? name = some n → ∀ i ∈ n.ids, i < w.allocator.next
  apart : ∀ {name other n m}, name ≠ other → w.find? name = some n → w.find? other = some m →
    n.ids.Disjoint m.ids

/-! ## Changes of the shelf -/

/-- An empty shelf is sound. -/
theorem sound_opened (a : Allocator) : (opened a).Sound := ⟨nofun, nofun, nofun⟩

/-- What is found after a name was taken off was there before, under another name. -/
theorem find?_of_find?_erase {w : Workshop} {name other : String} {n : Node}
    (h : (w.erase name).find? other = some n) : other ≠ name ∧ w.find? other = some n := by
  by_cases hne : other = name
  · subst hne
    rw [find?_erase_self] at h
    cases h
  · exact ⟨hne, by rwa [find?_erase_of_ne w hne] at h⟩

/-- What is found after a node was put on the shelf is that node or was there before. -/
theorem find?_of_find?_insert {w : Workshop} {name other : String} {n m : Node}
    (h : (w.insert name n).find? other = some m) :
    other = name ∧ m = n ∨ other ≠ name ∧ w.find? other = some m := by
  by_cases hne : other = name
  · subst hne
    rw [find?_insert_self] at h
    exact .inl ⟨rfl, (Option.some.inj h).symm⟩
  · exact .inr ⟨hne, by rwa [find?_insert_of_ne w hne] at h⟩

namespace Sound

variable {w w' : Workshop}

/-- A shelf that lost nodes is sound, and so is an allocator that moved on. -/
theorem of_subset (h : w.Sound)
    (hsub : ∀ {name n}, w'.find? name = some n → w.find? name = some n)
    (hnext : w.allocator.next ≤ w'.allocator.next) : w'.Sound := by
  refine ⟨fun hn => h.numbered (hsub hn), fun hn i hi => ?_, fun hne hn hm => ?_⟩
  · exact Nat.lt_of_lt_of_le (h.below (hsub hn) i hi) hnext
  · exact h.apart hne (hsub hn) (hsub hm)

/-- A node may be taken off the shelf. -/
theorem erase (h : w.Sound) (name : String) : (w.erase name).Sound :=
  h.of_subset (fun hn => (find?_of_find?_erase hn).2) (Nat.le_refl _)

/-- A numbered node may be put on the shelf if it shares no identifier with the other nodes. -/
theorem insert (h : w.Sound) {name : String} {n : Node} (hn : n.Numbered)
    (hb : ∀ i ∈ n.ids, i < w.allocator.next)
    (hd : ∀ {other m}, other ≠ name → w.find? other = some m → n.ids.Disjoint m.ids) :
    (w.insert name n).Sound := by
  refine ⟨fun hm => ?_, fun hm i hi => ?_, fun hne hm hk => ?_⟩
  · rcases find?_of_find?_insert hm with ⟨-, rfl⟩ | ⟨-, hm⟩
    · exact hn
    · exact h.numbered hm
  · rcases find?_of_find?_insert hm with ⟨-, rfl⟩ | ⟨-, hm⟩
    · exact hb i hi
    · exact h.below hm i hi
  · rcases find?_of_find?_insert hm with ⟨rfl, rfl⟩ | ⟨hne₁, hold⟩
    · rcases find?_of_find?_insert hk with ⟨rfl, -⟩ | ⟨hne₂, hold⟩
      · exact absurd rfl hne
      · exact hd hne₂ hold
    · rcases find?_of_find?_insert hk with ⟨rfl, rfl⟩ | ⟨-, hold'⟩
      · exact fun i hi hi' => hd hne₁ hold hi' hi
      · exact h.apart hne hold hold'

/-- Nodes that are taken off the shelf together are a forest, they were on the shelf, and what is
left shares no identifier with them. Also when a name is missing, nothing was added. -/
theorem takeAll (h : w.Sound) {names : List String} {r : Except WorkshopError (List Node)}
    (ht : w.takeAll names = (w', r)) :
    w'.allocator = w.allocator ∧ (∀ {name n}, w'.find? name = some n → w.find? name = some n) ∧
      ∀ ns, r = .ok ns → Node.Forest 0 w.allocator.next ns ∧
        (∀ n ∈ ns, ∃ name, w.find? name = some n) ∧
        ∀ {name m}, w'.find? name = some m → (Node.idsAll ns).Disjoint m.ids := by
  induction names generalizing w w' r with
  | nil =>
    obtain ⟨rfl, rfl⟩ := Prod.mk.inj ht
    refine ⟨rfl, fun hn => hn, fun ns hns => ?_⟩
    cases hns
    exact ⟨.nil _ _, nofun, fun _ i hi => nomatch Node.mem_idsAll.1 hi⟩
  | cons name names ih =>
    rw [Workshop.takeAll] at ht
    split at ht
    · obtain ⟨rfl, rfl⟩ := Prod.mk.inj ht
      exact ⟨rfl, fun hn => hn, nofun⟩
    · rename_i n hn
      obtain ⟨w₁, rest, hrest⟩ : ∃ w₁ rest, (w.erase name).takeAll names = (w₁, rest) :=
        ⟨_, _, rfl⟩
      rw [hrest] at ht
      obtain ⟨rfl, rfl⟩ := Prod.mk.inj ht
      obtain ⟨halloc, hsub, hok⟩ := ih (h.erase name) hrest
      refine ⟨halloc, fun hm => (find?_of_find?_erase (hsub hm)).2, fun ns hns => ?_⟩
      cases rest with
      | error e => cases hns
      | ok ms =>
        cases hns
        obtain ⟨hforest, hfound, hleft⟩ := hok ms rfl
        refine ⟨?_, fun k hk => ?_, fun hm i hi hi' => ?_⟩
        · refine .cons (h.numbered hn) (fun i hi => ⟨Nat.zero_le i, h.below hn i hi⟩) hforest
            fun i hi hi' => ?_
          obtain ⟨k, hk, hik⟩ := Node.mem_idsAll.1 hi'
          obtain ⟨other, hother⟩ := hfound k hk
          obtain ⟨hne, hother⟩ := find?_of_find?_erase hother
          exact h.apart (Ne.symm hne) hn hother hi hik
        · rcases List.mem_cons.1 hk with rfl | hk
          · exact ⟨name, hn⟩
          · obtain ⟨other, hother⟩ := hfound k hk
            exact ⟨other, (find?_of_find?_erase hother).2⟩
        · rcases List.mem_append.1 hi with hi | hi
          · obtain ⟨hne, hm⟩ := find?_of_find?_erase (hsub hm)
            exact h.apart (Ne.symm hne) hn hm hi hi'
          · exact hleft hm hi hi'

/-! ## Actions -/

/-- A build that fails keeps a workshop sound, and so does one whose node is numbered and shares
no identifier with the shelf. -/
theorem produce (h : w.Sound) (into : String) {b : Build Node} (hgrow : b.Grows)
    (hok : ∀ n a', b w.allocator = .ok n a' → n.Numbered ∧ (∀ i ∈ n.ids, i < a'.next) ∧
      ∀ {other m}, w.find? other = some m → n.ids.Disjoint m.ids) :
    (w.produce into b).1.Sound := by
  unfold Workshop.produce EStateM.run
  cases hb : b w.allocator with
  | error e a' => exact h.of_subset (fun hn => hn) ((hgrow _ _).2 e hb)
  | ok n a' =>
    obtain ⟨hn, hlt, hd⟩ := hok n a' hb
    have hmoved : Sound { w with allocator := a' } :=
      h.of_subset (fun hn => hn) ((hgrow _ _).1 n hb)
    exact hmoved.insert hn hlt fun _ hm => hd hm

/-- A node that is built from identifiers of its own shares none with the shelf. -/
theorem produce_fresh (h : w.Sound) (into : String) {b : Build Node} (hgrow : b.Grows)
    (hforest : ∀ {a a' : Allocator} {n : Node}, b a = .ok n a' →
      Node.Forest a.next a'.next [n]) : (w.produce into b).1.Sound := by
  refine h.produce into hgrow fun n a' hb => ?_
  obtain ⟨hn, hbounds⟩ := (hforest hb).head
  refine ⟨hn, fun i hi => (hbounds i hi).2, fun hm i hi hi' => ?_⟩
  have := (hbounds i hi).1
  have := h.below hm i hi'
  omega

/-- An operator shares no identifier with what its operands left on the shelf. -/
theorem produce_operator (h : w.Sound) (into : String) (kind : OperatorKind)
    (smoothing : Scalar) {ns : List Node} (hns : Node.Forest 0 w.allocator.next ns)
    (hleft : ∀ {name m}, w.find? name = some m → (Node.idsAll ns).Disjoint m.ids) :
    (w.produce into (Build.operator kind smoothing ns)).1.Sound := by
  refine h.produce into (Build.grows_operator _ _ _) fun n a' hb => ?_
  obtain ⟨harity, rfl, hnext⟩ := Build.operator_eq_ok hb
  obtain ⟨hn, hbounds⟩ := (hns.operator (Nat.zero_le _) kind smoothing harity).head
  refine ⟨hn, fun i hi => ?_, fun hm i hi hi' => ?_⟩
  · have := (hbounds i hi).2
    omega
  · rw [Node.ids_operator, List.mem_append, List.mem_range'_1] at hi
    rcases hi with hi | hi
    · exact hleft hm hi hi'
    · have := h.below hm i hi'
      omega

/-- A node may be changed and renamed as long as its identifiers stay. -/
theorem modify (h : w.Sound) (into name : String) {f : Node → Node}
    (hnum : ∀ {n}, n.Numbered → (f n).Numbered) (hids : ∀ n, (f n).ids = n.ids) :
    (w.modify into name f).1.Sound := by
  unfold Workshop.modify
  split
  · exact h
  · rename_i n hn
    refine (h.erase name).insert (hnum (h.numbered hn)) (fun i hi => ?_) fun _ hm => ?_
    · exact h.below hn i (by rwa [hids] at hi)
    · obtain ⟨hne, hm⟩ := find?_of_find?_erase hm
      rw [hids]
      exact h.apart (Ne.symm hne) hn hm

/-- Several translations keep a tree numbered and its identifiers. -/
theorem translations (offsets : List Vector) {n : Node} (h : n.Numbered) :
    (offsets.foldl (fun inner offset => inner.translate offset) n).Numbered := by
  induction offsets generalizing n with
  | nil => exact h
  | cons offset rest ih => exact ih (h.translate offset)

/-- Translations own no identifiers. -/
theorem ids_translations (offsets : List Vector) (n : Node) :
    (offsets.foldl (fun inner offset => inner.translate offset) n).ids = n.ids := by
  induction offsets generalizing n with
  | nil => rfl
  | cons offset rest ih =>
    rw [List.foldl_cons, ih]
    exact Node.ids_transform _ _

/-- **Every action keeps a workshop sound**, whether or not it is carried out. -/
theorem step (h : w.Sound) (action : Action) : (w.step action).1.Sound := by
  cases action with
  | shape into primitive finish =>
    exact h.produce_fresh into (Build.grows_shape _ _) Build.shape_forest
  | material into finish =>
    exact h.produce_fresh into (Build.grows_material _) Build.material_forest
  | operator into kind smoothing operands =>
    obtain ⟨w', r, ht⟩ : ∃ w' r, w.takeAll operands = (w', r) := ⟨_, _, rfl⟩
    obtain ⟨halloc, hsub, hok⟩ := h.takeAll ht
    have hleft : w'.Sound := h.of_subset hsub (Nat.le_of_eq (by rw [halloc]))
    rw [Workshop.step, ht]
    cases r with
    | error e => exact hleft
    | ok ns =>
      obtain ⟨hforest, -, hapart⟩ := hok ns rfl
      exact hleft.produce_operator into kind smoothing (by rwa [halloc]) hapart
  | build into description =>
    exact h.produce_fresh into description.build_grows Description.build_forest
  | translate into name offsets =>
    exact h.modify into name (translations offsets) (ids_translations offsets)
  | repaint into name finish =>
    exact h.modify into name (fun hn => hn.repaint finish) (Node.ids_repaint finish)
  | discard name => exact h.erase name
  | reserve count =>
    rw [Workshop.step]
    split
    · rename_i base a' hr
      obtain ⟨-, -, -, hnext⟩ := Allocator.reserve_eq_ok_iff.1 hr
      exact h.of_subset (fun hn => hn) (by simp only [hnext]; omega)
    · exact h

/-- Any number of actions in any order keeps a workshop sound. -/
theorem run (h : w.Sound) (actions : List Action) : (w.run actions).Sound := by
  induction actions generalizing w with
  | nil => exact h
  | cons action rest ih => exact ih (h.step action)

end Sound

end Workshop

/-! ## Names of one scene and of two -/

namespace Node

variable {n m : Node}

/-- A name on a line of a numbered tree is made from a property and an identifier of the tree. -/
theorem Numbered.name_of_mem_lineNames (h : n.Numbered) {space : Space} {p : Property}
    {name : String} (hname : name ∈ n.lineNames space p) :
    ∃ i ∈ n.ids, (Variable.numbered p i).name = name := by
  rw [lineNames_eq] at hname
  obtain ⟨v, hv, rfl⟩ := List.mem_map.1 hname
  obtain ⟨i, hi, rfl⟩ :=
    h.mem_ids_of_mem_declared ((n.emit_declares space p).initial.subset hv)
  exact ⟨i, hi, rfl⟩

/-- The lines of one property of a numbered tree declare distinct names. -/
theorem Numbered.lineNames_nodup (h : n.Numbered) (space : Space) (p : Property) :
    (n.lineNames space p).Nodup := by
  rw [lineNames_eq]
  exact ((h.declared_nodup p).sublist (n.emit_declares space p).initial.sublist).map
    Variable.name_injective

/-- The lines of all properties of a numbered tree declare distinct names, and none of them is a
public one. -/
theorem Numbered.all_lineNames_nodup (h : n.Numbered) (space : Space) :
    (Property.all.flatMap (n.lineNames space) ++ Property.all.map Property.tag).Nodup := by
  rw [List.nodup_append']
  refine ⟨List.nodup_flatMap.2 ⟨fun p _ => h.lineNames_nodup space p, ?_⟩, by decide, ?_⟩
  · have hall : Property.all.Nodup := by decide
    refine hall.imp fun {p q} hpq name hp hq => hpq ?_
    obtain ⟨i, -, hi⟩ := h.name_of_mem_lineNames hp
    obtain ⟨j, -, hj⟩ := h.name_of_mem_lineNames hq
    cases Variable.name_injective (hi.trans hj.symm)
    rfl
  · intro name hname htag
    obtain ⟨p, -, hp⟩ := List.mem_flatMap.1 hname
    obtain ⟨i, -, hi⟩ := h.name_of_mem_lineNames hp
    obtain ⟨q, -, hq⟩ := List.mem_map.1 htag
    have hv : Variable.numbered p i = .shared q := Variable.name_injective (hi.trans hq.symm)
    cases hv

/-- Numbered trees that share no identifier share no name. -/
theorem Numbered.lineNames_disjoint (hn : n.Numbered) (hm : m.Numbered)
    (hd : n.ids.Disjoint m.ids) (space : Space) :
    (Property.all.flatMap (n.lineNames space)).Disjoint
      (Property.all.flatMap (m.lineNames space)) := by
  intro name hname hname'
  obtain ⟨p, -, hp⟩ := List.mem_flatMap.1 hname
  obtain ⟨q, -, hq⟩ := List.mem_flatMap.1 hname'
  obtain ⟨i, hi, hni⟩ := hn.name_of_mem_lineNames hp
  obtain ⟨j, hj, hmj⟩ := hm.name_of_mem_lineNames hq
  cases Variable.name_injective (hni.trans hmj.symm)
  exact hd hi hj

end Node

namespace Workshop

/-- **No two variables of a workshop meet.** After any actions, from any allocator on: a node on
the shelf owns every identifier once, all of them handed out, an operator's above those of its
descendants; its lines declare distinct names, none of them public; and two nodes on the shelf
share neither an identifier nor a name. -/
theorem names_distinct (a : Allocator) (actions : List Action) :
    (∀ name n, ((opened a).run actions).find? name = some n →
      n.ids.Nodup ∧ (∀ i ∈ n.ids, i < ((opened a).run actions).allocator.next) ∧
      (∀ id kind smoothing children, .operator id kind smoothing children ∈ n.parts →
        ∀ i ∈ Node.idsAll children, ∀ j ∈ List.range' id children.length, i < j) ∧
      ∀ space,
        (Property.all.flatMap (n.lineNames space) ++ Property.all.map Property.tag).Nodup) ∧
    ∀ name other n m, name ≠ other → ((opened a).run actions).find? name = some n →
      ((opened a).run actions).find? other = some m →
      n.ids.Disjoint m.ids ∧ ∀ space, (Property.all.flatMap (n.lineNames space)).Disjoint
        (Property.all.flatMap (m.lineNames space)) := by
  have h : ((opened a).run actions).Sound := (sound_opened a).run actions
  constructor
  · intro name n hn
    have hnum := h.numbered hn
    refine ⟨hnum.nodup, h.below hn, fun id kind smoothing children hm i hi j hj => ?_,
      hnum.all_lineNames_nodup⟩
    have hlt := (hnum.below_of_mem_parts hm).2 i hi
    have hle := (List.mem_range'_1.1 hj).1
    omega
  · intro name other n m hne hn hm
    have hd := h.apart hne hn hm
    exact ⟨hd, (h.numbered hn).lineNames_disjoint (h.numbered hm) hd⟩

/-- A run with two failures on the way: an operator over a single node, which uses the node up,
and a description that takes identifiers before its inner operator is refused. -/
def mixedRun : List Action :=
  [.shape "a" (.ground .up) .standard, .material "b" .standard,
    .operator "u" .union (.raw "k") ["a", "b"], .shape "c" (.plane .up) .standard,
    .operator "x" .cut (.raw "k") ["c"],
    .build "d" (.translate .up (.operator .cut (.raw "k")
      [.material .up, .operator .union (.raw "k") [.material .up]])),
    .reserve 2, .shape "c" (.sphere (.raw "r")) .standard, .translate "c" "c" [.up]]

/-- After `mixedRun` there are two nodes, numbered apart, and `names_distinct` is about both. -/
theorem names_distinct_mixedRun :
    ((opened .fresh).run mixedRun).find? "u" = some (.operator 2 .union (.raw "k")
      [.shape 0 (.ground .up) .standard, .material 1 .standard]) ∧
    ((opened .fresh).run mixedRun).find? "c" =
      some (.transform (.translate .up) (.shape 8 (.sphere (.raw "r")) .standard)) ∧
    ((opened .fresh).run mixedRun).allocator.next = 9 ∧
    (Node.operator 2 .union (.raw "k")
      [.shape 0 (.ground .up) .standard, .material 1 .standard]).ids.Nodup ∧
    (Node.operator 2 .union (.raw "k")
      [.shape 0 (.ground .up) .standard, .material 1 .standard]).ids.Disjoint
      (Node.transform (.translate .up) (.shape 8 (.sphere (.raw "r")) .standard)).ids :=
  ⟨rfl, rfl, rfl, ((names_distinct .fresh mixedRun).1 "u" _ rfl).1,
    ((names_distinct .fresh mixedRun).2 "u" "c" _ _ (by decide) rfl rfl).1⟩

end Workshop

end FieldShader
