import FieldShader.Proofs.Scene.Renumbering
import FieldShader.Proofs.Scene.Uniqueness
import Mathlib.Data.Set.Function

/-!
# Building a scene again

A description of a scene has no identifiers, and building it gives the scene identifiers anew. In
one direction nothing is lost: what a description has built describes itself as that description
(`Description.describe_inverts_build`). In the other direction the identifiers may change. Building
takes them in one order, operands first and from left to right, which is the order of `Node.ids`,
while the operands of a tree may have been made in any order. So the rebuilt tree is the tree under
the map that numbers `Node.ids` one after the other (`Node.Numbered.exists_build`), and its lines
are those of the tree with their variables renumbered (`Workshop.describe_renumbers`).

The lines are the same exactly when that map changes nothing, that is, when the tree was made in
the order in which it is rebuilt (`Workshop.compileProperty_rebuilt_iff`).
-/

namespace FieldShader

/-! ## What was built describes itself -/

/-- The descriptions of several scenes, in the natural form. -/
theorem Node.describeAll_eq_map (ns : List Node) : describeAll ns = ns.map describe := by
  induction ns with
  | nil => rfl
  | cons n ns ih => rw [describeAll, List.map_cons, ih]

namespace Description

variable {d : Description} {a a' : Allocator} {n : Node}

/-- Several scenes describe themselves as what they were built from, if each of them does. -/
theorem describeAll_of_buildAll {ds : List Description} {ns : List Node}
    (ih : ∀ d ∈ ds, ∀ {a a' : Allocator} {n : Node}, d.build a = .ok n a' → n.describe = d)
    (h : buildAll ds a = .ok ns a') : Node.describeAll ns = ds := by
  induction ds generalizing a ns with
  | nil =>
    obtain ⟨rfl, -⟩ := Build.pure_eq_ok.1 h
    rfl
  | cons d ds ihds =>
    rw [buildAll] at h
    obtain ⟨n, a₁, h₁, h⟩ := Build.bind_eq_ok.1 h
    obtain ⟨ms, a₂, h₂, h⟩ := Build.bind_eq_ok.1 h
    obtain ⟨rfl, rfl⟩ := Build.pure_eq_ok.1 h
    rw [Node.describeAll, ih d List.mem_cons_self h₁,
      ihds (fun d hd => ih d (List.mem_cons_of_mem _ hd)) h₂]

/-- What a description has built describes itself as the description. -/
theorem describe_of_build (h : d.build a = .ok n a') : n.describe = d := by
  induction d using recTree generalizing a a' n with
  | shape primitive given =>
    obtain ⟨id, a₁, -, h⟩ := Build.bind_eq_ok.1 h
    obtain ⟨rfl, -⟩ := Build.pure_eq_ok.1 h
    rw [Node.describe, Finish.custom?_ofMaterial?]
  | material color =>
    obtain ⟨id, a₁, -, h⟩ := Build.bind_eq_ok.1 h
    obtain ⟨rfl, -⟩ := Build.pure_eq_ok.1 h
    rfl
  | translate offset child ih =>
    obtain ⟨m, a₁, h₁, h⟩ := Build.bind_eq_ok.1 h
    obtain ⟨rfl, -⟩ := Build.pure_eq_ok.1 h
    rw [Node.translate, Node.describe, ih h₁]
  | operator kind smoothing children ih =>
    rw [build] at h
    split at h
    · exact absurd h Build.throw_ne_ok
    · obtain ⟨ns, a₁, h₁, h₂⟩ := Build.bind_eq_ok.1 h
      obtain ⟨-, rfl, -⟩ := Build.operator_eq_ok h₂
      rw [Node.describe, describeAll_of_buildAll (fun d hd => ih d hd) h₁]

/-- **Describing undoes building.** What a description has built describes itself as that
description, a material that was not given as not given, and one that was given as given. Building
it again from the same identifier on gives the same tree, identifiers included, and leaves off
where the first build did. -/
theorem describe_inverts_build (h : d.build a = .ok n a') :
    n.describe = d ∧ ∀ b : Allocator, b.next = a.next →
      ∃ b', n.describe.build b = .ok n b' ∧ b'.next = a'.next := by
  have hdescribe : n.describe = d := describe_of_build h
  refine ⟨hdescribe, fun b hb => ⟨a', ?_, rfl⟩⟩
  obtain ⟨next, _⟩ := a
  obtain ⟨next', _⟩ := b
  cases hb
  rw [hdescribe, h]

/-- Two grounds of the same color, white: the first was given its material, the second was not. -/
def twins : Description :=
  .operator .union (.raw "k") [.shape (.ground .up) (some .white),
    .translate .up (.shape (.ground .up) none), .material (.raw "c")]

/-- Building `twins` from the identifier five on, and `describe_inverts_build` for it. -/
theorem describe_inverts_build_twins : ∃ n a', twins.build { next := 5 } = .ok n a' ∧
    n = .operator 8 .union (.raw "k") [.shape 5 (.ground .up) (.custom .white),
      .transform (.translate .up) (.shape 6 (.ground .up) .standard),
      .material 7 (.custom ⟨.raw "c"⟩)] ∧
    n.describe = twins ∧ ∃ b', n.describe.build { next := 5 } = .ok n b' ∧ b'.next = 11 := by
  have h : twins.build { next := 5 } = .ok (.operator 8 .union (.raw "k")
      [.shape 5 (.ground .up) (.custom .white),
        .transform (.translate .up) (.shape 6 (.ground .up) .standard),
        .material 7 (.custom ⟨.raw "c"⟩)]) { next := 11 } := rfl
  obtain ⟨hdescribe, hagain⟩ := describe_inverts_build h
  exact ⟨_, _, h, rfl, hdescribe, hagain { next := 5 } rfl⟩

end Description

/-! ## Numbering one after the other -/

/-- The map numbers the list from `s` on, one after the other. -/
def NumbersFrom (r : Nat → Nat) (s : Nat) (l : List Nat) : Prop :=
  l.map r = List.range' s l.length

namespace NumbersFrom

variable {r : Nat → Nat} {s : Nat} {l xs ys : List Nat}

/-- The second part of a list is numbered where the first one ends. -/
theorem append_iff :
    NumbersFrom r s (xs ++ ys) ↔ NumbersFrom r s xs ∧ NumbersFrom r (s + xs.length) ys := by
  unfold NumbersFrom
  rw [List.map_append, List.length_append, ← List.range'_append_1]
  constructor
  · intro h
    exact List.append_inj h (by simp)
  · rintro ⟨hxs, hys⟩
    rw [hxs, hys]

/-- A block is numbered as a block. -/
theorem add_eq {id k : Nat} (h : NumbersFrom r s (List.range' id k)) :
    ∀ j < k, r (id + j) = s + j := by
  intro j hj
  have hget := congrArg (·[j]?) h
  simpa [hj] using hget

/-- A list without repetitions is numbered by the places of its elements. -/
theorem idxOf (h : l.Nodup) (s : Nat) : NumbersFrom (fun i => s + l.idxOf i) s l := by
  refine List.ext_getElem (by simp) fun k hk hk' => ?_
  rw [List.getElem_map, h.idxOf_getElem, List.getElem_range', Nat.one_mul]

/-- A map that numbers a list takes its elements to different numbers. -/
theorem injOn (h : NumbersFrom r s l) {i j : Nat} (hi : i ∈ l) (hj : j ∈ l) (hij : r i = r j) :
    i = j := by
  refine List.inj_on_of_nodup_map ?_ hi hj hij
  rw [h]
  exact List.nodup_range'

/-- A list of the first natural numbers is numbered by itself exactly when it is in order. -/
theorem fixed_iff {k : Nat} (h : NumbersFrom r 0 l) (hperm : l.Perm (List.range k)) :
    (∀ i ∈ l, r i = i) ↔ l.Pairwise (· < ·) := by
  constructor
  · intro hfixed
    have hself : l.map r = l := (List.map_congr_left hfixed).trans l.map_id'
    rw [← hself, h]
    exact List.pairwise_lt_range' 1
  · intro hsorted
    have hrange : l = List.range k :=
      hperm.eq_of_pairwise (fun i j _ _ hij hji => absurd hij (Nat.lt_asymm hji)) hsorted
        List.pairwise_lt_range
    have hself : l.map r = l.map id := by
      rw [h, List.map_id, ← List.range_eq_range', hrange, List.length_range]
    exact List.map_inj_left.1 hself

end NumbersFrom

namespace Node

variable {r : Nat → Nat} {s : Nat} {n : Node}

/-- Of several trees that are numbered one after the other, each is. -/
theorem numbersFrom_ids_of_mem {ns : List Node} (h : NumbersFrom r s (idsAll ns)) {c : Node}
    (hc : c ∈ ns) : ∃ t, NumbersFrom r t c.ids := by
  induction ns generalizing s with
  | nil => cases hc
  | cons n ns ih =>
    obtain ⟨hn, hns⟩ := NumbersFrom.append_iff.1 h
    rcases List.mem_cons.1 hc with rfl | hc
    · exact ⟨s, hn⟩
    · exact ih hns hc

/-- Numbering the identifiers of a tree one after the other keeps its blocks. -/
theorem keepsBlocks_of_numbersFrom (h : NumbersFrom r s n.ids) : n.KeepsBlocks r := by
  intro id kind smoothing operands hm j hj
  induction n using recTree generalizing s with
  | shape | material => simp [parts] at hm
  | transform mapping child ih =>
    rcases mem_parts_transform.1 hm with heq | hm
    · cases heq
    · exact ih (by simpa using h) hm
  | operator id' kind' smoothing' children ih =>
    rw [ids_operator] at h
    obtain ⟨hchildren, hblock⟩ := NumbersFrom.append_iff.1 h
    rcases mem_parts_operator.1 hm with heq | ⟨c, hc, hm⟩
    · -- The block of the tree itself is numbered after those of the operands.
      cases heq
      have hfirst : r id = _ := hblock.add_eq 0 (by omega)
      rw [hblock.add_eq j hj, hfirst, Nat.add_zero]
    · obtain ⟨t, ht⟩ := numbersFrom_ids_of_mem hchildren hc
      exact ih c hc ht hm

end Node

/-! ## Building a description of a tree -/

/-- A block that fits is handed out. -/
theorem Build.exists_reserve {a : Allocator} {count : Nat} (hne : count ≠ 0)
    (hroom : a.next + count ≤ identifierLimit) :
    ∃ a', reserve count a = .ok a.next a' ∧ a'.next = a.next + count :=
  ⟨⟨a.next + count, hroom⟩, reserve_eq_ok.2 ⟨hne, hroom, rfl, rfl⟩, rfl⟩

namespace Node

variable {r : Nat → Nat} {n : Node}

/-- The descriptions of several trees can be built if that of each of them can, and give the trees
under the numbers that building takes. -/
theorem exists_buildAll {ns : List Node} {a : Allocator}
    (ih : ∀ n ∈ ns, ∀ {a : Allocator}, NumbersFrom r a.next n.ids →
      a.next + n.ids.length ≤ identifierLimit → ∃ m a', n.describe.build a = .ok m a' ∧
        a'.next = a.next + n.ids.length ∧ m.explicit = (n.renumber r).explicit)
    (hr : NumbersFrom r a.next (idsAll ns))
    (hroom : a.next + (idsAll ns).length ≤ identifierLimit) :
    ∃ ms a', Description.buildAll (describeAll ns) a = .ok ms a' ∧
      a'.next = a.next + (idsAll ns).length ∧
      explicitAll ms = explicitAll (renumberAll r ns) := by
  induction ns generalizing a with
  | nil => exact ⟨[], a, rfl, rfl, rfl⟩
  | cons n ns ihns =>
    obtain ⟨hn, hns⟩ := NumbersFrom.append_iff.1 hr
    rw [idsAll, List.length_append] at hroom ⊢
    obtain ⟨m, a₁, hbuild, hnext, hm⟩ := ih n List.mem_cons_self hn (by omega)
    rw [← hnext] at hns
    obtain ⟨ms, a₂, hbuilds, hnexts, hms⟩ :=
      ihns (fun n hn => ih n (List.mem_cons_of_mem _ hn)) hns (by omega)
    refine ⟨m :: ms, a₂, ?_, by omega, ?_⟩
    · rw [describeAll, Description.buildAll]
      exact Build.bind_eq_ok.2 ⟨m, a₁, hbuild, Build.bind_eq_ok.2 ⟨ms, a₂, hbuilds, rfl⟩⟩
    · rw [explicitAll, renumberAll, explicitAll, hm, hms]

/-- **The description of a tree can be built wherever its identifiers fit**, and gives the tree
under the numbers that building takes, one after the other in the order of `Node.ids`. -/
theorem Numbered.exists_build (h : n.Numbered) {a : Allocator} (hr : NumbersFrom r a.next n.ids)
    (hroom : a.next + n.ids.length ≤ identifierLimit) :
    ∃ m a', n.describe.build a = .ok m a' ∧ a'.next = a.next + n.ids.length ∧
      m.explicit = (n.renumber r).explicit := by
  induction h generalizing a with
  | shape id primitive finish =>
    obtain ⟨a', hreserve, hnext⟩ := Build.exists_reserve Nat.one_ne_zero hroom
    have hid : r id = a.next := hr.add_eq 0 Nat.one_pos
    refine ⟨.shape a.next primitive finish, a', ?_, hnext, ?_⟩
    · rw [describe, Description.build, Finish.ofMaterial?_custom?]
      exact Build.bind_eq_ok.2 ⟨_, _, hreserve, rfl⟩
    · rw [renumber, hid]
  | material id finish =>
    obtain ⟨a', hreserve, hnext⟩ := Build.exists_reserve Nat.one_ne_zero hroom
    have hid : r id = a.next := hr.add_eq 0 Nat.one_pos
    refine ⟨.material a.next (.custom finish.material), a', ?_, hnext, ?_⟩
    · exact Build.bind_eq_ok.2 ⟨_, _, hreserve, rfl⟩
    · rw [renumber, hid]
      rfl
  | @transform child mapping _ ih =>
    obtain ⟨offset⟩ := mapping
    rw [ids_transform] at hr hroom
    obtain ⟨m, a', hbuild, hnext, hm⟩ := ih hr hroom
    refine ⟨m.translate offset, a', ?_, by rw [ids_transform, hnext], ?_⟩
    · rw [describe, Description.build]
      exact Build.bind_eq_ok.2 ⟨m, a', hbuild, rfl⟩
    · rw [Node.translate, explicit, renumber, explicit, hm]
  | @operator children id kind smoothing harity _ _ _ ih =>
    rw [ids_operator, List.length_append, List.length_range'] at hroom
    rw [ids_operator] at hr
    obtain ⟨hchildren, hblock⟩ := NumbersFrom.append_iff.1 hr
    obtain ⟨ms, a₁, hbuilds, hnexts, hms⟩ :=
      exists_buildAll (fun c hc _ => ih c hc) hchildren (by omega)
    have hlength : ms.length = children.length := by
      have := congrArg List.length hms
      simpa [explicitAll_eq_map, renumberAll_eq_map] using this
    have hid : r id = a₁.next := (hblock.add_eq 0 (by omega)).trans hnexts.symm
    obtain ⟨a', hreserve, hnext⟩ : ∃ a', Build.reserve ms.length a₁ = .ok a₁.next a' ∧
        a'.next = a₁.next + ms.length := Build.exists_reserve (by omega) (by omega)
    refine ⟨.operator a₁.next kind smoothing ms, a', ?_, ?_, ?_⟩
    · rw [describe, Description.build, if_neg (by rw [describeAll_eq_map, List.length_map]; omega)]
      refine Build.bind_eq_ok.2 ⟨ms, a₁, hbuilds, ?_⟩
      rw [Build.operator, if_neg (by omega)]
      exact Build.bind_eq_ok.2 ⟨_, _, hreserve, rfl⟩
    · rw [ids_operator, List.length_append, List.length_range']
      omega
    · rw [explicit, renumber, explicit, hms, hid]

/-! ## Lines of a tree under other numbers -/

section
variable {m : Node} {space : Space} {p : Property}

/-- The lines of a tree that has the materials and everything but the numbers of another one are
those of the other, renumbered. -/
theorem emit_of_explicit_eq (h : m.explicit = (n.renumber r).explicit) (hr : n.KeepsBlocks r)
    (space : Space) (p : Property) : m.emit space p = (n.emit space p).renumber r := by
  rw [← m.emit_explicit, h, emit_explicit, emit_renumber hr]

/-- So are the lines of a property with its alias. -/
theorem published_of_explicit_eq (h : m.explicit = (n.renumber r).explicit)
    (hr : n.KeepsBlocks r) (p : Property) :
    m.published p = (n.published p).map (Declaration.renumber r) := by
  have hid : m.id = r n.id := by rw [← m.id_explicit, h, id_explicit, id_renumber]
  rw [published, published, emit_of_explicit_eq h hr, hid, List.map_append]
  rfl

/-- Which materials are the standard one makes no difference to the lines of a property. -/
theorem compileProperty_of_explicit_eq (h : m.explicit = n.explicit) (p : Property) :
    m.compileProperty p = n.compileProperty p := by
  have hid : m.id = n.id := by rw [← m.id_explicit, h, id_explicit]
  have hemit : m.emit .world p = n.emit .world p := by rw [← m.emit_explicit, h, emit_explicit]
  rw [compileProperty, compileProperty, publish, publish, hemit, hid]

/-- A property that cannot be compiled is refused. -/
theorem compileProperty_eq_error {e : CompileError} (h : (n.emit .world p).failure = some e) :
    n.compileProperty p = .error e := by
  simp only [compileProperty, publish, h]
  rfl

/-- An emission that is complete declares every identifier of the tree. -/
theorem mem_declared_of_mem_ids {i : Nat} (h : (n.emit space p).failure = none)
    (hi : i ∈ n.ids) : .numbered p i ∈ n.declared p := by
  induction n using recTree generalizing space with
  | shape id primitive finish => simpa [declared] using hi
  | material id finish =>
    cases p with
    | color => simpa [declared] using hi
    | sdf | normal => cases h
  | transform mapping child ih => exact @ih (space.push mapping) h (by simpa using hi)
  | operator id kind smoothing operands ih =>
    obtain ⟨-, hoperands⟩ := failure_emit_operator h
    rw [ids_operator, List.mem_append, mem_idsAll, List.mem_range'_1] at hi
    rcases hi with ⟨c, hc, hi⟩ | hi
    · exact declared_operand_subset hc (ih c hc (hoperands c hc) hi)
    · rcases Nat.eq_or_lt_of_le hi.1 with rfl | hlt
      · rw [declared]
        exact List.mem_append_right _ (List.mem_singleton_self _)
      · exact step_mem_declared (List.mem_range'_1.2 ⟨hlt, by omega⟩)

/-- **When other numbers give the same text**: when the property cannot be compiled anyway, or when
they are not other numbers. -/
theorem Numbered.compileProperty_renumbered_iff (hn : n.Numbered)
    (h : m.explicit = (n.renumber r).explicit) (hr : n.KeepsBlocks r) (p : Property) :
    m.compileProperty p = n.compileProperty p ↔
      (∃ e, n.compileProperty p = .error e) ∨ ∀ i ∈ n.ids, r i = i := by
  have hemit := emit_of_explicit_eq h hr .world p
  cases hfailure : (n.emit .world p).failure with
  | some e =>
    have hm : (m.emit .world p).failure = some e := by rw [hemit, Emission.renumber, hfailure]
    rw [compileProperty_eq_error hm, compileProperty_eq_error hfailure]
    exact iff_of_true rfl (.inl ⟨e, rfl⟩)
  | none =>
    have hm : (m.emit .world p).failure = none := by rw [hemit, Emission.renumber, hfailure]
    have hok := compileProperty_eq_ok hfailure
    constructor
    · -- The line that declares `i` has the same text under the new number, so that is `i` as well.
      intro heq
      right
      intro i hi
      rw [hok, compileProperty_eq_ok hm, published_of_explicit_eq h hr, List.map_map] at heq
      have htarget : .numbered p i ∈ (n.emit .world p).targets := by
        rw [(n.emit_declares .world p).complete hfailure]
        exact mem_declared_of_mem_ids hfailure hi
      obtain ⟨d, hd, hdi⟩ := List.mem_map.1 htarget
      have hline : (d.renumber r).render = d.render :=
        List.map_inj_left.1 (Except.ok.inj heq) d (List.mem_append_left _ hd)
      have hfixed := Declaration.target_of_render_renumber hline
      rw [hdi] at hfixed
      exact (Variable.numbered.inj hfixed).2
    · rintro (⟨e, he⟩ | hfixed)
      · rw [hok] at he
        cases he
      · rw [hn.renumber_eq_self hfixed] at h
        exact compileProperty_of_explicit_eq h p

end

end Node

namespace Workshop

/-- **Building a scene again renumbers it.** The description of anything that a workshop has made
can be built wherever as many identifiers are left as the scene owns. What it gives is the scene
under other numbers: the same tree with the same parameters and materials, its identifiers in
correspondence with those of the scene and every operator's block with the block. In every space
and for every property it compiles with the same outcome, and its lines are those of the scene
with the variables on both sides renumbered and nothing else changed. -/
theorem describe_renumbers (a : Allocator) (actions : List Action) (name : String) (n : Node)
    (hn : ((opened a).run actions).find? name = some n) (b : Allocator)
    (hroom : b.next + n.ids.length ≤ identifierLimit) :
    ∃ m b' r, n.describe.build b = .ok m b' ∧ m.explicit = (n.renumber r).explicit ∧
      Set.BijOn r {i | i ∈ n.ids} {i | i ∈ m.ids} ∧ n.KeepsBlocks r ∧
      ∀ space p l,
        n.compile space p l = (l.writeAll ((n.emit space p).declarations.map Declaration.render),
          (n.emit space p).failure) ∧
        m.compile space p l = (l.writeAll
          ((n.emit space p).declarations.map fun d => (d.renumber r).render),
          (n.emit space p).failure) := by
  have hnum : n.Numbered := ((sound_opened a).run actions).numbered hn
  have hr := NumbersFrom.idxOf hnum.nodup b.next
  have hblocks : n.KeepsBlocks _ := Node.keepsBlocks_of_numbersFrom hr
  obtain ⟨m, b', hbuild, -, hm⟩ := hnum.exists_build hr hroom
  have hids : m.ids = n.ids.map fun i => b.next + n.ids.idxOf i := by
    rw [← m.ids_explicit, hm, Node.ids_explicit, Node.ids_renumber hblocks]
  refine ⟨m, b', _, hbuild, hm, ⟨fun i hi => ?_, fun i hi j hj hij => ?_, fun j hj => ?_⟩, hblocks,
    fun space p l => ⟨rfl, ?_⟩⟩
  · rw [Set.mem_ofPred_eq, hids]
    exact List.mem_map_of_mem hi
  · exact hr.injOn hi hj hij
  · rw [Set.mem_ofPred_eq, hids] at hj
    exact List.mem_map.1 hj
  · rw [Node.compile, Emission.writeTo, Node.emit_of_explicit_eq hm hblocks, Emission.renumber,
      List.map_map]
    rfl

/-- Two grounds made in one order and combined in the other, and a third one made between. -/
def crossed : List Action :=
  [.shape "a" (.ground (.raw "a")) .standard, .shape "b" (.ground (.raw "b")) .standard,
    .shape "c" (.ground (.raw "c")) (.custom .white),
    .operator "u" .union (.raw "k") ["c", "a"], .translate "u" "u" [.up],
    .operator "d" .difference (.raw "k") ["b", "u"]]

/-- Building `crossed` again from the identifier ten on, by `describe_renumbers`: the third ground
is now the second. -/
theorem describe_renumbers_crossed : ∃ m b' r,
    (Node.operator 5 .difference (.raw "k") [.shape 1 (.ground (.raw "b")) .standard,
      .transform (.translate .up) (.operator 3 .union (.raw "k")
        [.shape 2 (.ground (.raw "c")) (.custom .white),
          .shape 0 (.ground (.raw "a")) .standard])]).describe.build { next := 10 } = .ok m b' ∧
    m.ids = [10, 11, 12, 13, 14, 15, 16] ∧ [1, 2, 0, 3, 4, 5, 6].map r = m.ids ∧
    (m.compile .world .sdf .empty).1.lines =
      ["float sdf10 = dot(point - vec3(0.0, 0.0, 0.0), (b));",
        "float sdf11 = dot(point - (vec3(0.0, 0.0, 0.0) + vec3(0.0, 1.0, 0.0)), (c));",
        "float sdf12 = dot(point - (vec3(0.0, 0.0, 0.0) + vec3(0.0, 1.0, 0.0)), (a));",
        "float sdf14 = smin(sdf11, sdf12, (k));", "float sdf13 = sdf14;",
        "float sdf16 = smax(sdf10, -sdf13, (k));", "float sdf15 = sdf16;"] := by
  obtain ⟨m, b', r, hbuild, hm, -, hblocks, hlines⟩ :=
    describe_renumbers .fresh crossed "d" _ rfl { next := 10 } (by decide)
  refine ⟨m, b', r, hbuild, ?_⟩
  cases hbuild
  have hids := congrArg Node.ids hm
  rw [Node.ids_explicit, Node.ids_explicit, Node.ids_renumber hblocks] at hids
  exact ⟨rfl, hids.symm, by decide +kernel⟩

/-- **When building a scene again gives the same text.** Let every identifier of a fresh workshop
have gone into one scene. Its description can be built in a fresh workshop, and a property that can
be compiled gives the same text exactly when the identifiers of the scene ascend, that is, when its
nodes were made in the order in which building makes them: the operands of an operator from left to
right, each of them completely, and then the operator. -/
theorem compileProperty_rebuilt_iff (actions : List Action) (name : String) (n : Node)
    (hn : ((opened .fresh).run actions).find? name = some n)
    (hall : ∀ i < ((opened .fresh).run actions).allocator.next, i ∈ n.ids) :
    ∃ m a', n.describe.build .fresh = .ok m a' ∧ ∀ p,
      m.compileProperty p = n.compileProperty p ↔
        (∃ e, n.compileProperty p = .error e) ∨ n.ids.Pairwise (· < ·) := by
  have hsound : ((opened .fresh).run actions).Sound := (sound_opened .fresh).run actions
  have hnum : n.Numbered := hsound.numbered hn
  have hperm : n.ids.Perm (List.range ((opened .fresh).run actions).allocator.next) :=
    (List.perm_ext_iff_of_nodup hnum.nodup List.nodup_range).2 fun i =>
      ⟨fun hi => List.mem_range.2 (hsound.below hn i hi), fun hi => hall i (List.mem_range.1 hi)⟩
  have hr := NumbersFrom.idxOf hnum.nodup 0
  have hroom : Allocator.fresh.next + n.ids.length ≤ identifierLimit := by
    rw [Allocator.fresh, Nat.zero_add, hperm.length_eq, List.length_range]
    exact ((opened .fresh).run actions).allocator.next_le
  obtain ⟨m, a', hbuild, -, hm⟩ := hnum.exists_build hr hroom
  refine ⟨m, a', hbuild, fun p => ?_⟩
  rw [hnum.compileProperty_renumbered_iff hm (Node.keepsBlocks_of_numbersFrom hr),
    hr.fixed_iff hperm]

/-- A union that is moved and then has a third shape taken out of it, everything made in the order
in which building makes it. -/
def stacked : List Action :=
  [.shape "a" (.ground (.raw "a")) .standard, .shape "b" (.plane (.raw "b")) (.custom .white),
    .operator "u" .union (.raw "k") ["a", "b"], .translate "u" "u" [.up],
    .shape "c" (.sphere (.raw "r")) .standard, .operator "d" .difference (.raw "k") ["u", "c"]]

/-- Building `stacked` again gives the same text for every property, by
`compileProperty_rebuilt_iff`. -/
theorem compileProperty_rebuilt_iff_stacked : ∃ n m a',
    ((opened .fresh).run stacked).find? "d" = some n ∧ n.ids = [0, 1, 2, 3, 4, 5, 6] ∧
      n.describe.build .fresh = .ok m a' ∧ ∀ p, m.compileProperty p = n.compileProperty p := by
  obtain ⟨m, a', hbuild, hlines⟩ :=
    compileProperty_rebuilt_iff stacked "d" _ rfl (by decide +kernel)
  exact ⟨_, m, a', rfl, rfl, hbuild, fun p => (hlines p).2 (.inr (by decide))⟩

/-- Two grounds made in one order and joined in the other. -/
def swapped : List Action :=
  [.shape "a" (.ground (.raw "a")) .standard, .shape "b" (.ground (.raw "b")) .standard,
    .operator "u" .union (.raw "k") ["b", "a"]]

/-- Building a scene again does not always give the same text, although it took every identifier of
a fresh workshop: the distances of `swapped` start with `sdf1`, and those of the scene built again
with `sdf0`. -/
theorem not_forall_compileProperty_rebuilt :
    ¬∀ (actions : List Action) (name : String) (n : Node),
      ((opened .fresh).run actions).find? name = some n →
      (∀ i < ((opened .fresh).run actions).allocator.next, i ∈ n.ids) →
      ∃ m a', n.describe.build .fresh = .ok m a' ∧
        ∀ p, m.compileProperty p = n.compileProperty p := by
  intro h
  obtain ⟨m, a', hbuild, hlines⟩ := h swapped "u" _ rfl (by decide +kernel)
  cases hbuild
  exact absurd (hlines .sdf) (by decide +kernel)

end Workshop

end FieldShader
