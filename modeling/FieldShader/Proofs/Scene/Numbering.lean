import FieldShader.Proofs.Scene.Tree
import Mathlib.Data.List.Nodup

/-!
# Numbering of scenes

A tree is `Numbered` when its identifiers are the ones a builder gives: no two variables of it can
meet, every operator has at least two operands, and the identifiers of an operator are above all
those of its operands. Several such trees that share no identifier, all numbered within bounds,
are a `Forest`; operands of an operator are one, and an operator over a forest numbered below `hi`
with identifiers from `hi` on is numbered again (`Forest.operator`).

`Description.build_forest` follows a description through the builder: whatever it builds is
numbered from the allocator's next identifier before the build up to the one after it. That the
identifiers only grow holds of failed builds too (`Description.build_grows`), which keep what they
have taken.
-/

namespace FieldShader

namespace Node

/-- The identifiers of the tree are as a builder gives them. -/
inductive Numbered : Node → Prop
  | shape (id : Nat) (primitive : Primitive) (finish : Finish) :
      Numbered (.shape id primitive finish)
  | material (id : Nat) (finish : Finish) : Numbered (.material id finish)
  | transform {child : Node} (mapping : Mapping) (h : Numbered child) :
      Numbered (.transform mapping child)
  | operator {children : List Node} {id : Nat} (kind : OperatorKind) (smoothing : Scalar)
      (arity : 2 ≤ children.length) (operands : ∀ c ∈ children, Numbered c)
      (nodup : (idsAll children).Nodup) (below : ∀ i ∈ idsAll children, i < id) :
      Numbered (.operator id kind smoothing children)

/-- A numbered tree owns no identifier twice. -/
theorem Numbered.nodup {n : Node} (h : n.Numbered) : n.ids.Nodup := by
  induction h with
  | shape | material => simp
  | transform mapping _ ih => simpa using ih
  | @operator children id kind smoothing _ _ hnd hlt _ =>
    rw [ids_operator, List.nodup_append]
    refine ⟨hnd, List.nodup_range', fun i hi j hj => ?_⟩
    have hi := hlt i hi
    have hj := List.mem_range'_1.1 hj
    omega

/-- The identifiers of every operator of a numbered tree are above those of its descendants. -/
theorem Numbered.below_of_mem_parts {n : Node} (h : n.Numbered) {id : Nat} {kind : OperatorKind}
    {smoothing : Scalar} {children : List Node}
    (hm : Node.operator id kind smoothing children ∈ n.parts) :
    2 ≤ children.length ∧ ∀ i ∈ idsAll children, i < id := by
  induction h with
  | shape | material => simp [parts] at hm
  | transform mapping _ ih =>
    rcases mem_parts_transform.1 hm with heq | hm
    · cases heq
    · exact ih hm
  | operator kind smoothing harity _ _ hlt ih =>
    rcases mem_parts_operator.1 hm with heq | ⟨c, hc, hm⟩
    · cases heq
      exact ⟨harity, hlt⟩
    · exact ih c hc hm

/-- Repainting changes no identifier and so keeps a tree numbered. -/
theorem Numbered.repaint (finish : Finish) {n : Node} (h : n.Numbered) :
    (n.repaint finish).Numbered := by
  induction h with
  | shape id primitive _ => exact .shape id primitive finish
  | material id _ => exact .material id finish
  | transform mapping _ ih => exact .transform mapping ih
  | @operator children id kind smoothing harity _ hnd hlt ih =>
    rw [Node.repaint, repaintAll_eq_map]
    refine .operator kind smoothing (by simpa using harity) (fun c hc => ?_) ?_ ?_
    · obtain ⟨m, hm, rfl⟩ := List.mem_map.1 hc
      exact ih m hm
    · rwa [idsAll_map_repaint]
    · rwa [idsAll_map_repaint]

/-- Translations own no identifiers and keep a tree numbered. -/
theorem Numbered.translate (offset : Vector) {n : Node} (h : n.Numbered) :
    (n.translate offset).Numbered := .transform _ h

/-! ## Trees side by side -/

/-- Numbered trees that share no identifier, numbered from `lo` on and below `hi`. -/
structure Forest (lo hi : Nat) (ns : List Node) : Prop where
  numbered : ∀ n ∈ ns, n.Numbered
  nodup : (idsAll ns).Nodup
  bounds : ∀ i ∈ idsAll ns, lo ≤ i ∧ i < hi

namespace Forest

variable {lo mid hi : Nat} {n : Node} {ns : List Node}

/-- No tree at all. -/
theorem nil (lo hi : Nat) : Forest lo hi [] :=
  ⟨nofun, List.nodup_nil, fun _ hi => nomatch mem_idsAll.1 hi⟩

/-- One numbered tree. -/
theorem singleton (hn : n.Numbered) (h : ∀ i ∈ n.ids, lo ≤ i ∧ i < hi) : Forest lo hi [n] := by
  refine ⟨fun m hm => ?_, ?_, fun i hi => ?_⟩
  · rwa [List.mem_singleton.1 hm]
  · simpa [idsAll] using hn.nodup
  · exact h i (by simpa [idsAll] using hi)

/-- A tree in front of trees that share no identifier with it. -/
theorem cons (hn : n.Numbered) (hb : ∀ i ∈ n.ids, lo ≤ i ∧ i < hi) (h : Forest lo hi ns)
    (hd : n.ids.Disjoint (idsAll ns)) : Forest lo hi (n :: ns) := by
  refine ⟨fun m hm => ?_, ?_, fun i hi => ?_⟩
  · rcases List.mem_cons.1 hm with rfl | hm
    · exact hn
    · exact h.numbered m hm
  · exact List.nodup_append'.2 ⟨hn.nodup, h.nodup, hd⟩
  · rcases List.mem_append.1 hi with hi | hi
    · exact hb i hi
    · exact h.bounds i hi

/-- The only tree of a forest is numbered within its bounds. -/
theorem head (h : Forest lo hi (n :: ns)) : n.Numbered ∧ ∀ i ∈ n.ids, lo ≤ i ∧ i < hi :=
  ⟨h.numbered n List.mem_cons_self, fun i hi => h.bounds i (List.mem_append_left _ hi)⟩

/-- Trees that are numbered one after the other. -/
theorem cons_of_le (hn : Forest lo mid [n]) (h : Forest mid hi ns) (hlo : lo ≤ mid)
    (hhi : mid ≤ hi) : Forest lo hi (n :: ns) := by
  obtain ⟨hnum, hb⟩ := hn.head
  refine cons hnum (fun i hi => ?_) ⟨h.numbered, h.nodup, fun i hi => ?_⟩ fun i hi hi' => ?_
  · have := hb i hi
    omega
  · have := h.bounds i hi
    omega
  · have := hb i hi
    have := h.bounds i hi'
    omega

/-- An operator over a forest, numbered from the end of the forest on. -/
theorem operator (h : Forest lo hi ns) (hlo : lo ≤ hi) (kind : OperatorKind) (smoothing : Scalar)
    (arity : 2 ≤ ns.length) : Forest lo (hi + ns.length) [.operator hi kind smoothing ns] := by
  refine singleton (.operator kind smoothing arity h.numbered h.nodup fun i hi => (h.bounds i hi).2)
    fun i hi => ?_
  rw [ids_operator, List.mem_append, List.mem_range'_1] at hi
  rcases hi with hi | hi
  · have := h.bounds i hi
    omega
  · omega

/-- A transform around the only tree of a forest. -/
theorem transform (h : Forest lo hi [n]) (mapping : Mapping) :
    Forest lo hi [.transform mapping n] :=
  singleton (.transform mapping h.head.1) (by simpa using h.head.2)

end Forest

end Node

/-! ## What a build takes -/

namespace Build

variable {α β : Type} {b : Build α} {a a' : Allocator}

/-- A sequence succeeds when both parts do, the second from where the first one left off. -/
theorem bind_eq_ok {f : α → Build β} {y : β} :
    (b >>= f) a = .ok y a' ↔ ∃ x a₁, b a = .ok x a₁ ∧ f x a₁ = .ok y a' := by
  show EStateM.bind b f a = _ ↔ _
  unfold EStateM.bind
  cases h : b a with
  | ok x a₁ => simp
  | error e a₁ => simp

/-- A sequence fails in its first part, or in its second from where the first one left off. -/
theorem bind_eq_error {f : α → Build β} {e : BuildError} :
    (b >>= f) a = .error e a' ↔
      b a = .error e a' ∨ ∃ x a₁, b a = .ok x a₁ ∧ f x a₁ = .error e a' := by
  show EStateM.bind b f a = _ ↔ _
  unfold EStateM.bind
  cases h : b a with
  | ok x a₁ => simp
  | error e a₁ => simp

@[simp] theorem pure_eq_ok {x y : α} :
    (pure x : Build α) a = .ok y a' ↔ x = y ∧ a = a' := by
  show EStateM.Result.ok x a = _ ↔ _
  simp

@[simp] theorem pure_ne_error {x : α} {e : BuildError} :
    (pure x : Build α) a ≠ .error e a' := nofun

@[simp] theorem throw_ne_ok {e : BuildError} {y : α} :
    (throw e : Build α) a ≠ .ok y a' := nofun

@[simp] theorem throw_eq_error {e e' : BuildError} :
    (throw e : Build α) a = .error e' a' ↔ e = e' ∧ a = a' := by
  show EStateM.Result.error e a = _ ↔ _
  simp

/-- A reservation answers with the next identifier and moves past the block. -/
theorem reserve_eq_ok {count base : Nat} :
    reserve count a = .ok base a' ↔
      count ≠ 0 ∧ a.next + count ≤ identifierLimit ∧ base = a.next ∧
        a'.next = a.next + count := by
  rw [← Allocator.reserve_eq_ok_iff]
  unfold reserve
  cases h : a.reserve count with
  | ok x => obtain ⟨base', a₁⟩ := x; simp
  | error e => simp

/-- A refused reservation takes nothing. -/
theorem eq_of_reserve_eq_error {count : Nat} {e : BuildError}
    (h : reserve count a = .error e a') : a' = a := by
  unfold reserve at h
  split at h
  · cases h
  · cases h
    rfl

/-- The build never gives identifiers back, not even when it fails. -/
def Grows (b : Build α) : Prop :=
  ∀ a a', (∀ x, b a = .ok x a' → a.next ≤ a'.next) ∧ ∀ e, b a = .error e a' → a.next ≤ a'.next

/-- A result alone takes nothing. -/
theorem grows_pure (x : α) : Grows (pure x : Build α) := by
  refine fun a a' => ⟨fun y h => ?_, fun e h => absurd h pure_ne_error⟩
  obtain ⟨-, rfl⟩ := pure_eq_ok.1 h
  exact Nat.le_refl _

/-- An error alone takes nothing. -/
theorem grows_throw (e : BuildError) : Grows (throw e : Build α) := by
  refine fun a a' => ⟨fun y h => absurd h throw_ne_ok, fun e' h => ?_⟩
  obtain ⟨-, rfl⟩ := throw_eq_error.1 h
  exact Nat.le_refl _

/-- A sequence of growing builds grows. -/
theorem Grows.bind {f : α → Build β} (hb : Grows b) (hf : ∀ x, Grows (f x)) :
    Grows (b >>= f) := by
  refine fun a a' => ⟨fun y h => ?_, fun e h => ?_⟩
  · obtain ⟨x, a₁, h₁, h₂⟩ := bind_eq_ok.1 h
    exact Nat.le_trans ((hb a a₁).1 x h₁) ((hf x a₁ a').1 y h₂)
  · rcases bind_eq_error.1 h with h | ⟨x, a₁, h₁, h₂⟩
    · exact (hb a a').2 e h
    · exact Nat.le_trans ((hb a a₁).1 x h₁) ((hf x a₁ a').2 e h₂)

/-- A reservation moves the next identifier up or not at all. -/
theorem grows_reserve (count : Nat) : Grows (reserve count) := by
  refine fun a a' => ⟨fun base h => ?_, fun e h => ?_⟩
  · obtain ⟨-, -, -, hnext⟩ := reserve_eq_ok.1 h
    omega
  · obtain rfl := eq_of_reserve_eq_error h
    exact Nat.le_refl _

/-- Building a leaf, given as a function of its identifier, takes one. -/
theorem leaf_forest {leaf : Nat → Node} (hnum : ∀ id, (leaf id).Numbered)
    (hids : ∀ id, (leaf id).ids = [id]) {n : Node}
    (h : (do return leaf (← reserve 1) : Build Node) a = .ok n a') :
    Node.Forest a.next a'.next [n] := by
  obtain ⟨id, a₁, h₁, h₂⟩ := bind_eq_ok.1 h
  obtain ⟨rfl, rfl⟩ := pure_eq_ok.1 h₂
  obtain ⟨-, -, rfl, hnext⟩ := reserve_eq_ok.1 h₁
  refine .singleton (hnum _) fun i hi => ?_
  rw [hids, List.mem_singleton] at hi
  omega

/-- A shape is numbered within the block it takes. -/
theorem shape_forest {primitive : Primitive} {finish : Finish} {n : Node}
    (h : shape primitive finish a = .ok n a') : Node.Forest a.next a'.next [n] :=
  leaf_forest (fun id => .shape id primitive finish) (fun _ => by simp) h

/-- A material leaf is numbered within the block it takes. -/
theorem material_forest {finish : Finish} {n : Node} (h : material finish a = .ok n a') :
    Node.Forest a.next a'.next [n] :=
  leaf_forest (fun id => .material id finish) (fun _ => by simp) h

/-- An operator is built exactly from two operands on, with as many identifiers as operands. -/
theorem operator_eq_ok {kind : OperatorKind} {smoothing : Scalar} {children : List Node}
    {n : Node} (h : operator kind smoothing children a = .ok n a') :
    2 ≤ children.length ∧ n = .operator a.next kind smoothing children ∧
      a'.next = a.next + children.length := by
  unfold operator at h
  split at h
  · exact absurd h throw_ne_ok
  · rename_i harity
    obtain ⟨id, a₁, h₁, h₂⟩ := bind_eq_ok.1 h
    obtain ⟨rfl, rfl⟩ := pure_eq_ok.1 h₂
    obtain ⟨-, -, rfl, hnext⟩ := reserve_eq_ok.1 h₁
    exact ⟨by omega, rfl, hnext⟩

/-- Leaves and operators only take identifiers. -/
theorem grows_shape (primitive : Primitive) (finish : Finish) : Grows (shape primitive finish) :=
  (grows_reserve 1).bind fun _ => grows_pure _

theorem grows_material (finish : Finish) : Grows (material finish) :=
  (grows_reserve 1).bind fun _ => grows_pure _

theorem grows_operator (kind : OperatorKind) (smoothing : Scalar) (children : List Node) :
    Grows (operator kind smoothing children) := by
  unfold operator
  split
  · exact grows_throw _
  · exact (grows_reserve _).bind fun _ => grows_pure _

end Build

/-! ## Building a description -/

namespace Description

/-- Induction over a description. At an operator the statement may be assumed of every operand. -/
@[elab_as_elim]
theorem recTree {motive : Description → Prop}
    (shape : ∀ primitive given, motive (.shape primitive given))
    (material : ∀ color, motive (.material color))
    (translate : ∀ offset child, motive child → motive (.translate offset child))
    (operator : ∀ kind smoothing children, (∀ d ∈ children, motive d) →
      motive (.operator kind smoothing children)) (d : Description) : motive d := by
  refine @Description.rec motive (fun ds => ∀ d ∈ ds, motive d) shape material translate operator
    (fun d hd => nomatch hd) (fun head tail hhead htail d hd => ?_) d
  rcases List.mem_cons.1 hd with rfl | hd
  · exact hhead
  · exact htail d hd

/-- Building several trees only takes identifiers if building each of them does. -/
theorem buildAll_grows {ds : List Description} (h : ∀ d ∈ ds, Build.Grows d.build) :
    Build.Grows (buildAll ds) := by
  induction ds with
  | nil => exact Build.grows_pure _
  | cons d ds ih =>
    rw [buildAll]
    refine (h d List.mem_cons_self).bind fun n => ?_
    exact (ih fun d hd => h d (List.mem_cons_of_mem _ hd)).bind fun _ => Build.grows_pure _

/-- Building a description only takes identifiers, whether or not it succeeds. -/
theorem build_grows (d : Description) : Build.Grows d.build := by
  induction d using recTree with
  | shape primitive given => exact Build.grows_shape _ _
  | material color => exact Build.grows_material _
  | translate offset child ih => exact ih.bind fun _ => Build.grows_pure _
  | operator kind smoothing children ih =>
    rw [build]
    split
    · exact Build.grows_throw _
    · exact (buildAll_grows ih).bind fun _ => Build.grows_operator _ _ _

/-- Several descriptions build a forest, as many trees as there are descriptions, if each of them
builds one tree. -/
theorem buildAll_forest {ds : List Description} {a a' : Allocator} {ns : List Node}
    (ih : ∀ d ∈ ds, ∀ {a a' : Allocator} {n : Node}, d.build a = .ok n a' →
      Node.Forest a.next a'.next [n])
    (h : buildAll ds a = .ok ns a') :
    ns.length = ds.length ∧ Node.Forest a.next a'.next ns := by
  induction ds generalizing a ns with
  | nil =>
    obtain ⟨rfl, rfl⟩ := Build.pure_eq_ok.1 h
    exact ⟨rfl, .nil _ _⟩
  | cons d ds ihds =>
    rw [buildAll] at h
    obtain ⟨n, a₁, h₁, h⟩ := Build.bind_eq_ok.1 h
    obtain ⟨ms, a₂, h₂, h⟩ := Build.bind_eq_ok.1 h
    obtain ⟨rfl, rfl⟩ := Build.pure_eq_ok.1 h
    obtain ⟨hlen, hms⟩ := ihds (fun d hd => ih d (List.mem_cons_of_mem _ hd)) h₂
    have hle₁ := (d.build_grows a a₁).1 n h₁
    have hle₂ := (buildAll_grows (fun d _ => d.build_grows) a₁ a₂).1 ms h₂
    exact ⟨by rw [List.length_cons, List.length_cons, hlen],
      (ih d List.mem_cons_self h₁).cons_of_le hms hle₁ hle₂⟩

/-- **A description builds a numbered tree** out of the identifiers that the build takes. -/
theorem build_forest {d : Description} {a a' : Allocator} {n : Node}
    (h : d.build a = .ok n a') : Node.Forest a.next a'.next [n] := by
  induction d using recTree generalizing a a' n with
  | shape primitive given => exact Build.shape_forest h
  | material color => exact Build.material_forest h
  | translate offset child ih =>
    obtain ⟨m, a₁, h₁, h₂⟩ := Build.bind_eq_ok.1 h
    obtain ⟨rfl, rfl⟩ := Build.pure_eq_ok.1 h₂
    exact (ih h₁).transform _
  | operator kind smoothing children ih =>
    rw [build] at h
    split at h
    · exact absurd h Build.throw_ne_ok
    · obtain ⟨ns, a₁, h₁, h₂⟩ := Build.bind_eq_ok.1 h
      obtain ⟨-, hns⟩ := buildAll_forest (fun d hd => ih d hd) h₁
      obtain ⟨harity, rfl, hnext⟩ := Build.operator_eq_ok h₂
      rw [hnext]
      exact hns.operator ((buildAll_grows (fun d _ => d.build_grows) a a₁).1 ns h₁) kind smoothing
        harity

end Description

end FieldShader
