import FieldShader.Proofs.Scene.Declared
import Mathlib.Algebra.GroupWithZero.Nat

/-!
# Identifiers up to the limit

An allocator answers requests for identifiers one after the other and is not asked to forget any of
them. `Allocator.granted` are the blocks it gives away on the way, and `Allocator.after` is what it
is in the end; a request that is refused leaves it as it was and gives nothing. One request after
another, the blocks fill everything from the first identifier to the next one, without a gap and
without an overlap (`Allocator.flatten_granted`).

An operator takes one block, as long as it has operands, and computes the numbers of its steps from
the first identifier of the block without looking at the limit again. `Allocator.never_wraps` says
why it need not: what was reserved for it ends below the limit.
-/

namespace FieldShader

namespace Build

variable {a : Allocator}

/-- A request is granted exactly when it is for something and what it is for fits. -/
theorem exists_reserve_eq_ok_iff {count : Nat} :
    (∃ base a', reserve count a = .ok base a') ↔
      0 < count ∧ a.next + count ≤ identifierLimit := by
  constructor
  · rintro ⟨base, a', h⟩
    obtain ⟨hne, hfits, -, -⟩ := reserve_eq_ok.1 h
    exact ⟨Nat.pos_of_ne_zero hne, hfits⟩
  · rintro ⟨hpos, hfits⟩
    exact ⟨a.next, ⟨a.next + count, hfits⟩,
      reserve_eq_ok.2 ⟨Nat.ne_of_gt hpos, hfits, rfl, rfl⟩⟩

section
variable {kind : OperatorKind} {smoothing : Scalar} {children : List Node}

/-- An operator is built exactly from two operands on, if there are as many identifiers left. -/
theorem exists_operator_eq_ok_iff :
    (∃ n a', operator kind smoothing children a = .ok n a') ↔
      2 ≤ children.length ∧ a.next + children.length ≤ identifierLimit := by
  unfold operator
  split
  · rename_i harity
    refine iff_of_false ?_ fun h => by omega
    rintro ⟨n, a', h⟩
    exact throw_ne_ok h
  · rename_i harity
    constructor
    · rintro ⟨n, a', h⟩
      obtain ⟨base, a₁, hreserve, -⟩ := bind_eq_ok.1 h
      exact ⟨by omega, (exists_reserve_eq_ok_iff.1 ⟨base, a₁, hreserve⟩).2⟩
    · rintro ⟨-, hfits⟩
      obtain ⟨base, a₁, hreserve⟩ := exists_reserve_eq_ok_iff.2 ⟨by omega, hfits⟩
      exact ⟨_, a₁, bind_eq_ok.2 ⟨base, a₁, hreserve, rfl⟩⟩

/-- An operator that is refused takes nothing, be it for want of operands or of identifiers. -/
theorem eq_of_operator_eq_error {e : BuildError} {a' : Allocator}
    (h : operator kind smoothing children a = .error e a') : a' = a := by
  unfold operator at h
  split at h
  · exact (throw_eq_error.1 h).2.symm
  · rcases bind_eq_error.1 h with h | ⟨base, a₁, -, h⟩
    · exact eq_of_reserve_eq_error h
    · exact absurd h pure_ne_error

end

end Build

namespace Allocator

variable {a a' : Allocator} {count base : Nat} {counts : List Nat} {e : BuildError}

/-! ## Requests one after the other -/

/-- The allocator after requests for identifiers. One that is refused does not end them. -/
def after : Allocator → List Nat → Allocator
  | a, [] => a
  | a, count :: counts =>
    match Build.reserve count a with
    | .ok _ a' | .error _ a' => a'.after counts

/-- The blocks that the requests are granted, in order. -/
def granted : Allocator → List Nat → List (List Nat)
  | _, [] => []
  | a, count :: counts =>
    match Build.reserve count a with
    | .ok base a' => List.range' base count :: a'.granted counts
    | .error _ a' => a'.granted counts

/-- A request that is granted moves the allocator past its block. -/
theorem after_cons_of_ok (h : Build.reserve count a = .ok base a') :
    a.after (count :: counts) = a'.after counts := by rw [after, h]

/-- The block of a request that is granted comes before those of later ones. -/
theorem granted_cons_of_ok (h : Build.reserve count a = .ok base a') :
    a.granted (count :: counts) = List.range' base count :: a'.granted counts := by
  rw [granted, h]

/-- After a request that is refused everything goes on as if it had not been made. -/
theorem after_cons_of_error (h : Build.reserve count a = .error e a') :
    a.after (count :: counts) = a.after counts := by
  rw [after, h, Build.eq_of_reserve_eq_error h]

/-- A request that is refused has no block. -/
theorem granted_cons_of_error (h : Build.reserve count a = .error e a') :
    a.granted (count :: counts) = a.granted counts := by
  rw [granted, h, Build.eq_of_reserve_eq_error h]

/-- Requests only take identifiers. -/
theorem next_le_after (a : Allocator) (counts : List Nat) : a.next ≤ (a.after counts).next := by
  induction counts generalizing a with
  | nil => exact Nat.le_refl _
  | cons count counts ih =>
    cases h : Build.reserve count a with
    | ok base a' =>
      rw [after_cons_of_ok h]
      exact Nat.le_trans ((Build.grows_reserve count a a').1 base h) (ih a')
    | error e a' =>
      rw [after_cons_of_error h]
      exact ih a

/-- **The blocks fill everything that was taken**, in order. -/
theorem flatten_granted (a : Allocator) (counts : List Nat) :
    (a.granted counts).flatten = List.range' a.next ((a.after counts).next - a.next) := by
  induction counts generalizing a with
  | nil => simp [granted, after]
  | cons count counts ih =>
    cases h : Build.reserve count a with
    | ok base a' =>
      obtain ⟨-, -, rfl, hnext⟩ := Build.reserve_eq_ok.1 h
      have hle := a'.next_le_after counts
      have hsplit : (a'.after counts).next - a.next =
          count + ((a'.after counts).next - a'.next) := by omega
      rw [granted_cons_of_ok h, after_cons_of_ok h, List.flatten_cons, ih, hsplit, hnext,
        List.range'_append_1]
    | error e a' => rw [granted_cons_of_error h, after_cons_of_error h, ih]

/-- Every identifier of a block is below those of the later blocks. -/
theorem granted_ordered (a : Allocator) (counts : List Nat) :
    (a.granted counts).Pairwise fun block later => ∀ i ∈ block, ∀ j ∈ later, i < j := by
  have hsorted : (a.granted counts).flatten.Pairwise (· < ·) := by
    rw [flatten_granted]
    exact List.pairwise_lt_range'
  exact (List.pairwise_flatten.1 hsorted).2

/-! ## Numbers of an operator -/

/-- The sum of two numbers that is below the limit is the same in words of 32 bits. -/
theorem toNat_ofNat_add {i j : Nat} (h : i + j ≤ identifierLimit) :
    (UInt32.ofNat i + UInt32.ofNat j).toNat = i + j := by
  unfold identifierLimit at h
  rw [UInt32.toNat_add, UInt32.toNat_ofNat', UInt32.toNat_ofNat']
  omega

/-- **No identifier wraps around, and none is given twice.** After any requests, one more is granted
exactly when it is for something and its last identifier is below `2 ^ 32 - 1`; a refused one
leaves the allocator as it was. The blocks that were granted do not meet, each is above those
before it, and together they are everything from the first identifier to the next one.

So with any allocator, an operator is built exactly from two operands on, if there are as many
identifiers left, and when it is refused the allocator is as it was. When it is built, the numbers
that its lines declare after those of its operands, and that its list of names has there, are its
own identifier plus the number of a step. All of them are below the allocator's next identifier,
which is at most `2 ^ 32 - 1`, and adding them in words of 32 bits gives the same. -/
theorem never_wraps (a : Allocator) (counts : List Nat) :
    (∀ count,
      ((∃ base b, Build.reserve count (a.after counts) = .ok base b) ↔
        0 < count ∧ (a.after counts).next + count ≤ 2 ^ 32 - 1) ∧
      ∀ e b, Build.reserve count (a.after counts) = .error e b → b = a.after counts) ∧
    (a.granted counts).Pairwise List.Disjoint ∧
    ((a.granted counts).Pairwise fun block later => ∀ i ∈ block, ∀ j ∈ later, i < j) ∧
    (a.granted counts).flatten = List.range' a.next ((a.after counts).next - a.next) ∧
    ∀ (b : Allocator) (kind : OperatorKind) (smoothing : Scalar) (children : List Node),
      ((∃ n b', Build.operator kind smoothing children b = .ok n b') ↔
        2 ≤ children.length ∧ b.next + children.length ≤ 2 ^ 32 - 1) ∧
      (∀ e b', Build.operator kind smoothing children b = .error e b' → b' = b) ∧
      ∀ n b', Build.operator kind smoothing children b = .ok n b' →
        (∀ space p, (n.emit space p).targets <+: n.declared p) ∧
        (∀ p, n.declared p = Node.declaredAll p children ++
          ((List.range' 1 (children.length - 1)).map fun step => .numbered p (n.id + step)) ++
            [.numbered p n.id]) ∧
        (∀ step < children.length, n.id + step < b'.next ∧
          (UInt32.ofNat n.id + UInt32.ofNat step).toNat = n.id + step) ∧
        b'.next ≤ 2 ^ 32 - 1 := by
  have hordered := a.granted_ordered counts
  refine ⟨fun count => ⟨Build.exists_reserve_eq_ok_iff, fun e b => Build.eq_of_reserve_eq_error⟩,
    ?_, hordered, a.flatten_granted counts, fun b kind smoothing children => ?_⟩
  · refine hordered.imp fun hlt i hi hi' => ?_
    exact Nat.lt_irrefl i (hlt i hi i hi')
  · refine ⟨Build.exists_operator_eq_ok_iff, fun e b' => Build.eq_of_operator_eq_error,
      fun n b' h => ?_⟩
    obtain ⟨-, rfl, hnext⟩ := Build.operator_eq_ok h
    have hle : b'.next ≤ identifierLimit := b'.next_le
    refine ⟨fun space p => (Node.emit_declares _ space p).initial, fun p => ?_,
      fun step hstep => ?_, hle⟩
    · rw [Node.declared, Node.id, List.range'_eq_map_range, List.map_map]
      simp only [Function.comp_def, Nat.add_assoc]
    · have hid : (Node.operator b.next kind smoothing children).id = b.next := rfl
      rw [hid]
      exact ⟨by omega, toNat_ofNat_add (by omega)⟩

/-- Five identifiers are left: three are granted, four are not, and two take the last ones. An
operator over three operands is built with the last three, and then none at all. -/
theorem never_wraps_last :
    Allocator.granted { next := 2 ^ 32 - 6 } [0, 3, 4, 2, 1] =
      [[2 ^ 32 - 6, 2 ^ 32 - 5, 2 ^ 32 - 4], [2 ^ 32 - 3, 2 ^ 32 - 2]] ∧
    (Allocator.after { next := 2 ^ 32 - 6 } [0, 3, 4, 2, 1]).next = 2 ^ 32 - 1 ∧
    (¬∃ base b, Build.reserve 1 (Allocator.after { next := 2 ^ 32 - 6 } [0, 3, 4, 2, 1]) =
      .ok base b) ∧
    ∃ n b', Build.operator .cut (.raw "k") [.shape 0 (.ground .up) .standard,
        .material 1 .standard, .shape 2 (.plane .up) .standard] { next := 2 ^ 32 - 4 } =
        .ok n b' ∧
      n.declared .color = [.numbered .color 0, .numbered .color 1, .numbered .color 2,
        .numbered .color (2 ^ 32 - 3), .numbered .color (2 ^ 32 - 2),
        .numbered .color (2 ^ 32 - 4)] ∧
      (UInt32.ofNat n.id + 2).toNat = 2 ^ 32 - 2 ∧ b'.next ≤ 2 ^ 32 - 1 := by
  obtain ⟨hrequest, -, -, -, hoperator⟩ := never_wraps { next := 2 ^ 32 - 6 } [0, 3, 4, 2, 1]
  obtain ⟨hbuilt, -, hnumbers⟩ := hoperator { next := 2 ^ 32 - 4 } .cut (.raw "k")
    [.shape 0 (.ground .up) .standard, .material 1 .standard, .shape 2 (.plane .up) .standard]
  obtain ⟨n, b', h⟩ := hbuilt.2 (by decide)
  obtain ⟨-, hdeclared, hsum, hle⟩ := hnumbers n b' h
  refine ⟨by decide, by decide, fun hone => ?_, n, b', h, ?_, ?_, hle⟩
  · exact absurd ((hrequest 1).1.1 hone) (by decide)
  · rw [hdeclared]
    cases h
    rfl
  · refine (hsum 2 (by decide)).2.trans ?_
    cases h
    rfl

end Allocator

end FieldShader
