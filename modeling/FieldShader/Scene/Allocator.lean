/-!
# Identifiers

Identifiers are natural numbers up to `Allocator.limit`. An allocator hands them out in blocks, each
starting where the previous one ended, so blocks never overlap. A refused reservation leaves the
allocator as it was: `Allocator.reserve` answers with an allocator only when it succeeds.
-/

namespace FieldShader

/-- Why identifiers, or a scene that needs them, are refused. -/
inductive BuildError where
  /-- A reservation of nothing. -/
  | emptyReservation
  /-- The block does not fit below the limit. -/
  | exhausted
  /-- An operator over fewer than two children; the word is the operator's. -/
  | tooFewChildren (operator : String) (count : Nat)
deriving DecidableEq

namespace BuildError

/-- The error as a message. -/
def message : BuildError → String
  | .emptyReservation => "identifier reservation must be non-empty"
  | .exhausted => "identifier space exhausted"
  | .tooFewChildren operator count =>
    operator ++ " needs at least two children, got " ++ toString count

end BuildError

/-- The bound on the identifier that comes next. -/
def identifierLimit : Nat := 0xFFFFFFFF

/-- Hands out identifiers. -/
structure Allocator where
  /-- The identifier at which the next block starts. -/
  next : Nat
  /-- No block reaches past the limit. -/
  next_le : next ≤ identifierLimit := by decide
deriving DecidableEq

namespace Allocator

/-- Nothing is handed out yet. -/
def fresh : Allocator := { next := 0 }

/-- Takes a block of identifiers, and answers with its first one and the allocator after it. -/
def reserve (a : Allocator) (count : Nat) : Except BuildError (Nat × Allocator) :=
  if count = 0 then .error .emptyReservation
  else if h : a.next + count ≤ identifierLimit then .ok (a.next, ⟨a.next + count, h⟩)
  else .error .exhausted

/-- A reservation succeeds exactly when it is non-empty and fits, and then moves the next
identifier past the block. -/
theorem reserve_eq_ok_iff {a b : Allocator} {count base : Nat} :
    a.reserve count = .ok (base, b) ↔
      count ≠ 0 ∧ a.next + count ≤ identifierLimit ∧ base = a.next ∧ b.next = a.next + count := by
  unfold reserve
  split
  · rename_i h0
    exact ⟨(nomatch ·), fun h => absurd h0 h.1⟩
  · rename_i h0
    split
    · rename_i h
      constructor
      · rintro ⟨⟩
        exact ⟨h0, h, rfl, rfl⟩
      · obtain ⟨next, _⟩ := b
        rintro ⟨-, -, rfl, rfl⟩
        rfl
    · rename_i h
      exact ⟨(nomatch ·), fun h' => absurd h'.2.1 h⟩

end Allocator

end FieldShader
