import FieldShader.Proofs.Scene.Constants
import FieldShader.Proofs.SceneFile.Accepted

/-!
# Numbers of a scene file as literals

The lines of a scene that was read from a file hold literals of floating-point numbers, but for one
kind of file. A numeral that is out of range is read as an infinity, and an infinity has no literal:
its name is written, which the shading language does not take for a number.
`SceneFile.literals_of_ofString` says that nothing else can go wrong.
-/

namespace FieldShader

/-- A number is finite if it is nothing else. -/
theorem Single.isFinite_iff_of_ne_nan {x : Single} (h : x.value ≠ .nan) :
    x.isFinite = true ↔ ∀ negative, x.value ≠ .infinite negative := by
  unfold isFinite
  cases hvalue : x.value with
  | nan => exact absurd hvalue h
  | infinite negative => simp
  | finite negative m => simp

namespace SceneFile

/-- **Numbers that were read are written as literals** of floating-point numbers exactly if they
were not out of range; the others are infinities and written as such. In the lines that the scene
of the file declares, for whatever property and from whatever identifier on, there is a literal for
each number, and unless it belongs to such an infinity of the file it is one of a floating-point
number. -/
theorem literals_of_ofString {s : String} {f : SceneFile} (h : ofString s = .ok f) :
    (∀ x ∈ f.numbers,
      (IsFloatLiteral x.literal ↔ ∀ negative, x.value ≠ .infinite negative) ∧
        ∀ negative, x.value = .infinite negative →
          x.literal = if negative then "-inf.0" else "inf.0") ∧
    ∀ (a a' : Allocator) (n : Node), f.root.build a = .ok n a' →
      ∀ (p : Property), ∀ d ∈ (n.emit .world p).declarations, ∀ x ∈ d.value.constants,
        x.literal.toList <:+: d.render.toList ∧
          (IsFloatLiteral x.literal ∨
            x ∈ f.numbers ∧ ∃ negative, x.value = .infinite negative) := by
  have hliteral : ∀ x ∈ f.numbers,
      (IsFloatLiteral x.literal ↔ ∀ negative, x.value ≠ .infinite negative) := fun x hx =>
    x.isFloatLiteral_literal_iff.trans
      (Single.isFinite_iff_of_ne_nan ((gives_ofSymbols _ f h).ne_nan x hx))
  refine ⟨fun x hx => ⟨hliteral x hx, fun negative => Single.literal_of_infinite⟩, ?_⟩
  intro a a' n hbuild p d hd x hx
  refine ⟨d.literal_infix_render hx, ?_⟩
  rcases Node.mem_constants_emit hd hx with hfixed | hspace | hnumbers
  · have hfinite : ∀ x ∈ Single.fixed, x.isFinite = true := by decide
    exact .inl (x.isFloatLiteral_literal_iff.2 (hfinite x hfixed))
  · cases hspace
  · rw [Description.describe_of_build hbuild] at hnumbers
    by_cases hinfinite : ∃ negative, x.value = .infinite negative
    · exact .inr ⟨hnumbers, hinfinite⟩
    · exact .inl ((hliteral x hnumbers).2 (not_exists.1 hinfinite))

/-- A sphere of a radius that is out of range, in a color at the ends of the range. -/
def glaring : String :=
  "\x7b\"version\":\"0\",\"root\":[\"sphere\",1e39,[[1e-46,-0.0,3.4028235e38]]]\x7d"

/-- The scene of `glaring` when it is built. -/
def glare : Node :=
  .shape 0 (.sphere (.number (.ofBits 0x7f800000)))
    (.custom ⟨.ofSingles .zero (.ofBits 0x80000000) (.ofBits 0x7f7fffff)⟩)

/-- Whether a file has the sphere of `glare` for its scene. -/
def glares (f : SceneFile) : Bool :=
  match f.root with
  | .shape (.sphere radius) (some material) =>
    radius = .number (.ofBits 0x7f800000) &&
      material.color = .ofSingles .zero (.ofBits 0x80000000) (.ofBits 0x7f7fffff)
  | _ => false

/-- What glares builds `glare`. -/
theorem build_of_glares {f : SceneFile} (h : f.glares = true) :
    f.root.build { next := 0 } = .ok glare { next := 1 } := by
  unfold glares at h
  split at h
  · rename_i radius material hroot
    rw [Bool.and_eq_true, decide_eq_true_eq, decide_eq_true_eq] at h
    obtain ⟨color⟩ := material
    obtain ⟨rfl, rfl⟩ := h
    rw [hroot]
    rfl
  · cases h

/-- The distance of `glaring` has an infinity in it, and its color has literals. -/
theorem literals_of_ofString_glaring : ∃ f, ofString glaring = .ok f ∧
    f.root.build { next := 0 } = .ok glare { next := 1 } ∧
    (∃ x ∈ f.numbers, ¬IsFloatLiteral x.literal ∧ x.literal = "inf.0") ∧
    (∃ d ∈ (glare.emit .world .sdf).declarations, "inf.0".toList <:+: d.render.toList) ∧
    ∀ d ∈ (glare.emit .world .color).declarations, ∀ x ∈ d.value.constants,
      IsFloatLiteral x.literal := by
  have hread : ∃ f, ofString glaring = .ok f ∧ glares f = true := by
    apply exists_of_any
    rw [ofString, Symbol.ofString, glaring, String.toList_ofList]
    decide +kernel
  obtain ⟨f, hf, hglares⟩ := hread
  have hbuild := build_of_glares hglares
  obtain ⟨hnumbers, hlines⟩ := literals_of_ofString hf
  have hvalue : (Single.ofBits 0x7f800000).value = .infinite false := by decide
  have hmem : Single.ofBits 0x7f800000 ∈ f.numbers := by
    rw [numbers, ← Description.describe_of_build hbuild]
    decide
  obtain ⟨hliteral, hname⟩ := hnumbers _ hmem
  have hcolor : ∀ d ∈ (glare.emit .world .color).declarations, ∀ x ∈ d.value.constants,
      x.isFinite = true := by decide
  refine ⟨f, hf, hbuild, ⟨_, hmem, fun h => hliteral.1 h false hvalue, hname false hvalue⟩,
    ⟨_, List.mem_singleton_self _, ?_⟩, fun d hd x hx => ?_⟩
  · have hradius := hlines _ _ _ hbuild .sdf _ (List.mem_singleton_self _)
      (.ofBits 0x7f800000) (by decide)
    rw [hname false hvalue] at hradius
    exact hradius.1
  · refine (hlines _ _ _ hbuild .color d hd x hx).2.resolve_right ?_
    rintro ⟨-, negative, hinfinite⟩
    have hfinite := hcolor d hd x hx
    simp [Single.isFinite, hinfinite] at hfinite

/-- **Not every number that was read is written as a literal** of a floating-point number: a radius
that is out of range is not. -/
theorem not_forall_isFloatLiteral :
    ¬∀ s f, ofString s = .ok f → ∀ x ∈ f.numbers, IsFloatLiteral x.literal := by
  have hread : ∃ f, ofString outOfRange = .ok f ∧ (!decide (AllFinite f.numbers)) = true := by
    apply exists_of_any
    rw [ofString, Symbol.ofString, outOfRange, String.toList_ofList]
    decide +kernel
  intro h
  obtain ⟨f, hf, hinfinite⟩ := hread
  have hfinite : AllFinite f.numbers := fun x hx =>
    x.isFloatLiteral_literal_iff.1 (h outOfRange f hf x hx)
  simp [hfinite] at hinfinite

end SceneFile

end FieldShader
