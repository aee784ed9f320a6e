import FieldShader.SceneFile.Basic

/-!
# The demonstration scene

A gray ground, and above it a red and a blue ball melted together with a notch cut out of them.
-/

namespace FieldShader

/-- The number of hundredths, rounded. -/
def hundredths (n : Int) : Single := .ofRatio (n < 0) n.natAbs 100

/-- A vector of hundredths. -/
def Vector.ofHundredths (x y z : Int) : Vector :=
  .ofSingles (hundredths x) (hundredths y) (hundredths z)

/-- The scene as a description. -/
def demoScene : Description :=
  let ball (radius x y z : Int) (color : Option Material) : Description :=
    .translate (.ofHundredths x y z) (.shape (.sphere (.number (hundredths radius))) color)
  let ground : Description := .shape (.ground .up) (some ⟨.ofHundredths 60 60 60⟩)
  let red := ball 50 (-35) 50 0 (some ⟨.ofHundredths 90 20 20⟩)
  let blue := ball 40 35 45 0 (some ⟨.ofHundredths 20 30 90⟩)
  let blob : Description := .operator .union (.number (hundredths 25)) [red, blue]
  let carved : Description :=
    .operator .difference (.number (hundredths 5)) [blob, ball 25 0 90 30 none]
  .operator .union (.number (hundredths 10)) [ground, carved]

/-- The scene as a file. -/
def demoFile : SceneFile := (SceneFile.ofDescription demoScene).withName "demo"

end FieldShader
