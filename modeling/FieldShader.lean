import FieldShader.Program.Directory
import FieldShader.Main
import FieldShader.Proofs.Scene.Preservation
import FieldShader.Proofs.Scene.Listed
import FieldShader.Proofs.Scene.Defects
import FieldShader.Proofs.Scene.Rebuilding
import FieldShader.Proofs.Scene.Refusal
import FieldShader.Proofs.Scene.Blocks
import FieldShader.Proofs.Scene.Blending
import FieldShader.Proofs.Scene.Readings
import FieldShader.Proofs.Scene.Reservations
import FieldShader.Proofs.Scene.Entries
import FieldShader.Proofs.Scene.Sinking
import FieldShader.Proofs.Scene.Dependence
import FieldShader.Proofs.Scene.Repainting
import FieldShader.Proofs.Scene.Writing
import FieldShader.Proofs.Scene.Forms
import FieldShader.Proofs.Template.Document
import FieldShader.Proofs.Template.Locality
import FieldShader.Proofs.Template.Endings
import FieldShader.Proofs.Template.Leftovers
import FieldShader.Proofs.Template.Settled
import FieldShader.Proofs.Template.Logged
import FieldShader.Proofs.SceneFile.RoundTrip
import FieldShader.Proofs.SceneFile.Accepted
import FieldShader.Proofs.SceneFile.Literals
import FieldShader.Proofs.Program.Delivery
