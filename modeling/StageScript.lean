import StageScript.Proofs.Canvas.Textures
import StageScript.Proofs.Color.Channels
import StageScript.Proofs.Command.Assignments
import StageScript.Proofs.Command.Comments
import StageScript.Proofs.Command.Quotation
import StageScript.Proofs.Expr.Canonical
import StageScript.Proofs.Generator.Ranges
import StageScript.Proofs.Run.Anew
import StageScript.Proofs.Run.Deliveries
import StageScript.Proofs.Run.Division
import StageScript.Proofs.Run.DrawOrder
import StageScript.Proofs.Run.FirstFrame
import StageScript.Proofs.Run.Geometry
import StageScript.Proofs.Run.HeldKeys
import StageScript.Proofs.Run.Overflow
import StageScript.Proofs.Run.Painting
import StageScript.Proofs.Script.Lines
import StageScript.Proofs.Script.Safety
import StageScript.Proofs.Stage.Folders
import StageScript.Proofs.Stage.Periods
import StageScript.Proofs.Stage.Scope
import StageScript.Proofs.Stage.Sums
import StageScript.Proofs.Token.Literals
import StageScript.Proofs.Token.Numbers
import StageScript.Proofs.Token.Resuming
import StageScript.Proofs.Workbench.Console
