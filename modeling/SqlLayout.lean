import SqlLayout.Editor.Session
import SqlLayout.Main
import SqlLayout.Proofs.BlockAlignment
import SqlLayout.Proofs.Checking
import SqlLayout.Proofs.CommentAlignment
import SqlLayout.Proofs.Compounds
import SqlLayout.Proofs.Dumps
import SqlLayout.Proofs.EditorSettings
import SqlLayout.Proofs.Failures
import SqlLayout.Proofs.Idempotence
import SqlLayout.Proofs.IndentSizes
import SqlLayout.Proofs.Isolation
import SqlLayout.Proofs.Layers
import SqlLayout.Proofs.LookAhead
import SqlLayout.Proofs.Looks
import SqlLayout.Proofs.Origins
import SqlLayout.Proofs.Overwriting
import SqlLayout.Proofs.Places
import SqlLayout.Proofs.SaveEdits
import SqlLayout.Proofs.SelectionAlignment
import SqlLayout.Proofs.SourceLayout
import SqlLayout.Proofs.Spacing
import SqlLayout.Proofs.Statement
import SqlLayout.Proofs.Survival
import SqlLayout.Proofs.Tiling
import SqlLayout.Proofs.Watching
import SqlLayout.Proofs.WholeDocument
