import GoScaffold.Main
import GoScaffold.Host.Program
import GoScaffold.Proofs.Grammar.Found
import GoScaffold.Proofs.Grammar.Token
import GoScaffold.Proofs.Sql.Splitting
import GoScaffold.Proofs.Sql.Partition
import GoScaffold.Proofs.Text.Capitals
import GoScaffold.Proofs.Schema.Keys
import GoScaffold.Proofs.Schema.Declaration
import GoScaffold.Proofs.Schema.Reading
import GoScaffold.Proofs.Grammar.Repeated
import GoScaffold.Proofs.Schema.Printed.Column
import GoScaffold.Proofs.Schema.Printed.Key
import GoScaffold.Proofs.Schema.Printed.Table
import GoScaffold.Proofs.Artifact.Body
import GoScaffold.Proofs.Artifact.Placeholders
import GoScaffold.Proofs.Artifact.Alignment
import GoScaffold.Proofs.Sql.Stripping
import GoScaffold.Proofs.Schema.Stripped
import GoScaffold.Proofs.Grammar.Respaced
import GoScaffold.Proofs.Grammar.Steady
import GoScaffold.Proofs.Grammar.Lexeme
import GoScaffold.Proofs.Grammar.Mirrored
import GoScaffold.Proofs.Grammar.MirroredRules
import GoScaffold.Proofs.Schema.Telling
import GoScaffold.Proofs.Sql.Ended
import GoScaffold.Proofs.Schema.Batch
import GoScaffold.Proofs.Sql.Recased
import GoScaffold.Proofs.Schema.Recased
import GoScaffold.Proofs.Schema.Duplicates
import GoScaffold.Proofs.Artifact.Agreement
import GoScaffold.Proofs.Artifact.Redeclared
import GoScaffold.Proofs.Sql.Spelling
import GoScaffold.Proofs.Artifact.Paths
import GoScaffold.Proofs.Go.Reporting
import GoScaffold.Proofs.Artifact.Conventions
import GoScaffold.Proofs.Artifact.Narrowed
import GoScaffold.Proofs.Artifact.Sections
import GoScaffold.Proofs.Schema.Sound
import GoScaffold.Proofs.Schema.Members
import GoScaffold.Proofs.Schema.Remarks
import GoScaffold.Proofs.Schema.Defaults
import GoScaffold.Proofs.Schema.Trimmed
import GoScaffold.Proofs.Sql.Doubled
import GoScaffold.Proofs.Go.Interpreted
import GoScaffold.Proofs.Go.Tags
import GoScaffold.Proofs.Artifact.Assigned
import GoScaffold.Proofs.Artifact.Marked
import GoScaffold.Proofs.Artifact.Settings
import GoScaffold.Proofs.Go.References
import GoScaffold.Proofs.Artifact.References.Data
import GoScaffold.Proofs.Artifact.References.Service
import GoScaffold.Proofs.Artifact.Imports
import GoScaffold.Proofs.Go.Escapes
import GoScaffold.Proofs.Artifact.Fields
import GoScaffold.Proofs.Artifact.Pasted
import GoScaffold.Proofs.Artifact.Truncated
import GoScaffold.Proofs.Text.Forms
import GoScaffold.Proofs.Text.Initials
import GoScaffold.Proofs.Artifact.Routes
import GoScaffold.Proofs.Artifact.Restored
import GoScaffold.Proofs.Options.Displayed
import GoScaffold.Proofs.Text.Lines
import GoScaffold.Proofs.Go.Restamped
import GoScaffold.Proofs.Input.Selected
import GoScaffold.Proofs.Artifact.Lined
import GoScaffold.Proofs.Input.Counting
import GoScaffold.Proofs.Sql.LastLine
import GoScaffold.Proofs.Text.Places
import GoScaffold.Proofs.Sql.Bytes
import GoScaffold.Proofs.Grammar.Reached
import GoScaffold.Proofs.Grammar.Scanned
import GoScaffold.Proofs.Schema.Placed
