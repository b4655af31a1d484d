import RubyLens.Text.Edit
import RubyLens.Json.Reader
import RubyLens.Json.Writer
import RubyLens.Syntax.Rows
import RubyLens.Query.Highlight
import RubyLens.Query.Selection
import RubyLens.Query.Outline
import RubyLens.Lint.Diagnostic
import RubyLens.Lint.Run
import RubyLens.Settings.Load
import RubyLens.Server.Session
import RubyLens.CommandLine
import RubyLens.Main
import RubyLens.Domain.Punycode
import RubyLens.Domain.Direction
import RubyLens.Domain.Joining
import RubyLens.Domain.Mapping
import RubyLens.Domain.Name
import RubyLens.Proofs.Text.Positions
import RubyLens.Proofs.Text.LineIndex
import RubyLens.Proofs.Text.Conversion
import RubyLens.Proofs.Text.LineByLine
import RubyLens.Proofs.Text.Wire
import RubyLens.Proofs.Text.Replacement
import RubyLens.Proofs.Text.EditFilter
import RubyLens.Proofs.Text.Replay
import RubyLens.Proofs.Text.EditOrder
import RubyLens.Proofs.Syntax.Cursors
import RubyLens.Proofs.Syntax.Sites
import RubyLens.Proofs.Syntax.Arena
import RubyLens.Proofs.Syntax.Search
import RubyLens.Proofs.Syntax.Payload
import RubyLens.Proofs.Query.Selection
import RubyLens.Proofs.Server.Frame
import RubyLens.Proofs.Server.Store
import RubyLens.Proofs.Server.Lifecycle
import RubyLens.Proofs.Syntax.Layout
import RubyLens.Proofs.Query.SelectedNodes
import RubyLens.Proofs.Query.Highlight
import RubyLens.Proofs.Query.Outline
import RubyLens.Proofs.Query.Ranges
import RubyLens.Proofs.Query.Conditionals
import RubyLens.Proofs.Query.Constructs
import RubyLens.Proofs.Query.Containers
import RubyLens.Proofs.Query.PastEnd
import RubyLens.Proofs.Query.Declarations
import RubyLens.Proofs.Query.Nesting
import RubyLens.Proofs.Query.Naming
import RubyLens.Proofs.Server.QuickFix
import RubyLens.Proofs.Server.Publishing
import RubyLens.Proofs.Server.Reloading
import RubyLens.Proofs.Lint.Location
import RubyLens.Proofs.Lint.Separator
import RubyLens.Proofs.Settings.Layers
import RubyLens.Proofs.Settings.Loading
