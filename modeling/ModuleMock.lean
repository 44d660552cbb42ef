import ModuleMock.Surface.Modules
import ModuleMock.Surface.Json
import ModuleMock.Surface.Trace
import ModuleMock.Json.Reader
import ModuleMock.Json.Writer
import ModuleMock.Render
import ModuleMock.Text.WordCharacter
import ModuleMock.Text.DecimalDigit
import ModuleMock.Bundle.Purify
import ModuleMock.Bundle.Assemble
import ModuleMock.Manifest
import ModuleMock.Scaffold
import ModuleMock.CommandLine.Arguments
import ModuleMock.CommandLine.Invocation
import ModuleMock.CommandLine.Run
import ModuleMock.Service.Routes
import ModuleMock.Main
import ModuleMock.Proofs.FileTree.Reading
import ModuleMock.Proofs.Surface.Demand
import ModuleMock.Proofs.Modules.Guard
import ModuleMock.Proofs.Modules.Wildcard
import ModuleMock.Proofs.Modules.Forwarding
import ModuleMock.Proofs.Render.Layout
import ModuleMock.Proofs.Bundle.Locality
import ModuleMock.Proofs.Bundle.Splice
import ModuleMock.Proofs.FileTree.Changing
import ModuleMock.Proofs.FileTree.Naming
import ModuleMock.Proofs.Scaffold.UserMock
import ModuleMock.Proofs.Script.Spelling
import ModuleMock.Proofs.Script.Characters
import ModuleMock.Proofs.Script.Tidy
import ModuleMock.Proofs.Script.Atoms
import ModuleMock.Proofs.Script.Rules
import ModuleMock.Proofs.Literal.Closed
import ModuleMock.Proofs.Surface.Inert
import ModuleMock.Proofs.Modules.Inert
import ModuleMock.Proofs.Declaration.Bindings
import ModuleMock.Proofs.Modules.CarriedDefault
import ModuleMock.Proofs.Surface.Reordering
import ModuleMock.Proofs.Literal.StringValue
import ModuleMock.Proofs.Literal.Reader
import ModuleMock.Proofs.Literal.ReadBack
import ModuleMock.Proofs.Literal.Mentions
import ModuleMock.Proofs.Literal.Following
import ModuleMock.Proofs.Literal.Aliases
import ModuleMock.Proofs.Surface.Resolve
import ModuleMock.Proofs.Surface.Contributions
import ModuleMock.Proofs.Surface.DefaultExport
import ModuleMock.Proofs.Surface.Members
import ModuleMock.Proofs.Scaffold.Outcome
import ModuleMock.Proofs.Scaffold.Footprint
import ModuleMock.Proofs.Scaffold.Repetition
import ModuleMock.Proofs.Literal.LineEnds
import ModuleMock.Proofs.Render.Keys
import ModuleMock.Proofs.Bundle.Declared
import ModuleMock.Proofs.Bundle.Prologue
import ModuleMock.Proofs.Declaration.Preorder
import ModuleMock.Proofs.Modules.Keys
import ModuleMock.Proofs.Validation
import ModuleMock.Proofs.Service.Routing
import ModuleMock.Proofs.Manifest.Loading
import ModuleMock.Proofs.Json.ReadBack
import ModuleMock.Proofs.Surface.Distinct
import ModuleMock.Proofs.Surface.RoundTrip
import ModuleMock.Proofs.Surface.FaultReport
