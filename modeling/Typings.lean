import Typings.CommandLine
import Typings.Compiler.Diagnostic
import Typings.DryRun.Engine
import Typings.DryRun.Program
import Typings.DryRun.Rules
import Typings.Files.Disk
import Typings.Import.Bindings
import Typings.Json.Printer
import Typings.Json.Reader
import Typings.Main
import Typings.Shell
import Typings.Proofs.Import.Forward
import Typings.Proofs.Import.StaticSite
import Typings.Proofs.Import.Completeness
import Typings.Proofs.Path.Components
import Typings.Proofs.Path.Normal
import Typings.Proofs.Path.Relative
import Typings.Proofs.Declaration.Simulation
import Typings.Proofs.Path.Map
import Typings.Proofs.Output.Accumulator
import Typings.Proofs.Output.Writes
import Typings.Proofs.Session.Separate
import Typings.Proofs.Session.Steps
import Typings.Proofs.Session.Rebuild
import Typings.Proofs.Resolver
import Typings.Proofs.Json.Double
import Typings.Proofs.Json.Number
import Typings.Proofs.Json.Shortest
import Typings.Proofs.Json.RoundTrip
import Typings.Proofs.SourceMap.RoundTrip
import Typings.Proofs.Path.Below
import Typings.Proofs.SourceMap.Relocation
import Typings.Proofs.Outcome
import Typings.Proofs.Import.Clause
import Typings.Proofs.Declaration.Bindings
import Typings.Proofs.Declaration.Parts
import Typings.Proofs.Declaration.Hoisting
import Typings.Proofs.Declaration.Consolidation
import Typings.Proofs.Session.Effects
import Typings.Proofs.Session.History
import Typings.Proofs.Output.Journal
import Typings.Proofs.Session.FlushActs
import Typings.Proofs.Session.Containment
import Typings.Proofs.Session.Freshness
import Typings.Proofs.Output.References
import Typings.Proofs.Import.Automaton
import Typings.Proofs.Import.Soundness
import Typings.Proofs.Session.Emissions
import Typings.Proofs.Session.Pending
import Typings.Proofs.Files.Contents
import Typings.Proofs.Rollup.Targets
import Typings.Proofs.Rollup.Results
import Typings.Proofs.Path.Parting
import Typings.Proofs.Output.Replication
import Typings.Proofs.Declaration.Cleaned
import Typings.Proofs.Library.Declarations
import Typings.Proofs.Output.Collisions
import Typings.Proofs.Path.Parents
import Typings.Proofs.Files.Directories
import Typings.Proofs.Files.Obstacles
import Typings.Proofs.Output.Parallel
import Typings.Proofs.Import.Lexed
import Typings.Proofs.Import.Alike
import Typings.Proofs.Declaration.Redirection
import Typings.Proofs.Declaration.Targets
import Typings.Proofs.Session.Records
import Typings.Proofs.Session.Sidecars
import Typings.Proofs.Offset.Slice
import Typings.Proofs.Offset.Scanner
import Typings.Proofs.Offset.Lexeme
import Typings.Proofs.Offset.Site
import Typings.Proofs.Offset.Order
import Typings.Proofs.Offset.Scan
import Typings.Proofs.Offset.Splice
import Typings.Proofs.Offset.Consolidation
import Typings.Proofs.Output.Ownership
import Typings.Proofs.Declaration.Idempotence
import Typings.Proofs.Declaration.Merging
import Typings.Proofs.Declaration.BroughtIn
import Typings.Proofs.Import.Reclause
import Typings.Proofs.Import.Reimport
import Typings.Proofs.Declaration.Patching
import Typings.Proofs.Declaration.Damage
import Typings.Proofs.Files.Clearing
import Typings.Proofs.Rollup.Cleanup
import Typings.Proofs.Session.Failures
import Typings.Proofs.PublicRoot
import Typings.Proofs.Session.Keys
import Typings.Proofs.Session.Mirror
import Typings.Proofs.Library.Imports
import Typings.Proofs.Library.Defaults
import Typings.Proofs.Library.Names
import Typings.Proofs.SourceMap.Mappings
import Typings.Proofs.Json.Grammar
import Typings.Proofs.Compiler.Comments
import Typings.Proofs.Compiler.Diagnostics
import Typings.Proofs.Alias
import Typings.Proofs.Manifest
import Typings.Proofs.Path.Canonical
import Typings.Proofs.Files.Walk
import Typings.Proofs.EditDistance
import Typings.Proofs.ScriptName
