import Galley.Main
import Galley.Program.Script
import Galley.Proofs.Compile.Byproducts
import Galley.Proofs.Compile.Classification
import Galley.Proofs.Log.Structured
import Galley.Proofs.Log.Parentheses
import Galley.Proofs.Log.Echo
import Galley.Proofs.Log.Shared
import Galley.Proofs.Log.Located
import Galley.Proofs.Log.Pause
import Galley.Proofs.Log.Wrapped
import Galley.Proofs.Diagnostics.LoneError
import Galley.Proofs.Toolchain.Schedule
import Galley.Shell.Launch
import Galley.Proofs.Toolchain.Success
import Galley.Proofs.Weaver
import Galley.Proofs.Concordance.Continuations
import Galley.Proofs.Text.Words
import Galley.Proofs.Concordance.RoundTrip
import Galley.Proofs.Concordance.LineMap
import Galley.Proofs.Work.Agree
import Galley.Proofs.Path
import Galley.Proofs.Tree.SameBut
import Galley.Proofs.Toolchain.Discreet
import Galley.Proofs.Compile.Agree
import Galley.Proofs.Compile.Oblivious
import Galley.Proofs.Program.Script
import Galley.Proofs.StaleLogs
import Galley.Proofs.Compile.StaleLogs
import Galley.Proofs.Compile.CleanStart
import Galley.Proofs.Diagnostics.Merged
import Galley.Proofs.Compile.Progress
import Galley.Proofs.Compile.Phases
import Galley.Proofs.Compile.Landmarks
import Galley.Proofs.Compile.Timeline
import Galley.Proofs.Compile.Version
import Galley.Proofs.Compile.Completion
import Galley.Proofs.Diagnostics.Woven
import Galley.Proofs.Log.Bibtex
import Galley.Proofs.Cleanup.Beside
import Galley.Proofs.Program.Replay
import Galley.Proofs.Toolchain.Starts
import Galley.Proofs.Toolchain.ShellWords
import Galley.Proofs.Compile.Safety
import Galley.Proofs.Compile.Permitted
import Galley.Proofs.Compile.Source
import Galley.Proofs.Path.Spelling
import Galley.Proofs.Diagnostics.Spelling
import Galley.Proofs.Diagnostics.Display
import Galley.Proofs.Directives.Printed
import Galley.Proofs.Directives.Header
import Galley.Proofs.Directives.Choice
import Galley.Proofs.Toolchain.SharedCommand
import Galley.Proofs.Weaver.Expression
import Galley.Proofs.Cleanup.Calls
import Galley.Proofs.Weaver.Freshness
import Galley.Proofs.CommandLine.Flags
import Galley.Proofs.CommandLine.BadSettings
import Galley.Proofs.Path.Alias
import Galley.Proofs.Toolchain.Combined
