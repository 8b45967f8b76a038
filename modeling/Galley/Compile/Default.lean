import Galley.Compile.Run

/-!
# Default collaborators

The collaborators of a compilation on a host with programs: R weaves, the settings choose the
driver, and a PDF is published by a message in the log.
-/

namespace Galley

/-- Publishes a PDF by a message in the log. -/
def logPublisher (pdf : String) : ExceptT Crash (Work Note Tree) Unit :=
  (Chore.log .info ("PDF ready to publish: " ++ pdf) : Chore Unit)

/-- The cleanup of a compilation. -/
def Cleanup.cleaner (here : Path) (c : Cleanup) : ExceptT Crash (Work Note Tree) Cleanup := do
  return (← (c.run here : Chore _)).2

/-- A compilation on a host. The viewer is given. -/
def Compilation.onHost (host : Host) (programs : Programs)
    (viewer : Path → ExceptT Crash (Work Note Tree) Unit) (target : String)
    (completion : Completion) (settings : Settings) : Compilation where
  here := host.here
  target := host.here.resolveIn target
  completion := completion
  settings := settings
  weaver target directives :=
    ExceptT.adapt Stop.crash (Weaver.viaR host programs settings target directives)
  probe program := ExceptT.adapt Stop.ofProbeError (Toolchain.probeVersion programs program)
  driver t :=
    .ok (((Toolchain.choose (host.which t) settings).driver host programs host.which).adapt
      Stop.ofDriverError)
  viewer := viewer
  publisher := logPublisher
  which t name := .ok (host.which t name)
  home := host.home?
  cleaner := Cleanup.cleaner host.here

end Galley
