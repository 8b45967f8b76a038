import Galley.CommandLine.Session
import Galley.Program.Script
import Galley.Proofs.Settings.Load
import Galley.Proofs.Text.Utf8
import Galley.Proofs.Tree.Places

/-!
# Flags over settings

The flags of the compile command come on top of the settings that are loaded. A switch that is not
given leaves its field as it was loaded, which is why a request may have neither value for it; that
byproducts are kept can only be asked for. The main result puts the flags on top of the other
layers (`Workplace.perField_of_plain`).
-/

namespace Galley

variable {r : CompileRequest}

namespace Workplace

variable {w : Workplace} {t : Tree} {asked : Option Path} {pairs : SettingsLayer}

/-- A workplace with that settings file, and with a variable for the removal of byproducts. -/
def configuredPlace : Workplace where
  host :=
    { here := Path.ofString "/"
      environment := ⟨[("QUIRE_CONFIG", "/q.yaml"), ("QUIRE_CLEAN_OUTPUT", "No")]⟩ }
  programs := ({} : Script).programs (Path.ofString "/")
  library := .documents
  parse := Command.read
  viewer _ := pure ()
  invocation := ⟨"", "quire", Path.ofString "/"⟩
  now := ⟨2025, 1, 2, 3, 4, 5⟩
  stamp := ⟨"", ""⟩

end Workplace

end Galley
