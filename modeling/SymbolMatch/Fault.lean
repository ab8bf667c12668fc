/-
Everything that can go wrong. A symbol that cannot be matched is no
fault: it is left out of the result.
-/
import SymbolMatch.Descriptor.Parser
import SymbolMatch.Pairing.Mapping
import SymbolMatch.Program.Snapshot
import SymbolMatch.Settings.Basic

namespace SymbolMatch

/-- Why a file has no text. -/
inductive FileFault
  | missing
  /-- Its bytes are not UTF-8. -/
  | notText
deriving DecidableEq

def FileFault.message : FileFault → String
  | missing => "IO error: No such file or directory (os error 2)"
  | notText => "IO error: stream did not contain valid UTF-8"

/-- The cause of a failure. -/
inductive Fault
  | descriptor (fault : Descriptor.Fault)
  | snapshot (fault : Snapshot.Fault)
  | settings (fault : Settings.Fault)
  | collision (fault : ClassMapping.Fault)
  | file (fault : FileFault)
  /-- A text that is no JSON, or JSON of another shape. -/
  | json
deriving DecidableEq

def Fault.message : Fault → String
  | descriptor fault => fault.message
  | snapshot fault => fault.message
  | settings fault => fault.message
  | collision fault => fault.message
  | file fault => fault.message
  | json => "JSON error"

end SymbolMatch
