/-
Settings and snapshots from text. A text that does not decode is a fault
before anything is checked.
-/
import SymbolMatch.Fault
import SymbolMatch.Json.Parser
import SymbolMatch.Program.Decode
import SymbolMatch.Settings.Decode

namespace SymbolMatch

open Json (Tree)

namespace Settings

/-- Settings within their ranges, from a JSON value. -/
def ofTree (t : Tree) : Except SymbolMatch.Fault Settings :=
  match decode? t with
  | none => .error .json
  | some s => (s.validate.map fun _ => s).mapError .settings

/-- Settings from a text. -/
def ofText (text : String) : Except SymbolMatch.Fault Settings :=
  match Json.parse? text with
  | none => .error .json
  | some t => ofTree t

/-- Settings from the content of a file, or `none` if there is no such
file. -/
def ofFile (content : Option ByteArray) : Except SymbolMatch.Fault Settings :=
  match content with
  | none => .error (.file .missing)
  | some bytes =>
    match String.fromUTF8? bytes with
    | none => .error (.file .notText)
    | some text => ofText text

end Settings

namespace Snapshot

/-- A snapshot from a JSON list of classes. -/
def ofTree (t : Tree) : Except SymbolMatch.Fault Snapshot :=
  match t.list? ClassDecl.decode? with
  | none => .error .json
  | some classes => (ofClasses classes).mapError .snapshot

/-- A snapshot from a text. -/
def ofText (text : String) : Except SymbolMatch.Fault Snapshot :=
  match Json.parse? text with
  | none => .error .json
  | some t => ofTree t

end Snapshot

end SymbolMatch
