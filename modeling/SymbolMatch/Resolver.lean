/-
The way in: two snapshots of a program are analysed on their own, their
classes are matched, and then their fields, on top of the matched classes
and of a mapping of methods that the caller has.
-/
import SymbolMatch.Fault
import SymbolMatch.FieldMatch.Assignment
import SymbolMatch.Matching.Run

namespace SymbolMatch

/-- A resolver for one choice of settings. -/
structure Resolver where
  settings : Settings

namespace Resolver

/-- A resolver, if the settings are within their ranges. -/
def ofSettings (settings : Settings) : Except Fault Resolver :=
  (settings.validate.map fun _ => ⟨settings⟩).mapError .settings

variable (r : Resolver)

/-- Analyse a snapshot. -/
def index (s : Snapshot) : Except Fault Index :=
  (Index.build r.settings s).mapError .descriptor

/-- Match the classes of two analysed snapshots. -/
def matchClasses (old new : Index) : Except Fault MatchReport := do
  r.settings.validate.mapError .settings
  (Context.matchClasses ⟨r.settings, old, new⟩).mapError .collision

/-- Analyse two snapshots and match their classes. -/
def matchSnapshots (old new : Snapshot) : Except Fault MatchReport := do
  let oldIndex ← r.index old
  let newIndex ← r.index new
  r.matchClasses oldIndex newIndex

/-- Prepare to match the fields of two analysed snapshots. -/
def fieldContext (old new : Index) (classes : ClassMapping)
    (methods : OrdMap Member Member) : Except Fault FieldContext :=
  (FieldContext.build r.settings old new classes methods).mapError .descriptor

/-- The candidates for each field of the old snapshot. -/
def matchFields (old new : Index) (classes : ClassMapping)
    (methods : OrdMap Member Member) : Except Fault FieldResolution := do
  return (← r.fieldContext old new classes methods).resolve

end Resolver

end SymbolMatch
