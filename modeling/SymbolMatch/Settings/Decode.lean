/-
Settings from JSON, where every field may be left out, and from the
environment, which overrides three of them.
-/
import SymbolMatch.Program.Decode
import SymbolMatch.Settings.Basic
import SymbolMatch.Text.Blank

namespace SymbolMatch.Settings

open Json (Tree)

/-- The labels of the settings, in order. -/
def labels : List String :=
  ["min_similarity", "field_top_k", "field_assign_threshold", "tie_margin",
   "max_obfuscated_name_len", "constant_self_refs", "propagation_rounds",
   "refinement_rounds", "validation_rounds", "workers", "platform_packages"]

/-- A count that fits a 64-bit word. -/
def count? (t : Tree) : Option Nat := t.natural? (twoPow 64)

/-- Settings from a record; what is left out keeps its default. Their
ranges are not checked. -/
def decode? (t : Tree) : Option Settings := do
  match ← t.fields? labels with
  | [similarity, topK, threshold, margin, length, selfRefs, propagation,
      refinement, validation, threads, packages] =>
    return {
      minSimilarity := ← optional default.minSimilarity Tree.double? similarity
      fieldTopK := ← optional default.fieldTopK count? topK
      fieldAssignThreshold :=
        ← optional default.fieldAssignThreshold Tree.double? threshold
      tieMargin := ← optional default.tieMargin Tree.double? margin
      maxObfuscatedLength := ← optional default.maxObfuscatedLength count? length
      constantSelfRefs :=
        ← optional default.constantSelfRefs (Tree.natural? (twoPow 32)) selfRefs
      propagationRounds := ← optional default.propagationRounds count? propagation
      refinementRounds := ← optional default.refinementRounds count? refinement
      validationRounds := ← optional default.validationRounds count? validation
      workers := ← optional default.workers count? threads
      platformPackages :=
        ← optional default.platformPackages (Tree.list? Tree.string?) packages }
  | _ => none

/-- The value of a variable without the blanks around it, if it reads as
one of the wanted kind; anything else is passed over. -/
def override {α : Type} (environment : String → Option String)
    (read : String → Option α) (variableName : String) (current : α) : α :=
  ((environment variableName).bind fun raw => read (Text.trimBlanks raw)).getD
    current

/-- Settings with what the environment says in their place. -/
def withEnvironment (environment : String → Option String) (s : Settings) :
    Except Fault Settings := do
  let s := { s with
    minSimilarity := override environment Binary64.read?
      "REMAP_MIN_SIMILARITY" s.minSimilarity
    fieldTopK := override environment readWord? "REMAP_FIELD_TOP_K" s.fieldTopK
    workers := override environment readWord? "REMAP_WORKERS" s.workers }
  s.validate
  return s

end SymbolMatch.Settings
