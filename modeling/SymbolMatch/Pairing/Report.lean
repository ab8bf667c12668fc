/-
The outcome of a matching run, and the text form of a mapping.
-/
import SymbolMatch.Digest.Sha256
import SymbolMatch.Json.Document
import SymbolMatch.Pairing.Mapping

namespace SymbolMatch

-- ============================================================== outcome

/-- A pair that its mapped users mostly disagree with. -/
structure SuspiciousPair where
  old : String
  new : String
  agreeing : Nat
  total : Nat
  ratio : Binary64
deriving DecidableEq

/-- How many pairs each stage of a run made or moved. -/
structure MatchStats where
  oldClasses : Nat
  newClasses : Nat
  fixed : Nat
  /-- Pairs of constant-like classes, made at first or corrected later. -/
  constants : Nat
  anchors : Nat
  propagated : Nat
  refined : Nat
  validated : Nat
  unmapped : Nat
deriving DecidableEq

structure MatchReport where
  mapping : ClassMapping
  warnings : List SuspiciousPair
  stats : MatchStats
deriving DecidableEq

-- ============================================================ text form

open Json (Document)

def SimilarityBreakdown.document (b : SimilarityBreakdown) : Document :=
  .record [
    ("kind", .number b.kind),
    ("hierarchy", .number b.hierarchy),
    ("method_descriptors", .number b.methodDescriptors),
    ("opcodes", .number b.opcodes),
    ("strings", .number b.strings),
    ("static_methods", .number b.staticMethods),
    ("field_types", .number b.fieldTypes),
    ("constructors", .number b.constructors),
    ("static_initializer", .number b.staticInitializer),
    ("size_penalty", .number b.sizePenalty)]

def ClassMatch.document (m : ClassMatch) : Document :=
  .record [
    ("old", .text m.old),
    ("new", .text m.new),
    ("origin", .text m.origin.label),
    ("similarity", .number m.similarity),
    ("consistency", .number m.consistency),
    ("confidence", .number m.confidence),
    ("breakdown", match m.breakdown with
      | some b => b.document
      | none => .null)]

namespace ClassMapping

/-- The matches under their old names. -/
def document (m : ClassMapping) : Document :=
  .record (m.byOld.entries.map fun e => (e.1, e.2.document))

/-- The mapping as a text to be read. -/
def toJson (m : ClassMapping) : String := m.document.pretty

/-- The SHA-256 of the mapping's text without white space, in
hexadecimal. -/
def digest (m : ClassMapping) : String :=
  Sha256.hexDigest m.document.compact

end ClassMapping

end SymbolMatch
