/-
What can be tuned in a matching run, and the thresholds that follow from
it.
-/
import SymbolMatch.Number.Layout

namespace SymbolMatch

structure Settings where
  /-- The score below which no candidate counts. -/
  minSimilarity : Binary64
  /-- How many candidates are kept for a field. -/
  fieldTopK : Nat
  /-- The score a field pair must exceed to be assigned. -/
  fieldAssignThreshold : Binary64
  /-- How far below the best score a candidate still ties with it. -/
  tieMargin : Binary64
  /-- The longest simple name that counts as obfuscated. -/
  maxObfuscatedLength : Nat
  /-- More own-typed fields than this make a class constant-like. -/
  constantSelfRefs : Nat
  propagationRounds : Nat
  refinementRounds : Nat
  validationRounds : Nat
  /-- How many threads may work; no result depends on it. -/
  workers : Nat
  /-- Classes whose names start with one of these belong to the platform
  and leave no evidence. -/
  platformPackages : List String
deriving DecidableEq

namespace Settings

def default : Settings where
  minSimilarity := 0.3
  fieldTopK := 10
  fieldAssignThreshold := 0.25
  tieMargin := 1e-9
  maxObfuscatedLength := 2
  constantSelfRefs := 50
  propagationRounds := 5
  refinementRounds := 2
  validationRounds := 5
  workers := 0
  platformPackages :=
    ["java/", "javax/", "sun/", "com/sun/", "jdk/", "org/w3c/", "org/xml/",
     "org/omg/"]

instance : Inhabited Settings := ⟨default⟩

-- =========================================================== thresholds

/-- The score an anchor must exceed. -/
def anchorThreshold (s : Settings) : Binary64 :=
  max 0.75 (s.minSimilarity + 0.25)

/-- The score a propagated pair must exceed. -/
def propagationThreshold (s : Settings) : Binary64 := s.minSimilarity + 0.1

/-- The score a refined pair must exceed. -/
def refinementThreshold (s : Settings) : Binary64 := s.minSimilarity + 0.2

/-- Whether a class belongs to the platform. -/
def isPlatform (s : Settings) (name : String) : Bool :=
  s.platformPackages.any fun p => p.toList.isPrefixOf name.toList

-- ============================================================= validity

/-- A setting outside its range. -/
inductive Fault
  | minSimilarity (got : Binary64)
  | fieldAssignThreshold (got : Binary64)
  | fieldTopK
  | tieMargin (got : Binary64)
deriving DecidableEq

/-- Messages write numbers positionally, without a point behind a whole
number. -/
def messageLayout : Layout where
  tie := .up
  positional _ := true
  pointZero := false

/-- A number in a message. -/
def messageNumber (x : Binary64) : String :=
  if x.isNaN then "NaN"
  else if x.isInfinite then if x.negative then "-inf" else "inf"
  else messageLayout.text x

def Fault.message : Fault → String
  | minSimilarity got =>
    "Config error: min_similarity must be within [0, 1], got "
      ++ messageNumber got
  | fieldAssignThreshold got =>
    "Config error: field_assign_threshold must be within [0, 1], got "
      ++ messageNumber got
  | fieldTopK => "Config error: field_top_k must be at least 1"
  | tieMargin got =>
    "Config error: tie_margin must be non-negative, got " ++ messageNumber got

/-- Whether a number lies in the unit interval. -/
def isUnit (x : Binary64) : Bool := 0 ≤ x && x ≤ 1

/-- The first setting outside its range. -/
def validate (s : Settings) : Except Fault Unit :=
  if !isUnit s.minSimilarity then .error (.minSimilarity s.minSimilarity)
  else if !isUnit s.fieldAssignThreshold then
    .error (.fieldAssignThreshold s.fieldAssignThreshold)
  else if s.fieldTopK = 0 then .error .fieldTopK
  else if s.tieMargin.isNaN || s.tieMargin < 0 then
    .error (.tieMargin s.tieMargin)
  else .ok ()

end Settings

end SymbolMatch
