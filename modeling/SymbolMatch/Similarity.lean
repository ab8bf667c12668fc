/-
The similarity of two classes and of two methods: a weighted mean of the
overlap of each part of their fingerprints.
-/
import SymbolMatch.Fingerprint
import SymbolMatch.Overlap

namespace SymbolMatch

open Overlap

-- ============================================================== classes

/-- How much two classes agree, part by part. -/
structure SimilarityBreakdown where
  kind : Binary64
  hierarchy : Binary64
  methodDescriptors : Binary64
  opcodes : Binary64
  strings : Binary64
  staticMethods : Binary64
  fieldTypes : Binary64
  constructors : Binary64
  staticInitializer : Binary64
  /-- A factor for classes of very different size. -/
  sizePenalty : Binary64
deriving DecidableEq

namespace SimilarityBreakdown

/-- The factor for a size ratio: one side less than half as large as the
other costs most. -/
def penalty (ratio : Binary64) : Binary64 :=
  if ratio < 0.5 then 0.7
  else if ratio < 0.7 then 0.85
  else 1

/-- Compare two classes. -/
def compute (a b : ClassFingerprint) : SimilarityBreakdown where
  kind := agreement (a.kind == b.kind)
  hierarchy := jaccard a.hierarchy b.hierarchy
  methodDescriptors := multisetJaccard a.methodDescriptors b.methodDescriptors
  opcodes := cosine a.opcodeHistogram b.opcodeHistogram
  strings := jaccard a.stringLiterals b.stringLiterals
  staticMethods := jaccard a.staticMethodSignatures b.staticMethodSignatures
  fieldTypes :=
    (multisetJaccard a.staticFieldTypes b.staticFieldTypes
      + multisetJaccard a.instanceFieldTypes b.instanceFieldTypes) / 2
  constructors := countCloseness a.constructorCount b.constructorCount
  staticInitializer :=
    agreement (a.hasStaticInitializer == b.hasStaticInitializer)
  sizePenalty := penalty
    (min (sizeRatio a.methodCount b.methodCount)
      (sizeRatio a.fieldCount b.fieldCount))

/-- The weighted sum of the parts. -/
def weighted (s : SimilarityBreakdown) : Binary64 :=
  s.kind * 1.0 + s.hierarchy * 1.5 + s.methodDescriptors * 2.0
    + s.opcodes * 2.0 + s.strings * 0.5 + s.staticMethods * 1.5
    + s.fieldTypes * 1.5 + s.constructors * 0.5 + s.staticInitializer * 0.2

/-- The sum of the weights. -/
def weights : Binary64 :=
  1.0 + 1.5 + 2.0 + 2.0 + 0.5 + 1.5 + 1.5 + 0.5 + 0.2

/-- The weighted mean of the parts, times the size penalty. -/
def total (s : SimilarityBreakdown) : Binary64 :=
  (s.weighted / weights * s.sizePenalty).clamp 0 1

end SimilarityBreakdown

/-- The similarity of two classes. -/
def classSimilarity (a b : ClassFingerprint) : Binary64 :=
  (SimilarityBreakdown.compute a b).total

-- ============================================================== methods

/-- The similarity of two methods. -/
def methodSimilarity (a b : MethodFingerprint) : Binary64 :=
  let score :=
    agreement (a.normalizedDescriptor == b.normalizedDescriptor) * 2.0
      + agreement (a.isStatic == b.isStatic) * 0.5
      + cosine a.opcodeHistogram b.opcodeHistogram * 2.0
      + jaccard a.stringLiterals b.stringLiterals
      + jaccard a.invokedSignatures b.invokedSignatures * 1.5
      + countCloseness a.instructionCount b.instructionCount * 0.5
  (score / 7.5).clamp 0 1

end SymbolMatch
