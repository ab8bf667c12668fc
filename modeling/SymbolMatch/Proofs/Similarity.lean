/-
The similarity of a class with itself is 1, exactly, and no similarity is
above 1. Every part of a comparison with itself is a full share, and the
weights are put on top of each other in the same order above and below
the line.
-/
import Mathlib.Data.List.Flatten
import SymbolMatch.Proofs.Overlap
import SymbolMatch.Proofs.Summary
import SymbolMatch.Similarity

namespace SymbolMatch

open Overlap

-- =============================================================== extent

/-- How many things a class lists, its code included. -/
def ClassDecl.extent (c : ClassDecl) : Nat :=
  1 + c.interfaces.length + c.fields.length + c.methods.length
    + (c.methods.flatMap (·.code)).length

namespace ClassFingerprint

variable {a b : ClassFingerprint}

/-- The counts that a comparison divides are ones that a machine word
holds. -/
structure InRange (a : ClassFingerprint) : Prop where
  hierarchy : a.hierarchy.size < twoPow 64
  methodDescriptors : total a.methodDescriptors.values < twoPow 64
  strings : a.stringLiterals.size < twoPow 64
  staticMethods : a.staticMethodSignatures.size < twoPow 64
  staticFieldTypes : total a.staticFieldTypes.values < twoPow 64
  instanceFieldTypes : total a.instanceFieldTypes.values < twoPow 64

/-- They are for a class of which that many things can be listed. -/
theorem inRange_summary {c : ClassDecl} (cutoff : Nat)
    (h : c.extent < twoPow 64) : (summary cutoff c).InRange := by
  have hcode : ((c.methods.filter (!·.isAbstract)).flatMap (·.code)).length
      ≤ (c.methods.flatMap (·.code)).length :=
    (List.filter_sublist.flatMap _).length_le
  have hstatics : (c.methods.filter countsAsStatic).length
      ≤ c.methods.length := List.length_filter_le _ _
  unfold ClassDecl.extent at h
  unfold summary
  refine
    { hierarchy := ?_
      methodDescriptors := ?_
      strings := ?_
      staticMethods := ?_
      staticFieldTypes := ?_
      instanceFieldTypes := ?_ }
  · have hset := OrdSet.size_ofList_le (c.interfaces.map (blurName cutoff))
    rw [List.length_map] at hset
    unfold hierarchy
    dsimp only
    cases c.superName with
    | none =>
      rw [Option.map_none]
      dsimp only
      omega
    | some n =>
      rw [Option.map_some]
      dsimp only
      have hinsert := OrdSet.size_insert_le
        (OrdSet.ofList (c.interfaces.map (blurName cutoff)))
        (blurName cutoff n)
      omega
  · dsimp only
    rw [total_tally, List.length_map]
    omega
  · have hset := OrdSet.size_ofList_le
      (((c.methods.filter (!·.isAbstract)).flatMap (·.code)).filterMap
        Instruction.string?)
    have hloaded := List.length_filterMap_le Instruction.string?
      ((c.methods.filter (!·.isAbstract)).flatMap (·.code))
    unfold loadedStrings
    dsimp only
    omega
  · have hset := OrdSet.size_ofList_le
      ((c.methods.filter countsAsStatic).map (·.signature cutoff))
    rw [List.length_map] at hset
    dsimp only
    omega
  · have hfields := List.length_filter_le (·.isStatic) c.fields
    dsimp only
    rw [total_tally, List.length_map]
    omega
  · have hfields := List.length_filter_le (!·.isStatic) c.fields
    dsimp only
    rw [total_tally, List.length_map]
    omega

end ClassFingerprint

-- =========================================================== similarity

variable {a b : ClassFingerprint}

/-- A comparison that finds no difference. -/
def SimilarityBreakdown.full : SimilarityBreakdown where
  kind := 1
  hierarchy := 1
  methodDescriptors := 1
  opcodes := 1
  strings := 1
  staticMethods := 1
  fieldTypes := 1
  constructors := 1
  staticInitializer := 1
  sizePenalty := 1

theorem SimilarityBreakdown.total_full : full.total = 1 := by decide +kernel

theorem SimilarityBreakdown.compute_self (h : a.InRange) :
    compute a a = full := by
  have hfields : (1 + 1 : Binary64) / 2 = 1 := by decide +kernel
  have hpenalty : penalty (min 1 1) = 1 := by decide +kernel
  unfold compute full
  rw [jaccard_self h.hierarchy, multisetJaccard_self h.methodDescriptors,
    cosine_self, jaccard_self h.strings, jaccard_self h.staticMethods,
    multisetJaccard_self h.staticFieldTypes,
    multisetJaccard_self h.instanceFieldTypes, countCloseness_self,
    sizeRatio_self, sizeRatio_self, hfields, hpenalty, beq_self_eq_true,
    beq_self_eq_true]
  rfl

/-- A class is fully similar to itself. -/
theorem classSimilarity_self (h : a.InRange) : classSimilarity a a = 1 := by
  unfold classSimilarity
  rw [SimilarityBreakdown.compute_self h, SimilarityBreakdown.total_full]

/-- No similarity is above 1. -/
theorem classSimilarity_atMost (a b : ClassFingerprint) :
    (classSimilarity a b).AtMost 1 := by
  unfold classSimilarity SimilarityBreakdown.total Binary64.clamp
  split
  · exact Binary64.zero_atMost rfl
  · split
    · exact Binary64.AtMost.refl 1
    · next hnot =>
      exact Binary64.atMost_of_not_lt (Binary64.isNaN_ofNat 1) hnot

/-- No similarity is below 0. -/
theorem classSimilarity_not_neg (a b : ClassFingerprint) :
    ¬classSimilarity a b < 0 := by
  unfold classSimilarity SimilarityBreakdown.total Binary64.clamp
  split
  · exact (Binary64.AtMost.refl 0).not_lt
  · next hneg =>
    split
    · exact (Binary64.zero_atMost (Binary64.negative_ofNat 1)).not_lt
    · exact hneg

end SymbolMatch
