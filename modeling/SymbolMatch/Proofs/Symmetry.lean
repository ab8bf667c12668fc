/-
The similarities of classes, of methods and of fields do not depend on
which of the two is asked first, and each of these is fully similar to
itself. Both hold bit by bit.

The first asks nothing of the counts. Every part of a comparison is
symmetric by itself, and the parts are put together in one order.

The second divides a count by itself, which needs a count that a machine
word holds: one that a double takes for infinite has no share in itself.
-/
import SymbolMatch.Proofs.Access.Agreement
import SymbolMatch.Proofs.Access.Owners
import SymbolMatch.Proofs.Overlap.Union
import SymbolMatch.Proofs.Similarity

namespace SymbolMatch

open Overlap

-- ============================================================== classes

theorem SimilarityBreakdown.compute_comm (a b : ClassFingerprint) :
    compute a b = compute b a := by
  unfold compute
  rw [jaccard_comm a.hierarchy, jaccard_comm a.stringLiterals,
    jaccard_comm a.staticMethodSignatures,
    multisetJaccard_comm a.methodDescriptors,
    multisetJaccard_comm a.staticFieldTypes,
    multisetJaccard_comm a.instanceFieldTypes, cosine_comm a.opcodeHistogram,
    countCloseness_comm a.constructorCount, sizeRatio_comm a.methodCount,
    sizeRatio_comm a.fieldCount, BEq.comm (a := a.kind),
    BEq.comm (a := a.hasStaticInitializer)]

theorem classSimilarity_comm (a b : ClassFingerprint) :
    classSimilarity a b = classSimilarity b a := by
  unfold classSimilarity
  rw [SimilarityBreakdown.compute_comm]

-- ============================================================== methods

theorem methodSimilarity_comm (m n : MethodFingerprint) :
    methodSimilarity m n = methodSimilarity n m := by
  unfold methodSimilarity
  rw [cosine_comm m.opcodeHistogram, jaccard_comm m.stringLiterals,
    jaccard_comm m.invokedSignatures, countCloseness_comm m.instructionCount,
    BEq.comm (a := m.normalizedDescriptor), BEq.comm (a := m.isStatic)]

/-- The sets of a method that a comparison divides the sizes of have sizes
that a machine word holds. -/
structure MethodFingerprint.InRange (m : MethodFingerprint) : Prop where
  strings : m.stringLiterals.size < twoPow 64
  invoked : m.invokedSignatures.size < twoPow 64

/-- A method is fully similar to itself. -/
theorem methodSimilarity_self {m : MethodFingerprint} (h : m.InRange) :
    methodSimilarity m m = 1 := by
  unfold methodSimilarity
  rw [beq_self_eq_true, beq_self_eq_true, cosine_self, jaccard_self h.strings,
    jaccard_self h.invoked, countCloseness_self]
  decide +kernel

-- =============================================================== fields

namespace AccessCounts

theorem similarity_comm {α : Type} [Scalar α] (a b : AccessCounts) :
    (a.similarity b : α) = b.similarity a := by
  unfold similarity
  simp only [Nat.max_comm (a.get _), Nat.min_comm (a.get _)]

open Binary64

/-- A sum of counts is above zero if one of them is. -/
theorem foldl_ofNat_ne_zero {f : AccessKind → Nat} {ks : List AccessKind}
    {x : Binary64} (hx : 0 ≤ x) (h : x.magnitude ≠ 0 ∨ ∃ k ∈ ks, f k ≠ 0) :
    0 ≤ ks.foldl (fun t k => t + ofNat (f k)) x
      ∧ (ks.foldl (fun t k => t + ofNat (f k)) x).magnitude ≠ 0 := by
  induction ks generalizing x with
  | nil =>
    rcases h with h | ⟨k, hk, -⟩
    · exact ⟨hx, h⟩
    · cases hk
  | cons k rest ih =>
    obtain ⟨hsum, hne⟩ := add_of_zero_le hx (zero_le_ofNat (f k))
    apply ih hsum
    by_cases hk : f k = 0
    · rcases h with h | ⟨j, hj, hfj⟩
      · exact .inl (hne (.inl h))
      · rcases List.mem_cons.1 hj with rfl | hj
        · exact absurd hk hfj
        · exact .inr ⟨j, hj, hfj⟩
    · exact .inl (hne (.inr (magnitude_ofNat_ne_zero (Nat.pos_of_ne_zero hk))))

/-- The counts of a field are fully similar to themselves. -/
theorem similarity_self (c : AccessCounts) :
    (c.similarity c : Binary64) = 1 := by
  have hone : (1.0 : Binary64) = 1 := ten_tenths 1
  have hzero : (0.0 : Binary64) = 0 := ten_tenths 0
  have htwo : (2.0 : Binary64) = ofNat 2 := ten_tenths 2
  unfold similarity
  simp only [Nat.max_self, Nat.min_self, Nat.sub_self]
  split
  · exact hone
  · next hsome =>
    have hstill : (0 : Binary64) + ofNat 0 = 0 := by
      show ofNat 0 + ofNat 0 = ofNat 0
      rw [ofNat_eq_quarters, quarters_add (by decide) (by decide)]
    have hdistance (ks : List AccessKind) :
        ks.foldl (fun t _ => t + ofNat 0) (0 : Binary64) = 0 := by
      induction ks with
      | nil => rfl
      | cons k rest ih =>
        rw [List.foldl_cons, hstill]
        exact ih
    have hcounted : ∃ k ∈ AccessKind.all, c.get k ≠ 0 := by simpa using hsome
    have hstart : (0 : Binary64) ≤ 0 := zero_le_ofNat 0
    obtain ⟨hsum, hne⟩ := foldl_ofNat_ne_zero hstart (.inr hcounted)
    obtain ⟨hdouble, hdouble'⟩ := ofNat_mul_ne_zero (n := 2) (by decide)
      (by decide) hsum hne
    show (1.0 : Binary64) - AccessKind.all.foldl (fun t _ => t + ofNat 0) 0.0
      / ((2.0 : Binary64) * AccessKind.all.foldl
        (fun t k => t + ofNat (c.get k)) 0.0) = 1
    rw [hone, hzero, htwo, hdistance, zero_div_of_ne_zero hdouble hdouble',
      unit_arithmetic.1]

end AccessCounts

namespace AccessProfile

open Binary64

/-- The ratio of readers to writers is no number in one way only. -/
theorem readWriteRatio_eq_indefinite {p : AccessProfile}
    (h : (p.readWriteRatio : Binary64).isNaN = true) :
    (p.readWriteRatio : Binary64) = indefinite :=
  ratio_eq_indefinite (by omega) h

theorem similarity_comm (p q : AccessProfile) :
    (p.similarity q : Binary64) = q.similarity p := by
  have hgap : Scalar.abs ((p.readWriteRatio : Binary64) - q.readWriteRatio)
      = Scalar.abs ((q.readWriteRatio : Binary64) - p.readWriteRatio) :=
    abs_sub_comm_of fun hp hq => by
      rw [readWriteRatio_eq_indefinite hp, readWriteRatio_eq_indefinite hq]
  rw [similarity_eq quarters_exact, similarity_eq quarters_exact, hgap,
    AccessCounts.similarity_comm, AccessPatterns.agreement_comm]

/-- A field is fully similar to itself. -/
theorem similarity_self {p : AccessProfile}
    (h : p.readMethods.size < twoPow 64) :
    (p.similarity p : Binary64) = 1 := by
  have hsmall : 100 < twoPow 53 := by decide
  have hword : twoPow 53 < twoPow 64 := by decide
  have htop := (AccessPatterns.within_agreement p.patterns p.patterns).le_top
  have hthree : (3.0 : Binary64) = quarters 12 := quarters_exact.tenths 30 12 rfl
  have hone : (1.0 : Binary64) = quarters 4 := quarters_exact.tenths 10 4 rfl
  have hratio : (p.readWriteRatio : Binary64).isFinite = true :=
    isFinite_ratio h (by omega)
  have hzero : (0 : Binary64) = quarters 0 := ofNat_eq_quarters 0
  have hgap : ((p.readWriteRatio : Binary64) - p.readWriteRatio).abs
      = quarters 0 := by
    rw [sub_self_of_isFinite hratio, hzero, abs_quarters]
  have hshare : (1.0 : Binary64) / (1.0 + quarters 0) = quarters 4 := by
    rw [hone, quarters_add (by decide) (by decide), Nat.add_zero,
      div_self_of_isFinite (isFinite_quarters (by decide))
        (magnitude_quarters_ne_zero (by decide))]
    exact ofNat_eq_quarters 1
  rw [similarity_eq quarters_exact, AccessCounts.similarity_self,
    AccessPatterns.agreement_self]
  show (quarters _ + 1 * (3.0 : Binary64) + 1.0 / (1.0
    + ((p.readWriteRatio : Binary64) - p.readWriteRatio).abs)) / quarters _ = 1
  rw [hgap, hshare, hthree, one_mul_of_isFinite (isFinite_quarters (by decide)),
    quarters_add (by omega) (by decide), quarters_add (by omega) (by decide)]
  exact div_self_of_isFinite (isFinite_quarters (by omega))
    (magnitude_quarters_ne_zero (by omega))

end AccessProfile

-- ========================================================== the theorem

/-- Every similarity is the same from either side, bit by bit, whatever the
counts, and what is compared with itself is fully similar. -/
theorem similarities_symmetric_and_reflexive (a b : ClassFingerprint)
    (m n : MethodFingerprint) (p q : AccessProfile) :
    (classSimilarity a b = classSimilarity b a
      ∧ methodSimilarity m n = methodSimilarity n m
      ∧ (p.similarity q : Binary64) = q.similarity p)
      ∧ (a.InRange → classSimilarity a a = 1)
      ∧ (m.InRange → methodSimilarity m m = 1)
      ∧ (p.readMethods.size < twoPow 64 → (p.similarity p : Binary64) = 1) :=
  ⟨⟨classSimilarity_comm a b, methodSimilarity_comm m n, p.similarity_comm q⟩,
    classSimilarity_self, methodSimilarity_self, AccessProfile.similarity_self⟩

namespace Sample

/-- A method that loads a string and calls another method. -/
def speaker : MethodDecl :=
  ⟨"t", "(Lcd;)V", false, false,
    [⟨18, .constant (.string "tick")⟩, ⟨182, .method ⟨"cd", "u", "()V"⟩⟩]⟩

/-- A class with two fields and a method. -/
def furnished : ClassDecl :=
  { heir "ab" (some "cd") ["a", "b"] with methods := [speaker] }

/-- A class with nothing in it. -/
def vacant : ClassDecl := heir "cd" none []

def furnishedPrint : ClassFingerprint := ClassFingerprint.summary 2 furnished

def vacantPrint : ClassFingerprint := ClassFingerprint.summary 2 vacant

def speakerPrint : MethodFingerprint :=
  MethodFingerprint.summary 2 furnished speaker

/-- A field that nothing accesses. -/
def untouchedField : AccessProfile := .untouched ⟨"ab", "a", "I"⟩

end Sample

/-- A class with and one without members, their methods and a field that
nothing accesses. -/
theorem similarities_symmetric_and_reflexive_furnished :
    Sample.furnishedPrint.InRange ∧ Sample.vacantPrint.InRange
      ∧ Sample.speakerPrint.InRange
      ∧ Sample.untouchedField.readMethods.size < twoPow 64
      ∧ classSimilarity Sample.furnishedPrint Sample.vacantPrint
        = classSimilarity Sample.vacantPrint Sample.furnishedPrint
      ∧ classSimilarity Sample.furnishedPrint Sample.furnishedPrint = 1
      ∧ classSimilarity Sample.vacantPrint Sample.vacantPrint = 1
      ∧ methodSimilarity Sample.speakerPrint Sample.speakerPrint = 1
      ∧ (Sample.untouchedField.similarity Sample.untouchedField : Binary64)
        = 1 := by
  have hfurnished : Sample.furnishedPrint.InRange :=
    ClassFingerprint.inRange_summary 2 (by decide)
  have hvacant : Sample.vacantPrint.InRange :=
    ClassFingerprint.inRange_summary 2 (by decide)
  have hspeaker : Sample.speakerPrint.InRange := ⟨by decide, by decide⟩
  have hfield : Sample.untouchedField.readMethods.size < twoPow 64 := by decide
  obtain ⟨⟨hcomm, -, -⟩, hself, hmethod, hprofile⟩ :=
    similarities_symmetric_and_reflexive Sample.furnishedPrint Sample.vacantPrint
      Sample.speakerPrint Sample.speakerPrint Sample.untouchedField
      Sample.untouchedField
  obtain ⟨-, hself', -⟩ :=
    similarities_symmetric_and_reflexive Sample.vacantPrint Sample.vacantPrint
      Sample.speakerPrint Sample.speakerPrint Sample.untouchedField
      Sample.untouchedField
  exact ⟨hfurnished, hvacant, hspeaker, hfield, hcomm, hself hfurnished,
    hself' hvacant, hmethod hspeaker, hprofile hfield⟩

end SymbolMatch
