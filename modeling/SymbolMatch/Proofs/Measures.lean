/-
Every measure is a share. Each of them divides counts or adds up weighted
shares, and none of them divides by zero or leaves the numbers that a
double holds, as long as the counts are ones that a machine word holds
(`ClassFingerprint.Held`, `Index.Held`). So the similarity of two classes
is a number from 0 to 1, and never a NaN.

The cosine is the one that needs an argument. Its lengths are roots of
sums that can have any number of terms, and it divides by their product,
which must not be rounded to zero (`isShare_cosine`).
-/
import Mathlib.Data.List.Perm.Subperm
import SymbolMatch.Proofs.Evidence
import SymbolMatch.Proofs.Number.Root
import SymbolMatch.Proofs.Number.Shares
import SymbolMatch.Proofs.Similarity

namespace SymbolMatch

namespace Overlap

open Binary64

variable {κ : Type} [Ord κ] [Std.TransOrd κ] [Std.LawfulEqOrd κ]

-- ============================================================== counts

theorem isShare_agreement (equal : Bool) : (agreement equal).IsShare := by
  cases equal with
  | false => exact isShare_zero
  | true => exact isShare_one

theorem isShare_countCloseness {a b : Nat} (ha : a < twoPow 64)
    (hb : b < twoPow 64) : (countCloseness a b).IsShare := by
  have hle : difference a b ≤ max (max a b) 1 := by
    unfold difference
    omega
  have hlt : difference a b < twoPow 64 := by
    unfold difference
    omega
  exact (isShare_ratio hlt (by omega) hle).one_sub

-- ================================================================ sets

omit [Std.TransOrd κ] [Std.LawfulEqOrd κ] in
theorem sharedCount_le_left (a b : OrdSet κ) : sharedCount a b ≤ a.size :=
  List.length_filter_le _ _

theorem sharedCount_le_right (a b : OrdSet κ) : sharedCount a b ≤ b.size := by
  have hsub : (a.inter b).elements ⊆ b.elements := by
    intro k hk
    exact (OrdSet.mem_inter.1 hk).2
  exact ((a.inter b).nodup_elements.subperm hsub).length_le

theorem isShare_jaccard {a b : OrdSet κ} (ha : a.size < twoPow 64) :
    (jaccard a b).IsShare := by
  have hleft := sharedCount_le_left a b
  have hright := sharedCount_le_right a b
  have hpos {s : OrdSet κ} (h : ¬s.isEmpty = true) : 0 < s.size :=
    List.length_pos_iff.2 fun hnil => h (List.isEmpty_iff.2 hnil)
  unfold jaccard
  split
  · exact isShare_one
  · next hsome =>
    have hunion : 0 < unionCount a b := by
      unfold unionCount
      by_cases hempty : a.isEmpty = true
      · rw [hempty, Bool.true_and] at hsome
        have := hpos hsome
        have : a.size = 0 := by
          unfold OrdSet.size
          rw [List.isEmpty_iff.1 hempty]
          rfl
        omega
      · have := hpos hempty
        omega
    apply isShare_ratio (by omega) hunion
    unfold unionCount
    omega

-- =========================================================== multisets

theorem total_map_le {α : Type} {xs : List α} {f g : α → Nat}
    (h : ∀ x ∈ xs, f x ≤ g x) : total (xs.map f) ≤ total (xs.map g) := by
  induction xs with
  | nil => exact Nat.le_refl _
  | cons x rest ih =>
    exact Nat.add_le_add (h x List.mem_cons_self)
      (ih fun y hy => h y (List.mem_cons_of_mem _ hy))

theorem le_total {xs : List Nat} {n : Nat} (h : n ∈ xs) : n ≤ total xs := by
  induction xs with
  | nil => cases h
  | cons x rest ih =>
    show n ≤ x + total rest
    rcases List.mem_cons.1 h with rfl | h
    · exact Nat.le_add_right _ _
    · exact Nat.le_trans (ih h) (Nat.le_add_left _ _)

omit [Std.TransOrd κ] [Std.LawfulEqOrd κ] in
theorem minSum_le_total (a b : OrdMap κ Nat) : minSum a b ≤ total a.values :=
  total_map_le fun _ _ => Nat.min_le_left _ _

omit [Std.TransOrd κ] [Std.LawfulEqOrd κ] in
theorem minSum_le_maxSum (a b : OrdMap κ Nat) : minSum a b ≤ maxSum a b := by
  have hle : minSum a b
      ≤ total (a.entries.map fun e => max e.2 (b.getD e.1 0)) :=
    total_map_le fun e _ =>
      Nat.le_trans (Nat.min_le_left _ _) (Nat.le_max_left _ _)
  exact Nat.le_trans hle (Nat.le_add_right _ _)

omit [Std.TransOrd κ] [Std.LawfulEqOrd κ] in
theorem isShare_multisetJaccard {a b : OrdMap κ Nat}
    (ha : total a.values < twoPow 64) : (multisetJaccard a b).IsShare := by
  unfold multisetJaccard
  split
  · exact isShare_one
  · next hzero =>
    exact isShare_ratio (Nat.lt_of_le_of_lt (minSum_le_total a b) ha)
      (Nat.pos_of_ne_zero hzero) (minSum_le_maxSum a b)

-- ============================================================= vectors

omit [Std.TransOrd κ] [Std.LawfulEqOrd κ] in
/-- A length other than zero is the root of a finite number above
zero. -/
theorem exists_norm_eq {a : OrdMap κ Nat}
    (ha : ∀ n ∈ a.values, n < twoPow 64) (hzero : (norm a).isZero = false) :
    ∃ s : Binary64, norm a = s.sqrt ∧ s.isFinite = true
      ∧ s.negative = false ∧ s.magnitude ≠ 0 := by
  have hsquares : ∀ x ∈ a.values.map fun n => ofNat n * ofNat n,
      ∃ m n, m < twoPow 64 ∧ n < twoPow 64 ∧ x = ofNat m * ofNat n := by
    intro x hx
    obtain ⟨n, hn, rfl⟩ := List.mem_map.1 hx
    exact ⟨n, n, ha n hn, ha n hn, rfl⟩
  obtain ⟨hnonneg, hfinite⟩ := sum_of_words hsquares
  unfold norm at hzero ⊢
  generalize sum (a.values.map fun n => ofNat n * ofNat n) = s
    at hnonneg hfinite hzero ⊢
  have hne : s.magnitude ≠ 0 := by
    -- a zero is its own root
    intro hmag
    have hroot : s.sqrt = s := by
      unfold sqrt
      rw [isZero_iff.2 hmag, Bool.or_true, if_pos rfl]
    rw [hroot, isZero_iff.2 hmag] at hzero
    cases hzero
  refine ⟨s, rfl, hfinite, ?_, hne⟩
  rw [← Bool.not_eq_true]
  exact fun hneg => hne (magnitude_of_negative hnonneg hneg)

theorem zero_le_dot {a b : OrdMap κ Nat}
    (ha : ∀ n ∈ a.values, n < twoPow 64) (hb : ∀ n ∈ b.values, n < twoPow 64) :
    0 ≤ dot a b ∧ (dot a b).isFinite = true := by
  apply sum_of_words
  intro x hx
  obtain ⟨e, he, hget⟩ := List.mem_filterMap.1 hx
  obtain ⟨n, hn, rfl⟩ := Option.map_eq_some_iff.1 hget
  exact ⟨e.2, n, ha _ (List.mem_map.2 ⟨e, he, rfl⟩),
    hb _ (List.mem_map.2 ⟨_, OrdMap.get?_eq_some_iff.1 hn, rfl⟩), rfl⟩

theorem isShare_cosine [DecidableEq κ] {a b : OrdMap κ Nat}
    (ha : ∀ n ∈ a.values, n < twoPow 64) (hb : ∀ n ∈ b.values, n < twoPow 64) :
    (cosine a b).IsShare := by
  unfold cosine
  split
  · exact isShare_one
  · split
    · exact isShare_one
    · split
      · exact isShare_zero
      · next hsome =>
        rw [Bool.not_eq_true, Bool.or_eq_false_iff] at hsome
        obtain ⟨s, hs, hsf, hsn, hsz⟩ := exists_norm_eq ha hsome.1
        obtain ⟨u, hu, huf, hun, huz⟩ := exists_norm_eq hb hsome.2
        obtain ⟨hdot, hdot'⟩ := zero_le_dot ha hb
        obtain ⟨hsn', -, hsf'⟩ := sqrt_bounds hsf hsn hsz
        obtain ⟨hun', -, huf'⟩ := sqrt_bounds huf hun huz
        have hsr : s.sqrt.isFinite = true := isFinite_iff.2 hsf'
        have hur : u.sqrt.isFinite = true := isFinite_iff.2 huf'
        have hproduct : 0 ≤ s.sqrt * u.sqrt :=
          zero_le_mul hsr hur (zero_le_of_nonneg (isNaN_of_isFinite hsr) hsn')
            (zero_le_of_nonneg (isNaN_of_isFinite hur) hun')
        rw [hs, hu]
        exact isShare_clamp (zero_le_iff.1 (zero_le_div hdot' hdot hproduct
          (sqrt_mul_sqrt_ne_zero hsf hsn hsz huf hun huz))).1

-- ======================================================= weighted means

variable {terms : List (Binary64 × Binary64)}

/-- A sum of weighted shares, on top of a start that is not below
zero. -/
theorem zero_le_foldl_terms (hvalues : ∀ t ∈ terms, t.1.IsShare)
    (hweights : ∀ w ∈ terms.map (·.2), w.isFinite = true ∧ w.negative = false)
    {x b : Binary64} (hx : 0 ≤ x) (hbound : x.AtMost b)
    (hnan : b.isNaN = false) (hsign : b.negative = false)
    (hfinite : ((terms.map (·.2)).foldl (· + ·) b).isFinite = true) :
    0 ≤ terms.foldl (fun acc t => acc + t.1 * t.2) x := by
  induction terms generalizing x b with
  | nil => exact hx
  | cons t rest ih =>
    rw [List.map_cons] at hweights hfinite
    obtain ⟨hw, hw'⟩ := hweights t.2 List.mem_cons_self
    have hshare := hvalues t List.mem_cons_self
    have hb : b.isFinite = true :=
      isFinite_of_foldl_add (fun w hw => (hweights w hw).1) hnan hfinite
    have hterm := hshare.atMost.mul_weight hw hw'
    have hterm' := hshare.zero_le_mul_weight hw hw'
    obtain ⟨hnan', hsign'⟩ := nonneg_add hb hw hsign hw'
    exact ih (fun u hu => hvalues u (List.mem_cons_of_mem _ hu))
      (fun w hw => hweights w (List.mem_cons_of_mem _ hw))
      (zero_le_add (isFinite_of_zero_le hx hbound hb)
        (isFinite_of_zero_le hterm' hterm hw) hx hterm')
      (hbound.add hterm hb hw) hnan' hsign' hfinite

/-- A mean of shares is a share. -/
theorem isShare_weightedMean (hvalues : ∀ t ∈ terms, t.1.IsShare)
    (hweights : Weights (terms.map (·.2))) : (weightedMean terms).IsShare := by
  have hsum := zero_le_foldl_terms hvalues hweights.each (zero_le_ofNat 0)
    (AtMost.refl 0) isNaN_zero rfl hweights.isFinite
  have hbound := foldl_terms_atMost (fun t ht => (hvalues t ht).atMost)
    hweights.each (AtMost.refl 0) isNaN_zero rfl hweights.isFinite
  rw [weightedMean_eq]
  exact isShare_div_of_atMost hsum hbound hweights.isFinite
    hweights.sum_nonneg hweights.ne_zero

end Overlap

-- ============================================================== classes

open Overlap

/-- Every count of a class that a comparison looks at is one that a
machine word holds. -/
structure ClassFingerprint.Held (a : ClassFingerprint) : Prop
    extends a.InRange where
  opcodes : ∀ n ∈ a.opcodeHistogram.values, n < twoPow 64
  constructors : a.constructorCount < twoPow 64
  methods : a.methodCount < twoPow 64
  fields : a.fieldCount < twoPow 64

/-- They are for a class of which that many things can be listed. -/
theorem ClassFingerprint.held_summary {c : ClassDecl} (cutoff : Nat)
    (h : c.extent < twoPow 64) : (summary cutoff c).Held := by
  have hcode : ((c.methods.filter (!·.isAbstract)).flatMap (·.code)).length
      ≤ (c.methods.flatMap (·.code)).length :=
    (List.filter_sublist.flatMap _).length_le
  have hconstructors : c.methods.countP (·.isConstructor)
      ≤ c.methods.length := List.countP_le_length
  have hrange := inRange_summary cutoff h
  unfold ClassDecl.extent at h
  refine
    { toInRange := hrange
      opcodes := fun n hn => ?_
      constructors := ?_
      methods := ?_
      fields := ?_ }
  · have hle := le_total hn
    unfold summary opcodeCounts at hle
    dsimp only at hle
    rw [total_tally, List.length_map] at hle
    omega
  · unfold summary
    dsimp only
    omega
  · unfold summary
    dsimp only
    omega
  · unfold summary
    dsimp only
    omega

namespace SimilarityBreakdown

open Binary64

/-- The parts after the first, with their weights. -/
def laterTerms (s : SimilarityBreakdown) : List (Binary64 × Binary64) :=
  [(s.hierarchy, 1.5), (s.methodDescriptors, 2.0), (s.opcodes, 2.0),
   (s.strings, 0.5), (s.staticMethods, 1.5), (s.fieldTypes, 1.5),
   (s.constructors, 0.5), (s.staticInitializer, 0.2)]

theorem weighted_eq (s : SimilarityBreakdown) :
    s.weighted
      = s.laterTerms.foldl (fun acc t => acc + t.1 * t.2) (s.kind * 1.0) := rfl

theorem weights_eq (s : SimilarityBreakdown) :
    weights = (s.laterTerms.map (·.2)).foldl (· + ·) 1.0 := rfl

/-- The constants of a comparison are finite and have no sign. -/
theorem constants_held :
    (∀ w ∈ [(1.5 : Binary64), 2.0, 2.0, 0.5, 1.5, 1.5, 0.5, 0.2],
        w.isFinite = true ∧ w.negative = false)
      ∧ (∀ w ∈ [(1.0 : Binary64), weights, 0.7, 0.85, 1],
        w.isFinite = true ∧ w.negative = false)
      ∧ weights.magnitude ≠ 0 := by decide +kernel

theorem isShare_of_mem_laterTerms {a b : ClassFingerprint} (ha : a.Held)
    (hb : b.Held) : ∀ t ∈ (compute a b).laterTerms, t.1.IsShare := by
  intro t ht
  unfold laterTerms compute at ht
  simp only [List.mem_cons, List.not_mem_nil, or_false] at ht
  rcases ht with rfl | rfl | rfl | rfl | rfl | rfl | rfl | rfl
  · exact isShare_jaccard ha.hierarchy
  · exact isShare_multisetJaccard ha.methodDescriptors
  · exact isShare_cosine ha.opcodes hb.opcodes
  · exact isShare_jaccard ha.strings
  · exact isShare_jaccard ha.staticMethods
  · exact (isShare_multisetJaccard ha.staticFieldTypes).half
      (isShare_multisetJaccard ha.instanceFieldTypes)
  · exact isShare_countCloseness ha.constructors hb.constructors
  · exact isShare_agreement _

/-- The weighted mean of the parts, before the penalty. -/
theorem isShare_mean {a b : ClassFingerprint} (ha : a.Held) (hb : b.Held) :
    ((compute a b).weighted / weights).IsShare := by
  obtain ⟨hlaterHeld, hheld, hne⟩ := constants_held
  obtain ⟨hfirst, hfirst'⟩ := hheld 1.0 (by simp)
  obtain ⟨hfinite, hsign⟩ := hheld weights (by simp)
  have hlater := isShare_of_mem_laterTerms ha hb
  have heach : ∀ w ∈ (compute a b).laterTerms.map (·.2),
      w.isFinite = true ∧ w.negative = false := hlaterHeld
  have hkind : (compute a b).kind.IsShare := isShare_agreement _
  have hstart := hkind.atMost.mul_weight hfirst hfirst'
  have hstart' := hkind.zero_le_mul_weight hfirst hfirst'
  have hsum := zero_le_foldl_terms hlater heach hstart' hstart
    (isNaN_of_isFinite hfirst) hfirst' hfinite
  have hbound := foldl_terms_atMost (fun t ht => (hlater t ht).atMost) heach
    hstart (isNaN_of_isFinite hfirst) hfirst' hfinite
  rw [← weighted_eq] at hsum hbound
  rw [← weights_eq] at hbound
  exact isShare_div_of_atMost hsum hbound hfinite hsign hne

end SimilarityBreakdown

/-- The similarity of two classes is a number from 0 to 1. -/
theorem isShare_classSimilarity {a b : ClassFingerprint} (ha : a.Held)
    (hb : b.Held) : (classSimilarity a b).IsShare := by
  have hmean := SimilarityBreakdown.isShare_mean ha hb
  have hpenalty (ratio : Binary64) :
      (SimilarityBreakdown.penalty ratio).isFinite = true
        ∧ (SimilarityBreakdown.penalty ratio).negative = false := by
    apply SimilarityBreakdown.constants_held.2.1
    unfold SimilarityBreakdown.penalty
    split
    · simp
    · split
      · simp
      · simp
  obtain ⟨hfinite, hsign⟩ := hpenalty
    (min (sizeRatio a.methodCount b.methodCount)
      (sizeRatio a.fieldCount b.fieldCount))
  unfold classSimilarity SimilarityBreakdown.total
  apply Binary64.isShare_clamp
  exact (Binary64.zero_le_iff.1 (hmean.zero_le_mul_weight hfinite hsign)).1

-- ============================================================== indexes

namespace Index

/-- Every count of a snapshot's analysis that a comparison of classes
looks at is one that a machine word holds. -/
structure Held (x : Index) : Prop where
  classes : ∀ a ∈ x.fingerprints, a.Held
  fieldTypes : ∀ n, (x.evidence.fieldTypesOf n).size < twoPow 64
  fieldUsers : ∀ n, x.evidence.externalFieldUserCount n < twoPow 64
  selfRefs : ∀ n, x.evidence.selfFieldRefs n < twoPow 64

variable {settings : Settings} {s : Snapshot} {c : ClassDecl}

theorem length_fieldRefs_summary_le (settings : Settings) (c : ClassDecl) :
    (ClassUsage.summary settings c).fieldRefs.length ≤ c.fields.length := by
  have hle := List.length_filterMap_le (ClassUsage.tracked? settings)
    (c.fields.map fun f => Descriptor.fieldType f.descriptor)
  rw [List.length_map] at hle
  exact hle

section Present

variable (hs : s.Valid) (hc : c ∈ s.classes)
include hs hc

theorem selfFieldRefs_summary_le :
    (summary settings s).evidence.selfFieldRefs c.name ≤ c.fields.length := by
  have hnodup := hs.distinct
  rw [← names_usages settings] at hnodup
  calc (summary settings s).evidence.selfFieldRefs c.name
      = (ClassUsage.summary settings c).fieldRefs.count c.name :=
      Evidence.selfFieldRefs_ofUsages hnodup (List.mem_map.2 ⟨c, hc, rfl⟩)
    _ ≤ (ClassUsage.summary settings c).fieldRefs.length :=
      List.count_le_length
    _ ≤ c.fields.length := length_fieldRefs_summary_le settings c

theorem size_fieldTypesOf_summary_le :
    ((summary settings s).evidence.fieldTypesOf c.name).size
      ≤ c.fields.length := by
  have hnodup := hs.distinct
  rw [← names_usages settings] at hnodup
  have htypes : (summary settings s).evidence.fieldTypesOf c.name
      = (ClassUsage.summary settings c).fieldTypes :=
    Evidence.fieldTypesOf_ofUsages hnodup (List.mem_map.2 ⟨c, hc, rfl⟩)
  rw [htypes]
  exact Nat.le_trans (OrdSet.size_ofList_le _)
    (length_fieldRefs_summary_le settings c)

end Present

/-- No name has more users than there are classes. -/
theorem externalFieldUserCount_summary_le (n : String) :
    (summary settings s).evidence.externalFieldUserCount n ≤ s.size := by
  have hsub : ((summary settings s).evidence.fieldUsersOf n).elements
      ⊆ s.names := by
    intro user huser
    obtain ⟨u, hu, rfl, -⟩ := Evidence.mem_fieldUsersOf.1 huser
    rw [← names_usages settings]
    exact List.mem_map.2 ⟨u, hu, rfl⟩
  have hsize := (((summary settings s).evidence.fieldUsersOf
    n).nodup_elements.subperm hsub).length_le
  have hnames : s.names.length = s.size := List.length_map _
  calc (summary settings s).evidence.externalFieldUserCount n
      ≤ ((summary settings s).evidence.fieldUsersOf n).size :=
      List.length_filter_le _ _
    _ ≤ s.names.length := hsize
    _ = s.size := hnames

/-- They are for a snapshot whose classes, and what each of them lists,
can be counted in a word. -/
theorem held_summary (hs : s.Valid) (hsize : s.size < twoPow 64)
    (hextent : ∀ c ∈ s.classes, c.extent < twoPow 64) :
    (summary settings s).Held := by
  have hfields (c : ClassDecl) (hc : c ∈ s.classes) :
      c.fields.length < twoPow 64 := by
    have h := hextent c hc
    unfold ClassDecl.extent at h
    omega
  have habsent {n : String} (hn : ¬∃ c ∈ s.classes, c.name = n) :
      ∀ u ∈ s.classes.map (ClassUsage.summary settings), u.name ≠ n := by
    intro u hu hname
    obtain ⟨c, hc, rfl⟩ := List.mem_map.1 hu
    exact hn ⟨c, hc, hname⟩
  refine
    { classes := fun a ha => ?_
      fieldTypes := fun n => ?_
      fieldUsers := fun n => ?_
      selfRefs := fun n => ?_ }
  · obtain ⟨c, hc, rfl⟩ := List.mem_map.1 ha
    exact ClassFingerprint.held_summary _ (hextent c hc)
  · by_cases hn : ∃ c ∈ s.classes, c.name = n
    · obtain ⟨c, hc, rfl⟩ := hn
      exact Nat.lt_of_le_of_lt (size_fieldTypesOf_summary_le hs hc)
        (hfields c hc)
    · have hnone : (summary settings s).evidence.fieldTypesOf n = {} :=
        Evidence.fieldTypesOf_of_absent (habsent hn)
      rw [hnone]
      exact twoPow_pos 64
  · exact Nat.lt_of_le_of_lt (externalFieldUserCount_summary_le n) hsize
  · by_cases hn : ∃ c ∈ s.classes, c.name = n
    · obtain ⟨c, hc, rfl⟩ := hn
      exact Nat.lt_of_le_of_lt (selfFieldRefs_summary_le hs hc) (hfields c hc)
    · have hnone : (summary settings s).evidence.selfFieldRefs n = 0 :=
        Evidence.selfFieldRefs_of_absent (habsent hn)
      rw [hnone]
      exact twoPow_pos 64

end Index

end SymbolMatch
