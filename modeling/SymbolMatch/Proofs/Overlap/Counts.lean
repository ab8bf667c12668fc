/-
The whole numbers that the measures divide.

A comparison of two multisets keeps two sums in machine words. It walks
through the entries of one map and then through those that only the other
has. Here the walk is written with an addition that gives no answer once
the sum is more than a word holds (`addWord?`), so an answer says that no
addition on the way went over. From what one entry adds follows what a
stretch of entries adds (`foldlM_of_steps`), and so the walk ends with
`minSum` and `maxSum` if the greater of the two fits (`sums?_eq_some`).

What these are is said over the finite set of all keys that either map
has, in which no key stands twice. There a bound on the number of keys and
on each count bounds the sums, and two sums whose terms are in order are
equal just if the terms are. The counts of two sets are sizes of finite
sets in the same way.
-/
import Mathlib.Algebra.Order.BigOperators.Group.Finset
import Mathlib.Algebra.Order.Ring.Nat
import Mathlib.Data.Finset.Card
import SymbolMatch.Proofs.Measures
import SymbolMatch.Proofs.Overlap.Union

namespace SymbolMatch

variable {κ : Type} [Ord κ] [Std.TransOrd κ] [Std.LawfulEqOrd κ]

-- ========================================================== finite sets

namespace OrdSet

/-- The elements of a set, with no order. -/
def toFinset (s : OrdSet κ) : Finset κ := ⟨s.elements, s.nodup_elements⟩

theorem mem_toFinset {s : OrdSet κ} {k : κ} : k ∈ s.toFinset ↔ k ∈ s :=
  Iff.rfl

theorem card_toFinset (s : OrdSet κ) : s.toFinset.card = s.size := rfl

theorem toFinset_inj {s t : OrdSet κ} : s.toFinset = t.toFinset ↔ s = t := by
  refine ⟨fun h => ext fun k => ?_, congrArg toFinset⟩
  rw [← mem_toFinset, h, mem_toFinset]

variable [DecidableEq κ] (s t : OrdSet κ)

theorem toFinset_union :
    (s.union t).toFinset = s.toFinset ∪ t.toFinset := by
  ext k
  rw [Finset.mem_union, mem_toFinset, mem_union, mem_toFinset, mem_toFinset]

theorem toFinset_inter :
    (s.inter t).toFinset = s.toFinset ∩ t.toFinset := by
  ext k
  rw [Finset.mem_inter, mem_toFinset, mem_inter, mem_toFinset, mem_toFinset]

end OrdSet

-- ====================================================== missing counts

namespace OrdMap

variable {a b : OrdMap κ Nat}

/-- A missing count is within every bound that the counts are within. -/
theorem getD_lt {bound : Nat} (hpos : 0 < bound)
    (h : ∀ n ∈ a.values, n < bound) (k : κ) : a.getD k 0 < bound := by
  unfold getD
  cases hget : a.get? k with
  | none => exact hpos
  | some n => exact h n (List.mem_map.2 ⟨_, get?_eq_some_iff.1 hget, rfl⟩)

omit [Std.TransOrd κ] [Std.LawfulEqOrd κ] in
/-- With a missing count read as zero two maps agree on a key just if they
have the same count of it, zero apart. -/
theorem getD_eq_getD_iff {k : κ} : a.getD k 0 = b.getD k 0
    ↔ ∀ n, n ≠ 0 → (a.get? k = some n ↔ b.get? k = some n) := by
  unfold getD
  cases a.get? k with
  | none => cases b.get? k <;> grind
  | some m => cases b.get? k <;> grind

end OrdMap

-- ================================================================= sets

namespace Overlap

open Binary64

section Sets

variable [DecidableEq κ] (s t : OrdSet κ)

theorem sharedCount_eq_card :
    sharedCount s t = (s.toFinset ∩ t.toFinset).card := by
  rw [← OrdSet.toFinset_inter, OrdSet.card_toFinset]
  rfl

/-- Nothing is lost when the shared elements are taken off. -/
theorem unionCount_eq_card :
    unionCount s t = (s.toFinset ∪ t.toFinset).card := by
  have hsum := Finset.card_union_add_card_inter s.toFinset t.toFinset
  rw [← sharedCount_eq_card, OrdSet.card_toFinset, OrdSet.card_toFinset] at hsum
  unfold unionCount
  omega

theorem sharedCount_eq_unionCount_iff :
    sharedCount s t = unionCount s t ↔ s = t := by
  have hsub : s.toFinset ∩ t.toFinset ⊆ s.toFinset ∪ t.toFinset :=
    inf_le_sup
  rw [sharedCount_eq_card, unionCount_eq_card, ← OrdSet.toFinset_inj]
  constructor
  · intro hcard
    exact inf_eq_sup.1 (Finset.eq_of_subset_of_card_le hsub hcard.ge)
  · intro h
    rw [h, Finset.inter_self, Finset.union_self]

theorem jaccard_eq : jaccard s t
    = if s.toFinset ∪ t.toFinset = ∅ then 1
      else ofNat (s.toFinset ∩ t.toFinset).card
        / ofNat (s.toFinset ∪ t.toFinset).card := by
  have hempty {u : OrdSet κ} : u.isEmpty = true ↔ u.toFinset = ∅ := by
    rw [OrdSet.isEmpty_iff, Finset.eq_empty_iff_forall_notMem]
    rfl
  unfold jaccard
  rw [sharedCount_eq_card, unionCount_eq_card]
  simp only [Bool.and_eq_true, hempty, Finset.union_eq_empty]

end Sets

-- ================================================================ words

/-- The sum of two words, if a word holds it. -/
def addWord? (m n : Nat) : Option Nat :=
  if m + n < twoPow 64 then some (m + n) else none

theorem addWord?_of_lt {m n : Nat} (h : m + n < twoPow 64) :
    addWord? m n = some (m + n) :=
  if_pos h

/-- The two sums of a comparison. -/
structure Sums where
  least : Nat
  greatest : Nat
deriving DecidableEq

namespace Sums

/-- Take in the two counts of a key of the first map. -/
def compared? (b : OrdMap κ Nat) (s : Sums) (e : κ × Nat) : Option Sums := do
  let least ← addWord? s.least (min e.2 (b.getD e.1 0))
  let greatest ← addWord? s.greatest (max e.2 (b.getD e.1 0))
  return ⟨least, greatest⟩

/-- Take in the count of a key of the second map, unless the first has it
too. -/
def unmatched? (a : OrdMap κ Nat) (s : Sums) (e : κ × Nat) : Option Sums :=
  if a.contains e.1 then some s else do
    let greatest ← addWord? s.greatest e.2
    return ⟨s.least, greatest⟩

variable {l g : Nat}

section Steps

omit [Std.TransOrd κ] [Std.LawfulEqOrd κ]

theorem compared?_of_lt {b : OrdMap κ Nat} {e : κ × Nat}
    (hlow : l + min e.2 (b.getD e.1 0) < twoPow 64)
    (hhigh : g + max e.2 (b.getD e.1 0) < twoPow 64) :
    compared? b ⟨l, g⟩ e
      = some ⟨l + min e.2 (b.getD e.1 0), g + max e.2 (b.getD e.1 0)⟩ := by
  unfold compared?
  rw [addWord?_of_lt hlow, addWord?_of_lt hhigh]
  rfl

/-- A key that both maps have adds nothing the second time. -/
theorem unmatched?_of_lt {a : OrdMap κ Nat} {e : κ × Nat}
    (hhigh : g + (if !a.contains e.1 then e.2 else 0) < twoPow 64) :
    unmatched? a ⟨l, g⟩ e
      = some ⟨l, g + if !a.contains e.1 then e.2 else 0⟩ := by
  unfold unmatched?
  cases hin : a.contains e.1 with
  | true => rfl
  | false =>
    rw [hin] at hhigh
    have hadd : addWord? g e.2 = some (g + e.2) := addWord?_of_lt hhigh
    rw [hadd]
    rfl

end Steps

/-- If each element adds what it should as long as there is room, then so
do all of them. -/
theorem foldlM_of_steps {α : Type} {step : Sums → α → Option Sums}
    {low high : α → Nat}
    (hstep : ∀ l g x, l + low x < twoPow 64 → g + high x < twoPow 64 →
      step ⟨l, g⟩ x = some ⟨l + low x, g + high x⟩)
    {xs : List α} (hlow : l + total (xs.map low) < twoPow 64)
    (hhigh : g + total (xs.map high) < twoPow 64) :
    xs.foldlM step ⟨l, g⟩
      = some ⟨l + total (xs.map low), g + total (xs.map high)⟩ := by
  induction xs generalizing l g with
  | nil => rfl
  | cons x rest ih =>
    rw [List.map_cons, total, ← Nat.add_assoc] at hlow hhigh ⊢
    rw [List.map_cons, total, ← Nat.add_assoc, List.foldlM_cons,
      hstep l g x (by omega) (by omega)]
    exact ih hlow hhigh

end Sums

/-- The walk through the entries of the first map, then through those of
the second. -/
def sums? (a b : OrdMap κ Nat) : Option Sums := do
  let s ← a.entries.foldlM (Sums.compared? b) ⟨0, 0⟩
  b.entries.foldlM (Sums.unmatched? a) s

/-- What is left out adds nothing. -/
theorem total_map_filter {α : Type} (p : α → Bool) (f : α → Nat)
    (xs : List α) : total ((xs.filter p).map f)
      = total (xs.map fun x => if p x then f x else 0) := by
  induction xs with
  | nil => rfl
  | cons x rest ih =>
    rw [List.map_cons, total, ← ih, List.filter_cons]
    cases p x with
    | true => rfl
    | false => exact (Nat.zero_add _).symm

section Walk

omit [Std.TransOrd κ] [Std.LawfulEqOrd κ]

variable {a b : OrdMap κ Nat}

/-- What the keys of the first map come to. -/
theorem foldlM_compared? (hlow : minSum a b < twoPow 64)
    (hhigh : total (a.entries.map fun e => max e.2 (b.getD e.1 0))
      < twoPow 64) :
    a.entries.foldlM (Sums.compared? b) ⟨0, 0⟩
      = some ⟨minSum a b,
        total (a.entries.map fun e => max e.2 (b.getD e.1 0))⟩ := by
  rw [← Nat.zero_add (minSum a b)] at hlow ⊢
  rw [← Nat.zero_add (total _)] at hhigh ⊢
  exact Sums.foldlM_of_steps (fun _ _ _ => Sums.compared?_of_lt) hlow hhigh

/-- What the keys that only the second map has add. -/
theorem foldlM_unmatched? {l g : Nat} (hlow : l < twoPow 64)
    (hhigh : g + total ((b.only a).map (·.2)) < twoPow 64) :
    b.entries.foldlM (Sums.unmatched? a) ⟨l, g⟩
      = some ⟨l, g + total ((b.only a).map (·.2))⟩ := by
  have hnone : l + total (b.entries.map fun _ => 0) = l := by
    rw [total_map_eq_zero fun _ _ => rfl, Nat.add_zero]
  unfold OrdMap.only at hhigh ⊢
  rw [total_map_filter] at hhigh ⊢
  rw [← hnone] at hlow
  refine (Sums.foldlM_of_steps ?_ hlow hhigh).trans ?_
  · exact fun _ _ _ _ => Sums.unmatched?_of_lt
  · rw [hnone]

/-- The walk has an answer if the greater sum fits into a word. -/
theorem sums?_eq_some (h : maxSum a b < twoPow 64) :
    sums? a b = some ⟨minSum a b, maxSum a b⟩ := by
  have hmax : maxSum a b
      = total (a.entries.map fun e => max e.2 (b.getD e.1 0))
        + total ((b.only a).map (·.2)) := rfl
  have hlow : minSum a b < twoPow 64 :=
    Nat.lt_of_le_of_lt (minSum_le_maxSum a b) h
  unfold sums?
  rw [foldlM_compared? hlow (by omega)]
  exact foldlM_unmatched? hlow (hmax ▸ h)

end Walk

-- ============================================================ multisets

theorem total_eq_sum (xs : List Nat) : total xs = xs.sum := by
  induction xs with
  | nil => rfl
  | cons x rest ih => rw [total, List.sum_cons, ih]

variable [DecidableEq κ] (a b : OrdMap κ Nat)

/-- The keys that either map has. -/
def allKeys : Finset κ := a.keySet.toFinset ∪ b.keySet.toFinset

variable {a b} in
theorem mem_allKeys {k : κ} : k ∈ allKeys a b ↔ k ∈ a.keys ∨ k ∈ b.keys :=
  Finset.mem_union

theorem unionSum_eq_sum (f : Nat → Nat → Nat) :
    unionSum a b f = ∑ k ∈ allKeys a b, f (a.getD k 0) (b.getD k 0) := by
  unfold unionSum allKeys
  rw [← OrdSet.toFinset_union, total_eq_sum]
  rfl

theorem minSum_eq_sum : minSum a b
    = ∑ k ∈ allKeys a b, min (a.getD k 0) (b.getD k 0) := by
  rw [minSum_eq_unionSum, unionSum_eq_sum]

theorem maxSum_eq_sum : maxSum a b
    = ∑ k ∈ allKeys a b, max (a.getD k 0) (b.getD k 0) := by
  rw [maxSum_eq_unionSum, unionSum_eq_sum]

variable {a b}

/-- Fewer than 2³² counts of 32 bits each fit into a word of 64 bits. -/
theorem maxSum_lt (ha : ∀ n ∈ a.values, n < twoPow 32)
    (hb : ∀ n ∈ b.values, n < twoPow 32)
    (hkeys : (allKeys a b).card < twoPow 32) : maxSum a b < twoPow 64 := by
  have hpos : 0 < twoPow 32 := by decide
  have hterm : ∀ k ∈ allKeys a b,
      max (a.getD k 0) (b.getD k 0) ≤ twoPow 32 - 1 := by
    intro k _
    have hak := OrdMap.getD_lt hpos ha k
    have hbk := OrdMap.getD_lt hpos hb k
    omega
  calc maxSum a b
      = ∑ k ∈ allKeys a b, max (a.getD k 0) (b.getD k 0) := maxSum_eq_sum a b
    _ ≤ (allKeys a b).card * (twoPow 32 - 1) :=
      Finset.sum_le_card_nsmul _ _ _ hterm
    _ ≤ twoPow 32 * (twoPow 32 - 1) := Nat.mul_le_mul_right _ hkeys.le
    _ < twoPow 64 := by decide

theorem minSum_eq_maxSum_iff : minSum a b = maxSum a b
    ↔ ∀ k n, n ≠ 0 → (a.get? k = some n ↔ b.get? k = some n) := by
  have hterms : ∀ k ∈ allKeys a b,
      min (a.getD k 0) (b.getD k 0) ≤ max (a.getD k 0) (b.getD k 0) :=
    fun k _ => inf_le_sup
  rw [minSum_eq_sum, maxSum_eq_sum, Finset.sum_eq_sum_iff_of_le hterms]
  simp only [← OrdMap.getD_eq_getD_iff]
  constructor
  · intro h k
    by_cases hk : k ∈ allKeys a b
    · exact inf_eq_sup.1 (h k hk)
    · rw [mem_allKeys, not_or] at hk
      rw [OrdMap.getD_of_not_mem hk.1, OrdMap.getD_of_not_mem hk.2]
  · intro h k _
    rw [h k, Nat.min_self, Nat.max_self]

variable (a b) in
theorem multisetJaccard_eq : multisetJaccard a b
    = if ∑ k ∈ allKeys a b, max (a.getD k 0) (b.getD k 0) = 0 then 1
      else ofNat (∑ k ∈ allKeys a b, min (a.getD k 0) (b.getD k 0))
        / ofNat (∑ k ∈ allKeys a b, max (a.getD k 0) (b.getD k 0)) := by
  unfold multisetJaccard
  rw [minSum_eq_sum, maxSum_eq_sum]

-- =========================================================== the theorem

/-- The measures divide the right numbers. For two maps of counts that 32
bits hold, with fewer than 2³² keys between them, the walk never adds more
than a word holds. It ends with the lesser and with the greater counts of
all keys, each key once, and the two sums are equal just if the maps agree
on every count that is not zero. For two sets what is taken off is there
to be taken off, what remains is the size of the union, and it is all
shared just if the sets are equal. -/
theorem divided_counts_exact :
    (∀ a b : OrdMap κ Nat,
      ((∀ n ∈ a.values, n < twoPow 32) → (∀ n ∈ b.values, n < twoPow 32) →
        (allKeys a b).card < twoPow 32 →
        sums? a b = some ⟨minSum a b, maxSum a b⟩)
      ∧ minSum a b = ∑ k ∈ allKeys a b, min (a.getD k 0) (b.getD k 0)
      ∧ maxSum a b = ∑ k ∈ allKeys a b, max (a.getD k 0) (b.getD k 0)
      ∧ minSum a b ≤ maxSum a b
      ∧ (minSum a b = maxSum a b
        ↔ ∀ k n, n ≠ 0 → (a.get? k = some n ↔ b.get? k = some n))
      ∧ multisetJaccard a b
        = if ∑ k ∈ allKeys a b, max (a.getD k 0) (b.getD k 0) = 0 then 1
          else ofNat (∑ k ∈ allKeys a b, min (a.getD k 0) (b.getD k 0))
            / ofNat (∑ k ∈ allKeys a b, max (a.getD k 0) (b.getD k 0)))
      ∧ ∀ s t : OrdSet κ,
        sharedCount s t ≤ s.size + t.size
        ∧ unionCount s t = (s.toFinset ∪ t.toFinset).card
        ∧ (sharedCount s t = unionCount s t ↔ s = t)
        ∧ jaccard s t
          = if s.toFinset ∪ t.toFinset = ∅ then 1
            else ofNat (s.toFinset ∩ t.toFinset).card
              / ofNat (s.toFinset ∪ t.toFinset).card := by
  refine ⟨fun a b => ⟨fun ha hb hkeys => ?_, minSum_eq_sum a b,
    maxSum_eq_sum a b, minSum_le_maxSum a b, minSum_eq_maxSum_iff,
    multisetJaccard_eq a b⟩, fun s t => ⟨?_, unionCount_eq_card s t,
    sharedCount_eq_unionCount_iff s t, jaccard_eq s t⟩⟩
  · exact sums?_eq_some (maxSum_lt ha hb hkeys)
  · exact Nat.le_trans (sharedCount_le_left s t) (Nat.le_add_right _ _)

end Overlap

namespace Sample

/-- A count as large as 32 bits hold, and one that is zero. -/
def manyCalls : OrdMap String Nat :=
  .ofList [("()V", 4294967295), ("(I)V", 1), ("(D)V", 0)]

def otherCalls : OrdMap String Nat :=
  .ofList [("()V", 2), ("(J)V", 4294967295)]

def words : OrdSet String := .ofList ["x", "y"]

def otherWords : OrdSet String := .ofList ["y", "z"]

end Sample

namespace Overlap

open Sample

/-- The greater counts come to more than 32 bits hold, and a count of zero
makes no difference. Two sets of two elements with one in common have
three. -/
theorem divided_counts_exact_wide :
    sums? manyCalls otherCalls = some ⟨2, 8589934591⟩
      ∧ ∑ k ∈ allKeys manyCalls otherCalls,
        max (manyCalls.getD k 0) (otherCalls.getD k 0) = 8589934591
      ∧ minSum manyCalls (manyCalls.erase "(D)V")
        = maxSum manyCalls (manyCalls.erase "(D)V")
      ∧ (words.toFinset ∪ otherWords.toFinset).card = 3
      ∧ sharedCount words otherWords ≠ unionCount words otherWords := by
  have hmin : minSum manyCalls otherCalls = 2 := by decide
  have hmax : maxSum manyCalls otherCalls = 8589934591 := by decide
  have hunion : unionCount words otherWords = 3 := by decide
  have hzero : manyCalls.get? "(D)V" = some 0 := by decide
  obtain ⟨hwalk, -, hgreatest, -⟩ :=
    divided_counts_exact.1 manyCalls otherCalls
  obtain ⟨-, -, -, -, hagree, -⟩ :=
    divided_counts_exact.1 manyCalls (manyCalls.erase "(D)V")
  obtain ⟨-, hcard, hequal, -⟩ := divided_counts_exact.2 words otherWords
  have hsums := hwalk (by decide) (by decide) (by decide)
  rw [hmin, hmax] at hsums
  refine ⟨hsums, hgreatest ▸ hmax, hagree.2 fun k n hn => ?_, hcard ▸ hunion,
    fun h => ?_⟩
  · rw [OrdMap.get?_erase]
    split
    · next hk =>
      subst hk
      rw [hzero]
      grind
    · rfl
  · exact absurd (hequal.1 h) (by decide)

end Overlap

end SymbolMatch
