/-
The counts of two multisets, key by key.

A measure goes through the keys of one map first and then through those
that only the other has; the terms of a vector product stand in the order
of the keys that both have. Neither walk is the same from the other side.
What they come to is a sum over all keys that either map has, and a list
over the keys that both have, with a missing count read as zero. In this
form the two maps change places freely.
-/
import SymbolMatch.Proofs.Number.Operands
import SymbolMatch.Proofs.Overlap

namespace SymbolMatch

variable {κ : Type} [Ord κ] [Std.TransOrd κ] [Std.LawfulEqOrd κ]

-- ================================================================= keys

namespace OrdMap

variable {ν : Type}

/-- The keys of a map as a set. -/
def keySet (m : OrdMap κ ν) : OrdSet κ := ⟨m.keys, m.keys_sorted⟩

theorem mem_keySet {m : OrdMap κ ν} {k : κ} : k ∈ m.keySet ↔ k ∈ m.keys :=
  Iff.rfl

/-- The value that an entry holds is the one under its key. -/
theorem getD_of_mem {m : OrdMap κ ν} {e : κ × ν} (he : e ∈ m.entries)
    (default : ν) : m.getD e.1 default = e.2 := by
  unfold getD
  rw [get?_eq_some_iff.2 he]
  rfl

theorem getD_of_not_mem {m : OrdMap κ ν} {k : κ} (hk : k ∉ m.keys)
    (default : ν) : m.getD k default = default := by
  unfold getD
  rw [get?_eq_none_iff.2 hk]
  rfl

/-- The entries whose keys another map does not have. -/
def only (b a : OrdMap κ ν) : List (κ × ν) :=
  b.entries.filter fun e => !a.contains e.1

theorem mem_only {a b : OrdMap κ ν} {e : κ × ν} :
    e ∈ b.only a ↔ e ∈ b.entries ∧ e.1 ∉ a.keys := by
  unfold only
  rw [List.mem_filter, Bool.not_eq_true', ← Bool.not_eq_true, contains_iff]

/-- The keys of either map: those of the first, then those that only the
second has. -/
theorem keys_union_perm (a b : OrdMap κ ν) :
    (a.keySet.union b.keySet).elements.Perm
      (a.keys ++ (b.only a).map (·.1)) := by
  have hsub : ((b.only a).map (·.1)).Sublist b.keys :=
    List.filter_sublist.map _
  have hnodup : (a.keys ++ (b.only a).map (·.1)).Nodup := by
    refine List.nodup_append.2
      ⟨a.nodup_keys, hsub.nodup b.nodup_keys, fun k hk j hj heq => ?_⟩
    obtain ⟨e, he, rfl⟩ := List.mem_map.1 hj
    exact (mem_only.1 he).2 (heq ▸ hk)
  refine (List.perm_ext_iff_of_nodup (OrdSet.nodup_elements _) hnodup).2 ?_
  intro k
  rw [← OrdSet.mem_def, OrdSet.mem_union, mem_keySet, mem_keySet,
    List.mem_append]
  constructor
  · rintro (ha | hb)
    · exact .inl ha
    · by_cases ha : k ∈ a.keys
      · exact .inl ha
      · obtain ⟨e, he, rfl⟩ := List.mem_map.1 hb
        exact .inr (List.mem_map.2 ⟨e, mem_only.2 ⟨he, ha⟩, rfl⟩)
  · rintro (ha | hb)
    · exact .inl ha
    · exact .inr (hsub.subset hb)

end OrdMap

namespace Overlap

open Binary64

-- ================================================================= sums

theorem total_append (xs ys : List Nat) :
    total (xs ++ ys) = total xs + total ys := by
  induction xs with
  | nil => exact (Nat.zero_add _).symm
  | cons x rest ih =>
    show x + total (rest ++ ys) = x + total rest + total ys
    rw [ih, Nat.add_assoc]

/-- A sum does not depend on the order of its terms. -/
theorem total_perm {xs ys : List Nat} (h : xs.Perm ys) :
    total xs = total ys := by
  induction h with
  | nil => rfl
  | cons x _ ih => exact congrArg (x + ·) ih
  | swap x y rest => exact Nat.add_left_comm y x (total rest)
  | trans _ _ ih ih' => exact ih.trans ih'

/-- A sum of nothing but zeros. -/
theorem total_map_eq_zero {α : Type} {xs : List α} {f : α → Nat}
    (h : ∀ x ∈ xs, f x = 0) : total (xs.map f) = 0 := by
  induction xs with
  | nil => rfl
  | cons x rest ih =>
    show f x + total (rest.map f) = 0
    rw [h x List.mem_cons_self, ih fun y hy => h y (List.mem_cons_of_mem _ hy)]

variable (a b : OrdMap κ Nat)

/-- A value of the two counts of every key of either map, added up. -/
def unionSum (f : Nat → Nat → Nat) : Nat :=
  total ((a.keySet.union b.keySet).elements.map fun k =>
    f (a.getD k 0) (b.getD k 0))

/-- The sum in two walks: over the entries of the first map, then over
those that only the second has. -/
theorem unionSum_eq (f : Nat → Nat → Nat) :
    unionSum a b f = total (a.entries.map fun e => f e.2 (b.getD e.1 0))
      + total ((b.only a).map fun e => f 0 e.2) := by
  have hfirst : (a.keys.map fun k => f (a.getD k 0) (b.getD k 0))
      = a.entries.map fun e => f e.2 (b.getD e.1 0) := by
    unfold OrdMap.keys
    rw [List.map_map]
    refine List.map_congr_left fun e he => ?_
    show f (a.getD e.1 0) _ = _
    rw [OrdMap.getD_of_mem he]
  have hsecond : (((b.only a).map (·.1)).map fun k =>
        f (a.getD k 0) (b.getD k 0))
      = (b.only a).map fun e => f 0 e.2 := by
    rw [List.map_map]
    refine List.map_congr_left fun e he => ?_
    obtain ⟨hb, ha⟩ := OrdMap.mem_only.1 he
    show f (a.getD e.1 0) (b.getD e.1 0) = _
    rw [OrdMap.getD_of_mem hb, OrdMap.getD_of_not_mem ha]
  unfold unionSum
  rw [total_perm ((OrdMap.keys_union_perm a b).map _), List.map_append,
    total_append, hfirst, hsecond]

/-- Changing places. -/
theorem unionSum_comm {f : Nat → Nat → Nat} (hf : ∀ m n, f m n = f n m) :
    unionSum a b f = unionSum b a f := by
  have hkeys : a.keySet.union b.keySet = b.keySet.union a.keySet :=
    OrdSet.ext fun k => by rw [OrdSet.mem_union, OrdSet.mem_union, or_comm]
  unfold unionSum
  rw [hkeys]
  simp only [hf (a.getD _ 0)]

theorem minSum_eq_unionSum : minSum a b = unionSum a b min := by
  have hnone : total ((b.only a).map fun e => min 0 e.2) = 0 :=
    total_map_eq_zero fun e _ => Nat.zero_min e.2
  rw [unionSum_eq, hnone]
  rfl

theorem maxSum_eq_unionSum : maxSum a b = unionSum a b max := by
  rw [unionSum_eq]
  simp only [Nat.zero_max]
  rfl

theorem multisetJaccard_comm : multisetJaccard a b = multisetJaccard b a := by
  have hmin : minSum a b = minSum b a := by
    rw [minSum_eq_unionSum, minSum_eq_unionSum, unionSum_comm a b Nat.min_comm]
  have hmax : maxSum a b = maxSum b a := by
    rw [maxSum_eq_unionSum, maxSum_eq_unionSum, unionSum_comm a b Nat.max_comm]
  unfold multisetJaccard
  rw [hmin, hmax]

-- ============================================================== vectors

/-- The products that some entries of a vector contribute, by their
keys. -/
theorem products_eq {l : List (κ × Nat)} (hl : ∀ e ∈ l, e ∈ a.entries) :
    (l.filterMap fun e => (b.get? e.1).map fun n => ofNat e.2 * ofNat n)
      = ((l.map (·.1)).filter b.keySet.contains).map fun k =>
        ofNat (a.getD k 0) * ofNat (b.getD k 0) := by
  induction l with
  | nil => rfl
  | cons e rest ih =>
    have hrest := ih fun x hx => hl x (List.mem_cons_of_mem _ hx)
    have he := OrdMap.getD_of_mem (hl e List.mem_cons_self) 0
    rw [List.filterMap_cons, List.map_cons, List.filter_cons]
    cases hget : b.get? e.1 with
    | none =>
      have hout : ¬b.keySet.contains e.1 = true := by
        rw [OrdSet.contains_iff]
        exact OrdMap.get?_eq_none_iff.1 hget
      rw [if_neg hout]
      exact hrest
    | some n =>
      have hin : b.keySet.contains e.1 = true := by
        rw [OrdSet.contains_iff]
        exact OrdMap.mem_keys_iff.2 ⟨n, hget⟩
      have hn : b.getD e.1 0 = n :=
        OrdMap.getD_of_mem (OrdMap.get?_eq_some_iff.1 hget) 0
      rw [if_pos hin, List.map_cons, he, hn, ← hrest]
      rfl

/-- The products of a vector product, by the keys that both vectors
have. -/
theorem dot_eq : dot a b
    = sum ((a.keySet.inter b.keySet).elements.map fun k =>
      ofNat (a.getD k 0) * ofNat (b.getD k 0)) := by
  unfold dot
  rw [products_eq a b fun e he => he]
  rfl

theorem dot_comm : dot a b = dot b a := by
  have hkeys : a.keySet.inter b.keySet = b.keySet.inter a.keySet :=
    OrdSet.ext fun k => by rw [OrdSet.mem_inter, OrdSet.mem_inter, and_comm]
  rw [dot_eq, dot_eq, hkeys]
  simp only [ofNat_mul_comm (a.getD _ 0)]

omit [Std.TransOrd κ] [Std.LawfulEqOrd κ] in
/-- Every length is a number, though it may be infinite. -/
theorem isNaN_norm : (norm a).isNaN = false := by
  apply isNaN_sqrt
  apply zero_le_sum
  intro x hx
  obtain ⟨n, -, rfl⟩ := List.mem_map.1 hx
  exact zero_le_square n

theorem cosine_comm [DecidableEq κ] : cosine a b = cosine b a := by
  have hproduct : norm a * norm b = norm b * norm a := by
    refine mul_comm_of fun ha _ => ?_
    rw [isNaN_norm] at ha
    cases ha
  unfold cosine
  rw [dot_comm a b, hproduct, Bool.and_comm (norm a).isZero,
    Bool.or_comm (norm a).isZero]
  simp only [eq_comm (a := a)]

-- ================================================================= sets

theorem jaccard_comm (a b : OrdSet κ) : jaccard a b = jaccard b a := by
  have hshared : sharedCount a b = sharedCount b a := by
    unfold sharedCount
    rw [show a.inter b = b.inter a from OrdSet.ext fun k => by
      rw [OrdSet.mem_inter, OrdSet.mem_inter, and_comm]]
  have hunion : unionCount a b = unionCount b a := by
    unfold unionCount
    omega
  unfold jaccard
  rw [hshared, hunion, Bool.and_comm]

-- =============================================================== counts

theorem countCloseness_comm (m n : Nat) :
    countCloseness m n = countCloseness n m := by
  unfold countCloseness difference
  rw [Nat.max_comm m n, Nat.min_comm m n]

theorem sizeRatio_comm (m n : Nat) : sizeRatio m n = sizeRatio n m := by
  unfold sizeRatio
  rw [Nat.max_comm m n, Nat.min_comm m n]
  simp only [eq_comm (a := m)]

end Overlap

end SymbolMatch
