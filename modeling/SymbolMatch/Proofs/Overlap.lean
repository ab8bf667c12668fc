/-
What the measures of overlap give at most, and what they give a thing
with itself: a full share, as long as the counts are ones that a machine
word holds.
-/
import SymbolMatch.Overlap
import SymbolMatch.Proofs.Number.Bounds
import SymbolMatch.Proofs.Ordered.Map
import SymbolMatch.Proofs.Ordered.Set

namespace SymbolMatch

namespace Binary64

/-- All of a count that is there and can be held. -/
theorem ofNat_div_self {n : Nat} (hpos : 0 < n) (hn : n < twoPow 64) :
    ofNat n / ofNat n = 1 :=
  div_self_of_isFinite (isFinite_ofNat hn) (magnitude_ofNat_ne_zero hpos)

end Binary64

namespace Overlap

open Binary64

variable {κ : Type} [Ord κ] [Std.TransOrd κ] [Std.LawfulEqOrd κ]

-- ============================================================== counts

theorem countCloseness_atMost (a b : Nat) : (countCloseness a b).AtMost 1 := by
  have h := sub_atMost (a := 1) isFinite_one
    (div_ofNat_sign (difference a b) (max (max a b) 1))
  have hone : (1 + 0 : Binary64) = 1 := by decide +kernel
  rw [hone] at h
  exact h

@[simp] theorem countCloseness_self (a : Nat) : countCloseness a a = 1 := by
  have hdiff : difference a a = 0 := by
    unfold difference
    omega
  have hzero := zero_div_ofNat (n := max (max a a) 1) (by omega)
  unfold countCloseness
  rw [hdiff, hzero]
  decide +kernel

@[simp] theorem sizeRatio_self (a : Nat) : sizeRatio a a = 1 := if_pos rfl

-- ================================================================ sets

theorem jaccard_self {a : OrdSet κ} (h : a.size < twoPow 64) :
    jaccard a a = 1 := by
  have hshared : sharedCount a a = a.size := by
    unfold sharedCount
    rw [show a.inter a = a from OrdSet.ext fun k => by simp]
  have hunion : unionCount a a = a.size := by
    unfold unionCount
    rw [hshared]
    omega
  unfold jaccard
  rw [hshared, hunion]
  by_cases hempty : a.isEmpty = true
  · rw [hempty]
    rfl
  · rw [if_neg (by simp [hempty])]
    apply ofNat_div_self _ h
    exact List.length_pos_iff.2 fun hnil => hempty (List.isEmpty_iff.2 hnil)

-- =========================================================== multisets

/-- The values of a map, looked up by their keys. -/
theorem map_entries_self {ν : Type} (m : OrdMap κ Nat)
    (f : Nat → Nat → ν) :
    (m.entries.map fun e => f e.2 (m.getD e.1 0))
      = m.values.map fun n => f n n := by
  unfold OrdMap.values
  rw [List.map_map]
  apply List.map_congr_left
  intro e he
  have hget : m.get? e.1 = some e.2 := OrdMap.get?_eq_some_iff.2 he
  unfold OrdMap.getD
  rw [hget]
  rfl

theorem multisetJaccard_self {a : OrdMap κ Nat}
    (h : total a.values < twoPow 64) : multisetJaccard a a = 1 := by
  have hself : (a.values.map fun n => n) = a.values := List.map_id' a.values
  have hmin : minSum a a = total a.values := by
    unfold minSum
    rw [map_entries_self a min]
    simp only [Nat.min_self]
    rw [hself]
  have hmax : maxSum a a = total a.values := by
    have hnone : (a.entries.filter fun e => !a.contains e.1) = [] := by
      rw [List.filter_eq_nil_iff]
      intro e he
      rw [Bool.not_eq_true, Bool.not_eq_false', OrdMap.contains_iff]
      exact List.mem_map.2 ⟨e, he, rfl⟩
    unfold maxSum
    rw [map_entries_self a max, hnone]
    simp only [Nat.max_self]
    rw [hself]
    rfl
  unfold multisetJaccard
  rw [hmin, hmax]
  by_cases hzero : total a.values = 0
  · rw [if_pos hzero]
  · rw [if_neg hzero]
    exact ofNat_div_self (Nat.pos_of_ne_zero hzero) h

omit [Std.TransOrd κ] [Std.LawfulEqOrd κ] in
theorem cosine_self [DecidableEq κ] (a : OrdMap κ Nat) : cosine a a = 1 :=
  if_pos rfl

/-- Counting one more occurrence. -/
theorem total_bump (m : OrdMap κ Nat) (k : κ) :
    total (m.bump k).values = total m.values + 1 := by
  have key (l : List (κ × Nat)) :
      total ((OrdMap.alterEntries k (fun n => n.getD 0 + 1) l).map (·.2))
        = total (l.map (·.2)) + 1 := by
    induction l with
    | nil => rfl
    | cons e rest ih =>
      unfold OrdMap.alterEntries
      split
      · show 0 + 1 + (e.2 + total (rest.map (·.2))) = _
        show _ = e.2 + total (rest.map (·.2)) + 1
        omega
      · show e.2 + 1 + total (rest.map (·.2)) = _
        show _ = e.2 + total (rest.map (·.2)) + 1
        omega
      · show e.2 + total _ = e.2 + total (rest.map (·.2)) + 1
        rw [ih]
        omega
  exact key m.entries

/-- The occurrences that a tally counts. -/
theorem total_tally (xs : List κ) :
    total (OrdMap.tally xs).values = xs.length := by
  have key (m : OrdMap κ Nat) :
      total (xs.foldl OrdMap.bump m).values = total m.values + xs.length := by
    induction xs generalizing m with
    | nil => rfl
    | cons x rest ih =>
      rw [List.foldl_cons, ih, total_bump, List.length_cons]
      omega
  exact (key OrdMap.empty).trans (Nat.zero_add _)

-- ======================================================= weighted means

/-- Weights whose sum can be held. -/
structure Weights (ws : List Binary64) : Prop where
  each : ∀ w ∈ ws, w.isFinite = true ∧ w.negative = false
  isFinite : (ws.foldl (· + ·) 0).isFinite = true
  ne_zero : (ws.foldl (· + ·) 0).magnitude ≠ 0

instance (ws : List Binary64) : Decidable (Weights ws) :=
  decidable_of_iff
    ((∀ w ∈ ws, w.isFinite = true ∧ w.negative = false)
      ∧ (ws.foldl (· + ·) 0).isFinite = true
      ∧ (ws.foldl (· + ·) 0).magnitude ≠ 0)
    ⟨fun ⟨heach, hfinite, hne⟩ => ⟨heach, hfinite, hne⟩,
    fun h => ⟨h.each, h.isFinite, h.ne_zero⟩⟩

variable {terms : List (Binary64 × Binary64)}

theorem weightedMean_eq (terms : List (Binary64 × Binary64)) :
    weightedMean terms = terms.foldl (fun acc t => acc + t.1 * t.2) 0
      / (terms.map (·.2)).foldl (· + ·) 0 := by
  unfold weightedMean
  rw [List.foldl_map]

/-- A sum of terms that are at most 1 each, on top of a start. -/
theorem foldl_terms_atMost (hvalues : ∀ t ∈ terms, t.1.AtMost 1)
    (hweights : ∀ w ∈ terms.map (·.2), w.isFinite = true ∧ w.negative = false)
    {x b : Binary64} (hx : x.AtMost b) (hnan : b.isNaN = false)
    (hsign : b.negative = false)
    (hfinite : ((terms.map (·.2)).foldl (· + ·) b).isFinite = true) :
    (terms.foldl (fun acc t => acc + t.1 * t.2) x).AtMost
      ((terms.map (·.2)).foldl (· + ·) b) := by
  induction terms generalizing x b with
  | nil => exact hx
  | cons t rest ih =>
    rw [List.map_cons] at hweights hfinite ⊢
    obtain ⟨hw, hw'⟩ := hweights t.2 List.mem_cons_self
    have hb : b.isFinite = true :=
      isFinite_of_foldl_add (fun w hw => (hweights w hw).1) hnan hfinite
    have hterm := (hvalues t List.mem_cons_self).mul_weight hw hw'
    obtain ⟨hnan', hsign'⟩ := nonneg_add hb hw hsign hw'
    exact ih (fun u hu => hvalues u (List.mem_cons_of_mem _ hu))
      (fun w hw => hweights w (List.mem_cons_of_mem _ hw))
      (hx.add hterm hb hw) hnan' hsign' hfinite

/-- The sum of the weights has no sign. -/
theorem Weights.sum_nonneg {ws : List Binary64} (h : Weights ws) :
    (ws.foldl (· + ·) 0).negative = false := by
  have key (x : Binary64) (hnan : x.isNaN = false) (hsign : x.negative = false)
      (hfinite : (ws.foldl (· + ·) x).isFinite = true) :
      (ws.foldl (· + ·) x).negative = false := by
    have heach := h.each
    clear h
    induction ws generalizing x with
    | nil => exact hsign
    | cons w rest ih =>
      have hx := isFinite_of_foldl_add (fun v hv => (heach v hv).1) hnan
        hfinite
      obtain ⟨hw, hw'⟩ := heach w List.mem_cons_self
      obtain ⟨hnan', hsign'⟩ := nonneg_add hx hw hsign hw'
      exact ih (x + w) hnan' hsign' hfinite fun v hv =>
        heach v (List.mem_cons_of_mem _ hv)
  exact key 0 isNaN_zero rfl h.isFinite

/-- A mean of terms that are at most 1 is at most 1. -/
theorem weightedMean_atMost (hvalues : ∀ t ∈ terms, t.1.AtMost 1)
    (hweights : Weights (terms.map (·.2))) : (weightedMean terms).AtMost 1 := by
  have hsum := foldl_terms_atMost hvalues hweights.each (AtMost.refl 0)
    isNaN_zero rfl hweights.isFinite
  have hmean := hsum.div hweights.isFinite hweights.sum_nonneg
    hweights.isFinite hweights.sum_nonneg hweights.ne_zero
  rw [div_self_of_isFinite hweights.isFinite hweights.ne_zero] at hmean
  rw [weightedMean_eq]
  exact hmean

/-- A mean of ones is 1. -/
theorem weightedMean_eq_one (hvalues : ∀ t ∈ terms, t.1 = 1)
    (hweights : Weights (terms.map (·.2))) : weightedMean terms = 1 := by
  have hsum (x : Binary64) : terms.foldl (fun acc t => acc + t.1 * t.2) x
      = (terms.map (·.2)).foldl (· + ·) x := by
    have heach := hweights.each
    clear hweights
    induction terms generalizing x with
    | nil => rfl
    | cons t rest ih =>
      rw [List.map_cons] at heach ⊢
      rw [List.foldl_cons, List.foldl_cons, hvalues t List.mem_cons_self,
        one_mul_of_isFinite (heach t.2 List.mem_cons_self).1]
      exact ih (fun u hu => hvalues u (List.mem_cons_of_mem _ hu)) _
        fun w hw => heach w (List.mem_cons_of_mem _ hw)
  rw [weightedMean_eq, hsum,
    div_self_of_isFinite hweights.isFinite hweights.ne_zero]

end Overlap

end SymbolMatch
