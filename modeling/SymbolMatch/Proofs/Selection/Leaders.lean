/-
The leaders of a stream are the first of its items in order.

Leaders let an item go as soon as a better one needs its place, before
the rest of the stream is known. Nothing is lost by that, and the reason
has two parts.

- One step. Whether an item finds room, takes the place of the worst one
  or is turned away, what is kept is the old items with the new one in its
  place, cut to their number (`items_push`). An item that is turned away
  would have come last, and so would the item that makes room.
- All steps. Cutting a list before an item is put into its place, and
  again behind it, leaves what cutting once at the end leaves
  (`take_insertBy_take`).

So the leaders of a stream are the sorted stream, cut once
(`items_ofList`). This takes an order that tells different items apart:
of two items of one rank the one that is kept may be either.
-/
import Mathlib.Data.List.Induction
import Mathlib.Tactic.SplitIfs
import SymbolMatch.Proofs.Number.Order
import SymbolMatch.Proofs.Ordered.Sort
import SymbolMatch.Selection.Leaders

namespace SymbolMatch

variable {α : Type} {cmp : α → α → Ordering}

-- ============================================================ insertions

/-- What is cut off does not come back by an insertion. -/
theorem take_insertBy_take (a : α) (k : Nat) (l : List α) :
    (insertBy cmp a (l.take k)).take k = (insertBy cmp a l).take k := by
  induction l generalizing k with
  | nil => rw [List.take_nil]
  | cons b rest ih =>
    cases k with
    | zero => rw [List.take_zero, List.take_zero]
    | succ k =>
      rw [List.take_succ_cons]
      unfold insertBy
      split
      · rw [List.take_succ_cons, List.take_succ_cons, ih]
      · rw [List.take_succ_cons, List.take_succ_cons]
        cases k with
        | zero => rw [List.take_zero, List.take_zero]
        | succ k =>
          rw [List.take_succ_cons, List.take_succ_cons, List.take_take,
            Nat.min_eq_left (Nat.le_succ k)]

theorem length_insertBy (a : α) (l : List α) :
    (insertBy cmp a l).length = l.length + 1 :=
  (insertBy_perm a l).length_eq

/-- An item that goes before the last one goes among the others. -/
theorem insertBy_append_singleton {a last : α} (l : List α)
    (h : cmp a last = .lt) :
    insertBy cmp a (l ++ [last]) = insertBy cmp a l ++ [last] := by
  induction l with
  | nil =>
    show insertBy cmp a [last] = [a, last]
    unfold insertBy
    rw [if_neg (by rw [h]; decide)]
  | cons b rest ih =>
    rw [List.cons_append]
    unfold insertBy
    split
    · rw [ih, List.cons_append]
    · rfl

/-- An item that goes before no other goes to the end. -/
theorem insertBy_eq_append [Std.TransCmp cmp] {a : α} {l : List α}
    (heq : ∀ x ∈ a :: l, ∀ y ∈ a :: l, cmp x y = .eq → x = y)
    (hsorted : l.Pairwise fun x y => cmp x y ≠ .gt)
    (hlast : ∀ x ∈ l, cmp x a ≠ .gt) : insertBy cmp a l = l ++ [a] := by
  have hp : (insertBy cmp a l).Perm (a :: l) := insertBy_perm a l
  refine eq_of_sorted_of_perm (fun x hx y hy => ?_) (insertBy_sorted hsorted) ?_
    (hp.trans (List.perm_append_singleton a l).symm)
  · exact heq x (hp.mem_iff.1 hx) y (hp.mem_iff.1 hy)
  · refine List.pairwise_append.2 ⟨hsorted, List.pairwise_singleton _ _, ?_⟩
    intro x hx y hy
    rw [List.mem_singleton.1 hy]
    exact hlast x hx

/-- An item that does not go before the last one goes before none. -/
theorem not_gt_of_last [Std.TransCmp cmp] {a last : α} {l : List α}
    (hsorted : (l ++ [last]).Pairwise fun x y => cmp x y ≠ .gt)
    (h : cmp a last ≠ .lt) : ∀ x ∈ l ++ [last], cmp x a ≠ .gt := by
  have hlast : (cmp last a).isLE := by
    rw [Ordering.isLE_iff_ne_gt]
    exact fun hgt => h (Std.OrientedCmp.lt_of_gt hgt)
  intro x hx
  apply Ordering.isLE_iff_ne_gt.1
  rcases List.mem_append.1 hx with hx | hx
  · have hle := (List.pairwise_append.1 hsorted).2.2 x hx last List.mem_cons_self
    exact Std.TransCmp.isLE_trans (Ordering.isLE_iff_ne_gt.2 hle) hlast
  · rw [List.mem_singleton.1 hx]
    exact hlast

namespace Leaders

-- ============================================================== one item

/-- What holds of leaders at any time. -/
structure Orderly (l : Leaders α cmp) : Prop where
  sorted : l.items.Pairwise fun x y => cmp x y ≠ .gt
  within : l.items.length ≤ l.capacity

@[simp] theorem items_enter (l : Leaders α cmp) (a : α) :
    (l.enter a).items = insertBy cmp a l.items := rfl

@[simp] theorem items_dropWorst (l : Leaders α cmp) :
    l.dropWorst.items = l.items.dropLast := rfl

theorem capacity_push (l : Leaders α cmp) (a : α) :
    (l.push a).capacity = l.capacity := by
  unfold push
  split_ifs
  · rfl
  · rfl
  · cases l.worst? with
    | none => rfl
    | some worst =>
      dsimp only
      split_ifs
      · rfl
      · rfl

/-- Taking in one more item leaves the first of the old ones and the new
one together. -/
theorem items_push [Std.TransCmp cmp] {l : Leaders α cmp} {a : α}
    (h : l.Orderly)
    (heq : ∀ x ∈ a :: l.items, ∀ y ∈ a :: l.items, cmp x y = .eq → x = y) :
    (l.push a).items = (insertBy cmp a l.items).take l.capacity := by
  unfold push
  split_ifs with hzero hroom
  · -- there is no place at all
    have hwithin := h.within
    rw [hzero] at hwithin ⊢
    rw [List.take_zero]
    exact List.length_eq_zero_iff.1 (Nat.le_zero.1 hwithin)
  · -- there is a free place
    rw [items_enter, List.take_of_length_le]
    rw [length_insertBy]
    exact hroom
  · have hfull : l.items.length = l.capacity :=
      Nat.le_antisymm h.within (Nat.not_lt.1 hroom)
    have hsorted := h.sorted
    unfold worst?
    rcases List.eq_nil_or_concat l.items with hitems | ⟨others, worst, hitems⟩
    · rw [hitems] at hfull
      exact absurd hfull.symm hzero
    · rw [List.concat_eq_append] at hitems
      rw [hitems] at hfull hsorted heq
      rw [hitems, List.getLast?_concat]
      dsimp only
      split_ifs with hbeats
      · -- the worst item makes room
        have hlength : (insertBy cmp a others).length = l.capacity := by
          rw [length_insertBy, ← hfull, List.length_append,
            List.length_singleton]
        rw [items_enter, items_dropWorst, hitems, List.dropLast_concat,
          insertBy_append_singleton others hbeats, List.take_left' hlength]
      · -- the new item is turned away
        have hlast := not_gt_of_last hsorted hbeats
        rw [hitems, insertBy_eq_append heq hsorted hlast, List.take_left' hfull]

-- ============================================================ many items

theorem ofList_append_singleton (capacity : Nat) (xs : List α) (a : α) :
    (ofList capacity (xs ++ [a]) : Leaders α cmp)
      = (ofList capacity xs).push a := by
  unfold ofList
  rw [List.foldl_append]
  rfl

theorem capacity_ofList (capacity : Nat) (xs : List α) :
    (ofList capacity xs : Leaders α cmp).capacity = capacity := by
  induction xs using List.reverseRecOn with
  | nil => rfl
  | append_singleton xs a ih =>
    rw [ofList_append_singleton, capacity_push, ih]

/-- The leaders of a list are its first elements in order, if the order
tells its elements apart. -/
theorem items_ofList [Std.TransCmp cmp] {capacity : Nat} {xs : List α}
    (heq : ∀ a ∈ xs, ∀ b ∈ xs, cmp a b = .eq → a = b) :
    (ofList capacity xs : Leaders α cmp).items
      = (sortBy cmp xs).take capacity := by
  induction xs using List.reverseRecOn with
  | nil => exact List.take_nil.symm
  | append_singleton xs a ih =>
    have hcapacity : (ofList capacity xs : Leaders α cmp).capacity = capacity :=
      capacity_ofList capacity xs
    have hitems := ih fun x hx y hy =>
      heq x (List.mem_append_left _ hx) y (List.mem_append_left _ hy)
    have horderly : (ofList capacity xs : Leaders α cmp).Orderly := by
      constructor
      · rw [hitems]
        exact (sortBy_sorted xs).sublist (List.take_sublist _ _)
      · rw [hitems, hcapacity]
        exact List.length_take_le _ _
    have hmem : ∀ x ∈ a :: (ofList capacity xs : Leaders α cmp).items,
        x ∈ xs ++ [a] := by
      intro x hx
      rw [hitems] at hx
      rcases List.mem_cons.1 hx with rfl | hx
      · exact List.mem_append_right _ List.mem_cons_self
      · exact List.mem_append_left _ (mem_sortBy.1 (List.mem_of_mem_take hx))
    have hlater : (xs ++ [a]).Perm (a :: xs) := List.perm_append_singleton a xs
    calc (ofList capacity (xs ++ [a]) : Leaders α cmp).items
        = (insertBy cmp a ((sortBy cmp xs).take capacity)).take capacity := by
          rw [ofList_append_singleton, items_push horderly
            fun x hx y hy => heq x (hmem x hx) y (hmem y hy), hitems, hcapacity]
      _ = (sortBy cmp (a :: xs)).take capacity := take_insertBy_take a _ _
      _ = (sortBy cmp (xs ++ [a])).take capacity := by
          rw [sortBy_eq_of_perm heq hlater]

end Leaders

-- ===================================================== items with scores

section Scored

variable {ι : Type} [Ord ι] {p q : Binary64 × ι}

/-- One item may stand before another: its score is further up in the
total order, or the scores are the same and the item is not the greater
one. -/
def MayLead (p q : Binary64 × ι) : Prop :=
  q.1.Under p.1 ∨ p.1 = q.1 ∧ compare p.2 q.2 ≠ .gt

instance (p q : Binary64 × ι) : Decidable (MayLead p q) :=
  inferInstanceAs (Decidable (_ ∨ _ ∧ _))

theorem byScore_ne_gt_iff : byScore p q ≠ .gt ↔ MayLead p q := by
  unfold byScore MayLead
  rw [← Binary64.totalCompare_eq_lt_iff]
  cases hscore : Binary64.totalCompare q.1 p.1 with
  | lt => simp
  | eq =>
    have hsame := Binary64.totalCompare_eq_iff.1 hscore
    simp [hsame]
  | gt =>
    have hother : p.1 ≠ q.1 := by
      intro hsame
      rw [hsame, Binary64.totalCompare_eq_iff.2 rfl] at hscore
      cases hscore
    simp [hother]

instance [Std.TransOrd ι] :
    Std.TransCmp (byScore : Binary64 × ι → Binary64 × ι → Ordering) :=
  inferInstanceAs (Std.TransCmp (compareLex
    (fun a b : Binary64 × ι => Binary64.totalCompare b.1 a.1)
    (compareOn Prod.snd)))

/-- No two items with scores share a rank. -/
theorem eq_of_byScore [Std.LawfulEqOrd ι] (h : byScore p q = .eq) : p = q := by
  unfold byScore at h
  rw [Ordering.then_eq_eq] at h
  exact Prod.ext (Binary64.totalCompare_eq_iff.1 h.1).symm
    (Std.LawfulEqOrd.eq_of_compare h.2)

/-- All items of a list, each as often as it is there, the best first. -/
structure InOrder (xs all : List (Binary64 × ι)) : Prop where
  perm : all.Perm xs
  sorted : all.Pairwise MayLead

variable [Std.TransOrd ι] [Std.LawfulEqOrd ι]

/-- There is one way to put items with scores in order. -/
theorem inOrder_iff {xs all : List (Binary64 × ι)} :
    InOrder xs all ↔ all = sortBy byScore xs := by
  have hsort : (sortBy byScore xs).Pairwise MayLead :=
    (sortBy_sorted xs).imp byScore_ne_gt_iff.1
  constructor
  · rintro ⟨hperm, hsorted⟩
    exact eq_of_sorted_of_perm (fun _ _ _ _ => eq_of_byScore)
      (hsorted.imp byScore_ne_gt_iff.2) (sortBy_sorted xs)
      (hperm.trans (sortBy_perm xs).symm)
  · rintro rfl
    exact ⟨sortBy_perm xs, hsort⟩

namespace Leaders

theorem items_ofScores (capacity : Nat) (xs : List (Binary64 × ι)) :
    (ofList capacity xs : Leaders _ byScore).items
      = (sortBy byScore xs).take capacity :=
  items_ofList fun _ _ _ _ => eq_of_byScore

/-- After each of the items that are offered, as many are kept as there
are places or items so far, and these are the first of all items so far
in order. So it does not matter in which order they came. -/
theorem first_of_offered (capacity : Nat) (offered : List (Binary64 × ι)) :
    (∀ n ≤ offered.length,
      (ofList capacity (offered.take n) : Leaders _ byScore).size
        = min capacity n
      ∧ (∃ all, InOrder (offered.take n) all)
      ∧ ∀ all, InOrder (offered.take n) all →
        (ofList capacity (offered.take n) : Leaders _ byScore).items
          = all.take capacity)
      ∧ ∀ offered', offered'.Perm offered →
        (ofList capacity offered' : Leaders _ byScore).items
          = (ofList capacity offered : Leaders _ byScore).items := by
  refine ⟨fun n hn => ⟨?_, ⟨_, inOrder_iff.2 rfl⟩, fun all hall => ?_⟩, ?_⟩
  · unfold size
    rw [items_ofScores, List.length_take, (sortBy_perm _).length_eq,
      List.length_take_of_le hn]
  · rw [items_ofScores, inOrder_iff.1 hall]
  · intro offered' hperm
    have hsorted : sortBy byScore offered' = sortBy byScore offered :=
      sortBy_eq_of_perm (fun _ _ _ _ => eq_of_byScore) hperm
    rw [items_ofScores, items_ofScores, hsorted]

end Leaders

end Scored

namespace Sample

/-- Offers with every kind of score. The two zeros differ, and one item is
offered twice with the same score. -/
def offers : List (Binary64 × String) :=
  [(.zero, "b"), (.negZero, "a"), (.nan, "c"), (.zero, "a"),
   (.negInfinity, "a"), (.indefinite, "a"), (.zero, "a"), (.infinity, "d")]

def rankedOffers : List (Binary64 × String) :=
  [(.nan, "c"), (.infinity, "d"), (.zero, "a"), (.zero, "a"), (.zero, "b"),
   (.negZero, "a"), (.negInfinity, "a"), (.indefinite, "a")]

end Sample

namespace Leaders

/-- Of eight offers for three places the last one that is kept is one of
two equal ones; for no places there is nothing. -/
theorem first_of_offered_special :
    (ofList 3 Sample.offers : Leaders _ byScore).items
        = [(.nan, "c"), (.infinity, "d"), (.zero, "a")]
      ∧ (ofList 3 Sample.offers : Leaders _ byScore).size = 3
      ∧ (ofList 3 Sample.offers.reverse : Leaders _ byScore).items
        = (ofList 3 Sample.offers : Leaders _ byScore).items
      ∧ (ofList 0 Sample.offers : Leaders _ byScore).size = 0 := by
  have horder : InOrder Sample.offers Sample.rankedOffers :=
    ⟨by decide, by decide⟩
  obtain ⟨hoffers, hperm⟩ := first_of_offered 3 Sample.offers
  obtain ⟨hsize, -, hitems⟩ := hoffers 8 (Nat.le_refl _)
  obtain ⟨hnone, -⟩ := (first_of_offered 0 Sample.offers).1 8 (Nat.le_refl _)
  exact ⟨hitems _ horder, hsize, hperm _ (List.reverse_perm _), hnone⟩

end Leaders

end SymbolMatch
