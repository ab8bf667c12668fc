/-
What sorting and taking a least element depend on. Both rearrange or
pick, so they keep the elements; and if the comparison tells any two
different elements apart, the result is the same for every order of the
input. Both also commute with a map that keeps comparisons, which is how
a renaming passes through them.
-/
import SymbolMatch.Ordered.Sort
import SymbolMatch.Ordered.Map

namespace SymbolMatch

variable {α β : Type} {cmp : α → α → Ordering} {cmp' : β → β → Ordering}

-- ============================================================ sorting

theorem insertBy_perm (a : α) (l : List α) :
    (insertBy cmp a l).Perm (a :: l) := by
  induction l with
  | nil => exact List.Perm.refl _
  | cons b rest ih =>
    unfold insertBy
    split
    · exact (ih.cons b).trans (List.Perm.swap a b rest)
    · exact List.Perm.refl _

/-- Sorting rearranges. -/
theorem sortBy_perm (l : List α) : (sortBy cmp l).Perm l := by
  induction l with
  | nil => exact List.Perm.refl _
  | cons a rest ih =>
    unfold sortBy
    exact (insertBy_perm a _).trans (ih.cons a)

theorem mem_sortBy {a : α} {l : List α} : a ∈ sortBy cmp l ↔ a ∈ l :=
  (sortBy_perm l).mem_iff

/-- What is in order stays as it is. -/
theorem sortBy_of_sorted {l : List α}
    (h : l.Pairwise fun x y => cmp x y ≠ .gt) : sortBy cmp l = l := by
  induction l with
  | nil => rfl
  | cons a rest ih =>
    rw [List.pairwise_cons] at h
    unfold sortBy
    rw [ih h.2]
    cases rest with
    | nil => rfl
    | cons b rest =>
      unfold insertBy
      rw [if_neg (h.1 b List.mem_cons_self)]

section Total

variable [Std.TransCmp cmp]

theorem insertBy_sorted {a : α} {l : List α}
    (h : l.Pairwise fun x y => cmp x y ≠ .gt) :
    (insertBy cmp a l).Pairwise fun x y => cmp x y ≠ .gt := by
  induction l with
  | nil => simp [insertBy]
  | cons b rest ih =>
    rw [List.pairwise_cons] at h
    unfold insertBy
    split
    · next hgt =>
      refine List.pairwise_cons.2 ⟨fun x hx => ?_, ih h.2⟩
      rcases List.mem_cons.1 ((insertBy_perm a rest).mem_iff.1 hx) with rfl | hx
      · rw [Std.OrientedCmp.lt_of_gt hgt]
        decide
      · exact h.1 x hx
    · next hle =>
      refine List.pairwise_cons.2 ⟨fun x hx => ?_, List.pairwise_cons.2 h⟩
      rcases List.mem_cons.1 hx with rfl | hx
      · exact hle
      · -- `a` before `b` before `x`
        have hab : (cmp a b).isLE := Ordering.isLE_iff_ne_gt.2 hle
        have hbx : (cmp b x).isLE := Ordering.isLE_iff_ne_gt.2 (h.1 x hx)
        exact Ordering.isLE_iff_ne_gt.1 (Std.TransCmp.isLE_trans hab hbx)

/-- A sorted list is in order. -/
theorem sortBy_sorted (l : List α) :
    (sortBy cmp l).Pairwise fun x y => cmp x y ≠ .gt := by
  induction l with
  | nil => exact List.Pairwise.nil
  | cons a rest ih =>
    unfold sortBy
    exact insertBy_sorted ih

/-- If only equal elements compare equal, there is one way to put them in
order. -/
theorem eq_of_sorted_of_perm {l l' : List α}
    (heq : ∀ a ∈ l, ∀ b ∈ l, cmp a b = .eq → a = b)
    (h : l.Pairwise fun x y => cmp x y ≠ .gt)
    (h' : l'.Pairwise fun x y => cmp x y ≠ .gt) (hp : l.Perm l') : l = l' := by
  refine hp.eq_of_pairwise ?_ h h'
  intro a b ha hb hab hba
  refine heq a ha b (hp.mem_iff.2 hb) ?_
  -- neither comes strictly first
  cases hcmp : cmp a b with
  | eq => rfl
  | lt => exact absurd (Std.OrientedCmp.gt_of_lt hcmp) hba
  | gt => exact absurd hcmp hab

/-- Sorting then does not depend on the order of the input. -/
theorem sortBy_eq_of_perm {l l' : List α}
    (heq : ∀ a ∈ l, ∀ b ∈ l, cmp a b = .eq → a = b) (hp : l.Perm l') :
    sortBy cmp l = sortBy cmp l' := by
  refine eq_of_sorted_of_perm (fun a ha b hb => ?_) (sortBy_sorted l)
    (sortBy_sorted l') ((sortBy_perm l).trans (hp.trans (sortBy_perm l').symm))
  exact heq a (mem_sortBy.1 ha) b (mem_sortBy.1 hb)

end Total

private theorem insertBy_map {g : α → β} {a : α} {l : List α}
    (h : ∀ b ∈ l, cmp' (g a) (g b) = cmp a b) :
    insertBy cmp' (g a) (l.map g) = (insertBy cmp a l).map g := by
  induction l with
  | nil => rfl
  | cons b rest ih =>
    have hb := h b List.mem_cons_self
    have hrest := ih fun c hc => h c (List.mem_cons_of_mem _ hc)
    rw [List.map_cons]
    unfold insertBy
    rw [hb]
    split
    · rw [List.map_cons, hrest]
    · rw [List.map_cons, List.map_cons]

/-- Sorting commutes with a map that keeps comparisons. -/
theorem sortBy_map {g : α → β} {l : List α}
    (h : ∀ a ∈ l, ∀ b ∈ l, cmp' (g a) (g b) = cmp a b) :
    sortBy cmp' (l.map g) = (sortBy cmp l).map g := by
  induction l with
  | nil => rfl
  | cons a rest ih =>
    have hrest := ih fun b hb c hc =>
      h b (List.mem_cons_of_mem _ hb) c (List.mem_cons_of_mem _ hc)
    rw [List.map_cons]
    unfold sortBy
    rw [hrest, insertBy_map]
    intro b hb
    exact h a List.mem_cons_self b
      (List.mem_cons_of_mem _ (mem_sortBy.1 hb))

/-- Sorting elements that are, in some order, the values of a map that
keeps comparisons. -/
theorem sortBy_map_perm [Std.TransCmp cmp'] {g : α → β} {l : List α}
    {l' : List β} (heq : ∀ a ∈ l', ∀ b ∈ l', cmp' a b = .eq → a = b)
    (hp : l'.Perm (l.map g))
    (h : ∀ a ∈ l, ∀ b ∈ l, cmp' (g a) (g b) = cmp a b) :
    sortBy cmp' l' = (sortBy cmp l).map g := by
  rw [sortBy_eq_of_perm heq hp, sortBy_map h]

-- ====================================================== least elements

theorem leastBy?_eq_none_iff {l : List α} :
    leastBy? cmp l = none ↔ l = [] := by
  cases l with
  | nil => simp [leastBy?]
  | cons a rest =>
    unfold leastBy?
    split
    · simp
    · split <;> simp

theorem mem_of_leastBy? {a : α} {l : List α} (h : leastBy? cmp l = some a) :
    a ∈ l := by
  induction l generalizing a with
  | nil => cases h
  | cons b rest ih =>
    unfold leastBy? at h
    split at h
    · injection h with h
      rw [h]
      exact List.mem_cons_self
    · next c hc =>
      split at h
      · injection h with h
        rw [← h]
        exact List.mem_cons_of_mem _ (ih hc)
      · injection h with h
        rw [h]
        exact List.mem_cons_self

/-- No element comes before the least one. -/
theorem leastBy?_le [Std.TransCmp cmp] {a : α} {l : List α}
    (h : leastBy? cmp l = some a) : ∀ b ∈ l, cmp a b ≠ .gt := by
  induction l generalizing a with
  | nil => cases h
  | cons b rest ih =>
    unfold leastBy? at h
    split at h
    · next hnone =>
      injection h with h
      subst h
      rw [leastBy?_eq_none_iff.1 hnone]
      simp [Std.ReflCmp.compare_self]
    · next c hc =>
      have hle := ih hc
      split at h
      · next hgt =>
        injection h with h
        subst h
        intro x hx
        rcases List.mem_cons.1 hx with rfl | hx
        · rw [Std.OrientedCmp.lt_of_gt hgt]
          decide
        · exact hle x hx
      · next hngt =>
        injection h with h
        subst h
        intro x hx
        rcases List.mem_cons.1 hx with rfl | hx
        · have hself : cmp x x = .eq := Std.ReflCmp.compare_self
          rw [hself]
          decide
        · have hbc : (cmp b c).isLE := Ordering.isLE_iff_ne_gt.2 hngt
          have hcx : (cmp c x).isLE := Ordering.isLE_iff_ne_gt.2 (hle x hx)
          exact Ordering.isLE_iff_ne_gt.1 (Std.TransCmp.isLE_trans hbc hcx)

/-- If only equal elements compare equal, the least element does not
depend on the order of the list. -/
theorem leastBy?_eq_of_perm [Std.TransCmp cmp] {l l' : List α}
    (heq : ∀ a ∈ l, ∀ b ∈ l, cmp a b = .eq → a = b) (hp : l.Perm l') :
    leastBy? cmp l = leastBy? cmp l' := by
  cases h : leastBy? cmp l with
  | none =>
    have hnil := leastBy?_eq_none_iff.1 h
    subst hnil
    rw [← hp.nil_eq]
    exact h.symm
  | some a =>
    cases h' : leastBy? cmp l' with
    | none =>
      have hnil := leastBy?_eq_none_iff.1 h'
      subst hnil
      rw [hp.eq_nil] at h
      cases h
    | some b =>
      have ha := mem_of_leastBy? h
      have hb := hp.mem_iff.2 (mem_of_leastBy? h')
      have hab := leastBy?_le h b hb
      have hba := leastBy?_le h' a (hp.mem_iff.1 ha)
      have hcmp : cmp a b = .eq := by
        cases hc : cmp a b with
        | eq => rfl
        | lt => exact absurd (Std.OrientedCmp.gt_of_lt hc) hba
        | gt => exact absurd hc hab
      rw [heq a ha b hb hcmp]

/-- Taking the least element commutes with a map that keeps
comparisons. -/
theorem leastBy?_map {g : α → β} {l : List α}
    (h : ∀ a ∈ l, ∀ b ∈ l, cmp' (g a) (g b) = cmp a b) :
    leastBy? cmp' (l.map g) = (leastBy? cmp l).map g := by
  induction l with
  | nil => rfl
  | cons a rest ih =>
    have hrest := ih fun b hb c hc =>
      h b (List.mem_cons_of_mem _ hb) c (List.mem_cons_of_mem _ hc)
    rw [List.map_cons]
    unfold leastBy?
    rw [hrest]
    cases hl : leastBy? cmp rest with
    | none => rfl
    | some b =>
      have hab := h a List.mem_cons_self b
        (List.mem_cons_of_mem _ (mem_of_leastBy? hl))
      simp only [Option.map_some, hab]
      split <;> rfl

end SymbolMatch
