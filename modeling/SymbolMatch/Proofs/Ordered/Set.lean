/-
The laws of ordered sets: membership after each operation, and that
membership determines a set. With these an equation between sets is
proved element by element.
-/
import SymbolMatch.Ordered.Set
import SymbolMatch.Proofs.Ordered.Map

set_option linter.unusedSectionVars false

namespace SymbolMatch

namespace OrdSet

variable {κ : Type} [Ord κ] [Std.TransOrd κ] [Std.LawfulEqOrd κ]

-- ========================================================= membership

instance : Membership κ (OrdSet κ) := ⟨fun s k => k ∈ s.elements⟩

theorem mem_def {s : OrdSet κ} {k : κ} : k ∈ s ↔ k ∈ s.elements := Iff.rfl

theorem nodup_elements (s : OrdSet κ) : s.elements.Nodup :=
  OrdMap.nodup_of_sorted s.sorted

theorem ext_elements {s t : OrdSet κ} (h : s.elements = t.elements) :
    s = t := by
  cases s
  cases t
  simpa using h

/-- Strictly increasing lists with the same elements are equal. -/
theorem eq_of_sorted_of_mem_iff {l l' : List κ}
    (h : l.Pairwise fun a b => compare a b = .lt)
    (h' : l'.Pairwise fun a b => compare a b = .lt)
    (hmem : ∀ a, a ∈ l ↔ a ∈ l') : l = l' := by
  have hp : l.Perm l' := (List.perm_ext_iff_of_nodup
    (OrdMap.nodup_of_sorted h) (OrdMap.nodup_of_sorted h')).2 hmem
  refine hp.eq_of_pairwise ?_ h h'
  intro x y _ _ hxy hyx
  have := Std.OrientedCmp.gt_of_lt hxy
  rw [this] at hyx
  cases hyx

/-- Membership determines a set. -/
theorem ext {s t : OrdSet κ} (h : ∀ a, a ∈ s ↔ a ∈ t) : s = t :=
  ext_elements (eq_of_sorted_of_mem_iff s.sorted t.sorted h)

theorem contains_iff {s : OrdSet κ} {k : κ} :
    s.contains k = true ↔ k ∈ s := by
  unfold contains
  rw [List.any_eq_true, mem_def]
  constructor
  · rintro ⟨a, ha, heq⟩
    have hka : k = a := Std.LawfulEqOrd.eq_of_compare (by simpa using heq)
    rw [hka]
    exact ha
  · intro hk
    exact ⟨k, hk, by simp [Std.ReflOrd.compare_self]⟩

theorem isEmpty_iff {s : OrdSet κ} : s.isEmpty = true ↔ ∀ a, a ∉ s := by
  unfold isEmpty
  rw [List.isEmpty_iff, List.eq_nil_iff_forall_not_mem]
  rfl

@[simp] theorem not_mem_empty (k : κ) : k ∉ ({} : OrdSet κ) := by
  intro h
  cases h

@[simp] theorem mem_filter {s : OrdSet κ} {p : κ → Bool} {a : κ} :
    a ∈ s.filter p ↔ a ∈ s ∧ p a = true :=
  List.mem_filter

@[simp] theorem mem_inter {s t : OrdSet κ} {a : κ} :
    a ∈ s.inter t ↔ a ∈ s ∧ a ∈ t := by
  unfold inter
  rw [mem_filter, contains_iff]

private theorem mem_insertElement_iff {k a : κ} {l : List κ} :
    a ∈ insertElement k l ↔ a = k ∨ a ∈ l := by
  refine ⟨mem_insertElement, ?_⟩
  induction l with
  | nil => simp [insertElement]
  | cons b rest ih =>
    unfold insertElement
    split
    · simp
    · next heq =>
      have hkb : k = b := Std.LawfulEqOrd.eq_of_compare heq
      subst hkb
      simp
    · simp only [List.mem_cons]
      grind

@[simp] theorem mem_insert {s : OrdSet κ} {k a : κ} :
    a ∈ s.insert k ↔ a = k ∨ a ∈ s :=
  mem_insertElement_iff

theorem mem_foldl_insert {xs : List κ} {s : OrdSet κ} {a : κ} :
    a ∈ xs.foldl insert s ↔ a ∈ xs ∨ a ∈ s := by
  induction xs generalizing s with
  | nil => simp
  | cons x rest ih =>
    rw [List.foldl_cons, ih, mem_insert, List.mem_cons]
    grind

@[simp] theorem mem_ofList {xs : List κ} {a : κ} :
    a ∈ ofList xs ↔ a ∈ xs := by
  unfold ofList
  rw [mem_foldl_insert]
  exact or_iff_left (not_mem_empty a)

@[simp] theorem mem_union {s t : OrdSet κ} {a : κ} :
    a ∈ s.union t ↔ a ∈ s ∨ a ∈ t := by
  unfold union
  rw [mem_foldl_insert, ← mem_def]
  exact or_comm

/-- The set of a list depends on the list's members only. -/
theorem ofList_eq_of_mem_iff {xs ys : List κ} (h : ∀ a, a ∈ xs ↔ a ∈ ys) :
    ofList xs = ofList ys :=
  ext fun a => by rw [mem_ofList, mem_ofList, h a]

theorem ofList_eq_of_perm {xs ys : List κ} (h : xs.Perm ys) :
    ofList xs = ofList ys :=
  ofList_eq_of_mem_iff fun _ => h.mem_iff

theorem size_insert_le (s : OrdSet κ) (k : κ) :
    (s.insert k).size ≤ s.size + 1 := by
  have key (l : List κ) : (insertElement k l).length ≤ l.length + 1 := by
    induction l with
    | nil => exact Nat.le_refl _
    | cons a rest ih =>
      unfold insertElement
      split
      · exact Nat.le_refl _
      · exact Nat.le_succ _
      · exact Nat.succ_le_succ ih
  exact key s.elements

theorem size_foldl_insert_le (xs : List κ) (s : OrdSet κ) :
    (xs.foldl insert s).size ≤ s.size + xs.length := by
  induction xs generalizing s with
  | nil => exact Nat.le_refl _
  | cons x rest ih =>
    have hinsert := size_insert_le s x
    have hrest := ih (s.insert x)
    rw [List.foldl_cons, List.length_cons]
    omega

/-- A set has no more elements than the list it is drawn from. -/
theorem size_ofList_le (xs : List κ) : (ofList xs).size ≤ xs.length :=
  Nat.le_trans (size_foldl_insert_le xs empty) (Nat.le_of_eq (Nat.zero_add _))

theorem size_union_le (s t : OrdSet κ) :
    (s.union t).size ≤ s.size + t.size :=
  size_foldl_insert_le t.elements s

/-- Two lists one after the other have the elements of both. -/
theorem ofList_append (xs ys : List κ) :
    ofList (xs ++ ys) = (ofList xs).union (ofList ys) := by
  refine ext fun a => ?_
  rw [mem_union, mem_ofList, mem_ofList, mem_ofList, List.mem_append]

theorem isEmpty_ofList {xs : List κ} :
    (ofList xs).isEmpty = true ↔ xs = [] := by
  simp only [isEmpty_iff, mem_ofList, List.eq_nil_iff_forall_not_mem]

theorem isEmpty_union {s t : OrdSet κ} :
    (s.union t).isEmpty = true ↔ s.isEmpty = true ∧ t.isEmpty = true := by
  simp only [isEmpty_iff, mem_union, not_or, forall_and]

end OrdSet

-- ========================================================= maps of sets

namespace OrdMap

variable {κ ν : Type} [Ord κ] [Std.TransOrd κ] [Std.LawfulEqOrd κ]
  [DecidableEq κ] [Ord ν] [Std.TransOrd ν] [Std.LawfulEqOrd ν]

/-- What is under a key is in the set that the key has. -/
theorem mem_getD_iff {m : OrdMap κ (OrdSet ν)} {a : κ} {b : ν} :
    b ∈ m.getD a {} ↔ ∃ s, m.get? a = some s ∧ b ∈ s := by
  unfold getD
  cases m.get? a with
  | none => simp
  | some s => simp

/-- Adding an element to the set under a key. -/
theorem mem_getD_alter_insert {m : OrdMap κ (OrdSet ν)} {k a : κ} {v b : ν} :
    b ∈ (m.alter k fun s => (s.getD {}).insert v).getD a {}
      ↔ a = k ∧ b = v ∨ b ∈ m.getD a {} := by
  unfold getD
  rw [get?_alter]
  by_cases ha : a = k
  · simp [ha]
  · simp [ha]

end OrdMap

end SymbolMatch
