/-
Lists that correspond up to order. In one form the elements of a list
are, in some order, the values of a function on another list; in the
other each of them is related to an element of the other list. What is
computed from such lists without regard to order is the same.
-/
import Mathlib.Data.List.Forall2
import Mathlib.Data.List.Perm.Basic

namespace SymbolMatch

variable {α β γ δ : Type}

-- ======================================================== by a function

namespace Correspondence

variable {xs : List α} {ys : List β} {φ : α → β} {ψ : γ → δ}

theorem length_eq (hp : ys.Perm (xs.map φ)) : ys.length = xs.length := by
  rw [hp.length_eq, List.length_map]

theorem filter {p : α → Bool} {q : β → Bool} (hp : ys.Perm (xs.map φ))
    (hpq : ∀ x ∈ xs, q (φ x) = p x) :
    (ys.filter q).Perm ((xs.filter p).map φ) := by
  refine (hp.filter q).trans ?_
  rw [List.filter_map]
  exact List.Perm.of_eq (congrArg _ (List.filter_congr hpq))

theorem filterMap {F : α → Option γ} {F' : β → Option δ}
    (hp : ys.Perm (xs.map φ)) (hF : ∀ x ∈ xs, F' (φ x) = (F x).map ψ) :
    (ys.filterMap F').Perm ((xs.filterMap F).map ψ) := by
  refine (hp.filterMap F').trans ?_
  rw [List.filterMap_map, List.map_filterMap]
  exact List.Perm.of_eq (List.filterMap_congr hF)

theorem flatMap {F : α → List γ} {F' : β → List δ}
    (hp : ys.Perm (xs.map φ))
    (hF : ∀ x ∈ xs, (F' (φ x)).Perm ((F x).map ψ)) :
    (ys.flatMap F').Perm ((xs.flatMap F).map ψ) := by
  refine (hp.flatMap_right F').trans ?_
  rw [List.flatMap_map, List.map_flatMap]
  exact List.Perm.flatMap_left xs hF

theorem countP_eq {p : α → Bool} {q : β → Bool} (hp : ys.Perm (xs.map φ))
    (hpq : ∀ x ∈ xs, q (φ x) = p x) : ys.countP q = xs.countP p := by
  rw [hp.countP_eq, List.countP_map]
  refine List.countP_congr fun x hx => ?_
  rw [Function.comp, hpq x hx]

section Apart

-- `φ` takes `x` to something that no other element of the list goes to
variable {x : α} (hinj : ∀ y ∈ xs, φ y = φ x → y = x)
include hinj

theorem mem_iff (hp : ys.Perm (xs.map φ)) : φ x ∈ ys ↔ x ∈ xs := by
  rw [hp.mem_iff, List.mem_map]
  constructor
  · rintro ⟨y, hy, heq⟩
    exact hinj y hy heq ▸ hy
  · intro hx
    exact ⟨x, hx, rfl⟩

theorem count_eq [DecidableEq α] [DecidableEq β]
    (hp : ys.Perm (xs.map φ)) : ys.count (φ x) = xs.count x := by
  rw [hp.count_eq, List.count_eq_countP, List.count_eq_countP,
    List.countP_map]
  refine List.countP_congr fun y hy => ?_
  rw [Function.comp, beq_iff_eq, beq_iff_eq]
  exact ⟨hinj y hy, congrArg φ⟩

end Apart

end Correspondence

-- ======================================================== by a relation

/-- The elements of the second list are, in some order, related to those
of the first, one by one. -/
def Rearranged (R : α → β → Prop) (xs : List α) (ys : List β) : Prop :=
  ∃ zs, List.Forall₂ R xs zs ∧ zs.Perm ys

namespace Rearranged

variable {R : α → β → Prop} {xs : List α} {ys : List β}

theorem of_map {φ : α → β} (h : ∀ x ∈ xs, R x (φ x)) :
    Rearranged R xs (xs.map φ) :=
  ⟨xs.map φ, List.forall₂_map_right_iff.2 (List.forall₂_same.2 h),
    List.Perm.refl _⟩

theorem trans_perm {ys' : List β} (h : Rearranged R xs ys)
    (hp : ys.Perm ys') : Rearranged R xs ys' := by
  obtain ⟨zs, hzs, hp'⟩ := h
  exact ⟨zs, hzs, hp'.trans hp⟩

theorem mono {S : α → β → Prop} (h : Rearranged R xs ys)
    (hRS : ∀ x y, R x y → S x y) : Rearranged S xs ys := by
  obtain ⟨zs, hzs, hp⟩ := h
  exact ⟨zs, hzs.imp hRS, hp⟩

theorem map {S : γ → δ → Prop} {p : α → γ} {q : β → δ}
    (h : Rearranged R xs ys) (hRS : ∀ x y, R x y → S (p x) (q y)) :
    Rearranged S (xs.map p) (ys.map q) := by
  obtain ⟨zs, hzs, hp⟩ := h
  refine ⟨zs.map q, ?_, hp.map q⟩
  rw [List.forall₂_map_left_iff, List.forall₂_map_right_iff]
  exact hzs.imp hRS

theorem exists_right (h : Rearranged R xs ys) {x : α} (hx : x ∈ xs) :
    ∃ y ∈ ys, R x y := by
  obtain ⟨zs, hzs, hp⟩ := h
  suffices key : ∃ z ∈ zs, R x z by
    obtain ⟨z, hz, hR⟩ := key
    exact ⟨z, hp.mem_iff.1 hz, hR⟩
  clear hp
  induction hzs with
  | nil => cases hx
  | @cons a z _ _ hR _ ih =>
    rcases List.mem_cons.1 hx with rfl | hx
    · exact ⟨z, List.mem_cons_self, hR⟩
    · obtain ⟨y, hy, hxy⟩ := ih hx
      exact ⟨y, List.mem_cons_of_mem _ hy, hxy⟩

theorem flip (h : Rearranged R xs ys) :
    Rearranged (fun y x => R x y) ys xs := by
  obtain ⟨zs, hzs, hp⟩ := h
  obtain ⟨ws, hws, hflip⟩ := List.perm_comp_forall₂ hp.symm hzs.flip
  exact ⟨ws, hws, hflip⟩

theorem exists_left (h : Rearranged R xs ys) {y : β} (hy : y ∈ ys) :
    ∃ x ∈ xs, R x y :=
  h.flip.exists_right hy

/-- Collecting lists that correspond. -/
theorem flatMap_perm {F : α → List γ} {F' : β → List δ} {ψ : γ → δ}
    (h : Rearranged R xs ys)
    (hF : ∀ x ∈ xs, ∀ y, R x y → (F' y).Perm ((F x).map ψ)) :
    (ys.flatMap F').Perm ((xs.flatMap F).map ψ) := by
  obtain ⟨zs, hzs, hp⟩ := h
  refine (hp.symm.flatMap_right F').trans ?_
  clear hp
  induction hzs with
  | nil => exact List.Perm.refl _
  | cons hR _ ih =>
    rw [List.flatMap_cons, List.flatMap_cons, List.map_append]
    exact (hF _ List.mem_cons_self _ hR).append
      (ih fun x hx => hF x (List.mem_cons_of_mem _ hx))

/-- Collecting values that are a function of each other. -/
theorem map_perm {p : α → γ} {q : β → δ} {ψ : γ → δ}
    (h : Rearranged R xs ys) (hpq : ∀ x y, R x y → q y = ψ (p x)) :
    (ys.map q).Perm ((xs.map p).map ψ) := by
  obtain ⟨zs, hzs, hp⟩ := h
  refine (hp.symm.map q).trans (List.Perm.of_eq ?_)
  clear hp
  induction hzs with
  | nil => rfl
  | cons hR _ ih => rw [List.map_cons, List.map_cons, List.map_cons, ih,
      hpq _ _ hR]

end Rearranged

end SymbolMatch
