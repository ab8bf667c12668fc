/-
Maps and sets under other names. Renaming the keys of a map, or the
elements of a set, commutes with every operation on it, as long as the
renaming keeps the names in play apart; these are given as a set that the
keys of the map and the key of the operation belong to.
-/
import Mathlib.Data.Set.Function
import SymbolMatch.Proofs.Ordered.Set

set_option linter.unusedSectionVars false

namespace SymbolMatch

variable {κ κ' ν ν' : Type} [Ord κ] [Std.TransOrd κ] [Std.LawfulEqOrd κ]
  [Ord κ'] [Std.TransOrd κ'] [Std.LawfulEqOrd κ']
  [DecidableEq κ] [DecidableEq κ']

-- =============================================================== maps

namespace OrdMap

variable {g : κ → κ'} {h : ν → ν'} {s : Set κ} {m : OrdMap κ ν} {k : κ}
  {v : ν}

/-- A map with its keys and its values renamed. -/
def relabel (g : κ → κ') (h : ν → ν') (m : OrdMap κ ν) : OrdMap κ' ν' :=
  ofList (m.entries.map fun e => (g e.1, h e.2))

private theorem nodup_relabel (hinj : Set.InjOn g s)
    (hkeys : ∀ k ∈ m.keys, k ∈ s) :
    ((m.entries.map fun e => (g e.1, h e.2)).map (·.1)).Nodup := by
  have hnodup : (m.keys.map g).Nodup :=
    m.nodup_keys.map_on fun a ha b hb => hinj (hkeys a ha) (hkeys b hb)
  unfold keys at hnodup
  rw [List.map_map] at hnodup ⊢
  exact hnodup

/-- The entries of a renamed map are the renamed entries. -/
theorem entries_relabel_perm (hinj : Set.InjOn g s)
    (hkeys : ∀ k ∈ m.keys, k ∈ s) :
    (m.relabel g h).entries.Perm (m.entries.map fun e => (g e.1, h e.2)) :=
  entries_ofList_perm (nodup_relabel hinj hkeys)

theorem get?_relabel_iff (hinj : Set.InjOn g s)
    (hkeys : ∀ k ∈ m.keys, k ∈ s) {k' : κ'} {v' : ν'} :
    (m.relabel g h).get? k' = some v'
      ↔ ∃ k v, m.get? k = some v ∧ g k = k' ∧ h v = v' := by
  unfold relabel
  rw [get?_ofList (nodup_relabel hinj hkeys), List.mem_map]
  constructor
  · rintro ⟨⟨k, v⟩, hmem, heq⟩
    cases heq
    exact ⟨k, v, get?_eq_some_iff.2 hmem, rfl, rfl⟩
  · rintro ⟨k, v, hget, rfl, rfl⟩
    exact ⟨(k, v), get?_eq_some_iff.1 hget, rfl⟩

/-- Looking up a renamed key. -/
theorem get?_relabel (hinj : Set.InjOn g s) (hkeys : ∀ k ∈ m.keys, k ∈ s)
    (hk : k ∈ s) : (m.relabel g h).get? (g k) = (m.get? k).map h := by
  refine Option.ext fun v' => ?_
  rw [get?_relabel_iff hinj hkeys, Option.map_eq_some_iff]
  constructor
  · rintro ⟨a, v, hget, hga, hv⟩
    have hak : a = k := hinj (hkeys a (mem_keys_iff.2 ⟨v, hget⟩)) hk hga
    exact ⟨v, hak ▸ hget, hv⟩
  · rintro ⟨v, hget, hv⟩
    exact ⟨k, v, hget, rfl, hv⟩

theorem contains_relabel (hinj : Set.InjOn g s)
    (hkeys : ∀ k ∈ m.keys, k ∈ s) (hk : k ∈ s) :
    (m.relabel g h).contains (g k) = m.contains k := by
  unfold contains
  rw [get?_relabel hinj hkeys hk, Option.isSome_map]

theorem keys_insert_subset (hkeys : ∀ k ∈ m.keys, k ∈ s) (hk : k ∈ s) :
    ∀ a ∈ (m.insert k v).keys, a ∈ s := by
  intro a ha
  obtain ⟨w, hw⟩ := mem_keys_iff.1 ha
  rw [get?_insert] at hw
  split at hw
  · next heq => exact heq ▸ hk
  · exact hkeys a (mem_keys_iff.2 ⟨w, hw⟩)

theorem keys_erase_subset (hkeys : ∀ k ∈ m.keys, k ∈ s) :
    ∀ a ∈ (m.erase k).keys, a ∈ s := by
  intro a ha
  obtain ⟨w, hw⟩ := mem_keys_iff.1 ha
  rw [get?_erase] at hw
  split at hw
  · cases hw
  · exact hkeys a (mem_keys_iff.2 ⟨w, hw⟩)

/-- Renaming after setting a value is setting it after renaming. -/
theorem relabel_insert (hinj : Set.InjOn g s) (hkeys : ∀ k ∈ m.keys, k ∈ s)
    (hk : k ∈ s) :
    (m.insert k v).relabel g h = (m.relabel g h).insert (g k) (h v) := by
  refine ext_get? fun k' => Option.ext fun v' => ?_
  rw [get?_relabel_iff hinj (keys_insert_subset hkeys hk), get?_insert]
  by_cases hk' : k' = g k
  · subst hk'
    rw [if_pos rfl, Option.some.injEq]
    constructor
    · rintro ⟨a, w, hw, hga, rfl⟩
      have ha := keys_insert_subset hkeys hk a (mem_keys_iff.2 ⟨w, hw⟩)
      rw [hinj ha hk hga, get?_insert_self] at hw
      rw [Option.some.inj hw]
    · rintro rfl
      exact ⟨k, v, get?_insert_self _ _ _, rfl, rfl⟩
  · rw [if_neg hk', get?_relabel_iff hinj hkeys]
    refine exists_congr fun a => exists_congr fun w => ?_
    refine and_congr_left fun ⟨hga, _⟩ => ?_
    have hne : a ≠ k := by
      rintro rfl
      exact hk' hga.symm
    rw [get?_insert_of_ne _ _ hne]

/-- Renaming after removing a key is removing it after renaming. -/
theorem relabel_erase (hinj : Set.InjOn g s) (hkeys : ∀ k ∈ m.keys, k ∈ s)
    (hk : k ∈ s) :
    (m.erase k).relabel g h = (m.relabel g h).erase (g k) := by
  refine ext_get? fun k' => Option.ext fun v' => ?_
  rw [get?_relabel_iff hinj (keys_erase_subset hkeys), get?_erase]
  constructor
  · rintro ⟨a, w, hw, rfl, rfl⟩
    have ha := keys_erase_subset hkeys a (mem_keys_iff.2 ⟨w, hw⟩)
    rw [get?_erase] at hw
    split at hw
    · cases hw
    · next hne =>
      rw [if_neg fun heq => hne (hinj ha hk heq)]
      exact (get?_relabel_iff hinj hkeys).2 ⟨a, w, hw, rfl, rfl⟩
  · intro hget
    split at hget
    · cases hget
    · next hne =>
      obtain ⟨a, w, hw, rfl, rfl⟩ := (get?_relabel_iff hinj hkeys).1 hget
      refine ⟨a, w, ?_, rfl, rfl⟩
      rw [get?_erase, if_neg fun heq => hne (congrArg g heq), hw]

theorem relabel_id (m : OrdMap κ ν) : m.relabel id id = m := by
  refine ext_perm ((entries_relabel_perm (Set.injOn_id Set.univ)
    fun _ _ => trivial).trans ?_)
  exact List.Perm.of_eq (List.map_id m.entries)

/-- A renaming that changes nothing in a map. -/
theorem relabel_eq_self {h : ν → ν} {g : κ → κ}
    (hself : ∀ e ∈ m.entries, g e.1 = e.1 ∧ h e.2 = e.2) :
    m.relabel g h = m := by
  have hmap : (m.entries.map fun e => (g e.1, h e.2)) = m.entries.map id :=
    List.map_congr_left fun e he => by
      rw [(hself e he).1, (hself e he).2]
      rfl
  unfold relabel
  rw [hmap]
  exact relabel_id m

end OrdMap

-- =============================================================== sets

namespace OrdSet

variable {g : κ → κ'} {s : Set κ} {a b : OrdSet κ} {k : κ}

/-- The set of the values of a function on a set. -/
def image (g : κ → κ') (a : OrdSet κ) : OrdSet κ' := ofList (a.elements.map g)

@[simp] theorem mem_image {k' : κ'} :
    k' ∈ a.image g ↔ ∃ k, k ∈ a ∧ g k = k' := by
  unfold image
  rw [mem_ofList, List.mem_map]
  rfl

@[simp] theorem image_id (a : OrdSet κ) : a.image id = a := by
  refine ext fun k => ?_
  rw [mem_image]
  exact exists_eq_right

theorem ofList_eq_image {xs : List κ} {ys : List κ'}
    (hp : ys.Perm (xs.map g)) : ofList ys = (ofList xs).image g := by
  refine ext fun k' => ?_
  rw [mem_ofList, hp.mem_iff, List.mem_map, mem_image]
  refine exists_congr fun k => ?_
  rw [mem_ofList]

theorem image_union : (a.union b).image g = (a.image g).union (b.image g) := by
  refine ext fun k' => ?_
  simp only [mem_image, mem_union]
  grind

theorem image_filter {p : κ → Bool} {q : κ' → Bool}
    (hpq : ∀ x ∈ a, q (g x) = p x) :
    (a.image g).filter q = (a.filter p).image g := by
  refine ext fun k' => ?_
  simp only [mem_filter, mem_image]
  constructor
  · rintro ⟨⟨x, hx, rfl⟩, hq⟩
    exact ⟨x, ⟨hx, (hpq x hx) ▸ hq⟩, rfl⟩
  · rintro ⟨x, ⟨hx, hp⟩, rfl⟩
    exact ⟨⟨x, hx, rfl⟩, (hpq x hx).trans hp⟩

section Injective

variable (hinj : Set.InjOn g s) (ha : ∀ k ∈ a, k ∈ s)
include hinj ha

/-- The elements of an image are the renamed elements, in some order. -/
theorem elements_image_perm :
    (a.image g).elements.Perm (a.elements.map g) := by
  have hnodup : (a.elements.map g).Nodup :=
    a.nodup_elements.map_on fun x hx y hy => hinj (ha x hx) (ha y hy)
  refine (List.perm_ext_iff_of_nodup (nodup_elements _) hnodup).2 fun k' => ?_
  rw [← mem_def, mem_image, List.mem_map]
  rfl

theorem size_image : (a.image g).size = a.size := by
  unfold size
  rw [(elements_image_perm hinj ha).length_eq, List.length_map]

theorem contains_image (hk : k ∈ s) :
    (a.image g).contains (g k) = a.contains k := by
  rw [Bool.eq_iff_iff, contains_iff, contains_iff, mem_image]
  constructor
  · rintro ⟨x, hx, heq⟩
    rw [← hinj (ha x hx) hk heq]
    exact hx
  · intro hmem
    exact ⟨k, hmem, rfl⟩

end Injective

end OrdSet

end SymbolMatch
