/-
The laws of ordered maps: what each operation does to a lookup, and that
lookups determine a map.

Every law goes through one fact, `get?_eq_some_iff`: a lookup finds
exactly what the entries hold. Since the entries of a map are strictly
increasing, two maps with the same lookups have the same entries in the
same order (`ext_get?`), so an equation between maps is proved key by
key and nothing about the order of insertions has to be said twice.
-/
import Mathlib.Data.List.Nodup
import SymbolMatch.Ordered.Map

set_option linter.unusedSectionVars false

namespace SymbolMatch.OrdMap

variable {κ ν μ : Type} [Ord κ]

-- ============================================================ entries

/-- A map is its list of entries. -/
theorem ext_entries {a b : OrdMap κ ν} (h : a.entries = b.entries) :
    a = b := by
  cases a
  cases b
  simpa using h

@[simp] theorem entries_empty :
    ({} : OrdMap κ ν).entries = [] := rfl

@[simp] theorem get?_empty (k : κ) : ({} : OrdMap κ ν).get? k = none := rfl

variable [Std.TransOrd κ] [Std.LawfulEqOrd κ]

/-- In an increasing list no later key compares equal to the first. -/
private theorem lookup_none_of_lt {k : κ} {l : List (κ × ν)}
    (h : ∀ e ∈ l, compare k e.1 = .lt) : lookup k l = none := by
  induction l with
  | nil => rfl
  | cons e rest ih =>
    have hlt : compare k e.1 = .lt := h e List.mem_cons_self
    unfold lookup
    rw [if_neg (by rw [hlt]; decide)]
    exact ih fun e' he' => h e' (List.mem_cons_of_mem _ he')

/-- A lookup in an increasing list finds exactly the pairs of the list. -/
theorem lookup_eq_some_iff {k : κ} {v : ν} {l : List (κ × ν)}
    (h : l.Pairwise fun a b => compare a.1 b.1 = .lt) :
    lookup k l = some v ↔ (k, v) ∈ l := by
  induction l with
  | nil => simp [lookup]
  | cons e rest ih =>
    obtain ⟨k', v'⟩ := e
    rw [List.pairwise_cons] at h
    obtain ⟨hfirst, hrest⟩ := h
    unfold lookup
    rw [List.mem_cons]
    by_cases hk : compare k k' = .eq
    · have hkk : k = k' := Std.LawfulEqOrd.eq_of_compare hk
      subst hkk
      have hnot : (k, v) ∉ rest := by
        intro hmem
        have hlt := hfirst _ hmem
        rw [Std.ReflOrd.compare_self] at hlt
        cases hlt
      simp [hnot, eq_comm]
    · have hne : k ≠ k' := by
        rintro rfl
        exact hk Std.ReflOrd.compare_self
      simp [hk, hne, ih hrest]

variable {m : OrdMap κ ν} {k j : κ} {v : ν}

/-- A lookup finds exactly what the entries hold. -/
theorem get?_eq_some_iff : m.get? k = some v ↔ (k, v) ∈ m.entries :=
  lookup_eq_some_iff m.sorted

theorem mem_keys_iff : k ∈ m.keys ↔ ∃ v, m.get? k = some v := by
  unfold keys
  rw [List.mem_map]
  constructor
  · rintro ⟨⟨k', v⟩, hmem, rfl⟩
    exact ⟨v, get?_eq_some_iff.2 hmem⟩
  · rintro ⟨v, hv⟩
    exact ⟨(k, v), get?_eq_some_iff.1 hv, rfl⟩

theorem get?_eq_none_iff : m.get? k = none ↔ k ∉ m.keys := by
  rw [mem_keys_iff, Option.eq_none_iff_forall_ne_some]
  simp

theorem contains_iff : m.contains k = true ↔ k ∈ m.keys := by
  unfold contains
  rw [Option.isSome_iff_exists, mem_keys_iff]

theorem contains_eq_false_iff : m.contains k = false ↔ m.get? k = none := by
  unfold contains
  rw [Option.isSome_eq_false_iff, Option.isNone_iff_eq_none]

/-- The keys of a map strictly increase. -/
theorem keys_sorted (m : OrdMap κ ν) :
    m.keys.Pairwise fun a b => compare a b = .lt := by
  unfold keys
  rw [List.pairwise_map]
  exact m.sorted

/-- What strictly increases has no repetitions. -/
theorem nodup_of_sorted {l : List κ}
    (h : l.Pairwise fun a b => compare a b = .lt) : l.Nodup := by
  refine h.imp ?_
  rintro a b hlt rfl
  rw [Std.ReflOrd.compare_self] at hlt
  cases hlt

theorem nodup_keys (m : OrdMap κ ν) : m.keys.Nodup :=
  nodup_of_sorted m.keys_sorted

/-- No entry of a map is repeated. -/
theorem nodup_entries (m : OrdMap κ ν) : m.entries.Nodup := by
  have h : (m.entries.map (·.1)).Nodup := m.nodup_keys
  exact h.of_map _

/-- Maps with the same entries, in whatever order, are equal. -/
theorem ext_perm {a b : OrdMap κ ν} (h : a.entries.Perm b.entries) :
    a = b := by
  refine ext_entries (h.eq_of_pairwise ?_ a.sorted b.sorted)
  intro x y _ _ hxy hyx
  -- two entries cannot both come first
  have := Std.OrientedCmp.gt_of_lt hxy
  rw [this] at hyx
  cases hyx

/-- Lookups determine a map. -/
theorem ext_get? {a b : OrdMap κ ν} (h : ∀ k, a.get? k = b.get? k) :
    a = b := by
  refine ext_perm ((List.perm_ext_iff_of_nodup
    a.nodup_entries b.nodup_entries).2 ?_)
  rintro ⟨k, v⟩
  rw [← get?_eq_some_iff, ← get?_eq_some_iff, h k]

/-- The keys and what is under them determine a map. -/
theorem ext_getD {a b : OrdMap κ ν} (d : ν)
    (hkeys : ∀ k, k ∈ a.keys ↔ k ∈ b.keys)
    (h : ∀ k, a.getD k d = b.getD k d) : a = b := by
  refine ext_get? fun k => ?_
  by_cases hk : k ∈ b.keys
  · obtain ⟨v, hv⟩ := mem_keys_iff.1 hk
    obtain ⟨w, hw⟩ := mem_keys_iff.1 ((hkeys k).2 hk)
    have hsame := h k
    unfold getD at hsame
    rw [hv, hw, Option.getD_some, Option.getD_some] at hsame
    rw [hv, hw, hsame]
  · rw [get?_eq_none_iff.2 hk, get?_eq_none_iff.2 (mt (hkeys k).1 hk)]

-- ============================================================ changes

private theorem lookup_alterEntries [DecidableEq κ] (f : Option ν → ν)
    {l : List (κ × ν)} (h : l.Pairwise fun a b => compare a.1 b.1 = .lt) :
    lookup j (alterEntries k f l)
      = if j = k then some (f (lookup k l)) else lookup j l := by
  induction l with
  | nil => simp [alterEntries, lookup]
  | cons e rest ih =>
    obtain ⟨k', v'⟩ := e
    rw [List.pairwise_cons] at h
    unfold alterEntries
    split
    · next hlt =>
      -- the key is new and smaller than all keys there are
      have hnone : lookup k ((k', v') :: rest) = none := by
        refine lookup_none_of_lt fun e he => ?_
        rcases List.mem_cons.1 he with rfl | he
        · exact hlt
        · exact Std.TransCmp.lt_trans hlt (h.1 e he)
      rw [hnone]
      by_cases hj : j = k
      · simp [lookup, hj]
      · simp [lookup, hj]
    · next heq =>
      have hkk : k = k' := Std.LawfulEqOrd.eq_of_compare heq
      subst hkk
      by_cases hj : j = k
      · simp [lookup, hj]
      · simp [lookup, hj]
    · next hgt =>
      have hne : k ≠ k' := by
        rintro rfl
        rw [Std.ReflOrd.compare_self] at hgt
        cases hgt
      by_cases hj : j = k
      · subst hj
        simp [lookup, hne, ih h.2]
      · simp [lookup, hj, ih h.2]

/-- Altering a key changes the lookup of that key only. -/
theorem get?_alter [DecidableEq κ] (m : OrdMap κ ν) (k j : κ)
    (f : Option ν → ν) :
    (m.alter k f).get? j = if j = k then some (f (m.get? k)) else m.get? j :=
  lookup_alterEntries f m.sorted

theorem get?_insert [DecidableEq κ] (m : OrdMap κ ν) (k j : κ) (v : ν) :
    (m.insert k v).get? j = if j = k then some v else m.get? j :=
  get?_alter m k j _

@[simp] theorem get?_insert_self [DecidableEq κ] (m : OrdMap κ ν) (k : κ)
    (v : ν) : (m.insert k v).get? k = some v := by
  rw [get?_insert, if_pos rfl]

theorem get?_insert_of_ne [DecidableEq κ] (m : OrdMap κ ν) (v : ν)
    (h : j ≠ k) : (m.insert k v).get? j = m.get? j := by
  rw [get?_insert, if_neg h]

/-- An insertion adds one key, unless the key was there. -/
theorem size_insert [DecidableEq κ] (m : OrdMap κ ν) (k : κ) (v : ν) :
    (m.insert k v).size = m.size + (!m.contains k).toNat := by
  have hmem (j : κ) : j ∈ (m.insert k v).keys ↔ j = k ∨ j ∈ m.keys := by
    rw [mem_keys_iff, mem_keys_iff, get?_insert]
    by_cases hj : j = k
    · simp [hj]
    · simp [hj]
  have hnodup := (m.insert k v).nodup_keys
  have hsize (a : OrdMap κ ν) : a.size = a.keys.length :=
    (List.length_map _).symm
  rw [hsize, hsize]
  cases hk : m.contains k with
  | true =>
    have hin := contains_iff.1 hk
    refine ((List.perm_ext_iff_of_nodup hnodup m.nodup_keys).2 ?_).length_eq
    intro j
    rw [hmem]
    exact or_iff_right_of_imp fun heq => heq ▸ hin
  | false =>
    have hout := get?_eq_none_iff.1 (contains_eq_false_iff.1 hk)
    have hcons := List.nodup_cons.2 ⟨hout, m.nodup_keys⟩
    refine ((List.perm_ext_iff_of_nodup hnodup hcons).2 ?_).length_eq
    intro j
    rw [hmem, List.mem_cons]

theorem get?_erase [DecidableEq κ] (m : OrdMap κ ν) (k j : κ) :
    (m.erase k).get? j = if j = k then none else m.get? j := by
  refine Option.ext fun v => ?_
  rw [get?_eq_some_iff]
  unfold erase
  rw [List.mem_filter]
  by_cases hj : j = k
  · subst hj
    simp [Std.ReflOrd.compare_self]
  · have hne : compare k j ≠ .eq := fun h =>
      hj (Std.LawfulEqOrd.eq_of_compare h).symm
    simp [hj, hne, get?_eq_some_iff]

-- ====================================================== maps of lists

/-- Inserting pairs with different keys one after another: the pairs win
over what was there before, and change no other key. -/
private theorem get?_foldl_insert [DecidableEq κ] {pairs : List (κ × ν)}
    (h : (pairs.map (·.1)).Nodup) (m : OrdMap κ ν) :
    (pairs.foldl (fun m p => m.insert p.1 p.2) m).get? k = some v
      ↔ (k, v) ∈ pairs ∨ k ∉ pairs.map (·.1) ∧ m.get? k = some v := by
  induction pairs generalizing m with
  | nil => simp
  | cons p rest ih =>
    obtain ⟨k', v'⟩ := p
    rw [List.map_cons, List.nodup_cons] at h
    rw [List.foldl_cons, ih h.2, get?_insert]
    by_cases hk : k = k'
    · subst hk
      have hnot : ∀ w, (k, w) ∉ rest := fun w hw =>
        h.1 (List.mem_map.2 ⟨_, hw, rfl⟩)
      simp [hnot, h.1, eq_comm]
    · simp [hk]

/-- The map of pairs with different keys holds exactly these pairs. -/
theorem get?_ofList [DecidableEq κ] {pairs : List (κ × ν)}
    (h : (pairs.map (·.1)).Nodup) :
    (ofList pairs).get? k = some v ↔ (k, v) ∈ pairs := by
  unfold ofList
  rw [get?_foldl_insert h]
  change _ ∨ _ ∧ (none : Option ν) = some v ↔ _
  simp

/-- The entries of such a map are the pairs, sorted. -/
theorem entries_ofList_perm [DecidableEq κ] {pairs : List (κ × ν)}
    (h : (pairs.map (·.1)).Nodup) : (ofList pairs).entries.Perm pairs := by
  refine (List.perm_ext_iff_of_nodup (nodup_entries _) (h.of_map _)).2 ?_
  rintro ⟨k, v⟩
  rw [← get?_eq_some_iff, get?_ofList h]

/-- The order of pairs with different keys does not matter. -/
theorem ofList_eq_of_perm [DecidableEq κ] {pairs pairs' : List (κ × ν)}
    (h : (pairs.map (·.1)).Nodup) (hp : pairs.Perm pairs') :
    ofList pairs = ofList pairs' := by
  have h' : (pairs'.map (·.1)).Nodup := (hp.map _).nodup_iff.1 h
  refine ext_perm ((entries_ofList_perm h).trans (hp.trans ?_))
  exact (entries_ofList_perm h').symm

/-- A map with the keys of another and values that follow from them. -/
theorem get?_ofList_keys [DecidableEq κ] (m : OrdMap κ μ) (f : κ → ν)
    (k : κ) :
    (ofList (m.keys.map fun k => (k, f k))).get? k
      = (m.get? k).map fun _ => f k := by
  have hkeys : ((m.keys.map fun k => (k, f k)).map (·.1)).Nodup := by
    rw [List.map_map]
    exact (List.map_id _).symm ▸ m.nodup_keys
  refine Option.ext fun v => ?_
  simp only [get?_ofList hkeys, List.mem_map, Prod.mk.injEq, mem_keys_iff,
    Option.map_eq_some_iff]
  constructor
  · rintro ⟨_, ⟨w, hw⟩, rfl, hv⟩
    exact ⟨w, hw, hv⟩
  · rintro ⟨w, hw, hv⟩
    exact ⟨k, ⟨w, hw⟩, rfl, hv⟩

/-- The keys of the map of a list are the keys of the list. -/
theorem mem_keys_ofList [DecidableEq κ] {pairs : List (κ × ν)} :
    k ∈ (ofList pairs).keys ↔ k ∈ pairs.map (·.1) := by
  suffices key : ∀ m : OrdMap κ ν,
      k ∈ (pairs.foldl (fun m p => m.insert p.1 p.2) m).keys
        ↔ k ∈ pairs.map (·.1) ∨ k ∈ m.keys by
    refine (key empty).trans ?_
    simp [empty, keys]
  induction pairs with
  | nil => simp
  | cons p rest ih =>
    intro m
    have hins : k ∈ (m.insert p.1 p.2).keys ↔ k = p.1 ∨ k ∈ m.keys := by
      rw [mem_keys_iff, mem_keys_iff]
      by_cases hk : k = p.1
      · simp [hk]
      · simp [get?_insert_of_ne _ _ hk, hk]
    rw [List.foldl_cons, ih, hins, List.map_cons, List.mem_cons]
    grind

-- ============================================================ tallies

/-- Adding a weight for each occurrence of a key, on top of a map. -/
theorem get?_foldl_add [DecidableEq κ] (w : Nat) (xs : List κ)
    (m : OrdMap κ Nat) (k : κ) :
    (xs.foldl (fun m x => m.alter x fun n => n.getD 0 + w) m).get? k
      = if k ∈ xs then some ((m.get? k).getD 0 + w * xs.count k)
        else m.get? k := by
  induction xs generalizing m with
  | nil => simp
  | cons x rest ih =>
    rw [List.foldl_cons, ih, get?_alter]
    by_cases hk : k = x
    · subst hk
      by_cases hr : k ∈ rest
      · simp [hr, Nat.mul_add]
        omega
      · simp [hr, List.count_eq_zero.2 hr]
    · have hx : ¬x = k := fun h => hk h.symm
      simp [hk, hx]

theorem get?_foldl_bump [DecidableEq κ] (xs : List κ) (m : OrdMap κ Nat)
    (k : κ) :
    (xs.foldl bump m).get? k
      = if k ∈ xs then some ((m.get? k).getD 0 + xs.count k)
        else m.get? k := by
  have h := get?_foldl_add 1 xs m k
  rw [Nat.one_mul] at h
  exact h

theorem getD_foldl_bump [DecidableEq κ] (xs : List κ) (m : OrdMap κ Nat)
    (k : κ) :
    (xs.foldl bump m).getD k 0 = m.getD k 0 + xs.count k := by
  unfold getD
  rw [get?_foldl_bump]
  by_cases hk : k ∈ xs
  · simp [hk]
  · simp [hk, List.count_eq_zero.2 hk]

theorem getD_tally [DecidableEq κ] (xs : List κ) (k : κ) :
    (tally xs).getD k 0 = xs.count k :=
  (getD_foldl_bump xs empty k).trans (Nat.zero_add _)

/-- A tally has an entry for what occurs, and for nothing else. -/
theorem get?_tally_eq_some_iff [DecidableEq κ] {xs : List κ} {k : κ} {n : Nat} :
    (tally xs).get? k = some n ↔ 0 < n ∧ n = xs.count k := by
  have hget : (tally xs).get? k = if k ∈ xs then some (xs.count k) else none := by
    have h := get?_foldl_bump xs empty k
    rw [show (empty : OrdMap κ Nat).get? k = none from rfl, Option.getD_none,
      Nat.zero_add] at h
    exact h
  rw [hget]
  by_cases hk : k ∈ xs
  · rw [if_pos hk, Option.some_inj]
    constructor
    · rintro rfl
      exact ⟨List.count_pos_iff.2 hk, rfl⟩
    · rintro ⟨-, rfl⟩
      rfl
  · rw [if_neg hk, List.count_eq_zero.2 hk]
    constructor
    · intro h
      cases h
    · rintro ⟨hpos, rfl⟩
      exact absurd hpos (Nat.lt_irrefl 0)

/-- Only how often each element occurs matters for a tally. -/
theorem tally_eq_of_perm [DecidableEq κ] {xs ys : List κ}
    (h : xs.Perm ys) : tally xs = tally ys := by
  refine ext_get? fun k => ?_
  unfold tally
  rw [get?_foldl_bump, get?_foldl_bump, h.count_eq]
  simp [h.mem_iff]

end SymbolMatch.OrdMap
