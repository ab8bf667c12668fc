/-
What the usage graph of a list of classes holds. Each part of the graph
is computed class by class, and each has a plain description: the types
of a class are read off the class, the users of a type are the classes
that have it among their types, and the references to a class from others
are counted over all classes at once.

From these, the graphs of classes that correspond under a renaming, in
any order, correspond too.
-/
import SymbolMatch.Evidence
import SymbolMatch.Proofs.Ordered.Correspondence
import SymbolMatch.Proofs.Ordered.Relabel

namespace SymbolMatch

namespace Evidence

variable {us : List ClassUsage} {u : ClassUsage} {n user : String}

-- ============================================================ the parts

/-- A part of the graph that each class changes on its own. -/
private theorem part_ofUsages {α : Type} (part : Evidence → α)
    (step : α → ClassUsage → α)
    (hstep : ∀ e u, part (absorb e u) = step (part e) u) :
    part (ofUsages us) = us.foldl step (part empty) := by
  unfold ofUsages
  exact (List.foldl_hom part fun e u => (hstep e u).symm).symm

/-- A part that keeps a value of each class under the class's name. -/
private theorem kept_eq {ν : Type} (part : Evidence → OrdMap String ν)
    (value : ClassUsage → ν)
    (hstep : ∀ e u, part (absorb e u) = (part e).insert u.name (value u))
    (hempty : part empty = {}) :
    part (ofUsages us) = OrdMap.ofList (us.map fun u => (u.name, value u)) := by
  rw [part_ofUsages part (fun m u => m.insert u.name (value u)) hstep,
    hempty, OrdMap.ofList, List.foldl_map]
  rfl

private theorem getD_kept {ν : Type} (part : Evidence → OrdMap String ν)
    (value : ClassUsage → ν) (default : ν)
    (hstep : ∀ e u, part (absorb e u) = (part e).insert u.name (value u))
    (hempty : part empty = {}) (hnodup : (us.map (·.name)).Nodup)
    (hu : u ∈ us) : (part (ofUsages us)).getD u.name default = value u := by
  have hkeys : ((us.map fun u => (u.name, value u)).map (·.1)).Nodup := by
    rw [List.map_map]
    exact hnodup
  unfold OrdMap.getD
  rw [kept_eq part value hstep hempty,
    (OrdMap.get?_ofList hkeys).2 (List.mem_map.2 ⟨u, hu, rfl⟩)]
  rfl

/-- There is no value for a class that is not there. -/
private theorem getD_kept_of_absent {ν : Type}
    (part : Evidence → OrdMap String ν) (value : ClassUsage → ν) (default : ν)
    (hstep : ∀ e u, part (absorb e u) = (part e).insert u.name (value u))
    (hempty : part empty = {}) (hn : ∀ u ∈ us, u.name ≠ n) :
    (part (ofUsages us)).getD n default = default := by
  have habsent : (part (ofUsages us)).get? n = none := by
    rw [kept_eq part value hstep hempty, OrdMap.get?_eq_none_iff,
      OrdMap.mem_keys_ofList, List.map_map]
    intro hmem
    obtain ⟨u, hu, heq⟩ := List.mem_map.1 hmem
    exact hn u hu heq
  unfold OrdMap.getD
  rw [habsent]
  rfl

/-- A part that counts the references of each class to others. -/
private theorem getD_counted (part : Evidence → OrdMap String Nat)
    (refs : ClassUsage → List String)
    (hstep : ∀ e u, part (absorb e u)
      = countExternal (part e) u.name (refs u)) (hempty : part empty = {}) :
    (part (ofUsages us)).getD n 0
      = (us.flatMap fun u => (refs u).filter (· ≠ u.name)).count n := by
  have hcounted : part (ofUsages us)
      = (us.flatMap fun u => (refs u).filter (· ≠ u.name)).foldl
        OrdMap.bump {} := by
    rw [part_ofUsages part (fun m u => countExternal m u.name (refs u)) hstep,
      hempty, List.foldl_flatMap]
    rfl
  rw [hcounted, OrdMap.getD_foldl_bump]
  exact Nat.zero_add _

theorem mem_getD_link {m : OrdMap String (OrdSet String)} {k v a b : String} :
    b ∈ (link m k v).getD a {} ↔ a = k ∧ b = v ∨ b ∈ m.getD a {} :=
  OrdMap.mem_getD_alter_insert

theorem mem_getD_invert {m : OrdMap String (OrdSet String)}
    {types : OrdSet String} {a b : String} :
    b ∈ (invert m user types).getD a {}
      ↔ a ∈ types ∧ b = user ∨ b ∈ m.getD a {} := by
  unfold invert
  rw [OrdSet.mem_def (s := types)]
  generalize types.elements = names
  induction names generalizing m with
  | nil => simp
  | cons k rest ih =>
    rw [List.foldl_cons, ih, mem_getD_link, List.mem_cons]
    grind

/-- A part that keeps the users of each type. -/
private theorem mem_getD_inverted
    (part : Evidence → OrdMap String (OrdSet String))
    (types : ClassUsage → OrdSet String)
    (hstep : ∀ e u, part (absorb e u) = invert (part e) u.name (types u))
    (hempty : part empty = {}) :
    user ∈ (part (ofUsages us)).getD n {}
      ↔ ∃ u ∈ us, u.name = user ∧ n ∈ types u := by
  have key : ∀ m : OrdMap String (OrdSet String),
      user ∈ (us.foldl (fun m u => invert m u.name (types u)) m).getD n {}
        ↔ (∃ u ∈ us, u.name = user ∧ n ∈ types u) ∨ user ∈ m.getD n {} := by
    induction us with
    | nil => simp
    | cons u rest ih =>
      intro m
      rw [List.foldl_cons, ih, mem_getD_invert]
      simp only [List.mem_cons, exists_eq_or_imp]
      grind
  rw [part_ofUsages part (fun m u => invert m u.name (types u)) hstep, hempty,
    key]
  exact or_iff_left (OrdSet.not_mem_empty user)

/-- Linking a name with each other name of a list. -/
private theorem mem_getD_foldl_link {m : OrdMap String (OrdSet String)}
    {names : List String} {k a b : String} :
    b ∈ (names.foldl (fun m v => if k = v then m else link m k v) m).getD a {}
      ↔ a = k ∧ k ≠ b ∧ b ∈ names ∨ b ∈ m.getD a {} := by
  induction names generalizing m with
  | nil => simp
  | cons v rest ih =>
    rw [List.foldl_cons, ih, List.mem_cons]
    by_cases hk : k = v
    · rw [if_pos hk]
      grind
    · rw [if_neg hk, mem_getD_link]
      grind

theorem mem_getD_pairUp {m : OrdMap String (OrdSet String)}
    {types : OrdSet String} {a b : String} :
    b ∈ (pairUp m types).getD a {}
      ↔ a ≠ b ∧ a ∈ types ∧ b ∈ types ∨ b ∈ m.getD a {} := by
  unfold pairUp
  rw [OrdSet.mem_def (s := types), OrdSet.mem_def (s := types)]
  -- the outer walk, against whatever the inner one goes through
  generalize hinner : types.elements = inner
  have key (outer : List String) (m : OrdMap String (OrdSet String)) :
      b ∈ (outer.foldl (fun m k => inner.foldl (fun m v =>
          if k = v then m else link m k v) m) m).getD a {}
        ↔ a ≠ b ∧ a ∈ outer ∧ b ∈ inner ∨ b ∈ m.getD a {} := by
    induction outer generalizing m with
    | nil => simp
    | cons k rest ih =>
      rw [List.foldl_cons, ih, mem_getD_foldl_link, List.mem_cons]
      grind
  exact key inner m

-- ========================================================== descriptions

section Classes

variable (hnodup : (us.map (·.name)).Nodup) (hu : u ∈ us)
include hnodup hu

theorem fieldTypesOf_ofUsages :
    (ofUsages us).fieldTypesOf u.name = u.fieldTypes :=
  getD_kept fieldTypeUsages (·.fieldTypes) {} (fun _ _ => rfl) rfl hnodup hu

theorem paramTypesOf_ofUsages :
    (ofUsages us).paramTypesOf u.name = u.paramTypes :=
  getD_kept paramTypeUsages (·.paramTypes) {} (fun _ _ => rfl) rfl hnodup hu

theorem returnTypesOf_ofUsages :
    (ofUsages us).returnTypesOf u.name = u.returnTypes :=
  getD_kept returnTypeUsages (·.returnTypes) {} (fun _ _ => rfl) rfl hnodup hu

theorem selfFieldRefs_ofUsages :
    (ofUsages us).selfFieldRefs u.name = u.fieldRefs.count u.name :=
  getD_kept selfFieldRefCounts (fun u => u.fieldRefs.count u.name) 0
    (fun _ _ => rfl) rfl hnodup hu

theorem selfParamRefs_ofUsages :
    (ofUsages us).selfParamRefs u.name = u.paramRefs.count u.name :=
  getD_kept selfParamRefCounts (fun u => u.paramRefs.count u.name) 0
    (fun _ _ => rfl) rfl hnodup hu

end Classes

section Absent

variable (hn : ∀ u ∈ us, u.name ≠ n)
include hn

theorem fieldTypesOf_of_absent : (ofUsages us).fieldTypesOf n = {} :=
  getD_kept_of_absent fieldTypeUsages (·.fieldTypes) {} (fun _ _ => rfl) rfl hn

theorem paramTypesOf_of_absent : (ofUsages us).paramTypesOf n = {} :=
  getD_kept_of_absent paramTypeUsages (·.paramTypes) {} (fun _ _ => rfl) rfl hn

theorem returnTypesOf_of_absent : (ofUsages us).returnTypesOf n = {} :=
  getD_kept_of_absent returnTypeUsages (·.returnTypes) {} (fun _ _ => rfl) rfl
    hn

theorem selfFieldRefs_of_absent : (ofUsages us).selfFieldRefs n = 0 :=
  getD_kept_of_absent selfFieldRefCounts (fun u => u.fieldRefs.count u.name) 0
    (fun _ _ => rfl) rfl hn

theorem selfParamRefs_of_absent : (ofUsages us).selfParamRefs n = 0 :=
  getD_kept_of_absent selfParamRefCounts (fun u => u.paramRefs.count u.name) 0
    (fun _ _ => rfl) rfl hn

end Absent

/-- The classes that hold a field of a type. -/
theorem mem_fieldUsersOf :
    user ∈ (ofUsages us).fieldUsersOf n
      ↔ ∃ u ∈ us, u.name = user ∧ n ∈ u.fieldTypes :=
  mem_getD_inverted usedAsFieldType (·.fieldTypes) (fun _ _ => rfl) rfl

/-- The classes that take a parameter of a type. -/
theorem mem_paramUsersOf :
    user ∈ (ofUsages us).paramUsersOf n
      ↔ ∃ u ∈ us, u.name = user ∧ n ∈ u.paramTypes :=
  mem_getD_inverted usedAsParamType (·.paramTypes) (fun _ _ => rfl) rfl

/-- The classes that return a type. -/
theorem mem_returnUsersOf :
    user ∈ (ofUsages us).returnUsersOf n
      ↔ ∃ u ∈ us, u.name = user ∧ n ∈ u.returnTypes :=
  mem_getD_inverted usedAsReturnType (·.returnTypes) (fun _ _ => rfl) rfl

/-- The types that are used side by side with a type. -/
theorem mem_coOccurring {a b : String} :
    b ∈ (ofUsages us).coOccurring a
      ↔ a ≠ b ∧ ∃ u ∈ us, a ∈ u.types ∧ b ∈ u.types := by
  have key : ∀ m : OrdMap String (OrdSet String),
      b ∈ (us.foldl (fun m u => pairUp m u.types) m).getD a {}
        ↔ (a ≠ b ∧ ∃ u ∈ us, a ∈ u.types ∧ b ∈ u.types)
          ∨ b ∈ m.getD a {} := by
    induction us with
    | nil => simp
    | cons u rest ih =>
      intro m
      rw [List.foldl_cons, ih, mem_getD_pairUp]
      simp only [List.mem_cons, exists_eq_or_imp]
      grind
  unfold coOccurring
  rw [part_ofUsages coOccurrence (fun m u => pairUp m u.types)
    (fun _ _ => rfl), key]
  exact or_iff_left (OrdSet.not_mem_empty b)

theorem externalFieldRefs_ofUsages :
    (ofUsages us).externalFieldRefs n
      = (us.flatMap fun u => u.fieldRefs.filter (· ≠ u.name)).count n :=
  getD_counted externalFieldRefCounts (·.fieldRefs) (fun _ _ => rfl) rfl

theorem externalParamRefs_ofUsages :
    (ofUsages us).externalParamRefs n
      = (us.flatMap fun u => u.paramRefs.filter (· ≠ u.name)).count n :=
  getD_counted externalParamRefCounts (·.paramRefs) (fun _ _ => rfl) rfl

end Evidence

-- ====================================================== corresponding use

/-- `u'` uses what `u` uses, under the names that `g` gives. -/
structure ClassUsage.Mirrors (g : String → String) (u u' : ClassUsage) :
    Prop where
  name : u'.name = g u.name
  fieldRefs : u'.fieldRefs.Perm (u.fieldRefs.map g)
  paramRefs : u'.paramRefs.Perm (u.paramRefs.map g)
  returnRefs : u'.returnRefs.Perm (u.returnRefs.map g)

/-- The names that a class is called by and refers to. -/
structure ClassUsage.Within (s : Set String) (u : ClassUsage) : Prop where
  name : u.name ∈ s
  fieldRefs : ∀ k ∈ u.fieldRefs, k ∈ s
  paramRefs : ∀ k ∈ u.paramRefs, k ∈ s

namespace Evidence

variable {g : String → String} {s : Set String} {us us' : List ClassUsage}
  {u : ClassUsage} {n : String}

section Mirrors

variable (hmirrors : Rearranged (ClassUsage.Mirrors g) us us')
  (hinj : Set.InjOn g s) (hwithin : ∀ u ∈ us, u.Within s)
  (hnodup : (us.map (·.name)).Nodup)
include hmirrors hinj hwithin

include hnodup in
theorem nodup_names : (us'.map (·.name)).Nodup := by
  have hp := hmirrors.map_perm fun _ _ h => h.name
  refine hp.nodup_iff.2 (hnodup.map_on fun a ha b hb => ?_)
  obtain ⟨v, hv, rfl⟩ := List.mem_map.1 ha
  obtain ⟨w, hw, rfl⟩ := List.mem_map.1 hb
  exact hinj (hwithin v hv).name (hwithin w hw).name

omit hwithin in
/-- The users of a renamed type are the renamed users. -/
private theorem users_eq_image {refs : ClassUsage → List String}
    (hrefs : ∀ u u', ClassUsage.Mirrors g u u' →
      (refs u').Perm ((refs u).map g))
    (hknown : ∀ u ∈ us, ∀ k ∈ refs u, k ∈ s) (hn : n ∈ s)
    {a a' : OrdSet String}
    (ha : ∀ k, k ∈ a ↔ ∃ u ∈ us, u.name = k ∧ n ∈ refs u)
    (ha' : ∀ k, k ∈ a' ↔ ∃ u ∈ us', u.name = k ∧ g n ∈ refs u) :
    a' = a.image g := by
  have hiff {u u' : ClassUsage} (hu : u ∈ us)
      (h : ClassUsage.Mirrors g u u') : g n ∈ refs u' ↔ n ∈ refs u :=
    Correspondence.mem_iff (fun k hk => hinj (hknown u hu k hk) hn)
      (hrefs u u' h)
  refine OrdSet.ext fun k' => ?_
  rw [ha', OrdSet.mem_image]
  constructor
  · rintro ⟨u', hu', rfl, hmem⟩
    obtain ⟨u, hu, h⟩ := hmirrors.exists_left hu'
    exact ⟨u.name, (ha u.name).2 ⟨u, hu, rfl, (hiff hu h).1 hmem⟩,
      h.name.symm⟩
  · rintro ⟨k, hk, rfl⟩
    obtain ⟨u, hu, rfl, hmem⟩ := (ha k).1 hk
    obtain ⟨u', hu', h⟩ := hmirrors.exists_right hu
    exact ⟨u', hu', h.name, (hiff hu h).2 hmem⟩

/-- The references to a renamed class from others. -/
private theorem external_count_eq {refs : ClassUsage → List String}
    (hrefs : ∀ u u', ClassUsage.Mirrors g u u' →
      (refs u').Perm ((refs u).map g))
    (hknown : ∀ u ∈ us, ∀ k ∈ refs u, k ∈ s) (hn : n ∈ s) :
    (us'.flatMap fun u => (refs u).filter (· ≠ u.name)).count (g n)
      = (us.flatMap fun u => (refs u).filter (· ≠ u.name)).count n := by
  refine Correspondence.count_eq (fun k hk => ?_)
    (hmirrors.flatMap_perm fun u hu u' h => ?_)
  · obtain ⟨u, hu, hk⟩ := List.mem_flatMap.1 hk
    exact hinj (hknown u hu k (List.mem_filter.1 hk).1) hn
  · refine Correspondence.filter (hrefs u u' h) fun k hk => ?_
    rw [decide_eq_decide, h.name]
    exact not_congr (hinj.eq_iff (hknown u hu k hk) (hwithin u hu).name)

theorem fieldUsersOf_mirrors (hn : n ∈ s) :
    (ofUsages us').fieldUsersOf (g n)
      = ((ofUsages us).fieldUsersOf n).image g :=
  users_eq_image hmirrors hinj (fun _ _ h => h.fieldRefs)
    (fun u hu => (hwithin u hu).fieldRefs) hn
    (fun _ => by simp only [mem_fieldUsersOf, ClassUsage.fieldTypes,
      OrdSet.mem_ofList])
    fun _ => by simp only [mem_fieldUsersOf, ClassUsage.fieldTypes,
      OrdSet.mem_ofList]

theorem paramUsersOf_mirrors (hn : n ∈ s) :
    (ofUsages us').paramUsersOf (g n)
      = ((ofUsages us).paramUsersOf n).image g :=
  users_eq_image hmirrors hinj (fun _ _ h => h.paramRefs)
    (fun u hu => (hwithin u hu).paramRefs) hn
    (fun _ => by simp only [mem_paramUsersOf, ClassUsage.paramTypes,
      OrdSet.mem_ofList])
    fun _ => by simp only [mem_paramUsersOf, ClassUsage.paramTypes,
      OrdSet.mem_ofList]

theorem externalFieldRefs_mirrors (hn : n ∈ s) :
    (ofUsages us').externalFieldRefs (g n)
      = (ofUsages us).externalFieldRefs n := by
  rw [externalFieldRefs_ofUsages, externalFieldRefs_ofUsages]
  exact external_count_eq hmirrors hinj hwithin (fun _ _ h => h.fieldRefs)
    (fun u hu => (hwithin u hu).fieldRefs) hn

theorem externalParamRefs_mirrors (hn : n ∈ s) :
    (ofUsages us').externalParamRefs (g n)
      = (ofUsages us).externalParamRefs n := by
  rw [externalParamRefs_ofUsages, externalParamRefs_ofUsages]
  exact external_count_eq hmirrors hinj hwithin (fun _ _ h => h.paramRefs)
    (fun u hu => (hwithin u hu).paramRefs) hn

include hnodup

theorem fieldTypesOf_mirrors (hu : u ∈ us) :
    (ofUsages us').fieldTypesOf (g u.name)
      = ((ofUsages us).fieldTypesOf u.name).image g := by
  obtain ⟨u', hu', h⟩ := hmirrors.exists_right hu
  have hnodup' := nodup_names hmirrors hinj hwithin hnodup
  rw [← h.name, fieldTypesOf_ofUsages hnodup' hu',
    fieldTypesOf_ofUsages hnodup hu]
  exact OrdSet.ofList_eq_image h.fieldRefs

theorem paramTypesOf_mirrors (hu : u ∈ us) :
    (ofUsages us').paramTypesOf (g u.name)
      = ((ofUsages us).paramTypesOf u.name).image g := by
  obtain ⟨u', hu', h⟩ := hmirrors.exists_right hu
  have hnodup' := nodup_names hmirrors hinj hwithin hnodup
  rw [← h.name, paramTypesOf_ofUsages hnodup' hu',
    paramTypesOf_ofUsages hnodup hu]
  exact OrdSet.ofList_eq_image h.paramRefs

theorem returnTypesOf_mirrors (hu : u ∈ us) :
    (ofUsages us').returnTypesOf (g u.name)
      = ((ofUsages us).returnTypesOf u.name).image g := by
  obtain ⟨u', hu', h⟩ := hmirrors.exists_right hu
  have hnodup' := nodup_names hmirrors hinj hwithin hnodup
  rw [← h.name, returnTypesOf_ofUsages hnodup' hu',
    returnTypesOf_ofUsages hnodup hu]
  exact OrdSet.ofList_eq_image h.returnRefs

theorem selfFieldRefs_mirrors (hu : u ∈ us) :
    (ofUsages us').selfFieldRefs (g u.name)
      = (ofUsages us).selfFieldRefs u.name := by
  obtain ⟨u', hu', h⟩ := hmirrors.exists_right hu
  have hnodup' := nodup_names hmirrors hinj hwithin hnodup
  rw [← h.name, selfFieldRefs_ofUsages hnodup' hu',
    selfFieldRefs_ofUsages hnodup hu, h.name]
  exact Correspondence.count_eq (fun k hk =>
    hinj ((hwithin u hu).fieldRefs k hk) (hwithin u hu).name) h.fieldRefs

end Mirrors

end Evidence

end SymbolMatch
