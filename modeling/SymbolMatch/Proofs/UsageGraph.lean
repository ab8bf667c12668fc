/-
The usage graph of a snapshot is what the descriptors of its classes say.

The graph is built class by class into eleven maps: three from a class to
its types, three from a type to its users, one of the types that stand
side by side, and four of counts. The stages of a run read them as views
of one relation, "this class names that type in this slot", and here they
are shown to be that.

# The relation

A class names types in three slots: its fields, its parameters and its
results (`ClassDecl.namesIn`). What the graph keeps of a slot is the
names that do not belong to the platform (`ClassUsage.refs_summary`), and
both directions of the graph hold exactly the pairs that these lists
show (`mem_typesOf`, `mem_usersOf`).

# The counts

References are counted with repetitions, the class's own apart from those
of others. Every user of a type refers to it at least once, so there are
no more users than references (`size_users_le`), and there are references
if and only if there are users.

A platform name has no place in the graph as a type. It can be a user, if
a snapshot declares a class of that name.
-/
import Mathlib.Data.List.Perm.Subperm
import SymbolMatch.Proofs.Evidence
import SymbolMatch.Proofs.Summary

namespace SymbolMatch

open Descriptor (fieldType methodType)

-- ================================================================ slots

/-- Where a class names a type. -/
inductive Slot
  | field
  | param
  | result
deriving DecidableEq

/-- The types in a slot of a class, in order. -/
def ClassDecl.typesIn (c : ClassDecl) : Slot → List TypeDesc
  | .field => c.fields.map fun f => fieldType f.descriptor
  | .param => c.methods.flatMap fun m => (methodType m.descriptor).params
  | .result => c.methods.filterMap fun m => (methodType m.descriptor).result

/-- The classes that these types name, an array's being that of its
innermost type; repetitions are kept. -/
def ClassDecl.namesIn (c : ClassDecl) (slot : Slot) : List String :=
  (c.typesIn slot).filterMap TypeDesc.className?

namespace ClassUsage

/-- The references that are kept of a slot. -/
def refs (u : ClassUsage) : Slot → List String
  | .field => u.fieldRefs
  | .param => u.paramRefs
  | .result => u.returnRefs

/-- What is tracked of a list of types is what they name, platform
aside. -/
private theorem filterMap_tracked (settings : Settings)
    (types : List TypeDesc) :
    types.filterMap (tracked? settings)
      = (types.filterMap TypeDesc.className?).filter
        (!settings.isPlatform ·) := by
  rw [List.filter_filterMap]
  rfl

/-- What is kept of a slot of a class is what the slot names, platform
aside. -/
theorem refs_summary (settings : Settings) (c : ClassDecl) (slot : Slot) :
    (summary settings c).refs slot
      = (c.namesIn slot).filter (!settings.isPlatform ·) := by
  unfold ClassDecl.namesIn
  rw [← filterMap_tracked]
  cases slot with
  | field => rfl
  | param =>
    show (summary settings c).paramRefs = _
    unfold summary ClassDecl.typesIn
    dsimp only
    rw [List.flatMap_map]
  | result =>
    show (summary settings c).returnRefs = _
    unfold summary ClassDecl.typesIn
    dsimp only
    rw [List.filterMap_map, List.filterMap_filterMap]
    rfl

theorem mem_types {u : ClassUsage} {n : String} :
    n ∈ u.types ↔ ∃ slot, n ∈ u.refs slot := by
  unfold types fieldTypes paramTypes returnTypes
  simp only [OrdSet.mem_union, OrdSet.mem_ofList]
  constructor
  · rintro ((h | h) | h)
    · exact ⟨.field, h⟩
    · exact ⟨.param, h⟩
    · exact ⟨.result, h⟩
  · rintro ⟨slot, h⟩
    cases slot with
    | field => exact .inl (.inl h)
    | param => exact .inl (.inr h)
    | result => exact .inr h

end ClassUsage

-- ======================================================= both directions

namespace Evidence

/-- The types that a class names in a slot. -/
def typesOf (e : Evidence) : Slot → String → OrdSet String
  | .field => e.fieldTypesOf
  | .param => e.paramTypesOf
  | .result => e.returnTypesOf

/-- The classes that name a type in a slot. -/
def usersOf (e : Evidence) : Slot → String → OrdSet String
  | .field => e.fieldUsersOf
  | .param => e.paramUsersOf
  | .result => e.returnUsersOf

variable {us : List ClassUsage} {n user : String} {slot : Slot}

/-- What is read off a class that may not be there: the value for the
class of that name, if there is one. -/
private theorem mem_kept {part : String → OrdSet String}
    {refs : ClassUsage → List String}
    (hpart : ∀ u ∈ us, part u.name = OrdSet.ofList (refs u))
    (habsent : (∀ u ∈ us, u.name ≠ user) → part user = {}) :
    n ∈ part user ↔ ∃ u ∈ us, u.name = user ∧ n ∈ refs u := by
  by_cases h : ∃ u ∈ us, u.name = user
  · obtain ⟨u, hu, rfl⟩ := h
    constructor
    · intro hn
      rw [hpart u hu] at hn
      exact ⟨u, hu, rfl, OrdSet.mem_ofList.1 hn⟩
    · rintro ⟨v, hv, hname, hn⟩
      rw [← hname, hpart v hv]
      exact OrdSet.mem_ofList.2 hn
  · rw [habsent fun u hu heq => h ⟨u, hu, heq⟩]
    constructor
    · intro hn
      exact absurd hn (OrdSet.not_mem_empty n)
    · rintro ⟨u, hu, heq, -⟩
      exact absurd ⟨u, hu, heq⟩ h

/-- A class has a type in a slot if it refers to it there. -/
theorem mem_typesOf (hnodup : (us.map (·.name)).Nodup) :
    n ∈ (ofUsages us).typesOf slot user
      ↔ ∃ u ∈ us, u.name = user ∧ n ∈ u.refs slot := by
  cases slot with
  | field =>
    exact mem_kept (fun u hu => fieldTypesOf_ofUsages hnodup hu)
      fieldTypesOf_of_absent
  | param =>
    exact mem_kept (fun u hu => paramTypesOf_ofUsages hnodup hu)
      paramTypesOf_of_absent
  | result =>
    exact mem_kept (fun u hu => returnTypesOf_ofUsages hnodup hu)
      returnTypesOf_of_absent

/-- A type has a user in a slot if the user refers to it there. -/
theorem mem_usersOf :
    user ∈ (ofUsages us).usersOf slot n
      ↔ ∃ u ∈ us, u.name = user ∧ n ∈ u.refs slot := by
  cases slot with
  | field =>
    refine mem_fieldUsersOf.trans ?_
    simp only [ClassUsage.fieldTypes, OrdSet.mem_ofList]
    rfl
  | param =>
    refine mem_paramUsersOf.trans ?_
    simp only [ClassUsage.paramTypes, OrdSet.mem_ofList]
    rfl
  | result =>
    refine mem_returnUsersOf.trans ?_
    simp only [ClassUsage.returnTypes, OrdSet.mem_ofList]
    rfl

theorem mem_referencedTypes {e : Evidence} :
    n ∈ e.referencedTypes user ↔ n ≠ user ∧ ∃ slot, n ∈ e.typesOf slot user := by
  unfold referencedTypes
  simp only [OrdSet.mem_filter, OrdSet.mem_union, decide_eq_true_eq]
  constructor
  · rintro ⟨(h | h) | h, hne⟩
    · exact ⟨hne, .field, h⟩
    · exact ⟨hne, .param, h⟩
    · exact ⟨hne, .result, h⟩
  · rintro ⟨hne, slot, h⟩
    cases slot with
    | field => exact ⟨.inl (.inl h), hne⟩
    | param => exact ⟨.inl (.inr h), hne⟩
    | result => exact ⟨.inr h, hne⟩

-- ============================================================== counts

/-- The references of others to a name, counted class by class or over
all other classes at once. -/
private theorem count_external (us : List ClassUsage)
    (refs : ClassUsage → List String) (n : String) :
    (us.flatMap fun u => (refs u).filter (· ≠ u.name)).count n
      = ((us.filter (·.name ≠ n)).flatMap refs).count n := by
  induction us with
  | nil => rfl
  | cons u rest ih =>
    rw [List.flatMap_cons, List.count_append, ih, List.filter_cons]
    by_cases hname : u.name = n
    · -- the class does not count for itself
      have hnone : n ∉ (refs u).filter (· ≠ u.name) := fun hmem =>
        of_decide_eq_true (List.mem_filter.1 hmem).2 hname.symm
      rw [if_neg (by simpa using hname), List.count_eq_zero.2 hnone,
        Nat.zero_add]
    · rw [if_pos (by simpa using hname), List.flatMap_cons, List.count_append,
        List.count_filter (by simpa using Ne.symm hname)]

/-- The references of a class to itself, where no two classes share a
name. -/
private theorem count_own {u : ClassUsage} (refs : ClassUsage → List String)
    (hnodup : (us.map (·.name)).Nodup) (hu : u ∈ us) :
    ((us.filter (·.name = u.name)).flatMap refs).count u.name
      = (refs u).count u.name := by
  have hone : us.filter (·.name = u.name) = [u] := by
    refine List.perm_singleton.1 ((List.perm_ext_iff_of_nodup
      ((hnodup.of_map _).filter _) (List.nodup_singleton u)).2 fun v => ?_)
    rw [List.mem_filter, decide_eq_true_eq, List.mem_singleton]
    constructor
    · rintro ⟨hv, hname⟩
      exact List.inj_on_of_nodup_map hnodup hv hu hname
    · rintro rfl
      exact ⟨hu, rfl⟩
  rw [hone, List.flatMap_singleton]

/-- Whoever refers to a name does so at least once. -/
private theorem length_referrers_le (us : List ClassUsage)
    (refs : ClassUsage → List String) (n : String) :
    (us.filter (n ∈ refs ·)).length ≤ (us.flatMap refs).count n := by
  induction us with
  | nil => exact Nat.le_refl _
  | cons u rest ih =>
    rw [List.filter_cons, List.flatMap_cons, List.count_append]
    by_cases hn : n ∈ refs u
    · have hpos := List.count_pos_iff.2 hn
      rw [if_pos (decide_eq_true hn), List.length_cons]
      omega
    · rw [if_neg (by simpa using hn)]
      omega

/-- A set of names of classes that refer to a name has no more elements
than there are references. -/
private theorem size_users_le {users : OrdSet String}
    {refs : ClassUsage → List String}
    (husers : ∀ k ∈ users, ∃ u ∈ us, u.name = k ∧ n ∈ refs u) :
    users.size ≤ (us.flatMap refs).count n := by
  have hsub : users.elements ⊆ (us.filter (n ∈ refs ·)).map (·.name) := by
    intro k hk
    obtain ⟨u, hu, rfl, hn⟩ := husers k hk
    exact List.mem_map.2 ⟨u, List.mem_filter.2 ⟨hu, decide_eq_true hn⟩, rfl⟩
  calc users.size
      ≤ ((us.filter (n ∈ refs ·)).map (·.name)).length :=
        (users.nodup_elements.subperm hsub).length_le
    _ = (us.filter (n ∈ refs ·)).length := List.length_map _
    _ ≤ (us.flatMap refs).count n := length_referrers_le us refs n

end Evidence

/-- What two counts of references to each name say of a slot, and who is
behind the second: the references of a class to itself, and those of all
other classes. -/
structure Snapshot.Counted (settings : Settings) (s : Snapshot) (slot : Slot)
    (own external : String → Nat) (users : String → OrdSet String) :
    Prop where
  own_eq : ∀ t, settings.isPlatform t = false → own t
    = ((s.classes.filter (·.name = t)).flatMap (·.namesIn slot)).count t
  external_eq : ∀ t, settings.isPlatform t = false → external t
    = ((s.classes.filter (·.name ≠ t)).flatMap (·.namesIn slot)).count t
  /-- There are references from others if and only if there are others
  that refer. -/
  external_pos_iff : ∀ t, 0 < external t ↔ ∃ u, u ∈ users t
  users_le : ∀ t, (users t).size ≤ external t
  platform : ∀ p, settings.isPlatform p = true → own p = 0 ∧ external p = 0

namespace Evidence

open Index (usages)

variable {settings : Settings} {s : Snapshot} {us : List ClassUsage}
  {slot : Slot} {t u p : String}

/-- The usages of the classes that a test on names selects refer to what
these classes name, platform aside. -/
private theorem count_refs (settings : Settings) (s : Snapshot) (slot : Slot)
    (p : String → Bool) (t : String) :
    (((usages settings s).filter fun u => p u.name).flatMap
        (·.refs slot)).count t
      = if settings.isPlatform t then 0
        else ((s.classes.filter fun c => p c.name).flatMap
          (·.namesIn slot)).count t := by
  unfold usages
  rw [List.filter_map, List.flatMap_map]
  simp only [ClassUsage.refs_summary]
  rw [← List.filter_flatMap]
  split
  · next hplatform =>
    refine List.count_eq_zero.2 fun hmem => ?_
    have hnot := (List.mem_filter.1 hmem).2
    rw [hplatform] at hnot
    cases hnot
  · next hplatform =>
    rw [Bool.not_eq_true] at hplatform
    exact List.count_filter (by rw [hplatform]; rfl)

/-- The counts of a slot, given what they are on the usages of the
classes. -/
private theorem counted_usages (hnodup : s.names.Nodup)
    {own external : String → Nat} {users : String → OrdSet String}
    (hown : ∀ u ∈ usages settings s,
      own u.name = (u.refs slot).count u.name)
    (habsent : ∀ t, (∀ u ∈ usages settings s, u.name ≠ t) → own t = 0)
    (hexternal : ∀ t, external t = ((usages settings s).flatMap fun u =>
      (u.refs slot).filter (· ≠ u.name)).count t)
    (husers : ∀ t k, k ∈ users t ↔ k ≠ t
      ∧ ∃ u ∈ usages settings s, u.name = k ∧ t ∈ u.refs slot) :
    s.Counted settings slot own external users := by
  rw [← Index.names_usages settings] at hnodup
  -- both counts as counts over the classes that a test selects
  have hown' (t : String) : own t = (((usages settings s).filter
      (·.name = t)).flatMap (·.refs slot)).count t := by
    by_cases h : ∃ u ∈ usages settings s, u.name = t
    · obtain ⟨u, hu, rfl⟩ := h
      rw [hown u hu, count_own _ hnodup hu]
    · have hnone : (usages settings s).filter (·.name = t) = [] :=
        List.filter_eq_nil_iff.2 fun u hu heq =>
          h ⟨u, hu, of_decide_eq_true heq⟩
      rw [habsent t fun u hu heq => h ⟨u, hu, heq⟩, hnone]
      rfl
  have hexternal' (t : String) : external t = (((usages settings s).filter
      (·.name ≠ t)).flatMap (·.refs slot)).count t := by
    rw [hexternal, count_external]
  -- the users are the other classes that refer
  have hothers (t k : String) : k ∈ users t
      ↔ ∃ u ∈ (usages settings s).filter (·.name ≠ t),
        u.name = k ∧ t ∈ u.refs slot := by
    rw [husers]
    constructor
    · rintro ⟨hne, u, hu, rfl, ht⟩
      exact ⟨u, List.mem_filter.2 ⟨hu, decide_eq_true hne⟩, rfl, ht⟩
    · rintro ⟨u, hu, rfl, ht⟩
      obtain ⟨hu, hne⟩ := List.mem_filter.1 hu
      exact ⟨of_decide_eq_true hne, u, hu, rfl, ht⟩
  refine
    { own_eq := fun t ht => ?_
      external_eq := fun t ht => ?_
      external_pos_iff := fun t => ?_
      users_le := fun t => ?_
      platform := fun p hp => ⟨?_, ?_⟩ }
  · rw [hown', count_refs settings s slot (fun k => k = t) t, ht]
    rfl
  · rw [hexternal', count_refs settings s slot (fun k => k ≠ t) t, ht]
    rfl
  · rw [hexternal', List.count_pos_iff, List.mem_flatMap]
    constructor
    · rintro ⟨u, hu, ht⟩
      exact ⟨u.name, (hothers t u.name).2 ⟨u, hu, rfl, ht⟩⟩
    · rintro ⟨k, hk⟩
      obtain ⟨u, hu, -, ht⟩ := (hothers t k).1 hk
      exact ⟨u, hu, ht⟩
  · rw [hexternal']
    exact size_users_le fun k hk => (hothers t k).1 hk
  · rw [hown', count_refs settings s slot (fun k => k = p) p, hp]
    rfl
  · rw [hexternal', count_refs settings s slot (fun k => k ≠ p) p, hp]
    rfl

-- =========================================================== the graph

/-- Both directions hold the same pairs. -/
theorem mem_usersOf_iff (hnodup : (us.map (·.name)).Nodup) :
    u ∈ (ofUsages us).usersOf slot t ↔ t ∈ (ofUsages us).typesOf slot u := by
  rw [mem_usersOf, mem_typesOf hnodup]

/-- A type of a class is one that the class is declared to name, and not
one of the platform. -/
theorem mem_typesOf_iff (hnodup : s.names.Nodup) :
    t ∈ (ofUsages (usages settings s)).typesOf slot u
      ↔ (∃ c ∈ s.classes, c.name = u ∧ t ∈ c.namesIn slot)
        ∧ settings.isPlatform t = false := by
  rw [← Index.names_usages settings] at hnodup
  rw [mem_typesOf hnodup]
  unfold usages
  simp only [List.mem_map, exists_exists_and_eq_and, ClassUsage.refs_summary,
    List.mem_filter, Bool.not_eq_true']
  constructor
  · rintro ⟨c, hc, hname, ht, hplatform⟩
    exact ⟨⟨c, hc, hname, ht⟩, hplatform⟩
  · rintro ⟨⟨c, hc, hname, ht⟩, hplatform⟩
    exact ⟨c, hc, hname, ht, hplatform⟩

/-- Two types stand side by side if one class refers to both. -/
theorem mem_coOccurring_iff (hnodup : (us.map (·.name)).Nodup)
    {a b : String} :
    b ∈ (ofUsages us).coOccurring a
      ↔ a ≠ b ∧ ∃ u, (∃ slot, a ∈ (ofUsages us).typesOf slot u)
        ∧ ∃ slot, b ∈ (ofUsages us).typesOf slot u := by
  rw [mem_coOccurring]
  simp only [mem_typesOf hnodup, ClassUsage.mem_types]
  refine and_congr_right fun _ => ⟨?_, ?_⟩
  · rintro ⟨u, hu, ⟨i, ha⟩, j, hb⟩
    exact ⟨u.name, ⟨i, u, hu, rfl, ha⟩, j, u, hu, rfl, hb⟩
  · rintro ⟨k, ⟨i, u, hu, rfl, ha⟩, j, v, hv, hname, hb⟩
    -- one name, so one class
    have heq := List.inj_on_of_nodup_map hnodup hv hu hname
    exact ⟨u, hu, ⟨i, ha⟩, j, heq ▸ hb⟩

/-- The others among the users of a type. -/
private theorem mem_others {users : OrdSet String}
    {refs : ClassUsage → List String} {k : String}
    (husers : k ∈ users ↔ ∃ u ∈ us, u.name = k ∧ t ∈ refs u) :
    k ∈ users.filter (· ≠ t)
      ↔ k ≠ t ∧ ∃ u ∈ us, u.name = k ∧ t ∈ refs u := by
  rw [OrdSet.mem_filter, decide_eq_true_eq, husers, and_comm]

/-- A name that is no type of the graph. -/
structure Ignores (e : Evidence) (p : String) : Prop where
  types : ∀ slot u, p ∉ e.typesOf slot u
  users : ∀ slot u, u ∉ e.usersOf slot p
  referenced : ∀ u, p ∉ e.referencedTypes u
  coOccurring : ∀ a, p ∉ e.coOccurring a ∧ a ∉ e.coOccurring p

/-- The graph holds what the descriptors of a snapshot's classes say. -/
structure Faithful (settings : Settings) (s : Snapshot) (e : Evidence) :
    Prop where
  inverse : ∀ slot t u, u ∈ e.usersOf slot t ↔ t ∈ e.typesOf slot u
  types_iff : ∀ slot t u, t ∈ e.typesOf slot u
    ↔ (∃ c ∈ s.classes, c.name = u ∧ t ∈ c.namesIn slot)
      ∧ settings.isPlatform t = false
  coOccurring_symm : ∀ a b, b ∈ e.coOccurring a → a ∈ e.coOccurring b
  coOccurring_irrefl : ∀ a, a ∉ e.coOccurring a
  coOccurring_iff : ∀ a b, b ∈ e.coOccurring a ↔ a ≠ b
    ∧ ∃ u, (∃ slot, a ∈ e.typesOf slot u) ∧ ∃ slot, b ∈ e.typesOf slot u
  fieldCounts : s.Counted settings .field e.selfFieldRefs e.externalFieldRefs
    e.externalFieldUsers
  paramCounts : s.Counted settings .param e.selfParamRefs e.externalParamRefs
    e.externalParamUsers
  /-- Platform classes leave no evidence. -/
  platform : ∀ p, settings.isPlatform p = true → e.Ignores p

/-- No platform name is a type of the graph. -/
theorem ignores_platform (hnodup : s.names.Nodup)
    (hp : settings.isPlatform p = true) :
    (ofUsages (usages settings s)).Ignores p := by
  have hnot (slot : Slot) (u : String) :
      p ∉ (ofUsages (usages settings s)).typesOf slot u := by
    intro h
    have hplatform := ((mem_typesOf_iff hnodup).1 h).2
    rw [hp] at hplatform
    cases hplatform
  rw [← Index.names_usages settings] at hnodup
  refine
    { types := hnot
      users := fun slot u h => hnot slot u ((mem_usersOf_iff hnodup).1 h)
      referenced := fun u h => ?_
      coOccurring := fun a => ⟨fun h => ?_, fun h => ?_⟩ }
  · obtain ⟨-, slot, h⟩ := mem_referencedTypes.1 h
    exact hnot slot u h
  · obtain ⟨-, u, -, slot, h⟩ := (mem_coOccurring_iff hnodup).1 h
    exact hnot slot u h
  · obtain ⟨-, u, ⟨slot, h⟩, -⟩ := (mem_coOccurring_iff hnodup).1 h
    exact hnot slot u h

/-- The graph of a snapshot whose classes have different names. -/
theorem faithful_usages (settings : Settings) (hnodup : s.names.Nodup) :
    (ofUsages (usages settings s)).Faithful settings s := by
  have hnodup' := hnodup
  rw [← Index.names_usages settings] at hnodup'
  refine
    { inverse := fun slot t u => mem_usersOf_iff hnodup'
      types_iff := fun slot t u => mem_typesOf_iff hnodup
      coOccurring_symm := fun a b h => ?_
      coOccurring_irrefl := fun a h =>
        ((mem_coOccurring_iff hnodup').1 h).1 rfl
      coOccurring_iff := fun a b => mem_coOccurring_iff hnodup'
      fieldCounts := ?_
      paramCounts := ?_
      platform := fun p hp => ignores_platform hnodup hp }
  · obtain ⟨hne, u, ha, hb⟩ := (mem_coOccurring_iff hnodup').1 h
    exact (mem_coOccurring_iff hnodup').2 ⟨hne.symm, u, hb, ha⟩
  · exact counted_usages hnodup
      (fun u hu => selfFieldRefs_ofUsages hnodup' hu)
      (fun t ht => selfFieldRefs_of_absent ht)
      (fun t => externalFieldRefs_ofUsages)
      (fun t k => mem_others (@mem_usersOf _ t k .field))
  · exact counted_usages hnodup
      (fun u hu => selfParamRefs_ofUsages hnodup' hu)
      (fun t ht => selfParamRefs_of_absent ht)
      (fun t => externalParamRefs_ofUsages)
      (fun t k => mem_others (@mem_usersOf _ t k .param))

/-- The graph of a valid snapshot, as plain values. -/
theorem build_eq_ok (settings : Settings) (h : s.Valid) :
    build settings s = .ok (ofUsages (usages settings s)) :=
  Outcome.bind_eq_ok_iff.2 ⟨_, Outcome.mapM_eq_ok_map fun c hc =>
    ClassUsage.scan_eq_ok settings (h.classes c hc).readable, rfl⟩

/-- The graph of an accepted snapshot can be built, the analysis of the
snapshot has the same graph, and it holds what the descriptors of the
classes say. -/
theorem build_faithful (settings : Settings) (classes : List ClassDecl)
    (s : Snapshot) (h : Snapshot.ofClasses classes = .ok s) :
    ∃ x, Index.build settings s = .ok x
      ∧ build settings s = .ok x.evidence
      ∧ x.evidence.Faithful settings s := by
  have hvalid := (Snapshot.ofClasses_eq_ok_iff.1 h).2
  exact ⟨_, Index.build_eq_ok settings hvalid, build_eq_ok settings hvalid,
    faithful_usages settings hvalid.distinct⟩

end Evidence

-- ============================================================= a sample

namespace Sample

/-- Two classes that hold each other, arrays, a class that is not there
and a class of the platform. -/
def web : List ClassDecl :=
  [ { name := "a"
      kind := .plain
      superName := none
      interfaces := []
      fields := [⟨"f", "Lb;", false, false⟩, ⟨"g", "[Lb;", false, false⟩,
        ⟨"h", "Ljava/lang/String;", false, false⟩]
      methods := [⟨"m", "(La;Lc;)[[Ld;", false, false, []⟩] },
    { name := "b"
      kind := .plain
      superName := none
      interfaces := []
      fields := [⟨"f", "La;", false, false⟩, ⟨"g", "[Lb;", true, true⟩]
      methods := [] } ]

end Sample

namespace Evidence

theorem build_faithful_web :
    ∃ x, Index.build .default ⟨Sample.web⟩ = .ok x
      ∧ build .default ⟨Sample.web⟩ = .ok x.evidence
      ∧ x.evidence.Faithful .default ⟨Sample.web⟩ :=
  build_faithful .default Sample.web ⟨Sample.web⟩ rfl

end Evidence

end SymbolMatch
