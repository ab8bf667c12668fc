/-
Which fields are siblings.

The methods of each field are turned around into the fields of each
method, and these are paired with each other, method by method. Both steps
add references to a map of sets, so both come to a list of references that
are taken in at once: `turned` lists the uses of fields from the side of
the methods, `paired` the pairs of different fields that a method has. What
a map of sets holds is then read off the list it was made of, once for all
(`mem_methodsUsing_ofRefs`, `mem_users_ofRefs`).

A reference that is taken in leaves a set that is not empty, so a field
without siblings has no entry.
-/
import SymbolMatch.Proofs.Access.Usage

namespace SymbolMatch.FieldUsage

variable {refs refs' : List (Member × Member)} {u : FieldUsage}
  {a b m field : Member}

-- ============================================================ references

theorem mem_keys_absorb {users : OrdMap Member (OrdSet Member)}
    {ref : Member × Member} :
    a ∈ (absorb users ref).keys ↔ a = ref.1 ∨ a ∈ users.keys := by
  unfold absorb
  rw [OrdMap.mem_keys_iff, OrdMap.mem_keys_iff, OrdMap.get?_alter]
  by_cases ha : a = ref.1
  · simp [ha]
  · simp [ha]

/-- A key has an entry if there is a reference of it. -/
theorem mem_users_ofRefs :
    a ∈ (ofRefs refs).users.keys ↔ ∃ m, (a, m) ∈ refs := by
  have key (users : OrdMap Member (OrdSet Member)) :
      a ∈ (refs.foldl absorb users).keys
        ↔ (∃ m, (a, m) ∈ refs) ∨ a ∈ users.keys := by
    induction refs generalizing users with
    | nil => simp
    | cons ref rest ih =>
      rw [List.foldl_cons, ih, mem_keys_absorb]
      simp only [List.mem_cons, Prod.ext_iff]
      grind
  refine (key {}).trans (or_iff_left ?_)
  rw [OrdMap.mem_keys_iff]
  simp

/-- What a list of references amounts to depends on its members alone. -/
theorem ofRefs_eq_of_mem_iff (h : ∀ r, r ∈ refs' ↔ r ∈ refs) :
    ofRefs refs' = ofRefs refs := by
  have husers : (ofRefs refs').users = (ofRefs refs).users := by
    refine OrdMap.ext_getD {} (fun a => ?_) fun a => OrdSet.ext fun m => ?_
    · rw [mem_users_ofRefs, mem_users_ofRefs]
      simp only [h]
    · exact mem_methodsUsing_ofRefs.trans
        ((h _).trans mem_methodsUsing_ofRefs.symm)
  exact congrArg FieldUsage.mk husers

-- ============================================================ both steps

/-- The uses of fields, from the side of the methods. -/
def turned (u : FieldUsage) : List (Member × Member) :=
  u.users.entries.flatMap fun e => e.2.elements.map fun m => (m, e.1)

theorem mem_turned : (m, field) ∈ u.turned ↔ m ∈ u.methodsUsing field := by
  unfold turned methodsUsing
  rw [OrdMap.mem_getD_iff]
  simp only [List.mem_flatMap, List.mem_map, Prod.mk.injEq,
    OrdMap.get?_eq_some_iff]
  constructor
  · rintro ⟨⟨_, s⟩, he, _, hm, rfl, rfl⟩
    exact ⟨s, he, hm⟩
  · rintro ⟨s, he, hm⟩
    exact ⟨(field, s), he, m, hm, rfl, rfl⟩

theorem fieldsByMethod_eq (u : FieldUsage) :
    u.fieldsByMethod = (ofRefs u.turned).users := by
  unfold fieldsByMethod ofRefs turned
  rw [List.foldl_flatMap]
  simp only [List.foldl_map]

/-- The fields of a method are those that it uses. -/
theorem mem_fieldsByMethod :
    field ∈ u.fieldsByMethod.getD m {} ↔ m ∈ u.methodsUsing field := by
  rw [fieldsByMethod_eq]
  exact mem_methodsUsing_ofRefs.trans mem_turned

/-- The pairs of different fields in a set. -/
def paired (fields : OrdSet Member) : List (Member × Member) :=
  fields.elements.flatMap fun a =>
    (fields.elements.filter fun b => a ≠ b).map fun b => (a, b)

theorem mem_paired {fields : OrdSet Member} :
    (a, b) ∈ paired fields ↔ a ≠ b ∧ a ∈ fields ∧ b ∈ fields := by
  unfold paired
  simp only [List.mem_flatMap, List.mem_map, List.mem_filter,
    decide_eq_true_eq, Prod.mk.injEq]
  constructor
  · rintro ⟨_, ha, _, ⟨hb, hne⟩, rfl, rfl⟩
    exact ⟨hne, ha, hb⟩
  · rintro ⟨hne, ha, hb⟩
    exact ⟨a, ha, b, ⟨hb, hne⟩, rfl, rfl⟩

theorem pairUp_eq :
    pairUp = fun acc fields => (paired fields).foldl absorb acc := by
  funext acc fields
  unfold pairUp paired
  rw [List.foldl_flatMap]
  simp only [List.foldl_map, List.foldl_filter, decide_eq_true_eq, ite_not]

theorem siblings_eq (u : FieldUsage) :
    u.siblings = (ofRefs (u.fieldsByMethod.values.flatMap paired)).users := by
  unfold siblings ofRefs
  rw [List.foldl_flatMap, pairUp_eq]

/-- Two fields are paired if they differ and some method uses both. -/
theorem mem_flatMap_paired :
    (a, b) ∈ u.fieldsByMethod.values.flatMap paired
      ↔ a ≠ b ∧ ∃ m, m ∈ u.methodsUsing a ∧ m ∈ u.methodsUsing b := by
  unfold OrdMap.values
  simp only [List.mem_flatMap, List.mem_map, mem_paired, ← mem_fieldsByMethod]
  constructor
  · rintro ⟨s, ⟨⟨m, _⟩, he, rfl⟩, hne, ha, hb⟩
    have hs := OrdMap.get?_eq_some_iff.2 he
    exact ⟨hne, m, OrdMap.mem_getD_iff.2 ⟨_, hs, ha⟩,
      OrdMap.mem_getD_iff.2 ⟨_, hs, hb⟩⟩
  · rintro ⟨hne, m, ha, hb⟩
    obtain ⟨s, hs, ha⟩ := OrdMap.mem_getD_iff.1 ha
    obtain ⟨s', hs', hb⟩ := OrdMap.mem_getD_iff.1 hb
    -- a method has one set of fields
    cases hs.symm.trans hs'
    exact ⟨s, ⟨(m, s), OrdMap.get?_eq_some_iff.1 hs, rfl⟩, hne, ha, hb⟩

-- =========================================================== the theorem

/-- Some method refers to both of two different fields. -/
def Together (refs : List (Member × Member)) (a b : Member) : Prop :=
  a ≠ b ∧ ∃ m, (a, m) ∈ refs ∧ (b, m) ∈ refs

theorem mem_siblings_ofRefs :
    b ∈ (ofRefs refs).siblings.getD a {} ↔ Together refs a b := by
  rw [siblings_eq]
  refine mem_methodsUsing_ofRefs.trans ?_
  rw [mem_flatMap_paired]
  simp only [mem_methodsUsing_ofRefs]
  rfl

theorem mem_keys_siblings_ofRefs :
    a ∈ (ofRefs refs).siblings.keys ↔ ∃ b, Together refs a b := by
  rw [siblings_eq, mem_users_ofRefs]
  simp only [mem_flatMap_paired, mem_methodsUsing_ofRefs]
  rfl

/-- The siblings of a field are the other fields that some method refers
to together with it. So the relation goes both ways, a field has an entry
just if it has a sibling, and neither the order of the references nor
their number counts. -/
theorem siblings_exact (refs : List (Member × Member)) :
    (∀ a b, (∃ s, (ofRefs refs).siblings.get? a = some s ∧ b ∈ s)
      ↔ a ≠ b ∧ ∃ m, (a, m) ∈ refs ∧ (b, m) ∈ refs)
      ∧ (∀ a b, b ∈ (ofRefs refs).siblings.getD a {}
        ↔ a ∈ (ofRefs refs).siblings.getD b {})
      ∧ (∀ a, a ∈ (ofRefs refs).siblings.keys
        ↔ ∃ b, b ∈ (ofRefs refs).siblings.getD a {})
      ∧ ∀ refs', (∀ r, r ∈ refs' ↔ r ∈ refs) →
        (ofRefs refs').siblings = (ofRefs refs).siblings := by
  refine ⟨fun a b => ?_, fun a b => ?_, fun a => ?_, fun refs' h => ?_⟩
  · rw [← OrdMap.mem_getD_iff, mem_siblings_ofRefs]
    rfl
  · rw [mem_siblings_ofRefs, mem_siblings_ofRefs]
    unfold Together
    simp only [ne_comm, and_comm]
  · rw [mem_keys_siblings_ofRefs]
    simp only [mem_siblings_ofRefs]
  · rw [ofRefs_eq_of_mem_iff h]

end SymbolMatch.FieldUsage

namespace SymbolMatch

namespace Sample

/-- A field of one class. -/
def fieldOf (name : String) : Member := ⟨"ab", name, "I"⟩

/-- A method of that class. -/
def methodOf (name : String) : Member := ⟨"ab", name, "()V"⟩

/-- Two methods with two fields each, one of them in common, and a third
with a field of its own. One reference is made twice. -/
def chain : List (Member × Member) :=
  [(fieldOf "a", methodOf "x"), (fieldOf "b", methodOf "x"),
   (fieldOf "a", methodOf "x"), (fieldOf "c", methodOf "y"),
   (fieldOf "b", methodOf "y"), (fieldOf "d", methodOf "z")]

end Sample

namespace FieldUsage

/-- The field in common is a sibling of the two others, which are none of
each other's, and the field that stands alone has no entry. Without the
second mention and in another order the references say the same. -/
theorem siblings_exact_chain :
    (∃ s, (ofRefs Sample.chain).siblings.get? (Sample.fieldOf "a") = some s
        ∧ Sample.fieldOf "b" ∈ s)
      ∧ Sample.fieldOf "c" ∈
        (ofRefs Sample.chain).siblings.getD (Sample.fieldOf "b") {}
      ∧ (¬∃ s, (ofRefs Sample.chain).siblings.get? (Sample.fieldOf "a") = some s
        ∧ Sample.fieldOf "c" ∈ s)
      ∧ Sample.fieldOf "d" ∉ (ofRefs Sample.chain).siblings.keys
      ∧ (ofRefs Sample.chain.dedup.reverse).siblings
        = (ofRefs Sample.chain).siblings := by
  obtain ⟨hiff, hsymm, hkeys, hsame⟩ := siblings_exact Sample.chain
  refine ⟨(hiff _ _).2 ⟨by decide, Sample.methodOf "x", by decide, by decide⟩,
    (hsymm _ _).1 ?_, fun h => ?_, fun h => ?_, hsame _ fun r => ?_⟩
  · exact OrdMap.mem_getD_iff.2
      ((hiff _ _).2 ⟨by decide, Sample.methodOf "y", by decide, by decide⟩)
  · have hapart : ∀ r ∈ Sample.chain, r.1 = Sample.fieldOf "a" →
        (Sample.fieldOf "c", r.2) ∉ Sample.chain := by decide
    obtain ⟨-, m, ha, hc⟩ := (hiff _ _).1 h
    exact hapart _ ha rfl hc
  · have halone : ∀ r ∈ Sample.chain, r.1 = Sample.fieldOf "d" →
        ∀ r' ∈ Sample.chain, r'.2 = r.2 → r.1 = r'.1 := by decide
    obtain ⟨b, hb⟩ := (hkeys _).1 h
    obtain ⟨hne, m, hd, hm⟩ := (hiff _ _).1 (OrdMap.mem_getD_iff.1 hb)
    exact hne (halone _ hd rfl _ hm rfl)
  · rw [List.mem_reverse, List.mem_dedup]

end FieldUsage

end SymbolMatch
