/-
Which lists of matches make a mapping, and what is said of the others.

A list is gone through once, with two maps: the old class that holds each
target, and the matches by old name. `Records` says what the two maps hold
when some matches have been taken in. A match that is free on both sides
is recorded (`Records.step`). One that is not collides with a match before
it, and what the maps hold says with which. So the pass ends in one of two
ways: all names on either side are different, or there is a first match
that collides (`Records.extend_cases`).

That a list makes a mapping thus depends on its names alone and not on its
order. The order decides only which of several collisions is reported.
-/
import SymbolMatch.Pairing.Report
import SymbolMatch.Proofs.Pairing.Mapping

namespace SymbolMatch.ClassMapping

variable {before ms : List ClassMatch} {c : ClassMatch} {m : ClassMapping}
  {holders : OrdMap String String} {byOld : OrdMap String ClassMatch}
  {old new : String} {fault : Fault}

-- ============================================================ collisions

/-- No old class twice and no new class twice. -/
structure Distinct (ms : List ClassMatch) : Prop where
  olds : (ms.map (·.old)).Nodup
  news : (ms.map (·.new)).Nodup

/-- How a match collides with those before it, and what is reported: the
class that holds its target, or else that its own class has a match. -/
inductive Collides (before : List ClassMatch) (c : ClassMatch) : Fault → Prop
  | sharedTarget (d : ClassMatch) (hd : d ∈ before) (hnew : d.new = c.new) :
    Collides before c (.sharedTarget d.old c.old c.new)
  | repeatedSource (d : ClassMatch) (hd : d ∈ before) (hold : d.old = c.old)
    (hfree : ∀ e ∈ before, e.new ≠ c.new) :
    Collides before c (.repeatedSource c.old)

private theorem nodup_map_append {name : ClassMatch → String}
    (h : (before.map name).Nodup) (hc : ∀ d ∈ before, name d ≠ name c) :
    ((before ++ [c]).map name).Nodup := by
  rw [List.map_append, List.map_singleton, List.nodup_append]
  refine ⟨h, List.nodup_singleton _, ?_⟩
  intro x hx y hy
  obtain ⟨d, hd, rfl⟩ := List.mem_map.1 hx
  rw [List.mem_singleton.1 hy]
  exact hc d hd

-- ============================================================== the pass

/-- What the two maps hold when some matches have been taken in. -/
structure Records (before : List ClassMatch) (holders : OrdMap String String)
    (byOld : OrdMap String ClassMatch) : Prop where
  distinct : Distinct before
  holder_iff : ∀ new old, holders.get? new = some old
    ↔ ∃ d ∈ before, d.new = new ∧ d.old = old
  source_iff : ∀ old, byOld.contains old = true ↔ ∃ d ∈ before, d.old = old

theorem records_nil : Records [] {} {} where
  distinct := ⟨List.nodup_nil, List.nodup_nil⟩
  holder_iff _ _ := by simp
  source_iff _ := by
    unfold OrdMap.contains
    simp

namespace Records

theorem ne_new (h : Records before holders byOld)
    (hfree : holders.get? c.new = none) : ∀ d ∈ before, d.new ≠ c.new := by
  intro d hd hnew
  rw [(h.holder_iff c.new d.old).2 ⟨d, hd, hnew, rfl⟩] at hfree
  cases hfree

/-- A match that is free on both sides is recorded. -/
theorem step (h : Records before holders byOld)
    (hnew : holders.get? c.new = none) (hold : byOld.contains c.old = false) :
    Records (before ++ [c]) (holders.insert c.new c.old)
      (byOld.insert c.old c) where
  distinct := by
    refine ⟨nodup_map_append h.distinct.olds fun d hd hsame => ?_,
      nodup_map_append h.distinct.news (h.ne_new hnew)⟩
    rw [(h.source_iff c.old).2 ⟨d, hd, hsame⟩] at hold
    cases hold
  holder_iff new old := by
    rw [OrdMap.get?_insert]
    simp only [List.mem_append, List.mem_singleton, or_and_right, exists_or,
      exists_eq_left]
    split
    · next heq =>
      -- the target was free, so the new match alone has it
      subst heq
      have hnone : ¬∃ d ∈ before, d.new = c.new ∧ d.old = old := by
        rintro ⟨d, hd, hsame, -⟩
        exact h.ne_new hnew d hd hsame
      simp [hnone]
    · next hne =>
      have hother : ¬(c.new = new ∧ c.old = old) := fun hsame =>
        hne hsame.1.symm
      rw [h.holder_iff]
      simp [hother]
  source_iff old := by
    rw [OrdMap.contains_iff, OrdMap.mem_keys_iff]
    simp only [List.mem_append, List.mem_singleton, or_and_right, exists_or,
      exists_eq_left]
    rw [← h.source_iff, OrdMap.contains_iff, OrdMap.mem_keys_iff,
      OrdMap.get?_insert]
    by_cases heq : old = c.old
    · simp [heq]
    · have hother : ¬c.old = old := fun hsame => heq hsame.symm
      simp [heq, hother]

/-- A match whose target is held collides with the holder. -/
theorem collides_target (h : Records before holders byOld)
    (hheld : holders.get? c.new = some old) :
    Collides before c (.sharedTarget old c.old c.new) := by
  obtain ⟨d, hd, hnew, rfl⟩ := (h.holder_iff c.new old).1 hheld
  exact .sharedTarget d hd hnew

/-- A match whose own class has a match collides with that match. -/
theorem collides_source (h : Records before holders byOld)
    (hnew : holders.get? c.new = none) (hold : byOld.contains c.old = true) :
    Collides before c (.repeatedSource c.old) := by
  obtain ⟨d, hd, hsame⟩ := (h.source_iff c.old).1 hold
  exact .repeatedSource d hd hsame (h.ne_new hnew)

/-- A pass has met different names only, or it has stopped at the first
match that collides. -/
theorem extend_cases (h : Records before holders byOld) (ms : List ClassMatch) :
    (Distinct (before ++ ms) ∧ ∃ m, extend holders byOld ms = .ok m)
      ∨ ∃ mid c after fault, ms = mid ++ c :: after ∧ Distinct (before ++ mid)
        ∧ Collides (before ++ mid) c fault
        ∧ extend holders byOld ms = .error fault := by
  induction ms generalizing before holders byOld with
  | nil =>
    rw [List.append_nil]
    exact .inl ⟨h.distinct, _, rfl⟩
  | cons c rest ih =>
    have hstart : Distinct (before ++ []) := by
      rw [List.append_nil]
      exact h.distinct
    unfold extend
    cases hnew : holders.get? c.new with
    | some old =>
      have hcollides := h.collides_target hnew
      rw [← List.append_nil before] at hcollides
      exact .inr ⟨[], c, rest, _, rfl, hstart, hcollides, rfl⟩
    | none =>
      cases hold : byOld.contains c.old with
      | true =>
        have hcollides := h.collides_source hnew hold
        rw [← List.append_nil before] at hcollides
        exact .inr ⟨[], c, rest, _, rfl, hstart, hcollides, rfl⟩
      | false =>
        -- the match is recorded and the pass goes on
        have hrest := ih (h.step hnew hold)
        simp only [List.append_assoc, List.singleton_append] at hrest
        rcases hrest with hok | ⟨mid, d, after, fault, rfl, hrest⟩
        · exact .inl hok
        · exact .inr ⟨c :: mid, d, after, fault, rfl, hrest⟩

end Records

theorem exists_ofMatches_iff :
    (∃ m, ofMatches ms = .ok m) ↔ Distinct ms := by
  constructor
  · rintro ⟨m, hm⟩
    rcases records_nil.extend_cases ms with ⟨hdistinct, -⟩ | hfault
    · exact hdistinct
    · obtain ⟨mid, c, after, fault, -, -, -, herror⟩ := hfault
      cases hm.symm.trans herror
  · intro h
    exact ⟨_, ofMatches_eq_ok h.olds h.news⟩

theorem collides_of_ofMatches (h : ofMatches ms = .error fault) :
    ∃ before c after, ms = before ++ c :: after ∧ Distinct before
      ∧ Collides before c fault := by
  rcases records_nil.extend_cases ms with ⟨-, m, hok⟩ | hfault
  · cases h.symm.trans hok
  · obtain ⟨mid, c, after, fault', hsplit, hdistinct, hcollides, herror⟩ := hfault
    cases h.symm.trans herror
    exact ⟨mid, c, after, hsplit, hdistinct, hcollides⟩

theorem eq_keyed_of_ofMatches (h : ofMatches ms = .ok m) :
    Distinct ms ∧ m = keyed ms := by
  have hdistinct := exists_ofMatches_iff.1 ⟨m, h⟩
  rw [ofMatches_eq_ok hdistinct.olds hdistinct.news] at h
  cases h
  exact ⟨hdistinct, rfl⟩

theorem Fault.message_eq (fault : Fault) :
    ∃ rest, fault.message = "Mapping collision: " ++ rest := by
  cases fault with
  | sharedTarget first second target =>
    refine ⟨first ++ (" and " ++ (second ++ (" both map to " ++ target))), ?_⟩
    unfold message
    simp only [← String.append_assoc]
  | repeatedSource old =>
    refine ⟨old ++ " mapped twice", ?_⟩
    unfold message
    simp only [← String.append_assoc]

-- =========================================================== the mapping

/-- The matches of a mapping come in increasing order of their old
names. -/
theorem toList_keyed_sorted (holds : (ms.map (·.old)).Nodup) :
    (keyed ms).toList.Pairwise fun a b => compare a.old b.old = .lt := by
  unfold toList OrdMap.values
  rw [List.pairwise_map]
  refine (keyed ms).byOld.sorted.imp_of_mem ?_
  intro e e' he he' hlt
  have hkey {e : String × ClassMatch} (he : e ∈ (keyed ms).byOld.entries) :
      e.2.old = e.1 := ((get?_keyed holds).1 (OrdMap.get?_eq_some_iff.2 he)).2
  rw [hkey he, hkey he']
  exact hlt

/-- The names of a mapping are those of its matches. -/
theorem get?_names_keyed (holds : (ms.map (·.old)).Nodup) :
    (keyed ms).names.get? old = some new
      ↔ ∃ c ∈ ms, c.old = old ∧ c.new = new := by
  have hperm := toList_keyed_perm holds
  have hkeys : (((keyed ms).toList.map fun c => (c.old, c.new)).map
      (·.1)).Nodup := by
    rw [List.map_map]
    exact (hperm.map _).nodup_iff.2 holds
  unfold names
  rw [OrdMap.get?_ofList hkeys, List.mem_map]
  simp only [hperm.mem_iff, Prod.mk.injEq]

/-- A list of matches makes a mapping exactly if no old name and no new
name comes twice. Otherwise the first match that collides is reported. The
mapping has the matches as they are, under their old names and in the
order of these; it takes no two classes to one, and is the same for every
order of the list. -/
theorem ofMatches_exact (ms : List ClassMatch) :
    ((∃ m, ofMatches ms = .ok m)
      ↔ (ms.map (·.old)).Nodup ∧ (ms.map (·.new)).Nodup)
      ∧ (∀ fault, ofMatches ms = .error fault →
        (∃ rest, fault.message = "Mapping collision: " ++ rest)
        ∧ ∃ before c after, ms = before ++ c :: after
          ∧ (∃ m, ofMatches before = .ok m) ∧ Collides before c fault)
      ∧ ∀ m, ofMatches ms = .ok m →
        (∀ old c, m.get? old = some c ↔ c ∈ ms ∧ c.old = old)
        ∧ (m.toList.Perm ms
          ∧ m.toList.Pairwise fun a b => compare a.old b.old = .lt)
        ∧ (∀ old new, m.names.get? old = some new
          ↔ ∃ c ∈ ms, c.old = old ∧ c.new = new)
        ∧ (∀ old old' new, m.names.get? old = some new →
          m.names.get? old' = some new → old = old')
        ∧ ∀ ms', ms'.Perm ms → ∃ m', ofMatches ms' = .ok m' ∧ m' = m
          ∧ m'.toJson = m.toJson ∧ m'.digest = m.digest := by
  refine ⟨exists_ofMatches_iff.trans ⟨fun h => ⟨h.olds, h.news⟩,
    fun h => ⟨h.1, h.2⟩⟩, fun fault herror => ⟨fault.message_eq, ?_⟩, ?_⟩
  · obtain ⟨before, c, after, hsplit, hdistinct, hcollides⟩ :=
      collides_of_ofMatches herror
    exact ⟨before, c, after, hsplit, exists_ofMatches_iff.2 hdistinct,
      hcollides⟩
  · intro m hm
    obtain ⟨⟨holds, hnews⟩, rfl⟩ := eq_keyed_of_ofMatches hm
    refine ⟨fun old c => get?_keyed holds,
      ⟨toList_keyed_perm holds, toList_keyed_sorted holds⟩,
      fun old new => get?_names_keyed holds, ?_, ?_⟩
    · intro old old' new hold hold'
      obtain ⟨c, hc, rfl, hnew⟩ := (get?_names_keyed holds).1 hold
      obtain ⟨d, hd, rfl, hnew'⟩ := (get?_names_keyed holds).1 hold'
      rw [List.inj_on_of_nodup_map hnews hc hd (hnew.trans hnew'.symm)]
    · intro ms' hperm
      have holds' := (hperm.map (·.old)).nodup_iff.2 holds
      have hnews' := (hperm.map (·.new)).nodup_iff.2 hnews
      have hsame := keyed_eq_of_perm holds' hperm
      refine ⟨_, ofMatches_eq_ok holds' hnews', hsame, ?_, ?_⟩
      · rw [hsame]
      · rw [hsame]

end SymbolMatch.ClassMapping

namespace SymbolMatch

namespace Sample

/-- Names that change places, the later one first. -/
def crossing : List ClassMatch := [.supplied "eb" "ab", .supplied "ab" "eb"]

/-- The last match has the old name and the new name of the first. -/
def repeated : List ClassMatch :=
  [.supplied "eb" "dn", .supplied "ab" "xy", .supplied "eb" "dn"]

end Sample

namespace ClassMapping

/-- Two names that change places make a mapping in either order. A match
that is given twice is refused for its target. -/
theorem ofMatches_exact_crossing :
    (∃ m, ofMatches Sample.crossing = .ok m
      ∧ ofMatches Sample.crossing.reverse = .ok m
      ∧ m.get? "eb" = some (.supplied "eb" "ab")
      ∧ m.names.get? "ab" = some "eb")
      ∧ ∃ before c after, Sample.repeated = before ++ c :: after
        ∧ (∃ m, ofMatches before = .ok m)
        ∧ Collides before c (.sharedTarget "eb" "eb" "dn") := by
  constructor
  · obtain ⟨hiff, -, hok⟩ := ofMatches_exact Sample.crossing
    obtain ⟨m, hm⟩ := hiff.2 (by decide)
    obtain ⟨hget, -, hnames, -, hperm⟩ := hok m hm
    obtain ⟨m', hm', rfl, -⟩ := hperm _ (List.reverse_perm _)
    refine ⟨_, hm, hm', (hget _ _).2 ⟨List.mem_cons_self, rfl⟩, ?_⟩
    exact (hnames _ _).2 ⟨_, List.mem_cons_of_mem _ List.mem_cons_self, rfl, rfl⟩
  · have herror : ofMatches Sample.repeated
        = .error (.sharedTarget "eb" "eb" "dn") := rfl
    exact ((ofMatches_exact Sample.repeated).2.1 _ herror).2

end ClassMapping

end SymbolMatch
