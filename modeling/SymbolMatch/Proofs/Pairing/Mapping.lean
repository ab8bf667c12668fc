/-
When a list of matches is a mapping, and what the mapping then holds.
Matches with different old names and different new names make a mapping,
and it has exactly these matches, whatever their order.
-/
import SymbolMatch.Pairing.Mapping
import SymbolMatch.Proofs.Ordered.Map

namespace SymbolMatch.ClassMapping

variable {ms : List ClassMatch} {m : ClassMapping} {c : ClassMatch}
  {old : String}

/-- The mapping of matches under their old names. -/
def keyed (ms : List ClassMatch) : ClassMapping :=
  ⟨OrdMap.ofList (ms.map fun c => (c.old, c))⟩

/-- Adding matches that collide neither with each other nor with what is
there. -/
theorem extend_eq_ok {holders : OrdMap String String}
    {byOld : OrdMap String ClassMatch} (holds : (ms.map (·.old)).Nodup)
    (hnews : (ms.map (·.new)).Nodup)
    (hfreeOld : ∀ c ∈ ms, byOld.get? c.old = none)
    (hfreeNew : ∀ c ∈ ms, holders.get? c.new = none) :
    extend holders byOld ms
      = .ok ⟨ms.foldl (fun m c => m.insert c.old c) byOld⟩ := by
  induction ms generalizing holders byOld with
  | nil => rfl
  | cons c rest ih =>
    rw [List.map_cons, List.nodup_cons] at holds hnews
    have hold : byOld.contains c.old = false :=
      OrdMap.contains_eq_false_iff.2 (hfreeOld c List.mem_cons_self)
    unfold extend
    rw [hfreeNew c List.mem_cons_self]
    simp only [hold, Bool.false_eq_true, if_false]
    refine ih holds.2 hnews.2 (fun d hd => ?_) fun d hd => ?_
    · have hne : d.old ≠ c.old := fun h =>
        holds.1 (List.mem_map.2 ⟨d, hd, h⟩)
      rw [OrdMap.get?_insert_of_ne _ _ hne]
      exact hfreeOld d (List.mem_cons_of_mem _ hd)
    · have hne : d.new ≠ c.new := fun h =>
        hnews.1 (List.mem_map.2 ⟨d, hd, h⟩)
      rw [OrdMap.get?_insert_of_ne _ _ hne]
      exact hfreeNew d (List.mem_cons_of_mem _ hd)

/-- Matches with different old names and different new names make a
mapping. -/
theorem ofMatches_eq_ok (holds : (ms.map (·.old)).Nodup)
    (hnews : (ms.map (·.new)).Nodup) : ofMatches ms = .ok (keyed ms) := by
  unfold ofMatches keyed OrdMap.ofList
  rw [extend_eq_ok holds hnews (fun _ _ => rfl) (fun _ _ => rfl),
    List.foldl_map]
  rfl

private theorem nodup_keys_keyed (holds : (ms.map (·.old)).Nodup) :
    ((ms.map fun c => (c.old, c)).map (·.1)).Nodup := by
  rw [List.map_map]
  exact holds

/-- The order of the matches does not matter. -/
theorem keyed_eq_of_perm {ms' : List ClassMatch}
    (holds : (ms.map (·.old)).Nodup) (hp : ms.Perm ms') :
    keyed ms = keyed ms' := by
  unfold keyed
  rw [OrdMap.ofList_eq_of_perm (nodup_keys_keyed holds) (hp.map _)]

/-- The match of an old class is the one that was given for it. -/
theorem get?_keyed (holds : (ms.map (·.old)).Nodup) :
    (keyed ms).get? old = some c ↔ c ∈ ms ∧ c.old = old := by
  unfold get? keyed
  rw [OrdMap.get?_ofList (nodup_keys_keyed holds), List.mem_map]
  constructor
  · rintro ⟨d, hd, heq⟩
    cases heq
    exact ⟨hd, rfl⟩
  · rintro ⟨hc, rfl⟩
    exact ⟨c, hc, rfl⟩

/-- The mapping holds the matches it was made of. -/
theorem toList_keyed_perm (holds : (ms.map (·.old)).Nodup) :
    (keyed ms).toList.Perm ms := by
  have hp := (OrdMap.entries_ofList_perm (nodup_keys_keyed holds)).map (·.2)
  rw [List.map_map] at hp
  exact hp.trans (List.Perm.of_eq (List.map_id ms))

theorem size_keyed (holds : (ms.map (·.old)).Nodup) :
    (keyed ms).size = ms.length := by
  have hp := OrdMap.entries_ofList_perm (nodup_keys_keyed holds)
  exact hp.length_eq.trans (List.length_map _)

end SymbolMatch.ClassMapping
