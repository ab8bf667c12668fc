/-
Tables and reports under other names: old names are replaced through one
function, new names through another. A table is in play on a set of old
names and a set of new names (`Within`); as long as the functions keep
these apart, every lookup and every change of the renamed table is the
renamed lookup or change.
-/
import SymbolMatch.Pairing.Report
import SymbolMatch.Proofs.Ordered.Relabel
import SymbolMatch.Proofs.Pairing.Mapping
import SymbolMatch.Proofs.Pairing.Table

namespace SymbolMatch

variable {g f : String → String}

-- ============================================================= tables

def Claim.relabel (f : String → String) (c : Claim) : Claim :=
  ⟨f c.target, c.score, c.origin⟩

namespace Table

variable {s u : Set String} {t : Table} {old new : String}
  {score : Binary64} {origin : Origin}

/-- A table with its old names and its new names replaced. -/
def relabel (g f : String → String) (t : Table) : Table where
  forward := t.forward.relabel g (Claim.relabel f)
  backward := t.backward.relabel f g

/-- Both directions hold the same pairs, and they are pairs of the given
names. -/
structure Within (s u : Set String) (t : Table) : Prop where
  twoWay : t.TwoWay
  pairs : ∀ old new, t.newOf? old = some new → old ∈ s ∧ new ∈ u

namespace Within

theorem forward_keys (ht : t.Within s u) : ∀ k ∈ t.forward.keys, k ∈ s := by
  intro k hk
  obtain ⟨c, hc⟩ := OrdMap.mem_keys_iff.1 hk
  exact (ht.pairs k c.target (newOf?_eq_some_iff.2 ⟨c, hc, rfl⟩)).1

theorem backward_keys (ht : t.Within s u) :
    ∀ k ∈ t.backward.keys, k ∈ u := by
  intro k hk
  obtain ⟨old, hold⟩ := OrdMap.mem_keys_iff.1 hk
  exact (ht.pairs old k ((ht.twoWay old k).2 hold)).2

theorem target_mem (ht : t.Within s u) {c : Claim}
    (h : t.get? old = some c) : c.target ∈ u :=
  (ht.pairs old c.target (newOf?_eq_some_iff.2 ⟨c, h, rfl⟩)).2

end Within

-- ---------------------------------------------------------- lookups

section Lookups

variable (hg : Set.InjOn g s) (hf : Set.InjOn f u) (ht : t.Within s u)
include ht

include hg in
theorem get?_relabel (hold : old ∈ s) :
    (t.relabel g f).get? (g old) = (t.get? old).map (Claim.relabel f) :=
  OrdMap.get?_relabel hg ht.forward_keys hold

include hg in
theorem newOf?_relabel (hold : old ∈ s) :
    (t.relabel g f).newOf? (g old) = (t.newOf? old).map f := by
  rw [newOf?_eq_map, newOf?_eq_map, get?_relabel hg ht hold,
    Option.map_map, Option.map_map]
  rfl

include hg in
theorem isMapped_relabel (hold : old ∈ s) :
    (t.relabel g f).isMapped (g old) = t.isMapped old :=
  OrdMap.contains_relabel hg ht.forward_keys hold

include hf in
theorem isClaimed_relabel (hnew : new ∈ u) :
    (t.relabel g f).isClaimed (f new) = t.isClaimed new :=
  OrdMap.contains_relabel hf ht.backward_keys hnew

include hg in
theorem isFixed_relabel (hold : old ∈ s) :
    (t.relabel g f).isFixed (g old) = t.isFixed old := by
  have hget : (t.relabel g f).forward.get? (g old)
      = (t.forward.get? old).map (Claim.relabel f) := get?_relabel hg ht hold
  unfold isFixed
  rw [hget]
  cases t.forward.get? old <;> rfl

include hg in
theorem entries_relabel_perm :
    (t.relabel g f).entries.Perm
      (t.entries.map fun e => (g e.1, e.2.relabel f)) :=
  OrdMap.entries_relabel_perm hg ht.forward_keys

include hg in
/-- The entries with a property come in the same order after renaming, if
the renaming keeps the order of their old names. -/
theorem filter_entries_relabel {p q : String × Claim → Bool}
    (hpq : ∀ e ∈ t.entries, q (g e.1, e.2.relabel f) = p e)
    (hlt : ∀ a ∈ t.entries, ∀ b ∈ t.entries, p a = true → p b = true →
      compare a.1 b.1 = .lt → compare (g a.1) (g b.1) = .lt) :
    (t.relabel g f).entries.filter q
      = (t.entries.filter p).map fun e => (g e.1, e.2.relabel f) := by
  have hp : ((t.relabel g f).entries.filter q).Perm
      ((t.entries.filter p).map fun e => (g e.1, e.2.relabel f)) := by
    refine ((entries_relabel_perm hg ht).filter q).trans ?_
    rw [List.filter_map]
    exact List.Perm.of_eq (congrArg _ (List.filter_congr hpq))
  -- both lists are sorted by old name, and so they are equal
  refine hp.eq_of_pairwise ?_ ((t.relabel g f).forward.sorted.filter q)
    (List.pairwise_map.2 ?_)
  · intro a b _ _ hab hba
    rw [Std.OrientedCmp.gt_of_lt hab] at hba
    cases hba
  · refine (List.Pairwise.filter p t.forward.sorted).imp_of_mem ?_
    intro a b ha hb hab
    obtain ⟨ha, hpa⟩ := List.mem_filter.1 ha
    obtain ⟨hb, hpb⟩ := List.mem_filter.1 hb
    exact hlt a ha b hb hpa hpb hab

end Lookups

-- ---------------------------------------------------------- changes

section Changes

variable (hg : Set.InjOn g s) (hf : Set.InjOn f u) (ht : t.Within s u)
  (hold : old ∈ s) (hnew : new ∈ u)
include hg hf ht hold hnew

theorem claim_relabel :
    (t.relabel g f).claim (g old) (f new) score origin
      = Prod.map id (relabel g f) (t.claim old new score origin) := by
  unfold claim
  rw [isMapped_relabel hg ht hold, isClaimed_relabel hf ht hnew]
  split
  · rfl
  · unfold relabel
    rw [Prod.map_apply, OrdMap.relabel_insert hg ht.forward_keys hold,
      OrdMap.relabel_insert hf ht.backward_keys hnew]
    rfl

theorem reassign_relabel :
    (t.relabel g f).reassign (g old) (f new) score origin
      = Prod.map id (relabel g f) (t.reassign old new score origin) := by
  have hget : (t.relabel g f).forward.get? (g old)
      = (t.forward.get? old).map (Claim.relabel f) := get?_relabel hg ht hold
  unfold reassign
  rw [isFixed_relabel hg ht hold, isClaimed_relabel hf ht hnew, hget]
  split
  · rfl
  · cases hc : t.forward.get? old with
    | none => rfl
    | some c =>
      have htarget : c.target ∈ u := ht.target_mem hc
      unfold relabel
      simp only [Option.map_some]
      rw [Prod.map_apply, OrdMap.relabel_insert hg ht.forward_keys hold,
        OrdMap.relabel_insert hf
          (OrdMap.keys_erase_subset ht.backward_keys) hnew,
        OrdMap.relabel_erase hf ht.backward_keys htarget]
      rfl

end Changes

/-- A renaming that keeps the names of all pairs. -/
theorem relabel_eq_self (htwo : t.TwoWay)
    (h : ∀ old new, t.newOf? old = some new → g old = old ∧ f new = new) :
    t.relabel g f = t := by
  have hforward : t.forward.relabel g (Claim.relabel f) = t.forward := by
    refine OrdMap.relabel_eq_self fun e he => ?_
    obtain ⟨hold, hnew⟩ := h e.1 e.2.target (newOf?_eq_some_iff.2
      ⟨e.2, mem_entries_iff.1 he, rfl⟩)
    refine ⟨hold, ?_⟩
    rw [Claim.relabel, hnew]
  have hbackward : t.backward.relabel f g = t.backward := by
    refine OrdMap.relabel_eq_self fun e he => ?_
    exact (h e.2 e.1 ((htwo e.2 e.1).2 (OrdMap.get?_eq_some_iff.2 he))).symm
  unfold relabel
  rw [hforward, hbackward]

end Table

-- ============================================================= reports

def ClassMatch.relabel (g f : String → String) (m : ClassMatch) :
    ClassMatch :=
  { m with old := g m.old, new := f m.new }

/-- A mapping with its old names and its new names replaced. -/
def ClassMapping.relabel (g f : String → String) (m : ClassMapping) :
    ClassMapping :=
  .keyed (m.toList.map (ClassMatch.relabel g f))

def SuspiciousPair.relabel (g f : String → String) (p : SuspiciousPair) :
    SuspiciousPair :=
  { p with old := g p.old, new := f p.new }

/-- A report with its old names and its new names replaced, and nothing
else. -/
def MatchReport.relabel (g f : String → String) (report : MatchReport) :
    MatchReport where
  mapping := report.mapping.relabel g f
  warnings := report.warnings.map (SuspiciousPair.relabel g f)
  stats := report.stats

/-- A renaming that keeps the old names apart loses no match. -/
theorem ClassMapping.toList_relabel_perm {ms : List ClassMatch}
    (holds : (ms.map (·.old)).Nodup)
    (hinj : Set.InjOn g { n | n ∈ ms.map (·.old) }) :
    ((keyed ms).relabel g f).toList.Perm
      ((keyed ms).toList.map (ClassMatch.relabel g f)) := by
  have hp := toList_keyed_perm holds
  refine toList_keyed_perm ?_
  have hnames : ((keyed ms).toList.map (ClassMatch.relabel g f)).map (·.old)
      = ((keyed ms).toList.map (·.old)).map g := by
    rw [List.map_map, List.map_map]
    rfl
  rw [hnames, ((hp.map _).map g).nodup_iff]
  exact holds.map_on fun a ha b hb heq => hinj ha hb heq

/-- The renaming that changes nothing. -/
theorem MatchReport.relabel_id {ms : List ClassMatch} {report : MatchReport}
    (hmapping : report.mapping = .keyed ms)
    (holds : (ms.map (·.old)).Nodup) : report.relabel id id = report := by
  have hmatch : ClassMatch.relabel id id = id := rfl
  have hpair : SuspiciousPair.relabel id id = id := rfl
  have hkeyed : report.mapping.relabel id id = report.mapping := by
    unfold ClassMapping.relabel
    rw [hmatch, List.map_id, hmapping]
    exact (ClassMapping.keyed_eq_of_perm holds
      (ClassMapping.toList_keyed_perm holds).symm).symm
  unfold MatchReport.relabel
  rw [hkeyed, hpair, List.map_id]

end SymbolMatch
