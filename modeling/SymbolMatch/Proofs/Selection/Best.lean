/-
The choice of a candidate: it is one of the candidates and scores above
the floor, it does not depend on the order of the candidates, and it
follows a renaming of them.

The order of the candidates enters in two places. The highest score is a
maximum, which has one rank for every order (`rank_topScore`), and only
its rank is used. Of the tied candidates the least one is taken, in an
order that tells candidates with different names apart. A renaming that
keeps the order of the names keeps this order too.
-/
import Mathlib.Data.List.Nodup
import SymbolMatch.Proofs.Number.Bounds
import SymbolMatch.Proofs.Ordered.Sort
import SymbolMatch.Selection.Best

set_option linter.unusedSectionVars false

namespace SymbolMatch

variable {ι ι' : Type} [Ord ι] [Std.TransOrd ι] [Std.LawfulEqOrd ι]
  [Ord ι'] [Std.TransOrd ι'] [Std.LawfulEqOrd ι']
  {floor margin : Binary64} {cs cs' : List (Scored ι)}

namespace Scored

-- ====================================================== the tied order

instance : Std.TransCmp (precedence : Scored ι → Scored ι → Ordering) :=
  inferInstanceAs (Std.TransCmp (compareLex
    (fun a b : Scored ι => Binary64.totalCompare b.similarity a.similarity)
    (compareOn Scored.id)))

/-- Candidates of one precedence have one name. -/
theorem id_eq_of_precedence {a b : Scored ι} (h : precedence a b = .eq) :
    a.id = b.id := by
  unfold precedence at h
  rw [Ordering.then_eq_eq] at h
  exact Std.LawfulEqOrd.eq_of_compare h.2

-- ==================================================== the highest score

theorem mem_eligible {c : Scored ι} :
    c ∈ eligible floor cs ↔ c ∈ cs ∧ floor < c.score := by
  unfold eligible
  rw [List.mem_filter, decide_eq_true_eq]

theorem mem_within {top : Binary64} {c : Scored ι} :
    c ∈ within margin top cs ↔ c ∈ cs ∧ top - c.score ≤ margin := by
  unfold within
  rw [List.mem_filter, decide_eq_true_eq]

theorem rank_topScore (hp : cs.Perm cs') :
    (topScore (eligible floor cs)).rank
      = (topScore (eligible floor cs')).rank := by
  unfold topScore
  refine Binary64.rank_foldl_max_eq_of_perm ?_ (by decide)
    ((hp.filter _).map _)
  intro y hy
  obtain ⟨c, hc, rfl⟩ := List.mem_map.1 hy
  exact Binary64.isNaN_of_lt (mem_eligible.1 hc).2

/-- Only the rank of the top score decides who is tied with it. -/
theorem within_eq_of_rank_eq {x y : Binary64} (h : x.rank = y.rank) :
    within margin x cs = within margin y cs := by
  unfold within
  refine List.filter_congr fun c _ => ?_
  rw [decide_eq_decide]
  exact Binary64.sub_le_iff_of_rank_eq h c.score margin

end Scored

-- ========================================================== the choice

open Scored in
/-- The chosen candidate is one of the candidates and scores above the
floor. -/
theorem mem_of_pickBest {choice : Choice ι}
    (h : pickBest cs floor margin = some choice) :
    choice.best ∈ cs ∧ floor < choice.best.score := by
  unfold pickBest at h
  simp only at h
  split at h
  · obtain ⟨best, hbest, rfl⟩ := Option.map_eq_some_iff.1 h
    exact mem_eligible.1 (mem_within.1 (mem_of_leastBy? hbest)).1
  · cases h

open Scored in
/-- A candidate that no other outscores, and that is more similar than
any other, is chosen: no tie is decided against it. -/
theorem pickBest_eq_best {c : Scored ι} (hc : c ∈ cs)
    (hfloor : floor < c.score) (hfinite : c.score.isFinite = true)
    (hmargin : 0 ≤ margin) (htop : ∀ d ∈ cs, d.score.AtMost c.score)
    (hsimilar : ∀ d ∈ cs, d ≠ c → d.similarity < c.similarity) :
    ∃ choice, pickBest cs floor margin = some choice ∧ choice.best = c := by
  have heligible : c ∈ eligible floor cs := mem_eligible.2 ⟨hc, hfloor⟩
  have hnumbers : ∀ y ∈ (eligible floor cs).map (·.score),
      y.isNaN = false := by
    intro y hy
    obtain ⟨d, hd, rfl⟩ := List.mem_map.1 hy
    exact Binary64.isNaN_of_lt (mem_eligible.1 hd).2
  have hrank : (topScore (eligible floor cs)).rank = c.score.rank := by
    refine Binary64.rank_foldl_max_eq hnumbers (by decide) ?_
      (List.mem_map.2 ⟨c, heligible, rfl⟩) ?_
    · exact Binary64.atMost_of_negInfinity rfl (by decide)
        (Binary64.isNaN_of_isFinite hfinite) (by decide)
    · intro y hy
      obtain ⟨d, hd, rfl⟩ := List.mem_map.1 hy
      exact htop d (mem_eligible.1 hd).1
        (hnumbers _ (List.mem_map.2 ⟨d, hd, rfl⟩))
  have htied : c ∈ within margin (topScore (eligible floor cs))
      (eligible floor cs) := by
    refine mem_within.2 ⟨heligible, ?_⟩
    rw [Binary64.sub_le_iff_of_rank_eq hrank,
      Binary64.sub_self_of_isFinite hfinite]
    exact hmargin
  unfold pickBest
  dsimp only
  rw [Binary64.isFinite_eq_of_rank_eq hrank, if_pos hfinite]
  cases hleast : leastBy? precedence (within margin
      (topScore (eligible floor cs)) (eligible floor cs)) with
  | none =>
    rw [leastBy?_eq_none_iff.1 hleast] at htied
    cases htied
  | some best =>
    refine ⟨_, rfl, ?_⟩
    by_contra hne
    have hbest := (mem_eligible.1 (mem_within.1 (mem_of_leastBy? hleast)).1).1
    have hlt : precedence c best = .lt := by
      unfold precedence
      rw [Binary64.totalCompare_of_lt (hsimilar best hbest hne)]
      rfl
    exact leastBy?_le hleast c htied (Std.OrientedCmp.gt_of_lt hlt)

/-- The same for candidates that are scored by their names. -/
theorem pickBest_map_eq_best {candidates : List ι}
    {score similarity : ι → Binary64} {n : ι} (hn : n ∈ candidates)
    (hfloor : floor < score n) (hfinite : (score n).isFinite = true)
    (hmargin : 0 ≤ margin) (htop : ∀ m ∈ candidates, (score m).AtMost (score n))
    (hsimilar : ∀ m ∈ candidates, m ≠ n → similarity m < similarity n) :
    ∃ choice, pickBest (candidates.map fun m => ⟨m, score m, similarity m⟩)
        floor margin = some choice
      ∧ choice.best = ⟨n, score n, similarity n⟩ := by
  refine pickBest_eq_best (List.mem_map.2 ⟨n, hn, rfl⟩) hfloor hfinite hmargin
    ?_ ?_
  · intro d hd
    obtain ⟨m, hm, rfl⟩ := List.mem_map.1 hd
    exact htop m hm
  · intro d hd hne
    obtain ⟨m, hm, rfl⟩ := List.mem_map.1 hd
    exact hsimilar m hm fun heq => hne (by rw [heq])

open Scored in
/-- The choice does not depend on the order of the candidates. -/
theorem pickBest_eq_of_perm (hid : (cs.map (·.id)).Nodup)
    (hp : cs.Perm cs') :
    pickBest cs floor margin = pickBest cs' floor margin := by
  have hrank : (topScore (eligible floor cs)).rank
      = (topScore (eligible floor cs')).rank := rank_topScore hp
  have htied : (within margin (topScore (eligible floor cs))
        (eligible floor cs)).Perm
      (within margin (topScore (eligible floor cs')) (eligible floor cs')) := by
    rw [within_eq_of_rank_eq hrank]
    exact (hp.filter _).filter _
  unfold pickBest
  simp only
  rw [Binary64.isFinite_eq_of_rank_eq hrank, htied.length_eq,
    leastBy?_eq_of_perm _ htied]
  intro a ha b hb hcmp
  exact List.inj_on_of_nodup_map hid (mem_eligible.1 (mem_within.1 ha).1).1
    (mem_eligible.1 (mem_within.1 hb).1).1 (id_eq_of_precedence hcmp)

-- ========================================================== renaming

/-- A candidate under another name. -/
def Scored.rename (g : ι → ι') (c : Scored ι) : Scored ι' :=
  ⟨g c.id, c.score, c.similarity⟩

/-- A choice among renamed candidates. -/
def Choice.rename (g : ι → ι') (c : Choice ι) : Choice ι' :=
  ⟨c.best.rename g, c.tied⟩

open Scored in
/-- The choice among renamed candidates is the renamed choice, if the
renaming keeps the order of the names. -/
theorem pickBest_rename {g : ι → ι'}
    (hcmp : ∀ a ∈ cs, ∀ b ∈ cs, compare (g a.id) (g b.id)
      = compare a.id b.id) :
    pickBest (cs.map (Scored.rename g)) floor margin
      = (pickBest cs floor margin).map (Choice.rename g) := by
  have helig : eligible floor (cs.map (Scored.rename g))
      = (eligible floor cs).map (Scored.rename g) := by
    unfold eligible
    rw [List.filter_map]
    rfl
  have htop : topScore ((eligible floor cs).map (Scored.rename g))
      = topScore (eligible floor cs) := by
    unfold topScore
    rw [List.map_map]
    rfl
  have htied : ∀ top, within margin top ((eligible floor cs).map
        (Scored.rename g))
      = (within margin top (eligible floor cs)).map (Scored.rename g) := by
    intro top
    unfold within
    rw [List.filter_map]
    rfl
  unfold pickBest
  simp only [helig, htop, htied, List.length_map]
  rw [@leastBy?_map _ _ precedence]
  · split
    · cases leastBy? precedence (within margin (topScore (eligible floor cs))
        (eligible floor cs)) <;> rfl
    · rfl
  · intro a ha b hb
    unfold precedence
    rw [Scored.rename, Scored.rename,
      hcmp a (mem_eligible.1 (mem_within.1 ha).1).1
        b (mem_eligible.1 (mem_within.1 hb).1).1]

/-- The choice among candidates that are, in some order, the renamed
ones. -/
theorem pickBest_rename_perm {g : ι → ι'} {ds : List (Scored ι')}
    (hid : (cs.map (·.id)).Nodup)
    (hcmp : ∀ a ∈ cs, ∀ b ∈ cs, compare (g a.id) (g b.id)
      = compare a.id b.id)
    (hp : ds.Perm (cs.map (Scored.rename g))) :
    pickBest ds floor margin
      = (pickBest cs floor margin).map (Choice.rename g) := by
  rw [← pickBest_rename hcmp]
  refine (pickBest_eq_of_perm ?_ hp.symm).symm
  rw [List.map_map]
  refine (hid.of_map _).map_on fun a ha b hb heq => ?_
  -- equal images would compare equal
  have hab := hcmp a ha b hb
  rw [show g a.id = g b.id from heq, Std.ReflOrd.compare_self] at hab
  exact List.inj_on_of_nodup_map hid ha hb
    (Std.LawfulEqOrd.eq_of_compare hab.symm)

end SymbolMatch
