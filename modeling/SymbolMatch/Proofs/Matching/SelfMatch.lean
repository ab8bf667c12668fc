/-
A build matched with itself. If no two obfuscated classes of it look the
same, every class is paired with itself, at full similarity and full
confidence, and there is nothing to warn of.

# Why each class finds itself

A class scores highest with itself, as a constant and as an anchor: every
term of a score is a share, and a share of the same thing is full
(`anchorScore_self`, `anchorScore_atMost`, `constantScore_atMost`). Others
may tie with it, since a score leaves things out and a margin forgives
the rest; the tie is then broken by similarity, and there the class
itself stands alone. So the table only ever pairs classes with themselves
(`Diagonal`), each class that is asked is paired, and after the anchors
no class is left for the later stages to move.

# Why look-alikes spoil it

Classes that look the same tie in similarity too, and the least name is
taken. An anchor needs the choice to be mutual, and a class that is
passed over for want of it is not asked again.
-/
import SymbolMatch.Proofs.Matching.Counterpart
import SymbolMatch.Proofs.Matching.OwnScore
import SymbolMatch.Proofs.Measures

namespace SymbolMatch

-- ============================================================ the diagonal

namespace Table

variable {t : Table} {n k : String}

/-- A table that pairs classes with themselves only. -/
structure Diagonal (t : Table) : Prop where
  twoWay : t.TwoWay
  self : ∀ k n, t.newOf? k = some n → n = k

namespace Diagonal

variable (h : t.Diagonal)
include h

/-- A class is held if and only if it is paired. -/
theorem isClaimed_eq (n : String) : t.isClaimed n = t.isMapped n := by
  rw [Bool.eq_iff_iff, h.twoWay.isClaimed_iff, isMapped_eq,
    Option.isSome_iff_exists]
  constructor
  · intro ⟨k, hk⟩
    obtain ⟨c, hc, -⟩ := newOf?_eq_some_iff.1 hk
    rw [← h.self k n hk] at hc
    exact ⟨c, hc⟩
  · intro ⟨c, hc⟩
    have hn : t.newOf? n = some c.target :=
      newOf?_eq_some_iff.2 ⟨c, hc, rfl⟩
    rw [h.self n c.target hn] at hn
    exact ⟨n, hn⟩

theorem newOf?_of_isMapped (hn : t.isMapped n = true) :
    t.newOf? n = some n := by
  obtain ⟨c, hc⟩ := Option.isSome_iff_exists.1 hn
  have hnew : t.newOf? n = some c.target := newOf?_eq_some_iff.2 ⟨c, hc, rfl⟩
  rw [h.self n c.target hnew] at hnew
  exact hnew

/-- Pairing a class with itself. -/
theorem claim_self (n : String) (score : Binary64) (origin : Origin) :
    (t.claim n n score origin).2.Diagonal := by
  refine ⟨h.twoWay.claim n n score origin, fun k m hk => ?_⟩
  cases hg : (t.claim n n score origin).1 with
  | false =>
    rw [claim_refused hg] at hk
    exact h.self k m hk
  | true =>
    rw [newOf?_claim hg] at hk
    split at hk
    · next heq => rw [← Option.some.inj hk, heq]
    · exact h.self k m hk

end Diagonal

/-- An attempt that pairs an unpaired class with itself, and leaves the
table alone otherwise. -/
structure PairsSelf (t : Table) (n : String) (r : Bool × Table) : Prop where
  mapped : t.isMapped n = true → r.2 = t
  unmapped : t.isMapped n = false →
    ∃ score origin, r = t.claim n n score origin

/-- What such an attempt leaves behind. -/
theorem PairsSelf.after {r : Bool × Table} (h : t.Diagonal)
    (hr : PairsSelf t n r) :
    r.2.Diagonal ∧ r.2.isMapped n = true
      ∧ ∀ k, t.isMapped k = true → r.2.isMapped k = true := by
  cases hn : t.isMapped n with
  | true =>
    rw [hr.mapped hn]
    exact ⟨h, hn, fun k hk => hk⟩
  | false =>
    obtain ⟨score, origin, rfl⟩ := hr.unmapped hn
    have hgranted : (t.claim n n score origin).1 = true :=
      claim_granted_iff.2 ⟨hn, (h.isClaimed_eq n).trans hn⟩
    refine ⟨h.claim_self n score origin, ?_, fun k hk => ?_⟩
    · rw [isMapped_eq, get?_claim hgranted, if_pos rfl]
      rfl
    · rw [isMapped_eq, get?_claim hgranted]
      split
      · rfl
      · exact hk

/-- A sweep of such attempts pairs every class that it asks. -/
theorem Diagonal.sweep {attempt : Table → String → Bool × Table}
    {xs : List String}
    (hattempt : ∀ t : Table, t.Diagonal → ∀ n ∈ xs,
      PairsSelf t n (attempt t n)) (h : t.Diagonal) :
    (t.sweep attempt xs).2.Diagonal
      ∧ (∀ n ∈ xs, (t.sweep attempt xs).2.isMapped n = true)
      ∧ ∀ k, t.isMapped k = true →
        (t.sweep attempt xs).2.isMapped k = true := by
  induction xs generalizing t with
  | nil => exact ⟨h, fun n hn => (nomatch hn), fun k hk => hk⟩
  | cons n rest ih =>
    obtain ⟨hdiagonal, hmapped, hkept⟩ :=
      (hattempt t h n List.mem_cons_self).after h
    obtain ⟨hdiagonal', hrest, hkept'⟩ := ih
      (fun t ht m hm => hattempt t ht m (List.mem_cons_of_mem _ hm)) hdiagonal
    refine ⟨hdiagonal', fun m hm => ?_, fun k hk => hkept' k (hkept k hk)⟩
    rcases List.mem_cons.1 hm with heq | hm
    · rw [heq]
      exact hkept' n hmapped
    · exact hrest m hm

end Table

-- ================================================================ choices

namespace Context

variable {ctx : Context} {settings : Settings} {x : Index} {n : String}

/-- The obfuscated classes of a build are told apart: each is fully
similar to itself and to no other. -/
structure Distinctive (settings : Settings) (x : Index) : Prop where
  self : ∀ n ∈ (reflexive settings x).oldObfuscated,
    (reflexive settings x).similarity n n = 1
  apart : ∀ n ∈ (reflexive settings x).oldObfuscated,
    ∀ m ∈ (reflexive settings x).oldObfuscated, m ≠ n →
      (reflexive settings x).similarity n m < 1
  inRange : ∀ n ∈ (reflexive settings x).oldObfuscated,
    x.evidence.selfFieldRefs n < twoPow 64

section Choices

variable (hx : Distinctive settings x) (hmargin : 0 ≤ settings.tieMargin)
  (candidates : List String)
  (hcandidates : ∀ m ∈ candidates, m ∈ (reflexive settings x).oldObfuscated)
  (score : String → Binary64) {floor : Binary64}
  (hn : n ∈ candidates) (hfloor : floor < score n)
  (hfinite : (score n).isFinite = true)
  (htop : ∀ m ∈ candidates, (score m).AtMost (score n))
include hx hmargin hcandidates hn hfloor hfinite htop

/-- A class that no candidate outscores chooses itself. -/
theorem chooseNew_self :
    ∃ choice, (reflexive settings x).chooseNew n candidates score floor
        = some choice
      ∧ choice.best = ⟨n, score n, (reflexive settings x).similarity n n⟩ := by
  refine pickBest_map_eq_best hn hfloor hfinite hmargin htop ?_
  intro m hm hne
  rw [hx.self n (hcandidates n hn)]
  exact hx.apart n (hcandidates n hn) m (hcandidates m hm) hne

/-- And it is chosen back. -/
theorem chooseOld_self :
    ∃ choice, (reflexive settings x).chooseOld n candidates score floor
        = some choice
      ∧ choice.best = ⟨n, score n, (reflexive settings x).similarity n n⟩ := by
  refine pickBest_map_eq_best hn hfloor hfinite hmargin htop ?_
  intro m hm hne
  rw [hx.self n (hcandidates n hn)]
  exact hx.apart m (hcandidates m hm) n (hcandidates n hn) hne.symm

end Choices

-- ================================================================= stages

/-- The table after the anchors. -/
def anchored (ctx : Context) : Table :=
  (ctx.selectAnchors (ctx.matchConstants (ctx.matchFixed {}).2).2).2

theorem diagonal_matchFixed (ctx : Context) :
    (ctx.matchFixed {}).2.Diagonal := by
  refine ⟨sound_matchFixed.twoWay, fun k n hk => ?_⟩
  obtain ⟨c, hc, rfl⟩ := Table.newOf?_eq_some_iff.1 hk
  rw [get?_matchFixed] at hc
  split at hc
  · rw [← Option.some.inj hc]
  · cases hc

section Stages

variable {t : Table} (hx : Distinctive .default x)
include hx

/-- A class of constants is paired with itself. -/
theorem claimConstant_pairsSelf (ht : t.Diagonal)
    (hn : n ∈ (reflexive .default x).oldObfuscated)
    (hconstant : (reflexive .default x).isOldConstant n = true) :
    t.PairsSelf n ((reflexive .default x).claimConstant t n) := by
  constructor
  · intro hmapped
    unfold claimConstant
    dsimp only
    split
    · exact Table.claim_of_isMapped hmapped
    · rfl
  · intro hunmapped
    have hfree : n ∈ (reflexive .default x).unclaimedNew t :=
      mem_unclaimedNew.2 ⟨hn, (ht.isClaimed_eq n).trans hunmapped⟩
    obtain ⟨hmargin, -⟩ := Settings.one_above_default
    obtain ⟨hfloor, hfinite⟩ := constantScore_self_bounds x n
    obtain ⟨choice, hchoice, hbest⟩ := chooseNew_self hx hmargin
      (((reflexive .default x).unclaimedNew t).filter
        (reflexive .default x).isNewConstant)
      (fun m hm => (mem_unclaimedNew.1 (List.mem_filter.1 hm).1).1)
      ((reflexive .default x).constantScore n)
      (List.mem_filter.2 ⟨hfree, hconstant⟩) hfloor hfinite
      (fun m _ => constantScore_atMost .default x n m)
    refine ⟨choice.best.score, .constant, ?_⟩
    unfold claimConstant
    dsimp only
    rw [settings_reflexive, hchoice]
    dsimp only
    rw [show choice.best.id = n by rw [hbest]]

/-- Any class is an anchor of itself. -/
theorem claimAnchor_pairsSelf (ht : t.Diagonal)
    (hn : n ∈ (reflexive .default x).oldObfuscated) :
    t.PairsSelf n ((reflexive .default x).claimAnchor t n) := by
  constructor
  · intro hmapped
    unfold claimAnchor
    split
    · split
      · rfl
      · split
        · exact Table.claim_of_isMapped hmapped
        · rfl
    · rfl
  · intro hunmapped
    have hscore : (reflexive .default x).anchorScore n n = 1 :=
      anchorScore_self (mem_oldObfuscated.1 hn).1 (hx.self n hn)
        (hx.inRange n hn)
    obtain ⟨hmargin, hminimum, hthreshold⟩ := Settings.one_above_default
    have hfloor : (reflexive .default x).settings.minSimilarity
        < (reflexive .default x).anchorScore n n := by
      rw [hscore, settings_reflexive]
      exact hminimum
    have hfinite : ((reflexive .default x).anchorScore n n).isFinite
        = true := by
      rw [hscore]
      exact Binary64.isFinite_one
    have hfree : n ∈ (reflexive .default x).unclaimedNew t :=
      mem_unclaimedNew.2 ⟨hn, (ht.isClaimed_eq n).trans hunmapped⟩
    obtain ⟨choice, hchoice, hbest⟩ := chooseNew_self hx hmargin
      ((reflexive .default x).unclaimedNew t)
      (fun m hm => (mem_unclaimedNew.1 hm).1)
      ((reflexive .default x).anchorScore n) hfree hfloor hfinite
      (fun m _ => by
        rw [hscore]
        exact anchorScore_atMost _ n m)
    obtain ⟨back, hback, hbest'⟩ := chooseOld_self hx hmargin
      ((reflexive .default x).unmappedOld t)
      (fun m hm => (mem_unmappedOld.1 hm).1)
      ((reflexive .default x).anchorScore · n)
      (mem_unmappedOld.2 ⟨hn, hunmapped⟩) hfloor hfinite
      (fun m _ => by
        rw [hscore]
        exact anchorScore_atMost _ m n)
    have hmutual : (reflexive .default x).isMutual t n n = true := by
      unfold isMutual
      rw [hback]
      dsimp only
      rw [hbest']
      exact beq_self_eq_true n
    refine ⟨choice.best.score, .anchor, ?_⟩
    unfold claimAnchor
    rw [hchoice]
    dsimp only
    rw [if_neg, show choice.best.id = n by rw [hbest], if_pos hmutual]
    rw [hbest, settings_reflexive, hscore]
    exact hthreshold

/-- After the anchors every class is paired with itself. -/
theorem anchored_self :
    (reflexive .default x).anchored.Diagonal
      ∧ ∀ n ∈ x.classNames,
        (reflexive .default x).anchored.isMapped n = true := by
  have hconstant (t₁ t : Table) (ht : t.Diagonal) :
      ∀ n ∈ (reflexive .default x).constantOrder t₁,
        t.PairsSelf n ((reflexive .default x).claimConstant t n) := by
    intro n hn
    obtain ⟨hn, hconstant⟩ := List.mem_filter.1 (mem_sortBy.1 hn)
    exact claimConstant_pairsSelf hx ht (mem_unmappedOld.1 hn).1 hconstant
  have hanchor (t₁ t : Table) (ht : t.Diagonal) :
      ∀ n ∈ (reflexive .default x).anchorOrder t₁,
        t.PairsSelf n ((reflexive .default x).claimAnchor t n) := by
    intro n hn
    exact claimAnchor_pairsSelf hx ht (mem_unmappedOld.1 (mem_sortBy.1 hn)).1
  obtain ⟨hconstants, -, hkept⟩ :=
    (diagonal_matchFixed (reflexive .default x)).sweep (hconstant _)
  obtain ⟨hanchors, hasked, hkept'⟩ := hconstants.sweep (hanchor _)
  refine ⟨hanchors, fun n hn => ?_⟩
  by_cases hobfuscated : (reflexive .default x).isObfuscated n = true
  · cases hmapped : ((reflexive .default x).matchConstants
        ((reflexive .default x).matchFixed {}).2).2.isMapped n with
    | true => exact hkept' n hmapped
    | false =>
      apply hasked
      exact mem_sortBy.2 (mem_unmappedOld.2
        ⟨mem_oldObfuscated.2 ⟨hn, hobfuscated⟩, hmapped⟩)
  · -- a stable name was fixed
    rw [Bool.not_eq_true] at hobfuscated
    apply hkept'
    apply hkept
    rw [Table.isMapped_eq, sound_matchFixed.covers n
      (mem_fixedNames.2 ⟨hobfuscated, hn, hn⟩)]
    rfl

end Stages

-- ============================================================= standstill

section Standstill

variable {t : Table}

theorem chooseNew_nil (ctx : Context) (old : String)
    (score : String → Binary64) (floor : Binary64) :
    ctx.chooseNew old [] score floor = none := by
  cases h : ctx.chooseNew old [] score floor with
  | none => rfl
  | some choice => cases mem_of_chooseNew h

/-- There is nothing to propagate once every old class is paired. -/
theorem propagate_of_unmappedOld (h : ctx.unmappedOld t = []) :
    ctx.propagate t = (0, t) := by
  apply Table.rounds_eq_self
  unfold propagateOnce proposals
  rw [h]
  rfl

variable (h : ctx.unclaimedNew t = [])
include h

/-- Nothing moves once every new class is taken. -/
theorem refine_of_unclaimedNew : ctx.refine t = (0, t) := by
  apply Table.rounds_eq_self
  apply Table.sweep_eq_self
  intro old _
  unfold refineOne
  rw [h, chooseNew_nil]

theorem correctConstants_of_unclaimedNew :
    ctx.correctConstants t = (0, t) := by
  apply Table.sweep_eq_self
  intro (old, current) _
  unfold correctConstant
  dsimp only
  split
  · rfl
  · split
    · next choice hchoice =>
      -- only the present target is a candidate
      obtain ⟨hnew, hcandidate⟩ :=
        List.mem_filter.1 (mem_of_chooseNew hchoice)
      rw [Bool.and_eq_true, Bool.or_eq_true, beq_iff_eq,
        Bool.not_eq_true'] at hcandidate
      rcases hcandidate.2 with heq | hfree
      · rw [if_pos (.inl heq)]
      · have hmem := mem_unclaimedNew.2 ⟨hnew, hfree⟩
        rw [h] at hmem
        cases hmem
    · rfl

theorem validateReferences_of_unclaimedNew :
    ctx.validateReferences t = (0, t) := by
  apply Table.rounds_eq_self
  apply Table.sweep_eq_self
  intro old _
  unfold validateOne
  split
  · rfl
  · dsimp only
    split
    · rw [h, chooseNew_nil]
    · rfl

omit h in
/-- A run that pairs every class by its anchors ends there. -/
theorem table_runStages (hold : ctx.unmappedOld ctx.anchored = [])
    (hnew : ctx.unclaimedNew ctx.anchored = []) :
    ctx.runStages.table = ctx.anchored := by
  show (ctx.validateReferences (ctx.correctConstants (ctx.refine
    (ctx.propagate ctx.anchored).2).2).2).2 = ctx.anchored
  rw [propagate_of_unmappedOld hold]
  dsimp only
  rw [refine_of_unclaimedNew hnew]
  dsimp only
  rw [correctConstants_of_unclaimedNew hnew]
  dsimp only
  rw [validateReferences_of_unclaimedNew hnew]

end Standstill

-- ================================================================= report

/-- A build is its own counterpart. -/
theorem counterparts_reflexive (h : x.Coherent) :
    (reflexive settings x).Counterparts id where
  old := h
  new := h
  fieldTypesOf _ _ := (OrdSet.image_id _).symm
  paramTypesOf _ _ := (OrdSet.image_id _).symm
  returnTypesOf _ _ := (OrdSet.image_id _).symm

section Report

variable (hx : Distinctive .default x)
include hx

theorem table_reflexive :
    (reflexive .default x).runStages.table
      = (reflexive .default x).anchored := by
  obtain ⟨hdiagonal, hmapped⟩ := anchored_self hx
  apply table_runStages
  · apply List.eq_nil_iff_forall_not_mem.2
    intro n hn
    obtain ⟨hmem, hfree⟩ := mem_unmappedOld.1 hn
    rw [hmapped n (mem_oldObfuscated.1 hmem).1] at hfree
    cases hfree
  · apply List.eq_nil_iff_forall_not_mem.2
    intro n hn
    obtain ⟨hmem, hfree⟩ := mem_unclaimedNew.1 hn
    rw [hdiagonal.isClaimed_eq, hmapped n (mem_newObfuscated.1 hmem).1]
      at hfree
    cases hfree

/-- There is nothing to warn of. -/
theorem audit_reflexive (hcoherent : x.Coherent) :
    (reflexive .default x).audit (reflexive .default x).anchored = [] := by
  obtain ⟨hdiagonal, hmapped⟩ := anchored_self hx
  unfold audit
  rw [List.filterMap_eq_nil_iff]
  intro e he
  have hnew : (reflexive .default x).anchored.newOf? e.1 = some e.2.target :=
    Table.newOf?_eq_some_iff.2 ⟨e.2, Table.mem_entries_iff.1 he, rfl⟩
  apply warning?_eq_none
  rw [hdiagonal.self e.1 e.2.target hnew]
  exact countP_userTargets (counterparts_reflexive hcoherent)
    ⟨hdiagonal.twoWay, fun n hn => hdiagonal.newOf?_of_isMapped (hmapped n hn)⟩
    e.1

/-- Every class is reported with itself, at full similarity and full
confidence. -/
theorem match_reflexive (hn : n ∈ x.classNames) :
    ∃ m, ((reflexive .default x).reportOf
        (reflexive .default x).runStages).mapping.get? n = some m
      ∧ m.new = n ∧ m.similarity = 1 ∧ m.confidence = 1 := by
  obtain ⟨hdiagonal, hmapped⟩ := anchored_self hx
  obtain ⟨c, hc, htarget⟩ := Table.newOf?_eq_some_iff.1
    (hdiagonal.newOf?_of_isMapped (hmapped n hn))
  rw [← table_reflexive hx] at hc
  have hm : ((reflexive .default x).reportOf
      (reflexive .default x).runStages).mapping.get? n = some _ :=
    get?_mapping_reportOf.2 ⟨c, hc, rfl⟩
  refine ⟨_, hm, htarget, ?_⟩
  rcases fixed_or_inferred hm with ⟨-, -, -, hscores⟩ | ⟨horigin, hmem, -⟩
  · exact hscores
  · have hinferred : c.origin ≠ .fixed := horigin
    unfold describe
    dsimp only
    rw [if_neg hinferred, htarget, hx.self n hmem]
    exact ⟨rfl, confidence_one _ _ _ _⟩

end Report

end Context

-- ============================================================== snapshots

/-- No two obfuscated classes look the same. -/
def Snapshot.ToldApart (settings : Settings) (s : Snapshot) : Prop :=
  ∀ c ∈ s.classes, ∀ d ∈ s.classes,
    Name.isObfuscated settings.maxObfuscatedLength c.name = true →
    Name.isObfuscated settings.maxObfuscatedLength d.name = true →
    d.name ≠ c.name →
      classSimilarity (.summary settings.maxObfuscatedLength c)
        (.summary settings.maxObfuscatedLength d) < 1

instance (settings : Settings) (s : Snapshot) :
    Decidable (s.ToldApart settings) :=
  inferInstanceAs (Decidable (∀ c ∈ s.classes, ∀ d ∈ s.classes, _ → _ → _ → _))

section Snapshots

variable {settings : Settings} {s : Snapshot}

theorem Context.ofSnapshots_self (settings : Settings) (s : Snapshot) :
    Context.ofSnapshots settings s s
      = Context.reflexive settings (Index.summary settings s) := rfl

theorem Index.fingerprint?_summary (hs : s.Valid) {c : ClassDecl}
    (hc : c ∈ s.classes) :
    (Index.summary settings s).fingerprint? c.name
      = some (.summary settings.maxObfuscatedLength c) := by
  have hnodup : (Index.summary settings s).classNames.Nodup := by
    rw [Index.classNames_summary]
    exact hs.distinct
  exact (Index.fingerprint?_eq_some_iff hnodup).2
    ⟨List.mem_map.2 ⟨c, hc, rfl⟩, rfl⟩

/-- The analysis of a build whose classes are told apart tells them
apart. -/
theorem Context.distinctive_summary (hs : s.Valid)
    (hextent : ∀ c ∈ s.classes, c.extent < twoPow 64)
    (hapart : s.ToldApart settings) :
    Distinctive settings (Index.summary settings s) := by
  have hclass (n : String) (hn : n ∈ (reflexive settings
      (Index.summary settings s)).oldObfuscated) :
      ∃ c ∈ s.classes, c.name = n
        ∧ Name.isObfuscated settings.maxObfuscatedLength n = true := by
    obtain ⟨hname, hobfuscated⟩ := mem_oldObfuscated_ofSnapshots.1 hn
    obtain ⟨c, hc, rfl⟩ := List.mem_map.1 hname
    exact ⟨c, hc, rfl, hobfuscated⟩
  have hsimilarity {c d : ClassDecl} (hc : c ∈ s.classes)
      (hd : d ∈ s.classes) :
      (reflexive settings (Index.summary settings s)).similarity c.name d.name
        = classSimilarity (.summary settings.maxObfuscatedLength c)
          (.summary settings.maxObfuscatedLength d) := by
    unfold reflexive similarity
    rw [Index.fingerprint?_summary hs hc, Index.fingerprint?_summary hs hd]
  refine
    { self := fun n hn => ?_
      apart := fun n hn m hm hne => ?_
      inRange := fun n hn => ?_ }
  · obtain ⟨c, hc, rfl, -⟩ := hclass n hn
    rw [hsimilarity hc hc]
    exact classSimilarity_self
      (ClassFingerprint.inRange_summary _ (hextent c hc))
  · obtain ⟨c, hc, rfl, hobfuscated⟩ := hclass n hn
    obtain ⟨d, hd, rfl, hobfuscated'⟩ := hclass m hm
    rw [hsimilarity hc hd]
    exact hapart c hc d hd hobfuscated hobfuscated' hne
  · obtain ⟨c, hc, rfl, -⟩ := hclass n hn
    have hrefs : (Index.summary settings s).evidence.selfFieldRefs c.name
        ≤ c.fields.length := Index.selfFieldRefs_summary_le hs hc
    have hc' := hextent c hc
    unfold ClassDecl.extent at hc'
    omega

end Snapshots

namespace Sample

/-- A stable class, an obfuscated one that refers to it, and a class of
constants that both use. -/
def ownBuild : List ClassDecl :=
  [ { name := "app/Main"
      kind := .plain
      superName := some "java/lang/Object"
      interfaces := []
      fields := [⟨"f", "Lb;", false, true⟩, ⟨"g", "Lk;", true, false⟩]
      methods := [⟨"run", "(Lb;I)V", false, false, []⟩] },
    { name := "b"
      kind := .plain
      superName := some "java/lang/Object"
      interfaces := ["java/lang/Runnable"]
      fields := [⟨"a", "Lapp/Main;", false, false⟩, ⟨"b", "Lk;", false, false⟩]
      methods := [⟨"run", "()V", false, false, []⟩] },
    { name := "k"
      kind := .enumType
      superName := none
      interfaces := []
      fields := (List.range 51).map fun i =>
        ⟨String.singleton (Char.ofNat (97 + i)), "Lk;", true, true⟩
      methods := [] } ]

/-- Three classes that differ in their names only. -/
def lookAlikes : List ClassDecl :=
  ["a", "b", "c"].map fun name =>
    { name := name
      kind := .plain
      superName := none
      interfaces := []
      fields := []
      methods := [⟨"m", "(Lb;)V", false, false, []⟩] }

theorem ofClasses_ownBuild :
    Snapshot.ofClasses ownBuild = .ok ⟨ownBuild⟩ := by
  have hok : (Snapshot.ofClasses ownBuild).isOk = true := by decide +kernel
  cases hs : Snapshot.ofClasses ownBuild with
  | error e =>
    rw [hs] at hok
    cases hok
  | ok s => rw [← (Snapshot.ofClasses_eq_ok_iff.1 hs).1]

theorem ofClasses_lookAlikes :
    Snapshot.ofClasses lookAlikes = .ok ⟨lookAlikes⟩ := rfl

end Sample

namespace Resolver

/-- A build that is matched with itself has every class paired with
itself, at full similarity and full confidence and without a warning, if
no two obfuscated classes of it look the same. -/
theorem self_match_of_distinct (classes : List ClassDecl) (s : Snapshot)
    (hs : Snapshot.ofClasses classes = .ok s)
    (hextent : ∀ c ∈ classes, c.extent < twoPow 64)
    (hapart : s.ToldApart .default) :
    ∃ report, (⟨.default⟩ : Resolver).matchSnapshots s s = .ok report
      ∧ (∀ c ∈ classes, ∃ m, report.mapping.get? c.name = some m
        ∧ m.new = c.name ∧ m.similarity = 1 ∧ m.confidence = 1)
      ∧ report.warnings = [] := by
  obtain ⟨rfl, hvalid⟩ := Snapshot.ofClasses_eq_ok_iff.1 hs
  have hx : Context.Distinctive .default (Index.summary .default s) :=
    Context.distinctive_summary hvalid hextent hapart
  have hreport := matchSnapshots_eq_ok ofSettings_default hvalid hvalid
  rw [Context.ofSnapshots_self] at hreport
  refine ⟨_, hreport, fun c hc => ?_, ?_⟩
  · apply Context.match_reflexive hx
    rw [Index.classNames_summary]
    exact List.mem_map.2 ⟨c, hc, rfl⟩
  · unfold Context.reportOf
    dsimp only
    rw [Context.table_reflexive hx]
    exact Context.audit_reflexive hx (Index.coherent_summary hvalid.distinct)

theorem self_match_of_distinct_own :
    ∃ report, (⟨.default⟩ : Resolver).matchSnapshots ⟨Sample.ownBuild⟩
        ⟨Sample.ownBuild⟩ = .ok report
      ∧ (∀ c ∈ Sample.ownBuild, ∃ m, report.mapping.get? c.name = some m
        ∧ m.new = c.name ∧ m.similarity = 1 ∧ m.confidence = 1)
      ∧ report.warnings = [] :=
  self_match_of_distinct Sample.ownBuild ⟨Sample.ownBuild⟩
    Sample.ofClasses_ownBuild (by decide +kernel) (by decide +kernel)

/-- Of three look-alikes, one is not paired at all: its best candidate did
not choose it back at its turn, and it is not asked again. -/
theorem self_match_may_miss :
    ∃ s report, Snapshot.ofClasses Sample.lookAlikes = .ok s
      ∧ (⟨.default⟩ : Resolver).matchSnapshots s s = .ok report
      ∧ "c" ∈ s.names ∧ report.mapping.newName? "c" = none := by
  refine ⟨⟨Sample.lookAlikes⟩, _, Sample.ofClasses_lookAlikes,
    matchSnapshots_eq_ok ofSettings_default
      (Snapshot.ofClasses_eq_ok_iff.1 Sample.ofClasses_lookAlikes).2
      (Snapshot.ofClasses_eq_ok_iff.1 Sample.ofClasses_lookAlikes).2,
    by decide, ?_⟩
  rw [Context.newName?_reportOf]
  decide +kernel

end Resolver

end SymbolMatch
