/-
A run on a mirroring context is the same run under other names. Every
attempt on the renamed table is the renamed attempt, so are the lists
that the stages work through, and so are sweeps and rounds; and the
report at the end is the renamed report.
-/
import SymbolMatch.Proofs.Matching.Report
import SymbolMatch.Proofs.Matching.Scores

namespace SymbolMatch

variable {g f : String → String}

-- ============================================================== sweeps

namespace Table

variable {α β : Type} {P : Table → Prop} {t : Table}

/-- A sweep commutes with renaming if every attempt does. -/
theorem sweep_relabel {attempt : Table → α → Bool × Table}
    {attempt' : Table → β → Bool × Table} {φ : α → β} {xs : List α}
    (hkeep : ∀ t, ∀ a ∈ xs, P t → P (attempt t a).2)
    (hstep : ∀ t, ∀ a ∈ xs, P t → attempt' (t.relabel g f) (φ a)
      = Prod.map id (relabel g f) (attempt t a)) (h : P t) :
    (t.relabel g f).sweep attempt' (xs.map φ)
      = Prod.map id (relabel g f) (t.sweep attempt xs) := by
  induction xs generalizing t with
  | nil => rfl
  | cons a rest ih =>
    have hrest := ih (fun t b hb => hkeep t b (List.mem_cons_of_mem _ hb))
      (fun t b hb => hstep t b (List.mem_cons_of_mem _ hb))
      (hkeep t a List.mem_cons_self h)
    rw [List.map_cons]
    unfold sweep
    rw [hstep t a List.mem_cons_self h]
    simp only [Prod.map_fst, Prod.map_snd, id_eq]
    rw [hrest]
    rfl

/-- Rounds commute with renaming if every round does. -/
theorem rounds_relabel {round round' : Table → Nat × Table}
    (hkeep : ∀ t, P t → P (round t).2)
    (hstep : ∀ t, P t → round' (t.relabel g f)
      = Prod.map id (relabel g f) (round t)) (h : P t) (limit : Nat) :
    (t.relabel g f).rounds round' limit
      = Prod.map id (relabel g f) (t.rounds round limit) := by
  induction limit generalizing t with
  | zero => rfl
  | succ limit ih =>
    have hnext := hkeep t h
    unfold rounds
    rw [hstep t h]
    cases hround : round t with
    | mk count t₁ =>
      rw [hround] at hnext
      cases count with
      | zero => rfl
      | succ count =>
        simp only [Prod.map_apply, id_eq]
        rw [ih hnext]
        rfl

end Table

namespace Context

variable {ctx ctx' : Context} {t : Table} {old new : String}

/-- A proposal under other names. -/
def Proposal.relabel (g f : String → String) (p : Proposal) : Proposal :=
  ⟨g p.old, p.choice.rename f⟩

namespace Mirrors

variable (h : ctx.Mirrors g f ctx') (ht : ctx.Sound t)
include h ht

-- ============================================================ attempts

omit h ht in
theorem unclaimedNew_sublist :
    (ctx.unclaimedNew t).Sublist ctx.newObfuscated :=
  List.filter_sublist

omit h ht in
/-- A choice among obfuscated new classes is a declared one. -/
theorem declared_of_chooseNew {names : List String}
    {score : String → Binary64} {floor : Binary64} {choice : Choice String}
    (hsub : names.Sublist ctx.newObfuscated)
    (hc : ctx.chooseNew old names score floor = some choice) :
    choice.best.id ∈ ctx.new.classNames :=
  (mem_newObfuscated.1 (hsub.subset (mem_of_chooseNew hc))).1

theorem claim {score : Binary64} {origin : Origin}
    (hold : old ∈ ctx.old.classNames) (hnew : new ∈ ctx.new.classNames) :
    (t.relabel g f).claim (g old) (f new) score origin
      = Prod.map id (Table.relabel g f) (t.claim old new score origin) :=
  Table.claim_relabel h.old.injOn h.new.injOn ht.within (.inl hold)
    (.inl hnew)

theorem reassign {score : Binary64} {origin : Origin}
    (hold : old ∈ ctx.old.classNames) (hnew : new ∈ ctx.new.classNames) :
    (t.relabel g f).reassign (g old) (f new) score origin
      = Prod.map id (Table.relabel g f) (t.reassign old new score origin) :=
  Table.reassign_relabel h.old.injOn h.new.injOn ht.within (.inl hold)
    (.inl hnew)

variable (hold : old ∈ ctx.old.classNames)
include hold

theorem claimConstant :
    ctx'.claimConstant (t.relabel g f) (g old)
      = Prod.map id (Table.relabel g f) (ctx.claimConstant t old) := by
  have hsub : ((ctx.unclaimedNew t).filter ctx.isNewConstant).Sublist
      ctx.newObfuscated := List.filter_sublist.trans unclaimedNew_sublist
  have hperm := Correspondence.filter (h.unclaimedNew_perm ht) fun n hn =>
    h.isNewConstant (mem_newObfuscated.1 (unclaimedNew_sublist.subset hn)).1
  unfold Context.claimConstant
  dsimp only
  rw [h.chooseNew (.inl hold) hsub hperm fun n hn =>
    h.constantScore hold (mem_newObfuscated.1 (hsub.subset hn)).1, h.settings]
  cases hc : ctx.chooseNew old _ _ _ with
  | none => rfl
  | some choice => exact h.claim ht hold (declared_of_chooseNew hsub hc)

/-- The choice among the unclaimed new classes is the same class, if their
scores are the same. -/
theorem chooseNew_unclaimed {score score' : String → Binary64}
    {floor : Binary64}
    (hscore : ∀ n ∈ ctx.new.classNames, score' (f n) = score n) :
    ctx'.chooseNew (g old) (ctx'.unclaimedNew (t.relabel g f)) score' floor
      = (ctx.chooseNew old (ctx.unclaimedNew t) score floor).map
        (Choice.rename f) :=
  h.chooseNew (.inl hold) unclaimedNew_sublist (h.unclaimedNew_perm ht)
    fun n hn => hscore n
      (mem_newObfuscated.1 (unclaimedNew_sublist.subset hn)).1

theorem isMutual (hnew : new ∈ ctx.new.classNames) :
    ctx'.isMutual (t.relabel g f) (g old) (f new)
      = ctx.isMutual t old new := by
  have hsub : (ctx.unmappedOld t).Sublist ctx.oldObfuscated :=
    List.filter_sublist
  unfold Context.isMutual
  rw [h.chooseOld (.inl hnew) hsub (h.unmappedOld_perm ht) fun n hn =>
    h.anchorScore (mem_oldObfuscated.1 (hsub.subset hn)).1 hnew, h.settings]
  cases hc : ctx.chooseOld new _ _ _ with
  | none => rfl
  | some choice =>
    have hmem := mem_oldObfuscated.1 (hsub.subset (mem_of_chooseOld hc))
    simp only [Option.map_some]
    rw [Bool.eq_iff_iff, beq_iff_eq, beq_iff_eq]
    exact h.old.injOn.eq_iff (.inl hmem.1) (.inl hold)

theorem claimAnchor :
    ctx'.claimAnchor (t.relabel g f) (g old)
      = Prod.map id (Table.relabel g f) (ctx.claimAnchor t old) := by
  unfold Context.claimAnchor
  rw [h.chooseNew_unclaimed ht hold fun n hn => h.anchorScore hold hn,
    h.settings]
  cases hc : ctx.chooseNew old _ _ _ with
  | none => rfl
  | some choice =>
    have hnew := declared_of_chooseNew unclaimedNew_sublist hc
    have hmutual := h.isMutual ht hold hnew
    simp only [Option.map_some, Choice.rename, Scored.rename, hmutual]
    split
    · rfl
    · split
      · exact h.claim ht hold hnew
      · rfl

theorem refineOne :
    ctx'.refineOne (t.relabel g f) (g old)
      = Prod.map id (Table.relabel g f) (ctx.refineOne t old) := by
  unfold Context.refineOne
  rw [h.chooseNew_unclaimed ht hold fun n hn =>
    h.comprehensiveScore ht hold hn, h.settings]
  cases hc : ctx.chooseNew old _ _ _ with
  | none => rfl
  | some choice =>
    exact h.reassign ht hold (declared_of_chooseNew unclaimedNew_sublist hc)

theorem correctConstant {current : String}
    (hcurrent : current ∈ ctx.new.classNames) :
    ctx'.correctConstant (t.relabel g f) (g old, f current)
      = Prod.map id (Table.relabel g f)
        (ctx.correctConstant t (old, current)) := by
  have hsub : (ctx.newObfuscated.filter fun new =>
      ctx.isNewConstant new && (new == current || !t.isClaimed new)).Sublist
        ctx.newObfuscated := List.filter_sublist
  have hnames (n : String) (hn : n ∈ ctx.newObfuscated) :=
    (mem_newObfuscated.1 hn).1
  have hbeq (n : String) (hn : n ∈ ctx.new.classNames) :
      (f n == f current) = (n == current) := by
    rw [Bool.eq_iff_iff, beq_iff_eq, beq_iff_eq]
    exact h.new.injOn.eq_iff (.inl hn) (.inl hcurrent)
  have hperm := Correspondence.filter h.newObfuscated_perm
    (q := fun new => ctx'.isNewConstant new
      && (new == f current || !(t.relabel g f).isClaimed new))
    fun n hn => by
      rw [h.isNewConstant (hnames n hn), hbeq n (hnames n hn),
        Table.isClaimed_relabel h.new.injOn ht.within (.inl (hnames n hn))]
  unfold Context.correctConstant
  dsimp only
  rw [h.old.externalFieldUserCount hold,
    h.chooseNew (.inl hold) hsub hperm fun n hn =>
      h.correctionScore ht hold (hnames n (hsub.subset hn))]
  split
  · rfl
  · cases hc : ctx.chooseNew old _ _ _ with
    | none => rfl
    | some choice =>
      have hnew := declared_of_chooseNew hsub hc
      have hid : f choice.best.id = f current ↔ choice.best.id = current :=
        h.new.injOn.eq_iff (.inl hnew) (.inl hcurrent)
      simp only [Option.map_some, Choice.rename, Scored.rename, hid]
      split
      · rfl
      · exact h.reassign ht hold hnew

theorem validateOne :
    ctx'.validateOne (t.relabel g f) (g old)
      = Prod.map id (Table.relabel g f) (ctx.validateOne t old) := by
  unfold Context.validateOne
  rw [h.newOf? ht (.inl hold)]
  cases hcurrent : t.newOf? old with
  | none => rfl
  | some current =>
    have hmem := (ht.declared hcurrent).2
    simp only [Option.map_some]
    rw [h.referenceAgreement ht hold hmem, h.similarity (.inl hold) (.inl hmem)]
    split
    · rw [h.chooseNew_unclaimed ht hold fun n hn =>
        h.validationScore ht hold hn _]
      cases hc : ctx.chooseNew old _ _ _ with
      | none => rfl
      | some choice =>
        exact h.reassign ht hold
          (declared_of_chooseNew unclaimedNew_sublist hc)
    · rfl

-- =========================================================== proposals

/-- The candidates that the votes put up, with their scores. -/
theorem pickBest_votes {floor margin : Binary64} (possible : Nat) :
    pickBest ((ctx'.neighbourVotes (t.relabel g f) (g old)).votes.entries.map
        fun e => ⟨e.1, voteScore e.2 possible (ctx'.similarity (g old) e.1),
          ctx'.similarity (g old) e.1⟩) floor margin
      = (pickBest ((ctx.neighbourVotes t old).votes.entries.map
        fun e => ⟨e.1, voteScore e.2 possible (ctx.similarity old e.1),
          ctx.similarity old e.1⟩) floor margin).map (Choice.rename f) := by
  have hmem (e : String × Nat)
      (he : e ∈ (ctx.neighbourVotes t old).votes.entries) :=
    mem_newObfuscated.1 (mem_newObfuscated_of_isOpen (isOpen_of_voted
      (voted_of_mem_keys (List.mem_map.2 ⟨e, he, rfl⟩))))
  refine pickBest_rename_perm ?_ ?_ ?_
  · rw [List.map_map]
    exact (ctx.neighbourVotes t old).votes.nodup_keys
  · intro a ha b hb
    obtain ⟨d, hd, rfl⟩ := List.mem_map.1 ha
    obtain ⟨e, he, rfl⟩ := List.mem_map.1 hb
    exact h.new.orderly.compare_eq (.inl (hmem d hd).1) (.inl (hmem e he).1)
      (hmem d hd).2 (hmem e he).2
  · rw [h.votes_neighbourVotes ht hold]
    refine ((OrdMap.entries_relabel_perm h.new.injOn fun k hk =>
      mem_names_of_voted (voted_of_mem_keys hk)).map _).trans ?_
    rw [List.map_map, List.map_map]
    refine List.Perm.of_eq (List.map_congr_left fun e he => ?_)
    simp only [Function.comp, Scored.rename, id_eq,
      h.similarity (.inl hold) (.inl (hmem e he).1)]

theorem propose :
    ctx'.propose (t.relabel g f) (g old)
      = (ctx.propose t old).map (Proposal.relabel g f) := by
  unfold Context.propose
  dsimp only
  rw [h.possible_neighbourVotes hold, h.settings, h.pickBest_votes ht hold]
  cases @pickBest String _ _ _ _ with
  | none => rfl
  | some choice =>
    simp only [Option.map_some, Choice.rename, Scored.rename]
    split <;> rfl

-- ====================================================== the work lists

omit hold

theorem proposals :
    ctx'.proposals (t.relabel g f)
      = (ctx.proposals t).map (Proposal.relabel g f) := by
  refine sortBy_map_perm (fun p hp q hq heq => ?_) ?_ fun p hp q hq => ?_
  · unfold Proposal.precedence at heq
    rw [Ordering.then_eq_eq] at heq
    exact eq_of_mem_proposals hp hq (Std.LawfulEqOrd.eq_of_compare heq.2)
  · refine ((h.unmappedOld_perm ht).filterMap _).trans ?_
    rw [List.filterMap_map, List.map_filterMap]
    refine List.Perm.of_eq (List.filterMap_congr fun n hn => ?_)
    exact h.propose ht
      (mem_oldObfuscated.1 (mem_unmappedOld.1 hn).1).1
  · have hmem {p : Proposal}
        (hp : p ∈ (ctx.unmappedOld t).filterMap (ctx.propose t)) :
        p.old ∈ ctx.oldObfuscated := by
      obtain ⟨a, ha, hpa⟩ := List.mem_filterMap.1 hp
      rw [(of_propose hpa).1]
      exact (mem_unmappedOld.1 ha).1
    have hp := mem_oldObfuscated.1 (hmem hp)
    have hq := mem_oldObfuscated.1 (hmem hq)
    unfold Proposal.precedence
    rw [Proposal.relabel, Proposal.relabel,
      h.old.orderly.compare_eq (.inl hp.1) (.inl hq.1) hp.2 hq.2]
    rfl

omit ht in
/-- Sorting obfuscated old classes by a rank and then by name. -/
theorem sortBy_rank {rank rank' : String → String → Ordering}
    [Std.TransCmp rank'] {names names' : List String}
    (hobf : ∀ n ∈ names, n ∈ ctx.oldObfuscated)
    (hp : names'.Perm (names.map g))
    (hrank : ∀ a ∈ names, ∀ b ∈ names, rank' (g a) (g b) = rank a b) :
    sortBy (fun a b => (rank' a b).then (compare a b)) names'
      = (sortBy (fun a b => (rank a b).then (compare a b)) names).map g := by
  have htrans : Std.TransCmp fun a b => (rank' a b).then (compare a b) :=
    inferInstanceAs (Std.TransCmp (compareLex rank' compare))
  refine sortBy_map_perm (fun a _ b _ heq => ?_) hp fun a ha b hb => ?_
  · rw [Ordering.then_eq_eq] at heq
    exact Std.LawfulEqOrd.eq_of_compare heq.2
  · have ha' := mem_oldObfuscated.1 (hobf a ha)
    have hb' := mem_oldObfuscated.1 (hobf b hb)
    rw [hrank a ha b hb, h.old.orderly.compare_eq (.inl ha'.1) (.inl hb'.1)
      ha'.2 hb'.2]

theorem anchorOrder :
    ctx'.anchorOrder (t.relabel g f) = (ctx.anchorOrder t).map g := by
  have htrans : Std.TransCmp fun a b =>
      compare (ctx'.anchorPriority b) (ctx'.anchorPriority a) :=
    inferInstanceAs (Std.TransCmp fun a b =>
      compareOn ctx'.anchorPriority b a)
  have hobf (n : String) (hn : n ∈ ctx.unmappedOld t) :=
    (mem_unmappedOld.1 hn).1
  refine h.sortBy_rank hobf (h.unmappedOld_perm ht) fun a ha b hb => ?_
  rw [h.anchorPriority (mem_oldObfuscated.1 (hobf a ha)).1,
    h.anchorPriority (mem_oldObfuscated.1 (hobf b hb)).1]

theorem constantOrder :
    ctx'.constantOrder (t.relabel g f) = (ctx.constantOrder t).map g := by
  have htrans : Std.TransCmp fun a b =>
      compare (ctx'.old.evidence.externalFieldUserCount a)
        (ctx'.old.evidence.externalFieldUserCount b) :=
    inferInstanceAs (Std.TransCmp
      (compareOn ctx'.old.evidence.externalFieldUserCount))
  have hobf (n : String) (hn : n ∈ ctx.unmappedOld t) :=
    (mem_unmappedOld.1 hn).1
  have hobf' (n : String)
      (hn : n ∈ (ctx.unmappedOld t).filter ctx.isOldConstant) :=
    hobf n (List.mem_filter.1 hn).1
  refine h.sortBy_rank hobf' (Correspondence.filter (h.unmappedOld_perm ht)
    fun n hn => h.isOldConstant (mem_oldObfuscated.1 (hobf n hn)).1)
    fun a ha b hb => ?_
  rw [h.old.externalFieldUserCount (mem_oldObfuscated.1 (hobf' a ha)).1,
    h.old.externalFieldUserCount (mem_oldObfuscated.1 (hobf' b hb)).1]

/-- The entries of obfuscated classes with a property. -/
theorem filter_entries {p q : String × Claim → Bool}
    (hpq : ∀ e ∈ t.entries, q (g e.1, e.2.relabel f) = p e)
    (hobf : ∀ e ∈ t.entries, p e = true → ctx.isObfuscated e.1 = true) :
    (t.relabel g f).entries.filter q
      = (t.entries.filter p).map fun e => (g e.1, e.2.relabel f) := by
  refine Table.filter_entries_relabel h.old.injOn ht.within hpq ?_
  intro a ha b hb hpa hpb hlt
  have hmem (e : String × Claim) (he : e ∈ t.entries) : e.1 ∈ ctx.old.names :=
    ht.within.forward_keys _ (List.mem_map.2 ⟨e, he, rfl⟩)
  rw [h.old.orderly.compare_eq (hmem a ha) (hmem b hb) (hobf a ha hpa)
    (hobf b hb hpb), hlt]

theorem oldsWhere {p q : String → Claim → Bool}
    (hpq : ∀ old c, t.get? old = some c → q (g old) (c.relabel f) = p old c)
    (hobf : ∀ old c, p old c = true → ctx.isObfuscated old = true) :
    (t.relabel g f).oldsWhere q = (t.oldsWhere p).map g := by
  unfold Table.oldsWhere
  rw [h.filter_entries ht
    (fun e he => hpq e.1 e.2 (Table.mem_entries_iff.1 he))
    (fun e _ => hobf e.1 e.2), List.map_map, List.map_map]
  rfl

omit ht in
theorem isRevisable {c : Claim} (hold : old ∈ ctx.old.names) :
    ctx'.isRevisable (g old) (c.relabel f) = ctx.isRevisable old c := by
  unfold Context.isRevisable
  rw [h.isObfuscated, h.old.orderly.isObfuscated_eq hold]
  rfl

omit h ht in
theorem isObfuscated_of_isRevisable {c : Claim}
    (hr : ctx.isRevisable old c = true) : ctx.isObfuscated old = true := by
  unfold Context.isRevisable at hr
  rw [Bool.and_eq_true] at hr
  exact hr.2

omit h in
theorem declared_of_get? {c : Claim} (hc : t.get? old = some c) :
    old ∈ ctx.old.classNames ∧ c.target ∈ ctx.new.classNames :=
  ht.declared (Table.newOf?_eq_some_iff.2 ⟨c, hc, rfl⟩)

theorem doubtful :
    ctx'.doubtful (t.relabel g f) = (ctx.doubtful t).map g := by
  refine h.oldsWhere ht (fun old c hc => ?_) fun old c hp => ?_
  · obtain ⟨hold, hnew⟩ := declared_of_get? ht hc
    have hconsistency : ctx'.consistency (t.relabel g f) (g old)
        (c.relabel f).target = ctx.consistency t old c.target :=
      h.consistency ht hold hnew
    rw [h.isRevisable (.inl hold), hconsistency]
  · exact isObfuscated_of_isRevisable (Bool.and_eq_true_iff.1 hp).1

theorem constantPairs :
    ctx'.constantPairs (t.relabel g f)
      = (ctx.constantPairs t).map (Prod.map g f) := by
  unfold Context.constantPairs
  rw [h.filter_entries ht ?_ ?_, List.map_map, List.map_map]
  · rfl
  · intro e he
    obtain ⟨hold, -⟩ := declared_of_get? ht (Table.mem_entries_iff.1 he)
    change (e.2.origin != .fixed && ctx'.isOldConstant (g e.1)) = _
    rw [h.isOldConstant hold]
  · -- what is not fixed is obfuscated
    intro e he hp
    have hne : e.2.origin ≠ .fixed := by
      simpa using (Bool.and_eq_true_iff.1 hp).1
    exact (mem_oldObfuscated.1 (ht.inferred e.1 e.2
      (Table.mem_entries_iff.1 he) hne).1).2

-- =============================================================== stages

theorem matchConstants :
    ctx'.matchConstants (t.relabel g f)
      = Prod.map id (Table.relabel g f) (ctx.matchConstants t) := by
  unfold Context.matchConstants
  rw [h.constantOrder ht]
  refine Table.sweep_relabel
    (fun t₁ n hn ht₁ => ht₁.of_makes (claimConstant_makes hn t₁) (by decide))
    (fun t₁ n hn ht₁ => h.claimConstant ht₁ ?_) ht
  have hobf := (mem_unmappedOld.1 (mem_constantOrder.1 hn).1).1
  exact (mem_oldObfuscated.1 hobf).1

theorem selectAnchors :
    ctx'.selectAnchors (t.relabel g f)
      = Prod.map id (Table.relabel g f) (ctx.selectAnchors t) := by
  unfold Context.selectAnchors
  rw [h.anchorOrder ht]
  refine Table.sweep_relabel
    (fun t₁ n hn ht₁ => ht₁.of_makes (claimAnchor_makes hn t₁) (by decide))
    (fun t₁ n hn ht₁ => h.claimAnchor ht₁ ?_) ht
  have hobf := (mem_unmappedOld.1 (mem_anchorOrder.1 hn)).1
  exact (mem_oldObfuscated.1 hobf).1

theorem propagateOnce :
    ctx'.propagateOnce (t.relabel g f)
      = Prod.map id (Table.relabel g f) (ctx.propagateOnce t) := by
  unfold Context.propagateOnce
  rw [h.proposals ht]
  refine Table.sweep_relabel
    (fun t₁ p hp ht₁ => ht₁.of_makes (grant_makes hp t₁) (by decide))
    (fun t₁ p hp ht₁ => ?_) ht
  obtain ⟨n, hn, hpn⟩ := List.mem_filterMap.1 (mem_sortBy.1 hp)
  obtain ⟨rfl, hopen, -⟩ := of_propose hpn
  exact h.claim ht₁ (mem_oldObfuscated.1 (mem_unmappedOld.1 hn).1).1
    (mem_newObfuscated.1 (mem_newObfuscated_of_isOpen hopen)).1

theorem propagate :
    ctx'.propagate (t.relabel g f)
      = Prod.map id (Table.relabel g f) (ctx.propagate t) := by
  unfold Context.propagate
  rw [h.settings]
  exact Table.rounds_relabel (P := ctx.Sound)
    (fun t₁ ht₁ => Table.sweep_induction
      (fun t₂ _ hp ht₂ => ht₂.of_makes (grant_makes hp t₂) (by decide)) ht₁)
    (fun _ ht₁ => h.propagateOnce ht₁) ht _

theorem refineOnce :
    ctx'.refineOnce (t.relabel g f)
      = Prod.map id (Table.relabel g f) (ctx.refineOnce t) := by
  unfold Context.refineOnce
  rw [h.doubtful ht]
  refine Table.sweep_relabel (P := ctx.Sound)
    (fun t₁ n _ ht₁ => ht₁.of_makes (refineOne_makes n t₁) (by decide))
    (fun t₁ n hn ht₁ => ?_) ht
  obtain ⟨c, hc, -⟩ := Table.mem_oldsWhere.1 hn
  exact h.refineOne ht₁ (declared_of_get? ht hc).1

theorem refine :
    ctx'.refine (t.relabel g f)
      = Prod.map id (Table.relabel g f) (ctx.refine t) := by
  unfold Context.refine
  rw [h.settings]
  exact Table.rounds_relabel (P := ctx.Sound)
    (fun t₁ ht₁ => Table.sweep_induction
      (fun t₂ n _ ht₂ => ht₂.of_makes (refineOne_makes n t₂) (by decide)) ht₁)
    (fun _ ht₁ => h.refineOnce ht₁) ht _

theorem correctConstants :
    ctx'.correctConstants (t.relabel g f)
      = Prod.map id (Table.relabel g f) (ctx.correctConstants t) := by
  unfold Context.correctConstants
  rw [h.constantPairs ht]
  refine Table.sweep_relabel (P := ctx.Sound)
    (fun t₁ _ hpair ht₁ =>
      ht₁.of_makes (correctConstant_makes hpair t₁) (by decide))
    (fun t₁ pair hpair ht₁ => ?_) ht
  obtain ⟨e, he, rfl⟩ := List.mem_map.1 hpair
  obtain ⟨hold, hnew⟩ := declared_of_get? ht
    (Table.mem_entries_iff.1 (List.mem_filter.1 he).1)
  exact h.correctConstant ht₁ hold hnew

theorem validateOnce :
    ctx'.validateOnce (t.relabel g f)
      = Prod.map id (Table.relabel g f) (ctx.validateOnce t) := by
  unfold Context.validateOnce
  rw [h.oldsWhere ht
    (fun old c hc => h.isRevisable (.inl (declared_of_get? ht hc).1))
    fun old c => isObfuscated_of_isRevisable]
  refine Table.sweep_relabel (P := ctx.Sound)
    (fun t₁ n _ ht₁ => ht₁.of_makes (validateOne_makes n t₁) (by decide))
    (fun t₁ n hn ht₁ => ?_) ht
  obtain ⟨c, hc, -⟩ := Table.mem_oldsWhere.1 hn
  exact h.validateOne ht₁ (declared_of_get? ht hc).1

theorem validateReferences :
    ctx'.validateReferences (t.relabel g f)
      = Prod.map id (Table.relabel g f) (ctx.validateReferences t) := by
  unfold Context.validateReferences
  rw [h.settings]
  exact Table.rounds_relabel (P := ctx.Sound)
    (fun t₁ ht₁ => Table.sweep_induction
      (fun t₂ n _ ht₂ => ht₂.of_makes (validateOne_makes n t₂) (by decide))
      ht₁)
    (fun _ ht₁ => h.validateOnce ht₁) ht _

omit ht

/-- Both runs fix the same names, since stable names stay. -/
theorem fixedNames : ctx'.fixedNames = ctx.fixedNames := by
  refine OrdSet.ext fun n => ?_
  rw [mem_fixedNames, mem_fixedNames, h.isObfuscated,
    h.old.classNames_perm.mem_iff, h.new.classNames_perm.mem_iff,
    List.mem_map, List.mem_map]
  constructor
  · rintro ⟨hn, ⟨a, ha, hga⟩, ⟨b, hb, hfb⟩⟩
    have hoa : ctx.isObfuscated a = false := by
      rw [← h.old.orderly.isObfuscated_eq (.inl ha), hga, hn]
    have hob : ctx.isObfuscated b = false := by
      rw [← h.new.orderly.isObfuscated_eq (.inl hb), hfb, hn]
    rw [h.old.orderly.stable a (.inl ha) hoa] at hga
    rw [h.new.orderly.stable b (.inl hb) hob] at hfb
    exact ⟨hn, hga ▸ ha, hfb ▸ hb⟩
  · rintro ⟨hn, ha, hb⟩
    exact ⟨hn, ⟨n, ha, h.old.orderly.stable n (.inl ha) hn⟩,
      ⟨n, hb, h.new.orderly.stable n (.inl hb) hn⟩⟩

theorem matchFixed :
    ctx'.matchFixed {}
      = Prod.map id (Table.relabel g f) (ctx.matchFixed {}) := by
  have hself : (ctx.matchFixed {}).2.relabel g f = (ctx.matchFixed {}).2 := by
    refine Table.relabel_eq_self sound_matchFixed.twoWay fun old new hnew => ?_
    obtain ⟨c, hc, rfl⟩ := Table.newOf?_eq_some_iff.1 hnew
    rw [get?_matchFixed] at hc
    split at hc
    · next hmem =>
      cases hc
      obtain ⟨hstable, hold, hnew⟩ := mem_fixedNames.1 hmem
      exact ⟨h.old.orderly.stable old (.inl hold) hstable,
        h.new.orderly.stable old (.inl hnew) hstable⟩
    · cases hc
  rw [show ctx'.matchFixed {} = ctx.matchFixed {} by
    unfold Context.matchFixed
    rw [h.fixedNames]]
  exact Prod.ext rfl hself.symm

-- ============================================================== the run

theorem runStages :
    ctx'.runStages
      = { ctx.runStages with table := ctx.runStages.table.relabel g f } := by
  have hfixed : ctx.Sound (ctx.matchFixed {}).2 := sound_matchFixed
  have hrun (s : Stage) (hs : s ≠ .fixedNames) {t : Table}
      (ht : ctx.Sound t) : ctx.Sound (s.run ctx t).2 :=
    ht.of_reaches (reaches_run hs t)
  have hconstants : ctx.Sound (ctx.matchConstants _).2 :=
    hrun .constants (by decide) hfixed
  have hanchors : ctx.Sound (ctx.selectAnchors _).2 :=
    hrun .anchors (by decide) hconstants
  have hpropagated : ctx.Sound (ctx.propagate _).2 :=
    hrun .propagation (by decide) hanchors
  have hrefined : ctx.Sound (ctx.refine _).2 :=
    hrun .refinement (by decide) hpropagated
  have hcorrected : ctx.Sound (ctx.correctConstants _).2 :=
    hrun .correction (by decide) hrefined
  unfold Context.runStages
  rw [h.matchFixed]
  simp only [Prod.map]
  rw [h.matchConstants hfixed]
  simp only [Prod.map]
  rw [h.selectAnchors hconstants]
  simp only [Prod.map]
  rw [h.propagate hanchors]
  simp only [Prod.map]
  rw [h.refine hpropagated]
  simp only [Prod.map]
  rw [h.correctConstants hrefined]
  simp only [Prod.map]
  rw [h.validateReferences hcorrected]
  rfl

-- =========================================================== the report

include ht

theorem describe {c : Claim} (hc : t.get? old = some c) :
    ctx'.describe (t.relabel g f) (g old) (c.relabel f)
      = (ctx.describe t old c).relabel g f := by
  obtain ⟨hold, hnew⟩ := declared_of_get? ht hc
  unfold Context.describe confidence Claim.relabel ClassMatch.relabel
  simp only [h.similarity (.inl hold) (.inl hnew),
    h.consistency ht hold hnew, h.isOldConstant hold, h.isNewConstant hnew,
    h.fieldCloseness (.inl hold) (.inl hnew),
    h.breakdown? (.inl hold) (.inl hnew)]

theorem matchesOf_perm :
    (ctx'.matchesOf (t.relabel g f)).Perm
      ((ctx.matchesOf t).map (ClassMatch.relabel g f)) := by
  unfold matchesOf
  refine ((Table.entries_relabel_perm h.old.injOn ht.within).map _).trans ?_
  rw [List.map_map, List.map_map]
  refine List.Perm.of_eq (List.map_congr_left fun e he => ?_)
  exact h.describe ht (Table.mem_entries_iff.1 he)

theorem warning? {c : Claim} (hc : t.get? old = some c) :
    ctx'.warning? (t.relabel g f) (g old) (c.relabel f)
      = (ctx.warning? t old c).map (SuspiciousPair.relabel g f) := by
  obtain ⟨hold, hnew⟩ := declared_of_get? ht hc
  have hmem (user : String) (huser : user ∈ ctx.fieldUsers old) :
      user ∈ ctx.old.names :=
    .inl (h.old.declared_of_externalFieldUsers huser)
  have htargets : (ctx'.userTargets (t.relabel g f) (g old)).Perm
      ((ctx.userTargets t old).map f) :=
    Correspondence.filterMap (h.fieldUsers_perm hold) fun user huser =>
      h.newOf? ht (hmem user huser)
  have hagreeing : ((ctx'.userTargets (t.relabel g f) (g old)).countP
        fun user => (ctx'.new.evidence.fieldTypesOf user).contains (f c.target))
      = (ctx.userTargets t old).countP
        fun user => (ctx.new.evidence.fieldTypesOf user).contains c.target := by
    refine Correspondence.countP_eq htargets fun target htarget => ?_
    obtain ⟨user, -, huser⟩ := List.mem_filterMap.1 htarget
    have hdeclared := (ht.declared huser).2
    rw [h.new.fieldTypesOf target hdeclared]
    exact OrdSet.contains_image h.new.injOn
      (fun _ => Index.mem_names_of_mem_fieldTypesOf hdeclared) (.inl hnew)
  unfold Context.warning?
  simp only [h.isRevisable (.inl hold),
    Correspondence.length_eq (h.fieldUsers_perm hold),
    Correspondence.length_eq htargets]
  rw [show (c.relabel f).target = f c.target from rfl, hagreeing]
  split <;> rfl

omit h ht in
/-- Only pairs that may be reconsidered are warned about. -/
theorem audit_eq_filter (ctx : Context) (t : Table) :
    ctx.audit t
      = (t.entries.filter fun e => ctx.isRevisable e.1 e.2).filterMap
        fun e => ctx.warning? t e.1 e.2 := by
  unfold Context.audit
  rw [List.filterMap_filter]
  refine List.filterMap_congr fun e _ => ?_
  cases hr : ctx.isRevisable e.1 e.2 with
  | true => rfl
  | false =>
    simp only [Context.warning?, hr, Bool.false_and, Bool.false_eq_true,
      if_false]

theorem audit :
    ctx'.audit (t.relabel g f)
      = (ctx.audit t).map (SuspiciousPair.relabel g f) := by
  have hentries := h.filter_entries ht
    (p := fun e => ctx.isRevisable e.1 e.2)
    (q := fun e => ctx'.isRevisable e.1 e.2)
    (fun e he => h.isRevisable
      (.inl (declared_of_get? ht (Table.mem_entries_iff.1 he)).1))
    fun e _ => isObfuscated_of_isRevisable
  rw [audit_eq_filter, audit_eq_filter, hentries, List.filterMap_map,
    List.map_filterMap]
  refine List.filterMap_congr fun e he => ?_
  exact h.warning? ht (Table.mem_entries_iff.1 (List.mem_filter.1 he).1)

omit ht

/-- The report on the renamed run is the renamed report. -/
theorem reportOf :
    ctx'.reportOf ctx'.runStages
      = (ctx.reportOf ctx.runStages).relabel g f := by
  have ht : ctx.Sound ctx.runStages.table := sound_runStages
  have hmapping : ClassMapping.keyed
        (ctx'.matchesOf (ctx.runStages.table.relabel g f))
      = (ClassMapping.keyed (ctx.matchesOf ctx.runStages.table)).relabel
        g f := by
    refine ClassMapping.keyed_eq_of_perm (ctx'.nodup_olds _) ?_
    refine (h.matchesOf_perm ht).trans (List.Perm.map _ ?_)
    exact (ClassMapping.toList_keyed_perm (ctx.nodup_olds _)).symm
  have hsize : (ctx.runStages.table.relabel g f).size
      = ctx.runStages.table.size := by
    have hp := Table.entries_relabel_perm (f := f) h.old.injOn ht.within
    exact hp.length_eq.trans (List.length_map _)
  unfold Context.reportOf MatchReport.relabel
  rw [h.runStages]
  simp only [hmapping, h.audit ht, h.old.size_eq, h.new.size_eq, hsize]

end Mirrors

end Context

end SymbolMatch
