/-
The counts of a matching run add up.

A report tells how many pairs each stage made, how many pairs there are
and how many old classes were left without one. That these numbers fit
together rests on two facts about single calls: a call that adds a pair
makes the table larger by one if it is granted and leaves it alone if it
is not (`Table.size_call`), and a call that moves a pair changes no
class from mapped to unmapped or back (`Table.isMapped_call_of_moves`).
The first is summed up over sweeps and rounds, the second is kept by
them.

# Calls that are granted

The count of a stage is the number of its granted calls. The stages that
enter fixed names, constant-like classes and anchors make no other
calls: whatever they decide to call is granted (`Table.Grants`). For
that the decision of an attempt is told apart from the call it ends in
(`constantCall?`, `anchorCall?`).
-/
import SymbolMatch.Proofs.Matching.Report
import SymbolMatch.Proofs.Matching.Stages

namespace SymbolMatch

-- ================================================================ sizes

namespace Table

variable {α : Type} {t : Table} {old new : String} {score : Binary64}
  {origin : Origin} {attempt : Table → α → Bool × Table} {xs : List α}

theorem size_claim : (t.claim old new score origin).2.size
    = t.size + (t.claim old new score origin).1.toNat := by
  cases hg : (t.claim old new score origin).1 with
  | false =>
    rw [claim_refused hg]
    rfl
  | true =>
    obtain ⟨hmapped, hfree⟩ := claim_granted_iff.1 hg
    have hinsert : (t.claim old new score origin).2.forward
        = t.forward.insert old ⟨new, score, origin⟩ := by
      unfold claim
      simp [hmapped, hfree]
    unfold size
    rw [hinsert, OrdMap.size_insert,
      show t.forward.contains old = false from hmapped]
    rfl

theorem isMapped_reassign_eq (k : String) :
    (t.reassign old new score origin).2.isMapped k = t.isMapped k := by
  cases hg : (t.reassign old new score origin).1 with
  | false => rw [reassign_refused hg]
  | true =>
    rw [isMapped_eq, get?_reassign hg]
    by_cases hk : k = old
    · rw [if_pos hk, hk, (reassign_granted_iff.1 hg).1]
      rfl
    · rw [if_neg hk]
      rfl

/-- Tables that map the same classes have the same size. -/
theorem size_eq_of_isMapped {t' : Table}
    (h : ∀ k, t'.isMapped k = t.isMapped k) : t'.size = t.size := by
  have hsize (t : Table) : t.size = t.forward.keys.length :=
    (List.length_map _).symm
  rw [hsize, hsize]
  refine ((List.perm_ext_iff_of_nodup t'.forward.nodup_keys
    t.forward.nodup_keys).2 fun k => ?_).length_eq
  rw [← OrdMap.contains_iff, ← OrdMap.contains_iff]
  exact iff_of_eq (congrArg (· = true) (h k))

/-- A call adds a pair if it is one that adds and it is granted. -/
theorem size_call (t : Table) (x : Call) :
    (t.call x).2.size = t.size + (x.adds && (t.call x).1).toNat := by
  cases x with
  | fix old new => exact size_claim
  | claim old new score origin => exact size_claim
  | reassign old new score origin =>
    exact size_eq_of_isMapped isMapped_reassign_eq

/-- A call that moves a pair maps and unmaps nothing. -/
theorem isMapped_call_of_moves {x : Call} (hx : x.adds = false)
    (k : String) : (t.call x).2.isMapped k = t.isMapped k := by
  cases x with
  | fix old new => cases hx
  | claim old new score origin => cases hx
  | reassign old new score origin => exact isMapped_reassign_eq k

theorem Makes.size {p : Call → Prop} {r : Bool × Table} (h : Makes p t r)
    (hp : ∀ x, p x → x.adds = true) : r.2.size = t.size + r.1.toNat := by
  cases h with
  | idle => rfl
  | @call x hx =>
    rw [size_call, hp x hx]
    rfl

/-- A sweep of attempts that add pairs adds as many as it counts. -/
theorem size_sweep (h : ∀ t, ∀ a ∈ xs,
      (attempt t a).2.size = t.size + (attempt t a).1.toNat) (t : Table) :
    (t.sweep attempt xs).2.size = t.size + (t.sweep attempt xs).1 := by
  induction xs generalizing t with
  | nil => rfl
  | cons a rest ih =>
    have hfirst := h t a List.mem_cons_self
    have hrest := ih (fun t b hb => h t b (List.mem_cons_of_mem _ hb))
      (attempt t a).2
    unfold sweep
    dsimp only
    omega

theorem size_rounds {round : Table → Nat × Table}
    (h : ∀ t, (round t).2.size = t.size + (round t).1) (limit : Nat)
    (t : Table) :
    (t.rounds round limit).2.size = t.size + (t.rounds round limit).1 := by
  induction limit generalizing t with
  | zero => rfl
  | succ limit ih =>
    have hround := h t
    unfold rounds
    split
    · next t₁ heq =>
      rw [heq] at hround
      exact hround
    · next count t₁ _ heq =>
      rw [heq] at hround
      have hrest := ih t₁
      dsimp only at hround ⊢
      omega

-- ======================================================== granted calls

/-- In a sweep every attempt makes the call it decides on, and all these
calls are granted. -/
def Grants (attempt : Table → α → Bool × Table)
    (decision : Table → α → Option Call) (t : Table) (xs : List α) : Prop :=
  ∀ done a rest, xs = done ++ a :: rest →
    let now := (t.sweep attempt done).2
    attempt now a = now.act (decision now a)
      ∧ ∀ x, decision now a = some x → (now.call x).1 = true

/-- A call that adds a pair of free classes is granted. -/
theorem call_granted {x : Call} (hx : x.adds = true)
    (hold : t.isMapped x.source = false)
    (hnew : t.isClaimed x.entry.target = false) : (t.call x).1 = true := by
  cases x with
  | fix old new => exact claim_granted_iff.2 ⟨hold, hnew⟩
  | claim old new score origin => exact claim_granted_iff.2 ⟨hold, hnew⟩
  | reassign old new score origin => cases hx

/-- A call changes nothing for any class but its own. -/
theorem isMapped_call_of_ne {x : Call} {k : String} (h : k ≠ x.source) :
    (t.call x).2.isMapped k = t.isMapped k := by
  cases hg : (t.call x).1 with
  | false => rw [call_refused hg]
  | true =>
    rw [isMapped_eq, get?_call hg, if_neg h]
    rfl

/-- A sweep over different classes without a pair, each of which claims
for itself and a class that no one holds. -/
theorem grants_of_free {attempt : Table → String → Bool × Table}
    {decision : Table → String → Option Call} {olds : List String}
    (hact : ∀ t old, attempt t old = t.act (decision t old))
    (hcall : ∀ t old x, decision t old = some x →
      x.adds = true ∧ x.source = old ∧ t.isClaimed x.entry.target = false)
    (hnodup : olds.Nodup) (hfree : ∀ old ∈ olds, t.isMapped old = false) :
    Grants attempt decision t olds := by
  intro done old rest holds now
  refine ⟨hact now old, fun x hx => ?_⟩
  obtain ⟨hadds, hold, hclaimed⟩ := hcall now old x hx
  refine call_granted hadds ?_ hclaimed
  rw [hold]
  subst holds
  -- the attempts before were for other classes
  refine sweep_induction (P := fun t => t.isMapped old = false)
    (fun t₁ other hother ht₁ => ?_) (hfree old (by simp))
  have hne : old ≠ other := fun heq =>
    (List.nodup_append.1 hnodup).2.2 other hother old
      List.mem_cons_self heq.symm
  rw [hact]
  cases hdecision : decision t₁ other with
  | none => exact ht₁
  | some y =>
    rw [show t₁.act (some y) = t₁.call y from rfl, isMapped_call_of_ne, ht₁]
    rw [(hcall t₁ other y hdecision).2.1]
    exact hne

/-- The table after a sweep. -/
theorem sweep_snd (t : Table) (xs : List α) :
    (t.sweep attempt xs).2 = xs.foldl (fun t a => (attempt t a).2) t := by
  induction xs generalizing t with
  | nil => rfl
  | cons a rest ih => exact ih (attempt t a).2

end Table

namespace Context

variable {ctx : Context}

/-- No fixed name is refused. -/
theorem grants_fixedNames (ctx : Context) :
    Table.Grants (fun t name => t.fix name name)
      (fun _ name => some (.fix name name)) {} ctx.fixedNames.elements := by
  intro done name rest hnames now
  refine ⟨rfl, fun x hx => ?_⟩
  cases hx
  have hnodup := ctx.fixedNames.nodup_elements
  rw [hnames, List.nodup_append] at hnodup
  obtain ⟨htwo, hget⟩ := foldl_fix hnodup.1 Table.twoWay_empty
    (fun _ _ => rfl) (fun _ _ h => by cases h)
  have hnow : now = done.foldl (fun t name => (t.fix name name).2) {} :=
    Table.sweep_snd {} done
  rw [← hnow] at htwo hget
  refine fix_self_granted htwo (fun k new hk => ?_) ?_
  · obtain ⟨c, hc, rfl⟩ := Table.newOf?_eq_some_iff.1 hk
    rw [hget] at hc
    split at hc
    · cases hc
      rfl
    · cases hc
  · have hout : name ∉ done := fun hmem =>
      hnodup.2.2 name hmem name List.mem_cons_self rfl
    rw [Table.newOf?_eq_map, hget, if_neg hout]
    rfl

variable (hnodup : ctx.old.classNames.Nodup)

include hnodup in
theorem nodup_unmappedOld (t : Table) : (ctx.unmappedOld t).Nodup :=
  (hnodup.filter _).filter _

include hnodup in
/-- No claim of the pre-pass is refused. -/
theorem grants_constants (t : Table) :
    t.Grants ctx.claimConstant ctx.constantCall? (ctx.constantOrder t) := by
  refine Table.grants_of_free claimConstant_eq_act (fun t₁ old x hx => ?_) ?_
    fun old hold => (mem_unmappedOld.1 (mem_constantOrder.1 hold).1).2
  · obtain ⟨new, score, rfl, hfree, -⟩ := of_constantCall? hx
    exact ⟨rfl, rfl, (mem_unclaimedNew.1 hfree).2⟩
  · exact (sortBy_perm _).nodup_iff.2
      ((nodup_unmappedOld hnodup t).filter _)

include hnodup in
/-- No claim of an anchor is refused. -/
theorem grants_anchors (t : Table) :
    t.Grants ctx.claimAnchor ctx.anchorCall? (ctx.anchorOrder t) := by
  refine Table.grants_of_free claimAnchor_eq_act (fun t₁ old x hx => ?_) ?_
    fun old hold => (mem_unmappedOld.1 (mem_anchorOrder.1 hold)).2
  · obtain ⟨new, score, rfl, hfree, -⟩ := of_anchorCall? hx
    exact ⟨rfl, rfl, (mem_unclaimedNew.1 hfree).2⟩
  · exact (sortBy_perm _).nodup_iff.2 (nodup_unmappedOld hnodup t)

end Context

-- =============================================================== stages

namespace Stage

variable {ctx : Context}

/-- The stages of a run before this one. -/
def before (s : Stage) : List Stage := all.takeWhile (· ≠ s)

/-- A stage that adds pairs, other than the first, adds as many as it
counts. -/
theorem size_run {s : Stage} (hs : s.adds = true) (hne : s ≠ fixedNames)
    (t : Table) : (s.run ctx t).2.size = t.size + (s.run ctx t).1 := by
  have hadds (x : Table.Call) (hx : ctx.Tries s x) : x.adds = true :=
    hx.adds.trans hs
  cases s with
  | fixedNames => exact absurd rfl hne
  | constants =>
    exact Table.size_sweep (fun t₁ old hold =>
      (Context.claimConstant_makes hold t₁).size hadds) t
  | anchors =>
    exact Table.size_sweep (fun t₁ old hold =>
      (Context.claimAnchor_makes hold t₁).size hadds) t
  | propagation =>
    refine Table.size_rounds (fun t₀ => ?_) _ t
    exact Table.size_sweep (fun t₁ p hp =>
      (Context.grant_makes hp t₁).size hadds) t₀
  | refinement => cases hs
  | correction => cases hs
  | validation => cases hs

/-- A stage that moves pairs maps and unmaps nothing. -/
theorem isMapped_run {s : Stage} (hs : s.adds = false) (t : Table)
    (name : String) : (s.run ctx t).2.isMapped name = t.isMapped name := by
  refine s.run_induction (P := fun t₁ => t₁.isMapped name = t.isMapped name)
    (fun t₁ x hx ht₁ => ?_) rfl
  rw [Table.isMapped_call_of_moves (hx.adds.trans hs), ht₁]

end Stage

namespace Context

variable {ctx : Context}

/-- The table that a stage of a run starts from. -/
def entering (ctx : Context) (s : Stage) : Table := ctx.after s.before

/-- The count that a stage of a run returns. -/
def countOf (ctx : Context) (s : Stage) : Nat :=
  (s.run ctx (ctx.entering s)).1

/-- A mapped class stays mapped through all later stages. -/
theorem isMapped_after_append {earlier : List Stage} {name : String}
    (h : (ctx.after earlier).isMapped name = true) (later : List Stage) :
    (ctx.after (earlier ++ later)).isMapped name = true := by
  unfold after at h ⊢
  rw [List.foldl_append]
  refine List.foldlRecOn (motive := (Table.isMapped · name = true))
    later _ h fun t ht s _ => ?_
  exact s.run_induction (P := fun t => t.isMapped name = true)
    (fun t x _ ht => Table.isMapped_call ht x) ht

/-- The first stage is a sweep in which every attempt counts. -/
theorem matchFixed_eq_sweep (ctx : Context) :
    ctx.matchFixed {}
      = ({} : Table).sweep (fun t name => t.fix name name)
        ctx.fixedNames.elements := by
  have hcount (names : List String) (t : Table)
      (h : t.Grants (fun t name => t.fix name name)
        (fun _ name => some (.fix name name)) names) :
      (t.sweep (fun t name => t.fix name name) names).1 = names.length := by
    induction names generalizing t with
    | nil => rfl
    | cons name rest ih =>
      have hfirst : (t.fix name name).1 = true :=
        (h [] name rest rfl).2 _ rfl
      have hrest := ih (t.fix name name).2 fun done other later heq =>
        h (name :: done) other later (congrArg (name :: ·) heq)
      unfold Table.sweep
      dsimp only
      rw [hfirst, hrest, List.length_cons, Bool.toNat_true, Nat.add_comm]
  refine Prod.ext ?_ (Table.sweep_snd _ _).symm
  exact (hcount _ _ ctx.grants_fixedNames).symm

/-- The pairs of a run are those that its adding stages counted. -/
theorem size_runStages (ctx : Context) :
    ctx.runStages.table.size
      = ctx.runStages.fixed + ctx.runStages.constants + ctx.runStages.anchors
        + ctx.runStages.propagated := by
  have hfixed : (ctx.matchFixed {}).2.size = 0 + (ctx.matchFixed {}).1 := by
    rw [matchFixed_eq_sweep]
    exact Table.size_sweep (fun t name _ => Table.size_claim) {}
  have hentered : (ctx.entering .constants).size = ctx.runStages.fixed :=
    hfixed.trans (Nat.zero_add _)
  have hconstants : (ctx.entering .anchors).size
      = (ctx.entering .constants).size + ctx.runStages.constants :=
    Stage.size_run (s := .constants) rfl (by decide) _
  have hanchors : (ctx.entering .propagation).size
      = (ctx.entering .anchors).size + ctx.runStages.anchors :=
    Stage.size_run (s := .anchors) rfl (by decide) _
  have hpropagated : (ctx.entering .refinement).size
      = (ctx.entering .propagation).size + ctx.runStages.propagated :=
    Stage.size_run (s := .propagation) rfl (by decide) _
  have hmoved (s : Stage) (hs : s.adds = false) (t : Table) :
      (s.run ctx t).2.size = t.size :=
    Table.size_eq_of_isMapped (Stage.isMapped_run hs t)
  have hrefined : (ctx.entering .correction).size
      = (ctx.entering .refinement).size := hmoved .refinement rfl _
  have hcorrected : (ctx.entering .validation).size
      = (ctx.entering .correction).size := hmoved .correction rfl _
  have hvalidated : ctx.runStages.table.size
      = (ctx.entering .validation).size := hmoved .validation rfl _
  omega

-- ============================================================= unmapped

/-- The old classes with a pair are the keys of a sound table. -/
theorem Sound.countP_isMapped {t : Table} (h : ctx.Sound t)
    (hnodup : ctx.old.classNames.Nodup) :
    ctx.old.classNames.countP t.isMapped = t.size := by
  have hkeys : (ctx.old.classNames.filter t.isMapped).Perm t.forward.keys := by
    refine (List.perm_ext_iff_of_nodup (hnodup.filter _)
      t.forward.nodup_keys).2 fun name => ?_
    rw [List.mem_filter, ← OrdMap.contains_iff]
    refine ⟨And.right, fun hmapped => ⟨?_, hmapped⟩⟩
    obtain ⟨c, hc⟩ := Option.isSome_iff_exists.1 hmapped
    exact (h.declared (Table.newOf?_eq_some_iff.2 ⟨c, hc, rfl⟩)).1
  rw [List.countP_eq_length_filter, hkeys.length_eq]
  exact List.length_map _

end Context

-- ======================================================== the guarantee

/-- The counts of a report fit its mapping, and each of them counts what
it says. -/
structure MatchReport.Accounts (ctx : Context) (report : MatchReport) :
    Prop where
  /-- A class that is mapped stays mapped through all later stages. -/
  stays : ∀ earlier later name, (ctx.after earlier).isMapped name = true →
    (ctx.after (earlier ++ later)).isMapped name = true
  /-- The stages that move pairs map and unmap nothing. -/
  moves : ∀ s ∈ [Stage.refinement, .correction, .validation], ∀ t name,
    (s.run ctx t).2.isMapped name = t.isMapped name
  /-- The first stage enters the fixed names one by one and counts those
  that are entered. -/
  entered : ctx.matchFixed {} = ({} : Table).sweep
    (fun t name => t.fix name name) ctx.fixedNames.elements
  /-- Every fixed name is entered. -/
  fixes : Table.Grants (fun t name => t.fix name name)
    (fun _ name => some (.fix name name)) {} ctx.fixedNames.elements
  /-- Every claim of a pair of constant-like classes is granted. -/
  constantClaims : (ctx.entering .constants).Grants ctx.claimConstant
    ctx.constantCall? (ctx.constantOrder (ctx.entering .constants))
  /-- Every claim of an anchor is granted. -/
  anchorClaims : (ctx.entering .anchors).Grants ctx.claimAnchor
    ctx.anchorCall? (ctx.anchorOrder (ctx.entering .anchors))
  /-- The pairs are those that were fixed, claimed in the pre-pass,
  anchored or propagated. -/
  size : report.mapping.size
    = report.stats.fixed + ctx.countOf .constants + report.stats.anchors
      + report.stats.propagated
  /-- The pairs of constant-like classes are counted once when they are
  made and once when they are corrected. -/
  constants : report.stats.constants
    = ctx.countOf .constants + ctx.countOf .correction
  /-- Every old class is mapped or is counted as unmapped. -/
  classes : report.stats.unmapped + report.mapping.size
    = report.stats.oldClasses
  oldClasses : report.stats.oldClasses = ctx.old.classNames.length
  unmapped : report.stats.unmapped
    = ctx.old.classNames.countP fun name => (report.mapping.get? name).isNone

namespace Context

variable {ctx : Context}

theorem isNone_mapping_reportOf (run : Run) (name : String) :
    ((ctx.reportOf run).mapping.get? name).isNone
      = !run.table.isMapped name := by
  have h : (ctx.reportOf run).mapping.newName? name = run.table.newOf? name :=
    newName?_reportOf run name
  unfold ClassMapping.newName? at h
  rw [Table.newOf?_eq_map] at h
  rw [Table.isMapped_eq, ← Option.isSome_map (f := Claim.target),
    ← h, Option.isSome_map, Option.not_isSome]

theorem accounts_reportOf (hnodup : ctx.old.classNames.Nodup) :
    (ctx.reportOf ctx.runStages).Accounts ctx := by
  have hsize : (ctx.reportOf ctx.runStages).mapping.size
      = ctx.runStages.table.size :=
    (ClassMapping.size_keyed (ctx.nodup_olds _)).trans (List.length_map _)
  have hlength : ctx.old.classNames.length = ctx.old.size :=
    List.length_map _
  have hmapped : ctx.old.classNames.countP ctx.runStages.table.isMapped
      = ctx.runStages.table.size := sound_runStages.countP_isMapped hnodup
  have hsplit := List.length_eq_countP_add_countP ctx.runStages.table.isMapped
    (l := ctx.old.classNames)
  simp only [decide_not, Bool.decide_eq_true] at hsplit
  refine
    { stays := fun earlier later name h => isMapped_after_append h later
      moves := fun s hs t name => Stage.isMapped_run ?_ t name
      entered := ctx.matchFixed_eq_sweep
      fixes := ctx.grants_fixedNames
      constantClaims := grants_constants hnodup _
      anchorClaims := grants_anchors hnodup _
      size := hsize.trans ctx.size_runStages
      constants := rfl
      classes := ?_
      oldClasses := hlength.symm
      unmapped := ?_ }
  · simp only [List.mem_cons, List.not_mem_nil, or_false] at hs
    rcases hs with rfl | rfl | rfl <;> rfl
  · rw [hsize]
    show ctx.old.size - ctx.runStages.table.size + _ = ctx.old.size
    omega
  · simp only [isNone_mapping_reportOf]
    show ctx.old.size - ctx.runStages.table.size = _
    omega

end Context

-- ========================================================== the theorem

namespace Resolver

/-- Matching the classes of two indexes under accepted settings ends with
a report whose counts add up. An index lists each class once. -/
theorem matchClasses_accounts (settings : Settings) (r : Resolver)
    (old new : Index) (hr : ofSettings settings = .ok r)
    (hold : old.classNames.Nodup) :
    ∃ report, r.matchClasses old new = .ok report
      ∧ report.Accounts ⟨settings, old, new⟩ := by
  obtain ⟨hvalid, rfl⟩ := ofSettings_eq_ok_iff.1 hr
  refine ⟨_, ?_, Context.accounts_reportOf hold⟩
  exact Outcome.check_bind_eq_ok_iff.2
    ⟨Outcome.mapError_eq_ok_iff.2 hvalid,
      Outcome.mapError_eq_ok_iff.2 (Context.matchClasses_eq_ok _)⟩

theorem matchClasses_accounts_sample :
    ∃ report, (⟨.default⟩ : Resolver).matchClasses
        (.summary .default ⟨Sample.before⟩) (.summary .default ⟨Sample.after⟩)
        = .ok report
      ∧ report.Accounts (.ofSnapshots .default ⟨Sample.before⟩
        ⟨Sample.after⟩) :=
  matchClasses_accounts .default ⟨.default⟩ _ _ ofSettings_default
    (by rw [Index.classNames_summary]; decide)

end Resolver

end SymbolMatch
