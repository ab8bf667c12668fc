/-
The users that speak for a pair, and the three places that count them.

A class that holds a field of an old class speaks for a new class if the
table has a pair for it and the class that it became holds a field of the
new one. The audit counts these users by what their targets hold. The
share of agreeing users and the consistency of a pair count by what holds
the new class, and leave out a user that became the new class itself.

# Why the counts are the same

Both directions of the new usage graph tell the same, so a target holds a
field of the new class just if it is among the users of that class. And
the exception is void: only the old class of the pair is carried to the
new one, and a class is not among its own external users
(`carriesBeside_eq_speaksFor`).

The audit leaves users without a pair out of its total. So its total may
be less than the number of users, and never is more.
-/
import SymbolMatch.Proofs.Matching.Counterpart

namespace SymbolMatch

namespace Context

variable {ctx : Context} {t : Table} {old new : String}

-- ============================================================= speakers

/-- Whether the class that a user became has a class among its types. -/
def speaksFor (t : Table) (typesOf : String → OrdSet String)
    (new user : String) : Bool :=
  match t.newOf? user with
  | some target => (typesOf target).contains new
  | none => false

/-- The other classes that hold a field of an old class and speak for a
new one. -/
def fieldSpeakers (ctx : Context) (t : Table) (old new : String) :
    List String :=
  (ctx.old.evidence.externalFieldUsers old).elements.filter
    (speaksFor t ctx.new.evidence.fieldTypesOf new)

-- =============================================================== counts

/-- The count of the audit. -/
theorem countP_targets (ctx : Context) (t : Table) (old new : String) :
    (ctx.userTargets t old).countP
        (fun target => (ctx.new.evidence.fieldTypesOf target).contains new)
      = (ctx.fieldSpeakers t old new).length := by
  unfold userTargets fieldSpeakers
  rw [List.countP_filterMap, ← List.countP_eq_length_filter]
  refine List.countP_congr fun user _ => ?_
  unfold speaksFor
  cases t.newOf? user <;> rfl

/-- Users are carried to users of the target just if they speak for
it. -/
theorem carriesBeside_eq_speaksFor (hnew : ctx.new.Coherent) (ht : t.TwoWay)
    (hpair : t.newOf? old = some new) {user : String} (hne : user ≠ old) :
    carriesBeside t new user (ctx.new.evidence.fieldUsersOf new)
      = speaksFor t ctx.new.evidence.fieldTypesOf new user := by
  unfold carriesBeside speaksFor
  cases huser : t.newOf? user with
  | none => rfl
  | some target =>
    have hother : target ≠ new := by
      rintro rfl
      exact hne (ht.injective huser hpair)
    dsimp only
    rw [Bool.eq_iff_iff, Bool.and_eq_true, bne_iff_ne,
      OrdSet.contains_iff, OrdSet.contains_iff, hnew.fieldUsers_iff]
    exact and_iff_right hother

/-- The users that agree with a pair are those that speak for it. -/
theorem agreeingUsers_eq_fieldSpeakers (hnew : ctx.new.Coherent)
    (ht : t.TwoWay) (hpair : t.newOf? old = some new) :
    ctx.agreeingUsers t old new = ctx.fieldSpeakers t old new := by
  unfold agreeingUsers fieldSpeakers fieldUsers
  refine List.filter_congr fun user huser => ?_
  have hne : user ≠ old :=
    of_decide_eq_true (OrdSet.mem_filter.1 (OrdSet.mem_def.2 huser)).2
  exact carriesBeside_eq_speaksFor hnew ht hpair hne

/-- What a warning says of its pair. -/
theorem of_mem_audit {w : SuspiciousPair} (h : w ∈ ctx.audit t) :
    ∃ c, t.get? w.old = some c ∧ w.new = c.target
      ∧ w.agreeing = (ctx.fieldSpeakers t w.old c.target).length
      ∧ w.total = (ctx.userTargets t w.old).length := by
  unfold audit at h
  obtain ⟨⟨old, c⟩, hentry, hw⟩ := List.mem_filterMap.1 h
  unfold warning? at hw
  dsimp only at hw
  split at hw
  · cases hw
    exact ⟨c, Table.mem_entries_iff.1 hentry, rfl,
      countP_targets ctx t old c.target, rfl⟩
  · cases hw

-- ============================================================ agreement

/-- The counts that are made of the users of a pair, next to the number of
those that speak for it. -/
structure UserCounts (ctx : Context) (t : Table) (old : String) (c : Claim) :
    Prop where
  /-- The count of the audit, whether or not it leads to a warning. -/
  audited : (ctx.userTargets t old).countP
      (fun target => (ctx.new.evidence.fieldTypesOf target).contains c.target)
    = (ctx.fieldSpeakers t old c.target).length
  agreeing : ctx.agreeingUsers t old c.target
    = ctx.fieldSpeakers t old c.target
  share : ctx.userAgreement? t old c.target
    = if (ctx.fieldUsers old).length = 0 then none
      else some (Binary64.ofNat (ctx.fieldSpeakers t old c.target).length
        / Binary64.ofNat (ctx.fieldUsers old).length)
  /-- Each of them has the weight 3. -/
  weighted :
    let total := 2 * (ctx.otherFieldTypes old).length
      + 3 * (ctx.fieldUsers old).length
    ctx.consistency t old c.target
      = if total = 0 then 0.5
        else Binary64.ofNat
            (2 * (ctx.agreeingFieldTypes t old c.target).length
              + 3 * (ctx.fieldSpeakers t old c.target).length)
          / Binary64.ofNat total
  mapped_le : (ctx.userTargets t old).length ≤ (ctx.fieldUsers old).length
  warned : ∀ w ∈ ctx.audit t, w.old = old →
    w.new = c.target
      ∧ w.agreeing = (ctx.fieldSpeakers t old c.target).length
      ∧ w.total = (ctx.userTargets t old).length

/-- Speakers are counted right wherever the agreeing users are the
speakers. -/
theorem userCounts_of_agreeing {c : Claim} (hc : t.get? old = some c)
    (h : ctx.agreeingUsers t old c.target
      = ctx.fieldSpeakers t old c.target) : ctx.UserCounts t old c where
  audited := countP_targets ctx t old c.target
  agreeing := h
  share := by
    unfold userAgreement?
    rw [h]
    simp only [List.isEmpty_iff, List.length_eq_zero_iff]
  weighted := by
    unfold consistency
    rw [h]
    simp only [Nat.pos_iff_ne_zero, ite_not]
  mapped_le := List.length_filterMap_le _ _
  warned := by
    rintro w hw rfl
    obtain ⟨c', hc', hnew, hagreeing, htotal⟩ := of_mem_audit hw
    rw [hc] at hc'
    cases hc'
    exact ⟨hnew, hagreeing, htotal⟩

/-- On the pairs of any table that calls lead to, between any two accepted
snapshots, the audit, the share of agreeing users and the consistency of a
pair count the same users, those that speak for the pair; and the audit
counts them among no more users than the share does. -/
theorem user_counts_coincide (oldSettings newSettings settings : Settings)
    (cs ds : List ClassDecl) (s r : Snapshot)
    (hs : Snapshot.ofClasses cs = .ok s) (hr : Snapshot.ofClasses ds = .ok r)
    (calls : List Table.Call) :
    ∃ x y, Index.build oldSettings s = .ok x
      ∧ Index.build newSettings r = .ok y
      ∧ ∀ old c, (Table.replay {} calls).get? old = some c →
        (Context.mk settings x y).UserCounts (.replay {} calls) old c := by
  obtain ⟨rfl, hvalid⟩ := Snapshot.ofClasses_eq_ok_iff.1 hs
  obtain ⟨rfl, hvalid'⟩ := Snapshot.ofClasses_eq_ok_iff.1 hr
  have ht : (Table.replay {} calls).TwoWay :=
    Table.replay_induction (fun _ call ht => ht.call call) Table.twoWay_empty
      calls
  refine ⟨_, _, Index.build_eq_ok oldSettings hvalid,
    Index.build_eq_ok newSettings hvalid', fun old c hc => ?_⟩
  have hpair := Table.newOf?_eq_some_iff.2 ⟨c, hc, rfl⟩
  exact userCounts_of_agreeing hc (agreeingUsers_eq_fieldSpeakers
    (Index.coherent_summary hvalid'.distinct) ht hpair)

end Context

namespace Sample

/-- A class with six users besides itself. -/
def crowd : List ClassDecl :=
  [holder "a" ["a"], holder "b" ["a"], holder "c" ["a", "b"],
   holder "d" ["a"], holder "e" ["a"], holder "f" ["a"], holder "g" ["a"]]

/-- Classes of which one holds a field of the first. -/
def dispersed : List ClassDecl :=
  [holder "p" ["p"], holder "q" ["p"], holder "r" ["q"], bare "s", bare "t"]

/-- Calls that pair the class with the first of these, in the end, and
four of its users with the others. -/
def crowdCalls : List Table.Call :=
  [.claim "a" "t" 0.5 .anchor, .claim "c" "q" 0.9 .anchor,
   .claim "d" "r" 0.9 .anchor, .claim "e" "s" 0.9 .anchor,
   .reassign "a" "p" 0.8 .refined, .claim "b" "t" 0.9 .anchor]

end Sample

namespace Context

/-- One of the six users speaks for the pair. The audit finds it among the
four that have a pair, and has a warning. -/
theorem user_counts_coincide_crowd :
    Snapshot.ofClasses Sample.crowd = .ok ⟨Sample.crowd⟩
      ∧ Snapshot.ofClasses Sample.dispersed = .ok ⟨Sample.dispersed⟩
      ∧ (Table.replay {} Sample.crowdCalls).get? "a"
        = some ⟨"p", 0.8, .refined⟩
      ∧ ∃ x y, Index.build .default ⟨Sample.crowd⟩ = .ok x
        ∧ Index.build .default ⟨Sample.dispersed⟩ = .ok y
        ∧ (Context.mk .default x y).UserCounts (.replay {} Sample.crowdCalls)
          "a" ⟨"p", 0.8, .refined⟩
        ∧ (Context.mk .default x y).fieldUsers "a"
          = ["b", "c", "d", "e", "f", "g"]
        ∧ (Context.mk .default x y).fieldSpeakers
          (.replay {} Sample.crowdCalls) "a" "p" = ["c"]
        ∧ (Context.mk .default x y).audit (.replay {} Sample.crowdCalls)
          = [⟨"a", "p", 1, 4, 0.25⟩] := by
  have hold : Snapshot.ofClasses Sample.crowd = .ok ⟨Sample.crowd⟩ := rfl
  have hnew : Snapshot.ofClasses Sample.dispersed
      = .ok ⟨Sample.dispersed⟩ := rfl
  have hentry : (Table.replay {} Sample.crowdCalls).get? "a"
      = some ⟨"p", 0.8, .refined⟩ := rfl
  obtain ⟨x, y, hx, hy, hcounts⟩ := user_counts_coincide .default .default
    .default _ _ _ _ hold hnew Sample.crowdCalls
  refine ⟨hold, hnew, hentry, x, y, hx, hy, hcounts _ _ hentry, ?_⟩
  rw [Index.build_eq_ok .default (Snapshot.ofClasses_eq_ok_iff.1 hold).2]
    at hx
  rw [Index.build_eq_ok .default (Snapshot.ofClasses_eq_ok_iff.1 hnew).2]
    at hy
  cases hx
  cases hy
  decide +kernel

end Context

end SymbolMatch
