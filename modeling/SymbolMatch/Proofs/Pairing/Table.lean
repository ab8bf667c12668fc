/-
The table of pairs under any sequence of calls.

A table is kept in two directions that change together. What has to be
shown is that no sequence of calls, whatever its arguments, lets them
drift apart: a call that is refused changes nothing, and a call that is
granted changes one pair in both directions.

# How

- `claim_granted_iff` and `reassign_granted_iff` say when a call is
  granted, and `get?_claim`, `oldOf?_claim`, `get?_reassign`,
  `oldOf?_reassign` say what every lookup gives after a granted call.
  Nothing below opens the two operations again.
- `TwoWay` is the invariant. A granted call gives one class a target that
  no one holds (`TwoWay.put`), so a call keeps it, and an induction over
  the calls shows that a run keeps it.
- That a fixed claim stays and that a mapped class stays mapped are
  proved in the same way, call by call and then for the run.
-/
import SymbolMatch.Pairing.Table
import SymbolMatch.Proofs.Ordered.Map

namespace SymbolMatch.Table

variable {t : Table} {old new : String} {score : Binary64} {origin : Origin}

-- ============================================================ reading

theorem newOf?_eq_map (t : Table) (old : String) :
    t.newOf? old = (t.get? old).map (·.target) := rfl

theorem newOf?_eq_some_iff :
    t.newOf? old = some new ↔ ∃ c, t.get? old = some c ∧ c.target = new :=
  Option.map_eq_some_iff

theorem isMapped_eq (t : Table) (old : String) :
    t.isMapped old = (t.get? old).isSome := rfl

theorem isClaimed_eq (t : Table) (new : String) :
    t.isClaimed new = (t.oldOf? new).isSome := rfl

theorem newOf?_eq_none_iff :
    t.newOf? old = none ↔ t.isMapped old = false := by
  rw [isMapped_eq, newOf?_eq_map]
  cases t.get? old <;> simp

theorem isFixed_iff :
    t.isFixed old = true ↔ ∃ c, t.get? old = some c ∧ c.origin = .fixed := by
  unfold isFixed get?
  cases t.forward.get? old <;> simp

/-- The entries of a table are what its lookups find. -/
theorem mem_entries_iff {c : Claim} :
    (old, c) ∈ t.entries ↔ t.get? old = some c :=
  OrdMap.get?_eq_some_iff.symm

theorem mem_oldsWhere {p : String → Claim → Bool} :
    old ∈ t.oldsWhere p ↔ ∃ c, t.get? old = some c ∧ p old c = true := by
  unfold oldsWhere
  simp [mem_entries_iff]

-- ===================================================== granted or not

/-- A claim is granted to an unmapped class on an unclaimed one. -/
theorem claim_granted_iff :
    (t.claim old new score origin).1 = true
      ↔ t.isMapped old = false ∧ t.isClaimed new = false := by
  unfold claim
  split
  · next h =>
    rcases Bool.or_eq_true_iff.1 h with h | h <;> simp [h]
  · next h =>
    simp only [Bool.or_eq_true, not_or, Bool.not_eq_true] at h
    simp [h]

/-- A reassignment is granted to a mapped class that is not fixed, on an
unclaimed one. -/
theorem reassign_granted_iff :
    (t.reassign old new score origin).1 = true
      ↔ t.isMapped old = true ∧ t.isFixed old = false
        ∧ t.isClaimed new = false := by
  rw [isMapped_eq]
  unfold reassign get?
  split
  · next h =>
    rcases Bool.or_eq_true_iff.1 h with h | h <;> simp [h]
  · next h =>
    simp only [Bool.or_eq_true, not_or, Bool.not_eq_true] at h
    cases t.forward.get? old <;> simp [h]

/-- A claim that is refused changes nothing. -/
theorem claim_refused (h : (t.claim old new score origin).1 = false) :
    (t.claim old new score origin).2 = t := by
  unfold claim at h ⊢
  split at h
  · next hc => rw [if_pos hc]
  · cases h

/-- A class that is mapped claims nothing more. -/
theorem claim_of_isMapped (h : t.isMapped old = true) :
    (t.claim old new score origin).2 = t := by
  apply claim_refused
  rw [← Bool.not_eq_true, claim_granted_iff, h]
  intro hgranted
  cases hgranted.1

/-- A reassignment that is refused changes nothing. -/
theorem reassign_refused (h : (t.reassign old new score origin).1 = false) :
    (t.reassign old new score origin).2 = t := by
  unfold reassign at h ⊢
  split at h
  · next hc => rw [if_pos hc]
  · next hc =>
    rw [if_neg hc]
    split at h
    · rfl
    · cases h

-- ======================================================== granted calls

/-- After a granted claim the old class has the new claim, and no other
class's claim has changed. -/
theorem get?_claim (h : (t.claim old new score origin).1 = true)
    (k : String) :
    (t.claim old new score origin).2.get? k
      = if k = old then some ⟨new, score, origin⟩ else t.get? k := by
  unfold claim at h ⊢
  split at h
  · cases h
  · next hc =>
    rw [if_neg hc]
    exact OrdMap.get?_insert _ _ _ _

/-- After a granted claim the old class holds the new one, and every
other new class is held as before. -/
theorem oldOf?_claim (h : (t.claim old new score origin).1 = true)
    (k : String) :
    (t.claim old new score origin).2.oldOf? k
      = if k = new then some old else t.oldOf? k := by
  unfold claim at h ⊢
  split at h
  · cases h
  · next hc =>
    rw [if_neg hc]
    exact OrdMap.get?_insert _ _ _ _

/-- After a granted reassignment the old class has the new claim, and no
other class's claim has changed. -/
theorem get?_reassign (h : (t.reassign old new score origin).1 = true)
    (k : String) :
    (t.reassign old new score origin).2.get? k
      = if k = old then some ⟨new, score, origin⟩ else t.get? k := by
  unfold reassign at h ⊢
  split at h
  · cases h
  · next hc =>
    rw [if_neg hc]
    split at h
    · cases h
    · exact OrdMap.get?_insert _ _ _ _

/-- After a granted reassignment the old class holds the new one, the one
it held is free, and every other new class is held as before. -/
theorem oldOf?_reassign (h : (t.reassign old new score origin).1 = true)
    (k : String) :
    (t.reassign old new score origin).2.oldOf? k
      = if k = new then some old
        else if t.newOf? old = some k then none
        else t.oldOf? k := by
  unfold reassign at h ⊢
  split at h
  · cases h
  · next hc =>
    rw [if_neg hc]
    split at h
    · cases h
    · next current hcurrent =>
      have hnew : t.newOf? old = some current.target := by
        unfold newOf?
        rw [hcurrent]
        rfl
      simp only [hnew, Option.some.injEq]
      unfold oldOf?
      rw [OrdMap.get?_insert, OrdMap.get?_erase]
      by_cases hk : k = current.target
      · simp [hk]
      · simp [hk, Ne.symm hk]

theorem newOf?_claim (h : (t.claim old new score origin).1 = true)
    (k : String) :
    (t.claim old new score origin).2.newOf? k
      = if k = old then some new else t.newOf? k := by
  rw [newOf?_eq_map, get?_claim h, newOf?_eq_map]
  split <;> rfl

theorem newOf?_reassign (h : (t.reassign old new score origin).1 = true)
    (k : String) :
    (t.reassign old new score origin).2.newOf? k
      = if k = old then some new else t.newOf? k := by
  rw [newOf?_eq_map, get?_reassign h, newOf?_eq_map]
  split <;> rfl

-- ======================================================= the invariant

/-- Both directions hold the same pairs. -/
def TwoWay (t : Table) : Prop :=
  ∀ old new, t.newOf? old = some new ↔ t.oldOf? new = some old

theorem twoWay_empty : TwoWay {} := by
  intro old new
  constructor
  · intro h
    cases h
  · intro h
    cases h

namespace TwoWay

/-- No new class is the target of two old classes. -/
theorem injective (h : t.TwoWay) {a b : String} (ha : t.newOf? a = some new)
    (hb : t.newOf? b = some new) : a = b := by
  have ha' := (h a new).1 ha
  rw [(h b new).1 hb] at ha'
  exact (Option.some.inj ha').symm

/-- The claimed classes are the targets. -/
theorem isClaimed_iff (h : t.TwoWay) :
    t.isClaimed new = true ↔ ∃ old, t.newOf? old = some new := by
  rw [isClaimed_eq, Option.isSome_iff_exists]
  exact exists_congr fun old => (h old new).symm

/-- Each pair is one entry in either direction. -/
theorem size_eq (h : t.TwoWay) : t.forward.size = t.backward.size := by
  have hback : t.backward.entries.Perm
      (t.forward.entries.map fun e => (e.2.target, e.1)) := by
    have hnodup : (t.forward.entries.map fun e => (e.2.target, e.1)).Nodup :=
      t.forward.nodup_entries.map_on fun a ha b hb heq =>
        List.inj_on_of_nodup_map t.forward.nodup_keys ha hb
          (congrArg (·.2) heq)
    refine (List.perm_ext_iff_of_nodup
      t.backward.nodup_entries hnodup).2 ?_
    rintro ⟨new, old⟩
    rw [← OrdMap.get?_eq_some_iff]
    refine (h old new).symm.trans ?_
    rw [newOf?_eq_some_iff, List.mem_map]
    constructor
    · rintro ⟨c, hc, rfl⟩
      exact ⟨(old, c), mem_entries_iff.2 hc, rfl⟩
    · rintro ⟨⟨old', c⟩, hmem, heq⟩
      cases heq
      exact ⟨c, mem_entries_iff.1 hmem, rfl⟩
  unfold OrdMap.size
  rw [hback.length_eq, List.length_map]

/-- Giving a class a target that no one holds, and freeing what it held,
keeps both directions in step. -/
theorem put {t' : Table} (h : t.TwoWay) (hfree : t.isClaimed new = false)
    (hnewOf : ∀ k, t'.newOf? k = if k = old then some new else t.newOf? k)
    (holdOf : ∀ k, t'.oldOf? k = if k = new then some old
      else if t.newOf? old = some k then none else t.oldOf? k) :
    t'.TwoWay := by
  intro a b
  rw [hnewOf, holdOf]
  by_cases ha : a = old
  · subst ha
    by_cases hb : b = new
    · simp [hb]
    · -- what `a` held before is free now, and `a` held nothing else
      have hnone : t.newOf? a ≠ some b → t.oldOf? b ≠ some a :=
        fun hne hba => hne ((h a b).2 hba)
      by_cases hold : t.newOf? a = some b
      · simp [Ne.symm hb, hb, hold]
      · simp [Ne.symm hb, hb, hold, hnone hold]
  · by_cases hb : b = new
    · subst hb
      have hnone : t.newOf? a ≠ some b := fun hab => by
        rw [h.isClaimed_iff.2 ⟨a, hab⟩] at hfree
        cases hfree
      simp [ha, Ne.symm ha, hnone]
    · by_cases hold : t.newOf? old = some b
      · -- `b` was held by `old` and so by no one else
        have hnone : t.newOf? a ≠ some b := fun hab =>
          ha (h.injective hab hold)
        simp [ha, hb, hold, hnone]
      · simp [ha, hb, hold, h a b]

theorem claim (h : t.TwoWay) (old new : String) (score : Binary64)
    (origin : Origin) : (t.claim old new score origin).2.TwoWay := by
  cases hg : (t.claim old new score origin).1 with
  | false =>
    rw [claim_refused hg]
    exact h
  | true =>
    obtain ⟨hmapped, hfree⟩ := claim_granted_iff.1 hg
    refine h.put hfree (newOf?_claim hg) fun k => ?_
    -- an unmapped class held nothing that could be freed
    rw [oldOf?_claim hg, newOf?_eq_none_iff.2 hmapped]
    rfl

theorem reassign (h : t.TwoWay) (old new : String) (score : Binary64)
    (origin : Origin) : (t.reassign old new score origin).2.TwoWay := by
  cases hg : (t.reassign old new score origin).1 with
  | false =>
    rw [reassign_refused hg]
    exact h
  | true =>
    exact h.put (reassign_granted_iff.1 hg).2.2 (newOf?_reassign hg)
      (oldOf?_reassign hg)

end TwoWay

-- ============================================================== calls

/-- A call that may change a table. -/
inductive Call
  | fix (old new : String)
  | claim (old new : String) (score : Binary64) (origin : Origin)
  | reassign (old new : String) (score : Binary64) (origin : Origin)
deriving DecidableEq

/-- Make one call. -/
def call (t : Table) : Call → Bool × Table
  | .fix old new => t.fix old new
  | .claim old new score origin => t.claim old new score origin
  | .reassign old new score origin => t.reassign old new score origin

/-- The old class that a call is about. -/
def Call.source : Call → String
  | .fix old _ | .claim old _ _ _ | .reassign old _ _ _ => old

/-- What a call writes if it is granted. -/
def Call.entry : Call → Claim
  | .fix _ new => ⟨new, 1.0, .fixed⟩
  | .claim _ new score origin | .reassign _ new score origin =>
    ⟨new, score, origin⟩

/-- Whether a call is for a class that has no pair yet. -/
def Call.adds : Call → Bool
  | .fix .. | .claim .. => true
  | .reassign .. => false

/-- The table after a sequence of calls. -/
def replay (t : Table) (calls : List Call) : Table :=
  calls.foldl (fun t c => (t.call c).2) t

/-- A property that every call keeps is kept by every sequence of
calls. -/
theorem replay_induction {P : Table → Prop}
    (hstep : ∀ t c, P t → P (t.call c).2) (h : P t) (calls : List Call) :
    P (t.replay calls) := by
  induction calls generalizing t with
  | nil => exact h
  | cons c rest ih => exact ih (hstep t c h)

theorem TwoWay.call (h : t.TwoWay) (c : Call) : (t.call c).2.TwoWay := by
  cases c with
  | fix old new => exact h.claim old new _ _
  | claim old new score origin => exact h.claim old new score origin
  | reassign old new score origin => exact h.reassign old new score origin

theorem call_refused {c : Call} (h : (t.call c).1 = false) :
    (t.call c).2 = t := by
  cases c with
  | fix old new => exact claim_refused h
  | claim old new score origin => exact claim_refused h
  | reassign old new score origin => exact reassign_refused h

/-- A granted call writes its entry and changes no other. -/
theorem get?_call {x : Call} (h : (t.call x).1 = true) (k : String) :
    (t.call x).2.get? k = if k = x.source then some x.entry else t.get? k := by
  cases x with
  | fix old new => exact get?_claim h k
  | claim old new score origin => exact get?_claim h k
  | reassign old new score origin => exact get?_reassign h k

/-- Every pair of the table has a property. -/
def All (q : String → Claim → Prop) (t : Table) : Prop :=
  ∀ old c, t.get? old = some c → q old c

/-- A call that would write a pair with the property keeps it. -/
theorem All.call {q : String → Claim → Prop} {x : Call} (h : t.All q)
    (hx : q x.source x.entry) : (t.call x).2.All q := by
  cases hg : (t.call x).1 with
  | false =>
    rw [call_refused hg]
    exact h
  | true =>
    intro k c hc
    rw [get?_call hg] at hc
    split at hc
    · next heq =>
      cases hc
      rw [heq]
      exact hx
    · exact h k c hc

/-- What an attempt comes to: nothing, or one call of a kind. -/
inductive Makes (p : Call → Prop) (t : Table) : Bool × Table → Prop
  | idle : Makes p t (false, t)
  | call {x : Call} (h : p x) : Makes p t (t.call x)

/-- What every call of the kind keeps, the attempt keeps. -/
theorem Makes.induction {p : Call → Prop} {r : Bool × Table}
    {P : Table → Prop} (h : Makes p t r)
    (hcall : ∀ x, p x → P (t.call x).2) (ht : P t) : P r.2 := by
  cases h with
  | idle => exact ht
  | call hx => exact hcall _ hx

/-- An attempt without success leaves the table as it is. -/
theorem Makes.refused {p : Call → Prop} {r : Bool × Table}
    (h : Makes p t r) (hflag : r.1 = false) : r.2 = t := by
  cases h with
  | idle => rfl
  | call _ => exact call_refused hflag

/-- Make the call that was decided on, if there is one. -/
def act (t : Table) : Option Call → Bool × Table
  | some x => t.call x
  | none => (false, t)

theorem makes_act {p : Call → Prop} {decision : Option Call}
    (h : ∀ x, decision = some x → p x) : Makes p t (t.act decision) := by
  cases decision with
  | none => exact .idle
  | some x => exact .call (h x rfl)

/-- A claim leaves the claims that are there alone. -/
theorem get?_claim_of_some {c : Claim} {k : String}
    (h : t.get? k = some c) :
    (t.claim old new score origin).2.get? k = some c := by
  cases hg : (t.claim old new score origin).1 with
  | false => rw [claim_refused hg, h]
  | true =>
    rw [get?_claim hg, if_neg, h]
    rintro rfl
    have hmapped := (claim_granted_iff.1 hg).1
    rw [isMapped_eq, h] at hmapped
    cases hmapped

/-- A class that is held stays with its holder. -/
theorem oldOf?_claim_of_some {k n : String} (h : t.oldOf? n = some k) :
    (t.claim old new score origin).2.oldOf? n = some k := by
  cases hg : (t.claim old new score origin).1 with
  | false => rw [claim_refused hg, h]
  | true =>
    rw [oldOf?_claim hg, if_neg, h]
    intro heq
    have hclaimed := (claim_granted_iff.1 hg).2
    rw [isClaimed_eq, ← heq, h] at hclaimed
    cases hclaimed

theorem isClaimed_claim {n : String} (h : t.isClaimed n = true) :
    (t.claim old new score origin).2.isClaimed n = true := by
  rw [isClaimed_eq, Option.isSome_iff_exists] at h
  obtain ⟨k, hk⟩ := h
  rw [isClaimed_eq, oldOf?_claim_of_some hk]
  rfl

/-- A reassignment leaves fixed claims alone. -/
theorem get?_reassign_of_fixed {c : Claim} {k : String}
    (h : t.get? k = some c) (hc : c.origin = .fixed) :
    (t.reassign old new score origin).2.get? k = some c := by
  cases hg : (t.reassign old new score origin).1 with
  | false => rw [reassign_refused hg, h]
  | true =>
    rw [get?_reassign hg, if_neg, h]
    rintro rfl
    have hfixed := (reassign_granted_iff.1 hg).2.1
    rw [isFixed_iff.2 ⟨c, h, hc⟩] at hfixed
    cases hfixed

/-- A fixed claim stays as it is, whatever is called. -/
theorem get?_call_of_fixed {c : Claim} {k : String} (h : t.get? k = some c)
    (hc : c.origin = .fixed) (x : Call) : (t.call x).2.get? k = some c := by
  cases x with
  | fix old new => exact get?_claim_of_some h
  | claim old new score origin => exact get?_claim_of_some h
  | reassign old new score origin => exact get?_reassign_of_fixed h hc

theorem isMapped_reassign {k : String} (h : t.isMapped k = true) :
    (t.reassign old new score origin).2.isMapped k = true := by
  cases hg : (t.reassign old new score origin).1 with
  | false => rw [reassign_refused hg, h]
  | true =>
    rw [isMapped_eq, get?_reassign hg]
    split
    · rfl
    · exact h

theorem isMapped_claim {k : String} (h : t.isMapped k = true) :
    (t.claim old new score origin).2.isMapped k = true := by
  rw [isMapped_eq, Option.isSome_iff_exists] at h
  obtain ⟨c, hc⟩ := h
  rw [isMapped_eq, get?_claim_of_some hc]
  rfl

/-- A mapped class stays mapped, whatever is called. -/
theorem isMapped_call {k : String} (h : t.isMapped k = true) (x : Call) :
    (t.call x).2.isMapped k = true := by
  cases x with
  | fix old new => exact isMapped_claim h
  | claim old new score origin => exact isMapped_claim h
  | reassign old new score origin => exact isMapped_reassign h

-- =============================================================== laws

/-- The laws of a table that grew from the empty one by calls. -/
structure Lawful (t : Table) : Prop where
  /-- Both directions hold the same pairs. -/
  twoWay : ∀ old new, t.newOf? old = some new ↔ t.oldOf? new = some old
  /-- No new class is the target of two old classes. -/
  injective : ∀ a b new, t.newOf? a = some new → t.newOf? b = some new → a = b
  /-- The claimed classes are the present targets. -/
  claimed : ∀ new, t.isClaimed new = true ↔ ∃ old, t.newOf? old = some new
  sizes : t.forward.size = t.backward.size
  /-- A call that is refused changes nothing. -/
  refused : ∀ c, (t.call c).1 = false → (t.call c).2 = t
  /-- A claim is granted to an unmapped class on an unclaimed one. -/
  claim_granted : ∀ old new score origin,
    (t.claim old new score origin).1 = true
      ↔ t.isMapped old = false ∧ t.isClaimed new = false
  /-- A granted claim adds its pair and nothing else. -/
  claim_effect : ∀ old new score origin,
    (t.claim old new score origin).1 = true →
      (∀ k, (t.claim old new score origin).2.get? k
        = if k = old then some ⟨new, score, origin⟩ else t.get? k)
      ∧ ∀ k, (t.claim old new score origin).2.oldOf? k
        = if k = new then some old else t.oldOf? k
  /-- A reassignment is granted to a mapped class that is not fixed, on an
  unclaimed one. -/
  reassign_granted : ∀ old new score origin,
    (t.reassign old new score origin).1 = true
      ↔ t.isMapped old = true ∧ t.isFixed old = false
        ∧ t.isClaimed new = false
  /-- A granted reassignment releases what the class held, and changes no
  other entry. -/
  reassign_effect : ∀ old new score origin,
    (t.reassign old new score origin).1 = true →
      (∀ previous, t.newOf? old = some previous →
        (t.reassign old new score origin).2.isClaimed previous = false)
      ∧ (∀ k, (t.reassign old new score origin).2.get? k
        = if k = old then some ⟨new, score, origin⟩ else t.get? k)
      ∧ ∀ k, t.newOf? old ≠ some k →
        (t.reassign old new score origin).2.oldOf? k
          = if k = new then some old else t.oldOf? k
  /-- A fixed claim keeps its target, score and origin for good. -/
  fixed_stays : ∀ old c, t.get? old = some c → c.origin = .fixed →
    ∀ calls, (t.replay calls).get? old = some c
  /-- No sequence of calls unmaps a class. -/
  mapped_stays : ∀ old, t.isMapped old = true →
    ∀ calls, (t.replay calls).isMapped old = true

/-- Every table that calls on the empty table lead to obeys the laws. -/
theorem replay_empty_lawful (calls : List Call) :
    Lawful (replay {} calls) := by
  have h : (replay {} calls).TwoWay :=
    replay_induction (fun _ c ht => ht.call c) twoWay_empty calls
  refine
    { twoWay := h
      injective := fun a b new => h.injective
      claimed := fun new => h.isClaimed_iff
      sizes := h.size_eq
      refused := fun c => call_refused
      claim_granted := fun _ _ _ _ => claim_granted_iff
      claim_effect := fun old new score origin hg =>
        ⟨get?_claim hg, oldOf?_claim hg⟩
      reassign_granted := fun _ _ _ _ => reassign_granted_iff
      reassign_effect := ?_
      fixed_stays := ?_
      mapped_stays := ?_ }
  · intro old new score origin hg
    refine ⟨fun previous hprev => ?_, get?_reassign hg, fun k hk => ?_⟩
    · -- the new target was unclaimed, so it is not the previous one
      have hne : previous ≠ new := by
        rintro rfl
        have hclaimed := (reassign_granted_iff.1 hg).2.2
        rw [h.isClaimed_iff.2 ⟨old, hprev⟩] at hclaimed
        cases hclaimed
      rw [isClaimed_eq, oldOf?_reassign hg, if_neg hne, if_pos hprev]
      rfl
    · rw [oldOf?_reassign hg, if_neg hk]
  · intro old c hget hc calls
    exact replay_induction (P := fun t => t.get? old = some c)
      (fun t x ht => get?_call_of_fixed ht hc x) hget calls
  · intro old hm calls
    exact replay_induction (P := fun t => t.isMapped old = true)
      (fun t x ht => isMapped_call ht x) hm calls

end SymbolMatch.Table
