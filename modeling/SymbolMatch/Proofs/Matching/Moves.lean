/-
The moves of a matching run and the invariant that they keep.

After the first stage the calls of a run are claims and reassignments
between obfuscated classes, and none of them is a fixed pair (`Move`). So
what such a run keeps is what a move keeps.

# The invariant

`Sound` says what the entries of a table are at any time: the fixed
entries are the fixed names paired with themselves, and any other entry
pairs an obfuscated old class with an obfuscated new class. It holds
after the fixed names are entered (`sound_matchFixed`), and a move keeps
it (`Sound.move`).
-/
import Mathlib.Logic.Relation
import SymbolMatch.Proofs.Matching.Stages

namespace SymbolMatch

namespace Context

variable {ctx : Context} {t t' : Table} {old new : String} {s : Stage}

-- ================================================================ moves

/-- One change that a stage may try. -/
inductive Move (ctx : Context) (t : Table) : Table → Prop
  | claim {old new : String} {score : Binary64} {origin : Origin}
      (hold : old ∈ ctx.oldObfuscated) (hnew : new ∈ ctx.newObfuscated)
      (horigin : origin ≠ .fixed) :
      Move ctx t (t.claim old new score origin).2
  | reassign {old new : String} {score : Binary64} {origin : Origin}
      (hnew : new ∈ ctx.newObfuscated) (horigin : origin ≠ .fixed) :
      Move ctx t (t.reassign old new score origin).2

/-- The calls of all stages but the first are moves. -/
theorem Tries.move {x : Table.Call} (h : ctx.Tries s x)
    (hs : s ≠ .fixedNames) (t : Table) : ctx.Move t (t.call x).2 := by
  cases h with
  | fixedName => exact absurd rfl hs
  | constant hold hnew => exact .claim hold hnew (by decide)
  | anchor hold hnew => exact .claim hold hnew (by decide)
  | proposal hold hnew => exact .claim hold hnew (by decide)
  | refinement hnew => exact .reassign hnew (by decide)
  | correction hnew => exact .reassign hnew (by decide)
  | validation hnew => exact .reassign hnew (by decide)

/-- A sequence of moves. -/
def Reaches (ctx : Context) : Table → Table → Prop :=
  Relation.ReflTransGen ctx.Move

theorem Reaches.refl (t : Table) : ctx.Reaches t t := Relation.ReflTransGen.refl

theorem Reaches.trans {t'' : Table} (h : ctx.Reaches t t')
    (h' : ctx.Reaches t' t'') : ctx.Reaches t t'' :=
  Relation.ReflTransGen.trans h h'

theorem reaches_run (hs : s ≠ .fixedNames) (t : Table) :
    ctx.Reaches t (s.run ctx t).2 :=
  s.run_induction (P := ctx.Reaches t)
    (fun t₁ _ hx ht₁ => Relation.ReflTransGen.tail ht₁ (hx.move hs t₁))
    (.refl t)

/-- After the fixed names a run only makes moves. -/
theorem runStages_reaches :
    ctx.Reaches (ctx.matchFixed {}).2 ctx.runStages.table := by
  have hstages : ∀ s ∈ Stage.all.tail, s ≠ .fixedNames := by decide
  exact List.foldlRecOn (motive := ctx.Reaches (ctx.matchFixed {}).2)
    Stage.all.tail (fun t s => (s.run ctx t).2) (.refl _)
    fun t ht s hs => ht.trans (reaches_run (hstages s hs) t)

-- ======================================================== the invariant

/-- What the pairs of a table are at any time after the first stage. -/
structure Sound (ctx : Context) (t : Table) : Prop where
  twoWay : t.TwoWay
  /-- A fixed pair is a fixed name with itself, at full score. -/
  fixed : ∀ old c, t.get? old = some c → c.origin = .fixed →
    old ∈ ctx.fixedNames ∧ c = ⟨old, 1.0, .fixed⟩
  /-- Every fixed name has its pair. -/
  covers : ∀ name ∈ ctx.fixedNames, t.get? name = some ⟨name, 1.0, .fixed⟩
  /-- Any other pair is one of obfuscated classes. -/
  inferred : ∀ old c, t.get? old = some c → c.origin ≠ .fixed →
    old ∈ ctx.oldObfuscated ∧ c.target ∈ ctx.newObfuscated

/-- A new name can be paired with itself in a table that has each class
with itself. -/
theorem fix_self_granted {t : Table} {n : String} (htwo : t.TwoWay)
    (hself : ∀ k new, t.newOf? k = some new → new = k)
    (hnone : t.newOf? n = none) : (t.fix n n).1 = true := by
  refine Table.claim_granted_iff.2 ⟨Table.newOf?_eq_none_iff.1 hnone, ?_⟩
  rw [← Bool.not_eq_true, htwo.isClaimed_iff]
  rintro ⟨k, hk⟩
  rw [← hself k n hk, hnone] at hk
  cases hk

/-- Entering names that are not there yet, each with itself, in a table
that has each class with itself. -/
theorem foldl_fix {names : List String} (hnodup : names.Nodup) {t : Table}
    (htwo : t.TwoWay) (hfree : ∀ n ∈ names, t.newOf? n = none)
    (hself : ∀ k new, t.newOf? k = some new → new = k) :
    (names.foldl (fun t name => (t.fix name name).2) t).TwoWay
      ∧ ∀ k, (names.foldl (fun t name => (t.fix name name).2) t).get? k
        = if k ∈ names then some ⟨k, 1.0, .fixed⟩ else t.get? k := by
  induction names generalizing t with
  | nil => exact ⟨htwo, fun k => by simp⟩
  | cons n rest ih =>
    rw [List.nodup_cons] at hnodup
    have hgranted := fix_self_granted htwo hself
      (hfree n List.mem_cons_self)
    have hnew (k : String) : (t.fix n n).2.newOf? k
        = if k = n then some n else t.newOf? k := Table.newOf?_claim hgranted k
    obtain ⟨htwo', hget⟩ := ih hnodup.2 (htwo.claim n n 1.0 .fixed)
      (fun m hm => by
        have hne : m ≠ n := fun h => hnodup.1 (h ▸ hm)
        have h := hnew m
        rw [if_neg hne, hfree m (List.mem_cons_of_mem _ hm)] at h
        exact h)
      (fun k new hk => by
        have h := hnew k
        rw [show (t.fix n n).2.newOf? k = some new from hk] at h
        split at h
        · next heq => rw [Option.some.inj h, heq]
        · exact hself k new h.symm)
    refine ⟨htwo', fun k => ?_⟩
    refine (hget k).trans ?_
    have hclaim : (t.claim n n 1.0 .fixed).2.get? k
        = if k = n then some ⟨n, 1.0, .fixed⟩ else t.get? k :=
      Table.get?_claim hgranted k
    rw [hclaim]
    by_cases hk : k = n
    · simp [hk]
    · simp [hk]

/-- The table of the fixed names. -/
theorem get?_matchFixed (k : String) :
    (ctx.matchFixed {}).2.get? k
      = if k ∈ ctx.fixedNames.elements then some ⟨k, 1.0, .fixed⟩
        else none :=
  (foldl_fix ctx.fixedNames.nodup_elements Table.twoWay_empty
    (fun _ _ => rfl) (fun _ _ h => by cases h)).2 k

theorem sound_matchFixed : ctx.Sound (ctx.matchFixed {}).2 := by
  have hget := @get?_matchFixed ctx
  refine
    { twoWay := ?_
      fixed := ?_
      covers := ?_
      inferred := ?_ }
  · exact (foldl_fix ctx.fixedNames.nodup_elements Table.twoWay_empty
      (fun _ _ => rfl) (fun _ _ h => by cases h)).1
  · intro old c hc _
    rw [hget] at hc
    split at hc
    · next hmem => exact ⟨hmem, (Option.some.inj hc).symm⟩
    · cases hc
  · intro name hmem
    rw [hget, if_pos (OrdSet.mem_def.1 hmem)]
  · intro old c hc horigin
    rw [hget] at hc
    split at hc
    · exact absurd (congrArg Claim.origin (Option.some.inj hc)).symm horigin
    · cases hc

/-- Giving a class that is not fixed a pair of obfuscated classes keeps
the invariant. -/
theorem Sound.put {score : Binary64} {origin : Origin} (h : ctx.Sound t)
    (htwo : t'.TwoWay) (hget : ∀ k, t'.get? k
      = if k = old then some ⟨new, score, origin⟩ else t.get? k)
    (hfree : t.isFixed old = false) (horigin : origin ≠ .fixed)
    (hold : old ∈ ctx.oldObfuscated) (hnew : new ∈ ctx.newObfuscated) :
    ctx.Sound t' := by
  refine
    { twoWay := htwo
      fixed := fun k c hc hfixed => ?_
      covers := fun name hname => ?_
      inferred := fun k c hc hne => ?_ }
  · rw [hget] at hc
    split at hc
    · exact absurd ((congrArg Claim.origin (Option.some.inj hc)).trans
        hfixed) horigin
    · exact h.fixed k c hc hfixed
  · have hname' := h.covers name hname
    have hne : name ≠ old := fun heq => by
      rw [heq] at hname'
      rw [Table.isFixed_iff.2 ⟨_, hname', rfl⟩] at hfree
      cases hfree
    rw [hget, if_neg hne, hname']
  · rw [hget] at hc
    split at hc
    · next heq =>
      cases hc
      exact ⟨heq ▸ hold, hnew⟩
    · exact h.inferred k c hc hne

/-- A move keeps the invariant. -/
theorem Sound.move (h : ctx.Sound t) (hmove : ctx.Move t t') :
    ctx.Sound t' := by
  cases hmove with
  | @claim old new score origin hold hnew horigin =>
    cases hg : (t.claim old new score origin).1 with
    | false =>
      rw [Table.claim_refused hg]
      exact h
    | true =>
      have hmapped := (Table.claim_granted_iff.1 hg).1
      refine h.put (h.twoWay.claim old new score origin)
        (Table.get?_claim hg) ?_ horigin hold hnew
      rw [← Bool.not_eq_true, Table.isFixed_iff]
      rintro ⟨c, hc, -⟩
      rw [Table.isMapped_eq, hc] at hmapped
      cases hmapped
  | @reassign old new score origin hnew horigin =>
    cases hg : (t.reassign old new score origin).1 with
    | false =>
      rw [Table.reassign_refused hg]
      exact h
    | true =>
      obtain ⟨hmapped, hfree, -⟩ := Table.reassign_granted_iff.1 hg
      -- the class moved has a pair, and not a fixed one
      obtain ⟨current, hcurrent⟩ := Option.isSome_iff_exists.1 hmapped
      have hne : current.origin ≠ .fixed := fun hf => by
        rw [Table.isFixed_iff.2 ⟨current, hcurrent, hf⟩] at hfree
        cases hfree
      exact h.put (h.twoWay.reassign old new score origin)
        (Table.get?_reassign hg) hfree horigin
        (h.inferred old current hcurrent hne).1 hnew

/-- An attempt of any stage but the first keeps the invariant. -/
theorem Sound.of_makes {r : Bool × Table} (h : ctx.Sound t)
    (hr : Table.Makes (ctx.Tries s) t r) (hs : s ≠ .fixedNames) :
    ctx.Sound r.2 :=
  hr.induction (fun _ hx => h.move (hx.move hs t)) h

theorem Sound.of_reaches (h : ctx.Sound t) (hr : ctx.Reaches t t') :
    ctx.Sound t' := by
  induction hr with
  | refl => exact h
  | tail _ hmove ih => exact ih.move hmove

/-- The pairs of a sound table are pairs of declared classes. -/
theorem Sound.declared (h : ctx.Sound t) (hnew : t.newOf? old = some new) :
    old ∈ ctx.old.classNames ∧ new ∈ ctx.new.classNames := by
  obtain ⟨c, hc, rfl⟩ := Table.newOf?_eq_some_iff.1 hnew
  by_cases horigin : c.origin = .fixed
  · obtain ⟨hmem, rfl⟩ := h.fixed old c hc horigin
    exact (mem_fixedNames.1 hmem).2
  · obtain ⟨hold, htarget⟩ := h.inferred old c hc horigin
    exact ⟨(mem_oldObfuscated.1 hold).1, (mem_newObfuscated.1 htarget).1⟩

/-- The table of a whole run. -/
theorem sound_runStages : ctx.Sound ctx.runStages.table :=
  sound_matchFixed.of_reaches runStages_reaches

end Context

end SymbolMatch
