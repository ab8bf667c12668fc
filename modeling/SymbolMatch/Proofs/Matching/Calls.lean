/-
What a matching run can do to its table, said once for all stages.

Each stage makes calls of one kind, listed with what the stage has
checked of them (`Tries`). An attempt makes one such call or none
(`Table.Makes`), and this is shown once for each attempt: whatever else
is said of a stage follows from its list of calls.

# Which score is compared

A choice may fall on a candidate below the highest score, if the two are
tied. So every bar is checked for the score of the candidate that is
chosen, and that is the score in the table (`of_chooseNew`).
-/
import SymbolMatch.Matching.Run
import SymbolMatch.Proofs.Matching.Rounds
import SymbolMatch.Proofs.Ordered.Set
import SymbolMatch.Proofs.Pairing.Table
import SymbolMatch.Proofs.Selection.Best
import SymbolMatch.Proofs.Similarity

namespace SymbolMatch

-- =============================================================== stages

/-- The stages of a run. -/
inductive Stage
  | fixedNames
  | constants
  | anchors
  | propagation
  | refinement
  | correction
  | validation
deriving DecidableEq

namespace Stage

/-- The stages in the order of a run. -/
def all : List Stage :=
  [fixedNames, constants, anchors, propagation, refinement, correction,
   validation]

/-- Whether a stage adds pairs; the others move them. -/
def adds : Stage → Bool
  | fixedNames | constants | anchors | propagation => true
  | refinement | correction | validation => false

/-- The count of a stage and the table after it. -/
def run (ctx : Context) : Stage → Table → Nat × Table
  | fixedNames => ctx.matchFixed
  | constants => ctx.matchConstants
  | anchors => ctx.selectAnchors
  | propagation => ctx.propagate
  | refinement => ctx.refine
  | correction => ctx.correctConstants
  | validation => ctx.validateReferences

end Stage

-- ============================================================== classes

theorem Index.contains_iff {x : Index} {name : String} :
    x.contains name = true ↔ name ∈ x.classNames := by
  unfold Index.contains Index.fingerprint? Index.classNames
  simp only [List.find?_isSome, beq_iff_eq, List.mem_map]

namespace Context

variable {ctx : Context} {t : Table} {old new : String}

theorem mem_oldObfuscated :
    old ∈ ctx.oldObfuscated
      ↔ old ∈ ctx.old.classNames ∧ ctx.isObfuscated old = true :=
  List.mem_filter

theorem mem_newObfuscated :
    new ∈ ctx.newObfuscated
      ↔ new ∈ ctx.new.classNames ∧ ctx.isObfuscated new = true :=
  List.mem_filter

theorem mem_unmappedOld :
    old ∈ ctx.unmappedOld t
      ↔ old ∈ ctx.oldObfuscated ∧ t.isMapped old = false := by
  unfold unmappedOld
  rw [List.mem_filter, Bool.not_eq_true']

theorem mem_unclaimedNew :
    new ∈ ctx.unclaimedNew t
      ↔ new ∈ ctx.newObfuscated ∧ t.isClaimed new = false := by
  unfold unclaimedNew
  rw [List.mem_filter, Bool.not_eq_true']

theorem mem_fixedNames {name : String} :
    name ∈ ctx.fixedNames
      ↔ ctx.isObfuscated name = false ∧ name ∈ ctx.old.classNames
        ∧ name ∈ ctx.new.classNames := by
  unfold fixedNames
  rw [OrdSet.mem_ofList, List.mem_filter, Bool.and_eq_true,
    Bool.not_eq_true', Index.contains_iff]
  exact and_left_comm

theorem mem_constantOrder :
    old ∈ ctx.constantOrder t
      ↔ old ∈ ctx.unmappedOld t ∧ ctx.isOldConstant old = true :=
  mem_sortBy.trans List.mem_filter

theorem mem_anchorOrder : old ∈ ctx.anchorOrder t ↔ old ∈ ctx.unmappedOld t :=
  mem_sortBy

theorem isOldConstant_of_mem_constantPairs {pair : String × String}
    (h : pair ∈ ctx.constantPairs t) : ctx.isOldConstant pair.1 = true := by
  obtain ⟨e, he, rfl⟩ := List.mem_map.1 h
  exact (Bool.and_eq_true_iff.1 (List.mem_filter.1 he).2).2

-- ============================================================== choices

/-- What is chosen is a candidate, with its own score, above the
floor. -/
theorem of_chooseNew {candidates : List String} {score : String → Binary64}
    {floor : Binary64} {choice : Choice String}
    (h : ctx.chooseNew old candidates score floor = some choice) :
    choice.best.id ∈ candidates
      ∧ choice.best.score = score choice.best.id
      ∧ floor < choice.best.score := by
  obtain ⟨hmem, hfloor⟩ := mem_of_pickBest h
  obtain ⟨n, hn, heq⟩ := List.mem_map.1 hmem
  rw [← heq] at hfloor ⊢
  exact ⟨hn, rfl, hfloor⟩

/-- The chosen class is one of the candidates. -/
theorem mem_of_chooseNew {candidates : List String}
    {score : String → Binary64} {floor : Binary64} {choice : Choice String}
    (h : ctx.chooseNew old candidates score floor = some choice) :
    choice.best.id ∈ candidates :=
  (of_chooseNew h).1

theorem of_chooseOld {candidates : List String}
    {score : String → Binary64} {floor : Binary64} {choice : Choice String}
    (h : ctx.chooseOld new candidates score floor = some choice) :
    choice.best.id ∈ candidates
      ∧ choice.best.score = score choice.best.id := by
  obtain ⟨n, hn, heq⟩ := List.mem_map.1 (mem_of_pickBest h).1
  rw [← heq]
  exact ⟨hn, rfl⟩

theorem mem_of_chooseOld {candidates : List String}
    {score : String → Binary64} {floor : Binary64} {choice : Choice String}
    (h : ctx.chooseOld new candidates score floor = some choice) :
    choice.best.id ∈ candidates :=
  (of_chooseOld h).1

-- =============================================================== votes

theorem isOpen_iff :
    ctx.isOpen t new = true
      ↔ new ∈ ctx.new.classNames ∧ ctx.isObfuscated new = true
        ∧ t.isClaimed new = false := by
  unfold isOpen
  rw [Bool.and_eq_true, Bool.and_eq_true, Index.contains_iff,
    Bool.not_eq_true', and_assoc]
  exact and_congr_right fun _ => and_comm

/-- The open classes that a user votes for. -/
def votedFor (ctx : Context) (t : Table) (typesOf : String → OrdSet String)
    (user : String) : List String :=
  match t.newOf? user with
  | some target => (typesOf target).elements.filter (ctx.isOpen t)
  | none => []

theorem isOpen_of_mem_votedFor {typesOf : String → OrdSet String}
    {user : String} (h : new ∈ ctx.votedFor t typesOf user) :
    ctx.isOpen t new = true := by
  unfold votedFor at h
  split at h
  · exact (List.mem_filter.1 h).2
  · cases h

/-- Letting users vote adds the weight once for each vote. -/
theorem foldl_castVote (typesOf : String → OrdSet String) (weight : Nat)
    (users : List String) (b : Ballot) :
    users.foldl (ctx.castVote t typesOf weight) b
      = { votes := (users.flatMap (ctx.votedFor t typesOf)).foldl
            (fun votes new => votes.alter new fun n => n.getD 0 + weight)
            b.votes
          possible := b.possible + weight * users.length } := by
  induction users generalizing b with
  | nil => rfl
  | cons user rest ih =>
    have hcast : ctx.castVote t typesOf weight b user
        = { votes := (ctx.votedFor t typesOf user).foldl
              (fun votes new => votes.alter new fun n => n.getD 0 + weight)
              b.votes
            possible := b.possible + weight } := by
      unfold castVote votedFor
      cases t.newOf? user <;> rfl
    rw [List.foldl_cons, ih, hcast, List.flatMap_cons, List.foldl_append,
      List.length_cons, Nat.mul_succ]
    simp only [Nat.add_assoc, Nat.add_comm weight]

/-- The votes of the classes that hold a field of an old class. -/
def fieldVotes (ctx : Context) (t : Table) (old : String) : List String :=
  (ctx.old.evidence.externalFieldUsers old).elements.flatMap
    (ctx.votedFor t ctx.new.evidence.fieldTypesOf)

/-- The votes of the classes that take a parameter of an old class. -/
def paramVotes (ctx : Context) (t : Table) (old : String) : List String :=
  (ctx.old.evidence.externalParamUsers old).elements.flatMap
    (ctx.votedFor t ctx.new.evidence.paramTypesOf)

/-- The count of the votes on an old class. -/
theorem get?_neighbourVotes (t : Table) (old new : String) :
    (ctx.neighbourVotes t old).votes.get? new
      = if new ∈ ctx.fieldVotes t old ∨ new ∈ ctx.paramVotes t old then
          some (fieldVote * (ctx.fieldVotes t old).count new
            + paramVote * (ctx.paramVotes t old).count new)
        else none := by
  unfold neighbourVotes
  simp only [foldl_castVote]
  rw [OrdMap.get?_foldl_add, OrdMap.get?_foldl_add]
  change (if new ∈ ctx.paramVotes t old then
      some ((if new ∈ ctx.fieldVotes t old then
          some (0 + fieldVote * (ctx.fieldVotes t old).count new)
        else none).getD 0 + paramVote * (ctx.paramVotes t old).count new)
      else if new ∈ ctx.fieldVotes t old then
        some (0 + fieldVote * (ctx.fieldVotes t old).count new)
      else none) = _
  by_cases hf : new ∈ ctx.fieldVotes t old
  · by_cases hp : new ∈ ctx.paramVotes t old
    · simp [hf, hp]
    · simp [hf, hp, List.count_eq_zero.2 hp]
  · by_cases hp : new ∈ ctx.paramVotes t old
    · simp [hf, hp, List.count_eq_zero.2 hf]
    · simp [hf, hp]

theorem possible_neighbourVotes (t : Table) (old : String) :
    (ctx.neighbourVotes t old).possible
      = fieldVote * (ctx.old.evidence.externalFieldUsers old).size
        + paramVote * (ctx.old.evidence.externalParamUsers old).size := by
  unfold neighbourVotes
  simp only [foldl_castVote, Nat.zero_add]
  rfl

theorem voted_of_mem_keys
    (h : new ∈ (ctx.neighbourVotes t old).votes.keys) :
    new ∈ ctx.fieldVotes t old ∨ new ∈ ctx.paramVotes t old := by
  obtain ⟨n, hn⟩ := OrdMap.mem_keys_iff.1 h
  rw [get?_neighbourVotes] at hn
  split at hn
  · assumption
  · cases hn

/-- Only open classes get votes. -/
theorem isOpen_of_voted
    (h : new ∈ ctx.fieldVotes t old ∨ new ∈ ctx.paramVotes t old) :
    ctx.isOpen t new = true := by
  rcases h with h | h <;>
  · obtain ⟨user, -, huser⟩ := List.mem_flatMap.1 h
    exact isOpen_of_mem_votedFor huser

-- ================================================================ calls

/-- The calls that a stage may make, with what it has checked of
each. -/
inductive Tries (ctx : Context) : Stage → Table.Call → Prop
  | fixedName {name : String} (hname : name ∈ ctx.fixedNames) :
      Tries ctx .fixedNames (.fix name name)
  | constant {old new : String} {score : Binary64}
      (hold : old ∈ ctx.oldObfuscated) (hnew : new ∈ ctx.newObfuscated)
      (hconstant : ctx.isOldConstant old = true)
      (hconstant' : ctx.isNewConstant new = true)
      (hbar : ctx.settings.minSimilarity < score) :
      Tries ctx .constants (.claim old new score .constant)
  | anchor {old new : String} {score : Binary64}
      (hold : old ∈ ctx.oldObfuscated) (hnew : new ∈ ctx.newObfuscated)
      (hscore : score = ctx.anchorScore old new)
      (hbar : ctx.settings.anchorThreshold < score) :
      Tries ctx .anchors (.claim old new score .anchor)
  | proposal {old new : String} {score : Binary64}
      (hold : old ∈ ctx.oldObfuscated) (hnew : new ∈ ctx.newObfuscated)
      (hbar : ctx.settings.propagationThreshold < score) :
      Tries ctx .propagation (.claim old new score .propagated)
  | refinement {old new : String} {score : Binary64}
      (hnew : new ∈ ctx.newObfuscated)
      (hbar : ctx.settings.refinementThreshold < score) :
      Tries ctx .refinement (.reassign old new score .refined)
  | correction {old new : String} {score : Binary64}
      (hnew : new ∈ ctx.newObfuscated)
      (hconstant : ctx.isOldConstant old = true)
      (hconstant' : ctx.isNewConstant new = true) (hbar : 0.7 < score) :
      Tries ctx .correction (.reassign old new score .constant)
  | validation {old new : String} {score : Binary64}
      (hnew : new ∈ ctx.newObfuscated)
      (hscore : score = ctx.similarity old new) :
      Tries ctx .validation (.reassign old new score .validated)

/-- A stage makes calls to add pairs or calls to move them, not both. -/
theorem Tries.adds {s : Stage} {x : Table.Call} (h : ctx.Tries s x) :
    x.adds = s.adds := by
  cases h <;> rfl

-- ============================================================ decisions

/-- The claim that the pre-pass over constant-like classes decides on. -/
def constantCall? (ctx : Context) (t : Table) (old : String) :
    Option Table.Call :=
  (ctx.chooseNew old ((ctx.unclaimedNew t).filter ctx.isNewConstant)
    (ctx.constantScore old) ctx.settings.minSimilarity).map
      fun choice => .claim old choice.best.id choice.best.score .constant

/-- The claim that the selection of anchors decides on: the chosen class
clears the threshold and chooses back. -/
def anchorCall? (ctx : Context) (t : Table) (old : String) :
    Option Table.Call :=
  match ctx.chooseNew old (ctx.unclaimedNew t) (ctx.anchorScore old)
      ctx.settings.minSimilarity with
  | some choice =>
    if choice.best.score ≤ ctx.settings.anchorThreshold then none
    else if ctx.isMutual t old choice.best.id then
      some (.claim old choice.best.id choice.best.score .anchor)
    else none
  | none => none

theorem claimConstant_eq_act (t : Table) (old : String) :
    ctx.claimConstant t old = t.act (ctx.constantCall? t old) := by
  unfold claimConstant constantCall?
  dsimp only
  cases ctx.chooseNew old ((ctx.unclaimedNew t).filter ctx.isNewConstant)
      (ctx.constantScore old) ctx.settings.minSimilarity with
  | none => rfl
  | some choice => rfl

theorem claimAnchor_eq_act (t : Table) (old : String) :
    ctx.claimAnchor t old = t.act (ctx.anchorCall? t old) := by
  unfold claimAnchor anchorCall?
  cases ctx.chooseNew old (ctx.unclaimedNew t) (ctx.anchorScore old)
      ctx.settings.minSimilarity with
  | none => rfl
  | some choice =>
    by_cases hscore : choice.best.score ≤ ctx.settings.anchorThreshold
    · simp only [hscore, if_true]
      rfl
    · cases hmutual : ctx.isMutual t old choice.best.id with
      | false => simp [hscore, hmutual, Table.act]
      | true => simp [hscore, hmutual, Table.act, Table.call]

/-- The pre-pass claims free constant-like classes above its floor. -/
theorem of_constantCall? {x : Table.Call}
    (h : ctx.constantCall? t old = some x) :
    ∃ new score, x = .claim old new score .constant
      ∧ new ∈ ctx.unclaimedNew t ∧ ctx.isNewConstant new = true
      ∧ ctx.settings.minSimilarity < score := by
  obtain ⟨choice, hchoice, rfl⟩ := Option.map_eq_some_iff.1 h
  obtain ⟨hmem, -, hfloor⟩ := of_chooseNew hchoice
  obtain ⟨hfree, hconstant⟩ := List.mem_filter.1 hmem
  exact ⟨_, _, rfl, hfree, hconstant, hfloor⟩

/-- The threshold of anchors is a number, whatever the settings. -/
theorem isNaN_anchorThreshold (s : Settings) :
    s.anchorThreshold.isNaN = false := by
  have hfloor : (0.75 : Binary64).isNaN = false :=
    Binary64.isNaN_ofScientific 75 true 2
  unfold Settings.anchorThreshold
  cases hsum : (s.minSimilarity + 0.25).isNaN with
  | false => exact Binary64.isNaN_max hfloor hsum
  | true =>
    rw [Binary64.max_eq_of_atMost (Binary64.atMost_of_isNaN hsum) hfloor]
    exact hfloor

/-- An anchor is a free class above the threshold. -/
theorem of_anchorCall? {x : Table.Call}
    (h : ctx.anchorCall? t old = some x) :
    ∃ new score, x = .claim old new score .anchor
      ∧ new ∈ ctx.unclaimedNew t ∧ score = ctx.anchorScore old new
      ∧ ctx.settings.anchorThreshold < score := by
  unfold anchorCall? at h
  split at h
  · next choice hchoice =>
    obtain ⟨hfree, hscore, hfloor⟩ := of_chooseNew hchoice
    split at h
    · cases h
    · next hnot =>
      have hbar := Binary64.lt_of_not_le (isNaN_anchorThreshold ctx.settings)
        (Binary64.isNaN_of_lt hfloor) hnot
      split at h
      · cases h
        exact ⟨_, _, rfl, hfree, hscore, hbar⟩
      · cases h
  · cases h

/-- What is proposed is an open class, for the old class asked about, and
above the threshold. -/
theorem of_propose {p : Proposal} (h : ctx.propose t old = some p) :
    p.old = old ∧ ctx.isOpen t p.choice.best.id = true
      ∧ ctx.settings.propagationThreshold < p.choice.best.score := by
  unfold propose at h
  dsimp only at h
  split at h
  · next choice hchoice =>
    split at h
    · next hbar =>
      injection h with h
      obtain ⟨hmem, -⟩ := mem_of_pickBest hchoice
      obtain ⟨e, he, heq⟩ := List.mem_map.1 hmem
      subst h
      have hkey : e.1 ∈ (ctx.neighbourVotes t old).votes.keys :=
        List.mem_map.2 ⟨e, he, rfl⟩
      refine ⟨rfl, ?_, hbar⟩
      rw [← heq]
      exact isOpen_of_voted (voted_of_mem_keys hkey)
    · cases h
  · cases h

instance : Std.TransCmp Proposal.precedence :=
  inferInstanceAs (Std.TransCmp (compareLex
    (fun a b : Proposal =>
      Binary64.totalCompare b.choice.best.score a.choice.best.score)
    (compareOn Proposal.old)))

/-- The proposal for an old class is all that is proposed for it. -/
theorem eq_of_mem_proposals {p q : Proposal}
    (hp : p ∈ (ctx.unmappedOld t).filterMap (ctx.propose t))
    (hq : q ∈ (ctx.unmappedOld t).filterMap (ctx.propose t))
    (hold : p.old = q.old) : p = q := by
  obtain ⟨a, -, ha⟩ := List.mem_filterMap.1 hp
  obtain ⟨b, -, hb⟩ := List.mem_filterMap.1 hq
  rw [← (of_propose ha).1, hold, (of_propose hb).1, hb] at ha
  exact (Option.some.inj ha).symm

theorem mem_newObfuscated_of_isOpen (h : ctx.isOpen t new = true) :
    new ∈ ctx.newObfuscated := by
  obtain ⟨hmem, hobfuscated, -⟩ := isOpen_iff.1 h
  exact mem_newObfuscated.2 ⟨hmem, hobfuscated⟩

/-- No similarity is as low as the score of a candidate that cannot be
chosen. -/
theorem similarity_not_lt (old new : String) :
    ¬ctx.similarity old new < -1 := by
  have hone : (-1 : Binary64).rank ≤ (0 : Binary64).rank := by
    rw [Binary64.rank_of_negative rfl, Binary64.zero_eq,
      Binary64.rank_of_nonneg rfl]
    omega
  intro hlt
  have hneg : ctx.similarity old new < 0 :=
    ⟨hlt.1, Binary64.isNaN_zero, Int.lt_of_lt_of_le hlt.2.2 hone⟩
  unfold similarity at hneg
  split at hneg
  · exact classSimilarity_not_neg _ _ hneg
  · exact Binary64.lt_irrefl _ hneg

/-- What a validation chooses is a candidate that is more similar than
the present target, and that more references agree with. -/
theorem of_validationChoice {current : String} {candidates : List String}
    {hits : Nat} {choice : Choice String}
    (h : ctx.chooseNew old candidates (ctx.validationScore t old hits)
      (ctx.similarity old current) = some choice) :
    choice.best.id ∈ candidates
      ∧ choice.best.score = ctx.similarity old choice.best.id
      ∧ ctx.similarity old current < ctx.similarity old choice.best.id
      ∧ hits < (ctx.referenceAgreement t old choice.best.id).1 := by
  obtain ⟨hmem, hscore, hfloor⟩ := of_chooseNew h
  rw [hscore] at hfloor ⊢
  unfold validationScore at hfloor ⊢
  split at hfloor
  · next hmore =>
    rw [if_pos hmore]
    exact ⟨hmem, rfl, hfloor, hmore⟩
  · exact absurd hfloor (similarity_not_lt _ _)

-- ========================================================= the attempts

-- The table that the classes were listed for is an earlier one.
variable {t₀ : Table}

theorem claimConstant_makes (h : old ∈ ctx.constantOrder t₀) (t : Table) :
    Table.Makes (ctx.Tries .constants) t (ctx.claimConstant t old) := by
  obtain ⟨hold, hconstant⟩ := mem_constantOrder.1 h
  rw [claimConstant_eq_act]
  refine Table.makes_act fun x hx => ?_
  obtain ⟨new, score, rfl, hfree, hconstant', hbar⟩ := of_constantCall? hx
  exact .constant (mem_unmappedOld.1 hold).1 (mem_unclaimedNew.1 hfree).1
    hconstant hconstant' hbar

theorem claimAnchor_makes (h : old ∈ ctx.anchorOrder t₀) (t : Table) :
    Table.Makes (ctx.Tries .anchors) t (ctx.claimAnchor t old) := by
  have hold := mem_unmappedOld.1 (mem_anchorOrder.1 h)
  rw [claimAnchor_eq_act]
  refine Table.makes_act fun x hx => ?_
  obtain ⟨new, score, rfl, hfree, hscore, hbar⟩ := of_anchorCall? hx
  exact .anchor hold.1 (mem_unclaimedNew.1 hfree).1 hscore hbar

theorem grant_makes {p : Proposal} (h : p ∈ ctx.proposals t₀) (t : Table) :
    Table.Makes (ctx.Tries .propagation) t (grant t p) := by
  obtain ⟨old, hold, hp⟩ := List.mem_filterMap.1 (mem_sortBy.1 h)
  obtain ⟨heq, hopen, hbar⟩ := of_propose hp
  have hmem := (mem_unmappedOld.1 hold).1
  rw [← heq] at hmem
  exact .call (x := .claim ..)
    (.proposal hmem (mem_newObfuscated_of_isOpen hopen) hbar)

theorem refineOne_makes (old : String) (t : Table) :
    Table.Makes (ctx.Tries .refinement) t (ctx.refineOne t old) := by
  unfold refineOne
  split
  · next choice hchoice =>
    obtain ⟨hfree, -, hbar⟩ := of_chooseNew hchoice
    exact .call (x := .reassign ..)
      (.refinement (mem_unclaimedNew.1 hfree).1 hbar)
  · exact .idle

theorem correctConstant_makes {pair : String × String}
    (h : pair ∈ ctx.constantPairs t₀) (t : Table) :
    Table.Makes (ctx.Tries .correction) t (ctx.correctConstant t pair) := by
  have hconstant := isOldConstant_of_mem_constantPairs h
  unfold correctConstant
  dsimp only
  split
  · exact .idle
  · split
    · next choice hchoice =>
      obtain ⟨hmem, -, hfloor⟩ := of_chooseNew hchoice
      obtain ⟨hnew, hcandidate⟩ := List.mem_filter.1 hmem
      split
      · exact .idle
      · next hnot =>
        have hbar := Binary64.lt_of_not_le (Binary64.isNaN_tenths 7)
          (Binary64.isNaN_of_lt hfloor) fun hle => hnot (.inr hle)
        exact .call (x := .reassign ..) (.correction hnew hconstant
          (Bool.and_eq_true_iff.1 hcandidate).1 hbar)
    · exact .idle

theorem validateOne_makes (old : String) (t : Table) :
    Table.Makes (ctx.Tries .validation) t (ctx.validateOne t old) := by
  unfold validateOne
  split
  · exact .idle
  · dsimp only
    split
    · split
      · next choice hchoice =>
        obtain ⟨hfree, hscore, -⟩ := of_validationChoice hchoice
        exact .call (x := .reassign ..)
          (.validation (mem_unclaimedNew.1 hfree).1 hscore)
      · exact .idle
    · exact .idle

end Context

end SymbolMatch
