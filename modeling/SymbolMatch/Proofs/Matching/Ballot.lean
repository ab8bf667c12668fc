/-
The votes on an old class count the users that speak for a new one.

A user with a pair votes for every open class among the types of the
class that it became, once for each. Seen from a class that is voted for,
its votes are the users that speak for it: those with a pair whose target
has the class among its types. A user that holds a field and takes a
parameter speaks twice, in each of its roles.

# The share of a vote

What was possible counts every user, with a pair or without, so no class
gets more than that, and a class is on the ballot only if some user
speaks for it. So the share of the possible votes that a proposal is
scored by is above zero and not above one, as long as the counts are
numbers that doubles hold.
-/
import SymbolMatch.Proofs.Matching.Propagation
import SymbolMatch.Proofs.Matching.Support
import SymbolMatch.Proofs.Number.Shares

namespace SymbolMatch

namespace Context

variable {ctx : Context} {t : Table} {old new : String}
  {typesOf : String → OrdSet String} {users : List String}

-- ================================================================ votes

/-- A user votes for the open classes that it speaks for. -/
theorem mem_votedFor {user : String} :
    new ∈ ctx.votedFor t typesOf user
      ↔ ctx.isOpen t new = true ∧ speaksFor t typesOf new user = true := by
  unfold votedFor speaksFor
  cases t.newOf? user with
  | none => simp
  | some target =>
    dsimp only
    rw [List.mem_filter, OrdSet.contains_iff, ← OrdSet.mem_def]
    exact and_comm

/-- No user votes for a class twice. -/
theorem nodup_votedFor (user : String) :
    (ctx.votedFor t typesOf user).Nodup := by
  unfold votedFor
  cases t.newOf? user with
  | none => exact List.nodup_nil
  | some target => exact (typesOf target).nodup_elements.filter _

/-- An open class has one vote from each user that speaks for it. -/
theorem count_votes (hopen : ctx.isOpen t new = true) :
    (users.flatMap (ctx.votedFor t typesOf)).count new
      = (users.filter (speaksFor t typesOf new)).length := by
  induction users with
  | nil => rfl
  | cons user rest ih =>
    rw [List.flatMap_cons, List.count_append, ih, (nodup_votedFor user).count,
      List.filter_cons]
    simp only [mem_votedFor, hopen, true_and]
    split
    · rw [List.length_cons, Nat.add_comm]
    · rw [Nat.zero_add]

/-- A class has votes if it is open and some user speaks for it. -/
theorem mem_votes :
    new ∈ users.flatMap (ctx.votedFor t typesOf)
      ↔ ctx.isOpen t new = true
        ∧ ∃ user, user ∈ users.filter (speaksFor t typesOf new) := by
  simp only [List.mem_flatMap, mem_votedFor, List.mem_filter]
  grind

-- ============================================================= the count

/-- The other classes that take a parameter of an old class and speak for
a new one. -/
def paramSpeakers (ctx : Context) (t : Table) (old new : String) :
    List String :=
  (ctx.old.evidence.externalParamUsers old).elements.filter
    (speaksFor t ctx.new.evidence.paramTypesOf new)

/-- The weight of the users that speak for a class. -/
def support (ctx : Context) (t : Table) (old new : String) : Nat :=
  3 * (ctx.fieldSpeakers t old new).length
    + 2 * (ctx.paramSpeakers t old new).length

theorem get?_votes_iff {vote : Nat} :
    (ctx.neighbourVotes t old).votes.get? new = some vote
      ↔ ctx.isOpen t new = true
        ∧ (∃ user, user ∈ ctx.fieldSpeakers t old new
          ∨ user ∈ ctx.paramSpeakers t old new)
        ∧ vote = ctx.support t old new := by
  have hvoted : new ∈ ctx.fieldVotes t old ∨ new ∈ ctx.paramVotes t old
      ↔ ctx.isOpen t new = true
        ∧ ∃ user, user ∈ ctx.fieldSpeakers t old new
          ∨ user ∈ ctx.paramSpeakers t old new := by
    unfold fieldVotes paramVotes
    rw [mem_votes, mem_votes, ← and_or_left, ← exists_or]
    rfl
  rw [get?_neighbourVotes, ← and_assoc, ← hvoted]
  split
  · next h =>
    have hopen := (hvoted.1 h).1
    rw [and_iff_right h, Option.some_inj]
    unfold fieldVotes paramVotes
    rw [count_votes hopen, count_votes hopen]
    exact eq_comm
  · next h => simp [h]

/-- There is support if some user speaks for the class. -/
theorem support_pos_iff :
    0 < ctx.support t old new
      ↔ ∃ user, user ∈ ctx.fieldSpeakers t old new
        ∨ user ∈ ctx.paramSpeakers t old new := by
  rw [exists_or, ← List.length_pos_iff_exists_mem,
    ← List.length_pos_iff_exists_mem]
  unfold support
  omega

/-- No class has more support than there are users. -/
theorem support_le_possible (ctx : Context) (t : Table) (old new : String) :
    ctx.support t old new ≤ (ctx.neighbourVotes t old).possible := by
  rw [possible_neighbourVotes]
  exact Nat.add_le_add
    (Nat.mul_le_mul_left 3 (List.length_filter_le _ _))
    (Nat.mul_le_mul_left 2 (List.length_filter_le _ _))

-- =========================================================== the theorem

/-- For every table and every old class, with reference to the users of
the class other than itself:

- what is possible is three for each class that holds a field and two for
  each that takes a parameter, with a pair or without;
- a new class has a vote just if it is declared, obfuscated and unclaimed
  and a user speaks for it, and the vote is three for each user that
  speaks for it by its fields and two for each that does by its
  parameters;
- so a vote is above zero and at most what is possible;
- as long as what is possible is below 2⁵³, both are held exactly, and the
  share of the vote is above zero and at most one;
- and this share is what a proposal is scored by, next to similarity. -/
theorem votes_count_speakers (ctx : Context) (t : Table) (old : String) :
    let b := ctx.neighbourVotes t old
    b.possible = 3 * (ctx.old.evidence.externalFieldUsers old).size
        + 2 * (ctx.old.evidence.externalParamUsers old).size
      ∧ (∀ new vote, b.votes.get? new = some vote
        ↔ (new ∈ ctx.new.classNames ∧ ctx.isObfuscated new = true
            ∧ t.isClaimed new = false)
          ∧ (∃ user, user ∈ ctx.fieldSpeakers t old new
            ∨ user ∈ ctx.paramSpeakers t old new)
          ∧ vote = 3 * (ctx.fieldSpeakers t old new).length
            + 2 * (ctx.paramSpeakers t old new).length)
      ∧ (∀ new vote, b.votes.get? new = some vote →
        0 < vote ∧ vote ≤ b.possible)
      ∧ (b.possible < twoPow 53 →
        (Binary64.ofNat b.possible).units = (b.possible * twoPow 1074 : Nat)
          ∧ ∀ new vote, b.votes.get? new = some vote →
            (Binary64.ofNat vote).units = (vote * twoPow 1074 : Nat)
              ∧ 0 < Binary64.ofNat vote / Binary64.ofNat b.possible
              ∧ Binary64.ofNat vote / Binary64.ofNat b.possible ≤ 1)
      ∧ ∀ p, ctx.propose t old = some p →
        ∃ vote, b.votes.get? p.target = some vote
          ∧ p.score = 0.6 * (Binary64.ofNat vote / Binary64.ofNat b.possible)
            + 0.4 * ctx.similarity old p.target := by
  dsimp only
  have hbounds (new : String) (vote : Nat)
      (h : (ctx.neighbourVotes t old).votes.get? new = some vote) :
      0 < vote ∧ vote ≤ (ctx.neighbourVotes t old).possible := by
    obtain ⟨-, hspeaker, rfl⟩ := get?_votes_iff.1 h
    exact ⟨support_pos_iff.2 hspeaker, support_le_possible ctx t old new⟩
  refine ⟨possible_neighbourVotes t old, fun new vote => ?_, hbounds,
    fun hpossible => ⟨Binary64.units_ofNat hpossible, fun new vote h => ?_⟩,
    fun p hp => score_of_propose hp⟩
  · rw [← isOpen_iff]
    exact get?_votes_iff
  · obtain ⟨hpos, hle⟩ := hbounds new vote h
    have hvote : vote < twoPow 53 := Nat.lt_of_le_of_lt hle hpossible
    have hword : twoPow 53 ≤ twoPow 64 := twoPow_le (by decide)
    exact ⟨Binary64.units_ofNat hvote,
      Binary64.zero_lt_ratio hpos hle hpossible,
      (Binary64.isShare_ratio (Nat.lt_of_lt_of_le hvote hword)
        (Nat.lt_of_lt_of_le hpos hle) hle).2⟩

end Context

namespace Sample

/-- A class that is held by two others and taken by two, one of which does
both. -/
def electorate : List ClassDecl :=
  [bare "a",
   { holder "u" ["a"] with
      methods := [⟨"t", "(La;)V", false, false, []⟩] },
   holder "v" ["a"],
   { bare "w" with methods := [⟨"t", "(La;)V", false, false, []⟩] }]

/-- What became of two of them. Of the classes that these refer to, `q`
itself is claimed, `y` is not declared, `app/Main` is not obfuscated. -/
def candidates : List ClassDecl :=
  [bare "n", bare "x", bare "app/Main",
   { holder "p" ["n", "q", "x", "y", "app/Main"] with
      methods := [⟨"t", "(Ln;)V", false, false, []⟩] },
   holder "q" ["n"]]

def electionRun : Context :=
  .ofSnapshots .default ⟨electorate⟩ ⟨candidates⟩

def electionTable : Table :=
  Table.replay {} [.claim "u" "p" 0.9 .anchor, .claim "v" "q" 0.9 .anchor]

end Sample

namespace Context

/-- Eight of ten votes go to `n` and three to `x`. The user without a pair
has no vote and is among the ten. -/
theorem votes_count_speakers_election :
    (Sample.electionRun.neighbourVotes Sample.electionTable "a").possible = 10
      ∧ (Sample.electionRun.neighbourVotes Sample.electionTable
          "a").votes.entries = [("n", 8), ("x", 3)]
      ∧ Sample.electionRun.fieldSpeakers Sample.electionTable "a" "n"
        = ["u", "v"]
      ∧ Sample.electionRun.paramSpeakers Sample.electionTable "a" "n" = ["u"]
      ∧ 0 < Binary64.ofNat 8 / Binary64.ofNat 10
      ∧ Binary64.ofNat 8 / Binary64.ofNat 10 ≤ 1 := by
  have hfacts :
      (Sample.electionRun.neighbourVotes Sample.electionTable
          "a").possible = 10
        ∧ (Sample.electionRun.neighbourVotes Sample.electionTable
            "a").votes.entries = [("n", 8), ("x", 3)]
        ∧ Sample.electionRun.fieldSpeakers Sample.electionTable "a" "n"
          = ["u", "v"]
        ∧ Sample.electionRun.paramSpeakers Sample.electionTable "a" "n"
          = ["u"] := by decide +kernel
  obtain ⟨hpossible, hvotes, hfields, hparams⟩ := hfacts
  obtain ⟨-, -, -, hshares, -⟩ := votes_count_speakers Sample.electionRun
    Sample.electionTable "a"
  have hn : (Sample.electionRun.neighbourVotes Sample.electionTable
      "a").votes.get? "n" = some 8 := by
    rw [OrdMap.get?_eq_some_iff, hvotes]
    exact List.mem_cons_self
  rw [hpossible] at hshares
  obtain ⟨-, hpos, hle⟩ := (hshares (by decide)).2 "n" 8 hn
  exact ⟨hpossible, hvotes, hfields, hparams, hpos, hle⟩

end Context

end SymbolMatch
