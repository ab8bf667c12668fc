/-
Votes of mapped users. A class that holds a field of an unmapped type is
evidence on its target: whatever type the unmapped one became is among
the field types of the class that the user became. So each mapped user
votes for all of these, and the pairs grow outward round by round.
-/
import SymbolMatch.Matching.Context

namespace SymbolMatch.Context

variable (ctx : Context)

-- ================================================================ votes

/-- The votes for each new class and the weight that all users together
could have given to one class. -/
structure Ballot where
  votes : OrdMap String Nat
  possible : Nat
deriving DecidableEq

/-- The weight of a class that holds a field of the type. -/
def fieldVote : Nat := 3

/-- The weight of a class that takes a parameter of the type. -/
def paramVote : Nat := 2

/-- Whether a new class can still be voted for. -/
def isOpen (t : Table) (new : String) : Bool :=
  ctx.new.contains new && !t.isClaimed new && ctx.isObfuscated new

/-- Let one user vote: for every open class that the class it became
refers to. A user without a pair has no voice but counts towards what was
possible. -/
def castVote (t : Table) (typesOf : String → OrdSet String) (weight : Nat)
    (b : Ballot) (user : String) : Ballot where
  votes := match t.newOf? user with
    | some target => ((typesOf target).elements.filter (ctx.isOpen t)).foldl
        (fun votes new => votes.alter new fun n => n.getD 0 + weight) b.votes
    | none => b.votes
  possible := b.possible + weight

/-- The votes on an old class. -/
def neighbourVotes (t : Table) (old : String) : Ballot :=
  let e := ctx.old.evidence
  let byFields := (e.externalFieldUsers old).elements.foldl
    (ctx.castVote t ctx.new.evidence.fieldTypesOf fieldVote) ⟨{}, 0⟩
  (e.externalParamUsers old).elements.foldl
    (ctx.castVote t ctx.new.evidence.paramTypesOf paramVote) byFields

-- ============================================================ proposals

/-- The new class that the votes propose for an old class. -/
structure Proposal where
  old : String
  choice : Choice String
deriving DecidableEq

/-- The combined score of a vote and the structural similarity. -/
def voteScore (vote possible : Nat) (similarity : Binary64) : Binary64 :=
  0.6 * (Binary64.ofNat vote / Binary64.ofNat possible) + 0.4 * similarity

/-- The proposal for an old class, if its best candidate clears the
threshold. -/
def propose (t : Table) (old : String) : Option Proposal :=
  let ballot := ctx.neighbourVotes t old
  let candidates := ballot.votes.entries.map fun (new, vote) =>
    let similarity := ctx.similarity old new
    ⟨new, voteScore vote ballot.possible similarity, similarity⟩
  match pickBest candidates ctx.settings.minSimilarity
      ctx.settings.tieMargin with
  | some choice =>
    if ctx.settings.propagationThreshold < choice.best.score then
      some ⟨old, choice⟩
    else none
  | none => none

/-- The order in which proposals are granted: the highest score first,
then by the name of the old class. -/
def Proposal.precedence (a b : Proposal) : Ordering :=
  (Binary64.totalCompare b.choice.best.score a.choice.best.score).then
    (compare a.old b.old)

/-- The proposals that a table gives rise to, in order. -/
def proposals (t : Table) : List Proposal :=
  sortBy Proposal.precedence ((ctx.unmappedOld t).filterMap (ctx.propose t))

-- ========================================================== propagation

/-- Grant a proposal if its target is still free. -/
def grant (t : Table) (p : Proposal) : Bool × Table :=
  t.claim p.old p.choice.best.id p.choice.best.score .propagated

/-- One round: all proposals are made on the table as it stands, and then
granted in order. -/
def propagateOnce (t : Table) : Nat × Table := t.sweep grant (ctx.proposals t)

/-- Propagate until nothing changes or the rounds are used up. -/
def propagate (t : Table) : Nat × Table :=
  t.rounds ctx.propagateOnce ctx.settings.propagationRounds

end SymbolMatch.Context
