/-
How well a pair fits the rest of the table. If the table is right, it
carries what an old class refers to, and what refers to it, to what the
new class refers to and what refers to it.
-/
import SymbolMatch.Matching.Context

namespace SymbolMatch.Context

variable (ctx : Context) (t : Table) (old new : String)

-- =========================================================== neighbours

/-- Whether the table carries a class into a set. -/
def carries (name : String) (targets : OrdSet String) : Bool :=
  match t.newOf? name with
  | some target => targets.contains target
  | none => false

/-- Whether the table carries a class into a set, and not to `new`
itself. -/
def carriesBeside (name : String) (targets : OrdSet String) : Bool :=
  match t.newOf? name with
  | some target => target != new && targets.contains target
  | none => false

/-- The field types of an old class, itself aside. -/
def otherFieldTypes : List String :=
  (ctx.old.evidence.fieldTypesOf old).elements.filter (· != old)

/-- The other classes that hold a field of an old class. -/
def fieldUsers : List String :=
  (ctx.old.evidence.externalFieldUsers old).elements

/-- The users of an old class that the table carries to users of the new
one. -/
def agreeingUsers : List String :=
  (ctx.fieldUsers old).filter fun user =>
    carriesBeside t new user (ctx.new.evidence.fieldUsersOf new)

/-- The field types of an old class that the table carries to field types
of the new one. -/
def agreeingFieldTypes : List String :=
  (ctx.otherFieldTypes old).filter fun type =>
    carries t type (ctx.new.evidence.fieldTypesOf new)

/-- The share of the users that agree, if there are users. -/
def userAgreement? : Option Binary64 :=
  let users := ctx.fieldUsers old
  if users.isEmpty then none
  else some (Binary64.ofNat (ctx.agreeingUsers t old new).length
    / Binary64.ofNat users.length)

/-- The weighted share of the neighbours that agree: field types count
twice, users three times. One half if there are none. -/
def consistency : Binary64 :=
  let total := 2 * (ctx.otherFieldTypes old).length
    + 3 * (ctx.fieldUsers old).length
  let agreeing := 2 * (ctx.agreeingFieldTypes t old new).length
    + 3 * (ctx.agreeingUsers t old new).length
  if 0 < total then Binary64.ofNat agreeing / Binary64.ofNat total else 0.5

-- =========================================================== references

/-- The types of fields and parameters of an old class, itself aside. -/
def signatureTypes : List String :=
  ((ctx.old.evidence.fieldTypesOf old).union
    (ctx.old.evidence.paramTypesOf old)).elements.filter (· != old)

/-- Those that the table carries to types of fields or parameters of the
new class. -/
def agreeingSignatureTypes : List String :=
  let e := ctx.new.evidence
  (ctx.signatureTypes old).filter fun type =>
    carriesBeside t new type ((e.fieldTypesOf new).union (e.paramTypesOf new))

/-- The score of a pair with the rest of the table taken into account.
Constant-like classes are judged by their users and the number of their
fields, other classes by the types they refer to. -/
def comprehensiveScore : Binary64 :=
  let base := ctx.similarity old new * 0.3
  if ctx.isOldConstant old || ctx.isNewConstant new then
    base + (ctx.userAgreement? t old new).getD 0 * 0.4
      + ctx.fieldCloseness old new * 0.3
  else
    let types := ctx.signatureTypes old
    if types.isEmpty then base
    else base + Binary64.ofNat (ctx.agreeingSignatureTypes t old new).length
      / Binary64.ofNat types.length * 0.7

/-- How many mapped types that an old class refers to end up among those
that the new class refers to, and how many do not. -/
def referenceAgreement : Nat × Nat :=
  let targets := (ctx.old.evidence.referencedTypes old).elements.filterMap
    t.newOf?
  let present := ctx.new.evidence.referencedTypes new
  (targets.countP present.contains, targets.countP (!present.contains ·))

end SymbolMatch.Context
