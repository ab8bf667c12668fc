/-
The counts of a profile keep each other in proportion, and the methods it
names are those behind its reads and its writes.

An instruction may count in several ways at once, so the nine counts are
not independent. What follows a read belongs to one family of
instructions at most, apart from the tests against zero, which are
comparisons too; what stands before a write loads a constant or ends a
step and not both. Hence each read is used in at most one of three ways,
and each write has at most one of three sources.

# From a place to a snapshot

The proportions are linear, so they hold of a sum if they hold of its
parts. One place of the code keeps them (`consistent_atPlace`), merging
two profiles keeps them (`Consistent.merge`), and the profile of more
accesses is the merge of the profiles of fewer (`ofAccesses_append`).
-/
import SymbolMatch.Proofs.Access.Scan

namespace SymbolMatch

-- ============================================================== families

namespace Opcode

/-- An instruction uses a value as an index, to compare it or in
arithmetic, or in none of these ways. -/
theorem uses_le_one (op : Nat) :
    (isArrayLoad op).toNat + (isComparison op).toNat
      + (isArithmetic op).toNat ≤ 1 := by
  have hload : isArrayLoad op = true →
      isComparison op = false ∧ isArithmetic op = false := by
    unfold isArrayLoad isComparison isArithmetic
    grind
  have hcompare : isComparison op = true → isArithmetic op = false := by
    unfold isComparison isArithmetic
    grind
  cases hop : isArrayLoad op with
  | true =>
    rw [(hload hop).1, (hload hop).2]
    decide
  | false =>
    cases hop' : isComparison op with
    | true =>
      rw [hcompare hop']
      decide
    | false => cases isArithmetic op <;> decide

/-- A test against zero is a comparison. -/
theorem isBooleanCheck_le (op : Nat) :
    (isBooleanCheck op).toNat ≤ (isComparison op).toNat := by
  cases hop : isBooleanCheck op with
  | false => exact Nat.zero_le _
  | true =>
    have hcompare : isComparison op = true := by
      unfold isBooleanCheck at hop
      unfold isComparison
      grind
    rw [hcompare]

/-- What adds or subtracts does not load a constant. -/
theorem loads_eq_false {op : Nat} (h : isIncrement op ∨ isDecrement op) :
    (isPoolLoad op || isSmallIntConstant op) = false := by
  unfold isIncrement isDecrement iadd ladd isub lsub at h
  unfold isPoolLoad isSmallIntConstant ldc
  grind

end Opcode

-- ================================================================ counts

namespace AccessCounts

variable {a b : AccessCounts}

/-- The proportions that counts of accesses keep. -/
structure Balanced (c : AccessCounts) : Prop where
  /-- A test against zero is a comparison. -/
  tests : c.booleanCheck ≤ c.comparison
  /-- A read is used in one of these ways at most. -/
  uses : c.arrayIndex + c.comparison + c.arithmetic ≤ c.read
  /-- A write has one of these sources at most. -/
  sources : c.increment + c.decrement + c.constantLoad ≤ c.write

theorem balanced_empty : Balanced {} :=
  ⟨Nat.le_refl 0, Nat.le_refl 0, Nat.le_refl 0⟩

theorem Balanced.add (ha : a.Balanced) (hb : b.Balanced) :
    (a.add b).Balanced := by
  obtain ⟨htests, huses, hsources⟩ := ha
  obtain ⟨htests', huses', hsources'⟩ := hb
  refine ⟨?_, ?_, ?_⟩
  · show a.booleanCheck + b.booleanCheck ≤ a.comparison + b.comparison
    omega
  · show a.arrayIndex + b.arrayIndex + (a.comparison + b.comparison)
      + (a.arithmetic + b.arithmetic) ≤ a.read + b.read
    omega
  · show a.increment + b.increment + (a.decrement + b.decrement)
      + (a.constantLoad + b.constantLoad) ≤ a.write + b.write
    omega

theorem tally_append (xs ys : List AccessKind) :
    tally (xs ++ ys) = (tally xs).add (tally ys) := by
  unfold tally add
  simp only [List.count_append, get_ofFn]

end AccessCounts

namespace Access

variable {owners : Owners} {field : Member} {before after : List Instruction}
  {i : Instruction}

/-- The counts of one read, by the instruction after it. -/
theorem tally_readKinds (next : Instruction) (rest : List Instruction) :
    AccessCounts.tally (readKinds (next :: rest))
      = { read := 1
          arrayIndex := (Opcode.isArrayLoad next.opcode).toNat
          comparison := (Opcode.isComparison next.opcode).toNat
          booleanCheck := (Opcode.isBooleanCheck next.opcode).toNat
          arithmetic := (Opcode.isArithmetic next.opcode).toNat } := by
  unfold readKinds
  dsimp only
  cases Opcode.isArrayLoad next.opcode
    <;> cases Opcode.isComparison next.opcode
    <;> cases Opcode.isBooleanCheck next.opcode
    <;> cases Opcode.isArithmetic next.opcode <;> rfl

theorem balanced_readKinds :
    (AccessCounts.tally (readKinds after)).Balanced := by
  cases after with
  | nil => exact ⟨by decide, by decide, by decide⟩
  | cons next rest =>
    rw [tally_readKinds]
    exact ⟨Opcode.isBooleanCheck_le _, Opcode.uses_le_one _, Nat.zero_le _⟩

/-- A write ends a step one way at most, and then stores no constant. -/
theorem stepKind_cases (owners : Owners) (field : Member)
    (before : List Instruction) :
    stepKind owners field before = []
      ∨ (∃ d : Direction, stepKind owners field before = [d.kind])
        ∧ constantKind before = [] := by
  match before with
  | [] | [_] | [_, _] => exact .inl rfl
  | operation :: unit :: load :: rest =>
    have hconstant (h : Opcode.isIncrement operation.opcode
        ∨ Opcode.isDecrement operation.opcode) :
        constantKind (operation :: unit :: load :: rest) = [] := by
      unfold constantKind
      dsimp only
      rw [Opcode.loads_eq_false h]
      rfl
    unfold stepKind
    dsimp only
    split_ifs with hunit hup hdown
    · exact .inr ⟨⟨.up, rfl⟩, hconstant (.inl hup)⟩
    · exact .inr ⟨⟨.down, rfl⟩, hconstant (.inr hdown)⟩
    · exact .inl rfl
    · exact .inl rfl

theorem constantKind_cases (before : List Instruction) :
    constantKind before = [] ∨ constantKind before = [.constantLoad] := by
  unfold constantKind
  split
  · exact .inl rfl
  · split
    · exact .inr rfl
    · exact .inl rfl

theorem balanced_writeKinds :
    (AccessCounts.tally (.write :: stepKind owners field before
      ++ constantKind before)).Balanced := by
  rcases stepKind_cases owners field before
    with hstep | ⟨⟨d, hstep⟩, hconstant⟩
  · rcases constantKind_cases before with hconstant | hconstant
    · rw [hstep, hconstant]
      exact ⟨by decide, by decide, by decide⟩
    · rw [hstep, hconstant]
      exact ⟨by decide, by decide, by decide⟩
  · rw [hstep, hconstant]
    cases d with
    | up => exact ⟨by decide, by decide, by decide⟩
    | down => exact ⟨by decide, by decide, by decide⟩

/-- One instruction counts in proportion. -/
theorem balanced_kindsAt :
    (AccessCounts.tally (kindsAt owners field before i after)).Balanced := by
  unfold kindsAt
  split
  · exact balanced_readKinds
  · split
    · exact balanced_writeKinds
    · exact AccessCounts.balanced_empty

end Access

-- ============================================================== profiles

namespace AccessProfile

variable {p q : AccessProfile} {field : Member}

/-- The methods behind a number of accesses: no more than these, and none
just if there are none. -/
structure Behind (methods : OrdSet Member) (count : Nat) : Prop where
  size_le : methods.size ≤ count
  isEmpty_iff : methods.isEmpty = true ↔ count = 0

theorem Behind.union {ms ms' : OrdSet Member} {m n : Nat} (h : Behind ms m)
    (h' : Behind ms' n) : Behind (ms.union ms') (m + n) := by
  refine ⟨?_, ?_⟩
  · calc (ms.union ms').size
        ≤ ms.size + ms'.size := OrdSet.size_union_le ms ms'
      _ ≤ m + n := Nat.add_le_add h.size_le h'.size_le
  · rw [OrdSet.isEmpty_union, h.isEmpty_iff, h'.isEmpty_iff]
    omega

/-- One method with a number of accesses. -/
theorem behind_replicate (method : Member) (n : Nat) :
    Behind (OrdSet.ofList (List.replicate n method)) n := by
  refine ⟨?_, ?_⟩
  · have hsize := OrdSet.size_ofList_le (List.replicate n method)
    rw [List.length_replicate] at hsize
    exact hsize
  · rw [OrdSet.isEmpty_ofList, List.replicate_eq_nil_iff]

/-- A profile whose parts fit each other. -/
structure Consistent (p : AccessProfile) : Prop where
  counts : p.counts.Balanced
  readers : Behind p.readMethods p.counts.read
  writers : Behind p.writeMethods p.counts.write

namespace Consistent

/-- Merging adds counts up and puts methods together. -/
theorem merge (hp : p.Consistent) (hq : q.Consistent) :
    (p.merge q).Consistent :=
  ⟨hp.counts.add hq.counts, hp.readers.union hq.readers,
    hp.writers.union hq.writers⟩

theorem classify (h : p.Consistent) : p.classify.Consistent :=
  ⟨h.counts, h.readers, h.writers⟩

/-- The steps are part of the writes, so their sum fits wherever the count
of writes does. -/
theorem steps_lt (h : p.Consistent) {bound : Nat}
    (hbound : p.counts.write < bound) :
    p.counts.increment + p.counts.decrement < bound := by
  have hsources := h.counts.sources
  omega

end Consistent

/-- Roles follow from the rest of a profile. -/
theorem classify_congr (hfield : p.field = q.field)
    (hcounts : p.counts = q.counts) (hreaders : p.readMethods = q.readMethods)
    (hwriters : p.writeMethods = q.writeMethods) : p.classify = q.classify := by
  cases p
  cases q
  cases hfield
  cases hcounts
  cases hreaders
  cases hwriters
  rfl

/-- More accesses make a profile that is merged from those of fewer. -/
theorem ofAccesses_append (xs ys : List Access) (field : Member) :
    ofAccesses (xs ++ ys) field
      = ((ofAccesses xs field).merge (ofAccesses ys field)).classify := by
  unfold ofAccesses
  dsimp only
  apply classify_congr
  · rfl
  · simp only [List.filter_append, List.map_append]
    exact AccessCounts.tally_append _ _
  · simp only [List.filter_append, List.map_append]
    exact OrdSet.ofList_append _ _
  · simp only [List.filter_append, List.map_append]
    exact OrdSet.ofList_append _ _

/-- One method accesses one field, in some ways. -/
theorem ofAccesses_map (kinds : List AccessKind) (field method : Member) :
    ofAccesses (kinds.map (⟨field, method, ·⟩)) field
      = classify {
          field := field
          counts := AccessCounts.tally kinds
          readMethods := OrdSet.ofList (.replicate (kinds.count .read) method)
          writeMethods := OrdSet.ofList (.replicate (kinds.count .write) method)
          patterns := {} } := by
  have hmine : (kinds.map (Access.mk field method)).filter (·.field = field)
      = kinds.map (Access.mk field method) := by
    rw [List.filter_map]
    congr 1
    exact List.filter_eq_self.2 fun _ _ => decide_eq_true rfl
  have hmethods (k : AccessKind) :
      ((kinds.map (Access.mk field method)).filter (·.kind = k)).map (·.method)
        = .replicate (kinds.count k) method := by
    rw [List.filter_map, List.map_map, List.count_eq_length_filter]
    exact List.map_const'
  have hkinds : (kinds.map (Access.mk field method)).map (·.kind) = kinds := by
    rw [List.map_map]
    exact List.map_id kinds
  unfold ofAccesses
  dsimp only
  rw [hmine, hmethods, hmethods, hkinds]

theorem consistent_nil (field : Member) : (ofAccesses [] field).Consistent :=
  ⟨AccessCounts.balanced_empty, behind_replicate field 0,
    behind_replicate field 0⟩

-- ============================================================== the scan

variable {owners : Owners} {method : Member} {before after : List Instruction}
  {i : Instruction}

/-- Accesses to other fields leave no trace in a profile. -/
theorem ofAccesses_of_ne {accesses : List Access}
    (h : ∀ a ∈ accesses, a.field ≠ field) :
    ofAccesses accesses field = ofAccesses [] field := by
  have hnone : accesses.filter (·.field = field) = [] :=
    List.filter_eq_nil_iff.2 fun a ha heq => h a ha (of_decide_eq_true heq)
  unfold ofAccesses
  dsimp only
  rw [hnone]
  rfl

/-- One place of the code makes a consistent profile. -/
theorem consistent_atPlace :
    (ofAccesses (Access.atPlace owners method before i after)
      field).Consistent := by
  unfold Access.atPlace
  cases Access.target? owners i with
  | none => exact consistent_nil field
  | some found =>
    dsimp only
    by_cases heq : found = field
    · subst heq
      rw [ofAccesses_map]
      exact ⟨Access.balanced_kindsAt, behind_replicate method _,
        behind_replicate method _⟩
    · rw [ofAccesses_of_ne]
      · exact consistent_nil field
      · intro a ha
        obtain ⟨k, -, rfl⟩ := List.mem_map.1 ha
        exact heq

theorem consistent_ofCode (before code : List Instruction) :
    (ofAccesses (Access.ofCode owners method before code)
      field).Consistent := by
  induction code generalizing before with
  | nil => exact consistent_nil field
  | cons i after ih =>
    rw [Access.ofCode_cons, ofAccesses_append]
    exact (consistent_atPlace.merge (ih (i :: before))).classify

/-- Parts that make consistent profiles make one together. -/
theorem consistent_flatMap {α : Type} {xs : List α} {f : α → List Access}
    (h : ∀ x ∈ xs, (ofAccesses (f x) field).Consistent) :
    (ofAccesses (xs.flatMap f) field).Consistent := by
  induction xs with
  | nil => exact consistent_nil field
  | cons x rest ih =>
    rw [List.flatMap_cons, ofAccesses_append]
    have hrest := ih fun y hy => h y (List.mem_cons_of_mem x hy)
    exact ((h x List.mem_cons_self).merge hrest).classify

/-- The accesses of some classes make consistent profiles. -/
theorem consistent_classes (owners : Owners) (cs : List ClassDecl)
    (field : Member) :
    (ofAccesses (cs.flatMap (Access.ofClass owners)) field).Consistent := by
  refine consistent_flatMap fun c _ => ?_
  unfold Access.ofClass
  exact consistent_flatMap fun m _ => consistent_ofCode [] m.code

end AccessProfile

-- =========================================================== the theorem

namespace Index

/-- Every accepted snapshot has a profile for each field that it declares
and for no other, and every profile is consistent: tests against zero are
among the comparisons, the uses of reads are no more than the reads and
the sources of writes no more than the writes, and there are no more
methods behind the reads and behind the writes than there are reads and
writes, and none just if there are none. So the sum of the steps is below
any bound that the count of writes is below, a 32-bit word's among
them. -/
theorem profiles_consistent (settings : Settings) (cs : List ClassDecl)
    (s : Snapshot) (hs : Snapshot.ofClasses cs = .ok s) :
    ∃ x, build settings s = .ok x
      ∧ (∀ field, (∃ p, x.profiles.get? field = some p)
        ↔ Owners.Declares cs field)
      ∧ ∀ field p, x.profiles.get? field = some p → p.Consistent
        ∧ (p.counts.write < twoPow 32 →
          p.counts.increment + p.counts.decrement < twoPow 32) := by
  obtain ⟨rfl, hvalid⟩ := Snapshot.ofClasses_eq_ok_iff.1 hs
  refine ⟨_, build_eq_ok settings hvalid, fun field => ?_, fun field p hp => ?_⟩
  · rw [← Owners.mem_declared_iff]
    constructor
    · rintro ⟨p, hp⟩
      exact (AccessProfile.get?_ofClasses_eq_some_iff.1 hp).1
    · intro hfield
      exact ⟨_, AccessProfile.get?_ofClasses hfield⟩
  · obtain ⟨-, rfl⟩ := AccessProfile.get?_ofClasses_eq_some_iff.1 hp
    have hconsistent := AccessProfile.consistent_classes
      (Owners.ofClasses s.classes) s.classes field
    exact ⟨hconsistent, hconsistent.steps_lt⟩

end Index

namespace Sample

/-- A field that one class tests, indexes with, subtracts from, steps and
resets, and that a class below it tests under its own name. -/
def busy : List ClassDecl :=
  [{ heir "ab" none ["a"] with
      methods := [⟨"t", "()V", false, false,
        [⟨180, .field ⟨"ab", "a", "I"⟩⟩, ⟨153, .empty⟩,
         ⟨180, .field ⟨"ab", "a", "I"⟩⟩, ⟨46, .empty⟩,
         ⟨180, .field ⟨"ab", "a", "I"⟩⟩, ⟨100, .empty⟩,
         ⟨180, .field ⟨"ab", "a", "I"⟩⟩, ⟨4, .empty⟩, ⟨96, .empty⟩,
         ⟨181, .field ⟨"ab", "a", "I"⟩⟩,
         ⟨3, .empty⟩, ⟨181, .field ⟨"ab", "a", "I"⟩⟩]⟩] },
   { heir "cd" (some "ab") [] with
      methods := [⟨"t", "()V", false, false,
        [⟨180, .field ⟨"cd", "a", "I"⟩⟩, ⟨154, .empty⟩]⟩] }]

/-- How often it is accessed in each way. -/
def busyCounts : AccessCounts where
  read := 5
  write := 2
  increment := 1
  arithmetic := 1
  comparison := 2
  arrayIndex := 1
  booleanCheck := 2
  constantLoad := 1

end Sample

namespace Index

/-- All writes have a source and one read has no use. -/
theorem profiles_consistent_busy :
    Snapshot.ofClasses Sample.busy = .ok ⟨Sample.busy⟩
      ∧ ∃ x p, build .default ⟨Sample.busy⟩ = .ok x
        ∧ x.profiles.get? ⟨"ab", "a", "I"⟩ = some p
        ∧ p.counts = Sample.busyCounts
        ∧ p.Consistent
        ∧ p.counts.increment + p.counts.decrement < twoPow 32 := by
  have haccepted : Snapshot.ofClasses Sample.busy = .ok ⟨Sample.busy⟩ := rfl
  obtain ⟨-, hvalid⟩ := Snapshot.ofClasses_eq_ok_iff.1 haccepted
  obtain ⟨x, hx, hdeclared, hprofiles⟩ :=
    profiles_consistent .default Sample.busy _ haccepted
  obtain ⟨p, hp⟩ := (hdeclared ⟨"ab", "a", "I"⟩).2 (by decide)
  obtain ⟨hconsistent, hsteps⟩ := hprofiles _ p hp
  have hcounts : p.counts = Sample.busyCounts := by
    have heq := hx.symm.trans (build_eq_ok .default hvalid)
    cases heq
    obtain ⟨-, rfl⟩ := AccessProfile.get?_ofClasses_eq_some_iff.1 hp
    decide
  refine ⟨haccepted, x, p, hx, hp, hcounts, hconsistent, hsteps ?_⟩
  rw [hcounts]
  decide

end Index

end SymbolMatch
