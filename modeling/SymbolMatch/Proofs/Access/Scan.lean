/-
What the counts of a field's profile count, and in particular its steps.

A scan goes through code place by place, with the instructions already
passed at hand. A write counts as an increment or a decrement if the
three instructions before it are a reference to the same field, the
constant one and an addition or a subtraction. These three and the write
are four instructions in a row, a stretch of the code, and every stretch
is looked at once, when the scan comes to its last instruction
(`stretches_append_singleton`). So a count of steps is a count of
stretches (`Access.count_step_ofCode`).

# Strays

The look back asks whether the first instruction of a stretch refers to
the field and not whether it reads it. A stretch that begins with a write
of the field passes too, although nothing of the field is stepped: what
is added to was on the stack before. Counts of steps are therefore exact
only up to such strays. Without them they are bounded by the count of
reads, since every stretch begins at a place of its own.
-/
import Mathlib.Data.List.Flatten
import SymbolMatch.Proofs.Access.Redirection

namespace SymbolMatch

-- ============================================================= stretches

/-- Four instructions in a row, by what each does in a step. -/
structure Stretch where
  load : Instruction
  unit : Instruction
  operation : Instruction
  store : Instruction

/-- Every four instructions in a row, from the first place on. -/
def stretches : List Instruction → List Stretch
  | a :: b :: c :: d :: rest => ⟨a, b, c, d⟩ :: stretches (b :: c :: d :: rest)
  | _ => []

/-- The stretch that an instruction ends, if there is room for one.
`before` holds the instructions before it, the last first. -/
def closing (before : List Instruction) (i : Instruction) : List Stretch :=
  match before with
  | operation :: unit :: load :: _ => [⟨load, unit, operation, i⟩]
  | _ => []

/-- The last four instructions are the last stretch. -/
theorem stretches_append_four (xs : List Instruction) (a b c d : Instruction) :
    stretches (xs ++ [a, b, c, d])
      = stretches (xs ++ [a, b, c]) ++ [⟨a, b, c, d⟩] := by
  induction xs with
  | nil => rfl
  | cons x xs ih =>
    match xs with
    | [] | [_] | [_, _] => rfl
    | y :: z :: w :: rest =>
      simp only [List.cons_append, stretches] at ih ⊢
      rw [ih]

/-- One more instruction makes one more stretch. -/
theorem stretches_append_singleton (before : List Instruction)
    (i : Instruction) :
    stretches (before.reverse ++ [i])
      = stretches before.reverse ++ closing before i := by
  match before with
  | [] | [_] | [_, _] => rfl
  | operation :: unit :: load :: rest =>
    simp only [List.reverse_cons, List.append_assoc, List.cons_append,
      List.nil_append, closing]
    exact stretches_append_four rest.reverse load unit operation i

/-- Stretches begin at different places. -/
theorem loads_sublist (code : List Instruction) :
    ((stretches code).map (·.load)).Sublist code := by
  fun_induction stretches code with
  | case1 a b c d rest ih => exact ih.cons_cons a
  | case2 code => exact List.nil_sublist code

-- ================================================================ steps

/-- The two ways to step a field by one. -/
inductive Direction
  | up
  | down

namespace Direction

/-- The kind of access that such a step counts as. -/
def kind : Direction → AccessKind
  | up => .increment
  | down => .decrement

/-- The operations that step this way. -/
def steps : Direction → Nat → Bool
  | up => Opcode.isIncrement
  | down => Opcode.isDecrement

end Direction

theorem Opcode.isDecrement_eq_false {op : Nat} (h : isIncrement op) :
    isDecrement op = false := by
  simp only [isIncrement, isDecrement, iadd, ladd, isub, lsub] at *
  grind

theorem Opcode.isFieldWrite_eq_false {op : Nat} (h : isFieldRead op) :
    isFieldWrite op = false := by
  simp only [isFieldRead, isFieldWrite, getfield, getstatic, putfield,
    putstatic] at *
  grind

/-- Whether an instruction reads a field. -/
def Instruction.reads (owners : Owners) (field : Member) (i : Instruction) :
    Bool :=
  Opcode.isFieldRead i.opcode && Access.target? owners i == some field

/-- Whether an instruction writes a field. -/
def Instruction.writes (owners : Owners) (field : Member) (i : Instruction) :
    Bool :=
  Opcode.isFieldWrite i.opcode && Access.target? owners i == some field

namespace Stretch

variable (owners : Owners) (field : Member) (d : Direction) (w : Stretch)

/-- Whether a stretch refers to a field, loads the constant one, adds or
subtracts and writes the field. -/
def passes : Bool :=
  Access.target? owners w.load == some field
    && Opcode.isUnitConstant w.unit.opcode && d.steps w.operation.opcode
    && w.store.writes owners field

/-- A real step: what passes for one begins with a read. -/
def isStep : Bool :=
  Opcode.isFieldRead w.load.opcode && w.passes owners field d

/-- A stray: it passes for a step and does not begin with a read. -/
def isStray : Bool :=
  !Opcode.isFieldRead w.load.opcode && w.passes owners field d

variable {owners field d w}

theorem reads_of_isStep (h : w.isStep owners field d) :
    w.load.reads owners field := by
  unfold isStep passes at h
  unfold Instruction.reads
  simp only [Bool.and_eq_true] at h ⊢
  exact ⟨h.1, h.2.1.1.1⟩

theorem steps_of_isStep (h : w.isStep owners field d) :
    d.steps w.operation.opcode := by
  unfold isStep passes at h
  simp only [Bool.and_eq_true] at h
  exact h.2.1.2

/-- What passes for a step is one or is a stray. -/
theorem count_passes (ws : List Stretch) :
    ws.countP (passes owners field d)
      = ws.countP (isStep owners field d)
        + ws.countP (isStray owners field d) := by
  rw [List.countP_eq_countP_filter_add ws (passes owners field d)
      (fun w => Opcode.isFieldRead w.load.opcode),
    List.countP_filter, List.countP_filter]
  unfold isStep isStray
  simp only [Bool.and_comm]

/-- Steps are no more than the reads they begin with. -/
theorem count_isStep_le (ws : List Stretch) :
    ws.countP (isStep owners field .up) + ws.countP (isStep owners field .down)
      ≤ ws.countP fun w => w.load.reads owners field := by
  rw [List.countP_eq_countP_filter_add ws
      (fun w => w.load.reads owners field)
      (fun w => Opcode.isIncrement w.operation.opcode),
    List.countP_filter, List.countP_filter]
  refine Nat.add_le_add (List.countP_mono_left fun w _ h => ?_)
    (List.countP_mono_left fun w _ h => ?_)
  · have hup : Opcode.isIncrement w.operation.opcode := steps_of_isStep h
    simp [reads_of_isStep h, hup]
  · have hdown : Opcode.isDecrement w.operation.opcode := steps_of_isStep h
    have hup : Opcode.isIncrement w.operation.opcode = false :=
      Bool.eq_false_iff.2 fun hup => by
        rw [Opcode.isDecrement_eq_false hup] at hdown
        cases hdown
    simp [reads_of_isStep h, hup]

end Stretch

-- ============================================================= one place

namespace Access

variable {owners : Owners} {method field : Member} {kind : AccessKind}
  {d : Direction} {before after : List Instruction} {i : Instruction}

/-- The accesses that are counted at one place of the code. -/
def atPlace (owners : Owners) (method : Member) (before : List Instruction)
    (i : Instruction) (after : List Instruction) : List Access :=
  match target? owners i with
  | some field => (kindsAt owners field before i after).map (⟨field, method, ·⟩)
  | none => []

theorem ofCode_cons :
    ofCode owners method before (i :: after)
      = atPlace owners method before i after
        ++ ofCode owners method (i :: before) after := rfl

/-- Whether an access is one to a field, of a kind. -/
def isOf (field : Member) (kind : AccessKind) (a : Access) : Bool :=
  a.field = field ∧ a.kind = kind

theorem count_atPlace :
    (atPlace owners method before i after).countP (isOf field kind)
      = if target? owners i == some field
        then (kindsAt owners field before i after).count kind else 0 := by
  unfold atPlace
  cases target? owners i with
  | none => rfl
  | some found =>
    dsimp only
    rw [List.countP_map]
    by_cases heq : found = field
    · subst heq
      rw [if_pos (beq_self_eq_true _)]
      exact List.countP_congr fun k _ => by simp [isOf]
    · rw [if_neg (by simpa using heq), List.countP_eq_zero]
      exact fun k _ => by simp [isOf, heq]

/-- A read counts as one, whatever its value is used for. -/
theorem count_read_readKinds : (readKinds after).count .read = 1 := by
  unfold readKinds
  cases after with
  | nil => rfl
  | cons next rest => dsimp only; split_ifs <;> rfl

theorem count_step_readKinds : (readKinds after).count d.kind = 0 := by
  unfold readKinds
  cases d <;> cases after with
  | nil => rfl
  | cons next rest => dsimp only; split_ifs <;> rfl

theorem count_read_stepKind : (stepKind owners field before).count .read = 0 := by
  unfold stepKind
  split
  · split_ifs <;> rfl
  · rfl

theorem count_constantKind (h : kind ≠ .constantLoad) :
    (constantKind before).count kind = 0 := by
  refine List.count_eq_zero_of_not_mem fun hmem => h ?_
  unfold constantKind at hmem
  split at hmem
  · cases hmem
  · split at hmem
    · exact List.mem_singleton.1 hmem
    · cases hmem

/-- Only a read counts as a read. -/
theorem count_read_kindsAt :
    (kindsAt owners field before i after).count .read
      = if Opcode.isFieldRead i.opcode then 1 else 0 := by
  unfold kindsAt
  split
  · exact count_read_readKinds
  · split
    · rw [List.cons_append, List.count_cons_of_ne (by decide),
        List.count_append, count_read_stepKind,
        count_constantKind (by decide)]
    · rfl

/-- Only a write counts as a step. -/
theorem count_step_kindsAt :
    (kindsAt owners field before i after).count d.kind
      = if Opcode.isFieldWrite i.opcode
        then (stepKind owners field before).count d.kind else 0 := by
  have hwrite : AccessKind.write ≠ d.kind := by cases d <;> decide
  have hconstant : d.kind ≠ .constantLoad := by cases d <;> decide
  unfold kindsAt
  split
  · next hread =>
    rw [Opcode.isFieldWrite_eq_false hread, count_step_readKinds]
    rfl
  · split
    · rw [List.cons_append, List.count_cons_of_ne hwrite, List.count_append,
        count_constantKind hconstant, Nat.add_zero]
    · rfl

/-- An operation steps one way at most. -/
theorem count_operation (op : Nat) :
    (if Opcode.isIncrement op then [AccessKind.increment]
      else if Opcode.isDecrement op then [.decrement] else []).count d.kind
      = if d.steps op then 1 else 0 := by
  cases d with
  | up =>
    change _ = if Opcode.isIncrement op then 1 else 0
    split_ifs <;> rfl
  | down =>
    change _ = if Opcode.isDecrement op then 1 else 0
    by_cases hup : Opcode.isIncrement op
    · rw [if_pos hup, Opcode.isDecrement_eq_false hup]
      rfl
    · rw [if_neg hup]
      split_ifs <;> rfl

/-- The look back judges the first three instructions of the stretch that
the write ends. -/
theorem count_stepKind (h : i.writes owners field) :
    (stepKind owners field before).count d.kind
      = (closing before i).countP (Stretch.passes owners field d) := by
  match before with
  | [] | [_] | [_, _] => rfl
  | operation :: unit :: load :: rest =>
    simp only [stepKind, closing, List.countP_singleton, Stretch.passes, h,
      Bool.and_true]
    cases Opcode.isUnitConstant unit.opcode with
    | false => simp
    | true =>
      cases target? owners load == some field with
      | false => simp
      | true => simpa using count_operation operation.opcode

/-- A place counts a step if it ends a stretch that passes for one. -/
theorem count_step_atPlace :
    (atPlace owners method before i after).countP (isOf field d.kind)
      = (closing before i).countP (Stretch.passes owners field d) := by
  rw [count_atPlace, count_step_kindsAt]
  by_cases hwrites : i.writes owners field
  · rw [← count_stepKind hwrites]
    obtain ⟨hwrite, htarget⟩ := Bool.and_eq_true_iff.1 hwrites
    rw [if_pos htarget, if_pos hwrite]
  · have hzero : (closing before i).countP (Stretch.passes owners field d)
        = 0 := by
      rw [List.countP_eq_zero]
      intro w hw hpasses
      have hstore : w.store = i := by
        unfold closing at hw
        split at hw
        · rw [List.mem_singleton.1 hw]
        · cases hw
      exact hwrites (hstore ▸ (Bool.and_eq_true_iff.1 hpasses).2)
    rw [hzero]
    unfold Instruction.writes at hwrites
    split_ifs with htarget hwrite
    · exact absurd (Bool.and_eq_true_iff.2 ⟨hwrite, htarget⟩) hwrites
    · rfl
    · rfl

/-- A place counts a read if it is one. -/
theorem count_read_atPlace :
    (atPlace owners method before i after).countP (isOf field .read)
      = [i].countP (Instruction.reads owners field) := by
  rw [count_atPlace, count_read_kindsAt, List.countP_singleton]
  unfold Instruction.reads
  cases Opcode.isFieldRead i.opcode
    <;> cases target? owners i == some field <;> rfl

-- ================================================================= code

/-- The steps that a scan counts are the stretches that pass for one,
those that end before the place where it starts left out. The invariant
of the scan: what is counted and what is behind make up what there is. -/
theorem count_step_ofCode (before code : List Instruction) :
    (ofCode owners method before code).countP (isOf field d.kind)
        + (stretches before.reverse).countP (Stretch.passes owners field d)
      = (stretches (before.reverse ++ code)).countP
        (Stretch.passes owners field d) := by
  induction code generalizing before with
  | nil =>
    rw [List.append_nil]
    exact Nat.zero_add _
  | cons i after ih =>
    have hrest := ih (i :: before)
    rw [List.reverse_cons, stretches_append_singleton, List.countP_append,
      List.append_assoc, List.singleton_append] at hrest
    rw [ofCode_cons, List.countP_append, count_step_atPlace, ← hrest]
    omega

theorem count_read_ofCode (before code : List Instruction) :
    (ofCode owners method before code).countP (isOf field .read)
      = code.countP (Instruction.reads owners field) := by
  induction code generalizing before with
  | nil => rfl
  | cons i after ih =>
    rw [ofCode_cons, List.countP_append, count_read_atPlace, ih,
      ← List.countP_append]
    rfl

end Access

-- =============================================================== classes

/-- Lists put together of parts with the same counts have the same
count. -/
theorem countP_flatMap_congr {α β γ : Type} {xs : List α} {f : α → List β}
    {g : α → List γ} {p : β → Bool} {q : γ → Bool}
    (h : ∀ x ∈ xs, (f x).countP p = (g x).countP q) :
    (xs.flatMap f).countP p = (xs.flatMap g).countP q := by
  rw [List.countP_flatMap, List.countP_flatMap]
  exact congrArg List.sum (List.map_congr_left h)

/-- The instructions of some classes, body after body. -/
def codeOf (cs : List ClassDecl) : List Instruction :=
  cs.flatMap fun c => c.methods.flatMap (·.code)

/-- The stretches of some classes. None goes on from one body to the
next. -/
def stretchesOf (cs : List ClassDecl) : List Stretch :=
  cs.flatMap fun c => c.methods.flatMap fun m => stretches m.code

theorem loads_stretchesOf_sublist (cs : List ClassDecl) :
    ((stretchesOf cs).map (·.load)).Sublist (codeOf cs) := by
  unfold stretchesOf codeOf
  rw [List.map_flatMap]
  refine List.Sublist.flatMap_right cs fun c _ => ?_
  rw [List.map_flatMap]
  exact List.Sublist.flatMap_right c.methods fun m _ => loads_sublist m.code

namespace AccessProfile

variable {owners : Owners} {field : Member}

/-- A count of a profile is the number of accesses of that kind. -/
theorem counts_ofAccesses (accesses : List Access) (field : Member)
    (kind : AccessKind) :
    (ofAccesses accesses field).counts.get kind
      = accesses.countP (Access.isOf field kind) := by
  change (AccessCounts.tally _).get kind = _
  unfold AccessCounts.tally
  rw [AccessCounts.get_ofFn, List.count, List.countP_map, List.countP_filter]
  exact List.countP_congr fun a _ => by
    simp [Access.isOf, and_comm]

theorem count_step (owners : Owners) (cs : List ClassDecl) (field : Member)
    (d : Direction) :
    (ofAccesses (cs.flatMap (Access.ofClass owners)) field).counts.get d.kind
      = (stretchesOf cs).countP (Stretch.passes owners field d) := by
  rw [counts_ofAccesses]
  exact countP_flatMap_congr fun c _ => countP_flatMap_congr fun m _ =>
    Access.count_step_ofCode [] m.code

theorem count_read (owners : Owners) (cs : List ClassDecl) (field : Member) :
    (ofAccesses (cs.flatMap (Access.ofClass owners)) field).counts.get .read
      = (codeOf cs).countP (Instruction.reads owners field) := by
  rw [counts_ofAccesses]
  exact countP_flatMap_congr fun c _ => countP_flatMap_congr fun m _ =>
    Access.count_read_ofCode [] m.code

/-- The declared fields have profiles and no others, and each is drawn
from the accesses of all classes. -/
theorem get?_ofClasses_eq_some_iff {cs : List ClassDecl} {p : AccessProfile} :
    (ofClasses owners cs).get? field = some p
      ↔ field ∈ owners.declared
        ∧ ofAccesses (cs.flatMap (Access.ofClass owners)) field = p := by
  have hkeys : ((owners.declared.elements.map fun f =>
      (f, ofAccesses (cs.flatMap (Access.ofClass owners)) f)).map
        (·.1)).Nodup := by
    rw [List.map_map]
    exact (List.map_id _).symm ▸ owners.declared.nodup_elements
  refine (OrdMap.get?_ofList hkeys).trans ?_
  rw [List.mem_map]
  constructor
  · rintro ⟨_, hmem, heq⟩
    cases heq
    exact ⟨hmem, rfl⟩
  · rintro ⟨hmem, rfl⟩
    exact ⟨field, hmem, rfl⟩

theorem get?_ofClasses {cs : List ClassDecl} (h : field ∈ owners.declared) :
    (ofClasses owners cs).get? field
      = some (ofAccesses (cs.flatMap (Access.ofClass owners)) field) :=
  get?_ofClasses_eq_some_iff.2 ⟨h, rfl⟩

end AccessProfile

-- ============================================================ the theorem

/-- How often the code of some classes steps a field. -/
def stepCount (cs : List ClassDecl) (field : Member) (d : Direction) : Nat :=
  (stretchesOf cs).countP (Stretch.isStep (Owners.ofClasses cs) field d)

/-- How often it only seems to. -/
def strayCount (cs : List ClassDecl) (field : Member) (d : Direction) : Nat :=
  (stretchesOf cs).countP (Stretch.isStray (Owners.ofClasses cs) field d)

namespace AccessProfile

/-- A count of steps is exact up to strays. -/
theorem count_step_eq (cs : List ClassDecl) (field : Member) (d : Direction) :
    (ofAccesses (cs.flatMap (Access.ofClass (Owners.ofClasses cs)))
        field).counts.get d.kind
      = stepCount cs field d + strayCount cs field d := by
  rw [count_step]
  exact Stretch.count_passes _

/-- Each step has a read of its own, the one it begins with. -/
theorem stepCount_le_read (cs : List ClassDecl) (field : Member) :
    stepCount cs field .up + stepCount cs field .down
      ≤ (ofAccesses (cs.flatMap (Access.ofClass (Owners.ofClasses cs)))
        field).counts.get .read := by
  rw [count_read]
  calc stepCount cs field .up + stepCount cs field .down
      ≤ (stretchesOf cs).countP fun w =>
          w.load.reads (Owners.ofClasses cs) field := Stretch.count_isStep_le _
    _ = ((stretchesOf cs).map (·.load)).countP
          (Instruction.reads (Owners.ofClasses cs) field) := by
        rw [List.countP_map]
        rfl
    _ ≤ (codeOf cs).countP (Instruction.reads (Owners.ofClasses cs) field) :=
        (loads_stretchesOf_sublist cs).countP_le

end AccessProfile

namespace Index

/-- For every accepted snapshot and every field that it declares, the
profile's increments are the increments of the code and the strays that
pass for one, and so are its decrements. The real steps are no more than
the reads; the counts may be, by the strays. -/
theorem steps_counted (settings : Settings) (cs : List ClassDecl)
    (s : Snapshot) (field : Member) (hs : Snapshot.ofClasses cs = .ok s)
    (hfield : Owners.Declares cs field) :
    ∃ x p, build settings s = .ok x ∧ x.profiles.get? field = some p
      ∧ p.counts.increment = stepCount cs field .up + strayCount cs field .up
      ∧ p.counts.decrement
        = stepCount cs field .down + strayCount cs field .down
      ∧ stepCount cs field .up + stepCount cs field .down
        ≤ p.counts.read := by
  obtain ⟨rfl, hvalid⟩ := Snapshot.ofClasses_eq_ok_iff.1 hs
  refine ⟨_, _, build_eq_ok settings hvalid,
    AccessProfile.get?_ofClasses (Owners.mem_declared_iff.2 hfield), ?_, ?_, ?_⟩
  · exact AccessProfile.count_step_eq s.classes field .up
  · exact AccessProfile.count_step_eq s.classes field .down
  · exact AccessProfile.stepCount_le_read s.classes field

/-- The increment is one of the field's although neither end of it names
the class that declares it. -/
theorem steps_counted_counting :
    Snapshot.ofClasses Sample.counting = .ok ⟨Sample.counting⟩
      ∧ Owners.Declares Sample.counting ⟨"ab", "a", "I"⟩
      ∧ ∃ x p, build .default ⟨Sample.counting⟩ = .ok x
        ∧ x.profiles.get? ⟨"ab", "a", "I"⟩ = some p
        ∧ p.counts.increment = 1 ∧ p.counts.decrement = 0
        ∧ 1 ≤ p.counts.read := by
  have haccepted : Snapshot.ofClasses Sample.counting
      = .ok ⟨Sample.counting⟩ := rfl
  have hdeclared : Owners.Declares Sample.counting ⟨"ab", "a", "I"⟩ := by
    decide
  obtain ⟨x, p, hx, hp, hup, hdown, hread⟩ :=
    steps_counted .default Sample.counting _ _ haccepted hdeclared
  exact ⟨haccepted, hdeclared, x, p, hx, hp, hup, hdown, hread⟩

end Index

namespace Sample

/-- A field that is written twice. Between the writes stands the constant
one and an addition, to a value that was on the stack before both. -/
def overwriting : List ClassDecl :=
  [{ heir "ab" (some "java/lang/Object") ["a"] with
      methods := [⟨"t", "(II)V", false, false,
        [⟨42, .empty⟩, ⟨27, .empty⟩, ⟨42, .empty⟩, ⟨28, .empty⟩,
         ⟨181, .field ⟨"ab", "a", "I"⟩⟩, ⟨4, .empty⟩, ⟨96, .empty⟩,
         ⟨181, .field ⟨"ab", "a", "I"⟩⟩, ⟨177, .empty⟩]⟩] }]

end Sample

namespace Index

/-- A field may have an increment in its profile that no code makes, and
be read by none. -/
theorem increments_may_be_strays :
    Snapshot.ofClasses Sample.overwriting = .ok ⟨Sample.overwriting⟩
      ∧ stepCount Sample.overwriting ⟨"ab", "a", "I"⟩ .up = 0
      ∧ ∃ x p, build .default ⟨Sample.overwriting⟩ = .ok x
        ∧ x.profiles.get? ⟨"ab", "a", "I"⟩ = some p
        ∧ p.counts.increment = 1 ∧ p.counts.read = 0 := by
  have haccepted : Snapshot.ofClasses Sample.overwriting
      = .ok ⟨Sample.overwriting⟩ := rfl
  obtain ⟨-, hvalid⟩ := Snapshot.ofClasses_eq_ok_iff.1 haccepted
  have hdeclared : Owners.Declares Sample.overwriting ⟨"ab", "a", "I"⟩ := by
    decide
  exact ⟨haccepted, by decide, _, _, build_eq_ok .default hvalid,
    AccessProfile.get?_ofClasses (Owners.mem_declared_iff.2 hdeclared),
    by decide, by decide⟩

end Index

end SymbolMatch
