/-
Two scans go over the references to fields, and they agree.

One files each reference under the field that it means, with the method
that makes it, and does not look at the instruction. The other looks at
instructions that read or write and leaves the rest alone. Both find the
field in the same way, so for a declared field they differ in one thing
only: a method may refer to the field without reading or writing it.

# References that mean nothing

The first scan files a reference that means no declared field under its
own key. That never is the key of a declared field, since such a key
means itself (`declaration_eq_iff`).
-/
import SymbolMatch.Proofs.Access.Scan

namespace SymbolMatch

-- ================================================================ bodies

/-- The instructions of the bodies that some classes declare under one
key. A class may declare several. -/
def codeUnder (cs : List ClassDecl) (key : Member) : List Instruction :=
  cs.flatMap fun c =>
    (c.methods.filter fun m => c.methodKey m = key).flatMap (·.code)

theorem mem_codeUnder {cs : List ClassDecl} {key : Member} {i : Instruction} :
    i ∈ codeUnder cs key
      ↔ ∃ c ∈ cs, ∃ m ∈ c.methods, c.methodKey m = key ∧ i ∈ m.code := by
  unfold codeUnder
  simp only [List.mem_flatMap, List.mem_filter, decide_eq_true_eq, and_assoc]

/-- Every body is declared under its key. -/
theorem mem_codeOf_of_mem_codeUnder {cs : List ClassDecl} {key : Member}
    {i : Instruction} (h : i ∈ codeUnder cs key) : i ∈ codeOf cs := by
  obtain ⟨c, hc, m, hm, -, hi⟩ := mem_codeUnder.1 h
  exact List.mem_flatMap.2 ⟨c, hc, List.mem_flatMap.2 ⟨m, hm, hi⟩⟩

-- ============================================================ references

/-- What a reference is filed under is a declared field just if it means
that field. -/
theorem Owners.declaration_eq_iff {o : Owners} {key field : Member}
    (h : field ∈ o.declared) :
    o.declaration key = field ↔ o.resolve key = some field := by
  unfold declaration
  cases hkey : o.resolve key with
  | none =>
    constructor
    · intro heq
      -- a declared field means itself and this key means nothing
      rw [show key = field from heq, resolve_of_mem_declared h] at hkey
      cases hkey
    · intro heq
      cases heq
  | some found => exact Option.some_inj.symm

namespace FieldUsage

/-- Adding references to what is there. -/
theorem mem_getD_foldl_absorb {refs : List (Member × Member)}
    {u : OrdMap Member (OrdSet Member)} {field m : Member} :
    m ∈ (refs.foldl absorb u).getD field {}
      ↔ (field, m) ∈ refs ∨ m ∈ u.getD field {} := by
  induction refs generalizing u with
  | nil => simp
  | cons ref rest ih =>
    rw [List.foldl_cons, ih, List.mem_cons, Prod.ext_iff]
    unfold absorb
    rw [OrdMap.mem_getD_alter_insert]
    grind

theorem mem_methodsUsing_ofRefs {refs : List (Member × Member)}
    {field m : Member} :
    m ∈ (ofRefs refs).methodsUsing field ↔ (field, m) ∈ refs :=
  mem_getD_foldl_absorb.trans (or_iff_left (OrdSet.not_mem_empty m))

/-- A method uses a declared field if an instruction of its bodies means
it, whatever the instruction is. -/
theorem mem_methodsUsing {owners : Owners} {cs : List ClassDecl}
    {field m : Member} (h : field ∈ owners.declared) :
    m ∈ (ofRefs (cs.flatMap (scanClass owners))).methodsUsing field
      ↔ ∃ i ∈ codeUnder cs m, Access.target? owners i = some field := by
  rw [mem_methodsUsing_ofRefs]
  unfold scanClass
  simp only [List.mem_flatMap, List.mem_map, List.mem_filterMap, Prod.mk.injEq]
  constructor
  · rintro ⟨c, hc, body, hbody, key, ⟨i, hi, hkey⟩, heq, hm⟩
    refine ⟨i, mem_codeUnder.2 ⟨c, hc, body, hbody, hm, hi⟩, ?_⟩
    unfold Access.target?
    rw [hkey]
    exact (Owners.declaration_eq_iff h).1 heq
  · rintro ⟨i, hi, htarget⟩
    obtain ⟨c, hc, body, hbody, hm, hcode⟩ := mem_codeUnder.1 hi
    obtain ⟨key, hkey, hresolve⟩ := Option.bind_eq_some_iff.1 htarget
    exact ⟨c, hc, body, hbody, key, ⟨i, hcode, hkey⟩,
      (Owners.declaration_eq_iff h).2 hresolve, hm⟩

end FieldUsage

-- ============================================================== accesses

namespace Access

variable {owners : Owners} {method field m : Member} {kind : AccessKind}
  {before after : List Instruction} {i : Instruction}

theorem mem_atPlace :
    ⟨field, m, kind⟩ ∈ atPlace owners method before i after
      ↔ m = method ∧ target? owners i = some field
        ∧ kind ∈ kindsAt owners field before i after := by
  unfold atPlace
  cases target? owners i with
  | none => simp
  | some found =>
    simp only [List.mem_map, Access.mk.injEq, Option.some.injEq]
    constructor
    · rintro ⟨k, hk, rfl, rfl, rfl⟩
      exact ⟨rfl, rfl, hk⟩
    · rintro ⟨rfl, rfl, hk⟩
      exact ⟨kind, hk, rfl, rfl, rfl⟩

theorem read_mem_kindsAt :
    .read ∈ kindsAt owners field before i after
      ↔ Opcode.isFieldRead i.opcode = true := by
  rw [← List.count_pos_iff, count_read_kindsAt]
  split
  · next h => exact iff_of_true Nat.one_pos h
  · next h => exact iff_of_false (Nat.lt_irrefl 0) h

theorem write_mem_kindsAt :
    .write ∈ kindsAt owners field before i after
      ↔ Opcode.isFieldWrite i.opcode = true := by
  unfold kindsAt
  split
  · next hread =>
    rw [Opcode.isFieldWrite_eq_false hread]
    refine iff_of_false (fun hmem => ?_) Bool.false_ne_true
    unfold readKinds at hmem
    cases after with
    | nil => simp at hmem
    | cons next rest =>
      dsimp only at hmem
      split_ifs at hmem <;> simp at hmem
  · split
    · next hwrite => exact iff_of_true List.mem_cons_self hwrite
    · next hwrite => exact iff_of_false List.not_mem_nil hwrite

section Kind

variable {test : Nat → Bool}
  (hkind : ∀ field before i after, kind ∈ kindsAt owners field before i after
    ↔ test i.opcode = true)
include hkind

/-- Accesses of a kind that the instruction alone decides, in one
body. -/
theorem mem_ofCode_iff {code : List Instruction} :
    ⟨field, m, kind⟩ ∈ ofCode owners method before code
      ↔ m = method ∧ ∃ i ∈ code,
        test i.opcode = true ∧ target? owners i = some field := by
  induction code generalizing before with
  | nil =>
    unfold ofCode
    simp
  | cons i after ih =>
    rw [ofCode_cons, List.mem_append, mem_atPlace, ih, hkind]
    simp only [List.mem_cons, exists_eq_or_imp]
    grind

/-- The same, in the bodies of some classes. -/
theorem mem_flatMap_ofClass_iff {cs : List ClassDecl} :
    ⟨field, m, kind⟩ ∈ cs.flatMap (ofClass owners)
      ↔ ∃ i ∈ codeUnder cs m,
        test i.opcode = true ∧ target? owners i = some field := by
  unfold ofClass
  simp only [List.mem_flatMap, mem_ofCode_iff hkind]
  constructor
  · rintro ⟨c, hc, body, hbody, rfl, i, hi, hmeant⟩
    exact ⟨i, mem_codeUnder.2 ⟨c, hc, body, hbody, rfl, hi⟩, hmeant⟩
  · rintro ⟨i, hi, hmeant⟩
    obtain ⟨c, hc, body, hbody, rfl, hcode⟩ := mem_codeUnder.1 hi
    exact ⟨c, hc, body, hbody, rfl, i, hcode, hmeant⟩

end Kind

end Access

namespace AccessProfile

variable {accesses : List Access} {field m : Member}

private theorem mem_methodsOf {kind : AccessKind} :
    m ∈ OrdSet.ofList (((accesses.filter (·.field = field)).filter
        (·.kind = kind)).map (·.method))
      ↔ ⟨field, m, kind⟩ ∈ accesses := by
  simp only [OrdSet.mem_ofList, List.mem_map, List.mem_filter,
    decide_eq_true_eq]
  constructor
  · rintro ⟨⟨_, _, _⟩, ⟨⟨hmem, rfl⟩, rfl⟩, rfl⟩
    exact hmem
  · intro hmem
    exact ⟨_, ⟨⟨hmem, rfl⟩, rfl⟩, rfl⟩

theorem mem_readMethods :
    m ∈ (ofAccesses accesses field).readMethods
      ↔ ⟨field, m, .read⟩ ∈ accesses :=
  mem_methodsOf

theorem mem_writeMethods :
    m ∈ (ofAccesses accesses field).writeMethods
      ↔ ⟨field, m, .write⟩ ∈ accesses :=
  mem_methodsOf

end AccessProfile

-- ============================================================= agreement

/-- The codes that read or write a field. -/
def Opcode.fieldCodes : List Nat := [getfield, getstatic, putfield, putstatic]

theorem Opcode.mem_fieldCodes {op : Nat} :
    op ∈ fieldCodes ↔ isFieldRead op = true ∨ isFieldWrite op = true := by
  unfold fieldCodes isFieldRead isFieldWrite
  simp only [List.mem_cons, List.not_mem_nil, or_false, Bool.or_eq_true,
    beq_iff_eq, or_assoc]

/-- What the two scans find of a field: the methods that use it, those
that read it and those that write it. -/
structure ScansAgree (cs : List ClassDecl) (field : Member)
    (users readers writers : OrdSet Member) : Prop where
  users_iff : ∀ m, m ∈ users ↔ ∃ i ∈ codeUnder cs m,
    Access.target? (Owners.ofClasses cs) i = some field
  readers_iff : ∀ m, m ∈ readers ↔ ∃ i ∈ codeUnder cs m,
    i.reads (Owners.ofClasses cs) field = true
  writers_iff : ∀ m, m ∈ writers ↔ ∃ i ∈ codeUnder cs m,
    i.writes (Owners.ofClasses cs) field = true
  readers_use : ∀ m ∈ readers, m ∈ users
  writers_use : ∀ m ∈ writers, m ∈ users
  /-- The others refer to the field by instructions of other kinds
  only. -/
  others_iff : ∀ m, m ∈ users ∧ m ∉ readers ∧ m ∉ writers
    ↔ (∃ i ∈ codeUnder cs m,
        Access.target? (Owners.ofClasses cs) i = some field)
      ∧ ∀ i ∈ codeUnder cs m,
        Access.target? (Owners.ofClasses cs) i = some field →
          i.opcode ∉ Opcode.fieldCodes
  /-- There are no others where only instructions that read or write refer
  to fields. -/
  users_eq : (∀ i ∈ codeOf cs, i.field?.isSome → i.opcode ∈ Opcode.fieldCodes) →
    users = readers.union writers

/-- Three sets that are what the instructions say agree. -/
theorem ScansAgree.of_iff {cs : List ClassDecl} {field : Member}
    {users readers writers : OrdSet Member}
    (husers : ∀ m, m ∈ users ↔ ∃ i ∈ codeUnder cs m,
      Access.target? (Owners.ofClasses cs) i = some field)
    (hreaders : ∀ m, m ∈ readers ↔ ∃ i ∈ codeUnder cs m,
      i.reads (Owners.ofClasses cs) field = true)
    (hwriters : ∀ m, m ∈ writers ↔ ∃ i ∈ codeUnder cs m,
      i.writes (Owners.ofClasses cs) field = true) :
    ScansAgree cs field users readers writers := by
  -- an instruction reads or writes the field if it means it and has a code
  -- for that
  have haccess (i : Instruction) : (i.reads (Owners.ofClasses cs) field = true
        ∨ i.writes (Owners.ofClasses cs) field = true)
      ↔ i.opcode ∈ Opcode.fieldCodes
        ∧ Access.target? (Owners.ofClasses cs) i = some field := by
    unfold Instruction.reads Instruction.writes
    rw [Opcode.mem_fieldCodes]
    simp only [Bool.and_eq_true, beq_iff_eq, or_and_right]
  have haccessors (m : Member) : m ∈ readers ∨ m ∈ writers
      ↔ ∃ i ∈ codeUnder cs m, i.opcode ∈ Opcode.fieldCodes
        ∧ Access.target? (Owners.ofClasses cs) i = some field := by
    rw [hreaders, hwriters]
    simp only [← haccess, and_or_left, exists_or]
  have hsub (m : Member) (h : m ∈ readers ∨ m ∈ writers) : m ∈ users := by
    obtain ⟨i, hi, -, htarget⟩ := (haccessors m).1 h
    exact (husers m).2 ⟨i, hi, htarget⟩
  refine
    { users_iff := husers
      readers_iff := hreaders
      writers_iff := hwriters
      readers_use := fun m hm => hsub m (.inl hm)
      writers_use := fun m hm => hsub m (.inr hm)
      others_iff := fun m => ?_
      users_eq := fun honly => ?_ }
  · rw [husers, ← not_or, haccessors]
    refine and_congr_right fun _ => ⟨?_, ?_⟩
    · intro hnone i hi htarget hcode
      exact hnone ⟨i, hi, hcode, htarget⟩
    · rintro hnone ⟨i, hi, hcode, htarget⟩
      exact hnone i hi htarget hcode
  · refine OrdSet.ext fun m => ?_
    rw [OrdSet.mem_union, haccessors, husers]
    constructor
    · rintro ⟨i, hi, htarget⟩
      obtain ⟨key, hkey, -⟩ := Option.bind_eq_some_iff.1 htarget
      have hcode := honly i (mem_codeOf_of_mem_codeUnder hi)
        (Option.isSome_of_eq_some hkey)
      exact ⟨i, hi, hcode, htarget⟩
    · rintro ⟨i, hi, -, htarget⟩
      exact ⟨i, hi, htarget⟩

namespace Index

/-- For every field that an accepted snapshot declares, the scan of
references and the scan of accesses agree on the methods. -/
theorem usage_agrees_with_profiles (settings : Settings) (cs : List ClassDecl)
    (s : Snapshot) (field : Member) (hs : Snapshot.ofClasses cs = .ok s)
    (hfield : Owners.Declares cs field) :
    ∃ x p, build settings s = .ok x ∧ x.profiles.get? field = some p
      ∧ ScansAgree cs field (x.usage.methodsUsing field) p.readMethods
        p.writeMethods := by
  obtain ⟨rfl, hvalid⟩ := Snapshot.ofClasses_eq_ok_iff.1 hs
  have hdeclared := Owners.mem_declared_iff.2 hfield
  refine ⟨_, _, build_eq_ok settings hvalid,
    AccessProfile.get?_ofClasses hdeclared, ScansAgree.of_iff ?_ ?_ ?_⟩
  · intro m
    exact FieldUsage.mem_methodsUsing hdeclared
  · intro m
    rw [AccessProfile.mem_readMethods, Access.mem_flatMap_ofClass_iff
      fun _ _ _ _ => Access.read_mem_kindsAt]
    unfold Instruction.reads
    simp only [Bool.and_eq_true, beq_iff_eq]
  · intro m
    rw [AccessProfile.mem_writeMethods, Access.mem_flatMap_ofClass_iff
      fun _ _ _ _ => Access.write_mem_kindsAt]
    unfold Instruction.writes
    simp only [Bool.and_eq_true, beq_iff_eq]

end Index

namespace Sample

/-- A field that is mentioned by instructions that do not access it: by
`t` in this way only, by the first of the two bodies of `r`, and by a
class below under its own name. -/
def mentions : List ClassDecl :=
  [{ heir "ab" none ["a"] with
      methods := [
        ⟨"t", "()V", false, false, [⟨18, .field ⟨"ab", "a", "I"⟩⟩]⟩,
        ⟨"r", "()V", false, false, [⟨0, .field ⟨"ab", "a", "I"⟩⟩]⟩,
        ⟨"r", "()V", false, false, [⟨178, .field ⟨"ab", "a", "I"⟩⟩]⟩] },
   { heir "cd" (some "ab") [] with
      methods := [⟨"t", "()V", false, false,
        [⟨0, .field ⟨"cd", "a", "I"⟩⟩, ⟨181, .field ⟨"cd", "b", "I"⟩⟩]⟩] }]

end Sample

namespace Index

/-- The method `t` of either class is among the users and no more, `r` is
among the readers. -/
theorem usage_agrees_with_profiles_mentions :
    Snapshot.ofClasses Sample.mentions = .ok ⟨Sample.mentions⟩
      ∧ Owners.Declares Sample.mentions ⟨"ab", "a", "I"⟩
      ∧ ∃ x p, build .default ⟨Sample.mentions⟩ = .ok x
        ∧ x.profiles.get? ⟨"ab", "a", "I"⟩ = some p
        ∧ (∀ owner ∈ ["ab", "cd"],
          ⟨owner, "t", "()V"⟩ ∈ x.usage.methodsUsing ⟨"ab", "a", "I"⟩
            ∧ ⟨owner, "t", "()V"⟩ ∉ p.readMethods
            ∧ ⟨owner, "t", "()V"⟩ ∉ p.writeMethods)
        ∧ ⟨"ab", "r", "()V"⟩ ∈ p.readMethods := by
  have haccepted : Snapshot.ofClasses Sample.mentions
      = .ok ⟨Sample.mentions⟩ := rfl
  have hdeclared : Owners.Declares Sample.mentions ⟨"ab", "a", "I"⟩ := by
    decide
  obtain ⟨x, p, hx, hp, hagree⟩ :=
    usage_agrees_with_profiles .default Sample.mentions _ _ haccepted hdeclared
  refine ⟨haccepted, hdeclared, x, p, hx, hp, fun owner howner => ?_, ?_⟩
  · rw [hagree.others_iff]
    revert owner
    decide
  · rw [hagree.readers_iff]
    decide

end Index

end SymbolMatch
