/-
What the check of a snapshot amounts to. The check walks through classes,
fields, methods and instructions and stops at the first fault; what it
accepts is described by `Snapshot.Valid`, where no order is left.
-/
import SymbolMatch.Program.Snapshot
import SymbolMatch.Proofs.Descriptor.Reading

namespace SymbolMatch

open Descriptor (IsField IsMethod)
open Outcome

/-- An instruction whose operand has a descriptor that can be read. -/
structure Instruction.Valid (i : Instruction) : Prop where
  field : ∀ key, i.operand = .field key → IsField key.descriptor
  method : ∀ key, i.operand = .method key → IsMethod key.descriptor

/-- A class whose names and descriptors are in order. -/
structure ClassDecl.Valid (c : ClassDecl) : Prop where
  name : c.name ≠ ""
  fields : ∀ f ∈ c.fields, IsField f.descriptor
  /-- No field is declared twice. -/
  distinct : (c.fields.map c.fieldKey).Nodup
  methods : ∀ m ∈ c.methods, IsMethod m.descriptor
  code : ∀ m ∈ c.methods, ∀ i ∈ m.code, i.Valid

/-- A class whose descriptors can all be read. Nothing is said of its
names: this is what an analysis of one class by itself relies on. -/
structure ClassDecl.Readable (c : ClassDecl) : Prop where
  fields : ∀ f ∈ c.fields, IsField f.descriptor
  methods : ∀ m ∈ c.methods, IsMethod m.descriptor
  code : ∀ m ∈ c.methods, ∀ i ∈ m.code, i.Valid

theorem ClassDecl.Valid.readable {c : ClassDecl} (h : c.Valid) : c.Readable :=
  ⟨h.fields, h.methods, h.code⟩

/-- A snapshot of classes that are in order and have different names. -/
structure Snapshot.Valid (s : Snapshot) : Prop where
  classes : ∀ c ∈ s.classes, c.Valid
  distinct : s.names.Nodup

namespace Snapshot

variable {c : ClassDecl} {m : MethodDecl} {i : Instruction}

private theorem checkFields_eq_ok_iff {seen : List Member}
    {fs : List FieldDecl} :
    checkFields c seen fs = .ok ()
      ↔ (∀ f ∈ fs, IsField f.descriptor) ∧ (fs.map c.fieldKey).Nodup
        ∧ ∀ f ∈ fs, c.fieldKey f ∉ seen := by
  induction fs generalizing seen with
  | nil => simp [checkFields]
  | cons f rest ih =>
    have hread : (∃ t, (Descriptor.field f.descriptor).mapError
          (Fault.badDescriptor c.name f.name) = .ok t)
        ↔ IsField f.descriptor :=
      exists_congr fun t => mapError_eq_ok_iff
    unfold checkFields
    rw [bind_eq_ok_iff]
    by_cases hseen : c.fieldKey f ∈ seen
    · constructor
      · rintro ⟨t, -, h⟩
        rw [if_pos hseen] at h
        cases h
      · rintro ⟨-, -, h⟩
        exact absurd hseen (h f List.mem_cons_self)
    · rw [if_neg hseen]
      change (∃ t, _ ∧ checkFields c (c.fieldKey f :: seen) rest = .ok ()) ↔ _
      rw [exists_and_right, hread, ih]
      simp only [List.mem_cons, forall_eq_or_imp, List.map_cons,
        List.nodup_cons, List.mem_map, not_exists, not_and, not_or, hseen,
        not_false_eq_true, true_and]
      grind

private theorem checkOperand_eq_ok_iff :
    checkOperand c m i = .ok () ↔ i.Valid := by
  obtain ⟨opcode, operand⟩ := i
  unfold checkOperand
  cases operand with
  | field key =>
    dsimp only
    rw [bind_eq_ok_iff]
    constructor
    · rintro ⟨t, ht, -⟩
      refine ⟨fun key' h => ?_, fun key' h => (nomatch h)⟩
      cases h
      exact ⟨t, mapError_eq_ok_iff.1 ht⟩
    · intro h
      obtain ⟨t, ht⟩ := h.field key rfl
      exact ⟨t, mapError_eq_ok_iff.2 ht, rfl⟩
  | method key =>
    dsimp only
    rw [bind_eq_ok_iff]
    constructor
    · rintro ⟨d, hd, -⟩
      refine ⟨fun key' h => (nomatch h), fun key' h => ?_⟩
      cases h
      exact ⟨d, mapError_eq_ok_iff.1 hd⟩
    · intro h
      obtain ⟨d, hd⟩ := h.method key rfl
      exact ⟨d, mapError_eq_ok_iff.2 hd, rfl⟩
  | empty | int | type | constant =>
    refine ⟨fun _ => ⟨fun key h => (nomatch h), fun key h => (nomatch h)⟩,
      fun _ => rfl⟩

private theorem checkMethod_eq_ok_iff :
    checkMethod c m = .ok ()
      ↔ IsMethod m.descriptor ∧ ∀ i ∈ m.code, i.Valid := by
  unfold checkMethod
  rw [bind_eq_ok_iff]
  simp only [forM_eq_ok_iff, checkOperand_eq_ok_iff, mapError_eq_ok_iff,
    exists_and_right]
  rfl

theorem checkClass_eq_ok_iff : checkClass c = .ok () ↔ c.Valid := by
  unfold checkClass
  by_cases hname : c.name = ""
  · rw [if_pos hname]
    constructor
    · intro h
      cases h
    · intro h
      exact absurd hname h.name
  · rw [if_neg hname]
    change (checkFields c [] c.fields >>= fun _ =>
      c.methods.forM (checkMethod c)) = .ok () ↔ _
    rw [check_bind_eq_ok_iff]
    simp only [checkFields_eq_ok_iff, forM_eq_ok_iff, checkMethod_eq_ok_iff]
    constructor
    · rintro ⟨⟨hfields, hdistinct, -⟩, hmethods⟩
      exact ⟨hname, hfields, hdistinct, fun m hm => (hmethods m hm).1,
        fun m hm => (hmethods m hm).2⟩
    · intro h
      exact ⟨⟨h.fields, h.distinct, by simp⟩,
        fun m hm => ⟨h.methods m hm, h.code m hm⟩⟩

private theorem checkClasses_eq_ok_iff {seen : List String}
    {cs : List ClassDecl} :
    checkClasses seen cs = .ok ()
      ↔ (∀ c ∈ cs, c.Valid) ∧ (cs.map (·.name)).Nodup
        ∧ ∀ c ∈ cs, c.name ∉ seen := by
  induction cs generalizing seen with
  | nil => simp [checkClasses]
  | cons c rest ih =>
    unfold checkClasses
    rw [check_bind_eq_ok_iff, checkClass_eq_ok_iff]
    by_cases hseen : c.name ∈ seen
    · constructor
      · rintro ⟨-, h⟩
        rw [if_pos hseen] at h
        cases h
      · rintro ⟨-, -, h⟩
        exact absurd hseen (h c List.mem_cons_self)
    · rw [if_neg hseen]
      change c.Valid ∧ checkClasses (c.name :: seen) rest = .ok () ↔ _
      rw [ih]
      simp only [List.mem_cons, forall_eq_or_imp, List.map_cons,
        List.nodup_cons, List.mem_map, not_exists, not_and, not_or, hseen,
        not_false_eq_true, true_and]
      grind

/-- The check accepts a list of classes as it stands if and only if it is
valid. -/
theorem ofClasses_eq_ok_iff {cs : List ClassDecl} {s : Snapshot} :
    ofClasses cs = .ok s ↔ s.classes = cs ∧ s.Valid := by
  unfold ofClasses
  rw [check_bind_eq_ok_iff]
  constructor
  · rintro ⟨hcheck, h⟩
    cases h
    obtain ⟨hvalid, hdistinct, -⟩ := checkClasses_eq_ok_iff.1 hcheck
    exact ⟨rfl, hvalid, hdistinct⟩
  · rintro ⟨rfl, hvalid, hdistinct⟩
    exact ⟨checkClasses_eq_ok_iff.2 ⟨hvalid, hdistinct, by simp⟩, rfl⟩

end Snapshot

end SymbolMatch
