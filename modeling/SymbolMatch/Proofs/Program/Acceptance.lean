/-
The check of a snapshot is exact. It accepts a list of classes if and only
if their names and descriptors are in order, keeps the classes as they are,
and names a fault that is there when it refuses.

What it accepts is enough for everything that comes after. Whatever the
settings, the analysis of an accepted snapshot reads every descriptor it
comes across, and so does the matching of the fields of two such snapshots,
under any mapping of classes and any mapping of methods. No descriptor is
read for the first time in the middle of a run.

# Which fault is reported

`ClassDecl.HasFault` lists what can be wrong with one class by itself. The
check goes through the classes in order, so the fault that is reported is
the fault of a class before which all is well (`exists_fault`): one of its
own, or that a class of this name came before.
-/
import SymbolMatch.Proofs.FieldMatch.ClassOrder

namespace SymbolMatch

open Descriptor (IsField IsMethod)
open Outcome

-- =============================================================== faults

/-- What is wrong with a class by itself, and how it is reported. -/
inductive ClassDecl.HasFault (c : ClassDecl) : Snapshot.Fault → Prop
  | name (h : c.name = "") : HasFault c .emptyName
  | twice {before after : List FieldDecl} {f : FieldDecl}
      (h : c.fields = before ++ f :: after)
      (hseen : c.fieldKey f ∈ before.map c.fieldKey) :
      HasFault c (.duplicateField (c.fieldKey f))
  | field {f : FieldDecl} {fault : Descriptor.Fault} (hf : f ∈ c.fields)
      (h : Descriptor.field f.descriptor = .error fault) :
      HasFault c (.badDescriptor c.name f.name fault)
  | method {m : MethodDecl} {fault : Descriptor.Fault} (hm : m ∈ c.methods)
      (h : Descriptor.method m.descriptor = .error fault) :
      HasFault c (.badDescriptor c.name m.name fault)
  | fieldOperand {m : MethodDecl} {i : Instruction} {key : Member}
      {fault : Descriptor.Fault} (hm : m ∈ c.methods) (hi : i ∈ m.code)
      (hkey : i.operand = .field key)
      (h : Descriptor.field key.descriptor = .error fault) :
      HasFault c (.badDescriptor c.name m.name fault)
  | methodOperand {m : MethodDecl} {i : Instruction} {key : Member}
      {fault : Descriptor.Fault} (hm : m ∈ c.methods) (hi : i ∈ m.code)
      (hkey : i.operand = .method key)
      (h : Descriptor.method key.descriptor = .error fault) :
      HasFault c (.badDescriptor c.name m.name fault)

namespace Snapshot

variable {c : ClassDecl} {m : MethodDecl} {i : Instruction} {fault : Fault}

/-- The check of fields, from the first of them that is at fault. -/
theorem hasFault_of_checkFields (before : List FieldDecl)
    {fs : List FieldDecl} (hfs : c.fields = before ++ fs) {seen : List Member}
    (hseen : ∀ key ∈ seen, key ∈ before.map c.fieldKey)
    (h : checkFields c seen fs = .error fault) : c.HasFault fault := by
  induction fs generalizing before seen with
  | nil => cases h
  | cons f rest ih =>
    have hf : f ∈ c.fields := by
      rw [hfs]
      exact List.mem_append_right _ List.mem_cons_self
    unfold checkFields at h
    rcases bind_eq_error_iff.1 h with h | ⟨t, -, h⟩
    · obtain ⟨fault', hread, rfl⟩ := mapError_eq_error_iff.1 h
      exact .field hf hread
    · by_cases hmem : c.fieldKey f ∈ seen
      · rw [if_pos hmem] at h
        cases h
        exact .twice hfs (hseen _ hmem)
      · rw [if_neg hmem] at h
        refine ih (before ++ [f]) ?_ ?_ h
        · rw [hfs, List.append_assoc]
          rfl
        · intro key hkey
          rw [List.map_append, List.mem_append]
          rcases List.mem_cons.1 hkey with rfl | hkey
          · exact .inr List.mem_cons_self
          · exact .inl (hseen key hkey)

theorem hasFault_of_checkOperand (hm : m ∈ c.methods) (hi : i ∈ m.code)
    (h : checkOperand c m i = .error fault) : c.HasFault fault := by
  unfold checkOperand at h
  split at h
  · next key hkey =>
    rcases bind_eq_error_iff.1 h with h | ⟨t, -, h⟩
    · obtain ⟨fault', hread, rfl⟩ := mapError_eq_error_iff.1 h
      exact .fieldOperand hm hi hkey hread
    · cases h
  · next key hkey =>
    rcases bind_eq_error_iff.1 h with h | ⟨t, -, h⟩
    · obtain ⟨fault', hread, rfl⟩ := mapError_eq_error_iff.1 h
      exact .methodOperand hm hi hkey hread
    · cases h
  · cases h

theorem hasFault_of_checkMethod (hm : m ∈ c.methods)
    (h : checkMethod c m = .error fault) : c.HasFault fault := by
  unfold checkMethod at h
  rcases bind_eq_error_iff.1 h with h | ⟨t, -, h⟩
  · obtain ⟨fault', hread, rfl⟩ := mapError_eq_error_iff.1 h
    exact .method hm hread
  · obtain ⟨i, hi, h⟩ := exists_of_forM_eq_error h
    exact hasFault_of_checkOperand hm hi h

/-- What the check of a class reports is wrong with it. -/
theorem hasFault_of_checkClass (h : checkClass c = .error fault) :
    c.HasFault fault := by
  unfold checkClass at h
  by_cases hname : c.name = ""
  · rw [if_pos hname] at h
    cases h
    exact .name hname
  · rw [if_neg hname] at h
    rcases bind_eq_error_iff.1 h with h | ⟨-, -, h⟩
    · exact hasFault_of_checkFields [] rfl (by simp) h
    · obtain ⟨m, hm, h⟩ := exists_of_forM_eq_error h
      exact hasFault_of_checkMethod hm h

/-- The check stops at a class before which all is well. -/
theorem exists_fault {seen : List String} {cs : List ClassDecl}
    (h : checkClasses seen cs = .error fault) :
    ∃ before c after, cs = before ++ c :: after
      ∧ checkClasses seen before = .ok ()
      ∧ (c.HasFault fault
        ∨ c.Valid ∧ fault = .duplicateClass c.name
          ∧ (c.name ∈ seen ∨ c.name ∈ before.map (·.name))) := by
  induction cs generalizing seen with
  | nil => cases h
  | cons c rest ih =>
    unfold checkClasses at h
    rcases bind_eq_error_iff.1 h with h | ⟨⟨⟩, hclass, h⟩
    · exact ⟨[], c, rest, rfl, rfl, .inl (hasFault_of_checkClass h)⟩
    · by_cases hseen : c.name ∈ seen
      · rw [if_pos hseen] at h
        cases h
        exact ⟨[], c, rest, rfl, rfl,
          .inr ⟨checkClass_eq_ok_iff.1 hclass, rfl, .inl hseen⟩⟩
      · rw [if_neg hseen] at h
        obtain ⟨before, d, after, rfl, hbefore, hfault⟩ := ih h
        refine ⟨c :: before, d, after, rfl, ?_, ?_⟩
        · unfold checkClasses
          rw [hclass, ok_bind, if_neg hseen]
          exact hbefore
        · rcases hfault with hfault | ⟨hvalid, hname, hmem⟩
          · exact .inl hfault
          · refine .inr ⟨hvalid, hname, ?_⟩
            rw [List.map_cons, List.mem_cons]
            rw [List.mem_cons] at hmem
            rcases hmem with (hmem | hmem) | hmem
            · exact .inr (.inl hmem)
            · exact .inl hmem
            · exact .inr (.inr hmem)

/-- Every fault is reported as one of a snapshot. -/
theorem Fault.message_eq (fault : Fault) :
    ∃ rest, fault.message = "Snapshot error: " ++ rest := by
  cases fault with
  | emptyName => exact ⟨"class with empty name", by decide⟩
  | duplicateClass name =>
    refine ⟨"duplicate class " ++ name, ?_⟩
    rw [← String.append_assoc]
    rfl
  | duplicateField key =>
    refine ⟨"duplicate field " ++ key.fieldText, ?_⟩
    rw [← String.append_assoc]
    rfl
  | badDescriptor c m fault =>
    refine ⟨c ++ ("." ++ (m ++ (": " ++ fault.message))), ?_⟩
    simp only [← String.append_assoc]
    rfl

-- =========================================================== acceptance

/-- Within a class, fields differ by their keys if they differ by their
names and descriptors. -/
theorem nodup_fieldKeys_iff :
    (c.fields.map c.fieldKey).Nodup
      ↔ (c.fields.map fun f => (f.name, f.descriptor)).Nodup := by
  have hkey : c.fields.map c.fieldKey
      = (c.fields.map fun f => (f.name, f.descriptor)).map
        fun p => Member.mk c.name p.1 p.2 := by
    rw [List.map_map]
    rfl
  have hinj : Function.Injective fun p : String × String =>
      Member.mk c.name p.1 p.2 := by
    rintro ⟨_, _⟩ ⟨_, _⟩ h
    cases h
    rfl
  rw [hkey, List.nodup_map_iff hinj]

/-- A valid snapshot, condition by condition. -/
theorem valid_iff {cs : List ClassDecl} :
    (Snapshot.mk cs).Valid
      ↔ (∀ c ∈ cs, c.name ≠ "") ∧ (cs.map (·.name)).Nodup
        ∧ (∀ c ∈ cs, (c.fields.map fun f => (f.name, f.descriptor)).Nodup)
        ∧ (∀ c ∈ cs, ∀ f ∈ c.fields, IsField f.descriptor)
        ∧ ∀ c ∈ cs, ∀ m ∈ c.methods, IsMethod m.descriptor
          ∧ ∀ i ∈ m.code,
            (∀ key, i.operand = .field key → IsField key.descriptor)
            ∧ ∀ key, i.operand = .method key → IsMethod key.descriptor := by
  constructor
  · intro h
    exact ⟨fun c hc => (h.classes c hc).name, h.distinct,
      fun c hc => nodup_fieldKeys_iff.1 (h.classes c hc).distinct,
      fun c hc => (h.classes c hc).fields,
      fun c hc m hm => ⟨(h.classes c hc).methods m hm, fun i hi =>
        ⟨((h.classes c hc).code m hm i hi).field,
          ((h.classes c hc).code m hm i hi).method⟩⟩⟩
  · rintro ⟨hnames, hdistinct, hpairs, hfields, hmethods⟩
    refine ⟨fun c hc => ⟨hnames c hc, hfields c hc,
      nodup_fieldKeys_iff.2 (hpairs c hc), fun m hm => (hmethods c hc m hm).1,
      fun m hm i hi => ?_⟩, hdistinct⟩
    obtain ⟨hfield, hmethod⟩ := (hmethods c hc m hm).2 i hi
    exact ⟨hfield, hmethod⟩

theorem exists_ofClasses_iff {cs : List ClassDecl} :
    (∃ s, ofClasses cs = .ok s) ↔ (Snapshot.mk cs).Valid := by
  constructor
  · rintro ⟨s, hs⟩
    obtain ⟨rfl, hvalid⟩ := ofClasses_eq_ok_iff.1 hs
    exact hvalid
  · intro h
    exact ⟨⟨cs⟩, ofClasses_eq_ok_iff.2 ⟨rfl, h⟩⟩

/-- Fields of snapshots that were accepted can be matched. -/
theorem exists_fieldContext {s s' : Snapshot} (h : s.Valid) (h' : s'.Valid)
    {settings settings' : Settings} {x x' : Index}
    (hx : Index.build settings s = .ok x)
    (hx' : Index.build settings' s' = .ok x') (chosen : Settings)
    (classes : ClassMapping) (methods : OrdMap Member Member) :
    ∃ ctx, FieldContext.build chosen x x' classes methods = .ok ctx := by
  rw [Index.build_eq_ok settings h] at hx
  rw [Index.build_eq_ok settings' h'] at hx'
  cases hx
  cases hx'
  obtain ⟨types, htypes⟩ := FieldContext.typesOf_eq_ok settings h
  obtain ⟨types', htypes'⟩ := FieldContext.typesOf_eq_ok settings' h'
  unfold FieldContext.build
  rw [htypes, ok_bind, htypes', ok_bind]
  exact ⟨_, rfl⟩

-- ========================================================== the theorem

/-- The check accepts exactly the lists of classes whose names and
descriptors are in order, as they stand. Their descriptors are then read
without fail, in the analysis and in the matching of fields. Otherwise the
check reports a fault of the first class that has one. -/
theorem ofClasses_exact (cs : List ClassDecl) :
    ((∃ s, ofClasses cs = .ok s)
      ↔ (∀ c ∈ cs, c.name ≠ "") ∧ (cs.map (·.name)).Nodup
        ∧ (∀ c ∈ cs, (c.fields.map fun f => (f.name, f.descriptor)).Nodup)
        ∧ (∀ c ∈ cs, ∀ f ∈ c.fields, IsField f.descriptor)
        ∧ ∀ c ∈ cs, ∀ m ∈ c.methods, IsMethod m.descriptor
          ∧ ∀ i ∈ m.code,
            (∀ key, i.operand = .field key → IsField key.descriptor)
            ∧ ∀ key, i.operand = .method key → IsMethod key.descriptor)
      ∧ (∀ s, ofClasses cs = .ok s →
        s.classes = cs
        ∧ (∀ settings, ∃ x, Index.build settings s = .ok x)
        ∧ ∀ cs' s', ofClasses cs' = .ok s' →
          ∀ settings settings' x x', Index.build settings s = .ok x →
            Index.build settings' s' = .ok x' →
            ∀ chosen classes methods, ∃ ctx,
              FieldContext.build chosen x x' classes methods = .ok ctx)
      ∧ ∀ fault, ofClasses cs = .error fault →
        (∃ rest, fault.message = "Snapshot error: " ++ rest)
        ∧ ∃ before c after, cs = before ++ c :: after
          ∧ ofClasses before = .ok ⟨before⟩
          ∧ (c.HasFault fault
            ∨ c.Valid ∧ fault = .duplicateClass c.name
              ∧ c.name ∈ before.map (·.name)) := by
  refine ⟨exists_ofClasses_iff.trans valid_iff, ?_, ?_⟩
  · intro s hs
    obtain ⟨hclasses, hvalid⟩ := ofClasses_eq_ok_iff.1 hs
    refine ⟨hclasses, fun settings => ⟨_, Index.build_eq_ok settings hvalid⟩, ?_⟩
    intro cs' s' hs' settings settings' x x' hx hx'
    exact exists_fieldContext hvalid (ofClasses_eq_ok_iff.1 hs').2 hx hx'
  · intro fault h
    refine ⟨fault.message_eq, ?_⟩
    unfold ofClasses at h
    rcases bind_eq_error_iff.1 h with h | ⟨-, -, h⟩
    · obtain ⟨before, c, after, hsplit, hbefore, hfault⟩ := exists_fault h
      refine ⟨before, c, after, hsplit, ?_, hfault.imp_right ?_⟩
      · unfold ofClasses
        rw [hbefore]
        rfl
      · rintro ⟨hvalid, hname, hmem⟩
        exact ⟨hvalid, hname, hmem.resolve_left (by simp)⟩
    · cases h

end Snapshot

namespace Sample

/-- A method that reads a field and calls another method. -/
def caller : MethodDecl :=
  ⟨"m", "(I)V", false, false,
    [⟨180, .field ⟨"ab", "a", "I"⟩⟩, ⟨182, .method ⟨"cd", "u", "()V"⟩⟩]⟩

def accepted : List ClassDecl :=
  [{ heir "ab" (some "cd") ["a", "b"] with methods := [caller] },
   heir "cd" none []]

/-- The name of the last class is that of the first. -/
def refused : List ClassDecl := accepted ++ [heir "ab" none []]

end Sample

namespace Snapshot

/-- Two classes that are accepted, analysed and matched with themselves,
and a third that is refused. -/
theorem ofClasses_exact_refused :
    (∃ s, ofClasses Sample.accepted = .ok s ∧ s.classes = Sample.accepted
      ∧ ∃ x, Index.build .default s = .ok x
        ∧ ∃ ctx, FieldContext.build .default x x ⟨{}⟩ {} = .ok ctx)
      ∧ ∃ before c after, Sample.refused = before ++ c :: after
        ∧ ofClasses before = .ok ⟨before⟩ ∧ c.name ∈ before.map (·.name) := by
  constructor
  · have hs : ofClasses Sample.accepted = .ok ⟨Sample.accepted⟩ := rfl
    obtain ⟨hclasses, hbuild, hfields⟩ :=
      (ofClasses_exact Sample.accepted).2.1 _ hs
    obtain ⟨x, hx⟩ := hbuild .default
    exact ⟨_, hs, hclasses, x, hx,
      hfields _ _ hs _ _ x x hx hx .default ⟨{}⟩ {}⟩
  · have hfault : ofClasses Sample.refused = .error (.duplicateClass "ab") := rfl
    obtain ⟨-, before, c, after, hsplit, hbefore, hfault⟩ :=
      (ofClasses_exact Sample.refused).2.2 _ hfault
    refine ⟨before, c, after, hsplit, hbefore, ?_⟩
    rcases hfault with hfault | ⟨-, -, hmem⟩
    · cases hfault
    · exact hmem

end Snapshot

end SymbolMatch
