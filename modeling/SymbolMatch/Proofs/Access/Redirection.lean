/-
Naming a subclass as the owner of a field never matters. An instruction
may refer to an inherited field under any class below the one that
declares it; redirect every such reference to the declaration, and the
analysis of the snapshot is the same in each of its parts.

The declarations of a redirected snapshot are those of the snapshot, so
its references mean what they meant (`Owners.ofClasses_redirect`), and a
declared field means itself. The parts that look at references, access
profiles and field usage, look at what they mean and never at the key
itself; the other parts do not see the operands of field instructions at
all.
-/
import SymbolMatch.Proofs.Access.Owners
import SymbolMatch.Proofs.Fingerprint

namespace SymbolMatch

variable {o : Owners} {c : ClassDecl}

-- ========================================================= redirected code

/-- The declared field that a reference means, or the reference itself if
it means none. -/
def Owners.declaration (o : Owners) (key : Member) : Member :=
  (o.resolve key).getD key

def Operand.redirect (o : Owners) : Operand → Operand
  | .field key => .field (o.declaration key)
  | operand => operand

def Instruction.redirect (o : Owners) (i : Instruction) : Instruction :=
  { i with operand := i.operand.redirect o }

def MethodDecl.redirect (o : Owners) (m : MethodDecl) : MethodDecl :=
  { m with code := m.code.map (Instruction.redirect o) }

/-- A class whose code refers to declared fields where they are
declared. -/
def ClassDecl.redirect (o : Owners) (c : ClassDecl) : ClassDecl :=
  { c with methods := c.methods.map (MethodDecl.redirect o) }

/-- A snapshot that refers to its fields where it declares them. -/
def Snapshot.redirect (s : Snapshot) : Snapshot :=
  ⟨s.classes.map (ClassDecl.redirect (Owners.ofClasses s.classes))⟩

namespace Owners

/-- What a reference means does not change when it is redirected. -/
@[simp] theorem resolve_declaration (o : Owners) (key : Member) :
    o.resolve (o.declaration key) = o.resolve key := by
  unfold declaration
  cases h : o.resolve key with
  | none => exact h
  | some found => exact resolve_of_mem_declared (mem_declared_of_resolve h)

/-- A redirected reference keeps its descriptor: a class is looked for,
not a field. -/
@[simp] theorem descriptor_declaration (o : Owners) (key : Member) :
    (o.declaration key).descriptor = key.descriptor := by
  unfold declaration
  cases h : o.resolve key with
  | none => rfl
  | some found =>
    obtain ⟨n, a, -, rfl⟩ := resolve_eq_some_iff.1 h
    rfl

/-- A redirected reference names the class that declares the field. -/
theorem resolve_declaration_eq (o : Owners) (key : Member) :
    o.resolve (o.declaration key) = none
      ∨ o.declaration key ∈ o.declared := by
  rw [resolve_declaration]
  unfold declaration
  cases h : o.resolve key with
  | none => exact .inl rfl
  | some found => exact .inr (mem_declared_of_resolve h)

/-- Redirecting the code of classes leaves their declarations alone. -/
theorem ofClasses_redirect (o : Owners) (cs : List ClassDecl) :
    ofClasses (cs.map (ClassDecl.redirect o)) = ofClasses cs := by
  unfold ofClasses
  rw [List.foldl_map]
  rfl

end Owners

-- ======================================================= one instruction

namespace Instruction

variable (o) (i : Instruction)

@[simp] theorem field?_redirect :
    (i.redirect o).field? = i.field?.map o.declaration := by
  obtain ⟨opcode, operand⟩ := i
  cases operand <;> rfl

@[simp] theorem method?_redirect : (i.redirect o).method? = i.method? := by
  obtain ⟨opcode, operand⟩ := i
  cases operand <;> rfl

@[simp] theorem string?_redirect : (i.redirect o).string? = i.string? := by
  obtain ⟨opcode, operand⟩ := i
  cases operand <;> rfl

@[simp] theorem opcode_redirect : (i.redirect o).opcode = i.opcode := rfl

end Instruction

theorem Instruction.Valid.redirect {i : Instruction} (h : i.Valid)
    (o : Owners) : (i.redirect o).Valid := by
  obtain ⟨opcode, operand⟩ := i
  cases operand with
  | field key =>
    refine ⟨fun key' heq => ?_, fun key' heq => (nomatch heq)⟩
    cases heq
    rw [Owners.descriptor_declaration]
    exact h.field key rfl
  | empty | int | method | type | constant => exact ⟨h.field, h.method⟩

-- ================================================================ accesses

namespace Access

variable (o)

@[simp] theorem target?_redirect (i : Instruction) :
    target? o (i.redirect o) = target? o i := by
  unfold target?
  rw [Instruction.field?_redirect, Option.bind_map]
  exact congrArg i.field?.bind (funext o.resolve_declaration)

@[simp] theorem readKinds_redirect (after : List Instruction) :
    readKinds (after.map (Instruction.redirect o)) = readKinds after := by
  cases after <;> rfl

/-- The three instructions before a write, one of them a reference. -/
@[simp] theorem stepKind_redirect (field : Member)
    (before : List Instruction) :
    stepKind o field (before.map (Instruction.redirect o))
      = stepKind o field before := by
  match before with
  | [] | [_] | [_, _] => rfl
  | step :: unit :: load :: rest =>
    simp only [List.map_cons, stepKind, target?_redirect]
    rfl

@[simp] theorem constantKind_redirect (before : List Instruction) :
    constantKind (before.map (Instruction.redirect o))
      = constantKind before := by
  cases before <;> rfl

/-- A scan goes by opcodes and by what references mean. -/
theorem ofCode_redirect (method : Member) (before code : List Instruction) :
    ofCode o method (before.map (Instruction.redirect o))
        (code.map (Instruction.redirect o))
      = ofCode o method before code := by
  induction code generalizing before with
  | nil => rfl
  | cons i after ih =>
    have hrest := ih (i :: before)
    rw [List.map_cons] at hrest ⊢
    simp only [ofCode, kindsAt, target?_redirect, Instruction.opcode_redirect,
      readKinds_redirect, stepKind_redirect, constantKind_redirect, hrest]

theorem ofClass_redirect (c : ClassDecl) :
    ofClass o (c.redirect o) = ofClass o c := by
  unfold ofClass ClassDecl.redirect
  rw [List.flatMap_map]
  exact congrArg c.methods.flatMap
    (funext fun m => ofCode_redirect o (c.methodKey m) [] m.code)

end Access

theorem AccessProfile.ofClasses_redirect (o : Owners) (cs : List ClassDecl) :
    ofClasses o (cs.map (ClassDecl.redirect o)) = ofClasses o cs := by
  have haccesses : (cs.map (ClassDecl.redirect o)).flatMap (Access.ofClass o)
      = cs.flatMap (Access.ofClass o) := by
    rw [List.flatMap_map]
    exact congrArg cs.flatMap (funext (Access.ofClass_redirect o))
  unfold ofClasses
  rw [haccesses]

/-- A reference is filed under what it means. -/
theorem FieldUsage.scanClass_redirect (o : Owners) (c : ClassDecl) :
    scanClass o (c.redirect o) = scanClass o c := by
  unfold scanClass ClassDecl.redirect
  rw [List.flatMap_map]
  refine congrArg c.methods.flatMap (funext fun m => ?_)
  have hrefs : (m.redirect o).code.filterMap Instruction.field?
      = (m.code.filterMap Instruction.field?).map o.declaration :=
    filterMap_map_eq_map fun i _ => i.field?_redirect o
  have hmeant (key : Member) :
      (o.resolve (o.declaration key)).getD (o.declaration key)
        = (o.resolve key).getD key := by
    rw [Owners.resolve_declaration]
    unfold Owners.declaration
    cases o.resolve key <;> rfl
  rw [hrefs, List.map_map]
  exact List.map_congr_left fun key _ => congrArg (·, c.methodKey m) (hmeant key)

-- ============================================================ fingerprints

theorem MethodDecl.alike_redirect (cutoff : Nat) (o : Owners)
    (m : MethodDecl) : m.Alike cutoff (m.redirect o) where
  name := rfl
  isStatic := rfl
  isAbstract := rfl
  blurred := rfl
  opcodes := List.map_map
  strings := by
    unfold MethodDecl.redirect
    rw [List.filterMap_map]
    exact List.filterMap_congr fun i _ => i.string?_redirect o

theorem MethodFingerprint.summary_redirect (cutoff : Nat) (o : Owners)
    (c : ClassDecl) (m : MethodDecl) :
    summary cutoff (c.redirect o) (m.redirect o) = summary cutoff c m := by
  refine summary_of_alike (c := c) (m.alike_redirect cutoff o) ?_
  unfold MethodDecl.redirect
  rw [List.filterMap_map]
  exact congrArg (List.map (invoked cutoff))
    (List.filterMap_congr fun i _ => i.method?_redirect o)

theorem ClassFingerprint.summary_redirect (cutoff : Nat) (o : Owners)
    (c : ClassDecl) :
    summary cutoff (c.redirect o) = summary cutoff c :=
  summary_of_alike rfl rfl rfl (List.map_id c.fields).symm
    (fun _ _ => ⟨rfl, rfl⟩) rfl fun m _ => m.alike_redirect cutoff o

theorem ClassUsage.summary_redirect (settings : Settings) (o : Owners)
    (c : ClassDecl) :
    summary settings (c.redirect o) = summary settings c := by
  have htypes : (c.redirect o).methods.map
        (fun m => Descriptor.methodType m.descriptor)
      = c.methods.map fun m => Descriptor.methodType m.descriptor :=
    List.map_map
  unfold summary
  rw [htypes]
  rfl

-- ============================================================ the theorem

theorem ClassDecl.Valid.redirect (h : c.Valid) (o : Owners) :
    (c.redirect o).Valid where
  name := h.name
  fields := h.fields
  distinct := h.distinct
  methods := fun _ hmem => by
    obtain ⟨m, hm, rfl⟩ := List.mem_map.1 hmem
    exact h.methods m hm
  code := fun _ hmethod _ hmem => by
    obtain ⟨m, hm, rfl⟩ := List.mem_map.1 hmethod
    obtain ⟨i, hi, rfl⟩ := List.mem_map.1 hmem
    exact (h.code m hm i hi).redirect o

/-- A redirected snapshot is as valid as before. -/
theorem Snapshot.Valid.redirect {s : Snapshot} (h : s.Valid) :
    s.redirect.Valid where
  classes := fun _ hmem => by
    obtain ⟨c, hc, rfl⟩ := List.mem_map.1 hmem
    exact (h.classes c hc).redirect _
  distinct := by
    have hnames : s.redirect.names = s.names := List.map_map
    rw [hnames]
    exact h.distinct

namespace Index

/-- The analysis does not see a redirection, part by part. -/
theorem summary_redirect (settings : Settings) (s : Snapshot) :
    summary settings s.redirect = summary settings s := by
  unfold summary Snapshot.redirect
  simp only [Owners.ofClasses_redirect, AccessProfile.ofClasses_redirect,
    List.map_map, List.flatMap_map]
  rw [Index.mk.injEq]
  refine ⟨?_, ?_, ?_, rfl, ?_, rfl⟩
  · exact List.map_congr_left fun c _ => ClassFingerprint.summary_redirect _ _ c
  · refine congrArg
      (fun ms : List MethodFingerprint => OrdMap.ofList (ms.map fun m => (m.key, m)))
      (congrArg s.classes.flatMap (funext fun c => ?_))
    unfold ClassDecl.redirect
    rw [List.map_map]
    exact List.map_congr_left fun m _ =>
      MethodFingerprint.summary_redirect _ _ c m
  · exact congrArg Evidence.ofUsages (List.map_congr_left fun c _ =>
      ClassUsage.summary_redirect settings _ c)
  · exact congrArg (fun scan => FieldUsage.ofRefs (s.classes.flatMap scan))
      (funext (FieldUsage.scanClass_redirect _))

/-- Redirect every reference to a field of an accepted snapshot to its
declaration: the snapshot that results is accepted, each of its
references means nothing or names the declaring class, and its analysis
is that of the snapshot, whatever the settings. -/
theorem build_of_redirected (settings : Settings) (cs : List ClassDecl)
    (s : Snapshot) (hs : Snapshot.ofClasses cs = .ok s) :
    ∃ s' x, Snapshot.ofClasses
        (cs.map (ClassDecl.redirect (Owners.ofClasses cs))) = .ok s'
      ∧ (∀ c ∈ s'.classes, ∀ m ∈ c.methods, ∀ i ∈ m.code, ∀ key,
        i.field? = some key →
          (Owners.ofClasses cs).resolve key = none ∨ Owners.Declares cs key)
      ∧ build settings s = .ok x ∧ build settings s' = .ok x := by
  obtain ⟨rfl, hvalid⟩ := Snapshot.ofClasses_eq_ok_iff.1 hs
  refine ⟨s.redirect, summary settings s,
    Snapshot.ofClasses_eq_ok_iff.2 ⟨rfl, hvalid.redirect⟩, ?_,
    build_eq_ok settings hvalid, ?_⟩
  · intro _ hclass _ hmethod _ hcode key hkey
    obtain ⟨c, -, rfl⟩ := List.mem_map.1 hclass
    obtain ⟨m, -, rfl⟩ := List.mem_map.1 hmethod
    obtain ⟨i, -, rfl⟩ := List.mem_map.1 hcode
    rw [Instruction.field?_redirect] at hkey
    obtain ⟨key', -, rfl⟩ := Option.map_eq_some_iff.1 hkey
    rw [← Owners.mem_declared_iff]
    exact Owners.resolve_declaration_eq _ key'
  · rw [build_eq_ok settings hvalid.redirect, summary_redirect]

end Index

namespace Sample

/-- A class that counts in a field of its grandparent, which it reads as
its own and writes as its parent's. -/
def counting : List ClassDecl :=
  [{ heir "ef" (some "cd") [] with
      methods := [⟨"t", "()V", false, false,
        [⟨180, .field ⟨"ef", "a", "I"⟩⟩, ⟨4, .empty⟩, ⟨96, .empty⟩,
         ⟨181, .field ⟨"cd", "a", "I"⟩⟩]⟩] },
   heir "cd" (some "ab") [], heir "ab" none ["a"]]

/-- The same code, once the field stands under the class that declares
it. -/
def countingDirectly : List ClassDecl :=
  [{ heir "ef" (some "cd") [] with
      methods := [⟨"t", "()V", false, false,
        [⟨180, .field ⟨"ab", "a", "I"⟩⟩, ⟨4, .empty⟩, ⟨96, .empty⟩,
         ⟨181, .field ⟨"ab", "a", "I"⟩⟩]⟩] },
   heir "cd" (some "ab") [], heir "ab" none ["a"]]

end Sample

namespace Index

theorem build_of_redirected_counting :
    Snapshot.ofClasses Sample.counting = .ok ⟨Sample.counting⟩
      ∧ ∃ x, build .default ⟨Sample.counting⟩ = .ok x
        ∧ build .default ⟨Sample.countingDirectly⟩ = .ok x := by
  have haccepted : Snapshot.ofClasses Sample.counting
      = .ok ⟨Sample.counting⟩ := rfl
  obtain ⟨s', x, hs', -, hx, hx'⟩ :=
    build_of_redirected .default Sample.counting _ haccepted
  have hdirect : Sample.counting.map
        (ClassDecl.redirect (Owners.ofClasses Sample.counting))
      = Sample.countingDirectly := rfl
  rw [hdirect, Snapshot.ofClasses_eq_ok_iff] at hs'
  obtain ⟨hclasses, -⟩ := hs'
  cases s'
  cases hclasses
  exact ⟨haccepted, x, hx, hx'⟩

end Index

end SymbolMatch
