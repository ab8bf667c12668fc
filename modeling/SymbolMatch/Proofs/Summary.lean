/-
What the analysis of a valid snapshot yields, as plain values. Each part
of an index is read off descriptors, and reading one may fail; on a valid
snapshot it does not, and the part is a function of the classes. The
functions are the summaries below, and `Index.build_eq_ok` says that the
analysis of a valid snapshot is its summary.
-/
import Mathlib.Data.List.Nodup
import SymbolMatch.Index
import SymbolMatch.Proofs.Program.Snapshot

namespace SymbolMatch

open Descriptor (fieldType methodType blurredField blurredMethod)
open Outcome

variable {c : ClassDecl}

/-- A list paired with the values of a function on it. -/
private theorem zip_map_self {α β : Type} (f : α → β) (xs : List α) :
    xs.zip (xs.map f) = xs.map fun x => (x, f x) := by
  have h : (xs.map id).zip (xs.map f) = xs.map fun x => (id x, f x) :=
    List.zip_map'
  rw [List.map_id] at h
  exact h

/-- A change that a selection sees as another change. -/
theorem filterMap_map_eq_map {α β : Type} {change : α → α}
    {select : α → Option β} {change' : β → β} {xs : List α}
    (h : ∀ x ∈ xs, select (change x) = (select x).map change') :
    (xs.map change).filterMap select = (xs.filterMap select).map change' := by
  rw [List.filterMap_map, List.map_filterMap]
  exact List.filterMap_congr h

-- ========================================================= fingerprints

/-- The type of a field with the names that an obfuscator chose blurred. -/
def FieldDecl.blurred (cutoff : Nat) (f : FieldDecl) : String :=
  blurredField (Name.isObfuscated cutoff) f.descriptor

/-- The type of a method with the names that an obfuscator chose blurred. -/
def MethodDecl.blurred (cutoff : Nat) (m : MethodDecl) : String :=
  blurredMethod (Name.isObfuscated cutoff) m.descriptor

/-- The name and the type of a method, both blurred. -/
def MethodDecl.signature (cutoff : Nat) (m : MethodDecl) : String :=
  blurName cutoff m.name ++ m.blurred cutoff

/-- The fingerprint of a class that can be read. -/
def ClassFingerprint.summary (cutoff : Nat) (c : ClassDecl) :
    ClassFingerprint :=
  let statics := c.methods.filter countsAsStatic
  let code := (c.methods.filter (!·.isAbstract)).flatMap (·.code)
  { name := c.name
    kind := c.kind
    superType := c.superName.map (blurName cutoff)
    interfaces := OrdSet.ofList (c.interfaces.map (blurName cutoff))
    constructorCount := c.methods.countP (·.isConstructor)
    hasStaticInitializer := c.methods.any (·.isStaticInitializer)
    methodDescriptors := OrdMap.tally (c.methods.map (·.blurred cutoff))
    staticMethodSignatures := OrdSet.ofList (statics.map (·.signature cutoff))
    opcodeHistogram := opcodeCounts code
    stringLiterals := loadedStrings code
    staticFieldTypes :=
      OrdMap.tally ((c.fields.filter (·.isStatic)).map (·.blurred cutoff))
    instanceFieldTypes :=
      OrdMap.tally ((c.fields.filter (!·.isStatic)).map (·.blurred cutoff))
    methodCount := c.methods.length
    fieldCount := c.fields.length
    staticMethodCount := statics.length }

theorem ClassFingerprint.extract_eq_ok (cutoff : Nat) (h : c.Readable) :
    ClassFingerprint.extract cutoff c = .ok (summary cutoff c) := by
  have hmethods : (c.methods.mapM fun m => Descriptor.blurMethod
        (Name.isObfuscated cutoff) m.descriptor)
      = .ok (c.methods.map (·.blurred cutoff)) :=
    mapM_eq_ok_map fun m hm => (h.methods m hm).blur
  have hfields : (c.fields.mapM fun f => Descriptor.blurField
        (Name.isObfuscated cutoff) f.descriptor)
      = .ok (c.fields.map (·.blurred cutoff)) :=
    mapM_eq_ok_map fun f hf => (h.fields f hf).blur
  unfold extract
  dsimp only
  rw [hmethods, ok_bind, hfields, ok_bind, zip_map_self, zip_map_self]
  simp only [List.filter_map, List.map_map, List.length_map]
  rfl

/-- The fingerprint of a method of a class that can be read. -/
def MethodFingerprint.summary (cutoff : Nat) (c : ClassDecl)
    (m : MethodDecl) : MethodFingerprint :=
  { key := c.methodKey m
    normalizedDescriptor := m.blurred cutoff
    isStatic := m.isStatic
    instructionCount := m.code.length
    opcodeHistogram := opcodeCounts m.code
    stringLiterals := loadedStrings m.code
    invokedSignatures := OrdSet.ofList
      ((m.code.filterMap Instruction.method?).map fun key =>
        blurName cutoff key.owner ++ "." ++ blurName cutoff key.name
          ++ blurredMethod (Name.isObfuscated cutoff) key.descriptor) }

theorem Instruction.method?_eq_some_iff {i : Instruction} {key : Member} :
    i.method? = some key ↔ i.operand = .method key := by
  obtain ⟨opcode, operand⟩ := i
  cases operand <;> simp [Instruction.method?]

theorem MethodFingerprint.extract_eq_ok (cutoff : Nat) (h : c.Readable)
    {m : MethodDecl} (hm : m ∈ c.methods) :
    MethodFingerprint.extract cutoff c m = .ok (summary cutoff c m) := by
  refine bind_eq_ok_iff.2 ⟨_, mapM_eq_ok_map ?_,
    bind_eq_ok_iff.2 ⟨_, (h.methods m hm).blur, rfl⟩⟩
  intro key hkey
  obtain ⟨i, hi, hop⟩ := List.mem_filterMap.1 hkey
  have hvalid : Descriptor.IsMethod key.descriptor :=
    (h.code m hm i hi).method key (Instruction.method?_eq_some_iff.1 hop)
  exact bind_eq_ok_iff.2 ⟨_, hvalid.blur, rfl⟩

-- ================================================================ usage

/-- What a class that can be read uses. -/
def ClassUsage.summary (settings : Settings) (c : ClassDecl) :
    ClassUsage where
  name := c.name
  fieldRefs := (c.fields.map fun f => fieldType f.descriptor).filterMap
    (tracked? settings)
  paramRefs := ((c.methods.map fun m => methodType m.descriptor).flatMap
    (·.params)).filterMap (tracked? settings)
  returnRefs := (c.methods.map fun m => methodType m.descriptor).filterMap
    fun m => m.result.bind (tracked? settings)

theorem ClassUsage.scan_eq_ok (settings : Settings) (h : c.Readable) :
    ClassUsage.scan settings c = .ok (summary settings c) := by
  refine bind_eq_ok_iff.2 ⟨_, mapM_eq_ok_map fun f hf => (h.fields f hf).read,
    bind_eq_ok_iff.2 ⟨_, mapM_eq_ok_map fun m hm => (h.methods m hm).read, rfl⟩⟩

-- ============================================================ the index

namespace Index

/-- What a class that can be read contributes. -/
def extracted (settings : Settings) (c : ClassDecl) : Extract where
  fingerprint := .summary settings.maxObfuscatedLength c
  methods := c.methods.map (.summary settings.maxObfuscatedLength c)
  usage := .summary settings c

theorem extract_eq_ok (settings : Settings) (h : c.Readable) :
    extract settings c = .ok (extracted settings c) :=
  bind_eq_ok_iff.2 ⟨_,
    mapM_eq_ok_map fun _ hm => MethodFingerprint.extract_eq_ok _ h hm,
    bind_eq_ok_iff.2 ⟨_, ClassFingerprint.extract_eq_ok _ h,
      bind_eq_ok_iff.2 ⟨_, ClassUsage.scan_eq_ok settings h, rfl⟩⟩⟩

/-- The usages of a snapshot's classes. -/
def usages (settings : Settings) (s : Snapshot) : List ClassUsage :=
  s.classes.map (ClassUsage.summary settings)

theorem names_usages (settings : Settings) (s : Snapshot) :
    (usages settings s).map (·.name) = s.names := by
  unfold usages Snapshot.names
  rw [List.map_map]
  rfl

/-- The analysis of a valid snapshot. -/
def summary (settings : Settings) (s : Snapshot) : Index :=
  let owners := Owners.ofClasses s.classes
  let cutoff := settings.maxObfuscatedLength
  { fingerprints := s.classes.map (ClassFingerprint.summary cutoff)
    methods := OrdMap.ofList ((s.classes.flatMap fun c =>
      c.methods.map (MethodFingerprint.summary cutoff c)).map
        fun m => (m.key, m))
    evidence := Evidence.ofUsages (s.classes.map (ClassUsage.summary settings))
    profiles := AccessProfile.ofClasses owners s.classes
    usage := FieldUsage.ofRefs (s.classes.flatMap (FieldUsage.scanClass owners))
    fields := OrdMap.ofList (s.classes.flatMap fieldInfos) }

/-- The analysis of a valid snapshot succeeds. -/
theorem build_eq_ok (settings : Settings) {s : Snapshot} (h : s.Valid) :
    build settings s = .ok (summary settings s) := by
  have hextracts : s.classes.mapM (extract settings)
      = .ok (s.classes.map (extracted settings)) :=
    mapM_eq_ok_map fun c hc =>
      extract_eq_ok settings (h.classes c hc).readable
  unfold build
  dsimp only
  rw [hextracts, ok_bind]
  simp only [List.map_map, List.flatMap_map]
  rfl

variable (settings : Settings) (s : Snapshot)

@[simp] theorem classNames_summary :
    (summary settings s).classNames = s.names := by
  unfold classNames summary Snapshot.names
  rw [List.map_map]
  rfl

@[simp] theorem size_summary : (summary settings s).size = s.size := by
  unfold size summary Snapshot.size
  rw [List.length_map]

end Index

end SymbolMatch
