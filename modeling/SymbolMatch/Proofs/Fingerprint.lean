/-
Fingerprints forget the names that an obfuscator chose. A class with its
obfuscated classes renamed all over, itself included, has the fingerprint
of the class under another name, and each of its methods has the
fingerprint of the method under another key; so it is as similar to
anything as it was.

All that is asked of the renaming is that stable names stay and that
obfuscated names become obfuscated names that can stand in a descriptor
(`Name.Disguise`). Several classes may get one name. Two fields may then
get one descriptor, and a snapshot with such a class is refused, but its
fingerprints are still there: they take descriptors that can be read and
nothing else (`ClassDecl.Readable`).
-/
import SymbolMatch.Proofs.Descriptor.Renaming
import SymbolMatch.Proofs.Summary
import SymbolMatch.Similarity

namespace SymbolMatch

open Descriptor (IsName IsField IsMethod fieldType methodType renamedField
  renamedMethod blurredField blurredMethod fieldNames methodNames)

-- ======================================================== renamed classes

/-- An operand with its owner and the classes of its descriptor renamed. -/
def Operand.rename (g : String → String) : Operand → Operand
  | .field key => .field ⟨g key.owner, key.name, renamedField g key.descriptor⟩
  | .method key =>
    .method ⟨g key.owner, key.name, renamedMethod g key.descriptor⟩
  | operand => operand

def Instruction.rename (g : String → String) (i : Instruction) :
    Instruction :=
  { i with operand := i.operand.rename g }

def FieldDecl.rename (g : String → String) (f : FieldDecl) : FieldDecl :=
  { f with descriptor := renamedField g f.descriptor }

def MethodDecl.rename (g : String → String) (m : MethodDecl) : MethodDecl :=
  { m with
    descriptor := renamedMethod g m.descriptor
    code := m.code.map (Instruction.rename g) }

/-- A class with every class it names renamed, itself included. Members
keep their names. -/
def ClassDecl.rename (g : String → String) (c : ClassDecl) : ClassDecl :=
  { c with
    name := g c.name
    superName := c.superName.map g
    interfaces := c.interfaces.map g
    fields := c.fields.map (FieldDecl.rename g)
    methods := c.methods.map (MethodDecl.rename g) }

-- ======================================================= names that occur

def Operand.mentions : Operand → List String
  | .field key => key.owner :: fieldNames key.descriptor
  | .method key => key.owner :: methodNames key.descriptor
  | _ => []

def MethodDecl.mentions (m : MethodDecl) : List String :=
  methodNames m.descriptor ++ m.code.flatMap (·.operand.mentions)

/-- The classes that a class names: itself, what it extends and
implements, and those in its members and their code. -/
def ClassDecl.mentions (c : ClassDecl) : List String :=
  c.name :: c.superName.toList ++ c.interfaces
    ++ c.fields.flatMap (fun f => fieldNames f.descriptor)
    ++ c.methods.flatMap MethodDecl.mentions

/-- Every class that `c` names is in `names`, by the place it is named. -/
structure ClassDecl.Within (names : Set String) (c : ClassDecl) : Prop where
  name : c.name ∈ names
  superName : ∀ n, c.superName = some n → n ∈ names
  interfaces : ∀ n ∈ c.interfaces, n ∈ names
  fields : ∀ f ∈ c.fields, ∀ n ∈ fieldNames f.descriptor, n ∈ names
  methods : ∀ m ∈ c.methods, ∀ n ∈ methodNames m.descriptor, n ∈ names
  code : ∀ m ∈ c.methods, ∀ i ∈ m.code, ∀ n ∈ i.operand.mentions, n ∈ names

theorem ClassDecl.within_of_mentions {c : ClassDecl} {names : Set String}
    (hmem : ∀ n ∈ c.mentions, n ∈ names) : c.Within names := by
  unfold ClassDecl.mentions at hmem
  simp only [List.cons_append, List.append_assoc, List.mem_cons,
    List.mem_append, Option.mem_toList, List.mem_flatMap] at hmem
  have hmethod {n : String} {m : MethodDecl} (hm : m ∈ c.methods)
      (hn : n ∈ m.mentions) : n ∈ names :=
    hmem n (.inr (.inr (.inr (.inr ⟨m, hm, hn⟩))))
  exact
    { name := hmem _ (.inl rfl)
      superName := fun n hn => hmem n (.inr (.inl hn))
      interfaces := fun n hn => hmem n (.inr (.inr (.inl hn)))
      fields := fun f hf n hn =>
        hmem n (.inr (.inr (.inr (.inl ⟨f, hf, hn⟩))))
      methods := fun m hm n hn => hmethod hm (List.mem_append_left _ hn)
      code := fun m hm i hi n hn => hmethod hm
        (List.mem_append_right _ (List.mem_flatMap.2 ⟨i, hi, hn⟩)) }

-- ============================================================== disguises

/-- A renaming that may even give several classes one name, as long as
obfuscated names stay obfuscated and can stand in a descriptor. -/
structure Name.Disguise (cutoff : Nat) (g : String → String)
    (names : Set String) : Prop where
  stable : ∀ n ∈ names, Name.isObfuscated cutoff n = false → g n = n
  obfuscated : ∀ n ∈ names, Name.isObfuscated cutoff n = true →
    Name.isObfuscated cutoff (g n) = true
  isName : ∀ n ∈ names, Name.isObfuscated cutoff n = true → IsName (g n)

variable {cutoff : Nat} {g : String → String} {names : Set String}

namespace Name.Disguise

variable {n : String}

theorem eq_or_isName (h : Disguise cutoff g names) (hn : n ∈ names) :
    g n = n ∨ IsName (g n) := by
  cases hobf : isObfuscated cutoff n with
  | true => exact .inr (h.isName n hn hobf)
  | false => exact .inl (h.stable n hn hobf)

theorem ne_empty (h : Disguise cutoff g names) (hn : n ∈ names)
    (hne : n ≠ "") : g n ≠ "" := by
  rcases h.eq_or_isName hn with heq | hname
  · rw [heq]
    exact hne
  · exact hname.1

/-- Blurring undoes a renaming. -/
theorem blur_eq (h : Disguise cutoff g names) (hn : n ∈ names) :
    blurName cutoff (g n) = blurName cutoff n := by
  unfold blurName Descriptor.blur
  cases hobf : isObfuscated cutoff n with
  | true => rw [if_pos (h.obfuscated n hn hobf), if_pos rfl]
  | false => rw [h.stable n hn hobf, hobf]

section Texts

variable {text : String} (h : Disguise cutoff g names)
include h

theorem isName_of (hn : n ∈ names) (hname : IsName n) : IsName (g n) := by
  rcases h.eq_or_isName hn with heq | hname'
  · rw [heq]
    exact hname
  · exact hname'

theorem isName_field (ht : IsField text)
    (hw : ∀ n ∈ fieldNames text, n ∈ names) :
    ∀ n ∈ fieldNames text, IsName (g n) :=
  fun n hn => h.isName_of (hw n hn) (ht.isName hn)

theorem isName_method (ht : IsMethod text)
    (hw : ∀ n ∈ methodNames text, n ∈ names) :
    ∀ n ∈ methodNames text, IsName (g n) :=
  fun n hn => h.isName_of (hw n hn) (ht.isName hn)

theorem read_field (ht : IsField text)
    (hw : ∀ n ∈ fieldNames text, n ∈ names) :
    Descriptor.field (renamedField g text)
      = .ok ((fieldType text).mapClasses g) :=
  ht.read_renamed (h.isName_field ht hw)

theorem read_method (ht : IsMethod text)
    (hw : ∀ n ∈ methodNames text, n ∈ names) :
    Descriptor.method (renamedMethod g text)
      = .ok ((methodType text).mapClasses g) :=
  ht.read_renamed (h.isName_method ht hw)

theorem blurred_field (ht : IsField text)
    (hw : ∀ n ∈ fieldNames text, n ∈ names) :
    blurredField (isObfuscated cutoff) (renamedField g text)
      = blurredField (isObfuscated cutoff) text :=
  ht.blurred_renamed (h.isName_field ht hw) fun n hn => h.blur_eq (hw n hn)

theorem blurred_method (ht : IsMethod text)
    (hw : ∀ n ∈ methodNames text, n ∈ names) :
    blurredMethod (isObfuscated cutoff) (renamedMethod g text)
      = blurredMethod (isObfuscated cutoff) text :=
  ht.blurred_renamed (h.isName_method ht hw) fun n hn => h.blur_eq (hw n hn)

end Texts

end Name.Disguise

-- ==================================================== members that look alike

/-- Fields that the fingerprint of their class does not tell apart. -/
structure FieldDecl.Alike (cutoff : Nat) (f f' : FieldDecl) : Prop where
  isStatic : f'.isStatic = f.isStatic
  blurred : f'.blurred cutoff = f.blurred cutoff

/-- Methods that the fingerprint of their class does not tell apart. -/
structure MethodDecl.Alike (cutoff : Nat) (m m' : MethodDecl) : Prop where
  name : m'.name = m.name
  isStatic : m'.isStatic = m.isStatic
  isAbstract : m'.isAbstract = m.isAbstract
  blurred : m'.blurred cutoff = m.blurred cutoff
  opcodes : m'.code.map (·.opcode) = m.code.map (·.opcode)
  strings : m'.code.filterMap Instruction.string?
    = m.code.filterMap Instruction.string?

/-- A called method as a fingerprint shows it. -/
def MethodFingerprint.invoked (cutoff : Nat) (key : Member) : String :=
  blurName cutoff key.owner ++ "." ++ blurName cutoff key.name
    ++ blurredMethod (Name.isObfuscated cutoff) key.descriptor

/-- Methods that look alike and call what looks alike have one fingerprint,
up to their keys. -/
theorem MethodFingerprint.summary_of_alike {c c' : ClassDecl}
    {m m' : MethodDecl} (h : m.Alike cutoff m')
    (hinvoked : (m'.code.filterMap Instruction.method?).map (invoked cutoff)
      = (m.code.filterMap Instruction.method?).map (invoked cutoff)) :
    summary cutoff c' m' = { summary cutoff c m with key := c'.methodKey m' } := by
  have hlength : m'.code.length = m.code.length := by
    rw [← List.length_map (·.opcode), h.opcodes, List.length_map]
  unfold summary
  rw [MethodFingerprint.mk.injEq]
  exact ⟨rfl, h.blurred, h.isStatic, hlength,
    congrArg OrdMap.tally h.opcodes, congrArg OrdSet.ofList h.strings,
    congrArg OrdSet.ofList hinvoked⟩

/-- A change that a reading does not see. -/
private theorem map_map_eq_map {α β : Type} {change : α → α} {read : α → β}
    {xs : List α} (h : ∀ x ∈ xs, read (change x) = read x) :
    (xs.map change).map read = xs.map read := by
  rw [List.map_map]
  exact List.map_congr_left h

/-- A change that a test does not see. -/
private theorem filter_map_eq_map {α : Type} {change : α → α} {keep : α → Bool}
    {xs : List α} (h : ∀ x ∈ xs, keep (change x) = keep x) :
    (xs.map change).filter keep = (xs.filter keep).map change := by
  rw [List.filter_map]
  exact congrArg (List.map change) (List.filter_congr h)

section Changed

variable {c c' : ClassDecl} {field : FieldDecl → FieldDecl}
  {method : MethodDecl → MethodDecl}

/-- The types of the fields of one kind, as fingerprints show them. -/
private theorem blurred_fields (hfields' : c'.fields = c.fields.map field)
    (hfields : ∀ f ∈ c.fields, f.Alike cutoff (field f))
    {keep : FieldDecl → Bool}
    (hkeep : ∀ f ∈ c.fields, keep (field f) = keep f) :
    (c'.fields.filter keep).map (·.blurred cutoff)
      = (c.fields.filter keep).map (·.blurred cutoff) := by
  rw [hfields', filter_map_eq_map hkeep]
  exact map_map_eq_map fun f hf => (hfields f (List.mem_of_mem_filter hf)).blurred

section Methods

variable (hmethods' : c'.methods = c.methods.map method)
  (hmethods : ∀ m ∈ c.methods, m.Alike cutoff (method m))
include hmethods' hmethods

/-- Which methods count as static is decided by flags and names. -/
private theorem static_methods :
    c'.methods.filter ClassFingerprint.countsAsStatic
      = (c.methods.filter ClassFingerprint.countsAsStatic).map method := by
  rw [hmethods']
  refine filter_map_eq_map fun m hm => ?_
  unfold ClassFingerprint.countsAsStatic MethodDecl.isStaticInitializer
  rw [(hmethods m hm).isStatic, (hmethods m hm).name]

private theorem static_signatures :
    (c'.methods.filter ClassFingerprint.countsAsStatic).map (·.signature cutoff)
      = (c.methods.filter ClassFingerprint.countsAsStatic).map
        (·.signature cutoff) := by
  rw [static_methods hmethods' hmethods]
  refine map_map_eq_map fun m hm => ?_
  have halike := hmethods m (List.mem_of_mem_filter hm)
  unfold MethodDecl.signature
  rw [halike.name, halike.blurred]

private theorem concrete_methods :
    c'.methods.filter (!·.isAbstract)
      = (c.methods.filter (!·.isAbstract)).map method := by
  rw [hmethods']
  exact filter_map_eq_map fun m hm => by rw [(hmethods m hm).isAbstract]

private theorem concrete_opcodes :
    ((c'.methods.filter (!·.isAbstract)).flatMap (·.code)).map (·.opcode)
      = ((c.methods.filter (!·.isAbstract)).flatMap (·.code)).map
        (·.opcode) := by
  rw [concrete_methods hmethods' hmethods, List.flatMap_map, List.map_flatMap,
    List.map_flatMap]
  exact List.flatMap_congr fun m hm =>
    (hmethods m (List.mem_of_mem_filter hm)).opcodes

private theorem concrete_strings :
    ((c'.methods.filter (!·.isAbstract)).flatMap (·.code)).filterMap
        Instruction.string?
      = ((c.methods.filter (!·.isAbstract)).flatMap (·.code)).filterMap
        Instruction.string? := by
  rw [concrete_methods hmethods' hmethods, List.flatMap_map,
    List.filterMap_flatMap, List.filterMap_flatMap]
  exact List.flatMap_congr fun m hm =>
    (hmethods m (List.mem_of_mem_filter hm)).strings

end Methods

/-- A class whose members are changed into members that look alike keeps
its fingerprint, up to its name, if what it extends and implements looks
alike too. -/
theorem ClassFingerprint.summary_of_alike (hkind : c'.kind = c.kind)
    (hsuper : c'.superName.map (blurName cutoff)
      = c.superName.map (blurName cutoff))
    (hinterfaces : c'.interfaces.map (blurName cutoff)
      = c.interfaces.map (blurName cutoff))
    (hfields' : c'.fields = c.fields.map field)
    (hfields : ∀ f ∈ c.fields, f.Alike cutoff (field f))
    (hmethods' : c'.methods = c.methods.map method)
    (hmethods : ∀ m ∈ c.methods, m.Alike cutoff (method m)) :
    summary cutoff c' = { summary cutoff c with name := c'.name } := by
  have hblurred : c'.methods.map (·.blurred cutoff)
      = c.methods.map (·.blurred cutoff) := by
    rw [hmethods']
    exact map_map_eq_map fun m hm => (hmethods m hm).blurred
  have hnames : c'.methods.map (·.name) = c.methods.map (·.name) := by
    rw [hmethods']
    exact map_map_eq_map fun m hm => (hmethods m hm).name
  -- the special methods are those of two names
  have hconstructors : c'.methods.countP (·.isConstructor)
      = c.methods.countP (·.isConstructor) := by
    have hcount := congrArg (List.countP (· == "<init>")) hnames
    rw [List.countP_map, List.countP_map] at hcount
    exact hcount
  have hinitializer : c'.methods.any (·.isStaticInitializer)
      = c.methods.any (·.isStaticInitializer) := by
    have hany := congrArg (List.any · (· == "<clinit>")) hnames
    rw [List.any_map, List.any_map] at hany
    exact hany
  unfold summary
  rw [ClassFingerprint.mk.injEq]
  refine ⟨rfl, hkind, hsuper, congrArg OrdSet.ofList hinterfaces,
    hconstructors, hinitializer, congrArg OrdMap.tally hblurred,
    congrArg OrdSet.ofList (static_signatures hmethods' hmethods),
    congrArg OrdMap.tally (concrete_opcodes hmethods' hmethods),
    congrArg OrdSet.ofList (concrete_strings hmethods' hmethods),
    congrArg OrdMap.tally (blurred_fields hfields' hfields fun f hf => ?_),
    congrArg OrdMap.tally (blurred_fields hfields' hfields fun f hf => ?_),
    ?_, ?_, ?_⟩
  · exact (hfields f hf).isStatic
  · rw [(hfields f hf).isStatic]
  · rw [hmethods', List.length_map]
  · rw [hfields', List.length_map]
  · rw [static_methods hmethods' hmethods, List.length_map]

end Changed

-- ======================================================== renamed members

/-- A called method with its owner and the classes of its descriptor
renamed. -/
def Member.renameMethod (g : String → String) (key : Member) : Member :=
  ⟨g key.owner, key.name, renamedMethod g key.descriptor⟩

namespace Instruction

variable (g) (i : Instruction)

theorem method?_rename :
    (i.rename g).method? = i.method?.map (Member.renameMethod g) := by
  obtain ⟨opcode, operand⟩ := i
  cases operand <;> rfl

theorem string?_rename : (i.rename g).string? = i.string? := by
  obtain ⟨opcode, operand⟩ := i
  cases operand <;> rfl

end Instruction

section Disguised

variable (h : Name.Disguise cutoff g names)
include h

theorem Instruction.Valid.rename {i : Instruction} (hi : i.Valid)
    (hw : ∀ n ∈ i.operand.mentions, n ∈ names) : (i.rename g).Valid := by
  obtain ⟨opcode, operand⟩ := i
  cases operand with
  | field key =>
    refine ⟨fun key' heq => ?_, fun key' heq => (nomatch heq)⟩
    cases heq
    exact ⟨_, h.read_field (hi.field key rfl) fun n hn =>
      hw n (List.mem_cons_of_mem _ hn)⟩
  | method key =>
    refine ⟨fun key' heq => (nomatch heq), fun key' heq => ?_⟩
    cases heq
    exact ⟨_, h.read_method (hi.method key rfl) fun n hn =>
      hw n (List.mem_cons_of_mem _ hn)⟩
  | empty | int | type | constant =>
    exact ⟨fun key heq => (nomatch heq), fun key heq => (nomatch heq)⟩

/-- A called method looks the same when its owner and its descriptor are
renamed. -/
theorem MethodFingerprint.invoked_rename {key : Member}
    (hkey : IsMethod key.descriptor)
    (hw : ∀ n ∈ (Operand.method key).mentions, n ∈ names) :
    invoked cutoff (key.renameMethod g) = invoked cutoff key := by
  have howner := h.blur_eq (hw key.owner List.mem_cons_self)
  have hdescriptor := h.blurred_method hkey fun n hn =>
    hw n (List.mem_cons_of_mem _ hn)
  unfold invoked Member.renameMethod
  rw [howner, hdescriptor]

namespace ClassDecl

variable {c : ClassDecl} (hc : c.Readable) (hw : c.Within names)
include hc hw

/-- A renamed class can be read as before. -/
theorem Readable.rename : (c.rename g).Readable where
  fields := fun _ hmem => by
    obtain ⟨f, hf, rfl⟩ := List.mem_map.1 hmem
    exact ⟨_, h.read_field (hc.fields f hf) (hw.fields f hf)⟩
  methods := fun _ hmem => by
    obtain ⟨m, hm, rfl⟩ := List.mem_map.1 hmem
    exact ⟨_, h.read_method (hc.methods m hm) (hw.methods m hm)⟩
  code := fun _ hmethod _ hmem => by
    obtain ⟨m, hm, rfl⟩ := List.mem_map.1 hmethod
    obtain ⟨i, hi, rfl⟩ := List.mem_map.1 hmem
    exact (hc.code m hm i hi).rename h (hw.code m hm i hi)

theorem field_alike_rename {f : FieldDecl} (hf : f ∈ c.fields) :
    f.Alike cutoff (f.rename g) where
  isStatic := rfl
  blurred := h.blurred_field (hc.fields f hf) (hw.fields f hf)

theorem method_alike_rename {m : MethodDecl} (hm : m ∈ c.methods) :
    m.Alike cutoff (m.rename g) where
  name := rfl
  isStatic := rfl
  isAbstract := rfl
  blurred := h.blurred_method (hc.methods m hm) (hw.methods m hm)
  opcodes := map_map_eq_map fun _ _ => rfl
  strings := by
    unfold MethodDecl.rename
    rw [List.filterMap_map]
    exact List.filterMap_congr fun i _ => i.string?_rename g

/-- A renamed class has the fingerprint of the class, under its own
name: everything else in it is blurred. -/
theorem fingerprint_rename :
    ClassFingerprint.summary cutoff (c.rename g)
      = { ClassFingerprint.summary cutoff c with name := g c.name } := by
  refine ClassFingerprint.summary_of_alike rfl ?_ ?_ rfl
    (fun f hf => field_alike_rename h hc hw hf) rfl
    (fun m hm => method_alike_rename h hc hw hm)
  · unfold ClassDecl.rename
    rw [Option.map_map]
    refine Option.map_congr fun n hn => ?_
    rw [Function.comp_apply, h.blur_eq (hw.superName n hn)]
  · exact map_map_eq_map fun n hn => h.blur_eq (hw.interfaces n hn)

/-- A renamed method has the fingerprint of the method, under its own
key. -/
theorem methodFingerprint_rename {m : MethodDecl} (hm : m ∈ c.methods) :
    MethodFingerprint.summary cutoff (c.rename g) (m.rename g)
      = { MethodFingerprint.summary cutoff c m with
          key := (c.rename g).methodKey (m.rename g) } := by
  refine MethodFingerprint.summary_of_alike
    (method_alike_rename h hc hw hm) ?_
  unfold MethodDecl.rename
  rw [filterMap_map_eq_map fun i _ => i.method?_rename g]
  refine map_map_eq_map fun key hkey => ?_
  obtain ⟨i, hi, hop⟩ := List.mem_filterMap.1 hkey
  have hop := Instruction.method?_eq_some_iff.1 hop
  exact MethodFingerprint.invoked_rename h ((hc.code m hm i hi).method key hop)
    (hop ▸ hw.code m hm i hi)

end ClassDecl

end Disguised

-- ============================================================= similarity

/-- The name of a class is no part of its similarity to others. -/
theorem classSimilarity_named (p q : ClassFingerprint) (n : String) :
    classSimilarity { p with name := n } q = classSimilarity p q
      ∧ classSimilarity q { p with name := n } = classSimilarity q p :=
  ⟨rfl, rfl⟩

/-- The key of a method is no part of its similarity to others. -/
theorem methodSimilarity_keyed (p q : MethodFingerprint) (k : Member) :
    methodSimilarity { p with key := k } q = methodSimilarity p q
      ∧ methodSimilarity q { p with key := k } = methodSimilarity q p :=
  ⟨rfl, rfl⟩

-- ============================================================ the theorem

namespace ClassDecl

/-- An accepted class keeps its fingerprint under a renaming, but for its
name, and its methods keep theirs, but for their keys. No similarity to
anything changes. -/
theorem fingerprints_forget_names (cutoff : Nat) (g : String → String)
    (c : ClassDecl) (hc : Snapshot.checkClass c = .ok ())
    (hg : Name.Disguise cutoff g { n | n ∈ c.mentions }) :
    (∃ p, ClassFingerprint.extract cutoff c = .ok p
      ∧ ClassFingerprint.extract cutoff (c.rename g)
        = .ok { p with name := g c.name }
      ∧ ∀ q, classSimilarity { p with name := g c.name } q
          = classSimilarity p q
        ∧ classSimilarity q { p with name := g c.name }
          = classSimilarity q p)
      ∧ ∀ m ∈ c.methods, ∃ p, MethodFingerprint.extract cutoff c m = .ok p
        ∧ MethodFingerprint.extract cutoff (c.rename g) (m.rename g)
          = .ok { p with key := (c.rename g).methodKey (m.rename g) }
        ∧ ∀ q,
          methodSimilarity
              { p with key := (c.rename g).methodKey (m.rename g) } q
            = methodSimilarity p q
          ∧ methodSimilarity q
              { p with key := (c.rename g).methodKey (m.rename g) }
            = methodSimilarity q p := by
  have hread := (Snapshot.checkClass_eq_ok_iff.1 hc).readable
  have hw : c.Within { n | n ∈ c.mentions } := within_of_mentions fun _ hn => hn
  have hread' : (c.rename g).Readable := hread.rename hg hw
  refine ⟨⟨_, ClassFingerprint.extract_eq_ok cutoff hread, ?_,
    fun q => classSimilarity_named _ q _⟩, fun m hm => ⟨_,
    MethodFingerprint.extract_eq_ok cutoff hread hm, ?_,
    fun q => methodSimilarity_keyed _ q _⟩⟩
  · rw [ClassFingerprint.extract_eq_ok cutoff hread',
      fingerprint_rename hg hread hw]
  · have hm' : m.rename g ∈ (c.rename g).methods :=
      List.mem_map.2 ⟨m, hm, rfl⟩
    rw [MethodFingerprint.extract_eq_ok cutoff hread' hm',
      methodFingerprint_rename hg hread hw hm]

end ClassDecl

namespace Sample

/-- One name for every obfuscated class. -/
def oneName (n : String) : String := if Name.isObfuscated 2 n then "x" else n

theorem disguise_oneName (names : Set String) :
    Name.Disguise 2 oneName names := by
  have hone {n : String} (hn : Name.isObfuscated 2 n = true) :
      oneName n = "x" := if_pos hn
  refine ⟨fun n _ hn => ?_, fun n _ hn => ?_, fun n _ hn => ?_⟩
  · unfold oneName
    rw [hn]
    rfl
  · rw [hone hn]
    decide
  · rw [hone hn]
    decide

/-- A class whose two fields differ in the class they name and in nothing
else. -/
def twoFaces : ClassDecl where
  name := "a"
  kind := .plain
  superName := some "b"
  interfaces := ["Named", "c"]
  fields := [⟨"f", "La;", false, false⟩, ⟨"f", "Lb;", false, false⟩]
  methods := [⟨"m", "([La;)Lb;", true, false,
    [⟨182, .method ⟨"b", "k", "(Lc;)V"⟩⟩]⟩]

end Sample

namespace ClassDecl

/-- The fields of the renamed class can no longer be told apart, and its
fingerprint is what it was. -/
theorem fingerprints_forget_names_twoFaces :
    Sample.oneName "a" = "x" ∧ Sample.oneName "b" = "x"
      ∧ ∃ p, ClassFingerprint.extract 2 Sample.twoFaces = .ok p
        ∧ ClassFingerprint.extract 2 (Sample.twoFaces.rename Sample.oneName)
          = .ok { p with name := "x" } := by
  obtain ⟨⟨p, hp, hp', -⟩, -⟩ := fingerprints_forget_names 2 Sample.oneName
    Sample.twoFaces rfl (Sample.disguise_oneName _)
  exact ⟨by decide, by decide, p, hp, hp'⟩

end ClassDecl

end SymbolMatch
