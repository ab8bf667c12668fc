/-
Nothing that is reported depends on the names an obfuscator chose, only
on their order. Renaming the obfuscated classes of either build all over
its snapshot, by other obfuscated names in the same order, renames the
report on the two builds and changes nothing else in it.

A renamed class is as valid as the class it came from, has its
fingerprint and its uses under the new names, and so a renamed snapshot
mirrors the snapshot it came from. For one class the order of the names
does not matter (`Name.Recoding`); it does for a snapshot, where it
decides which class comes first.
-/
import SymbolMatch.Proofs.Fingerprint
import SymbolMatch.Proofs.Matching.Analysis

namespace SymbolMatch

open Descriptor (IsName fieldType methodType fieldNames methodNames)

-- ====================================================== renamed snapshots

def Snapshot.rename (g : String → String) (s : Snapshot) : Snapshot :=
  ⟨s.classes.map (ClassDecl.rename g)⟩

/-- The classes that occur anywhere in a snapshot. -/
def Snapshot.mentions (s : Snapshot) : List String :=
  s.classes.flatMap ClassDecl.mentions

theorem Snapshot.within_mentions {s : Snapshot} {c : ClassDecl}
    (hc : c ∈ s.classes) : c.Within { n | n ∈ s.mentions } :=
  ClassDecl.within_of_mentions fun _ hn => List.mem_flatMap.2 ⟨c, hc, hn⟩

-- ============================================================== renamings

/-- A renaming of classes: stable names stay, obfuscated names become
obfuscated names in the same order that can stand in a descriptor, and
the platform keeps its classes. -/
structure Name.Renaming (settings : Settings) (g : String → String)
    (names : Set String) : Prop extends
    Name.Orderly (Name.isObfuscated settings.maxObfuscatedLength) g names where
  isName : ∀ n ∈ names,
    Name.isObfuscated settings.maxObfuscatedLength n = true → IsName (g n)
  platform : ∀ n ∈ names, settings.isPlatform (g n) = settings.isPlatform n

instance (settings : Settings) (g : String → String) (ns : List String) :
    Decidable (Name.Renaming settings g { n | n ∈ ns }) :=
  decidable_of_iff
    ((∀ n ∈ ns, Name.isObfuscated settings.maxObfuscatedLength n = false →
        g n = n)
      ∧ (∀ n ∈ ns, Name.isObfuscated settings.maxObfuscatedLength n = true →
        Name.isObfuscated settings.maxObfuscatedLength (g n) = true)
      ∧ (∀ a ∈ ns, ∀ b ∈ ns,
        Name.isObfuscated settings.maxObfuscatedLength a = true →
        Name.isObfuscated settings.maxObfuscatedLength b = true →
        a < b → g a < g b)
      ∧ (∀ n ∈ ns, Name.isObfuscated settings.maxObfuscatedLength n = true →
        IsName (g n))
      ∧ ∀ n ∈ ns, settings.isPlatform (g n) = settings.isPlatform n)
    ⟨fun ⟨hstable, hobfuscated, hincreasing, hname, hplatform⟩ =>
      ⟨⟨hstable, hobfuscated, hincreasing⟩, hname, hplatform⟩,
    fun h => ⟨h.stable, h.obfuscated, h.increasing, h.isName, h.platform⟩⟩

/-- A renaming that keeps names apart but need not keep their order. -/
structure Name.Recoding (settings : Settings) (g : String → String)
    (names : Set String) : Prop where
  stable : ∀ n ∈ names,
    Name.isObfuscated settings.maxObfuscatedLength n = false → g n = n
  obfuscated : ∀ n ∈ names,
    Name.isObfuscated settings.maxObfuscatedLength n = true →
      Name.isObfuscated settings.maxObfuscatedLength (g n) = true
  injOn : Set.InjOn g names
  isName : ∀ n ∈ names,
    Name.isObfuscated settings.maxObfuscatedLength n = true → IsName (g n)
  platform : ∀ n ∈ names, settings.isPlatform (g n) = settings.isPlatform n

instance (settings : Settings) (g : String → String) (ns : List String) :
    Decidable (Name.Recoding settings g { n | n ∈ ns }) :=
  decidable_of_iff
    ((∀ n ∈ ns, Name.isObfuscated settings.maxObfuscatedLength n = false →
        g n = n)
      ∧ (∀ n ∈ ns, Name.isObfuscated settings.maxObfuscatedLength n = true →
        Name.isObfuscated settings.maxObfuscatedLength (g n) = true)
      ∧ (∀ a ∈ ns, ∀ b ∈ ns, g a = g b → a = b)
      ∧ (∀ n ∈ ns, Name.isObfuscated settings.maxObfuscatedLength n = true →
        IsName (g n))
      ∧ ∀ n ∈ ns, settings.isPlatform (g n) = settings.isPlatform n)
    ⟨fun ⟨hstable, hobfuscated, hinj, hname, hplatform⟩ =>
      ⟨hstable, hobfuscated, fun a ha b hb => hinj a ha b hb, hname,
        hplatform⟩,
    fun h => ⟨h.stable, h.obfuscated, fun _ ha _ hb => h.injOn ha hb,
      h.isName, h.platform⟩⟩

variable {settings : Settings} {g : String → String} {names : Set String}

theorem Name.Renaming.recoding (h : Name.Renaming settings g names) :
    Name.Recoding settings g names :=
  ⟨h.stable, h.obfuscated, h.injOn, h.isName, h.platform⟩

theorem Name.Recoding.disguise (h : Name.Recoding settings g names) :
    Name.Disguise settings.maxObfuscatedLength g names :=
  ⟨h.stable, h.obfuscated, h.isName⟩

theorem Name.Recoding.tracked?_mapClasses
    (h : Name.Recoding settings g names) {t : TypeDesc}
    (ht : ∀ n, t.className? = some n → n ∈ names) :
    ClassUsage.tracked? settings (t.mapClasses g)
      = (ClassUsage.tracked? settings t).map g := by
  unfold ClassUsage.tracked?
  rw [TypeDesc.className?_mapClasses]
  cases hn : t.className? with
  | none => rfl
  | some n =>
    rw [Option.map_some, Option.filter_some, Option.filter_some,
      h.platform n (ht n hn)]
    split <;> rfl

/-- A change that a reading sees as another change. -/
private theorem map_map_eq_map_map {α β : Type} {change : α → α}
    {read : α → β} {change' : β → β} {xs : List α}
    (h : ∀ x ∈ xs, read (change x) = change' (read x)) :
    (xs.map change).map read = (xs.map read).map change' := by
  rw [List.map_map, List.map_map]
  exact List.map_congr_left h

-- ====================================================== validity and usage

section Recoded

variable (h : Name.Recoding settings g names)
include h

namespace ClassDecl

variable {c : ClassDecl} (hc : c.Valid) (hw : c.Within names)
include hc hw

/-- Fields of a class that differ still differ after a renaming, which
may change nothing but their descriptors. -/
theorem nodup_fieldKeys_rename :
    ((c.rename g).fields.map (c.rename g).fieldKey).Nodup := by
  have hapart := List.inj_on_of_nodup_map hc.distinct
  unfold ClassDecl.rename
  rw [List.map_map]
  refine (hc.distinct.of_map _).map_on fun a ha b hb heq => ?_
  injection heq with _ hname hdescriptor
  refine hapart ha hb ?_
  have htext : a.descriptor = b.descriptor :=
    Descriptor.renamedField_injOn h.injOn (hc.fields a ha) (hc.fields b hb)
      (hw.fields a ha) (hw.fields b hb)
      (h.disguise.isName_field (hc.fields a ha) (hw.fields a ha))
      (h.disguise.isName_field (hc.fields b hb) (hw.fields b hb)) hdescriptor
  unfold fieldKey
  rw [htext, show a.name = b.name from hname]

/-- A renamed class is as valid as before. -/
theorem Valid.rename : (c.rename g).Valid :=
  have hreadable := hc.readable.rename h.disguise hw
  { name := h.disguise.ne_empty hw.name hc.name
    fields := hreadable.fields
    distinct := nodup_fieldKeys_rename h hc hw
    methods := hreadable.methods
    code := hreadable.code }

theorem fieldType_rename {f : FieldDecl} (hf : f ∈ c.fields) :
    fieldType (f.rename g).descriptor
      = (fieldType f.descriptor).mapClasses g :=
  Descriptor.fieldType_eq
    (h.disguise.read_field (hc.fields f hf) (hw.fields f hf))

theorem methodType_rename {m : MethodDecl} (hm : m ∈ c.methods) :
    methodType (m.rename g).descriptor
      = (methodType m.descriptor).mapClasses g :=
  Descriptor.methodType_eq
    (h.disguise.read_method (hc.methods m hm) (hw.methods m hm))

/-- A renamed class uses the renamed classes. -/
theorem usage_rename :
    (ClassUsage.summary settings c).Mirrors g
      (ClassUsage.summary settings (c.rename g)) := by
  have hfields : (c.rename g).fields.map (fun f => fieldType f.descriptor)
      = (c.fields.map fun f => fieldType f.descriptor).map
        (TypeDesc.mapClasses g) :=
    map_map_eq_map_map fun f hf => fieldType_rename h hc hw hf
  have hmethods : (c.rename g).methods.map (fun m => methodType m.descriptor)
      = (c.methods.map fun m => methodType m.descriptor).map
        (MethodDesc.mapClasses g) :=
    map_map_eq_map_map fun m hm => methodType_rename h hc hw hm
  have hparams : ((c.rename g).methods.map fun m =>
        methodType m.descriptor).flatMap (·.params)
      = ((c.methods.map fun m => methodType m.descriptor).flatMap
        (·.params)).map (TypeDesc.mapClasses g) := by
    rw [hmethods, List.flatMap_map, List.map_flatMap]
    rfl
  -- The platform keeps its classes, so the same places are tracked.
  refine ⟨rfl, .of_eq ?_, .of_eq ?_, .of_eq ?_⟩
  · unfold ClassUsage.summary
    rw [hfields]
    refine filterMap_map_eq_map fun t ht => h.tracked?_mapClasses ?_
    obtain ⟨f, hf, rfl⟩ := List.mem_map.1 ht
    exact fun n hn => hw.fields f hf n (Descriptor.mem_fieldNames.2 hn)
  · unfold ClassUsage.summary
    rw [hparams]
    refine filterMap_map_eq_map fun t ht => h.tracked?_mapClasses ?_
    obtain ⟨d, hd, ht⟩ := List.mem_flatMap.1 ht
    obtain ⟨m, hm, rfl⟩ := List.mem_map.1 hd
    exact fun n hn => hw.methods m hm n
      (MethodDesc.mem_classNames_of_param ht hn)
  · unfold ClassUsage.summary
    rw [hmethods]
    refine filterMap_map_eq_map fun d hd => ?_
    obtain ⟨m, hm, rfl⟩ := List.mem_map.1 hd
    unfold MethodDesc.mapClasses
    cases hresult : (methodType m.descriptor).result with
    | none => rfl
    | some t =>
      exact h.tracked?_mapClasses fun n hn => hw.methods m hm n
        (MethodDesc.mem_classNames_of_result hresult hn)

theorem mirrors_rename : c.Mirrors settings g (c.rename g) :=
  ⟨fingerprint_rename h.disguise hc.readable hw, usage_rename h hc hw⟩

end ClassDecl

/-- A renamed snapshot is as valid as before. -/
theorem Snapshot.Valid.rename {s : Snapshot} (hs : s.Valid)
    (hw : ∀ c ∈ s.classes, c.Within names) : (s.rename g).Valid where
  classes := fun _ hmem => by
    obtain ⟨c, hc, rfl⟩ := List.mem_map.1 hmem
    exact ClassDecl.Valid.rename h (hs.classes c hc) (hw c hc)
  distinct := by
    have hnames : (s.rename g).names = s.names.map g :=
      map_map_eq_map_map fun c _ => rfl
    rw [hnames]
    refine hs.distinct.map_on fun a ha b hb heq => ?_
    obtain ⟨c, hc, rfl⟩ := List.mem_map.1 ha
    obtain ⟨d, hd, rfl⟩ := List.mem_map.1 hb
    exact h.injOn (hw c hc).name (hw d hd).name heq

end Recoded

-- ============================================================== snapshots

/-- What is tracked is a class that a type names, and not the
platform's. -/
theorem ClassUsage.tracked?_eq_some_iff {t : TypeDesc} {n : String} :
    tracked? settings t = some n
      ↔ t.className? = some n ∧ settings.isPlatform n = false := by
  unfold tracked?
  rw [Option.filter_eq_some_iff, Bool.not_eq_true']

/-- The classes that the fields of a class refer to. -/
theorem ClassUsage.of_mem_fieldRefs {c : ClassDecl} {n : String}
    (hn : n ∈ (summary settings c).fieldRefs) :
    settings.isPlatform n = false
      ∧ ∃ f ∈ c.fields, n ∈ fieldNames f.descriptor := by
  obtain ⟨t, ht, hn⟩ := List.mem_filterMap.1 hn
  obtain ⟨f, hf, rfl⟩ := List.mem_map.1 ht
  obtain ⟨hname, hplatform⟩ := tracked?_eq_some_iff.1 hn
  exact ⟨hplatform, f, hf, Descriptor.mem_fieldNames.2 hname⟩

/-- The classes that the methods of a class refer to. -/
theorem ClassUsage.of_mem_methodRefs {c : ClassDecl} {n : String}
    (hn : n ∈ (summary settings c).paramRefs
      ∨ n ∈ (summary settings c).returnRefs) :
    settings.isPlatform n = false
      ∧ ∃ m ∈ c.methods, n ∈ methodNames m.descriptor := by
  rcases hn with hn | hn
  · obtain ⟨t, ht, hn⟩ := List.mem_filterMap.1 hn
    obtain ⟨d, hd, ht⟩ := List.mem_flatMap.1 ht
    obtain ⟨m, hm, rfl⟩ := List.mem_map.1 hd
    obtain ⟨hname, hplatform⟩ := tracked?_eq_some_iff.1 hn
    exact ⟨hplatform, m, hm, MethodDesc.mem_classNames_of_param ht hname⟩
  · obtain ⟨d, hd, hn⟩ := List.mem_filterMap.1 hn
    obtain ⟨m, hm, rfl⟩ := List.mem_map.1 hd
    obtain ⟨t, ht, hn⟩ := Option.bind_eq_some_iff.1 hn
    obtain ⟨hname, hplatform⟩ := tracked?_eq_some_iff.1 hn
    exact ⟨hplatform, m, hm, MethodDesc.mem_classNames_of_result ht hname⟩

/-- What a class refers to is among the classes it names. -/
theorem ClassDecl.Within.mem_of_ref {c : ClassDecl} (hw : c.Within names)
    {n : String}
    (hn : n = (ClassUsage.summary settings c).name
      ∨ n ∈ (ClassUsage.summary settings c).fieldRefs
      ∨ n ∈ (ClassUsage.summary settings c).paramRefs
      ∨ n ∈ (ClassUsage.summary settings c).returnRefs) : n ∈ names := by
  rcases hn with rfl | hn | hn
  · exact hw.name
  · obtain ⟨-, f, hf, hn⟩ := ClassUsage.of_mem_fieldRefs hn
    exact hw.fields f hf n hn
  · obtain ⟨-, m, hm, hn⟩ := ClassUsage.of_mem_methodRefs hn
    exact hw.methods m hm n hn

/-- A renamed snapshot mirrors the snapshot. -/
theorem Snapshot.mirrors_rename {s : Snapshot} (hs : s.Valid)
    (h : Name.Renaming settings g { n | n ∈ s.mentions }) :
    s.Mirrors settings g (s.rename g) where
  valid := hs
  valid' := hs.rename h.recoding fun _ hc => within_mentions hc
  classes := .of_map fun c hc =>
    ClassDecl.mirrors_rename h.recoding (hs.classes c hc) (within_mentions hc)
  orderly := by
    refine h.toOrderly.mono fun n hn => ?_
    obtain ⟨u, hu, hn⟩ := Index.exists_usage_of_mem_names hs.distinct hn
    obtain ⟨c, hc, rfl⟩ := List.mem_map.1 hu
    exact (within_mentions hc).mem_of_ref hn

namespace Sample

/-- Other names for the obfuscated classes of `before`. -/
def renameOld : String → String
  | "a/b" => "q/m"
  | "a/c" => "q/n"
  | name => name

/-- Other names for the obfuscated classes of `after`. -/
def renameNew : String → String
  | "a/d" => "c/x"
  | "a/e" => "d"
  | name => name

end Sample

namespace Resolver

-- ============================================================ the theorem

/-- The report on renamed snapshots is the renamed report. The renamed
snapshots are accepted, and the renamed mapping holds the renamed matches
and no others. -/
theorem matchSnapshots_equivariant (settings : Settings) (r : Resolver)
    (g f : String → String) (olds news : List ClassDecl)
    (old new : Snapshot) (hr : ofSettings settings = .ok r)
    (hold : Snapshot.ofClasses olds = .ok old)
    (hnew : Snapshot.ofClasses news = .ok new)
    (hg : Name.Renaming settings g { n | n ∈ old.mentions })
    (hf : Name.Renaming settings f { n | n ∈ new.mentions }) :
    ∃ old' new' report,
      Snapshot.ofClasses (olds.map (ClassDecl.rename g)) = .ok old'
      ∧ Snapshot.ofClasses (news.map (ClassDecl.rename f)) = .ok new'
      ∧ r.matchSnapshots old new = .ok report
      ∧ r.matchSnapshots old' new' = .ok (report.relabel g f)
      ∧ (report.relabel g f).mapping.toList.Perm
        (report.mapping.toList.map (ClassMatch.relabel g f)) := by
  obtain ⟨rfl, holdValid⟩ := Snapshot.ofClasses_eq_ok_iff.1 hold
  obtain ⟨rfl, hnewValid⟩ := Snapshot.ofClasses_eq_ok_iff.1 hnew
  have hmold := Snapshot.mirrors_rename holdValid hg
  have hmnew := Snapshot.mirrors_rename hnewValid hf
  refine ⟨old.rename g, new.rename f, _,
    Snapshot.ofClasses_eq_ok_iff.2 ⟨rfl, hmold.valid'⟩,
    Snapshot.ofClasses_eq_ok_iff.2 ⟨rfl, hmnew.valid'⟩,
    matchSnapshots_eq_ok hr holdValid hnewValid,
    matchSnapshots_mirrors hr hmold hmnew,
    ClassMapping.toList_relabel_perm (Context.nodup_olds _ _)
      (hg.injOn.mono fun n hn => ?_)⟩
  -- The old names in the report are declared, so they occur.
  obtain ⟨c, hc, rfl⟩ := List.mem_map.1 hn
  have hget := (ClassMapping.get?_keyed (Context.nodup_olds _ _)).2 ⟨hc, rfl⟩
  obtain ⟨d, hd, hname⟩ := List.mem_map.1
    (Context.faithful_reportOf.declared c.old c hget).1
  exact hname ▸ (Snapshot.within_mentions hd).name

theorem matchSnapshots_equivariant_sample :
    ∃ old' new' report,
      Snapshot.ofClasses (Sample.before.map (.rename Sample.renameOld))
        = .ok old'
      ∧ Snapshot.ofClasses (Sample.after.map (.rename Sample.renameNew))
        = .ok new'
      ∧ (⟨.default⟩ : Resolver).matchSnapshots ⟨Sample.before⟩ ⟨Sample.after⟩
        = .ok report
      ∧ (⟨.default⟩ : Resolver).matchSnapshots old' new'
        = .ok (report.relabel Sample.renameOld Sample.renameNew)
      ∧ (report.relabel Sample.renameOld
          Sample.renameNew).mapping.toList.Perm (report.mapping.toList.map
            (ClassMatch.relabel Sample.renameOld Sample.renameNew)) :=
  matchSnapshots_equivariant .default ⟨.default⟩ Sample.renameOld
    Sample.renameNew Sample.before Sample.after ⟨Sample.before⟩
    ⟨Sample.after⟩ ofSettings_default Sample.ofClasses_before
    Sample.ofClasses_after (by decide +kernel) (by decide +kernel)

end Resolver

end SymbolMatch
