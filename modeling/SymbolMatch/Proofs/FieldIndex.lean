/-
The analysis of a snapshot loses no field and makes none up.

Fields are collected three times, by passes that do not know of each
other: with what their declarations say, with their profiles, and as the
set that references are looked up in. Each pass keeps one entry for a key.
The check of a snapshot has made sure that no key comes twice
(`nodup_fieldKeys`), so that the three agree and each declaration has one
entry of its own.

Sorting the entries of a class by their positions brings back the order
of the declarations (`fieldsOf_summary`), because in a class the position
tells the entries apart.

The methods that a profile or a use names are those whose code was read,
and the code of every method is read (`mem_methods_iff`).
-/
import SymbolMatch.Proofs.Access.Usage
import SymbolMatch.Proofs.FieldMatch.ClassOrder
import SymbolMatch.Proofs.Ordered.Sort

namespace SymbolMatch.Index

variable {s : Snapshot} {c : ClassDecl} {settings : Settings}

-- ================================================================= keys

/-- The keys of the fields that some classes declare. -/
theorem keys_flatMap_fieldInfos (cs : List ClassDecl) :
    (cs.flatMap fieldInfos).map (·.1)
      = cs.flatMap fun c => c.fields.map c.fieldKey := by
  rw [List.map_flatMap]
  simp only [keys_fieldInfos]

theorem keys_fields_perm (h : s.Valid) :
    (summary settings s).fields.keys.Perm
      (s.classes.flatMap fun c => c.fields.map c.fieldKey) := by
  rw [← keys_flatMap_fieldInfos]
  exact (OrdMap.entries_ofList_perm (nodup_fieldKeys h)).map _

theorem keys_fields_eq (h : s.Valid) :
    (summary settings s).fields.keys
      = (Owners.ofClasses s.classes).declared.elements := by
  refine OrdSet.eq_of_sorted_of_mem_iff (OrdMap.keys_sorted _)
    (OrdSet.sorted _) fun key => ?_
  rw [(keys_fields_perm h).mem_iff, Owners.declared_ofClasses, ← OrdSet.mem_def,
    OrdSet.mem_ofList]

theorem keys_profiles_eq :
    (summary settings s).profiles.keys
      = (Owners.ofClasses s.classes).declared.elements := by
  refine OrdSet.eq_of_sorted_of_mem_iff (OrdMap.keys_sorted _)
    (OrdSet.sorted _) fun key => ?_
  rw [OrdMap.mem_keys_iff]
  constructor
  · rintro ⟨p, hp⟩
    exact (AccessProfile.get?_ofClasses_eq_some_iff.1 hp).1
  · intro hkey
    exact ⟨_, AccessProfile.get?_ofClasses hkey⟩

-- ============================================================ positions

theorem getElem?_fieldInfos (c : ClassDecl) (i : Nat) :
    (fieldInfos c)[i]? = c.fields[i]?.map fun f =>
      (c.fieldKey f, ⟨f.isStatic, f.isFinal, i, c.fields.length⟩) := by
  unfold fieldInfos
  rw [List.getElem?_map, List.getElem?_zipIdx, Option.map_map, Nat.zero_add]
  rfl

/-- The position of an entry is its place. -/
theorem position_of_getElem? {e : Member × FieldInfo} {i : Nat}
    (h : (fieldInfos c)[i]? = some e) : e.2.position = i := by
  rw [getElem?_fieldInfos] at h
  obtain ⟨f, -, rfl⟩ := Option.map_eq_some_iff.1 h
  rfl

theorem eq_of_position_eq {e e' : Member × FieldInfo}
    (he : e ∈ fieldInfos c) (he' : e' ∈ fieldInfos c)
    (h : e.2.position = e'.2.position) : e = e' := by
  obtain ⟨i, hi⟩ := List.mem_iff_getElem?.1 he
  obtain ⟨j, hj⟩ := List.mem_iff_getElem?.1 he'
  rw [position_of_getElem? hi, position_of_getElem? hj] at h
  rw [h, hj] at hi
  exact (Option.some_inj.1 hi).symm

theorem owner_of_mem_fieldInfos {e : Member × FieldInfo}
    (he : e ∈ fieldInfos c) : e.1.owner = c.name := by
  have hkey : e.1 ∈ (fieldInfos c).map (·.1) := List.mem_map.2 ⟨e, he, rfl⟩
  rw [keys_fieldInfos] at hkey
  obtain ⟨f, -, hf⟩ := List.mem_map.1 hkey
  rw [← hf]
  rfl

/-- The entries of one class among those of a snapshot. -/
theorem filter_owner_eq (h : s.Valid) (hc : c ∈ s.classes) :
    (s.classes.flatMap fieldInfos).filter (·.1.owner == c.name)
      = fieldInfos c := by
  obtain ⟨before, after, hsplit⟩ := List.append_of_mem hc
  have hnames : c.name ∉ (before ++ after).map (·.name) := by
    have hdistinct := h.distinct
    unfold Snapshot.names at hdistinct
    rw [hsplit, List.map_append, List.map_cons, List.nodup_middle,
      List.nodup_cons, ← List.map_append] at hdistinct
    exact hdistinct.1
  have hown : (fieldInfos c).filter (·.1.owner == c.name) = fieldInfos c :=
    List.filter_eq_self.2 fun e he =>
      beq_iff_eq.2 (owner_of_mem_fieldInfos he)
  have hothers {ds : List ClassDecl} (hds : ∀ d ∈ ds, d ∈ before ++ after) :
      (ds.flatMap fun d => (fieldInfos d).filter (·.1.owner == c.name)) = [] := by
    rw [List.flatMap_eq_nil_iff]
    intro d hd
    rw [List.filter_eq_nil_iff]
    intro e he howner
    rw [beq_iff_eq, owner_of_mem_fieldInfos he] at howner
    exact hnames (List.mem_map.2 ⟨d, hds d hd, howner⟩)
  rw [List.filter_flatMap, hsplit, List.flatMap_append, List.flatMap_cons, hown,
    hothers fun d hd => List.mem_append_left _ hd,
    hothers fun d hd => List.mem_append_right _ hd, List.nil_append,
    List.append_nil]

/-- The fields of a class, in the order of declaration. -/
theorem fieldsOf_summary (h : s.Valid) (hc : c ∈ s.classes) :
    (summary settings s).fieldsOf c.name = fieldInfos c := by
  have hperm : ((summary settings s).fields.entries.filter
      (·.1.owner == c.name)).Perm (fieldInfos c) := by
    have hall := (OrdMap.entries_ofList_perm (nodup_fieldKeys h)).filter
      (·.1.owner == c.name)
    rw [filter_owner_eq h hc] at hall
    exact hall
  have hsorted : (fieldInfos c).Pairwise fun e e' =>
      compareOn (fun e : Member × FieldInfo => e.2.position) e e' ≠ .gt := by
    rw [List.pairwise_iff_getElem]
    intro i j hi hj hij
    have hfirst := position_of_getElem? (List.getElem?_eq_getElem hi)
    have hsecond := position_of_getElem? (List.getElem?_eq_getElem hj)
    show compare (fieldInfos c)[i].2.position (fieldInfos c)[j].2.position ≠ .gt
    rw [hfirst, hsecond, Nat.compare_ne_gt]
    omega
  unfold fieldsOf
  rw [sortBy_eq_of_perm ?_ hperm, sortBy_of_sorted hsorted]
  intro e he e' he' hcmp
  exact eq_of_position_eq (hperm.mem_iff.1 he) (hperm.mem_iff.1 he')
    (Nat.compare_eq_eq.1 hcmp)

/-- What is no class of the snapshot has no fields. -/
theorem fieldsOf_eq_nil {owner : String} (howner : owner ∉ s.names)
    (h : s.Valid) : (summary settings s).fieldsOf owner = [] := by
  have hnone : (summary settings s).fields.entries.filter (·.1.owner == owner)
      = [] := by
    rw [List.filter_eq_nil_iff]
    intro e he heq
    have hmem := (OrdMap.entries_ofList_perm (nodup_fieldKeys h)).mem_iff.1 he
    obtain ⟨c, hc, hec⟩ := List.mem_flatMap.1 hmem
    rw [beq_iff_eq, owner_of_mem_fieldInfos hec] at heq
    exact howner (List.mem_map.2 ⟨c, hc, heq⟩)
  unfold fieldsOf
  rw [hnone]
  rfl

-- ============================================================== methods

/-- Every declared method has an entry, and nothing else has. -/
theorem mem_methods_iff {key : Member} :
    key ∈ (summary settings s).methods.keys
      ↔ ∃ c ∈ s.classes, ∃ m ∈ c.methods, c.methodKey m = key := by
  unfold summary
  dsimp only
  rw [OrdMap.mem_keys_ofList, List.map_map]
  simp only [List.mem_map, List.mem_flatMap]
  constructor
  · rintro ⟨_, ⟨c, hc, m, hm, rfl⟩, rfl⟩
    exact ⟨c, hc, m, hm, rfl⟩
  · rintro ⟨c, hc, m, hm, rfl⟩
    exact ⟨_, ⟨c, hc, m, hm, rfl⟩, rfl⟩

theorem mem_methods_of_codeUnder {key : Member} {i : Instruction}
    (h : i ∈ codeUnder s.classes key) :
    key ∈ (summary settings s).methods.keys := by
  obtain ⟨c, hc, m, hm, hkey, -⟩ := mem_codeUnder.1 h
  exact mem_methods_iff.2 ⟨c, hc, m, hm, hkey⟩

/-- The methods of a profile. -/
theorem mem_methods_of_profile {field m : Member} {p : AccessProfile}
    (hp : (summary settings s).profiles.get? field = some p)
    (hm : m ∈ p.readMethods ∨ m ∈ p.writeMethods) :
    m ∈ (summary settings s).methods.keys := by
  obtain ⟨-, rfl⟩ := AccessProfile.get?_ofClasses_eq_some_iff.1 hp
  rw [AccessProfile.mem_readMethods, AccessProfile.mem_writeMethods,
    Access.mem_flatMap_ofClass_iff fun _ _ _ _ => Access.read_mem_kindsAt,
    Access.mem_flatMap_ofClass_iff fun _ _ _ _ => Access.write_mem_kindsAt] at hm
  rcases hm with ⟨i, hi, -⟩ | ⟨i, hi, -⟩
  · exact mem_methods_of_codeUnder hi
  · exact mem_methods_of_codeUnder hi

/-- The methods that use a field, declared or not. -/
theorem mem_methods_of_usage {field m : Member}
    (h : m ∈ (summary settings s).usage.methodsUsing field) :
    m ∈ (summary settings s).methods.keys := by
  have hmem := FieldUsage.mem_methodsUsing_ofRefs.1 h
  unfold FieldUsage.scanClass at hmem
  simp only [List.mem_flatMap, List.mem_map] at hmem
  obtain ⟨c, hc, body, hbody, key, -, heq⟩ := hmem
  exact mem_methods_iff.2 ⟨c, hc, body, hbody, congrArg Prod.snd heq⟩

-- ========================================================== the theorem

/-- Whatever the settings, the analysis of an accepted snapshot has one
entry and one profile for each declared field and none for anything else,
gives back the fields of each class as they were declared, and names no
method that it has not analysed. -/
theorem keeps_every_field (settings : Settings) (cs : List ClassDecl)
    (s : Snapshot) (hs : Snapshot.ofClasses cs = .ok s) :
    ∃ x, build settings s = .ok x
      ∧ x.classNames = cs.map (·.name)
      ∧ (cs.flatMap fun c => c.fields.map c.fieldKey).Nodup
      ∧ x.fields.keys.Perm (cs.flatMap fun c => c.fields.map c.fieldKey)
      ∧ x.fields.keys = (Owners.ofClasses cs).declared.elements
      ∧ x.profiles.keys = (Owners.ofClasses cs).declared.elements
      ∧ (∀ c ∈ cs, ∀ i, (x.fieldsOf c.name)[i]? = c.fields[i]?.map fun f =>
        (c.fieldKey f, FieldInfo.mk f.isStatic f.isFinal i c.fields.length))
      ∧ (∀ owner, owner ∉ cs.map (·.name) → x.fieldsOf owner = [])
      ∧ (∀ field p m, x.profiles.get? field = some p →
        m ∈ p.readMethods ∨ m ∈ p.writeMethods → m ∈ x.methods.keys)
      ∧ ∀ field m, m ∈ x.usage.methodsUsing field → m ∈ x.methods.keys := by
  obtain ⟨rfl, hvalid⟩ := Snapshot.ofClasses_eq_ok_iff.1 hs
  have hperm : (summary settings s).fields.keys.Perm _ :=
    keys_fields_perm hvalid
  refine ⟨_, build_eq_ok settings hvalid, classNames_summary settings s,
    hperm.nodup_iff.1 (OrdMap.nodup_keys _), hperm, keys_fields_eq hvalid,
    keys_profiles_eq, ?_, ?_, ?_, ?_⟩
  · intro c hc i
    rw [fieldsOf_summary hvalid hc, getElem?_fieldInfos]
  · intro owner howner
    exact fieldsOf_eq_nil howner hvalid
  · intro field p m hp hm
    exact mem_methods_of_profile hp hm
  · intro field m hm
    exact mem_methods_of_usage hm

end SymbolMatch.Index

namespace SymbolMatch.Sample

/-- Two classes that declare a field of one name. The first declares its
fields against the order of their keys, and its method refers to a field
that neither declares. -/
def overlapping : List ClassDecl :=
  [{ heir "ab" (some "cd") ["b", "a"] with
      methods := [⟨"t", "()V", false, false,
        [⟨180, .field ⟨"ab", "a", "I"⟩⟩, ⟨180, .field ⟨"ef", "a", "I"⟩⟩]⟩] },
   heir "cd" none ["a"]]

end SymbolMatch.Sample

namespace SymbolMatch.Index

/-- Three fields are kept, those of the first class as it declares them. -/
theorem keeps_every_field_overlapping :
    Snapshot.ofClasses Sample.overlapping = .ok ⟨Sample.overlapping⟩
      ∧ ∃ x, build .default ⟨Sample.overlapping⟩ = .ok x
      ∧ x.classNames = ["ab", "cd"]
      ∧ x.fields.keys.length = 3 ∧ x.profiles.keys = x.fields.keys
      ∧ (x.fieldsOf "ab")[0]? = some (⟨"ab", "b", "I"⟩, ⟨false, false, 0, 2⟩)
      ∧ (x.fieldsOf "ab")[1]? = some (⟨"ab", "a", "I"⟩, ⟨false, false, 1, 2⟩)
      ∧ (x.fieldsOf "ab")[2]? = none ∧ x.fieldsOf "ef" = [] := by
  have hs : Snapshot.ofClasses Sample.overlapping
      = .ok ⟨Sample.overlapping⟩ := rfl
  obtain ⟨x, hx, hnames, -, hperm, hfields, hprofiles, hdeclared, hnone, -, -⟩ :=
    keeps_every_field .default Sample.overlapping _ hs
  have hfirst := hdeclared _ List.mem_cons_self
  exact ⟨hs, x, hx, hnames, hperm.length_eq, hprofiles.trans hfields.symm,
    hfirst 0, hfirst 1, hfirst 2, hnone "ef" (by decide)⟩

end SymbolMatch.Index
