/-
The order of the classes of a snapshot does not reach the matching of
fields. What that reads of a snapshot is a set of declared fields, maps
whose keys come from different classes, counts, and sets of methods; none
of these depends on the order in which the classes are gone through.

The order of the fields of one class does matter here, since a field's
place among them is one of the things that are compared.
-/
import SymbolMatch.Proofs.Access.Owners
import SymbolMatch.Proofs.Summary
import SymbolMatch.Resolver

namespace SymbolMatch

variable {cs cs' : List ClassDecl}

-- =============================================================== usage

namespace FieldUsage

/-- Two references may be added in either order. -/
theorem absorb_comm (u : OrdMap Member (OrdSet Member))
    (a b : Member × Member) :
    absorb (absorb u a) b = absorb (absorb u b) a := by
  refine OrdMap.ext_get? fun k => ?_
  unfold absorb
  simp only [OrdMap.get?_alter]
  by_cases hab : a.1 = b.1
  · by_cases hk : k = b.1
    · simp only [hk, hab, if_true, Option.getD_some, Option.some.injEq]
      refine OrdSet.ext fun m => ?_
      simp only [OrdSet.mem_insert]
      exact or_left_comm
    · simp [hk, hab]
  · by_cases hka : k = a.1
    · simp [hka, hab]
    · by_cases hkb : k = b.1
      · simp [hkb, Ne.symm hab]
      · simp [hka, hkb]

theorem ofRefs_eq_of_perm {refs refs' : List (Member × Member)}
    (hp : refs.Perm refs') : ofRefs refs = ofRefs refs' := by
  unfold ofRefs
  rw [hp.foldl_eq' fun a _ b _ u => absorb_comm u a b]

end FieldUsage

-- ============================================================ profiles

namespace AccessProfile

theorem ofAccesses_eq_of_perm {accesses accesses' : List Access}
    (hp : accesses.Perm accesses') (field : Member) :
    ofAccesses accesses field = ofAccesses accesses' field := by
  have hmine := hp.filter (·.field = field)
  have hcounts : AccessCounts.tally
        ((accesses.filter (·.field = field)).map (·.kind))
      = AccessCounts.tally
        ((accesses'.filter (·.field = field)).map (·.kind)) := by
    unfold AccessCounts.tally
    simp only [(hmine.map _).count_eq]
  unfold ofAccesses
  simp only [hcounts, OrdSet.ofList_eq_of_perm ((hmine.filter _).map _)]

theorem ofClasses_eq_of_perm (owners : Owners) (hp : cs.Perm cs') :
    ofClasses owners cs = ofClasses owners cs' := by
  unfold ofClasses
  simp only [ofAccesses_eq_of_perm (hp.flatMap_right _)]

end AccessProfile

-- ======================================================= declared fields

namespace Index

variable {s s' : Snapshot} (settings : Settings)

theorem keys_fieldInfos (c : ClassDecl) :
    (fieldInfos c).map (·.1) = c.fields.map c.fieldKey := by
  unfold fieldInfos
  rw [List.map_map]
  have hfst : (c.fields.zipIdx.map fun p => c.fieldKey p.1)
      = (c.fields.zipIdx.map (·.1)).map c.fieldKey := by
    rw [List.map_map]
    rfl
  rw [List.zipIdx_map_fst] at hfst
  exact hfst

/-- No field of a valid snapshot is declared twice. -/
theorem nodup_fieldKeys (h : s.Valid) :
    ((s.classes.flatMap fieldInfos).map (·.1)).Nodup := by
  rw [List.map_flatMap]
  simp only [keys_fieldInfos]
  refine List.nodup_flatMap.2 ⟨fun c hc => (h.classes c hc).distinct, ?_⟩
  -- fields of different classes have different owners
  refine (List.pairwise_map.1 h.distinct).imp fun {c d} hne key hc hd => ?_
  obtain ⟨_, _, rfl⟩ := List.mem_map.1 hc
  obtain ⟨_, _, heq⟩ := List.mem_map.1 hd
  exact hne (congrArg Member.owner heq).symm

/-- Indexes with the same fields, used and accessed in the same way. -/
structure SameFields (x x' : Index) : Prop where
  fields : x'.fields = x.fields
  profiles : x'.profiles = x.profiles
  usage : x'.usage = x.usage

/-- Snapshots with the same classes declare and use the same fields. -/
theorem sameFields_of_perm (h : s.Valid) (hp : s.classes.Perm s'.classes) :
    (summary settings s).SameFields (summary settings s') := by
  have howners : Owners.ofClasses s'.classes = Owners.ofClasses s.classes :=
    (Owners.ofClasses_eq_of_perm h.distinct hp).symm
  refine ⟨?_, ?_, ?_⟩ <;> unfold summary <;> dsimp only
  · exact (OrdMap.ofList_eq_of_perm (nodup_fieldKeys h)
      (hp.flatMap_right _)).symm
  · rw [howners]
    exact (AccessProfile.ofClasses_eq_of_perm _ hp).symm
  · rw [howners]
    exact (FieldUsage.ofRefs_eq_of_perm (hp.flatMap_right _)).symm

end Index

-- ============================================================ resolution

namespace FieldContext

/-- The types of the fields of a valid snapshot can be read. -/
theorem typesOf_eq_ok (settings : Settings) {s : Snapshot} (h : s.Valid) :
    ∃ types, typesOf (.summary settings s) = .ok types := by
  refine ⟨_, Outcome.mapM_eq_ok_map fun key hkey =>
    Outcome.bind_eq_ok_iff.2 ⟨Descriptor.fieldType key.descriptor, ?_, rfl⟩⟩
  have hmem := OrdMap.mem_keys_ofList.1 hkey
  rw [List.map_flatMap, List.mem_flatMap] at hmem
  obtain ⟨c, hc, hkey⟩ := hmem
  rw [Index.keys_fieldInfos] at hkey
  obtain ⟨f, hf, rfl⟩ := List.mem_map.1 hkey
  exact ((h.classes c hc).fields f hf).read

/-- The context for fields whose types have been read. -/
def ofTypes (settings : Settings) (old new : Index) (classes : ClassMapping)
    (methods : OrdMap Member Member)
    (oldTypes newTypes : List (Member × TypeDesc)) : FieldContext where
  settings := settings
  old := old
  new := new
  classes := classes
  methods := methods
  oldTypes := OrdMap.ofList oldTypes
  renamedTypes := OrdMap.ofList (oldTypes.map fun (f, t) =>
    (f, t.mapClasses (Descriptor.renamed classes.newName?)))
  newTypes := OrdMap.ofList newTypes
  oldSiblings := old.usage.siblings
  newShapes := shapesOf new

section Congr

variable (ctx : FieldContext) {old' new' : Index}
  (hold : ctx.old.SameFields old') (hnew : ctx.new.SameFields new')
include hold hnew

theorem scoreWithin_congr (s : Surroundings) (old new : Member) :
    scoreWithin { ctx with old := old', new := new' } s old new
      = ctx.scoreWithin s old new := by
  unfold scoreWithin ownerScore sameOwner usageScore coOccurrenceScore
    volumeScore behaviourScore
  simp only [hold.fields, hold.profiles, hold.usage, hnew.fields,
    hnew.profiles, hnew.usage]

omit hnew in
theorem surroundings_congr (old : Member) :
    surroundings { ctx with old := old', new := new' } old
      = ctx.surroundings old := by
  unfold surroundings
  simp only [hold.usage]
  rfl

/-- The resolution reads the fields, the profiles and the usage of an
index, and nothing else of it. -/
theorem resolve_congr :
    resolve { ctx with old := old', new := new' } = ctx.resolve := by
  have hcompatible (old : Member) :
      compatible { ctx with old := old', new := new' } old
        = ctx.compatible old := by
    unfold compatible
    simp only [ctx.surroundings_congr hold, hnew.fields,
      ctx.scoreWithin_congr hold hnew]
  have hfixed (old : Member) :
      fixedCandidate? { ctx with old := old', new := new' } old
        = ctx.fixedCandidate? old := by
    unfold fixedCandidate?
    simp only [hnew.fields]
  unfold resolve candidatesFor
  simp only [hcompatible, hfixed, hold.fields]

end Congr

end FieldContext

namespace Resolver

variable {r : Resolver} {old old' new new' : Index} {classes : ClassMapping}
  {methods : OrdMap Member Member}

theorem matchFields_eq_ok {oldTypes newTypes : List (Member × TypeDesc)}
    (hold : FieldContext.typesOf old = .ok oldTypes)
    (hnew : FieldContext.typesOf new = .ok newTypes) :
    r.matchFields old new classes methods
      = .ok (FieldContext.ofTypes r.settings old new classes methods oldTypes
        newTypes).resolve := by
  unfold matchFields fieldContext FieldContext.build
  rw [hold, hnew]
  rfl

/-- Fields are matched in the same way on indexes with the same
fields. -/
theorem matchFields_congr {oldTypes newTypes : List (Member × TypeDesc)}
    (holdTypes : FieldContext.typesOf old = .ok oldTypes)
    (hnewTypes : FieldContext.typesOf new = .ok newTypes)
    (hold : old.SameFields old') (hnew : new.SameFields new') :
    r.matchFields old' new' classes methods
      = r.matchFields old new classes methods := by
  have holdTypes' : FieldContext.typesOf old' = .ok oldTypes := by
    rw [← holdTypes]
    unfold FieldContext.typesOf
    rw [hold.fields]
  have hnewTypes' : FieldContext.typesOf new' = .ok newTypes := by
    rw [← hnewTypes]
    unfold FieldContext.typesOf
    rw [hnew.fields]
  have hctx : FieldContext.ofTypes r.settings old' new' classes methods
        oldTypes newTypes
      = { FieldContext.ofTypes r.settings old new classes methods oldTypes
          newTypes with old := old', new := new' } := by
    unfold FieldContext.ofTypes FieldContext.shapesOf
    rw [hold.usage, hnew.usage]
  rw [matchFields_eq_ok holdTypes hnewTypes,
    matchFields_eq_ok holdTypes' hnewTypes', hctx,
    FieldContext.resolve_congr _ hold hnew]

/-- Fields are matched in the same way whatever the order of the
classes. -/
theorem matchFields_of_perm (r : Resolver) {old old' new new' : Snapshot}
    (holdValid : old.Valid) (hnewValid : new.Valid)
    (hold : old.classes.Perm old'.classes)
    (hnew : new.classes.Perm new'.classes) (classes : ClassMapping)
    (methods : OrdMap Member Member) :
    ∃ resolution,
      r.matchFields (.summary r.settings old) (.summary r.settings new)
          classes methods = .ok resolution
        ∧ r.matchFields (.summary r.settings old') (.summary r.settings new')
          classes methods = .ok resolution := by
  obtain ⟨oldTypes, holdTypes⟩ :=
    FieldContext.typesOf_eq_ok r.settings holdValid
  obtain ⟨newTypes, hnewTypes⟩ :=
    FieldContext.typesOf_eq_ok r.settings hnewValid
  refine ⟨_, matchFields_eq_ok holdTypes hnewTypes, ?_⟩
  rw [matchFields_congr holdTypes hnewTypes
    (Index.sameFields_of_perm r.settings holdValid hold)
    (Index.sameFields_of_perm r.settings hnewValid hnew),
    matchFields_eq_ok holdTypes hnewTypes]

end Resolver

end SymbolMatch
