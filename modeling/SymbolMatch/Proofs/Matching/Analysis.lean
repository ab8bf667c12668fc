/-
From classes to a run. Two classes mirror each other if their analyses
do; the analyses of snapshots whose classes mirror each other, in any
order, mirror each other, and so the report on such snapshots is the
renamed report.
-/
import SymbolMatch.Proofs.Evidence
import SymbolMatch.Proofs.Matching.Equivariance

namespace SymbolMatch

variable {settings : Settings} {g f : String → String}

/-- `c'` is analysed as `c` is, under the names that `g` gives. -/
structure ClassDecl.Mirrors (settings : Settings) (g : String → String)
    (c c' : ClassDecl) : Prop where
  fingerprint : ClassFingerprint.summary settings.maxObfuscatedLength c'
    = (ClassFingerprint.summary settings.maxObfuscatedLength c).relabel g
  usage : (ClassUsage.summary settings c).Mirrors g
    (ClassUsage.summary settings c')

-- ============================================================== indexes

namespace Index

variable {s s' : Snapshot}

theorem mem_classNames_summary {n : String} :
    n ∈ (summary settings s).classNames
      ↔ ∃ u ∈ usages settings s, u.name = n := by
  rw [classNames_summary, ← names_usages settings, List.mem_map]

/-- What a class refers to is among the names of the index. -/
theorem within_names (hnodup : s.names.Nodup) {u : ClassUsage}
    (hu : u ∈ usages settings s) : u.Within (summary settings s).names := by
  have hname : u.name ∈ (summary settings s).classNames :=
    mem_classNames_summary.2 ⟨u, hu, rfl⟩
  rw [← names_usages settings] at hnodup
  refine ⟨.inl hname, fun k hk => ?_, fun k hk => ?_⟩
  · refine mem_names_of_mem_fieldTypesOf hname ?_
    rw [show (summary settings s).evidence.fieldTypesOf u.name = u.fieldTypes
      from Evidence.fieldTypesOf_ofUsages hnodup hu]
    exact OrdSet.mem_ofList.2 hk
  · refine mem_names_of_mem_paramTypesOf hname ?_
    rw [show (summary settings s).evidence.paramTypesOf u.name = u.paramTypes
      from Evidence.paramTypesOf_ofUsages hnodup hu]
    exact OrdSet.mem_ofList.2 hk

/-- The names of the index are those of the classes and of what they
refer to. -/
theorem exists_usage_of_mem_names (hnodup : s.names.Nodup) {n : String}
    (hn : n ∈ (summary settings s).names) :
    ∃ u ∈ usages settings s, n = u.name ∨ n ∈ u.fieldRefs ∨ n ∈ u.paramRefs
      ∨ n ∈ u.returnRefs := by
  rw [← names_usages settings] at hnodup
  rcases hn with hn | ⟨k, hk, hn⟩
  · obtain ⟨u, hu, rfl⟩ := mem_classNames_summary.1 hn
    exact ⟨u, hu, .inl rfl⟩
  · obtain ⟨u, hu, rfl⟩ := mem_classNames_summary.1 hk
    rw [show (summary settings s).evidence
        = Evidence.ofUsages (usages settings s) from rfl,
      Evidence.fieldTypesOf_ofUsages hnodup hu,
      Evidence.paramTypesOf_ofUsages hnodup hu,
      Evidence.returnTypesOf_ofUsages hnodup hu] at hn
    exact ⟨u, hu, .inr (hn.imp OrdSet.mem_ofList.1
      (.imp OrdSet.mem_ofList.1 OrdSet.mem_ofList.1))⟩

/-- The analyses of snapshots whose classes mirror each other. -/
theorem mirrors_summary
    (hclasses : Rearranged (ClassDecl.Mirrors settings g) s.classes s'.classes)
    (hnodup : s.names.Nodup)
    (horderly : Name.Orderly (Name.isObfuscated settings.maxObfuscatedLength)
      g (summary settings s).names) :
    (summary settings s).Mirrors
      (Name.isObfuscated settings.maxObfuscatedLength) g
      (summary settings s') := by
  have husages : Rearranged (ClassUsage.Mirrors g) (usages settings s)
      (usages settings s') := hclasses.map fun _ _ h => h.usage
  have hinj := horderly.injOn
  have hwithin (u : ClassUsage) (hu : u ∈ usages settings s) :=
    within_names hnodup hu
  have hdistinct := hnodup
  rw [← names_usages settings] at hdistinct
  refine
    { orderly := horderly
      distinct := (classNames_summary settings s).symm ▸ hnodup
      fingerprints := hclasses.map_perm fun _ _ h => h.fingerprint
      fieldTypesOf := fun n hn => ?_
      paramTypesOf := fun n hn => ?_
      returnTypesOf := fun n hn => ?_
      fieldUsersOf := fun n hn =>
        Evidence.fieldUsersOf_mirrors husages hinj hwithin (.inl hn)
      paramUsersOf := fun n hn =>
        Evidence.paramUsersOf_mirrors husages hinj hwithin (.inl hn)
      fieldUsers_declared := fun n user huser => ?_
      paramUsers_declared := fun n user huser => ?_
      selfFieldRefs := fun n hn => ?_
      externalFieldRefs := fun n hn =>
        Evidence.externalFieldRefs_mirrors husages hinj hwithin (.inl hn)
      externalParamRefs := fun n hn =>
        Evidence.externalParamRefs_mirrors husages hinj hwithin (.inl hn) }
  · obtain ⟨u, hu, rfl⟩ := mem_classNames_summary.1 hn
    exact Evidence.fieldTypesOf_mirrors husages hinj hwithin hdistinct hu
  · obtain ⟨u, hu, rfl⟩ := mem_classNames_summary.1 hn
    exact Evidence.paramTypesOf_mirrors husages hinj hwithin hdistinct hu
  · obtain ⟨u, hu, rfl⟩ := mem_classNames_summary.1 hn
    exact Evidence.returnTypesOf_mirrors husages hinj hwithin hdistinct hu
  · obtain ⟨u, hu, hname, -⟩ := Evidence.mem_fieldUsersOf.1 huser
    exact mem_classNames_summary.2 ⟨u, hu, hname⟩
  · obtain ⟨u, hu, hname, -⟩ := Evidence.mem_paramUsersOf.1 huser
    exact mem_classNames_summary.2 ⟨u, hu, hname⟩
  · obtain ⟨u, hu, rfl⟩ := mem_classNames_summary.1 hn
    exact Evidence.selfFieldRefs_mirrors husages hinj hwithin hdistinct hu

end Index

-- ============================================================== reports

variable {r : Resolver} {old old' new new' : Snapshot}

/-- `s'` has the classes of `s` under the names that `g` gives them, in
any order. -/
structure Snapshot.Mirrors (settings : Settings) (g : String → String)
    (s s' : Snapshot) : Prop where
  valid : s.Valid
  valid' : s'.Valid
  classes : Rearranged (ClassDecl.Mirrors settings g) s.classes s'.classes
  orderly : Name.Orderly (Name.isObfuscated settings.maxObfuscatedLength) g
    (Index.summary settings s).names

/-- The report on mirroring snapshots is the renamed report. -/
theorem Resolver.matchSnapshots_mirrors
    (hr : Resolver.ofSettings settings = .ok r)
    (hold : old.Mirrors settings g old') (hnew : new.Mirrors settings f new') :
    r.matchSnapshots old' new'
      = .ok (((Context.ofSnapshots settings old new).reportOf
        (Context.ofSnapshots settings old new).runStages).relabel g f) := by
  have hctx : (Context.ofSnapshots settings old new).Mirrors g f
      (Context.ofSnapshots settings old' new') :=
    { settings := rfl
      old := Index.mirrors_summary hold.classes hold.valid.distinct
        hold.orderly
      new := Index.mirrors_summary hnew.classes hnew.valid.distinct
        hnew.orderly }
  rw [matchSnapshots_eq_ok hr hold.valid' hnew.valid', hctx.reportOf]

end SymbolMatch
