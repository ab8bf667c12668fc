/-
The report of a matching run. A run on two snapshots that were accepted,
under settings that were accepted, always ends with a report, and its
mapping is a one-to-one pairing of declared classes that keeps stable
names and obfuscated names apart.

The table of a run is sound (`Context.sound_runStages`), so the matches
that are read off it collide in neither name, and what the invariant says
of the entries of the table carries over to the mapping.
-/
import SymbolMatch.Proofs.Matching.Moves
import SymbolMatch.Proofs.Pairing.Mapping
import SymbolMatch.Proofs.Summary
import SymbolMatch.Resolver

namespace SymbolMatch

namespace Context

variable {ctx : Context} {t : Table} {old : String} {m : ClassMatch}

-- ========================================================== the matches

/-- The matches that a table amounts to. -/
def matchesOf (ctx : Context) (t : Table) : List ClassMatch :=
  t.entries.map fun e => ctx.describe t e.1 e.2

theorem mem_matchesOf :
    m ∈ ctx.matchesOf t
      ↔ ∃ old c, t.get? old = some c ∧ ctx.describe t old c = m := by
  unfold matchesOf
  rw [List.mem_map]
  constructor
  · rintro ⟨⟨old, c⟩, hmem, heq⟩
    exact ⟨old, c, Table.mem_entries_iff.1 hmem, heq⟩
  · rintro ⟨old, c, hget, heq⟩
    exact ⟨(old, c), Table.mem_entries_iff.2 hget, heq⟩

theorem nodup_olds (ctx : Context) (t : Table) :
    ((ctx.matchesOf t).map (·.old)).Nodup := by
  unfold matchesOf
  rw [List.map_map]
  exact t.forward.nodup_keys

theorem Sound.nodup_news (h : ctx.Sound t) :
    ((ctx.matchesOf t).map (·.new)).Nodup := by
  unfold matchesOf
  rw [List.map_map]
  refine t.forward.nodup_entries.map_on ?_
  rintro ⟨a, c⟩ ha ⟨b, d⟩ hb heq
  have hc := Table.mem_entries_iff.1 ha
  have hd := Table.mem_entries_iff.1 hb
  -- one target for two entries, so one old class, so one entry
  have hab : a = b := h.twoWay.injective (Table.newOf?_eq_some_iff.2
    ⟨c, hc, heq⟩) (Table.newOf?_eq_some_iff.2 ⟨d, hd, rfl⟩)
  subst hab
  rw [hc] at hd
  rw [Option.some.inj hd]

/-- The report on a run. -/
def reportOf (ctx : Context) (run : Run) : MatchReport where
  mapping := .keyed (ctx.matchesOf run.table)
  warnings := ctx.audit run.table
  stats := {
    oldClasses := ctx.old.size
    newClasses := ctx.new.size
    fixed := run.fixed
    constants := run.constants + run.corrected
    anchors := run.anchors
    propagated := run.propagated
    refined := run.refined
    validated := run.validated
    unmapped := ctx.old.size - run.table.size }

/-- Matching always ends with a report. -/
theorem matchClasses_eq_ok (ctx : Context) :
    ctx.matchClasses = .ok (ctx.reportOf ctx.runStages) := by
  have holds := ctx.nodup_olds ctx.runStages.table
  have hofMatches := ClassMapping.ofMatches_eq_ok holds
    sound_runStages.nodup_news
  have hsize : (ClassMapping.keyed (ctx.matchesOf ctx.runStages.table)).size
      = ctx.runStages.table.size := by
    rw [ClassMapping.size_keyed holds]
    exact List.length_map _
  unfold reportOf
  rw [← hsize]
  exact Outcome.bind_eq_ok_iff.2 ⟨_, hofMatches, rfl⟩

/-- The match of an old class in the report is the one its claim amounts
to. -/
theorem get?_mapping_reportOf {run : Run} :
    (ctx.reportOf run).mapping.get? old = some m
      ↔ ∃ c, run.table.get? old = some c
        ∧ ctx.describe run.table old c = m := by
  unfold reportOf
  rw [ClassMapping.get?_keyed (ctx.nodup_olds _), mem_matchesOf]
  constructor
  · rintro ⟨⟨old', c, hc, rfl⟩, rfl⟩
    exact ⟨c, hc, rfl⟩
  · rintro ⟨c, hc, rfl⟩
    exact ⟨⟨old, c, hc, rfl⟩, rfl⟩

/-- The run on two valid snapshots. -/
def ofSnapshots (settings : Settings) (old new : Snapshot) : Context :=
  ⟨settings, .summary settings old, .summary settings new⟩

end Context

-- ========================================================== the resolver

namespace Resolver

variable {settings : Settings} {r : Resolver} {olds news : List ClassDecl}
  {old new : Snapshot}

/-- A resolver has the settings it was made with, and they are valid. -/
theorem ofSettings_eq_ok_iff :
    ofSettings settings = .ok r
      ↔ settings.validate = .ok () ∧ r = ⟨settings⟩ := by
  unfold ofSettings
  rw [Outcome.mapError_eq_ok_iff]
  cases settings.validate with
  | error e =>
    constructor
    · intro h
      cases h
    · rintro ⟨h, -⟩
      cases h
  | ok u =>
    constructor
    · intro h
      cases h
      exact ⟨rfl, rfl⟩
    · rintro ⟨-, rfl⟩
      rfl

/-- A valid snapshot can be analysed. -/
theorem index_eq_ok (r : Resolver) (h : old.Valid) :
    r.index old = .ok (.summary r.settings old) :=
  Outcome.mapError_eq_ok_iff.2 (Index.build_eq_ok r.settings h)

/-- Valid snapshots under valid settings are always matched. -/
theorem matchSnapshots_eq_ok (hr : ofSettings settings = .ok r)
    (hold : old.Valid) (hnew : new.Valid) :
    r.matchSnapshots old new
      = .ok ((Context.ofSnapshots settings old new).reportOf
        (Context.ofSnapshots settings old new).runStages) := by
  obtain ⟨hvalid, rfl⟩ := ofSettings_eq_ok_iff.1 hr
  refine Outcome.bind_eq_ok_iff.2 ⟨_, index_eq_ok _ hold, ?_⟩
  refine Outcome.bind_eq_ok_iff.2 ⟨_, index_eq_ok _ hnew, ?_⟩
  refine Outcome.check_bind_eq_ok_iff.2
    ⟨Outcome.mapError_eq_ok_iff.2 hvalid, ?_⟩
  exact Outcome.mapError_eq_ok_iff.2 (Context.matchClasses_eq_ok _)

end Resolver

-- ======================================================== the guarantee

/-- The mapping of a report is a one-to-one pairing of declared classes
that keeps stable and obfuscated names apart. -/
structure MatchReport.Faithful (settings : Settings) (old new : Snapshot)
    (report : MatchReport) : Prop where
  /-- A match is kept under its old name. -/
  keyed : ∀ n m, report.mapping.get? n = some m → m.old = n
  /-- Both classes of a match are declared. -/
  declared : ∀ n m, report.mapping.get? n = some m →
    n ∈ old.names ∧ m.new ∈ new.names
  /-- No new class is the target of two old classes. -/
  injective : ∀ a b n, report.mapping.newName? a = some n →
    report.mapping.newName? b = some n → a = b
  /-- The fixed matches pair exactly the stable names declared on both
  sides, each with itself. -/
  fixed_iff : ∀ a b,
    (∃ m, report.mapping.get? a = some m ∧ m.new = b ∧ m.origin = .fixed)
      ↔ a = b ∧ Name.isStable settings.maxObfuscatedLength a = true
        ∧ a ∈ old.names ∧ a ∈ new.names
  fixed_scores : ∀ n m, report.mapping.get? n = some m →
    m.origin = .fixed → m.similarity = 1 ∧ m.confidence = 1
  /-- Any other match is one of obfuscated names. -/
  inferred : ∀ n m, report.mapping.get? n = some m → m.origin ≠ .fixed →
    Name.isObfuscated settings.maxObfuscatedLength n = true
      ∧ Name.isObfuscated settings.maxObfuscatedLength m.new = true
  /-- A stable name that is gone is not mapped. -/
  missing : ∀ n, Name.isStable settings.maxObfuscatedLength n = true →
    n ∉ new.names → report.mapping.get? n = none
  /-- A stable name is the target of no other class. -/
  reserved : ∀ n m, report.mapping.get? n = some m →
    Name.isStable settings.maxObfuscatedLength m.new = true → n = m.new

namespace Context

variable {ctx : Context} {n : String} {m : ClassMatch}

/-- Every match of a report is a fixed name with itself, or a pair of
obfuscated classes. -/
theorem fixed_or_inferred
    (h : (ctx.reportOf ctx.runStages).mapping.get? n = some m) :
    (m.origin = .fixed ∧ m.new = n ∧ n ∈ ctx.fixedNames
        ∧ m.similarity = 1 ∧ m.confidence = 1)
      ∨ (m.origin ≠ .fixed ∧ n ∈ ctx.oldObfuscated
        ∧ m.new ∈ ctx.newObfuscated) := by
  obtain ⟨c, hc, rfl⟩ := get?_mapping_reportOf.1 h
  by_cases horigin : c.origin = .fixed
  · obtain ⟨hmem, rfl⟩ := sound_runStages.fixed n c hc horigin
    refine .inl ⟨rfl, rfl, hmem, ?_, ?_⟩
    · unfold describe
      dsimp only
      exact if_pos rfl
    · unfold describe confidence
      dsimp only
      exact if_pos rfl
  · exact .inr ⟨horigin, sound_runStages.inferred n c hc horigin⟩

/-- Every fixed name has its match. -/
theorem exists_fixed_match (h : n ∈ ctx.fixedNames) :
    ∃ m, (ctx.reportOf ctx.runStages).mapping.get? n = some m
      ∧ m.new = n ∧ m.origin = .fixed :=
  ⟨_, get?_mapping_reportOf.2 ⟨_, sound_runStages.covers n h, rfl⟩, rfl, rfl⟩

theorem newName?_reportOf (run : Run) (n : String) :
    (ctx.reportOf run).mapping.newName? n = run.table.newOf? n := by
  unfold ClassMapping.newName?
  rw [Table.newOf?_eq_map]
  cases hget : run.table.get? n with
  | some c =>
    rw [get?_mapping_reportOf.2 ⟨c, hget, rfl⟩]
    rfl
  | none =>
    cases hm : (ctx.reportOf run).mapping.get? n with
    | none => rfl
    | some m =>
      obtain ⟨c, hc, -⟩ := get?_mapping_reportOf.1 hm
      rw [hget] at hc
      cases hc

section Snapshots

variable {settings : Settings} {old new : Snapshot}

theorem mem_fixedNames_ofSnapshots :
    n ∈ (ofSnapshots settings old new).fixedNames
      ↔ Name.isStable settings.maxObfuscatedLength n = true
        ∧ n ∈ old.names ∧ n ∈ new.names := by
  rw [mem_fixedNames, Name.isStable, Bool.not_eq_true',
    ← Index.classNames_summary settings old,
    ← Index.classNames_summary settings new]
  rfl

theorem mem_oldObfuscated_ofSnapshots :
    n ∈ (ofSnapshots settings old new).oldObfuscated
      ↔ n ∈ old.names
        ∧ Name.isObfuscated settings.maxObfuscatedLength n = true := by
  rw [mem_oldObfuscated, ← Index.classNames_summary settings old]
  rfl

theorem mem_newObfuscated_ofSnapshots :
    n ∈ (ofSnapshots settings old new).newObfuscated
      ↔ n ∈ new.names
        ∧ Name.isObfuscated settings.maxObfuscatedLength n = true := by
  rw [mem_newObfuscated, ← Index.classNames_summary settings new]
  rfl

/-- The report of a run is faithful to the snapshots it ran on. -/
theorem faithful_reportOf :
    ((ofSnapshots settings old new).reportOf
      (ofSnapshots settings old new).runStages).Faithful settings old new := by
  have hapart {n : String}
      (hs : Name.isStable settings.maxObfuscatedLength n = true)
      (ho : Name.isObfuscated settings.maxObfuscatedLength n = true) :
      False := by
    rw [Name.isStable, ho] at hs
    cases hs
  refine
    { keyed := fun n m hm => ?_
      declared := fun n m hm => ?_
      injective := fun a b n ha hb => ?_
      fixed_iff := fun a b => ⟨?_, ?_⟩
      fixed_scores := fun n m hm horigin => ?_
      inferred := fun n m hm horigin => ?_
      missing := fun n hn hmissing => ?_
      reserved := fun n m hm hn => ?_ }
  · obtain ⟨c, -, rfl⟩ := get?_mapping_reportOf.1 hm
    rfl
  · rcases fixed_or_inferred hm with ⟨-, hnew, hmem, -⟩ | ⟨-, hmem, htarget⟩
    · rw [hnew]
      exact (mem_fixedNames_ofSnapshots.1 hmem).2
    · exact ⟨(mem_oldObfuscated_ofSnapshots.1 hmem).1,
        (mem_newObfuscated_ofSnapshots.1 htarget).1⟩
  · rw [newName?_reportOf] at ha hb
    exact sound_runStages.twoWay.injective ha hb
  · rintro ⟨m, hm, rfl, horigin⟩
    rcases fixed_or_inferred hm with ⟨-, hnew, hmem, -⟩ | ⟨hne, -⟩
    · exact ⟨hnew.symm, mem_fixedNames_ofSnapshots.1 hmem⟩
    · exact absurd horigin hne
  · rintro ⟨rfl, hmem⟩
    exact exists_fixed_match (mem_fixedNames_ofSnapshots.2 hmem)
  · rcases fixed_or_inferred hm with ⟨-, -, -, hscores⟩ | ⟨hne, -⟩
    · exact hscores
    · exact absurd horigin hne
  · rcases fixed_or_inferred hm with ⟨hf, -⟩ | ⟨-, hmem, htarget⟩
    · exact absurd hf horigin
    · exact ⟨(mem_oldObfuscated_ofSnapshots.1 hmem).2,
        (mem_newObfuscated_ofSnapshots.1 htarget).2⟩
  · refine Option.eq_none_iff_forall_ne_some.2 fun m hm => ?_
    rcases fixed_or_inferred hm with ⟨-, -, hmem, -⟩ | ⟨-, hmem, -⟩
    · exact hmissing (mem_fixedNames_ofSnapshots.1 hmem).2.2
    · exact hapart hn (mem_oldObfuscated_ofSnapshots.1 hmem).2
  · rcases fixed_or_inferred hm with ⟨-, hnew, -⟩ | ⟨-, -, htarget⟩
    · exact hnew.symm
    · exact (hapart hn (mem_newObfuscated_ofSnapshots.1 htarget).2).elim

end Snapshots

end Context

-- ============================================================ a sample

namespace Sample

/-- A class without members of its own. -/
def bare (name : String) : ClassDecl where
  name := name
  kind := .plain
  superName := none
  interfaces := []
  fields := []
  methods := []

/-- A class with one field of each of some types. -/
def holder (name : String) (types : List String) : ClassDecl :=
  { bare name with
    fields := types.map fun type => ⟨type, "L" ++ type ++ ";", false, false⟩ }

/-- An old build: two stable classes, of which one goes away, and two
obfuscated ones that refer to each other. -/
def before : List ClassDecl :=
  [ { name := "app/Main"
      kind := .plain
      superName := some "java/lang/Object"
      interfaces := ["a/c"]
      fields := [⟨"f", "La/b;", false, true⟩, ⟨"n", "I", true, false⟩]
      methods := [⟨"run", "(La/b;I)V", false, false, []⟩] },
    { name := "a/c"
      kind := .interfaceType
      superName := none
      interfaces := []
      fields := []
      methods := [⟨"a", "([La/b;)La/c;", false, true, []⟩] },
    { name := "a/b"
      kind := .plain
      superName := some "java/lang/Object"
      interfaces := ["a/c", "java/lang/Runnable"]
      fields := [⟨"a", "La/c;", false, false⟩, ⟨"b", "J", false, false⟩]
      methods := [⟨"run", "()V", false, false,
        [⟨180, .field ⟨"a/b", "a", "La/c;"⟩⟩]⟩] },
    { name := "app/Gone"
      kind := .plain
      superName := some "app/Main"
      interfaces := []
      fields := []
      methods := [] } ]

/-- A new build of the same program. -/
def after : List ClassDecl :=
  [ { name := "a/d"
      kind := .interfaceType
      superName := none
      interfaces := []
      fields := []
      methods := [⟨"a", "([La/e;)La/d;", false, true, []⟩] },
    { name := "app/Main"
      kind := .plain
      superName := some "java/lang/Object"
      interfaces := ["a/d"]
      fields := [⟨"f", "La/e;", false, true⟩, ⟨"n", "I", true, false⟩]
      methods := [⟨"run", "(La/e;I)V", false, false, []⟩] },
    { name := "a/e"
      kind := .plain
      superName := some "java/lang/Object"
      interfaces := ["a/d", "java/lang/Runnable"]
      fields := [⟨"a", "La/d;", false, false⟩, ⟨"b", "J", false, false⟩]
      methods := [⟨"run", "()V", false, false,
        [⟨180, .field ⟨"a/e", "a", "La/d;"⟩⟩]⟩] } ]

theorem ofClasses_before : Snapshot.ofClasses before = .ok ⟨before⟩ := rfl

theorem ofClasses_after : Snapshot.ofClasses after = .ok ⟨after⟩ := rfl

end Sample

/-- The default settings are within their ranges. -/
theorem Settings.validate_default : Settings.default.validate = .ok () := by
  have hsimilarity : isUnit Settings.default.minSimilarity = true := by
    decide +kernel
  have hassign : isUnit Settings.default.fieldAssignThreshold = true := by
    decide +kernel
  have hmargin : (Settings.default.tieMargin.isNaN
      || Settings.default.tieMargin < 0) = false := by
    decide +kernel
  unfold validate
  simp only [hsimilarity, hassign, hmargin]
  rfl

namespace Resolver

theorem ofSettings_default : ofSettings .default = .ok ⟨.default⟩ :=
  ofSettings_eq_ok_iff.2 ⟨Settings.validate_default, rfl⟩

-- ========================================================== the theorem

/-- Matching two accepted snapshots under accepted settings always ends
with a report, and the report is faithful to the snapshots. -/
theorem matchSnapshots_faithful (settings : Settings) (r : Resolver)
    (olds news : List ClassDecl) (old new : Snapshot)
    (hr : ofSettings settings = .ok r)
    (hold : Snapshot.ofClasses olds = .ok old)
    (hnew : Snapshot.ofClasses news = .ok new) :
    ∃ report, r.matchSnapshots old new = .ok report
      ∧ report.Faithful settings old new :=
  ⟨_, matchSnapshots_eq_ok hr (Snapshot.ofClasses_eq_ok_iff.1 hold).2
    (Snapshot.ofClasses_eq_ok_iff.1 hnew).2, Context.faithful_reportOf⟩

theorem matchSnapshots_faithful_sample :
    ∃ report, (⟨.default⟩ : Resolver).matchSnapshots ⟨Sample.before⟩
        ⟨Sample.after⟩ = .ok report
      ∧ report.Faithful .default ⟨Sample.before⟩ ⟨Sample.after⟩ :=
  matchSnapshots_faithful .default ⟨.default⟩ Sample.before Sample.after
    ⟨Sample.before⟩ ⟨Sample.after⟩ ofSettings_default
    Sample.ofClasses_before Sample.ofClasses_after

end Resolver

end SymbolMatch
