/-
One snapshot under two appearances. An index mirrors another if it has
the same classes under other names, in any order, and with the same
evidence under these names. Stable names stay as they are, and obfuscated
names are replaced by obfuscated ones in the same order.

Whatever a run reads off an index it reads off the mirroring one under
the other name. So the lists of candidates correspond up to their order,
every score is the same number, and every choice is the same class.
-/
import SymbolMatch.Proofs.Matching.Moves
import SymbolMatch.Proofs.Ordered.Correspondence
import SymbolMatch.Proofs.Pairing.Relabel

namespace SymbolMatch

-- ============================================================= renaming

theorem Name.compare_eq_lt_iff {a b : String} :
    compare a b = .lt ↔ a < b :=
  compareOfLessAndEq_eq_lt

/-- A renaming on a set of names that leaves stable names alone and keeps
the order of the obfuscated ones. -/
structure Name.Orderly (isObfuscated : String → Bool) (g : String → String)
    (s : Set String) : Prop where
  stable : ∀ n ∈ s, isObfuscated n = false → g n = n
  obfuscated : ∀ n ∈ s, isObfuscated n = true → isObfuscated (g n) = true
  increasing : ∀ a ∈ s, ∀ b ∈ s, isObfuscated a = true →
    isObfuscated b = true → a < b → g a < g b

namespace Name.Orderly

variable {isObfuscated : String → Bool} {g : String → String}
  {s : Set String} {a b n : String}

theorem mono {s' : Set String} (h : Orderly isObfuscated g s)
    (hsub : ∀ n ∈ s', n ∈ s) : Orderly isObfuscated g s' where
  stable := fun n hn => h.stable n (hsub n hn)
  obfuscated := fun n hn => h.obfuscated n (hsub n hn)
  increasing := fun a ha b hb => h.increasing a (hsub a ha) b (hsub b hb)

theorem isObfuscated_eq (h : Orderly isObfuscated g s) (hn : n ∈ s) :
    isObfuscated (g n) = isObfuscated n := by
  cases hobf : isObfuscated n with
  | true => exact h.obfuscated n hn hobf
  | false => rw [h.stable n hn hobf, hobf]

/-- Obfuscated names are compared as before. -/
theorem compare_eq (h : Orderly isObfuscated g s) (ha : a ∈ s) (hb : b ∈ s)
    (hoa : isObfuscated a = true) (hob : isObfuscated b = true) :
    compare (g a) (g b) = compare a b := by
  cases hcmp : compare a b with
  | eq =>
    rw [Std.LawfulEqOrd.eq_of_compare hcmp]
    exact Std.ReflOrd.compare_self
  | lt =>
    exact compare_eq_lt_iff.2 (h.increasing a ha b hb hoa hob
      (compare_eq_lt_iff.1 hcmp))
  | gt =>
    have hlt := compare_eq_lt_iff.1 (Std.OrientedCmp.lt_of_gt hcmp)
    exact Std.OrientedCmp.gt_of_lt (compare_eq_lt_iff.2
      (h.increasing b hb a ha hob hoa hlt))

/-- Names stay apart. -/
theorem injOn (h : Orderly isObfuscated g s) : Set.InjOn g s := by
  intro a ha b hb heq
  have hobf : isObfuscated a = isObfuscated b := by
    rw [← h.isObfuscated_eq ha, heq, h.isObfuscated_eq hb]
  cases hoa : isObfuscated a with
  | true =>
    have hcmp := h.compare_eq ha hb hoa (hobf ▸ hoa)
    rw [heq, Std.ReflOrd.compare_self] at hcmp
    exact Std.LawfulEqOrd.eq_of_compare hcmp.symm
  | false =>
    rw [h.stable a ha hoa, h.stable b hb (hobf ▸ hoa)] at heq
    exact heq

theorem bne_eq (h : Orderly isObfuscated g s) (ha : a ∈ s) (hb : b ∈ s) :
    (g a != g b) = (a != b) := by
  unfold bne
  congr 1
  rw [Bool.eq_iff_iff, beq_iff_eq, beq_iff_eq]
  exact h.injOn.eq_iff ha hb

end Name.Orderly

-- ============================================================== indexes

def ClassFingerprint.relabel (g : String → String) (p : ClassFingerprint) :
    ClassFingerprint :=
  { p with name := g p.name }

namespace Index

/-- The names an index speaks of: its classes and what their members
refer to. -/
def names (x : Index) : Set String :=
  { n | n ∈ x.classNames ∨ ∃ c ∈ x.classNames,
    n ∈ x.evidence.fieldTypesOf c ∨ n ∈ x.evidence.paramTypesOf c
      ∨ n ∈ x.evidence.returnTypesOf c }

/-- `x'` has the classes of `x` under the names that `g` gives them, with
the same evidence. -/
structure Mirrors (isObfuscated : String → Bool) (g : String → String)
    (x x' : Index) : Prop where
  orderly : Name.Orderly isObfuscated g x.names
  distinct : x.classNames.Nodup
  fingerprints :
    x'.fingerprints.Perm (x.fingerprints.map (ClassFingerprint.relabel g))
  fieldTypesOf : ∀ n ∈ x.classNames,
    x'.evidence.fieldTypesOf (g n) = (x.evidence.fieldTypesOf n).image g
  paramTypesOf : ∀ n ∈ x.classNames,
    x'.evidence.paramTypesOf (g n) = (x.evidence.paramTypesOf n).image g
  returnTypesOf : ∀ n ∈ x.classNames,
    x'.evidence.returnTypesOf (g n) = (x.evidence.returnTypesOf n).image g
  fieldUsersOf : ∀ n ∈ x.classNames,
    x'.evidence.fieldUsersOf (g n) = (x.evidence.fieldUsersOf n).image g
  paramUsersOf : ∀ n ∈ x.classNames,
    x'.evidence.paramUsersOf (g n) = (x.evidence.paramUsersOf n).image g
  fieldUsers_declared : ∀ n, ∀ user ∈ x.evidence.fieldUsersOf n,
    user ∈ x.classNames
  paramUsers_declared : ∀ n, ∀ user ∈ x.evidence.paramUsersOf n,
    user ∈ x.classNames
  selfFieldRefs : ∀ n ∈ x.classNames,
    x'.evidence.selfFieldRefs (g n) = x.evidence.selfFieldRefs n
  externalFieldRefs : ∀ n ∈ x.classNames,
    x'.evidence.externalFieldRefs (g n) = x.evidence.externalFieldRefs n
  externalParamRefs : ∀ n ∈ x.classNames,
    x'.evidence.externalParamRefs (g n) = x.evidence.externalParamRefs n

variable {x x' : Index} {isObfuscated : String → Bool}
  {g : String → String} {n k : String}

theorem mem_names_of_mem_fieldTypesOf (hn : n ∈ x.classNames)
    (h : k ∈ x.evidence.fieldTypesOf n) : k ∈ x.names :=
  .inr ⟨n, hn, .inl h⟩

theorem mem_names_of_mem_paramTypesOf (hn : n ∈ x.classNames)
    (h : k ∈ x.evidence.paramTypesOf n) : k ∈ x.names :=
  .inr ⟨n, hn, .inr (.inl h)⟩

theorem mem_names_of_mem_returnTypesOf (hn : n ∈ x.classNames)
    (h : k ∈ x.evidence.returnTypesOf n) : k ∈ x.names :=
  .inr ⟨n, hn, .inr (.inr h)⟩

/-- A class of distinct names is found under its name. -/
theorem fingerprint?_eq_some_iff (h : x.classNames.Nodup)
    {p : ClassFingerprint} :
    x.fingerprint? n = some p ↔ p ∈ x.fingerprints ∧ p.name = n := by
  unfold fingerprint?
  constructor
  · intro hfind
    exact ⟨List.mem_of_find?_eq_some hfind,
      by simpa using List.find?_some hfind⟩
  · rintro ⟨hmem, hname⟩
    cases hfind : x.fingerprints.find? (·.name == n) with
    | none =>
      rw [List.find?_eq_none] at hfind
      exact absurd (by simpa using hname) (hfind p hmem)
    | some q =>
      have hq : q.name = n := by simpa using List.find?_some hfind
      rw [List.inj_on_of_nodup_map h (List.mem_of_find?_eq_some hfind) hmem
        (hq.trans hname.symm)]

namespace Mirrors

variable (h : x.Mirrors isObfuscated g x')
include h

theorem injOn : Set.InjOn g x.names := h.orderly.injOn

theorem classNames_perm : x'.classNames.Perm (x.classNames.map g) := by
  have hp := h.fingerprints.map (·.name)
  unfold classNames
  rw [List.map_map] at hp ⊢
  exact hp

theorem size_eq : x'.size = x.size := by
  unfold size
  rw [h.fingerprints.length_eq, List.length_map]

theorem nodup_classNames : x'.classNames.Nodup := by
  refine h.classNames_perm.nodup_iff.2 (h.distinct.map_on ?_)
  intro a ha b hb
  exact h.injOn (.inl ha) (.inl hb)

theorem fingerprint? (hn : n ∈ x.names) :
    x'.fingerprint? (g n) = (x.fingerprint? n).map (.relabel g) := by
  refine Option.ext fun p => ?_
  rw [fingerprint?_eq_some_iff h.nodup_classNames, h.fingerprints.mem_iff,
    List.mem_map, Option.map_eq_some_iff]
  constructor
  · rintro ⟨⟨q, hq, rfl⟩, hname⟩
    refine ⟨q, (fingerprint?_eq_some_iff h.distinct).2 ⟨hq, ?_⟩, rfl⟩
    exact h.injOn (.inl (List.mem_map.2 ⟨q, hq, rfl⟩)) hn hname
  · rintro ⟨q, hq, rfl⟩
    obtain ⟨hmem, rfl⟩ := (fingerprint?_eq_some_iff h.distinct).1 hq
    exact ⟨⟨q, hmem, rfl⟩, rfl⟩

theorem contains (hn : n ∈ x.names) : x'.contains (g n) = x.contains n := by
  unfold Index.contains
  rw [h.fingerprint? hn, Option.isSome_map]

theorem fieldCount (hn : n ∈ x.names) :
    x'.fieldCount (g n) = x.fieldCount n := by
  unfold Index.fieldCount
  rw [h.fingerprint? hn, Option.map_map]
  rfl

theorem externalFieldUsers (hn : n ∈ x.classNames) :
    x'.evidence.externalFieldUsers (g n)
      = (x.evidence.externalFieldUsers n).image g := by
  unfold Evidence.externalFieldUsers
  rw [h.fieldUsersOf n hn]
  refine OrdSet.image_filter fun user huser => ?_
  rw [decide_eq_decide]
  exact not_congr (h.injOn.eq_iff
    (.inl (h.fieldUsers_declared n user huser)) (.inl hn))

theorem externalParamUsers (hn : n ∈ x.classNames) :
    x'.evidence.externalParamUsers (g n)
      = (x.evidence.externalParamUsers n).image g := by
  unfold Evidence.externalParamUsers
  rw [h.paramUsersOf n hn]
  refine OrdSet.image_filter fun user huser => ?_
  rw [decide_eq_decide]
  exact not_congr (h.injOn.eq_iff
    (.inl (h.paramUsers_declared n user huser)) (.inl hn))

theorem declared_of_externalFieldUsers {user : String}
    (huser : user ∈ x.evidence.externalFieldUsers n) :
    user ∈ x.classNames :=
  h.fieldUsers_declared n user (OrdSet.mem_filter.1 huser).1

theorem declared_of_externalParamUsers {user : String}
    (huser : user ∈ x.evidence.externalParamUsers n) :
    user ∈ x.classNames :=
  h.paramUsers_declared n user (OrdSet.mem_filter.1 huser).1

theorem externalFieldUserCount (hn : n ∈ x.classNames) :
    x'.evidence.externalFieldUserCount (g n)
      = x.evidence.externalFieldUserCount n := by
  unfold Evidence.externalFieldUserCount
  rw [h.externalFieldUsers hn]
  exact OrdSet.size_image h.injOn fun user huser =>
    .inl (h.declared_of_externalFieldUsers huser)

theorem size_fieldTypesOf (hn : n ∈ x.classNames) :
    (x'.evidence.fieldTypesOf (g n)).size
      = (x.evidence.fieldTypesOf n).size := by
  rw [h.fieldTypesOf n hn]
  exact OrdSet.size_image h.injOn fun _ => mem_names_of_mem_fieldTypesOf hn

omit h in
theorem mem_names_of_mem_referencedTypes (hn : n ∈ x.classNames)
    (hk : k ∈ x.evidence.referencedTypes n) : k ∈ x.names := by
  unfold Evidence.referencedTypes at hk
  rw [OrdSet.mem_filter, OrdSet.mem_union, OrdSet.mem_union] at hk
  rcases hk.1 with (hk | hk) | hk
  · exact mem_names_of_mem_fieldTypesOf hn hk
  · exact mem_names_of_mem_paramTypesOf hn hk
  · exact mem_names_of_mem_returnTypesOf hn hk

theorem referencedTypes (hn : n ∈ x.classNames) :
    x'.evidence.referencedTypes (g n)
      = (x.evidence.referencedTypes n).image g := by
  unfold Evidence.referencedTypes
  rw [h.fieldTypesOf n hn, h.paramTypesOf n hn, h.returnTypesOf n hn,
    ← OrdSet.image_union, ← OrdSet.image_union]
  refine OrdSet.image_filter fun k hk => ?_
  rw [decide_eq_decide]
  refine not_congr (h.injOn.eq_iff ?_ (.inl hn))
  rw [OrdSet.mem_union, OrdSet.mem_union] at hk
  rcases hk with (hk | hk) | hk
  · exact mem_names_of_mem_fieldTypesOf hn hk
  · exact mem_names_of_mem_paramTypesOf hn hk
  · exact mem_names_of_mem_returnTypesOf hn hk

end Mirrors

end Index

-- ============================================================= contexts

namespace Context

variable {ctx ctx' : Context} {g f : String → String} {t : Table}
  {old new : String}

/-- A run on mirroring snapshots with the same settings. -/
structure Mirrors (g f : String → String) (ctx ctx' : Context) : Prop where
  settings : ctx'.settings = ctx.settings
  old : ctx.old.Mirrors ctx.isObfuscated g ctx'.old
  new : ctx.new.Mirrors ctx.isObfuscated f ctx'.new

theorem Sound.within (ht : ctx.Sound t) :
    t.Within ctx.old.names ctx.new.names where
  twoWay := ht.twoWay
  pairs _ _ h := ⟨.inl (ht.declared h).1, .inl (ht.declared h).2⟩

/-- Choosing among renamed candidates with the same scores. The
candidates are obfuscated, so their order is kept. -/
private theorem pickBest_names {s : Set String} {isObfuscated : String → Bool}
    (hg : Name.Orderly isObfuscated g s) {names names' : List String}
    {score score' similarity similarity' : String → Binary64}
    {floor margin : Binary64} (hnodup : names.Nodup)
    (hmem : ∀ n ∈ names, n ∈ s ∧ isObfuscated n = true)
    (hp : names'.Perm (names.map g))
    (hscore : ∀ n ∈ names, score' (g n) = score n)
    (hsimilarity : ∀ n ∈ names, similarity' (g n) = similarity n) :
    pickBest (names'.map fun n => ⟨n, score' n, similarity' n⟩) floor margin
      = (pickBest (names.map fun n => ⟨n, score n, similarity n⟩) floor
        margin).map (Choice.rename g) := by
  refine pickBest_rename_perm ?_ ?_ ?_
  · rw [List.map_map]
    exact hnodup.map fun _ _ h => h
  · intro a ha b hb
    obtain ⟨m, hm, rfl⟩ := List.mem_map.1 ha
    obtain ⟨n, hn, rfl⟩ := List.mem_map.1 hb
    exact hg.compare_eq (hmem m hm).1 (hmem n hn).1 (hmem m hm).2
      (hmem n hn).2
  · refine (hp.map _).trans ?_
    rw [List.map_map, List.map_map]
    refine List.Perm.of_eq (List.map_congr_left fun n hn => ?_)
    simp only [Function.comp, Scored.rename, hscore n hn, hsimilarity n hn]

namespace Mirrors

variable (h : ctx.Mirrors g f ctx')
include h

theorem isObfuscated (n : String) :
    ctx'.isObfuscated n = ctx.isObfuscated n := by
  unfold Context.isObfuscated
  rw [h.settings]

theorem similarity (hold : old ∈ ctx.old.names) (hnew : new ∈ ctx.new.names) :
    ctx'.similarity (g old) (f new) = ctx.similarity old new := by
  unfold Context.similarity
  rw [h.old.fingerprint? hold, h.new.fingerprint? hnew]
  cases ctx.old.fingerprint? old <;> cases ctx.new.fingerprint? new <;> rfl

theorem breakdown? (hold : old ∈ ctx.old.names)
    (hnew : new ∈ ctx.new.names) :
    ctx'.breakdown? (g old) (f new) = ctx.breakdown? old new := by
  unfold Context.breakdown?
  rw [h.old.fingerprint? hold, h.new.fingerprint? hnew]
  cases ctx.old.fingerprint? old <;> cases ctx.new.fingerprint? new <;> rfl

theorem fieldCloseness (hold : old ∈ ctx.old.names)
    (hnew : new ∈ ctx.new.names) :
    ctx'.fieldCloseness (g old) (f new) = ctx.fieldCloseness old new := by
  unfold Context.fieldCloseness
  rw [h.old.fieldCount hold, h.new.fieldCount hnew]

theorem isOldConstant (hold : old ∈ ctx.old.classNames) :
    ctx'.isOldConstant (g old) = ctx.isOldConstant old := by
  unfold Context.isOldConstant Evidence.isConstantLike
  rw [h.settings, h.old.selfFieldRefs old hold]

theorem isNewConstant (hnew : new ∈ ctx.new.classNames) :
    ctx'.isNewConstant (f new) = ctx.isNewConstant new := by
  unfold Context.isNewConstant Evidence.isConstantLike
  rw [h.settings, h.new.selfFieldRefs new hnew]

-- ---------------------------------------------------------- candidates

theorem oldObfuscated_perm :
    ctx'.oldObfuscated.Perm (ctx.oldObfuscated.map g) :=
  Correspondence.filter h.old.classNames_perm fun _ hn =>
    (h.isObfuscated _).trans (h.old.orderly.isObfuscated_eq (.inl hn))

theorem newObfuscated_perm :
    ctx'.newObfuscated.Perm (ctx.newObfuscated.map f) :=
  Correspondence.filter h.new.classNames_perm fun _ hn =>
    (h.isObfuscated _).trans (h.new.orderly.isObfuscated_eq (.inl hn))

theorem unmappedOld_perm (ht : ctx.Sound t) :
    (ctx'.unmappedOld (t.relabel g f)).Perm ((ctx.unmappedOld t).map g) := by
  refine Correspondence.filter h.oldObfuscated_perm fun n hn => ?_
  rw [Table.isMapped_relabel h.old.injOn ht.within
    (.inl (mem_oldObfuscated.1 hn).1)]

theorem unclaimedNew_perm (ht : ctx.Sound t) :
    (ctx'.unclaimedNew (t.relabel g f)).Perm
      ((ctx.unclaimedNew t).map f) := by
  refine Correspondence.filter h.newObfuscated_perm fun n hn => ?_
  rw [Table.isClaimed_relabel h.new.injOn ht.within
    (.inl (mem_newObfuscated.1 hn).1)]

theorem chooseNew {names names' : List String}
    {score score' : String → Binary64} {floor : Binary64}
    (hold : old ∈ ctx.old.names) (hsub : names.Sublist ctx.newObfuscated)
    (hp : names'.Perm (names.map f))
    (hscore : ∀ n ∈ names, score' (f n) = score n) :
    ctx'.chooseNew (g old) names' score' floor
      = (ctx.chooseNew old names score floor).map (Choice.rename f) := by
  have hmem (n : String) (hn : n ∈ names) :=
    mem_newObfuscated.1 (hsub.subset hn)
  unfold Context.chooseNew
  rw [h.settings]
  exact pickBest_names h.new.orderly
    (hsub.nodup (h.new.distinct.filter _))
    (fun n hn => ⟨.inl (hmem n hn).1, (hmem n hn).2⟩) hp hscore
    fun n hn => h.similarity hold (.inl (hmem n hn).1)

theorem chooseOld {names names' : List String}
    {score score' : String → Binary64} {floor : Binary64}
    (hnew : new ∈ ctx.new.names) (hsub : names.Sublist ctx.oldObfuscated)
    (hp : names'.Perm (names.map g))
    (hscore : ∀ n ∈ names, score' (g n) = score n) :
    ctx'.chooseOld (f new) names' score' floor
      = (ctx.chooseOld new names score floor).map (Choice.rename g) := by
  have hmem (n : String) (hn : n ∈ names) :=
    mem_oldObfuscated.1 (hsub.subset hn)
  unfold Context.chooseOld
  rw [h.settings]
  exact pickBest_names h.old.orderly
    (hsub.nodup (h.old.distinct.filter _))
    (fun n hn => ⟨.inl (hmem n hn).1, (hmem n hn).2⟩) hp hscore
    fun n hn => h.similarity (.inl (hmem n hn).1) hnew

end Mirrors

end Context

end SymbolMatch
