/-
The right table is left alone. If the new build has every old class under
another name, whatever else it has, and a table pairs each old class with
that class, then no later stage moves a pair and the audit has nothing to
say.

# Why nothing moves

What an old class uses, its counterpart uses under the other names, so
every neighbour of a pair agrees with it (`agreeingUsers_eq`,
`agreeingFieldTypes_eq`, `misses_eq_zero`). A share of all is 1 or, past
what doubles hold, no number; neither is below a threshold. Only the
constant-like classes are reconsidered without a doubt, and there the
candidates are the present target and newcomers. No old class uses a
newcomer, so a newcomer scores by its fields alone, and that is at most
three tenths (`correctionScore_newcomer`).

Stable or not, and whatever a pair rests on, makes no difference here.
-/
import SymbolMatch.Proofs.Overlap
import SymbolMatch.Proofs.Renaming

namespace SymbolMatch

-- =============================================================== coherence

/-- Both directions of a usage graph tell the same, and only the classes
of the index use anything. -/
structure Index.Coherent (x : Index) : Prop where
  fieldUsers_iff : ∀ n u,
    u ∈ x.evidence.fieldUsersOf n ↔ n ∈ x.evidence.fieldTypesOf u
  fieldTypes_declared : ∀ n u, n ∈ x.evidence.fieldTypesOf u →
    u ∈ x.classNames
  paramTypes_declared : ∀ n u, n ∈ x.evidence.paramTypesOf u →
    u ∈ x.classNames
  returnTypes_declared : ∀ n u, n ∈ x.evidence.returnTypesOf u →
    u ∈ x.classNames

/-- The analysis of a snapshot is coherent. -/
theorem Index.coherent_summary {settings : Settings} {s : Snapshot}
    (hnodup : s.names.Nodup) : (Index.summary settings s).Coherent := by
  rw [← names_usages settings] at hnodup
  -- what is found under the name of no class is empty
  have hdeclared (part : Evidence → String → OrdSet String)
      (habsent : ∀ {us : List ClassUsage} {k : String},
        (∀ v ∈ us, v.name ≠ k) → part (.ofUsages us) k = {}) (n u : String)
      (h : n ∈ part (Index.summary settings s).evidence u) :
      u ∈ (Index.summary settings s).classNames := by
    by_contra hu
    have hempty : part (Index.summary settings s).evidence u = {} := by
      apply habsent
      intro v hv heq
      exact hu (mem_classNames_summary.2 ⟨v, hv, heq⟩)
    rw [hempty] at h
    exact OrdSet.not_mem_empty n h
  have hfields := hdeclared Evidence.fieldTypesOf
    Evidence.fieldTypesOf_of_absent
  refine
    { fieldUsers_iff := fun n u => ⟨?_, ?_⟩
      fieldTypes_declared := hfields
      paramTypes_declared := hdeclared Evidence.paramTypesOf
        Evidence.paramTypesOf_of_absent
      returnTypes_declared := hdeclared Evidence.returnTypesOf
        Evidence.returnTypesOf_of_absent }
  · intro h
    obtain ⟨v, hv, rfl, hn⟩ := Evidence.mem_fieldUsersOf.1 h
    rw [show (Index.summary settings s).evidence.fieldTypesOf v.name
      = v.fieldTypes from Evidence.fieldTypesOf_ofUsages hnodup hv]
    exact hn
  · intro h
    obtain ⟨v, hv, rfl⟩ := mem_classNames_summary.1 (hfields n u h)
    rw [show (Index.summary settings s).evidence.fieldTypesOf v.name
      = v.fieldTypes from Evidence.fieldTypesOf_ofUsages hnodup hv] at h
    exact Evidence.mem_fieldUsersOf.2 ⟨v, hv, rfl, h⟩

-- ============================================================ counterparts

namespace Context

variable {ctx : Context} {f : String → String} {t : Table}
  {old new : String}

/-- What an old class uses, the class that `f` names uses under the names
that `f` gives. -/
structure Counterparts (ctx : Context) (f : String → String) : Prop where
  old : ctx.old.Coherent
  new : ctx.new.Coherent
  fieldTypesOf : ∀ n ∈ ctx.old.classNames,
    ctx.new.evidence.fieldTypesOf (f n)
      = (ctx.old.evidence.fieldTypesOf n).image f
  paramTypesOf : ∀ n ∈ ctx.old.classNames,
    ctx.new.evidence.paramTypesOf (f n)
      = (ctx.old.evidence.paramTypesOf n).image f
  returnTypesOf : ∀ n ∈ ctx.old.classNames,
    ctx.new.evidence.returnTypesOf (f n)
      = (ctx.old.evidence.returnTypesOf n).image f

/-- Whatever is used in the old build is declared there. -/
structure Closed (ctx : Context) : Prop where
  fieldTypes : ∀ n, ∀ k ∈ ctx.old.evidence.fieldTypesOf n,
    k ∈ ctx.old.classNames
  referencedTypes : ∀ n, ∀ k ∈ ctx.old.evidence.referencedTypes n,
    k ∈ ctx.old.classNames

/-- A table pairs each old class with its counterpart. -/
structure Pairs (ctx : Context) (f : String → String) (t : Table) : Prop where
  twoWay : t.TwoWay
  held : ∀ n ∈ ctx.old.classNames, t.newOf? n = some (f n)

theorem mem_fieldUsers_iff (h : ctx.old.Coherent) {u : String} :
    u ∈ ctx.fieldUsers old
      ↔ old ∈ ctx.old.evidence.fieldTypesOf u ∧ u ≠ old := by
  unfold fieldUsers Evidence.externalFieldUsers
  rw [← OrdSet.mem_def, OrdSet.mem_filter, h.fieldUsers_iff,
    decide_eq_true_eq]

section Pairs

variable (hf : ctx.Counterparts f) (ht : ctx.Pairs f t)
include hf ht

omit hf in
/-- Different classes have different counterparts. -/
theorem Pairs.injOn : Set.InjOn f { n | n ∈ ctx.old.classNames } := by
  intro a ha b hb heq
  have hb' := ht.held b hb
  rw [← heq] at hb'
  exact ht.twoWay.injective (ht.held a ha) hb'

/-- Every user of a class is carried to a user of its counterpart. -/
theorem agreeingUsers_eq (hold : old ∈ ctx.old.classNames) :
    ctx.agreeingUsers t old (f old) = ctx.fieldUsers old := by
  unfold agreeingUsers
  rw [List.filter_eq_self]
  intro u hu
  obtain ⟨hmem, hne⟩ := (mem_fieldUsers_iff hf.old).1 hu
  have hu' := hf.old.fieldTypes_declared old u hmem
  have huser : f u ∈ ctx.new.evidence.fieldUsersOf (f old) := by
    rw [hf.new.fieldUsers_iff, hf.fieldTypesOf u hu']
    exact OrdSet.mem_image.2 ⟨old, hmem, rfl⟩
  have hapart : f u ≠ f old := fun heq => hne (ht.injOn hu' hold heq)
  unfold carriesBeside
  rw [ht.held u hu']
  dsimp only
  rw [Bool.and_eq_true, bne_iff_ne, OrdSet.contains_iff]
  exact ⟨hapart, huser⟩

/-- The targets of the users of a class all use its counterpart. -/
theorem countP_userTargets (old : String) :
    (ctx.userTargets t old).countP (fun user =>
      (ctx.new.evidence.fieldTypesOf user).contains (f old))
        = (ctx.userTargets t old).length := by
  rw [List.countP_eq_length]
  intro target htarget
  obtain ⟨u, hu, hnew⟩ := List.mem_filterMap.1 htarget
  obtain ⟨hmem, -⟩ := (mem_fieldUsers_iff hf.old).1 hu
  have hu' := hf.old.fieldTypes_declared old u hmem
  rw [ht.held u hu'] at hnew
  rw [← Option.some.inj hnew, OrdSet.contains_iff, hf.fieldTypesOf u hu']
  exact OrdSet.mem_image.2 ⟨old, hmem, rfl⟩

variable (hclosed : ctx.Closed)
include hclosed

/-- Every type of a field of a class is carried to one of its
counterpart. -/
theorem agreeingFieldTypes_eq (hold : old ∈ ctx.old.classNames) :
    ctx.agreeingFieldTypes t old (f old) = ctx.otherFieldTypes old := by
  unfold agreeingFieldTypes
  rw [List.filter_eq_self]
  intro k hk
  have hmem : k ∈ ctx.old.evidence.fieldTypesOf old :=
    (List.mem_filter.1 hk).1
  unfold carries
  rw [ht.held k (hclosed.fieldTypes old k hmem)]
  dsimp only
  rw [OrdSet.contains_iff, hf.fieldTypesOf old hold]
  exact OrdSet.mem_image.2 ⟨k, hmem, rfl⟩

/-- What a class refers to is carried to what its counterpart refers
to. -/
theorem mem_referencedTypes (hold : old ∈ ctx.old.classNames) {k : String}
    (hk : k ∈ ctx.old.evidence.referencedTypes old) :
    f k ∈ ctx.new.evidence.referencedTypes (f old) := by
  have hk' := hclosed.referencedTypes old k hk
  unfold Evidence.referencedTypes at hk ⊢
  rw [OrdSet.mem_filter, decide_eq_true_eq] at hk ⊢
  rw [hf.fieldTypesOf old hold, hf.paramTypesOf old hold,
    hf.returnTypesOf old hold, ← OrdSet.image_union, ← OrdSet.image_union]
  exact ⟨OrdSet.mem_image.2 ⟨k, hk.1, rfl⟩,
    fun heq => hk.2 (ht.injOn hk' hold heq)⟩

omit ht in
/-- A class that nothing declares has no neighbours. -/
theorem neighbours_of_absent (hold : old ∉ ctx.old.classNames) :
    ctx.otherFieldTypes old = [] ∧ ctx.fieldUsers old = []
      ∧ ctx.old.evidence.referencedTypes old = {} := by
  refine ⟨?_, ?_, ?_⟩
  · apply List.eq_nil_iff_forall_not_mem.2
    intro k hk
    exact hold (hf.old.fieldTypes_declared k old (List.mem_filter.1 hk).1)
  · apply List.eq_nil_iff_forall_not_mem.2
    intro u hu
    exact hold (hclosed.fieldTypes u old ((mem_fieldUsers_iff hf.old).1 hu).1)
  · apply OrdSet.ext
    intro k
    refine ⟨fun hk => ?_, fun hk => (OrdSet.not_mem_empty k hk).elim⟩
    unfold Evidence.referencedTypes at hk
    rw [OrdSet.mem_filter, OrdSet.mem_union, OrdSet.mem_union] at hk
    rcases hk.1 with (hk | hk) | hk
    · exact (hold (hf.old.fieldTypes_declared k old hk)).elim
    · exact (hold (hf.old.paramTypes_declared k old hk)).elim
    · exact (hold (hf.old.returnTypes_declared k old hk)).elim

-- ============================================================= refinement

omit hf hclosed in
/-- What a declared class is paired with is its counterpart. -/
theorem Pairs.eq_of_held (hold : old ∈ ctx.old.classNames)
    (hnew : t.newOf? old = some new) : new = f old := by
  rw [ht.held old hold] at hnew
  exact (Option.some.inj hnew).symm

/-- All neighbours of a pair agree with it. -/
theorem neighbours_agree (hnew : t.newOf? old = some new) :
    ctx.agreeingFieldTypes t old new = ctx.otherFieldTypes old
      ∧ ctx.agreeingUsers t old new = ctx.fieldUsers old := by
  by_cases hold : old ∈ ctx.old.classNames
  · rw [ht.eq_of_held hold hnew]
    exact ⟨agreeingFieldTypes_eq hf ht hclosed hold,
      agreeingUsers_eq hf ht hold⟩
  · obtain ⟨htypes, husers, -⟩ := neighbours_of_absent hf hclosed hold
    unfold agreeingFieldTypes agreeingUsers
    rw [htypes, husers]
    exact ⟨rfl, rfl⟩

/-- No pair is doubtful. -/
theorem doubtful_eq_nil : ctx.doubtful t = [] := by
  refine List.eq_nil_iff_forall_not_mem.2 fun old hold => ?_
  obtain ⟨c, hc, hlow⟩ := Table.mem_oldsWhere.1 hold
  rw [Bool.and_eq_true, decide_eq_true_eq] at hlow
  have hnew : t.newOf? old = some c.target :=
    Table.newOf?_eq_some_iff.2 ⟨c, hc, rfl⟩
  obtain ⟨htypes, husers⟩ := neighbours_agree hf ht hclosed hnew
  have hlow := hlow.2
  unfold consistency at hlow
  rw [htypes, husers] at hlow
  dsimp only at hlow
  split at hlow
  · exact Binary64.not_div_self_lt
      (Binary64.tenths_atMost_ofNat (by decide)) hlow
  · exact (Binary64.tenths_atMost (by decide)).not_lt hlow

theorem refine_eq_self : ctx.refine t = (0, t) := by
  apply Table.rounds_eq_self
  unfold refineOnce
  rw [doubtful_eq_nil hf ht hclosed]
  rfl

-- ============================================================== constants

/-- No user of an old class is carried to a user of a newcomer. -/
theorem agreeingUsers_newcomer (hfree : t.isClaimed new = false) :
    ctx.agreeingUsers t old new = [] := by
  unfold agreeingUsers
  rw [List.filter_eq_nil_iff]
  intro u hu hcarried
  obtain ⟨hmem, -⟩ := (mem_fieldUsers_iff hf.old).1 hu
  have hu' := hf.old.fieldTypes_declared old u hmem
  unfold carriesBeside at hcarried
  rw [ht.held u hu'] at hcarried
  dsimp only at hcarried
  rw [Bool.and_eq_true, OrdSet.contains_iff, hf.new.fieldUsers_iff,
    hf.fieldTypesOf u hu', OrdSet.mem_image] at hcarried
  -- the newcomer would be the counterpart of a class
  obtain ⟨-, k, hk, heq⟩ := hcarried
  have hheld := ht.held k (hclosed.fieldTypes u k hk)
  rw [heq] at hheld
  rw [ht.twoWay.isClaimed_iff.2 ⟨k, hheld⟩] at hfree
  cases hfree

/-- A newcomer scores by its fields alone. -/
theorem correctionScore_newcomer (hfree : t.isClaimed new = false) :
    (ctx.correctionScore t old new).AtMost 0.7 := by
  have hshare : (ctx.userAgreement? t old new).getD 0 = 0 := by
    unfold userAgreement?
    rw [agreeingUsers_newcomer hf ht hclosed hfree]
    dsimp only
    split
    · rfl
    · next hne =>
      rw [List.isEmpty_iff] at hne
      rw [List.length_nil,
        Binary64.zero_div_ofNat (List.length_pos_iff.2 hne)]
      rfl
  unfold correctionScore fieldCloseness
  rw [hshare]
  have hfields := (Overlap.countCloseness_atMost (ctx.old.fieldCount old)
    (ctx.new.fieldCount new)).mul (w := 0.3) Binary64.isFinite_one rfl
      (Binary64.isFinite_tenths (by decide)) rfl
  have hbound : (0 * 0.7 : Binary64).isFinite = true
      ∧ (1 * 0.3 : Binary64).isFinite = true
      ∧ (0 * 0.7 + 1 * 0.3 : Binary64).isNaN = false
      ∧ (0 * 0.7 + 1 * 0.3 : Binary64).AtMost 0.7 := by decide +kernel
  obtain ⟨hnone, hall, hsum, htop⟩ := hbound
  exact ((Binary64.AtMost.refl (0 * 0.7)).add hfields hnone hall).trans hsum htop

/-- A pair of constant-like classes stays. -/
theorem correctConstant_eq_self (current : String) :
    ctx.correctConstant t (old, current) = (false, t) := by
  unfold correctConstant
  dsimp only
  split
  · rfl
  · split
    · next choice hchoice =>
      rw [if_pos]
      by_cases heq : choice.best.id = current
      · exact .inl heq
      · right
        obtain ⟨hbest, hpositive⟩ := mem_of_pickBest hchoice
        obtain ⟨new, hnew, hscored⟩ := List.mem_map.1 hbest
        rw [← hscored] at heq hpositive ⊢
        have hcandidate := (List.mem_filter.1 hnew).2
        rw [Bool.and_eq_true, Bool.or_eq_true, beq_iff_eq,
          Bool.not_eq_true'] at hcandidate
        have hfree := hcandidate.2.resolve_left heq
        exact (correctionScore_newcomer hf ht hclosed hfree).le
          hpositive.2.1 (Binary64.isNaN_tenths 7)
    · rfl

theorem correctConstants_eq_self : ctx.correctConstants t = (0, t) :=
  Table.sweep_eq_self fun pair _ =>
    correctConstant_eq_self hf ht hclosed pair.2

-- ============================================================= validation

/-- No reference of a pair misses. -/
theorem misses_eq_zero (hnew : t.newOf? old = some new) :
    (ctx.referenceAgreement t old new).2 = 0 := by
  unfold referenceAgreement
  dsimp only
  rw [List.countP_eq_zero]
  intro target htarget
  obtain ⟨k, hk, hheld⟩ := List.mem_filterMap.1 htarget
  rw [Bool.not_eq_true, Bool.not_eq_false', OrdSet.contains_iff]
  by_cases hold : old ∈ ctx.old.classNames
  · rw [ht.eq_of_held hold hnew,
      ht.eq_of_held (hclosed.referencedTypes old k hk) hheld]
    exact mem_referencedTypes hf ht hclosed hold hk
  · rw [(neighbours_of_absent hf hclosed hold).2.2] at hk
    cases hk

theorem validateOne_eq_self (old : String) :
    ctx.validateOne t old = (false, t) := by
  unfold validateOne
  split
  · rfl
  · next current hcurrent =>
    have hmisses := misses_eq_zero hf ht hclosed hcurrent
    dsimp only
    rw [if_neg]
    unfold mostlyMisses
    rw [hmisses]
    simp

theorem validateReferences_eq_self : ctx.validateReferences t = (0, t) :=
  Table.rounds_eq_self
    (Table.sweep_eq_self fun old _ => validateOne_eq_self hf ht hclosed old) _

-- ================================================================== audit

omit hf ht hclosed in
/-- There is no warning on a pair that all mapped users agree with. -/
theorem warning?_eq_none {c : Claim}
    (hagree : (ctx.userTargets t old).countP (fun user =>
      (ctx.new.evidence.fieldTypesOf user).contains c.target)
        = (ctx.userTargets t old).length) : ctx.warning? t old c = none := by
  unfold warning?
  dsimp only
  rw [hagree, if_neg]
  intro hlow
  rw [Bool.and_eq_true, decide_eq_true_eq] at hlow
  exact Binary64.not_div_self_lt
    (Binary64.tenths_atMost_ofNat (by decide)) hlow.2

theorem audit_eq_nil : ctx.audit t = [] := by
  unfold audit
  rw [List.filterMap_eq_nil_iff]
  intro e he
  have hnew : t.newOf? e.1 = some e.2.target :=
    Table.newOf?_eq_some_iff.2 ⟨e.2, Table.mem_entries_iff.1 he, rfl⟩
  apply warning?_eq_none
  by_cases hold : e.1 ∈ ctx.old.classNames
  · rw [ht.eq_of_held hold hnew]
    exact countP_userTargets hf ht e.1
  · have husers := (neighbours_of_absent hf hclosed hold).2.1
    unfold userTargets
    rw [husers]
    rfl

end Pairs

end Context

-- ============================================================== snapshots

open Descriptor (fieldNames methodNames)

/-- Every class that a member's descriptor names is declared, unless it
belongs to the platform. -/
def Snapshot.SelfContained (settings : Settings) (s : Snapshot) : Prop :=
  ∀ c ∈ s.classes,
    (∀ f ∈ c.fields, ∀ n ∈ fieldNames f.descriptor,
      settings.isPlatform n = false → n ∈ s.names)
    ∧ ∀ m ∈ c.methods, ∀ n ∈ methodNames m.descriptor,
      settings.isPlatform n = false → n ∈ s.names

instance (settings : Settings) (s : Snapshot) :
    Decidable (s.SelfContained settings) :=
  inferInstanceAs (Decidable (∀ c ∈ s.classes, _ ∧ _))

variable {settings : Settings} {f : String → String} {old new : Snapshot}

theorem Context.closed_ofSnapshots (hold : old.Valid)
    (h : old.SelfContained settings) :
    (Context.ofSnapshots settings old new).Closed := by
  have hnodup := hold.distinct
  rw [← Index.names_usages settings] at hnodup
  have hcoherent : (Index.summary settings old).Coherent :=
    Index.coherent_summary hold.distinct
  have hdeclared {k : String} (hk : k ∈ old.names) :
      k ∈ (Index.summary settings old).classNames := by
    rw [Index.classNames_summary]
    exact hk
  have hfields {n k : String}
      (hk : k ∈ (Index.summary settings old).evidence.fieldTypesOf n) :
      k ∈ (Index.summary settings old).classNames := by
    obtain ⟨u, hu, rfl⟩ := Index.mem_classNames_summary.1
      (hcoherent.fieldTypes_declared k n hk)
    rw [show (Index.summary settings old).evidence.fieldTypesOf u.name
      = u.fieldTypes from Evidence.fieldTypesOf_ofUsages hnodup hu] at hk
    obtain ⟨c, hc, rfl⟩ := List.mem_map.1 hu
    obtain ⟨hplatform, fd, hfd, hname⟩ :=
      ClassUsage.of_mem_fieldRefs (OrdSet.mem_ofList.1 hk)
    exact hdeclared ((h c hc).1 fd hfd k hname hplatform)
  have hmethods {c : ClassDecl} (hc : c ∈ old.classes) {k : String}
      (hk : k ∈ (ClassUsage.summary settings c).paramRefs
        ∨ k ∈ (ClassUsage.summary settings c).returnRefs) :
      k ∈ (Index.summary settings old).classNames := by
    obtain ⟨hplatform, m, hm, hname⟩ := ClassUsage.of_mem_methodRefs hk
    exact hdeclared ((h c hc).2 m hm k hname hplatform)
  refine ⟨fun n k hk => hfields hk, fun n k hk => ?_⟩
  unfold Evidence.referencedTypes at hk
  rw [OrdSet.mem_filter, OrdSet.mem_union, OrdSet.mem_union] at hk
  rcases hk.1 with (hk | hk) | hk
  · exact hfields hk
  · obtain ⟨u, hu, rfl⟩ := Index.mem_classNames_summary.1
      (hcoherent.paramTypes_declared k n hk)
    rw [show (Context.ofSnapshots settings old new).old.evidence.paramTypesOf
        u.name = u.paramTypes from
      Evidence.paramTypesOf_ofUsages hnodup hu] at hk
    obtain ⟨c, hc, rfl⟩ := List.mem_map.1 hu
    exact hmethods hc (.inl (OrdSet.mem_ofList.1 hk))
  · obtain ⟨u, hu, rfl⟩ := Index.mem_classNames_summary.1
      (hcoherent.returnTypes_declared k n hk)
    rw [show (Context.ofSnapshots settings old new).old.evidence.returnTypesOf
        u.name = u.returnTypes from
      Evidence.returnTypesOf_ofUsages hnodup hu] at hk
    obtain ⟨c, hc, rfl⟩ := List.mem_map.1 hu
    exact hmethods hc (.inr (OrdSet.mem_ofList.1 hk))

/-- A build that has every class of another one renamed. -/
theorem Context.counterparts_ofSnapshots (hold : old.Valid)
    (hnew : new.Valid)
    (hf : Name.Recoding settings f { n | n ∈ old.mentions })
    (hsub : ∀ c ∈ old.classes, c.rename f ∈ new.classes) :
    (Context.ofSnapshots settings old new).Counterparts f := by
  have hnodup := hold.distinct
  have hnodup' := hnew.distinct
  rw [← Index.names_usages settings] at hnodup hnodup'
  -- what a part of the graph says of a class, it says of its counterpart
  have hpart (part : Evidence → String → OrdSet String)
      (refs : ClassUsage → List String)
      (hread : ∀ {us : List ClassUsage} {u : ClassUsage},
        (us.map (·.name)).Nodup → u ∈ us →
          part (.ofUsages us) u.name = OrdSet.ofList (refs u))
      (hrefs : ∀ {u u' : ClassUsage}, u.Mirrors f u' →
        (refs u').Perm ((refs u).map f)) (n : String)
      (hn : n ∈ (Index.summary settings old).classNames) :
      part (Index.summary settings new).evidence (f n)
        = (part (Index.summary settings old).evidence n).image f := by
    obtain ⟨u, hu, rfl⟩ := Index.mem_classNames_summary.1 hn
    obtain ⟨c, hc, rfl⟩ := List.mem_map.1 hu
    have hu' : ClassUsage.summary settings (c.rename f)
        ∈ Index.usages settings new := List.mem_map.2 ⟨_, hsub c hc, rfl⟩
    have hmirrors : (ClassUsage.summary settings c).Mirrors f
        (.summary settings (c.rename f)) :=
      ClassDecl.usage_rename hf (hold.classes c hc)
        (Snapshot.within_mentions hc)
    have hnew := hread hnodup' hu'
    rw [hmirrors.name] at hnew
    refine hnew.trans ((OrdSet.ofList_eq_image (hrefs hmirrors)).trans ?_)
    exact congrArg (OrdSet.image f) (hread hnodup hu).symm
  exact
    { old := Index.coherent_summary hold.distinct
      new := Index.coherent_summary hnew.distinct
      fieldTypesOf := hpart Evidence.fieldTypesOf (·.fieldRefs)
        Evidence.fieldTypesOf_ofUsages (·.fieldRefs)
      paramTypesOf := hpart Evidence.paramTypesOf (·.paramRefs)
        Evidence.paramTypesOf_ofUsages (·.paramRefs)
      returnTypesOf := hpart Evidence.returnTypesOf (·.returnRefs)
        Evidence.returnTypesOf_ofUsages (·.returnRefs) }

/-- A renamed build with further classes of other names is valid. -/
theorem Snapshot.Valid.rename_append {more : Snapshot} (hold : old.Valid)
    (hmore : more.Valid)
    (hf : Name.Recoding settings f { n | n ∈ old.mentions })
    (hapart : ∀ c ∈ more.classes, ∀ d ∈ old.classes, c.name ≠ f d.name)
    (hnew : new.classes.Perm ((old.rename f).classes ++ more.classes)) :
    new.Valid := by
  have hrenamed := hold.rename hf fun _ hc => Snapshot.within_mentions hc
  constructor
  · intro c hc
    rcases List.mem_append.1 (hnew.mem_iff.1 hc) with hc | hc
    · exact hrenamed.classes c hc
    · exact hmore.classes c hc
  · have hnames : new.names.Perm ((old.rename f).names ++ more.names) := by
      unfold Snapshot.names
      rw [← List.map_append]
      exact hnew.map _
    rw [hnames.nodup_iff, List.nodup_append]
    refine ⟨hrenamed.distinct, hmore.distinct, ?_⟩
    intro a ha b hb heq
    obtain ⟨c, hc, rfl⟩ := List.mem_map.1 ha
    obtain ⟨d, hd, rfl⟩ := List.mem_map.1 hc
    obtain ⟨e, he, rfl⟩ := List.mem_map.1 hb
    exact hapart e he d hd heq.symm

namespace Sample

/-- A class of constants, a class that uses it, and a stable class. -/
def steadyOld : List ClassDecl :=
  [ { name := "app/Main"
      kind := .plain
      superName := some "java/lang/Object"
      interfaces := []
      fields := []
      methods := [⟨"run", "(Lu;)Ljava/lang/String;", false, false, []⟩] },
    { name := "a"
      kind := .enumType
      superName := none
      interfaces := []
      fields := [⟨"a", "La;", true, true⟩]
      methods := [⟨"b", "(I)[La;", true, false, []⟩] },
    { name := "u"
      kind := .plain
      superName := none
      interfaces := []
      fields := [⟨"a", "La;", false, false⟩, ⟨"b", "Lapp/Main;", false, false⟩]
      methods := [] } ]

/-- A class of constants that was not there before. -/
def steadyExtra : List ClassDecl :=
  [ { name := "z"
      kind := .enumType
      superName := none
      interfaces := []
      fields := [⟨"a", "Lz;", true, true⟩]
      methods := [⟨"b", "(I)[La;", true, false, []⟩] } ]

/-- New names for the obfuscated classes, in another order. -/
def steadyName : String → String
  | "a" => "c"
  | "u" => "a"
  | name => name

/-- Settings under which one own-typed field makes a class
constant-like. -/
def steadySettings : Settings := { Settings.default with constantSelfRefs := 0 }

/-- The pairs of the classes with what they became. -/
def steadyTable : Table :=
  Table.replay {} [.fix "app/Main" "app/Main", .claim "a" "c" 0.1 .propagated,
    .claim "u" "a" 0.9 .anchor]

theorem ofClasses_steadyOld :
    Snapshot.ofClasses steadyOld = .ok ⟨steadyOld⟩ := rfl

theorem ofClasses_steadyExtra :
    Snapshot.ofClasses steadyExtra = .ok ⟨steadyExtra⟩ := rfl

theorem twoWay_steadyTable : steadyTable.TwoWay :=
  Table.replay_induction (P := Table.TwoWay) (fun _ c h => h.call c)
    Table.twoWay_empty _

end Sample

namespace Context

/-- A table that pairs every class with the class it became stands: no
later stage moves a pair of it, and the audit has no warning. -/
theorem true_pairs_stand (settings : Settings) (f : String → String)
    (olds extra news : List ClassDecl) (old more : Snapshot)
    (hold : Snapshot.ofClasses olds = .ok old)
    (hcontained : old.SelfContained settings)
    (hf : Name.Recoding settings f { n | n ∈ old.mentions })
    (hmore : Snapshot.ofClasses extra = .ok more)
    (hapart : ∀ c ∈ extra, ∀ d ∈ olds, c.name ≠ f d.name)
    (hnews : news.Perm (olds.map (.rename f) ++ extra)) :
    ∃ new x y, Snapshot.ofClasses news = .ok new
      ∧ (⟨settings⟩ : Resolver).index old = .ok x
      ∧ (⟨settings⟩ : Resolver).index new = .ok y
      ∧ ∀ t : Table, t.TwoWay →
        (∀ c ∈ olds, t.newOf? c.name = some (f c.name)) →
        (Context.mk settings x y).refine t = (0, t)
          ∧ (Context.mk settings x y).correctConstants t = (0, t)
          ∧ (Context.mk settings x y).validateReferences t = (0, t)
          ∧ (Context.mk settings x y).audit t = [] := by
  obtain ⟨rfl, holdValid⟩ := Snapshot.ofClasses_eq_ok_iff.1 hold
  obtain ⟨rfl, hmoreValid⟩ := Snapshot.ofClasses_eq_ok_iff.1 hmore
  have hnewValid : Snapshot.Valid ⟨news⟩ :=
    holdValid.rename_append hmoreValid hf hapart hnews
  have hsub : ∀ c ∈ old.classes, c.rename f ∈ news := fun c hc =>
    hnews.mem_iff.2 (List.mem_append_left _ (List.mem_map.2 ⟨c, hc, rfl⟩))
  have hcounterparts :
      (Context.ofSnapshots settings old ⟨news⟩).Counterparts f :=
    counterparts_ofSnapshots holdValid hnewValid hf hsub
  have hclosed : (Context.ofSnapshots settings old ⟨news⟩).Closed :=
    closed_ofSnapshots holdValid hcontained
  refine ⟨⟨news⟩, _, _, Snapshot.ofClasses_eq_ok_iff.2 ⟨rfl, hnewValid⟩,
    Resolver.index_eq_ok _ holdValid, Resolver.index_eq_ok _ hnewValid, ?_⟩
  intro t htwo hheld
  have hpairs : (Context.ofSnapshots settings old ⟨news⟩).Pairs f t := by
    refine ⟨htwo, fun n hn => ?_⟩
    obtain ⟨u, hu, rfl⟩ := Index.mem_classNames_summary.1 hn
    obtain ⟨c, hc, rfl⟩ := List.mem_map.1 hu
    exact hheld c hc
  exact ⟨refine_eq_self hcounterparts hpairs hclosed,
    correctConstants_eq_self hcounterparts hpairs hclosed,
    validateReferences_eq_self hcounterparts hpairs hclosed,
    audit_eq_nil hcounterparts hpairs hclosed⟩

theorem true_pairs_stand_steady :
    ∃ new x y,
      Snapshot.ofClasses (Sample.steadyExtra
        ++ Sample.steadyOld.map (.rename Sample.steadyName)) = .ok new
      ∧ (⟨Sample.steadySettings⟩ : Resolver).index ⟨Sample.steadyOld⟩ = .ok x
      ∧ (⟨Sample.steadySettings⟩ : Resolver).index new = .ok y
      ∧ (Context.mk Sample.steadySettings x y).refine Sample.steadyTable
        = (0, Sample.steadyTable)
      ∧ (Context.mk Sample.steadySettings x y).correctConstants
        Sample.steadyTable = (0, Sample.steadyTable)
      ∧ (Context.mk Sample.steadySettings x y).validateReferences
        Sample.steadyTable = (0, Sample.steadyTable)
      ∧ (Context.mk Sample.steadySettings x y).audit Sample.steadyTable
        = [] := by
  obtain ⟨new, x, y, hnew, hx, hy, h⟩ :=
    true_pairs_stand Sample.steadySettings Sample.steadyName Sample.steadyOld
      Sample.steadyExtra _ ⟨Sample.steadyOld⟩ ⟨Sample.steadyExtra⟩
      Sample.ofClasses_steadyOld (by decide +kernel) (by decide +kernel)
      Sample.ofClasses_steadyExtra (by decide +kernel) List.perm_append_comm
  exact ⟨new, x, y, hnew, hx, hy,
    h Sample.steadyTable Sample.twoWay_steadyTable (by decide +kernel)⟩

end Context

end SymbolMatch
