/-
Every number that a run computes is the same on a mirroring context. The
lists of neighbours correspond up to their order, the table carries a
neighbour into a set if and only if the renamed table carries the renamed
neighbour into the renamed set, and the scores count such neighbours.
-/
import SymbolMatch.Proofs.Matching.Mirror

namespace SymbolMatch.Context

variable {ctx ctx' : Context} {g f : String → String} {t : Table}
  {old new : String}

namespace Mirrors

variable (h : ctx.Mirrors g f ctx')
include h

-- ============================================================== anchors

section Anchors

variable (hold : old ∈ ctx.old.classNames) (hnew : new ∈ ctx.new.classNames)
include hold hnew

theorem fieldTypeTerm :
    ctx'.fieldTypeTerm (g old) (f new) = ctx.fieldTypeTerm old new := by
  unfold Context.fieldTypeTerm
  rw [h.old.size_fieldTypesOf hold, h.new.size_fieldTypesOf hnew]

theorem userCountTerm :
    ctx'.userCountTerm (g old) (f new) = ctx.userCountTerm old new := by
  unfold Context.userCountTerm
  rw [h.old.externalFieldUserCount hold, h.new.externalFieldUserCount hnew]

theorem selfRefTerm :
    ctx'.selfRefTerm (g old) (f new) = ctx.selfRefTerm old new := by
  unfold Context.selfRefTerm
  rw [h.old.selfFieldRefs old hold, h.new.selfFieldRefs new hnew, h.settings]

theorem anchorScore :
    ctx'.anchorScore (g old) (f new) = ctx.anchorScore old new := by
  unfold Context.anchorScore
  rw [h.similarity (.inl hold) (.inl hnew), h.fieldTypeTerm hold hnew,
    h.userCountTerm hold hnew, h.selfRefTerm hold hnew,
    h.old.fingerprint? (.inl hold), h.new.fingerprint? (.inl hnew)]
  cases ctx.old.fingerprint? old <;> cases ctx.new.fingerprint? new <;> rfl

theorem constantScore :
    ctx'.constantScore (g old) (f new) = ctx.constantScore old new := by
  unfold Context.constantScore constantUserCloseness
  rw [h.old.externalFieldUserCount hold, h.new.externalFieldUserCount hnew,
    h.fieldCloseness (.inl hold) (.inl hnew)]

end Anchors

theorem anchorPriority (hold : old ∈ ctx.old.classNames) :
    ctx'.anchorPriority (g old) = ctx.anchorPriority old := by
  unfold Context.anchorPriority
  dsimp only
  rw [h.old.externalFieldRefs old hold, h.old.externalParamRefs old hold,
    h.old.fingerprint? (.inl hold), Option.map_map]
  rfl

-- =========================================================== neighbours

theorem fieldUsers_perm (hold : old ∈ ctx.old.classNames) :
    (ctx'.fieldUsers (g old)).Perm ((ctx.fieldUsers old).map g) := by
  unfold Context.fieldUsers
  rw [h.old.externalFieldUsers hold]
  exact OrdSet.elements_image_perm h.old.injOn fun _ huser =>
    .inl (h.old.declared_of_externalFieldUsers huser)

/-- Names other than a class, among those of its index. -/
theorem filter_ne_perm (hold : old ∈ ctx.old.classNames) {a : OrdSet String}
    (ha : ∀ k ∈ a, k ∈ ctx.old.names) :
    ((a.image g).elements.filter (· != g old)).Perm
      ((a.elements.filter (· != old)).map g) := by
  exact Correspondence.filter (OrdSet.elements_image_perm h.old.injOn ha)
    fun k hk => h.old.orderly.bne_eq (ha k hk) (.inl hold)

theorem otherFieldTypes_perm (hold : old ∈ ctx.old.classNames) :
    (ctx'.otherFieldTypes (g old)).Perm ((ctx.otherFieldTypes old).map g) := by
  unfold Context.otherFieldTypes
  rw [h.old.fieldTypesOf old hold]
  exact h.filter_ne_perm hold fun _ =>
    Index.mem_names_of_mem_fieldTypesOf hold

theorem signatureTypes_perm (hold : old ∈ ctx.old.classNames) :
    (ctx'.signatureTypes (g old)).Perm ((ctx.signatureTypes old).map g) := by
  unfold Context.signatureTypes
  rw [h.old.fieldTypesOf old hold, h.old.paramTypesOf old hold,
    ← OrdSet.image_union]
  refine h.filter_ne_perm hold fun k hk => ?_
  rcases OrdSet.mem_union.1 hk with hk | hk
  · exact Index.mem_names_of_mem_fieldTypesOf hold hk
  · exact Index.mem_names_of_mem_paramTypesOf hold hk

section Carrying

variable (ht : ctx.Sound t) {n : String} {a : OrdSet String}
include ht

theorem newOf? (hn : n ∈ ctx.old.names) :
    (t.relabel g f).newOf? (g n) = (t.newOf? n).map f :=
  Table.newOf?_relabel h.old.injOn ht.within hn

theorem carries (hn : n ∈ ctx.old.names) (ha : ∀ k ∈ a, k ∈ ctx.new.names) :
    Context.carries (t.relabel g f) (g n) (a.image f)
      = Context.carries t n a := by
  unfold Context.carries
  rw [h.newOf? ht hn]
  cases hnew : t.newOf? n with
  | none => rfl
  | some target =>
    exact OrdSet.contains_image h.new.injOn ha
      (.inl (ht.declared hnew).2)

theorem carriesBeside (hnew : new ∈ ctx.new.names)
    (hn : n ∈ ctx.old.names) (ha : ∀ k ∈ a, k ∈ ctx.new.names) :
    Context.carriesBeside (t.relabel g f) (f new) (g n) (a.image f)
      = Context.carriesBeside t new n a := by
  unfold Context.carriesBeside
  rw [h.newOf? ht hn]
  cases htarget : t.newOf? n with
  | none => rfl
  | some target =>
    have hmem : target ∈ ctx.new.names := .inl (ht.declared htarget).2
    simp only [Option.map_some]
    rw [h.new.orderly.bne_eq hmem hnew,
      OrdSet.contains_image h.new.injOn ha hmem]

variable (hold : old ∈ ctx.old.classNames) (hnew : new ∈ ctx.new.classNames)
include hold hnew

theorem length_agreeingUsers :
    (ctx'.agreeingUsers (t.relabel g f) (g old) (f new)).length
      = (ctx.agreeingUsers t old new).length := by
  refine Correspondence.length_eq
    (Correspondence.filter (h.fieldUsers_perm hold) ?_)
  intro user huser
  have hdeclared := h.old.declared_of_externalFieldUsers huser
  rw [h.new.fieldUsersOf new hnew]
  exact h.carriesBeside ht (.inl hnew) (.inl hdeclared)
    fun k hk => .inl (h.new.fieldUsers_declared new k hk)

theorem length_agreeingFieldTypes :
    (ctx'.agreeingFieldTypes (t.relabel g f) (g old) (f new)).length
      = (ctx.agreeingFieldTypes t old new).length := by
  refine Correspondence.length_eq
    (Correspondence.filter (h.otherFieldTypes_perm hold) ?_)
  intro type htype
  rw [h.new.fieldTypesOf new hnew]
  exact h.carries ht (Index.mem_names_of_mem_fieldTypesOf hold
      (List.mem_filter.1 htype).1)
    fun _ => Index.mem_names_of_mem_fieldTypesOf hnew

theorem length_agreeingSignatureTypes :
    (ctx'.agreeingSignatureTypes (t.relabel g f) (g old) (f new)).length
      = (ctx.agreeingSignatureTypes t old new).length := by
  refine Correspondence.length_eq
    (Correspondence.filter (h.signatureTypes_perm hold) ?_)
  intro type htype
  rw [h.new.fieldTypesOf new hnew, h.new.paramTypesOf new hnew,
    ← OrdSet.image_union]
  refine h.carriesBeside ht (.inl hnew) ?_ fun k hk => ?_
  · rcases OrdSet.mem_union.1 (List.mem_filter.1 htype).1 with hk | hk
    · exact Index.mem_names_of_mem_fieldTypesOf hold hk
    · exact Index.mem_names_of_mem_paramTypesOf hold hk
  · rcases OrdSet.mem_union.1 hk with hk | hk
    · exact Index.mem_names_of_mem_fieldTypesOf hnew hk
    · exact Index.mem_names_of_mem_paramTypesOf hnew hk

-- =============================================================== scores

theorem userAgreement? :
    ctx'.userAgreement? (t.relabel g f) (g old) (f new)
      = ctx.userAgreement? t old new := by
  have hlength := Correspondence.length_eq (h.fieldUsers_perm hold)
  unfold Context.userAgreement?
  simp only [List.isEmpty_iff_length_eq_zero, hlength,
    h.length_agreeingUsers ht hold hnew]

theorem consistency :
    ctx'.consistency (t.relabel g f) (g old) (f new)
      = ctx.consistency t old new := by
  unfold Context.consistency
  rw [Correspondence.length_eq (h.fieldUsers_perm hold),
    Correspondence.length_eq (h.otherFieldTypes_perm hold),
    h.length_agreeingFieldTypes ht hold hnew,
    h.length_agreeingUsers ht hold hnew]

theorem comprehensiveScore :
    ctx'.comprehensiveScore (t.relabel g f) (g old) (f new)
      = ctx.comprehensiveScore t old new := by
  have hlength := Correspondence.length_eq (h.signatureTypes_perm hold)
  unfold Context.comprehensiveScore
  simp only [List.isEmpty_iff_length_eq_zero, hlength,
    h.length_agreeingSignatureTypes ht hold hnew,
    h.similarity (.inl hold) (.inl hnew), h.isOldConstant hold,
    h.isNewConstant hnew, h.userAgreement? ht hold hnew,
    h.fieldCloseness (.inl hold) (.inl hnew)]

theorem correctionScore :
    ctx'.correctionScore (t.relabel g f) (g old) (f new)
      = ctx.correctionScore t old new := by
  unfold Context.correctionScore
  rw [h.userAgreement? ht hold hnew, h.fieldCloseness (.inl hold) (.inl hnew)]

theorem referenceAgreement :
    ctx'.referenceAgreement (t.relabel g f) (g old) (f new)
      = ctx.referenceAgreement t old new := by
  have hp := OrdSet.elements_image_perm h.old.injOn fun _ =>
    Index.Mirrors.mem_names_of_mem_referencedTypes hold
  have htargets := Correspondence.filterMap hp fun n hn =>
    h.newOf? ht (Index.Mirrors.mem_names_of_mem_referencedTypes hold hn)
  have hcontains : ∀ n ∈
        (ctx.old.evidence.referencedTypes old).elements.filterMap t.newOf?,
      ((ctx.new.evidence.referencedTypes new).image f).contains (f n)
        = (ctx.new.evidence.referencedTypes new).contains n := by
    intro n hn
    obtain ⟨k, -, hk⟩ := List.mem_filterMap.1 hn
    exact OrdSet.contains_image h.new.injOn
      (fun _ => Index.Mirrors.mem_names_of_mem_referencedTypes hnew)
      (.inl (ht.declared hk).2)
  unfold Context.referenceAgreement
  dsimp only
  rw [h.old.referencedTypes hold, h.new.referencedTypes hnew,
    Correspondence.countP_eq htargets hcontains,
    Correspondence.countP_eq htargets fun n hn => by rw [hcontains n hn]]

theorem validationScore (hits : Nat) :
    ctx'.validationScore (t.relabel g f) (g old) hits (f new)
      = ctx.validationScore t old hits new := by
  unfold Context.validationScore
  rw [h.referenceAgreement ht hold hnew, h.similarity (.inl hold) (.inl hnew)]

end Carrying

-- ================================================================ votes

section Votes

variable (ht : ctx.Sound t)
include ht

theorem isOpen (hnew : new ∈ ctx.new.names) :
    ctx'.isOpen (t.relabel g f) (f new) = ctx.isOpen t new := by
  unfold Context.isOpen
  rw [h.new.contains hnew, h.isObfuscated,
    h.new.orderly.isObfuscated_eq hnew,
    Table.isClaimed_relabel h.new.injOn ht.within hnew]

theorem votedFor_perm {typesOf typesOf' : String → OrdSet String}
    {user : String}
    (htypes : ∀ n ∈ ctx.new.classNames, typesOf' (f n) = (typesOf n).image f)
    (hknown : ∀ n ∈ ctx.new.classNames, ∀ k ∈ typesOf n, k ∈ ctx.new.names)
    (huser : user ∈ ctx.old.names) :
    (ctx'.votedFor (t.relabel g f) typesOf' (g user)).Perm
      ((ctx.votedFor t typesOf user).map f) := by
  unfold votedFor
  rw [h.newOf? ht huser]
  cases hnew : t.newOf? user with
  | none => exact List.Perm.refl _
  | some target =>
    have hmem := (ht.declared hnew).2
    simp only [Option.map_some]
    rw [htypes target hmem]
    exact Correspondence.filter
      (OrdSet.elements_image_perm h.new.injOn (hknown target hmem))
      fun k hk => h.isOpen ht (hknown target hmem k hk)

variable (hold : old ∈ ctx.old.classNames)
include hold

theorem fieldVotes_perm :
    (ctx'.fieldVotes (t.relabel g f) (g old)).Perm
      ((ctx.fieldVotes t old).map f) :=
  Correspondence.flatMap (h.fieldUsers_perm hold) fun _ huser =>
    h.votedFor_perm ht h.new.fieldTypesOf
      (fun _ hn _ => Index.mem_names_of_mem_fieldTypesOf hn)
      (.inl (h.old.declared_of_externalFieldUsers huser))

theorem paramVotes_perm :
    (ctx'.paramVotes (t.relabel g f) (g old)).Perm
      ((ctx.paramVotes t old).map f) := by
  unfold paramVotes
  rw [h.old.externalParamUsers hold]
  have hdeclared : ∀ user ∈ ctx.old.evidence.externalParamUsers old,
      user ∈ ctx.old.names :=
    fun _ huser => .inl (h.old.declared_of_externalParamUsers huser)
  exact Correspondence.flatMap
    (OrdSet.elements_image_perm h.old.injOn hdeclared)
    fun user huser => h.votedFor_perm ht h.new.paramTypesOf
      (fun _ hn _ => Index.mem_names_of_mem_paramTypesOf hn)
      (hdeclared user huser)

omit h ht hold in
/-- Whoever gets a vote is a new class. -/
theorem mem_names_of_voted {k : String}
    (hmem : k ∈ ctx.fieldVotes t old ∨ k ∈ ctx.paramVotes t old) :
    k ∈ ctx.new.names :=
  .inl (mem_newObfuscated.1
    (mem_newObfuscated_of_isOpen (isOpen_of_voted hmem))).1

theorem get?_votes {k : String} (hk : k ∈ ctx.new.names) :
    (ctx'.neighbourVotes (t.relabel g f) (g old)).votes.get? (f k)
      = (ctx.neighbourVotes t old).votes.get? k := by
  have hfields : ∀ n ∈ ctx.fieldVotes t old, f n = f k → n = k :=
    fun n hn => h.new.injOn (mem_names_of_voted (.inl hn)) hk
  have hparams : ∀ n ∈ ctx.paramVotes t old, f n = f k → n = k :=
    fun n hn => h.new.injOn (mem_names_of_voted (.inr hn)) hk
  simp only [get?_neighbourVotes,
    Correspondence.mem_iff hfields (h.fieldVotes_perm ht hold),
    Correspondence.mem_iff hparams (h.paramVotes_perm ht hold),
    Correspondence.count_eq hfields (h.fieldVotes_perm ht hold),
    Correspondence.count_eq hparams (h.paramVotes_perm ht hold)]

/-- The renamed class gets the votes under the new names. -/
theorem votes_neighbourVotes :
    (ctx'.neighbourVotes (t.relabel g f) (g old)).votes
      = (ctx.neighbourVotes t old).votes.relabel f id := by
  have hkeys : ∀ k ∈ (ctx.neighbourVotes t old).votes.keys,
      k ∈ ctx.new.names := fun k hk => mem_names_of_voted (voted_of_mem_keys hk)
  refine OrdMap.ext_get? fun k' => Option.ext fun v => ?_
  rw [OrdMap.get?_relabel_iff h.new.injOn hkeys]
  constructor
  · intro hv
    have hvoted := voted_of_mem_keys (OrdMap.mem_keys_iff.2 ⟨v, hv⟩)
    rw [(h.fieldVotes_perm ht hold).mem_iff,
      (h.paramVotes_perm ht hold).mem_iff, List.mem_map, List.mem_map]
      at hvoted
    obtain ⟨k, hk, rfl⟩ : ∃ k, k ∈ ctx.new.names ∧ f k = k' := by
      rcases hvoted with ⟨k, hk, rfl⟩ | ⟨k, hk, rfl⟩
      · exact ⟨k, mem_names_of_voted (.inl hk), rfl⟩
      · exact ⟨k, mem_names_of_voted (.inr hk), rfl⟩
    rw [h.get?_votes ht hold hk] at hv
    exact ⟨k, v, hv, rfl, rfl⟩
  · rintro ⟨k, w, hw, rfl, rfl⟩
    rw [h.get?_votes ht hold (hkeys k (OrdMap.mem_keys_iff.2 ⟨w, hw⟩)), hw]
    rfl

omit ht in
theorem possible_neighbourVotes :
    (ctx'.neighbourVotes (t.relabel g f) (g old)).possible
      = (ctx.neighbourVotes t old).possible := by
  rw [Context.possible_neighbourVotes, Context.possible_neighbourVotes,
    h.old.externalFieldUsers hold, h.old.externalParamUsers hold,
    OrdSet.size_image h.old.injOn fun _ huser =>
      .inl (h.old.declared_of_externalFieldUsers huser),
    OrdSet.size_image h.old.injOn fun _ huser =>
      .inl (h.old.declared_of_externalParamUsers huser)]

end Votes

end Mirrors

end SymbolMatch.Context
