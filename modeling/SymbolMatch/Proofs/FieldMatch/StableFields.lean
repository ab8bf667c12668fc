/-
Fields that are settled by their names, in the assignment.

A settled field has one candidate, at full score, and enters the same
contest as all other fields. It can lose in two ways. Two old fields may
be settled on one new field, if the classes in their descriptors have
become one; the assignment is one-to-one, so only the first of them gets
it. And a field that is scored may reach the full score too, and then
the order of the keys decides (`Contested`).

Apart from the second case the outcome is known: of the fields settled
on a new field (`claimants`) the first is assigned to it, and the others
are assigned nothing.
-/
import SymbolMatch.Proofs.FieldMatch.Assignment
import SymbolMatch.Proofs.FieldMatch.Shortlist

namespace SymbolMatch

namespace FieldContext

open FieldResolution

variable {ctx : FieldContext} {threshold : Binary64} {old new : Member}
  {p q : Pair}

-- ============================================================ the pairs

/-- The old fields that are settled on a new field, in order. -/
def claimants (ctx : FieldContext) (new : Member) : List Member :=
  ctx.old.fields.keys.filter fun old => ctx.fixedCandidate? old = some new

/-- A scored pair with the same new field goes before the settled one. -/
def Contested (ctx : FieldContext) (threshold : Binary64)
    (old new : Member) : Prop :=
  ∃ p ∈ ctx.resolve.pairsAbove threshold, p.candidate.fixed = false
    ∧ p.candidate.new = new
    ∧ p.precedence ⟨old, .settled new⟩ = .lt

instance : Decidable (ctx.Contested threshold old new) :=
  inferInstanceAs (Decidable (∃ p ∈ _, _))

theorem mem_claimants :
    old ∈ ctx.claimants new
      ↔ ctx.old.fields.contains old = true
        ∧ ctx.fixedCandidate? old = some new := by
  unfold claimants
  rw [List.mem_filter, decide_eq_true_eq, OrdMap.contains_iff]

/-- The first claimant goes before the others. -/
theorem compare_of_head?_claimants {first : Member}
    (hfirst : (ctx.claimants new).head? = some first)
    (hold : old ∈ ctx.claimants new) (hne : old ≠ first) :
    compare first old = .lt := by
  have hsorted : (ctx.claimants new).Pairwise fun a b => compare a b = .lt :=
    ctx.old.fields.keys_sorted.filter _
  obtain ⟨rest, hrest⟩ := List.head?_eq_some_iff.1 hfirst
  rw [hrest] at hsorted hold
  exact (List.pairwise_cons.1 hsorted).1 old
    ((List.mem_cons.1 hold).resolve_left hne)

/-- The pairs of a run are the candidates of the declared fields. -/
theorem mem_pairsAbove_resolve :
    p ∈ ctx.resolve.pairsAbove threshold
      ↔ ctx.old.fields.contains p.old = true
        ∧ p.candidate ∈ ctx.candidatesFor p.old
        ∧ threshold < p.candidate.score := by
  rw [mem_pairsAbove, ← and_assoc]
  apply and_congr_left
  intro _
  simp only [get?_resolve, OrdMap.contains_iff, OrdMap.mem_keys_iff,
    Option.map_eq_some_iff]
  constructor
  · rintro ⟨list, ⟨info, hinfo, rfl⟩, hc⟩
    exact ⟨⟨info, hinfo⟩, hc⟩
  · rintro ⟨⟨info, hinfo⟩, hc⟩
    exact ⟨_, ⟨info, hinfo, rfl⟩, hc⟩

/-- A settled field is in one pair. -/
theorem eq_of_settled (hq : q ∈ ctx.resolve.pairsAbove threshold)
    (h : ctx.fixedCandidate? q.old = some new) : q = ⟨q.old, .settled new⟩ := by
  have hc := (mem_pairsAbove_resolve.1 hq).2.1
  unfold candidatesFor at hc
  rw [h] at hc
  rw [← List.mem_singleton.1 hc]

/-- The pairs of any other field are scored. -/
theorem fixed_eq_false (hq : q ∈ ctx.resolve.pairsAbove threshold)
    (h : ctx.fixedCandidate? q.old = none) : q.candidate.fixed = false := by
  have hc := (mem_pairsAbove_resolve.1 hq).2.1
  exact ((shortlist_candidatesFor h).scored _ hc).1

/-- Settled pairs with one new field go by their old fields. -/
theorem precedence_settled (x y new : Member) :
    Pair.precedence ⟨x, .settled new⟩ ⟨y, .settled new⟩ = compare x y := by
  unfold Pair.precedence
  rw [show Binary64.totalCompare (FieldCandidate.settled new).score
      (FieldCandidate.settled new).score = .eq from
    Binary64.totalCompare_eq_iff.2 rfl]
  rw [show compare (FieldCandidate.settled new).new
      (FieldCandidate.settled new).new = .eq from Std.ReflOrd.compare_self]
  cases compare x y <;> rfl

-- ========================================================== the outcome

section Outcome

variable {first : Member} (hthreshold : threshold < 1)
  (hfirst : (ctx.claimants new).head? = some first)

include hthreshold hfirst

/-- The pair of the first claimant comes up in the run once. -/
theorem exists_split :
    ∃ before after, ctx.resolve.pairsAbove threshold
        = before ++ ⟨first, .settled new⟩ :: after
      ∧ ⟨first, .settled new⟩ ∉ before := by
  obtain ⟨hdeclared, hfixed⟩ := mem_claimants.1 (List.mem_of_head? hfirst)
  apply List.eq_append_cons_of_mem
  refine mem_pairsAbove_resolve.2 ⟨hdeclared, ?_, hthreshold⟩
  unfold candidatesFor
  rw [hfixed]
  exact List.mem_singleton.2 rfl

/-- The first claimant is assigned to the field it is settled on, unless
a scored pair goes before. -/
theorem assign_first (hfree : ¬ctx.Contested threshold first new) :
    (ctx.resolve.assign threshold).get? first = some new := by
  obtain ⟨before, after, hsplit, hout⟩ := exists_split hthreshold hfirst
  rcases taken_or_beaten hsplit with htaken | ⟨q, hq, -, hshares⟩
  · exact htaken
  exfalso
  have hfixed := (mem_claimants.1 (List.mem_of_head? hfirst)).2
  have hrank := precedence_ne_gt_of_split hsplit hq
  have hmem : q ∈ ctx.resolve.pairsAbove threshold := by
    rw [hsplit]
    exact List.mem_append_left _ hq
  -- the first claimant has no other pair
  have hne : q.old ≠ first := by
    intro heq
    rw [← heq] at hfixed hout
    rw [eq_of_settled hmem hfixed] at hq
    exact hout hq
  have hnew : q.candidate.new = new := hshares.resolve_left hne
  cases hsettled : ctx.fixedCandidate? q.old with
  | none =>
    refine hfree ⟨q, hmem, fixed_eq_false hmem hsettled, hnew, ?_⟩
    cases hcompare : q.precedence ⟨first, .settled new⟩ with
    | lt => rfl
    | eq => exact absurd (Pair.eq_of_precedence hcompare).2.1 hne
    | gt => exact absurd hcompare hrank
  | some n =>
    have heq := eq_of_settled hmem hsettled
    have hn : n = new := by
      rw [heq] at hnew
      exact hnew
    subst hn
    have hlt := compare_of_head?_claimants hfirst
      (mem_claimants.2 ⟨(mem_pairsAbove_resolve.1 hmem).1, hsettled⟩) hne
    rw [heq, precedence_settled] at hrank
    exact hrank (Std.OrientedCmp.gt_of_lt hlt)

/-- No other claimant is assigned anything. -/
theorem assign_later (hold : old ∈ ctx.claimants new) (hne : old ≠ first) :
    (ctx.resolve.assign threshold).get? old = none := by
  obtain ⟨before, after, hsplit, -⟩ := exists_split hthreshold hfirst
  have hlt := compare_of_head?_claimants hfirst hold hne
  have hfixed := (mem_claimants.1 (List.mem_of_head? hfirst)).2
  have hfixed' := (mem_claimants.1 hold).2
  refine Option.eq_none_iff_forall_ne_some.2 fun m hm => ?_
  -- all that could be assigned is the field it is settled on
  have hnew : m = new := by
    obtain ⟨q, hq, hqold, hqnew⟩ := of_get?_assign hm
    rw [← hqold] at hfixed'
    rw [eq_of_settled hq hfixed'] at hqnew
    exact hqnew.symm
  rw [hnew] at hm
  rcases taken_or_beaten hsplit with htaken | ⟨q, hq, hassigned, hshares⟩
  · exact hne (assign_injective hm htaken)
  have hmem : q ∈ ctx.resolve.pairsAbove threshold := by
    rw [hsplit]
    exact List.mem_append_left _ hq
  have hqnew : q.candidate.new = new := by
    rcases hshares with hqold | hqnew
    · have hfirst : ctx.fixedCandidate? q.old = some new :=
        (congrArg ctx.fixedCandidate? hqold).trans hfixed
      rw [eq_of_settled hmem hfirst]
      rfl
    · exact hqnew
  have hqold : q.old = old := by
    rw [hqnew] at hassigned
    exact assign_injective hassigned hm
  -- but the pair of a later claimant does not go before
  have hrank := precedence_ne_gt_of_split hsplit hq
  rw [← hqold] at hfixed' hlt
  rw [eq_of_settled hmem hfixed', precedence_settled] at hrank
  exact hrank (Std.OrientedCmp.gt_of_lt hlt)

end Outcome

-- ========================================================== the theorem

/-- Of the declared fields that are settled on one new field the first is
assigned to it and the others are assigned nothing, unless a scored pair
goes before. -/
theorem settled_field_assigned (ctx : FieldContext) (threshold : Binary64)
    (old new : Member) (hthreshold : threshold < 1)
    (hdeclared : ctx.old.fields.contains old = true)
    (hfixed : ctx.fixedCandidate? old = some new)
    (hfree : ¬ctx.Contested threshold old new) :
    (ctx.resolve.assign threshold).get? old
      = if (ctx.claimants new).head? = some old then some new else none := by
  have hold := mem_claimants.2 ⟨hdeclared, hfixed⟩
  split
  · next hfirst => exact assign_first hthreshold hfirst hfree
  · next hlater =>
    cases hfirst : (ctx.claimants new).head? with
    | none =>
      rw [List.head?_eq_none_iff.1 hfirst] at hold
      cases hold
    | some first =>
      refine assign_later hthreshold hfirst hold fun heq => hlater ?_
      rw [hfirst, heq]

end FieldContext

-- ============================================================== samples

namespace Sample

/-- A class `M` with fields of its own and one method that reads some of
them. -/
def reader (fields : List FieldDecl) (read : List Member) : ClassDecl where
  name := "M"
  kind := .plain
  superName := none
  interfaces := []
  fields := fields
  methods := [⟨"m", "()V", false, false, read.map fun f => ⟨180, .field f⟩⟩]

/-- What the fields of `M` are matched under by default, with some pairs
of classes and the method of `M` paired with itself. -/
def fieldsOfM (old new : ClassDecl) (classes : List (String × String)) :
    Option FieldContext := do
  let oldBuild ← (Snapshot.ofClasses [old]).toOption
  let newBuild ← (Snapshot.ofClasses [new]).toOption
  let oldIndex ← (Index.build .default oldBuild).toOption
  let newIndex ← (Index.build .default newBuild).toOption
  let mapping ← (ClassMapping.ofPairs classes).toOption
  let method : Member := ⟨"M", "m", "()V"⟩
  (FieldContext.build .default oldIndex newIndex mapping
    (OrdMap.ofList [(method, method)])).toOption

/-- Two fields `link`, of the types `a` and `b`. The class `a` becomes
`b`, so both are settled on one field. -/
def links : Option FieldContext :=
  fieldsOfM
    (reader [⟨"link", "La;", false, false⟩, ⟨"link", "Lb;", false, false⟩] [])
    (reader [⟨"link", "Lb;", false, false⟩] [])
    [("M", "M"), ("a", "b")]

/-- The field `a` is read where the field `table` is read later, and has
the full score with it. -/
def rivals : Option FieldContext :=
  fieldsOfM
    (reader [⟨"a", "[I", false, false⟩, ⟨"b", "J", false, false⟩,
      ⟨"table", "[I", false, false⟩] [⟨"M", "a", "[I"⟩, ⟨"M", "b", "J"⟩])
    (reader [⟨"table", "[I", false, false⟩, ⟨"b", "J", false, false⟩]
      [⟨"M", "table", "[I"⟩, ⟨"M", "b", "J"⟩])
    [("M", "M")]

end Sample

namespace FieldContext

theorem settled_field_assigned_links :
    ∃ ctx, Sample.links = some ctx
      ∧ ctx.fixedCandidate? ⟨"M", "link", "La;"⟩ = some ⟨"M", "link", "Lb;"⟩
      ∧ ctx.fixedCandidate? ⟨"M", "link", "Lb;"⟩ = some ⟨"M", "link", "Lb;"⟩
      ∧ (ctx.resolve.assign 0.25).get? ⟨"M", "link", "La;"⟩
        = some ⟨"M", "link", "Lb;"⟩
      ∧ (ctx.resolve.assign 0.25).get? ⟨"M", "link", "Lb;"⟩ = none := by
  have hthreshold : (0.25 : Binary64) < 1 := by decide +kernel
  have hcheck : (Sample.links.map fun ctx => decide
      ((ctx.claimants ⟨"M", "link", "Lb;"⟩
          = [⟨"M", "link", "La;"⟩, ⟨"M", "link", "Lb;"⟩])
        ∧ ¬ctx.Contested 0.25 ⟨"M", "link", "La;"⟩ ⟨"M", "link", "Lb;"⟩
        ∧ ¬ctx.Contested 0.25 ⟨"M", "link", "Lb;"⟩ ⟨"M", "link", "Lb;"⟩))
      = some true := by decide +kernel
  obtain ⟨ctx, hctx, hfacts⟩ := Option.map_eq_some_iff.1 hcheck
  obtain ⟨hclaimants, hfree, hfree'⟩ := of_decide_eq_true hfacts
  have hmem (old : Member)
      (h : old ∈ [⟨"M", "link", "La;"⟩, ⟨"M", "link", "Lb;"⟩]) :=
    mem_claimants.1 (hclaimants ▸ h)
  obtain ⟨hdeclared, hfixed⟩ := hmem ⟨"M", "link", "La;"⟩ (by simp)
  obtain ⟨hdeclared', hfixed'⟩ := hmem ⟨"M", "link", "Lb;"⟩ (by simp)
  refine ⟨ctx, hctx, hfixed, hfixed', ?_, ?_⟩
  · rw [settled_field_assigned ctx 0.25 _ _ hthreshold hdeclared hfixed hfree,
      hclaimants]
    rfl
  · rw [settled_field_assigned ctx 0.25 _ _ hthreshold hdeclared' hfixed'
      hfree', hclaimants]
    rfl

/-- What a field is settled on and what it is assigned to. -/
def verdict (ctx : FieldContext) (old : Member) :
    Option Member × Option Member :=
  (ctx.fixedCandidate? old,
    (ctx.resolve.assign ctx.settings.fieldAssignThreshold).get? old)

/-- A field that is settled on another may be assigned nothing: because a
field settled on the same one goes before, or because a scored one
does. -/
theorem settled_field_may_lose :
    Settings.default.fieldAssignThreshold < 1
      ∧ (Sample.links.map fun ctx =>
          (ctx.verdict ⟨"M", "link", "La;"⟩, ctx.verdict ⟨"M", "link", "Lb;"⟩))
        = some ((some ⟨"M", "link", "Lb;"⟩, some ⟨"M", "link", "Lb;"⟩),
          (some ⟨"M", "link", "Lb;"⟩, none))
      ∧ (Sample.rivals.map fun ctx =>
          (ctx.verdict ⟨"M", "a", "[I"⟩, ctx.verdict ⟨"M", "table", "[I"⟩))
        = some ((none, some ⟨"M", "table", "[I"⟩),
          (some ⟨"M", "table", "[I"⟩, none)) := by
  decide +kernel

end FieldContext

end SymbolMatch
