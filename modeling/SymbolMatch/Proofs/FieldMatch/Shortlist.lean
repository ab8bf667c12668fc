/-
The candidates of an old field are the best of all new fields that it can
be compared with, and none is missing.

The candidates are found by one pass over the new fields that keeps the
best few and forgets the others. What it comes to is said without the
pass (`Shortlist`): there is a list of every new field that has a score
with the old one, each with the score and the parts of that pair, in
strict order, and the candidates are the beginning of this list. The
order is strict because no two new fields have one key, so it does not
matter in which order the fields were gone through.
-/
import SymbolMatch.FieldMatch.Candidates
import SymbolMatch.Proofs.Descriptor.Reading
import SymbolMatch.Proofs.Number.Order
import SymbolMatch.Proofs.Ordered.Set
import SymbolMatch.Proofs.Selection.Leaders

namespace SymbolMatch

-- ============================================================= the order

namespace FieldCandidate

instance : Std.TransCmp ranking :=
  inferInstanceAs (Std.TransCmp (compareLex
    (fun a b : FieldCandidate => Binary64.totalCompare b.score a.score)
    (compareOn FieldCandidate.new)))

/-- Candidates of one rank are for the same new field. -/
theorem new_eq_of_ranking {a b : FieldCandidate} (h : a.ranking b = .eq) :
    a.new = b.new := by
  unfold ranking at h
  rw [Ordering.then_eq_eq] at h
  exact Std.LawfulEqOrd.eq_of_compare h.2

end FieldCandidate

namespace FieldContext

variable {ctx : FieldContext} {old new : Member}

-- ======================================================== scored fields

/-- A candidate that is not settled, with the score and the parts of its
pair. -/
def Scores (ctx : FieldContext) (old : Member) (c : FieldCandidate) : Prop :=
  c.fixed = false
    ∧ ∃ parts, c.parts = some parts
      ∧ ctx.score old c.new = some (c.score, parts)

/-- An old field has at most one score with a new field. -/
theorem Scores.eq_of_new_eq {c d : FieldCandidate} (hc : ctx.Scores old c)
    (hd : ctx.Scores old d) (h : c.new = d.new) : c = d := by
  obtain ⟨hcfixed, cparts, hcparts, hcscore⟩ := hc
  obtain ⟨hdfixed, dparts, hdparts, hdscore⟩ := hd
  rw [h, hdscore] at hcscore
  cases c
  cases d
  simp_all

/-- Only declared fields have a score. -/
theorem declared_of_score {s : Binary64 × FieldScore}
    (h : ctx.score old new = some s) :
    old ∈ ctx.old.fields.keys ∧ new ∈ ctx.new.fields.keys := by
  unfold score scoreWithin at h
  obtain ⟨oldInfo, hold, h⟩ := Option.bind_eq_some_iff.1 h
  obtain ⟨newInfo, hnew, -⟩ := Option.bind_eq_some_iff.1 h
  exact ⟨OrdMap.mem_keys_iff.2 ⟨_, hold⟩, OrdMap.mem_keys_iff.2 ⟨_, hnew⟩⟩

/-- The fields that are gone through for an old field are those it has a
score with. -/
theorem mem_compatible {c : FieldCandidate} :
    c ∈ ctx.compatible old ↔ ctx.Scores old c := by
  unfold compatible
  dsimp only
  rw [List.mem_filterMap]
  constructor
  · rintro ⟨new, -, hc⟩
    obtain ⟨⟨score, parts⟩, hscore, rfl⟩ := Option.map_eq_some_iff.1 hc
    exact ⟨rfl, parts, rfl, hscore⟩
  · rintro ⟨hfixed, parts, hparts, hscore⟩
    refine ⟨c.new, (declared_of_score hscore).2, ?_⟩
    refine Option.map_eq_some_iff.2 ⟨(c.score, parts), hscore, ?_⟩
    cases c
    simp_all

/-- No new field is gone through twice. -/
theorem nodup_compatible (ctx : FieldContext) (old : Member) :
    (ctx.compatible old).Nodup := by
  unfold compatible
  dsimp only
  refine ctx.new.fields.nodup_keys.filterMap ?_
  intro x y c hx hy
  obtain ⟨_, -, rfl⟩ := Option.map_eq_some_iff.1 hx
  obtain ⟨_, -, hnew⟩ := Option.map_eq_some_iff.1 hy
  exact (congrArg FieldCandidate.new hnew).symm

-- ============================================================ the lists

/-- Every new field that an old field has a score with, the best
first. -/
structure Ranks (ctx : FieldContext) (old : Member)
    (all : List FieldCandidate) : Prop where
  mem_iff : ∀ c, c ∈ all ↔ ctx.Scores old c
  sorted : all.Pairwise fun c d => c.ranking d = .lt

/-- The first of these fields, as many as are kept: each with its own
score, none twice, and none missing that goes before one of them. -/
structure Shortlist (ctx : FieldContext) (old : Member)
    (list : List FieldCandidate) : Prop where
  first : ∃ all, ctx.Ranks old all ∧ list = all.take ctx.settings.fieldTopK
  scored : ∀ c ∈ list, ctx.Scores old c
  distinct : (list.map (·.new)).Nodup
  leading : ∀ c, ctx.Scores old c → c ∉ list → ∀ d ∈ list, d.ranking c = .lt

/-- The scored fields, sorted. -/
theorem ranks_sortBy (ctx : FieldContext) (old : Member) :
    ctx.Ranks old (sortBy FieldCandidate.ranking (ctx.compatible old)) where
  mem_iff c := mem_sortBy.trans mem_compatible
  sorted := by
    have hnodup : (sortBy FieldCandidate.ranking (ctx.compatible old)).Nodup :=
      (sortBy_perm _).nodup_iff.2 (nodup_compatible ctx old)
    refine ((sortBy_sorted _).and hnodup).imp_of_mem ?_
    rintro c d hc hd ⟨hle, hne⟩
    have hscored {c : FieldCandidate}
        (hc : c ∈ sortBy FieldCandidate.ranking (ctx.compatible old)) :
        ctx.Scores old c := mem_compatible.1 (mem_sortBy.1 hc)
    cases hcompare : c.ranking d with
    | lt => rfl
    | eq =>
      have hnew := FieldCandidate.new_eq_of_ranking hcompare
      exact absurd ((hscored hc).eq_of_new_eq (hscored hd) hnew) hne
    | gt => exact absurd hcompare hle

/-- The beginning of the ranked fields is a shortlist. -/
theorem Ranks.shortlist {all : List FieldCandidate} (h : ctx.Ranks old all) :
    ctx.Shortlist old (all.take ctx.settings.fieldTopK) := by
  have hscored {c : FieldCandidate}
      (hc : c ∈ all.take ctx.settings.fieldTopK) : ctx.Scores old c :=
    (h.mem_iff c).1 (List.mem_of_mem_take hc)
  refine
    { first := ⟨all, h, rfl⟩
      scored := fun c hc => hscored hc
      distinct := ?_
      leading := ?_ }
  · have hsorted := h.sorted.sublist (List.take_sublist ctx.settings.fieldTopK all)
    refine List.pairwise_map.2 (hsorted.imp_of_mem ?_)
    intro c d hc hd hlt hnew
    rw [(hscored hc).eq_of_new_eq (hscored hd) hnew] at hlt
    have hself : d.ranking d = .eq := Std.ReflCmp.compare_self
    rw [hself] at hlt
    cases hlt
  · intro c hc hout d hd
    -- what is not in the beginning of a list is in the rest
    have hmem := (h.mem_iff c).2 hc
    have hsorted := h.sorted
    rw [← List.take_append_drop ctx.settings.fieldTopK all] at hmem hsorted
    have hrest := (List.mem_append.1 hmem).resolve_left hout
    exact (List.pairwise_append.1 hsorted).2.2 d hd c hrest

/-- A field that is not settled has a shortlist. -/
theorem shortlist_candidatesFor (h : ctx.fixedCandidate? old = none) :
    ctx.Shortlist old (ctx.candidatesFor old) := by
  have hlist : ctx.candidatesFor old
      = (sortBy FieldCandidate.ranking (ctx.compatible old)).take
        ctx.settings.fieldTopK := by
    unfold candidatesFor
    rw [h]
    refine Leaders.items_ofList fun c hc d hd heq => ?_
    exact (mem_compatible.1 hc).eq_of_new_eq (mem_compatible.1 hd)
      (FieldCandidate.new_eq_of_ranking heq)
  rw [hlist]
  exact (ranks_sortBy ctx old).shortlist

/-- The list of a declared field. -/
theorem get?_resolve (ctx : FieldContext) (old : Member) :
    ctx.resolve.candidates.get? old
      = (ctx.old.fields.get? old).map fun _ => ctx.candidatesFor old :=
  OrdMap.get?_ofList_keys ctx.old.fields ctx.candidatesFor old

/-- There is a list for each declared field and for no other. -/
theorem keys_resolve (ctx : FieldContext) :
    ctx.resolve.candidates.keys = ctx.old.fields.keys := by
  refine OrdSet.eq_of_sorted_of_mem_iff (OrdMap.keys_sorted _)
    (OrdMap.keys_sorted _) fun old => ?_
  rw [OrdMap.mem_keys_iff, OrdMap.mem_keys_iff]
  simp [get?_resolve]

-- ================================================================= types

/-- The types that are read for the fields of an index. -/
theorem eq_of_typesOf {x : Index} {types : List (Member × TypeDesc)}
    (h : typesOf x = .ok types) :
    types = x.fields.keys.map fun f =>
      (f, Descriptor.fieldType f.descriptor) := by
  refine Outcome.eq_map_of_mapM h fun f _ y hy => ?_
  obtain ⟨t, ht, hy⟩ := Outcome.bind_eq_ok_iff.1 hy
  rw [Descriptor.fieldType_eq ht]
  cases hy
  rfl

/-- What is known of the types of a field in a context that was
prepared. -/
structure Typed (ctx : FieldContext) (oldIndex newIndex : Index)
    (classes : ClassMapping) : Prop where
  old : ctx.old = oldIndex
  new : ctx.new = newIndex
  oldType : ∀ f, ctx.oldTypes.get? f = (oldIndex.fields.get? f).map fun _ =>
    Descriptor.fieldType f.descriptor
  renamedType : ∀ f, ctx.renamedTypes.get? f
    = (oldIndex.fields.get? f).map fun _ =>
      (Descriptor.fieldType f.descriptor).mapClasses
        (Descriptor.renamed classes.newName?)
  newType : ∀ f, ctx.newTypes.get? f = (newIndex.fields.get? f).map fun _ =>
    Descriptor.fieldType f.descriptor

section Build

variable {settings : Settings} {oldIndex newIndex : Index}
  {classes : ClassMapping} {methods : OrdMap Member Member}

theorem typed_of_build
    (h : build settings oldIndex newIndex classes methods = .ok ctx) :
    ctx.Typed oldIndex newIndex classes := by
  obtain ⟨oldTypes, hold, h⟩ := Outcome.bind_eq_ok_iff.1 h
  obtain ⟨newTypes, hnew, h⟩ := Outcome.bind_eq_ok_iff.1 h
  have hold := eq_of_typesOf hold
  have hnew := eq_of_typesOf hnew
  cases h
  refine ⟨rfl, rfl, fun f => ?_, fun f => ?_, fun f => ?_⟩
  · dsimp only
    rw [hold, OrdMap.get?_ofList_keys]
  · dsimp only
    rw [hold, List.map_map]
    exact OrdMap.get?_ofList_keys oldIndex.fields _ f
  · dsimp only
    rw [hnew, OrdMap.get?_ofList_keys]

/-- The type of an old field, with the mapped classes renamed, is one that
a new field's type can match. -/
def TypesMatch (classes : ClassMapping) (old new : Member) : Prop :=
  (FieldMatch.typeCompatibility (Descriptor.fieldType old.descriptor)
    ((Descriptor.fieldType old.descriptor).mapClasses
      (Descriptor.renamed classes.newName?))
    (Descriptor.fieldType new.descriptor)).isSome = true

/-- Two fields have a score exactly if they are declared and their types
match. -/
theorem isSome_score_iff
    (h : build settings oldIndex newIndex classes methods = .ok ctx) :
    (ctx.score old new).isSome = true
      ↔ old ∈ oldIndex.fields.keys ∧ new ∈ newIndex.fields.keys
        ∧ TypesMatch classes old new := by
  have htyped := typed_of_build h
  unfold score scoreWithin TypesMatch
  rw [htyped.old, htyped.new, htyped.oldType, htyped.renamedType,
    htyped.newType, OrdMap.mem_keys_iff, OrdMap.mem_keys_iff]
  cases hold : oldIndex.fields.get? old with
  | none => simp
  | some oldInfo =>
    cases hnew : newIndex.fields.get? new with
    | none => simp
    | some newInfo => simp [Option.isSome_bind]

end Build

-- =========================================================== the theorem

/-- There is one list of candidates for each declared field. A settled
field has one candidate. Any other field has the first of all the fields
that it has a score with, in order, and these are the declared ones whose
types match. -/
theorem resolve_shortlists (ctx : FieldContext) :
    ctx.resolve.candidates.keys = ctx.old.fields.keys
      ∧ (∀ old list, ctx.resolve.candidates.get? old = some list →
        (∀ new, ctx.fixedCandidate? old = some new →
          list = [⟨new, 1, true, none⟩])
        ∧ (ctx.fixedCandidate? old = none → ctx.Shortlist old list))
      ∧ ∀ settings oldIndex newIndex classes methods,
        build settings oldIndex newIndex classes methods = .ok ctx →
        ∀ old new, (ctx.score old new).isSome = true
          ↔ old ∈ oldIndex.fields.keys ∧ new ∈ newIndex.fields.keys
            ∧ TypesMatch classes old new := by
  refine ⟨keys_resolve ctx, fun old list hlist => ?_, ?_⟩
  · rw [get?_resolve] at hlist
    obtain ⟨_, -, rfl⟩ := Option.map_eq_some_iff.1 hlist
    refine ⟨fun new hnew => ?_, shortlist_candidatesFor⟩
    unfold candidatesFor
    rw [hnew]
    rfl
  · intro settings oldIndex newIndex classes methods hbuild old new
    exact isSome_score_iff hbuild

end FieldContext

end SymbolMatch
