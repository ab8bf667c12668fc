/-
Nothing that is reported depends on the order in which a snapshot comes.
Shuffling the classes, and inside each class its interfaces, fields and
methods, leaves the report on two snapshots as it is; the classes alone
may also be shuffled without a change to the candidates for each field.

A shuffled class has the fingerprint and the uses of the class it came
from, so shuffled snapshots mirror each other under the renaming that
changes nothing.
-/
import SymbolMatch.Proofs.FieldMatch.ClassOrder
import SymbolMatch.Proofs.Matching.Analysis

namespace SymbolMatch

/-- A class with its interfaces, fields and methods in another order. -/
structure ClassDecl.Shuffled (c c' : ClassDecl) : Prop where
  name : c'.name = c.name
  kind : c'.kind = c.kind
  superName : c'.superName = c.superName
  interfaces : c.interfaces.Perm c'.interfaces
  fields : c.fields.Perm c'.fields
  methods : c.methods.Perm c'.methods

namespace ClassDecl.Shuffled

variable {c c' : ClassDecl} (h : c.Shuffled c')
include h

-- =============================================================== classes

theorem fingerprint (cutoff : Nat) :
    ClassFingerprint.summary cutoff c' = ClassFingerprint.summary cutoff c := by
  have hcode := (h.methods.filter (!·.isAbstract)).flatMap_right
    MethodDecl.code
  have hstatics := h.methods.filter ClassFingerprint.countsAsStatic
  have hstaticFields := h.fields.filter (·.isStatic)
  have hinstanceFields := h.fields.filter (!·.isStatic)
  unfold ClassFingerprint.summary opcodeCounts loadedStrings
  simp only [h.name, h.kind, h.superName,
    OrdSet.ofList_eq_of_perm (h.interfaces.map _), h.methods.countP_eq,
    h.methods.any_eq, OrdMap.tally_eq_of_perm (h.methods.map _),
    OrdSet.ofList_eq_of_perm (hstatics.map _),
    OrdMap.tally_eq_of_perm (hcode.map _),
    OrdSet.ofList_eq_of_perm (hcode.filterMap _),
    OrdMap.tally_eq_of_perm (hstaticFields.map _),
    OrdMap.tally_eq_of_perm (hinstanceFields.map _), h.methods.length_eq,
    h.fields.length_eq, hstatics.length_eq]

theorem usage (settings : Settings) :
    (ClassUsage.summary settings c).Mirrors id
      (ClassUsage.summary settings c') := by
  refine ⟨h.name, ?_, ?_, ?_⟩ <;> rw [List.map_id]
  · exact ((h.fields.map _).filterMap _).symm
  · exact (((h.methods.map _).flatMap_right _).filterMap _).symm
  · exact ((h.methods.map _).filterMap _).symm

theorem mirrors (settings : Settings) : c.Mirrors settings id c' :=
  ⟨h.fingerprint _, h.usage settings⟩

end ClassDecl.Shuffled

-- ============================================================ snapshots

/-- Shuffled snapshots mirror each other under their own names. -/
theorem Snapshot.mirrors_of_shuffled (settings : Settings) {s s' : Snapshot}
    (h : s.Valid) (h' : s'.Valid)
    (hs : Rearranged ClassDecl.Shuffled s.classes s'.classes) :
    s.Mirrors settings id s' where
  valid := h
  valid' := h'
  classes := hs.mono fun _ _ hc => hc.mirrors settings
  orderly :=
    { stable := fun _ _ _ => rfl
      obfuscated := fun _ _ ho => ho
      increasing := fun _ _ _ _ _ _ hlt => hlt }

-- ========================================================= turned round

/-- A class with its interfaces, fields and methods turned round. -/
def ClassDecl.turned (c : ClassDecl) : ClassDecl :=
  { c with
    interfaces := c.interfaces.reverse
    fields := c.fields.reverse
    methods := c.methods.reverse }

theorem ClassDecl.shuffled_turned (c : ClassDecl) : c.Shuffled c.turned :=
  ⟨rfl, rfl, rfl, (List.reverse_perm _).symm, (List.reverse_perm _).symm,
    (List.reverse_perm _).symm⟩

theorem ClassDecl.shuffled_self (c : ClassDecl) : c.Shuffled c :=
  ⟨rfl, rfl, rfl, .refl _, .refl _, .refl _⟩

/-- The classes turned round, each of them by `change`. -/
theorem Rearranged.turned {change : ClassDecl → ClassDecl}
    (h : ∀ c, ClassDecl.Shuffled c (change c)) (cs : List ClassDecl) :
    Rearranged ClassDecl.Shuffled cs (cs.map change).reverse :=
  (Rearranged.of_map fun c _ => h c).trans_perm (List.reverse_perm _).symm

namespace Resolver

-- ========================================================== the theorem

/-- The report on two snapshots is the same for every order of their
classes and of the members of their classes; and the candidates for each
field are the same for every order of the classes. -/
theorem order_independent (settings : Settings) (r : Resolver)
    (olds olds' news news' : List ClassDecl) (old old' new new' : Snapshot)
    (hr : ofSettings settings = .ok r)
    (hold : Snapshot.ofClasses olds = .ok old)
    (hold' : Snapshot.ofClasses olds' = .ok old')
    (hnew : Snapshot.ofClasses news = .ok new)
    (hnew' : Snapshot.ofClasses news' = .ok new')
    (holds : Rearranged ClassDecl.Shuffled olds olds')
    (hnews : Rearranged ClassDecl.Shuffled news news') :
    (∃ report, r.matchSnapshots old new = .ok report
        ∧ r.matchSnapshots old' new' = .ok report)
      ∧ (olds.Perm olds' → news.Perm news' →
        ∃ oldIndex newIndex oldIndex' newIndex',
          r.index old = .ok oldIndex ∧ r.index new = .ok newIndex
          ∧ r.index old' = .ok oldIndex' ∧ r.index new' = .ok newIndex'
          ∧ ∀ classes methods, ∃ resolution,
            r.matchFields oldIndex newIndex classes methods = .ok resolution
            ∧ r.matchFields oldIndex' newIndex' classes methods
              = .ok resolution) := by
  obtain ⟨rfl, holdValid⟩ := Snapshot.ofClasses_eq_ok_iff.1 hold
  obtain ⟨rfl, holdValid'⟩ := Snapshot.ofClasses_eq_ok_iff.1 hold'
  obtain ⟨rfl, hnewValid⟩ := Snapshot.ofClasses_eq_ok_iff.1 hnew
  obtain ⟨rfl, hnewValid'⟩ := Snapshot.ofClasses_eq_ok_iff.1 hnew'
  refine ⟨⟨_, matchSnapshots_eq_ok hr holdValid hnewValid, ?_⟩, ?_⟩
  · rw [matchSnapshots_mirrors hr
      (Snapshot.mirrors_of_shuffled settings holdValid holdValid' holds)
      (Snapshot.mirrors_of_shuffled settings hnewValid hnewValid' hnews),
      MatchReport.relabel_id rfl (Context.nodup_olds _ _)]
  · intro hpold hpnew
    exact ⟨_, _, _, _, r.index_eq_ok holdValid, r.index_eq_ok hnewValid,
      r.index_eq_ok holdValid', r.index_eq_ok hnewValid',
      r.matchFields_of_perm holdValid hnewValid hpold hpnew⟩

theorem order_independent_sample :
    (∃ report,
      (⟨.default⟩ : Resolver).matchSnapshots ⟨Sample.before⟩ ⟨Sample.after⟩
        = .ok report
      ∧ (⟨.default⟩ : Resolver).matchSnapshots
          ⟨(Sample.before.map .turned).reverse⟩
          ⟨(Sample.after.map .turned).reverse⟩
        = .ok report)
    ∧ ∃ oldIndex newIndex oldIndex' newIndex',
      (⟨.default⟩ : Resolver).index ⟨Sample.before⟩ = .ok oldIndex
      ∧ (⟨.default⟩ : Resolver).index ⟨Sample.after⟩ = .ok newIndex
      ∧ (⟨.default⟩ : Resolver).index ⟨Sample.before.reverse⟩ = .ok oldIndex'
      ∧ (⟨.default⟩ : Resolver).index ⟨Sample.after.reverse⟩ = .ok newIndex'
      ∧ ∀ classes methods, ∃ resolution,
        (⟨.default⟩ : Resolver).matchFields oldIndex newIndex classes methods
          = .ok resolution
        ∧ (⟨.default⟩ : Resolver).matchFields oldIndex' newIndex' classes
            methods
          = .ok resolution := by
  refine ⟨(order_independent .default ⟨.default⟩ Sample.before
    (Sample.before.map .turned).reverse Sample.after
    (Sample.after.map .turned).reverse ⟨Sample.before⟩ ⟨_⟩ ⟨Sample.after⟩ ⟨_⟩
    ofSettings_default Sample.ofClasses_before rfl Sample.ofClasses_after rfl
    (.turned ClassDecl.shuffled_turned _)
    (.turned ClassDecl.shuffled_turned _)).1, ?_⟩
  have hsame (cs : List ClassDecl) :
      Rearranged ClassDecl.Shuffled cs cs.reverse := by
    have h := Rearranged.turned ClassDecl.shuffled_self cs
    rw [List.map_id'] at h
    exact h
  exact (order_independent .default ⟨.default⟩ Sample.before
    Sample.before.reverse Sample.after Sample.after.reverse ⟨Sample.before⟩
    ⟨_⟩ ⟨Sample.after⟩ ⟨_⟩ ofSettings_default Sample.ofClasses_before rfl
    Sample.ofClasses_after rfl (hsame _) (hsame _)).2
    (List.reverse_perm _).symm (List.reverse_perm _).symm

end Resolver

end SymbolMatch
