/-
Which declaration a reference to a field finds.

A reference names a class. That class and the ones above it, superclass
by superclass, are the chain of the reference (`ancestor?`). Nothing is
assumed of the links: they may lead to classes that are not there, and
they may run in a circle. The reference means the field of the first
class on its chain that declares one of that name and descriptor.

# Enough steps

The walk visits at most one class more than there are superclass links.
Up to the first class that declares the field no class comes twice: from
a repetition on the chain only repeats itself, and it would have met the
declaration before (`FirstAt.injOn`). So the classes below that one are
all different, each has a link, and there are no more of them than links
(`FirstAt.le_card`).
-/
import Mathlib.Data.Finset.Card
import Mathlib.Data.Finset.Range
import Mathlib.Data.Nat.Find
import SymbolMatch.Access.Owners
import SymbolMatch.Proofs.Ordered.Map
import SymbolMatch.Proofs.Ordered.Set

namespace SymbolMatch

-- =============================================================== chains

section Chain

variable {α : Type} {parent : α → Option α} {P : α → Prop} {a b start : α}
  {m n : Nat}

/-- What is reached from a start by following a number of links. -/
def ancestor? (parent : α → Option α) (start : α) : Nat → Option α
  | 0 => some start
  | n + 1 => (ancestor? parent start n).bind parent

/-- The first link may be followed first. -/
theorem ancestor?_succ (parent : α → Option α) (start : α) (n : Nat) :
    ancestor? parent start (n + 1)
      = (parent start).bind fun next => ancestor? parent next n := by
  induction n with
  | zero =>
    change (some start).bind parent = (parent start).bind some
    rw [Option.bind_some, Option.bind_fun_some]
  | succ n ih =>
    change (ancestor? parent start (n + 1)).bind parent = _
    rw [ih, Option.bind_assoc]
    rfl

/-- From two places with the same class the chain goes on alike. -/
theorem ancestor?_add (h : ancestor? parent start m = ancestor? parent start n)
    (k : Nat) :
    ancestor? parent start (m + k) = ancestor? parent start (n + k) := by
  induction k with
  | zero => exact h
  | succ k ih =>
    change (ancestor? parent start (m + k)).bind parent
      = (ancestor? parent start (n + k)).bind parent
    rw [ih]

/-- A chain that goes on has a link at every place before. -/
theorem exists_link_of_ancestor? (h : ancestor? parent start n = some a)
    (hm : m < n) :
    ∃ b next, ancestor? parent start m = some b ∧ parent b = some next := by
  induction n generalizing a with
  | zero => cases hm
  | succ n ih =>
    obtain ⟨b, hb, hnext⟩ := Option.bind_eq_some_iff.1 h
    rcases Nat.lt_succ_iff_lt_or_eq.1 hm with hm | rfl
    · exact ih hb hm
    · exact ⟨b, a, hb, hnext⟩

/-- The first on a chain that has a property, and its place. -/
structure FirstAt (parent : α → Option α) (P : α → Prop) (start : α) (n : Nat)
    (a : α) : Prop where
  reached : ancestor? parent start n = some a
  holds : P a
  first : ∀ m < n, ∀ b, ancestor? parent start m = some b → ¬P b

theorem firstAt_zero_iff : FirstAt parent P start 0 a ↔ a = start ∧ P start := by
  constructor
  · intro h
    have heq : start = a := Option.some.inj h.reached
    exact ⟨heq.symm, heq ▸ h.holds⟩
  · rintro ⟨rfl, hP⟩
    exact ⟨rfl, hP, fun m hm => absurd hm (Nat.not_lt_zero m)⟩

theorem firstAt_succ_iff :
    FirstAt parent P start (n + 1) a
      ↔ ¬P start ∧ ∃ next, parent start = some next
        ∧ FirstAt parent P next n a := by
  constructor
  · intro h
    have hreached := h.reached
    rw [ancestor?_succ] at hreached
    obtain ⟨next, hnext, hreached⟩ := Option.bind_eq_some_iff.1 hreached
    refine ⟨h.first 0 (Nat.succ_pos n) start rfl, next, hnext, hreached,
      h.holds, fun m hm b hb => ?_⟩
    apply h.first (m + 1) (Nat.succ_lt_succ hm)
    rw [ancestor?_succ, hnext]
    exact hb
  · rintro ⟨hnot, next, hnext, h⟩
    refine ⟨?_, h.holds, fun m hm b hb => ?_⟩
    · rw [ancestor?_succ, hnext]
      exact h.reached
    · cases m with
      | zero =>
        cases hb
        exact hnot
      | succ m =>
        rw [ancestor?_succ, hnext] at hb
        exact h.first m (Nat.lt_of_succ_lt_succ hm) b hb

/-- What has the property somewhere on a chain has it somewhere first. -/
theorem exists_firstAt (h : ancestor? parent start n = some a) (hP : P a) :
    ∃ m b, FirstAt parent P start m b := by
  classical
  have hsome : ∃ n a, ancestor? parent start n = some a ∧ P a := ⟨n, a, h, hP⟩
  obtain ⟨b, hb, hPb⟩ := Nat.find_spec hsome
  exact ⟨Nat.find hsome, b, hb, hPb, fun m hm c hc hPc =>
    Nat.find_min hsome hm ⟨c, hc, hPc⟩⟩

/-- Before the first that has the property nothing comes twice. -/
theorem FirstAt.injOn (h : FirstAt parent P start n a) {i j : Nat}
    (hj : j ≤ n) (hij : i < j) :
    ancestor? parent start i ≠ ancestor? parent start j := by
  intro heq
  -- leave out what lies between the two places
  have hshort : ancestor? parent start (i + (n - j)) = some a := by
    rw [ancestor?_add heq, Nat.add_sub_cancel' hj]
    exact h.reached
  exact h.first (i + (n - j)) (by omega) a hshort h.holds

/-- There are as many links as places below the first that has the
property. -/
theorem FirstAt.le_card [DecidableEq α] (h : FirstAt parent P start n a)
    {sources : Finset α} (hsources : ∀ b next, parent b = some next →
      b ∈ sources) : n ≤ sources.card := by
  have hlink (m : Nat) (hm : m < n) :
      ∃ b ∈ sources, ancestor? parent start m = some b := by
    obtain ⟨b, next, hb, hnext⟩ := exists_link_of_ancestor? h.reached hm
    exact ⟨b, hsources b next hnext, hb⟩
  have hcard : (Finset.range n).card ≤ sources.card := by
    refine Finset.card_le_card_of_injOn
      (fun m => (ancestor? parent start m).getD start) ?_ ?_
    · intro m hm
      obtain ⟨b, hb, heq⟩ := hlink m (Finset.mem_range.1 hm)
      dsimp only
      rw [heq]
      exact hb
    · intro i hi j hj heq
      have hi := Finset.mem_range.1 hi
      have hj := Finset.mem_range.1 hj
      obtain ⟨b, -, hb⟩ := hlink i hi
      obtain ⟨c, -, hc⟩ := hlink j hj
      dsimp only at heq
      rw [hb, hc] at heq
      have hsame : ancestor? parent start i = ancestor? parent start j := by
        rw [hb, hc]
        exact congrArg some heq
      rcases Nat.lt_trichotomy i j with hlt | heq | hlt
      · exact absurd hsame (h.injOn (Nat.le_of_lt hj) hlt)
      · exact heq
      · exact absurd hsame.symm (h.injOn (Nat.le_of_lt hi) hlt)
  rw [Finset.card_range] at hcard
  exact hcard

end Chain

namespace Owners

variable {o : Owners} {key found : Member} {cs cs' : List ClassDecl}

-- ============================================================== the walk

/-- Whether the owners know a field under a key. -/
def Holds (o : Owners) (name descriptor owner : String) : Prop :=
  (⟨owner, name, descriptor⟩ : Member) ∈ o.declared

/-- A walk finds the first declaration among the classes it visits. -/
theorem climb_eq_some_iff {name descriptor : String} {fuel : Nat}
    {owner : String} :
    o.climb name descriptor fuel owner = some found
      ↔ ∃ n < fuel, ∃ a, FirstAt o.supers.get? (o.Holds name descriptor) owner n a
        ∧ found = ⟨a, name, descriptor⟩ := by
  induction fuel generalizing owner with
  | zero => simp [climb]
  | succ fuel ih =>
    unfold climb
    dsimp only
    split
    · next hheld =>
      have hheld : o.Holds name descriptor owner := OrdSet.contains_iff.1 hheld
      constructor
      · intro h
        exact ⟨0, Nat.succ_pos fuel, owner, firstAt_zero_iff.2 ⟨rfl, hheld⟩,
          (Option.some.inj h).symm⟩
      · rintro ⟨n, -, a, hfirst, rfl⟩
        cases n with
        | zero => rw [(firstAt_zero_iff.1 hfirst).1]
        | succ n => exact absurd hheld (firstAt_succ_iff.1 hfirst).1
    · next hfree =>
      have hfree : ¬o.Holds name descriptor owner :=
        fun h => hfree (OrdSet.contains_iff.2 h)
      rw [Option.bind_eq_some_iff]
      constructor
      · rintro ⟨next, hnext, h⟩
        obtain ⟨n, hn, a, hfirst, rfl⟩ := ih.1 h
        exact ⟨n + 1, Nat.succ_lt_succ hn, a,
          firstAt_succ_iff.2 ⟨hfree, next, hnext, hfirst⟩, rfl⟩
      · rintro ⟨n, hn, a, hfirst, rfl⟩
        cases n with
        | zero => exact absurd (firstAt_zero_iff.1 hfirst).2 hfree
        | succ n =>
          obtain ⟨-, next, hnext, hfirst⟩ := firstAt_succ_iff.1 hfirst
          exact ⟨next, hnext, ih.2 ⟨n, Nat.lt_of_succ_lt_succ hn, a, hfirst, rfl⟩⟩

/-- No first declaration lies further up than there are links. -/
theorem le_size_of_firstAt {P : String → Prop} {start a : String} {n : Nat}
    (h : FirstAt o.supers.get? P start n a) : n ≤ o.supers.size := by
  have hcard : n ≤ o.supers.keys.toFinset.card :=
    h.le_card fun b next hb =>
      List.mem_toFinset.2 (OrdMap.mem_keys_iff.2 ⟨next, hb⟩)
  have hsize : o.supers.keys.toFinset.card ≤ o.supers.size := by
    refine (List.toFinset_card_le _).trans (Nat.le_of_eq ?_)
    exact List.length_map _
  exact hcard.trans hsize

/-- A reference means the first declaration on its chain, however far up
it is. -/
theorem resolve_eq_some_iff :
    o.resolve key = some found
      ↔ ∃ n a, FirstAt o.supers.get? (o.Holds key.name key.descriptor)
          key.owner n a
        ∧ found = ⟨a, key.name, key.descriptor⟩ := by
  unfold resolve
  rw [climb_eq_some_iff]
  constructor
  · rintro ⟨n, -, h⟩
    exact ⟨n, h⟩
  · rintro ⟨n, a, hfirst, hfound⟩
    exact ⟨n, Nat.lt_succ_of_le (le_size_of_firstAt hfirst), a, hfirst, hfound⟩

theorem resolve_eq_none_iff :
    o.resolve key = none
      ↔ ∀ n a, ancestor? o.supers.get? key.owner n = some a →
        ¬o.Holds key.name key.descriptor a := by
  rw [Option.eq_none_iff_forall_ne_some]
  constructor
  · intro h n a ha hheld
    obtain ⟨m, b, hfirst⟩ := exists_firstAt ha hheld
    exact h _ (resolve_eq_some_iff.2 ⟨m, b, hfirst, rfl⟩)
  · intro h found hfound
    obtain ⟨n, a, hfirst, -⟩ := resolve_eq_some_iff.1 hfound
    exact h n a hfirst.reached hfirst.holds

/-- What a reference means is declared. -/
theorem mem_declared_of_resolve (h : o.resolve key = some found) :
    found ∈ o.declared := by
  obtain ⟨n, a, hfirst, rfl⟩ := resolve_eq_some_iff.1 h
  exact hfirst.holds

/-- A declared field means itself. -/
theorem resolve_of_mem_declared (h : found ∈ o.declared) :
    o.resolve found = some found :=
  resolve_eq_some_iff.2 ⟨0, found.owner, firstAt_zero_iff.2 ⟨rfl, h⟩, rfl⟩

-- ==================================================== the owners of a list

theorem declared_ofClasses :
    (ofClasses cs).declared
      = OrdSet.ofList (cs.flatMap fun c => c.fields.map c.fieldKey) := by
  unfold ofClasses OrdSet.ofList
  rw [List.foldl_flatMap]
  exact (List.foldl_hom declared fun _ _ => rfl).symm

theorem supers_ofClasses :
    (ofClasses cs).supers
      = OrdMap.ofList (cs.filterMap fun c => c.superName.map (c.name, ·)) := by
  unfold ofClasses OrdMap.ofList
  rw [List.foldl_filterMap]
  refine (List.foldl_hom supers fun o c => ?_).symm
  unfold absorb
  cases c.superName <;> rfl

/-- Each class has at most one superclass. -/
theorem sources_sublist (cs : List ClassDecl) :
    ((cs.filterMap fun c => c.superName.map (c.name, ·)).map (·.1)).Sublist
      (cs.map (·.name)) := by
  induction cs with
  | nil => exact List.Sublist.refl _
  | cons c rest ih =>
    rw [List.filterMap_cons, List.map_cons]
    cases c.superName with
    | none => exact ih.cons c.name
    | some parent => exact ih.cons_cons c.name

/-- Classes with different names, in any order. -/
theorem ofClasses_eq_of_perm (hnodup : (cs.map (·.name)).Nodup)
    (hp : cs.Perm cs') : ofClasses cs = ofClasses cs' := by
  have hdeclared : (ofClasses cs).declared = (ofClasses cs').declared := by
    rw [declared_ofClasses, declared_ofClasses]
    exact OrdSet.ofList_eq_of_perm (hp.flatMap_right _)
  have hsupers : (ofClasses cs).supers = (ofClasses cs').supers := by
    rw [supers_ofClasses, supers_ofClasses]
    exact OrdMap.ofList_eq_of_perm ((sources_sublist cs).nodup hnodup)
      (hp.filterMap _)
  generalize ofClasses cs = o at hdeclared hsupers ⊢
  cases o
  generalize ofClasses cs' = o' at hdeclared hsupers ⊢
  cases o'
  congr

/-- Whether some class of a list declares a field. -/
def Declares (cs : List ClassDecl) (key : Member) : Prop :=
  ∃ c ∈ cs, ∃ f ∈ c.fields, c.fieldKey f = key

instance (cs : List ClassDecl) (key : Member) : Decidable (Declares cs key) :=
  inferInstanceAs (Decidable (∃ c ∈ cs, ∃ f ∈ c.fields, c.fieldKey f = key))

/-- The superclass that a class of a list names. -/
def superOf? (cs : List ClassDecl) (name : String) : Option String :=
  (cs.find? (·.name == name)).bind (·.superName)

theorem mem_declared_iff : key ∈ (ofClasses cs).declared ↔ Declares cs key := by
  rw [declared_ofClasses, OrdSet.mem_ofList, List.mem_flatMap]
  unfold Declares
  simp only [List.mem_map]

/-- The class that a name finds, if no two classes share one. -/
theorem find?_eq_some_iff (hnodup : (cs.map (·.name)).Nodup) {name : String}
    {c : ClassDecl} :
    cs.find? (·.name == name) = some c ↔ c ∈ cs ∧ c.name = name := by
  induction cs with
  | nil => simp
  | cons d rest ih =>
    rw [List.map_cons, List.nodup_cons] at hnodup
    have hother (hc : c ∈ rest) : d.name ≠ c.name :=
      fun heq => hnodup.1 (heq ▸ List.mem_map.2 ⟨c, hc, rfl⟩)
    rw [List.find?_cons]
    by_cases hd : d.name = name
    · rw [beq_iff_eq.2 hd]
      grind
    · rw [beq_eq_false_iff_ne.2 hd]
      grind

theorem get?_supers (hnodup : (cs.map (·.name)).Nodup) (name : String) :
    (ofClasses cs).supers.get? name = superOf? cs name := by
  refine Option.ext fun parent => ?_
  rw [supers_ofClasses, OrdMap.get?_ofList ((sources_sublist cs).nodup hnodup)]
  unfold superOf?
  simp only [List.mem_filterMap, Option.map_eq_some_iff, Option.bind_eq_some_iff,
    find?_eq_some_iff hnodup, Prod.mk.injEq]
  grind

-- =========================================================== the theorem

/-- A reference is resolved to the field of the first class on its chain
that declares one of its name and descriptor, and to nothing only if no
class on the chain does, however long the chain is. What it is resolved
to is a declared field, and means itself. -/
theorem resolve_finds_nearest (hnodup : (cs.map (·.name)).Nodup)
    (key : Member) :
    (∀ found, (ofClasses cs).resolve key = some found
      ↔ ∃ n owner, FirstAt (superOf? cs)
          (fun a => Declares cs ⟨a, key.name, key.descriptor⟩) key.owner n owner
        ∧ found = ⟨owner, key.name, key.descriptor⟩)
      ∧ ((ofClasses cs).resolve key = none
        ↔ ∀ n owner, ancestor? (superOf? cs) key.owner n = some owner →
          ¬Declares cs ⟨owner, key.name, key.descriptor⟩)
      ∧ ∀ found, (ofClasses cs).resolve key = some found →
        Declares cs found ∧ (ofClasses cs).resolve found = some found := by
  have hparent : (ofClasses cs).supers.get? = superOf? cs :=
    funext (get?_supers hnodup)
  have hholds : (ofClasses cs).Holds key.name key.descriptor
      = fun a => Declares cs ⟨a, key.name, key.descriptor⟩ :=
    funext fun _ => propext mem_declared_iff
  refine ⟨fun found => ?_, ?_, fun found hfound => ?_⟩
  · rw [resolve_eq_some_iff, hparent, hholds]
  · rw [resolve_eq_none_iff, hparent, hholds]
  · have hmem := mem_declared_of_resolve hfound
    exact ⟨mem_declared_iff.1 hmem, resolve_of_mem_declared hmem⟩

end Owners

-- =============================================================== sample

namespace Sample

/-- A class with some fields of type `int` below another class. -/
def heir (name : String) (parent : Option String) (fields : List String) :
    ClassDecl where
  name := name
  kind := .plain
  superName := parent
  interfaces := []
  fields := fields.map fun f => ⟨f, "I", false, false⟩
  methods := []

/-- Three generations: the walk from the last needs every step it has. -/
def generations : List ClassDecl :=
  [heir "ef" (some "cd") ["b"], heir "cd" (some "ab") [], heir "ab" none ["a"]]

/-- Two classes above each other, and one above itself. -/
def circles : List ClassDecl :=
  [heir "ab" (some "cd") ["a"], heir "cd" (some "ab") [],
   heir "ef" (some "ef") ["b"]]

end Sample

namespace Owners

/-- The field of the first generation is found from the last. No class of
a circle declares a field that is not found. -/
theorem resolve_finds_nearest_generations :
    (ofClasses Sample.generations).resolve ⟨"ef", "a", "I"⟩
        = some ⟨"ab", "a", "I"⟩
      ∧ ∀ n owner, ancestor? (superOf? Sample.circles) "cd" n = some owner →
        ¬Declares Sample.circles ⟨owner, "b", "I"⟩ := by
  constructor
  · refine ((resolve_finds_nearest (by decide) _).1 _).2 ⟨2, "ab", ?_, rfl⟩
    refine firstAt_succ_iff.2 ⟨by decide, "cd", rfl, ?_⟩
    refine firstAt_succ_iff.2 ⟨by decide, "ab", rfl, ?_⟩
    exact firstAt_zero_iff.2 ⟨rfl, by decide⟩
  · exact (resolve_finds_nearest (by decide) ⟨"cd", "b", "I"⟩).2.1.1 (by decide)

end Owners

end SymbolMatch
