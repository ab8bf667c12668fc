/-
What a class counts is what its methods and fields count together.

The fingerprint of a class and the fingerprints of its methods are drawn
by two passes over the same code. The pass over the class leaves the code
of abstract methods out and takes the rest as one piece; the other takes
each method for itself, abstract or not. `AddsUp` says how the results go
together: the counts of the class are the sums of those of the methods
that are not abstract, its strings are theirs, and the numbers of methods
and fields that it gives are those that its multisets hold.

A tally has no entry for what does not occur. So the sums are stated with
the entries they make: an opcode has one if its sum is not zero.
-/
import SymbolMatch.Proofs.Overlap.Union
import SymbolMatch.Proofs.Summary

namespace SymbolMatch

open Overlap

variable {c : ClassDecl} {ms : List MethodDecl}

-- ============================================================ the bodies

/-- Occurrences in lists that are put together. -/
theorem count_flatMap_eq_total {α β : Type} [BEq β] (xs : List α)
    (f : α → List β) (b : β) :
    (xs.flatMap f).count b = total (xs.map fun x => (f x).count b) := by
  induction xs with
  | nil => rfl
  | cons x rest ih =>
    rw [List.flatMap_cons, List.count_append, ih, List.map_cons]
    rfl

/-- The opcodes of several bodies together are counted as the sums of
those of each. -/
theorem get?_opcodeCounts_flatMap {op n : Nat} :
    (opcodeCounts (ms.flatMap (·.code))).get? op = some n
      ↔ 0 < n
        ∧ n = total (ms.map fun m => (opcodeCounts m.code).getD op 0) := by
  unfold opcodeCounts
  rw [OrdMap.get?_tally_eq_some_iff, List.map_flatMap, count_flatMap_eq_total]
  simp only [OrdMap.getD_tally]

/-- The strings of several bodies together are those of each. -/
theorem mem_loadedStrings_flatMap {text : String} :
    text ∈ loadedStrings (ms.flatMap (·.code))
      ↔ ∃ m ∈ ms, text ∈ loadedStrings m.code := by
  unfold loadedStrings
  simp only [OrdSet.mem_ofList, List.filterMap_flatMap, List.mem_flatMap]

namespace ClassFingerprint

-- ============================================================== the sums

/-- The fingerprint of a class goes together with those of its methods:
`all` are the fingerprints of all of them, `bodies` those of the methods
that are not abstract. -/
structure AddsUp (c : ClassDecl) (f : ClassFingerprint)
    (all bodies : List MethodFingerprint) : Prop where
  opcodes : ∀ op n, f.opcodeHistogram.get? op = some n
    ↔ 0 < n ∧ n = total (bodies.map fun b => b.opcodeHistogram.getD op 0)
  strings : ∀ text, text ∈ f.stringLiterals
    ↔ ∃ b ∈ bodies, text ∈ b.stringLiterals
  descriptors : ∀ d n, f.methodDescriptors.get? d = some n
    ↔ 0 < n ∧ n = (all.map (·.normalizedDescriptor)).count d
  methods : total f.methodDescriptors.values = f.methodCount
  methodCount : f.methodCount = c.methods.length
  fields : total f.staticFieldTypes.values + total f.instanceFieldTypes.values
    = f.fieldCount
  fieldCount : f.fieldCount = c.fields.length
  /-- Static methods may look the same once their names are blurred. -/
  signatures : f.staticMethodSignatures.size ≤ f.staticMethodCount
  staticMethodCount : f.staticMethodCount
    = c.methods.countP fun m => m.isStatic && m.name != "<clinit>"

/-- Every field is static or not. -/
theorem total_fieldTypes_summary (cutoff : Nat) (c : ClassDecl) :
    total (summary cutoff c).staticFieldTypes.values
        + total (summary cutoff c).instanceFieldTypes.values
      = c.fields.length := by
  unfold summary
  dsimp only
  rw [total_tally, total_tally, List.length_map, List.length_map]
  exact (List.length_eq_length_filter_add _).symm

/-- The fingerprint of a class that can be read adds up. -/
theorem addsUp_summary (cutoff : Nat) (c : ClassDecl) :
    (summary cutoff c).AddsUp c
      (c.methods.map (MethodFingerprint.summary cutoff c))
      ((c.methods.filter (!·.isAbstract)).map
        (MethodFingerprint.summary cutoff c)) where
  opcodes op n := by
    rw [List.map_map]
    exact get?_opcodeCounts_flatMap
  strings text := by
    simp only [List.mem_map, exists_exists_and_eq_and]
    exact mem_loadedStrings_flatMap
  descriptors d n := by
    rw [List.map_map]
    exact OrdMap.get?_tally_eq_some_iff
  methods := (total_tally _).trans (List.length_map _)
  methodCount := rfl
  fields := total_fieldTypes_summary cutoff c
  fieldCount := rfl
  signatures := Nat.le_trans (OrdSet.size_ofList_le _)
    (Nat.le_of_eq (List.length_map _))
  staticMethodCount := List.countP_eq_length_filter.symm

/-- Every class that was accepted has a fingerprint, its methods have
theirs, and they add up. -/
theorem accepted_adds_up (cutoff : Nat) (cs : List ClassDecl) (s : Snapshot)
    (c : ClassDecl) (hs : Snapshot.ofClasses cs = .ok s) (hc : c ∈ s.classes) :
    ∃ f all bodies, extract cutoff c = .ok f
      ∧ c.methods.mapM (MethodFingerprint.extract cutoff c) = .ok all
      ∧ (c.methods.filter (!·.isAbstract)).mapM
        (MethodFingerprint.extract cutoff c) = .ok bodies
      ∧ f.AddsUp c all bodies := by
  obtain ⟨rfl, hvalid⟩ := Snapshot.ofClasses_eq_ok_iff.1 hs
  have hreadable := (hvalid.classes c hc).readable
  refine ⟨_, _, _, extract_eq_ok cutoff hreadable,
    Outcome.mapM_eq_ok_map fun m hm =>
      MethodFingerprint.extract_eq_ok cutoff hreadable hm,
    Outcome.mapM_eq_ok_map fun m hm =>
      MethodFingerprint.extract_eq_ok cutoff hreadable (List.mem_of_mem_filter hm),
    addsUp_summary cutoff c⟩

end ClassFingerprint

namespace Sample

/-- A class with an abstract method that has code, an initializer, two
static methods that look the same and two methods under one key. -/
def workshop : ClassDecl where
  name := "eb"
  kind := .plain
  superName := some "PacketBase"
  interfaces := ["ab"]
  fields := [⟨"a", "I", false, false⟩, ⟨"b", "Leb;", true, false⟩,
    ⟨"c", "I", false, false⟩]
  methods := [
    ⟨"<clinit>", "()V", true, false,
      [⟨18, .constant (.string "hello")⟩, ⟨87, .empty⟩]⟩,
    ⟨"x", "(Leb;)V", true, false, [⟨87, .empty⟩]⟩,
    ⟨"y", "(Lab;)V", true, false, []⟩,
    ⟨"z", "()V", false, true, [⟨18, .constant (.string "unseen")⟩]⟩,
    ⟨"w", "()V", false, false, [⟨177, .empty⟩]⟩,
    ⟨"w", "()V", false, false, [⟨177, .empty⟩]⟩]

end Sample

namespace ClassFingerprint

/-- Three of its methods are static and two count as such; of its code the
abstract method's is left out. -/
theorem accepted_adds_up_workshop :
    Snapshot.ofClasses [Sample.workshop] = .ok ⟨[Sample.workshop]⟩
      ∧ ∃ f all bodies, extract 2 Sample.workshop = .ok f
        ∧ Sample.workshop.methods.mapM
          (MethodFingerprint.extract 2 Sample.workshop) = .ok all
        ∧ (Sample.workshop.methods.filter (!·.isAbstract)).mapM
          (MethodFingerprint.extract 2 Sample.workshop) = .ok bodies
        ∧ f.AddsUp Sample.workshop all bodies
        ∧ f.staticMethodCount = 2 ∧ f.methodCount = 6 := by
  have hs : Snapshot.ofClasses [Sample.workshop] = .ok ⟨[Sample.workshop]⟩ := rfl
  obtain ⟨f, all, bodies, hf, hall, hbodies, h⟩ :=
    accepted_adds_up 2 _ _ Sample.workshop hs List.mem_cons_self
  refine ⟨hs, f, all, bodies, hf, hall, hbodies, h, ?_, h.methodCount⟩
  rw [h.staticMethodCount]
  decide

end ClassFingerprint

end SymbolMatch
