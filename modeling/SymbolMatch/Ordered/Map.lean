/-
Finite maps held as association lists whose keys strictly increase. The
order of the keys is the order in which a report lists them, and two
maps with the same entries are the same value, so equality of maps is
equality of contents.

Every change goes through `alter`, which sets one key from what it held
before; `insert` and `bump` are its two uses.
-/

namespace SymbolMatch

/-- A finite map with its entries in increasing order of their keys. -/
structure OrdMap (κ ν : Type) [Ord κ] where
  entries : List (κ × ν)
  sorted : entries.Pairwise fun a b => compare a.1 b.1 = .lt

namespace OrdMap

variable {κ ν : Type} [Ord κ]

-- ============================================================== reading

instance [DecidableEq κ] [DecidableEq ν] : DecidableEq (OrdMap κ ν) :=
  fun a b => decidable_of_iff (a.entries = b.entries) (by
    cases a; cases b; simp)

def empty : OrdMap κ ν := ⟨[], .nil⟩

instance : EmptyCollection (OrdMap κ ν) := ⟨empty⟩

instance : Inhabited (OrdMap κ ν) := ⟨empty⟩

/-- The value under a key in a list of entries. -/
def lookup (k : κ) : List (κ × ν) → Option ν
  | [] => none
  | (k', v) :: rest => if compare k k' = .eq then some v else lookup k rest

def get? (m : OrdMap κ ν) (k : κ) : Option ν := lookup k m.entries

def getD (m : OrdMap κ ν) (k : κ) (default : ν) : ν := (m.get? k).getD default

def contains (m : OrdMap κ ν) (k : κ) : Bool := (m.get? k).isSome

def keys (m : OrdMap κ ν) : List κ := m.entries.map (·.1)

def values (m : OrdMap κ ν) : List ν := m.entries.map (·.2)

def size (m : OrdMap κ ν) : Nat := m.entries.length

def isEmpty (m : OrdMap κ ν) : Bool := m.entries.isEmpty

-- ============================================================= changing

/-- Set the value under `k` to `f` of the value that was there. -/
def alterEntries (k : κ) (f : Option ν → ν) : List (κ × ν) → List (κ × ν)
  | [] => [(k, f none)]
  | (k', v) :: rest =>
    match compare k k' with
    | .lt => (k, f none) :: (k', v) :: rest
    | .eq => (k, f (some v)) :: rest
    | .gt => (k', v) :: alterEntries k f rest

/-- Altering a key brings in no key but that one. -/
theorem key_mem_alterEntries {k : κ} {f : Option ν → ν} {l : List (κ × ν)}
    {a : κ × ν} (h : a ∈ alterEntries k f l) : a.1 = k ∨ a ∈ l := by
  induction l with
  | nil => simp [alterEntries] at h; simp [h]
  | cons b rest ih =>
    obtain ⟨k', v⟩ := b
    simp only [alterEntries] at h
    split at h <;> grind

variable [Std.TransOrd κ] [Std.LawfulEqOrd κ]

/-- Altering a key keeps the keys increasing. -/
theorem sorted_alterEntries {k : κ} {f : Option ν → ν} {l : List (κ × ν)}
    (h : l.Pairwise fun a b => compare a.1 b.1 = .lt) :
    (alterEntries k f l).Pairwise fun a b => compare a.1 b.1 = .lt := by
  induction l with
  | nil => simp [alterEntries]
  | cons b rest ih =>
    obtain ⟨k', v⟩ := b
    rw [List.pairwise_cons] at h
    simp only [alterEntries]
    split
    · next hlt =>
      refine List.pairwise_cons.2 ⟨?_, List.pairwise_cons.2 h⟩
      intro a ha
      rcases List.mem_cons.1 ha with rfl | ha
      · exact hlt
      · exact Std.TransCmp.lt_trans hlt (h.1 a ha)
    · next heq =>
      have := Std.LawfulEqOrd.eq_of_compare heq
      subst this
      exact List.pairwise_cons.2 ⟨h.1, h.2⟩
    · next hgt =>
      refine List.pairwise_cons.2 ⟨?_, ih h.2⟩
      intro a ha
      rcases key_mem_alterEntries ha with rfl | ha
      · exact Std.OrientedCmp.lt_of_gt hgt
      · exact h.1 a ha

/-- Set the value under `k` to `f` of the value that was there. -/
def alter (m : OrdMap κ ν) (k : κ) (f : Option ν → ν) : OrdMap κ ν :=
  ⟨alterEntries k f m.entries, sorted_alterEntries m.sorted⟩

/-- Set the value under `k`, replacing the one that was there. -/
def insert (m : OrdMap κ ν) (k : κ) (v : ν) : OrdMap κ ν :=
  m.alter k fun _ => v

/-- Remove a key and its value. -/
def erase (m : OrdMap κ ν) (k : κ) : OrdMap κ ν :=
  ⟨m.entries.filter fun e => compare k e.1 != .eq, m.sorted.filter _⟩

/-- Count one more occurrence of a key. -/
def bump (m : OrdMap κ Nat) (k : κ) : OrdMap κ Nat :=
  m.alter k fun n => n.getD 0 + 1

/-- The map of a list of pairs; of two pairs with one key the later
counts. -/
def ofList (pairs : List (κ × ν)) : OrdMap κ ν :=
  pairs.foldl (fun m p => m.insert p.1 p.2) empty

/-- How often each element occurs in a list. -/
def tally (xs : List κ) : OrdMap κ Nat := xs.foldl bump empty

end OrdMap

end SymbolMatch
