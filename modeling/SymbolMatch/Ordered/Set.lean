/-
Finite sets held as strictly increasing lists. As with `OrdMap`, the
order is the one a report shows, and sets with the same elements are
equal.
-/

namespace SymbolMatch

/-- A finite set with its elements in increasing order. -/
structure OrdSet (κ : Type) [Ord κ] where
  elements : List κ
  sorted : elements.Pairwise fun a b => compare a b = .lt

namespace OrdSet

variable {κ : Type} [Ord κ]

-- ============================================================== reading

instance [DecidableEq κ] : DecidableEq (OrdSet κ) :=
  fun a b => decidable_of_iff (a.elements = b.elements) (by
    cases a; cases b; simp)

def empty : OrdSet κ := ⟨[], .nil⟩

instance : EmptyCollection (OrdSet κ) := ⟨empty⟩

instance : Inhabited (OrdSet κ) := ⟨empty⟩

def contains (s : OrdSet κ) (k : κ) : Bool :=
  s.elements.any fun a => compare k a == .eq

def size (s : OrdSet κ) : Nat := s.elements.length

def isEmpty (s : OrdSet κ) : Bool := s.elements.isEmpty

/-- The elements that a test accepts. -/
def filter (s : OrdSet κ) (p : κ → Bool) : OrdSet κ :=
  ⟨s.elements.filter p, s.sorted.filter _⟩

/-- What two sets share. -/
def inter (a b : OrdSet κ) : OrdSet κ := a.filter b.contains

-- ============================================================= changing

/-- Put an element in its place, unless it is there. -/
def insertElement (k : κ) : List κ → List κ
  | [] => [k]
  | a :: rest =>
    match compare k a with
    | .lt => k :: a :: rest
    | .eq => a :: rest
    | .gt => a :: insertElement k rest

/-- Inserting an element brings in that element only. -/
theorem mem_insertElement {k a : κ} {l : List κ}
    (h : a ∈ insertElement k l) : a = k ∨ a ∈ l := by
  induction l with
  | nil => simpa [insertElement] using h
  | cons b rest ih =>
    simp only [insertElement] at h
    split at h <;> grind

variable [Std.TransOrd κ]

/-- Inserting an element keeps a list increasing. -/
theorem sorted_insertElement {k : κ} {l : List κ}
    (h : l.Pairwise fun a b => compare a b = .lt) :
    (insertElement k l).Pairwise fun a b => compare a b = .lt := by
  induction l with
  | nil => simp [insertElement]
  | cons b rest ih =>
    rw [List.pairwise_cons] at h
    simp only [insertElement]
    split
    · next hlt =>
      refine List.pairwise_cons.2 ⟨?_, List.pairwise_cons.2 h⟩
      intro a ha
      rcases List.mem_cons.1 ha with rfl | ha
      · exact hlt
      · exact Std.TransCmp.lt_trans hlt (h.1 a ha)
    · exact List.pairwise_cons.2 h
    · next hgt =>
      refine List.pairwise_cons.2 ⟨?_, ih h.2⟩
      intro a ha
      rcases mem_insertElement ha with rfl | ha
      · exact Std.OrientedCmp.lt_of_gt hgt
      · exact h.1 a ha

def insert (s : OrdSet κ) (k : κ) : OrdSet κ :=
  ⟨insertElement k s.elements, sorted_insertElement s.sorted⟩

/-- The set of a list's elements. -/
def ofList (xs : List κ) : OrdSet κ := xs.foldl insert empty

/-- What is in either of two sets. -/
def union (a b : OrdSet κ) : OrdSet κ := b.elements.foldl insert a

end OrdSet

end SymbolMatch
