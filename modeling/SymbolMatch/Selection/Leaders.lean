/-
The best few of a stream of items. Every item is kept as long as there is
room. Then a new item has to go before the worst one kept, and takes its
place. The items kept are in order, the best first, so the worst one
stands last.
-/
import SymbolMatch.Number.Binary64
import SymbolMatch.Ordered.Sort

namespace SymbolMatch

/-- The best items so far, by a ranking that puts the better item
first. -/
structure Leaders (α : Type) (ranking : α → α → Ordering) where
  capacity : Nat
  items : List α

namespace Leaders

variable {α : Type} {ranking : α → α → Ordering}

/-- No items yet. -/
def empty (capacity : Nat) : Leaders α ranking := ⟨capacity, []⟩

/-- The worst item kept. -/
def worst? (l : Leaders α ranking) : Option α := l.items.getLast?

/-- Put an item into its place. -/
def enter (l : Leaders α ranking) (a : α) : Leaders α ranking :=
  { l with items := insertBy ranking a l.items }

/-- Let the worst item go. -/
def dropWorst (l : Leaders α ranking) : Leaders α ranking :=
  { l with items := l.items.dropLast }

/-- Offer one more item. It is kept if there is room, or if it goes before
the worst item, which then goes; an item of the same rank as the worst is
turned away. -/
def push (l : Leaders α ranking) (a : α) : Leaders α ranking :=
  if l.capacity = 0 then l
  else if l.items.length < l.capacity then l.enter a
  else
    match l.worst? with
    | some worst => if ranking a worst = .lt then l.dropWorst.enter a else l
    | none => l

/-- The leaders of a list. -/
def ofList (capacity : Nat) (xs : List α) : Leaders α ranking :=
  xs.foldl push (empty capacity)

def size (l : Leaders α ranking) : Nat := l.items.length

def isEmpty (l : Leaders α ranking) : Bool := l.items.isEmpty

end Leaders

/-- Items with scores, the highest score first; of equal scores the lesser
item first. -/
def byScore {ι : Type} [Ord ι] (a b : Binary64 × ι) : Ordering :=
  (Binary64.totalCompare b.1 a.1).then (compare a.2 b.2)

end SymbolMatch
