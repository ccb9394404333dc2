/-!
# Bounded history

A history keeps the most recent items, the latest first, and forgets the oldest when it is full.
Main results: `toList_add` says what one addition does to the items; `length_le_capacity` bounds
them.
-/

namespace Parley

/-- The latest items, most recent first, never more than `capacity` of them. -/
structure History (α : Type) where
  capacity : Nat
  items : List α := []
  length_le_capacity : items.length ≤ capacity := by simp

namespace History

variable {α : Type}

def empty (capacity : Nat) : History α := { capacity }

/-- Adds the most recent item; the oldest is forgotten if there is no room. -/
def add (h : History α) (a : α) : History α where
  capacity := h.capacity
  items := (a :: h.items).take h.capacity
  length_le_capacity := by
    rw [List.length_take]
    exact Nat.min_le_left ..

/-- The items, most recent first. -/
def toList (h : History α) : List α := h.items

def size (h : History α) : Nat := h.items.length

def isEmpty (h : History α) : Bool := h.items.isEmpty

/-- The `n`th most recent item, counted from one. -/
def get? (h : History α) : Nat → Option α
  | 0 => none
  | n + 1 => h.items[n]?

@[simp] theorem toList_empty (capacity : Nat) : (empty capacity : History α).toList = [] := rfl

/-- One addition puts its item in front and keeps as many as there is room for. -/
@[simp] theorem toList_add (h : History α) (a : α) :
    (h.add a).toList = (a :: h.toList).take h.capacity := rfl

@[simp] theorem capacity_add (h : History α) (a : α) : (h.add a).capacity = h.capacity := rfl

end History

end Parley
