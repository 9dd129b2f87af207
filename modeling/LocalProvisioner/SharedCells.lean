import Mathlib.Logic.Function.Basic

/-!
# Cells shared by reference

Values that several owners hold references to.  Writing through one reference
is seen through every other reference to the same cell.  Cells that have not
been allocated yet hold a default value.
-/

/-- The contents of all cells, and the reference of the next cell to allocate. -/
structure SharedCells (Value : Type) where
  contents : Nat → Value
  next : Nat

namespace SharedCells

variable {Value : Type}

/-- Cells that all hold one value, none of them allocated. -/
def blank (value : Value) : SharedCells Value where
  contents := fun _ => value
  next := 0

/-- The value behind a reference. -/
def read (cells : SharedCells Value) (reference : Nat) : Value :=
  cells.contents reference

/-- Replace the value behind a reference. -/
def write (cells : SharedCells Value) (reference : Nat) (value : Value) :
    SharedCells Value :=
  { cells with contents := Function.update cells.contents reference value }

/-- Put a value into a new cell. -/
def alloc (cells : SharedCells Value) (value : Value) :
    Nat × SharedCells Value :=
  (cells.next,
    { contents := Function.update cells.contents cells.next value
      next := cells.next + 1 })

@[simp] theorem read_blank (value : Value) (reference : Nat) :
    (blank value).read reference = value :=
  rfl

theorem read_write
    (cells : SharedCells Value)
    (reference other : Nat)
    (value : Value) :
    (cells.write reference value).read other =
      if other = reference then value else cells.read other := by
  simp [read, write, Function.update_apply]

@[simp] theorem read_alloc_self (cells : SharedCells Value) (value : Value) :
    (cells.alloc value).2.read (cells.alloc value).1 = value := by
  simp [read, alloc]

theorem read_alloc
    (cells : SharedCells Value)
    (value : Value)
    (other : Nat) :
    (cells.alloc value).2.read other =
      if other = cells.next then value else cells.read other := by
  simp [read, alloc, Function.update_apply]

/-- New cells have been allocated, and the cells before them are as they were. -/
structure Extends (before after : SharedCells Value) : Prop where
  grows : before.next ≤ after.next
  kept : ∀ {reference},
    reference < before.next → after.read reference = before.read reference

namespace Extends

theorem refl (cells : SharedCells Value) : cells.Extends cells where
  grows := Nat.le_refl _
  kept := fun _ => rfl

theorem trans
    {first second third : SharedCells Value}
    (earlier : first.Extends second)
    (later : second.Extends third) :
    first.Extends third where
  grows := Nat.le_trans earlier.grows later.grows
  kept := by
    intro reference old
    rw [later.kept (Nat.lt_of_lt_of_le old earlier.grows), earlier.kept old]

theorem alloc (cells : SharedCells Value) (value : Value) :
    cells.Extends (cells.alloc value).2 where
  grows := Nat.le_succ _
  kept := by
    intro reference old
    rw [read_alloc, if_neg (Nat.ne_of_lt old)]

end Extends

end SharedCells
