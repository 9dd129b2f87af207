import LocalProvisioner.SharedCells
import Mathlib.Data.List.Basic
import Mathlib.Tactic.Common

/-!
# Slices of shared arrays

A slice is a number of elements at the start of an array.  Several slices may
share an array, and an element may point to a value that elements of other
arrays point to as well.  Elements are assigned to a slice one after the other:
those that the array has room for are changed where they are, and when it is
full it is copied into a larger one.  Whoever else holds the first array sees
what was assigned before it was full, and what was written through a pointer.

`SliceMemory.Sound` says that a pointer stands at one index only, whatever the
array.  An assignment at an index then reaches other slices at that index only,
so that the effect of a loop over the elements can be told index by index.
-/

/-- The room that a full array is given. -/
structure GrowthPolicy where
  capacity : Nat → Nat
  grows : ∀ room, room < capacity room

/-- An element of an array, which may point to a value. -/
structure Stored (Plain : Type) where
  plain : Plain
  pointer : Option Nat

/-- The elements at the start of an array. -/
structure Slice where
  array : Nat
  length : Nat
  deriving Repr, DecidableEq

/-- What is assigned to an element: a change, and a value to point to, or none. -/
structure ElementChange (Plain Pointed : Type) where
  plain : Plain → Plain
  pointed : Option (Option Pointed)

namespace ElementChange

variable {Plain Pointed : Type}

/-- The effect of an assignment on the value of the element. -/
def apply
    (change : ElementChange Plain Pointed)
    (value : Plain × Option Pointed) :
    Plain × Option Pointed :=
  (change.plain value.1, change.pointed.getD value.2)

/-- The effect of an assignment on an element that has the same pointer. -/
def through
    (change : ElementChange Plain Pointed)
    (value : Plain × Option Pointed) :
    Plain × Option Pointed :=
  match change.pointed with
  | some (some written) => (value.1, some written)
  | _ => value

end ElementChange

/-!
## Lists decoded over other lists
-/

section OverElements

variable {Change Value : Type}

/-- The values that changes lead to, over the values there are and a blank one. -/
def overElements (apply : Change → Value → Value) (blank : Value) :
    List Change → List Value → List Value
  | [], _ => []
  | change :: rest, [] =>
      apply change blank :: overElements apply blank rest []
  | change :: rest, value :: values =>
      apply change value :: overElements apply blank rest values

/-- The contents of a field after an assignment. -/
def overSlice
    (apply : Change → Value → Value)
    (blank : Value)
    (given : Option (Option (List Change)))
    (earlier : Option (List Value))
    (backing : List Value) :
    Option (List Value) :=
  match given with
  | none => earlier
  | some none => none
  | some (some changes) => some (overElements apply blank changes backing)

theorem getElem?_overElements
    (apply : Change → Value → Value)
    (blank : Value)
    (changes : List Change)
    (values : List Value)
    (index : Nat) :
    (overElements apply blank changes values)[index]? =
      changes[index]?.map fun change =>
        apply change (values[index]?.getD blank) := by
  induction changes generalizing values index with
  | nil => simp [overElements]
  | cons change rest inductionHypothesis =>
      cases values with
      | nil =>
          cases index with
          | zero => rfl
          | succ index => simpa [overElements] using inductionHypothesis [] index
      | cons value values =>
          cases index with
          | zero => rfl
          | succ index =>
              simpa [overElements] using inductionHypothesis values index

/-- With no values there are, the blank one is changed each time. -/
theorem overElements_nil
    (apply : Change → Value → Value)
    (blank : Value)
    (changes : List Change) :
    overElements apply blank changes [] =
      changes.map fun change => apply change blank := by
  induction changes with
  | nil => rfl
  | cons change rest inductionHypothesis =>
      rw [overElements, inductionHypothesis, List.map_cons]

/-- Two ways to look at the values of a slice agree on assignments. -/
theorem map_overSlice
    {Seen Given : Type}
    {apply : Change → Value → Value}
    {seenApply : Given → Seen → Seen}
    {view : Value → Seen}
    {toChange : Given → Change}
    (agrees :
      ∀ given value,
        view (apply (toChange given) value) = seenApply given (view value))
    (blank : Value)
    (given : Option (Option (List Given)))
    (earlier : Option (List Value))
    (backing : List Value) :
    (overSlice apply blank (given.map (Option.map (List.map toChange))) earlier
        backing).map (List.map view) =
      overSlice seenApply (view blank) given (earlier.map (List.map view))
        (backing.map view) := by
  rcases given with _ | _ | given
  · rfl
  · rfl
  · refine congrArg some (List.ext_getElem? fun index => ?_)
    simp only [List.getElem?_map, getElem?_overElements]
    cases given[index]? with
    | none => rfl
    | some element =>
        cases backing[index]? <;> simp [agrees]

end OverElements

/--
Arrays, the values that their elements point to, and how arrays grow.  A cell
that no element has pointed to yet holds no value.
-/
structure SliceMemory (Plain Pointed : Type) where
  arrays : SharedCells (List (Stored Plain))
  pointed : SharedCells (Option Pointed)
  growth : GrowthPolicy

namespace SliceMemory

variable {Plain Pointed : Type}

/-- The room of an array. -/
def room (memory : SliceMemory Plain Pointed) (array : Nat) : Nat :=
  (memory.arrays.read array).length

/-- The element of an array at an index. -/
def element?
    (memory : SliceMemory Plain Pointed)
    (array index : Nat) :
    Option (Stored Plain) :=
  (memory.arrays.read array)[index]?

/-- The pointer of the element of an array at an index. -/
def pointer?
    (memory : SliceMemory Plain Pointed)
    (array index : Nat) :
    Option Nat :=
  (memory.element? array index).bind Stored.pointer

/-- The value of an element. -/
def value (memory : SliceMemory Plain Pointed) (element : Stored Plain) :
    Plain × Option Pointed :=
  (element.plain, element.pointer.bind memory.pointed.read)

/-- The value of the element of an array at an index. -/
def value?
    (memory : SliceMemory Plain Pointed)
    (array index : Nat) :
    Option (Plain × Option Pointed) :=
  (memory.element? array index).map memory.value

/-- The values in an array, those after the end of a slice included. -/
def backing (memory : SliceMemory Plain Pointed) (slice : Slice) :
    List (Plain × Option Pointed) :=
  (memory.arrays.read slice.array).map memory.value

/-- The values of the elements of a slice. -/
def contents (memory : SliceMemory Plain Pointed) (slice : Slice) :
    List (Plain × Option Pointed) :=
  (memory.backing slice).take slice.length

/-- Write through a pointer, make a new one, or take it away. -/
def assignPointed
    (pointed : SharedCells (Option Pointed))
    (pointer : Option Nat) :
    Option (Option Pointed) → SharedCells (Option Pointed) × Option Nat
  | none => (pointed, pointer)
  | some none => (pointed, none)
  | some (some value) =>
      match pointer with
      | none =>
          let allocated := pointed.alloc (some value)
          (allocated.2, some allocated.1)
      | some existing => (pointed.write existing (some value), some existing)

/-- Assign to an element of an array. -/
def assignElement
    (memory : SliceMemory Plain Pointed)
    (array index : Nat)
    (element : Stored Plain)
    (change : ElementChange Plain Pointed) :
    SliceMemory Plain Pointed :=
  let assigned := assignPointed memory.pointed element.pointer change.pointed
  { memory with
    arrays :=
      memory.arrays.write array
        ((memory.arrays.read array).set index
          { plain := change.plain element.plain, pointer := assigned.2 })
    pointed := assigned.1 }

/-- A new array. -/
def allocArray
    (memory : SliceMemory Plain Pointed)
    (elements : List (Stored Plain)) :
    SliceMemory Plain Pointed × Nat :=
  let allocated := memory.arrays.alloc elements
  ({ memory with arrays := allocated.2 }, allocated.1)

/-- An array with room for an index: the array, or a larger copy of it. -/
def makeRoom
    (blank : Plain)
    (memory : SliceMemory Plain Pointed)
    (array index : Nat) :
    SliceMemory Plain Pointed × Nat :=
  if index < memory.room array then
    (memory, array)
  else
    let added := memory.growth.capacity (memory.room array) - memory.room array
    memory.allocArray
      (memory.arrays.read array ++
        List.replicate added { plain := blank, pointer := none })

/-- Assign to the elements of an array one after the other, from an index on. -/
def assignFrom (blank : Plain) :
    Nat →
    List (ElementChange Plain Pointed) →
    SliceMemory Plain Pointed × Nat →
    SliceMemory Plain Pointed × Nat
  | _, [], state => state
  | index, change :: rest, (memory, array) =>
      let (memory, array) := memory.makeRoom blank array index
      match memory.element? array index with
      | none => (memory, array)
      | some element =>
          assignFrom blank (index + 1) rest
            (memory.assignElement array index element change, array)

/--
Assign to a field that holds a slice: nothing, no slice, an empty slice, or its
elements one after the other.
-/
def assignSlice
    (blank : Plain)
    (memory : SliceMemory Plain Pointed)
    (field : Option Slice) :
    Option (Option (List (ElementChange Plain Pointed))) →
    SliceMemory Plain Pointed × Option Slice
  | none => (memory, field)
  | some none => (memory, none)
  | some (some []) =>
      let allocated := memory.allocArray []
      (allocated.1, some { array := allocated.2, length := 0 })
  | some (some (change :: rest)) =>
      let start :=
        match field with
        | some slice => (memory, slice.array)
        | none => memory.allocArray []
      let assigned := assignFrom blank 0 (change :: rest) start
      (assigned.1, some { array := assigned.2, length := rest.length + 1 })

/-!
## One element
-/

theorem element?_eq_none_iff
    {memory : SliceMemory Plain Pointed}
    {array index : Nat} :
    memory.element? array index = none ↔ memory.room array ≤ index := by
  simp [element?, room]

/-- Slices have the same contents if they have the same values. -/
theorem getElem?_contents
    (memory : SliceMemory Plain Pointed)
    (slice : Slice)
    (index : Nat) :
    (memory.contents slice)[index]? =
      if index < slice.length then
        memory.value? slice.array index
      else
        none := by
  simp [contents, backing, value?, element?, List.getElem?_take]

/-- A pointer stands at one index only, and points to an allocated value. -/
structure Sound (memory : SliceMemory Plain Pointed) : Prop where
  aligned :
    ∀ {first second firstIndex secondIndex pointer},
      memory.pointer? first firstIndex = some pointer →
      memory.pointer? second secondIndex = some pointer →
      firstIndex = secondIndex
  allocated :
    ∀ {array index pointer},
      memory.pointer? array index = some pointer →
      pointer < memory.pointed.next

/-- The value behind an old pointer changes only if it is the one assigned to. -/
theorem read_assignPointed
    (pointed : SharedCells (Option Pointed))
    (pointer : Option Nat)
    (given : Option (Option Pointed))
    {other : Nat}
    (old : other < pointed.next) :
    (assignPointed pointed pointer given).1.read other =
      if pointer = some other then
        (given.bind id).or (pointed.read other)
      else
        pointed.read other := by
  rcases given with _ | _ | written
  · simp [assignPointed]
  · simp [assignPointed]
  · cases pointer with
    | none =>
        simp [assignPointed, SharedCells.read_alloc, Nat.ne_of_lt old]
    | some existing =>
        simp [assignPointed, SharedCells.read_write, eq_comm]

/-- The value that an element points to after an assignment. -/
theorem pointed_assignPointed
    (pointed : SharedCells (Option Pointed))
    (pointer : Option Nat)
    (given : Option (Option Pointed)) :
    (assignPointed pointed pointer given).2.bind
        (assignPointed pointed pointer given).1.read =
      given.getD (pointer.bind pointed.read) := by
  rcases given with _ | _ | written
  · rfl
  · rfl
  · cases pointer with
    | none => simp [assignPointed]
    | some existing => simp [assignPointed, SharedCells.read_write]

/-- An assignment keeps the pointer, takes it away or makes a new one. -/
theorem pointer_assignPointed
    {pointed : SharedCells (Option Pointed)}
    {pointer : Option Nat}
    {given : Option (Option Pointed)}
    {after : Nat}
    (assigned : (assignPointed pointed pointer given).2 = some after) :
    pointer = some after ∨
      after = pointed.next ∧
        (assignPointed pointed pointer given).1.next = pointed.next + 1 := by
  rcases given with _ | _ | written
  · exact .inl assigned
  · cases assigned
  · cases pointer with
    | none =>
        refine .inr ⟨?_, rfl⟩
        exact (Option.some.inj assigned).symm
    | some existing => exact .inl assigned

theorem next_le_assignPointed
    (pointed : SharedCells (Option Pointed))
    (pointer : Option Nat)
    (given : Option (Option Pointed)) :
    pointed.next ≤ (assignPointed pointed pointer given).1.next := by
  rcases given with _ | _ | written
  · exact Nat.le_refl _
  · exact Nat.le_refl _
  · cases pointer with
    | none => exact Nat.le_succ _
    | some existing => exact Nat.le_refl _

section AssignElement

variable {memory : SliceMemory Plain Pointed}
variable {array index : Nat}
variable {element : Stored Plain}
variable {change : ElementChange Plain Pointed}

/-- An assignment replaces one element of one array. -/
theorem element?_assignElement
    (present : memory.element? array index = some element)
    (other otherIndex : Nat) :
    (memory.assignElement array index element change).element? other
        otherIndex =
      if other = array ∧ otherIndex = index then
        some
          { plain := change.plain element.plain
            pointer :=
              (assignPointed memory.pointed element.pointer
                change.pointed).2 }
      else
        memory.element? other otherIndex := by
  have inside : index < (memory.arrays.read array).length := by
    by_contra outside
    rw [element?_eq_none_iff.mpr (Nat.le_of_not_lt outside)] at present
    cases present
  simp only [element?, assignElement, SharedCells.read_write]
  by_cases sameArray : other = array
  · subst sameArray
    rw [if_pos rfl, List.getElem?_set]
    by_cases sameIndex : index = otherIndex
    · subst sameIndex
      simp [inside]
    · simp [sameIndex, Ne.symm sameIndex]
  · simp [sameArray]

theorem room_assignElement (other : Nat) :
    (memory.assignElement array index element change).room other =
      memory.room other := by
  simp only [room, assignElement, SharedCells.read_write]
  split
  · rename_i same
    rw [same, List.length_set]
  · rfl

/-- An element elsewhere keeps its pointer. -/
theorem pointer?_assignElement_of_ne
    (present : memory.element? array index = some element)
    {other otherIndex : Nat}
    (different : ¬ (other = array ∧ otherIndex = index)) :
    (memory.assignElement array index element change).pointer? other
        otherIndex =
      memory.pointer? other otherIndex := by
  rw [pointer?, element?_assignElement present, if_neg different, pointer?]

/-- The value of the element that is assigned to. -/
theorem value?_assignElement_self
    (present : memory.element? array index = some element) :
    (memory.assignElement array index element change).value? array index =
      (memory.value? array index).map change.apply := by
  rw [value?, value?, element?_assignElement present, if_pos ⟨rfl, rfl⟩,
    present]
  simp only [Option.map_some, value, assignElement, pointed_assignPointed,
    ElementChange.apply]

/-- Other elements change if they have the pointer that is written through. -/
theorem value?_assignElement_of_ne
    (sound : memory.Sound)
    (present : memory.element? array index = some element)
    {other otherIndex : Nat}
    (different : ¬ (other = array ∧ otherIndex = index)) :
    (memory.assignElement array index element change).value? other otherIndex =
      if element.pointer.isSome ∧
          memory.pointer? other otherIndex = element.pointer then
        (memory.value? other otherIndex).map change.through
      else
        memory.value? other otherIndex := by
  rw [value?, element?_assignElement present, if_neg different]
  cases found : memory.element? other otherIndex with
  | none => simp [value?, found]
  | some otherElement =>
      have pointers :
          memory.pointer? other otherIndex = otherElement.pointer := by
        rw [pointer?, found]
        rfl
      simp only [value?, found, Option.map_some, value, pointers]
      cases held : otherElement.pointer with
      | none =>
          cases element.pointer <;> simp
      | some pointer =>
          have old : pointer < memory.pointed.next :=
            sound.allocated (pointers.trans held)
          simp only [Option.bind_some, assignElement,
            read_assignPointed _ _ _ old]
          by_cases same : element.pointer = some pointer
          · simp only [same, if_true, Option.isSome_some, and_self,
              ElementChange.through]
            rcases change.pointed with _ | _ | written <;> rfl
          · simp [same, Ne.symm same]

/-- An assignment at one index leaves the other indices alone. -/
theorem value?_assignElement_of_index_ne
    (sound : memory.Sound)
    (present : memory.element? array index = some element)
    {otherIndex : Nat}
    (different : otherIndex ≠ index)
    (other : Nat) :
    (memory.assignElement array index element change).value? other otherIndex =
      memory.value? other otherIndex := by
  rw [value?_assignElement_of_ne sound present (by simp [different]), if_neg]
  rintro ⟨isSome, same⟩
  obtain ⟨pointer, held⟩ := Option.isSome_iff_exists.mp isSome
  have here : memory.pointer? array index = some pointer := by
    rw [pointer?, present]
    exact held
  exact different (sound.aligned (same.trans held) here)

/-- The pointers after an assignment are the ones before, and a new one. -/
theorem pointer?_of_assignElement
    (present : memory.element? array index = some element)
    {other otherIndex pointer : Nat}
    (held :
      (memory.assignElement array index element change).pointer? other
        otherIndex = some pointer) :
    memory.pointer? other otherIndex = some pointer ∨
      otherIndex = index ∧ pointer = memory.pointed.next ∧
        (memory.assignElement array index element change).pointed.next =
          memory.pointed.next + 1 := by
  by_cases same : other = array ∧ otherIndex = index
  · rw [pointer?, element?_assignElement present, if_pos same] at held
    obtain ⟨rfl, rfl⟩ := same
    rcases pointer_assignPointed held with kept | ⟨new, next⟩
    · refine .inl ?_
      rw [pointer?, present]
      exact kept
    · exact .inr ⟨rfl, new, next⟩
  · rw [pointer?_assignElement_of_ne present same] at held
    exact .inl held

/-- An assignment keeps pointers aligned. -/
theorem Sound.assignElement
    (sound : memory.Sound)
    (present : memory.element? array index = some element) :
    (memory.assignElement array index element change).Sound where
  aligned := by
    intro first second firstIndex secondIndex pointer firstHeld secondHeld
    rcases pointer?_of_assignElement present firstHeld with
      firstOld | ⟨rfl, new, _⟩
    · rcases pointer?_of_assignElement present secondHeld with
        secondOld | ⟨_, new, _⟩
      · exact sound.aligned firstOld secondOld
      · exact absurd (sound.allocated firstOld) (by omega)
    · rcases pointer?_of_assignElement present secondHeld with
        secondOld | ⟨sameIndex, _, _⟩
      · exact absurd (sound.allocated secondOld) (by omega)
      · exact sameIndex.symm
  allocated := by
    intro other otherIndex pointer held
    have grown :=
      next_le_assignPointed memory.pointed element.pointer change.pointed
    rcases pointer?_of_assignElement present held with old | ⟨_, new, next⟩
    · exact Nat.lt_of_lt_of_le (sound.allocated old) grown
    · omega

end AssignElement

/-!
## New arrays
-/

section AllocArray

variable {memory : SliceMemory Plain Pointed}
variable {elements : List (Stored Plain)}

theorem element?_allocArray_self
    (memory : SliceMemory Plain Pointed)
    (elements : List (Stored Plain))
    (index : Nat) :
    (memory.allocArray elements).1.element? (memory.allocArray elements).2
      index = elements[index]? := by
  simp only [element?, allocArray, SharedCells.read_alloc_self]

/-- Old arrays are as they were. -/
theorem read_allocArray_of_ne
    {other : Nat}
    (different : other ≠ memory.arrays.next) :
    (memory.allocArray elements).1.arrays.read other =
      memory.arrays.read other := by
  simp only [allocArray, SharedCells.read_alloc, if_neg different]

/-- A new array of elements that stand at these indices elsewhere. -/
theorem Sound.allocArray
    (sound : memory.Sound)
    (copied :
      ∀ index pointer,
        elements[index]?.bind Stored.pointer = some pointer →
        ∃ array, memory.pointer? array index = some pointer) :
    (memory.allocArray elements).1.Sound := by
  have origin :
      ∀ {array index pointer},
        (memory.allocArray elements).1.pointer? array index = some pointer →
        ∃ other, memory.pointer? other index = some pointer := by
    intro array index pointer held
    by_cases new : array = memory.arrays.next
    · subst new
      have inNew := memory.element?_allocArray_self elements index
      rw [pointer?] at held
      exact copied index pointer (inNew ▸ held)
    · rw [pointer?, element?, read_allocArray_of_ne new] at held
      exact ⟨array, held⟩
  constructor
  · intro first second firstIndex secondIndex pointer firstHeld secondHeld
    obtain ⟨_, firstOld⟩ := origin firstHeld
    obtain ⟨_, secondOld⟩ := origin secondHeld
    exact sound.aligned firstOld secondOld
  · intro array index pointer held
    obtain ⟨_, old⟩ := origin held
    exact sound.allocated old

end AllocArray

/-- What a larger copy of an array has to offer. -/
structure Roomy
    (blank : Plain)
    (before : SliceMemory Plain Pointed)
    (array index : Nat)
    (after : SliceMemory Plain Pointed)
    (roomy : Nat) : Prop where
  sound : after.Sound
  allocated : roomy < after.arrays.next
  grows : before.arrays.next ≤ after.arrays.next
  hasRoom : index < after.room roomy
  old :
    ∀ {other},
      other < before.arrays.next →
      after.arrays.read other = before.arrays.read other
  pointed : after.pointed = before.pointed
  copied :
    ∀ otherIndex,
      after.element? roomy otherIndex =
        (before.element? array otherIndex).or
          (if otherIndex < after.room roomy then
            some { plain := blank, pointer := none }
          else
            none)
  place :
    roomy = array ∧ index < before.room array ∨
      before.arrays.next ≤ roomy ∧ before.room array ≤ index

/-- There is room for the index after the last one. -/
theorem roomy_makeRoom
    {blank : Plain}
    {memory : SliceMemory Plain Pointed}
    {array index : Nat}
    (sound : memory.Sound)
    (allocated : array < memory.arrays.next)
    (reached : index ≤ memory.room array) :
    Roomy blank memory array index (memory.makeRoom blank array index).1
      (memory.makeRoom blank array index).2 := by
  unfold makeRoom
  split
  · rename_i hasRoom
    refine ⟨sound, allocated, Nat.le_refl _, hasRoom, fun _ => rfl, rfl, ?_,
      .inl ⟨rfl, hasRoom⟩⟩
    intro otherIndex
    cases found : memory.element? array otherIndex with
    | some element => rfl
    | none =>
        have outside := element?_eq_none_iff.mp found
        rw [if_neg (Nat.not_lt.mpr outside)]
        rfl
  · rename_i full
    have atEnd : index = memory.room array :=
      Nat.le_antisymm reached (Nat.le_of_not_lt full)
    have grows := memory.growth.grows (memory.room array)
    set added :=
      memory.growth.capacity (memory.room array) - memory.room array with hadded
    set elements :=
      memory.arrays.read array ++
        List.replicate added { plain := blank, pointer := none } with helements
    have size :
        (memory.allocArray elements).1.room (memory.allocArray elements).2 =
          memory.room array + added := by
      simp [room, allocArray, helements]
    have lookup :
        ∀ otherIndex,
          elements[otherIndex]? =
            (memory.element? array otherIndex).or
              (if otherIndex < memory.room array + added then
                some { plain := blank, pointer := none }
              else
                none) := by
      intro otherIndex
      rw [helements, List.getElem?_append, List.getElem?_replicate]
      cases found : memory.element? array otherIndex with
      | some element =>
          have inside : otherIndex < (memory.arrays.read array).length := by
            by_contra outside
            rw [element?_eq_none_iff.mpr (Nat.le_of_not_lt outside)] at found
            cases found
          rw [if_pos inside]
          exact found
      | none =>
          have outside : (memory.arrays.read array).length ≤ otherIndex :=
            element?_eq_none_iff.mp found
          rw [if_neg (Nat.not_lt.mpr outside), Option.none_or]
          have same :
              otherIndex - (memory.arrays.read array).length < added ↔
                otherIndex < memory.room array + added := by
            simp only [room]
            omega
          simp only [same]
    refine ⟨?_, Nat.lt_succ_self _, Nat.le_succ _, ?_, ?_, rfl, ?_,
      .inr ⟨Nat.le_refl _, Nat.le_of_eq atEnd.symm⟩⟩
    · apply sound.allocArray
      intro otherIndex pointer held
      refine ⟨array, ?_⟩
      rw [lookup] at held
      rw [pointer?]
      cases found : memory.element? array otherIndex with
      | some element => simpa [found] using held
      | none =>
          rw [found, Option.none_or] at held
          split at held <;> cases held
    · rw [size]
      omega
    · intro other old
      exact read_allocArray_of_ne (Nat.ne_of_lt old)
    · intro otherIndex
      rw [element?_allocArray_self, lookup, size]

namespace Roomy

variable {blank : Plain}
variable {before after : SliceMemory Plain Pointed}
variable {array index roomy : Nat}

/-- The values of the larger copy. -/
theorem value?_roomy
    (room : Roomy blank before array index after roomy)
    (otherIndex : Nat) :
    after.value? roomy otherIndex =
      (before.value? array otherIndex).or
        (if otherIndex < after.room roomy then some (blank, none) else none) := by
  rw [value?, room.copied otherIndex, value?]
  cases before.element? array otherIndex with
  | some element => simp [value, room.pointed]
  | none =>
      simp only [Option.none_or, Option.map_none]
      split <;> rfl

/-- The values of old arrays. -/
theorem value?_old
    (room : Roomy blank before array index after roomy)
    {other : Nat}
    (old : other < before.arrays.next)
    (otherIndex : Nat) :
    after.value? other otherIndex = before.value? other otherIndex := by
  simp only [value?, element?, room.old old]
  cases (before.arrays.read other)[otherIndex]? with
  | none => rfl
  | some element => simp [value, room.pointed]

end Roomy

/-!
## One element after the other
-/

/-- The assignment that a loop from an index on makes at an index. -/
def changeAt
    (index : Nat)
    (changes : List (ElementChange Plain Pointed))
    (otherIndex : Nat) :
    Option (ElementChange Plain Pointed) :=
  if otherIndex < index then none else changes[otherIndex - index]?

/--
The effect of an assignment to an array on what another slice has at the same
index: everything if they share the array, and what is written through a
pointer that they share.
-/
def effectAt
    (memory : SliceMemory Plain Pointed)
    (array : Nat)
    (change : Option (ElementChange Plain Pointed))
    (other index : Nat)
    (value : Plain × Option Pointed) :
    Plain × Option Pointed :=
  match change with
  | none => value
  | some change =>
      if memory.room array ≤ index then
        value
      else if other = array then
        change.apply value
      else if (memory.pointer? array index).isSome ∧
          memory.pointer? other index = memory.pointer? array index then
        change.through value
      else
        value

/-- What assignments from an index on lead to. -/
structure Assigned
    (blank : Plain)
    (before : SliceMemory Plain Pointed)
    (array index : Nat)
    (changes : List (ElementChange Plain Pointed))
    (after : SliceMemory Plain Pointed)
    (roomy : Nat) : Prop where
  sound : after.Sound
  allocated : roomy < after.arrays.next
  grows : before.arrays.next ≤ after.arrays.next
  old :
    ∀ {other},
      other < before.arrays.next →
      ∀ otherIndex,
        after.value? other otherIndex =
          (before.value? other otherIndex).map
            (before.effectAt array (changeAt index changes otherIndex) other
              otherIndex)
  earlier :
    ∀ {otherIndex},
      otherIndex < index →
      after.value? roomy otherIndex = before.value? array otherIndex
  new :
    ∀ {otherIndex change},
      changeAt index changes otherIndex = some change →
      after.value? roomy otherIndex =
        some (change.apply
          ((before.value? array otherIndex).getD (blank, none)))

theorem changeAt_self
    (index : Nat)
    (change : ElementChange Plain Pointed)
    (rest : List (ElementChange Plain Pointed)) :
    changeAt index (change :: rest) index = some change := by
  simp [changeAt]

theorem changeAt_of_lt
    {index otherIndex : Nat}
    (changes : List (ElementChange Plain Pointed))
    (earlier : otherIndex < index) :
    changeAt index changes otherIndex = none :=
  if_pos earlier

theorem changeAt_cons_of_ne
    {index otherIndex : Nat}
    (change : ElementChange Plain Pointed)
    (rest : List (ElementChange Plain Pointed))
    (different : otherIndex ≠ index) :
    changeAt index (change :: rest) otherIndex =
      changeAt (index + 1) rest otherIndex := by
  unfold changeAt
  by_cases earlier : otherIndex < index
  · rw [if_pos earlier, if_pos (by omega)]
  · rw [if_neg earlier, if_neg (by omega)]
    obtain ⟨distance, later⟩ : ∃ distance, otherIndex - index = distance + 1 :=
      ⟨otherIndex - index - 1, by omega⟩
    rw [later, List.getElem?_cons_succ]
    congr 1
    omega

@[simp] theorem effectAt_none
    (memory : SliceMemory Plain Pointed)
    (array other index : Nat) :
    memory.effectAt array none other index = id :=
  rfl

theorem effectAt_of_full
    {memory : SliceMemory Plain Pointed}
    {array other index : Nat}
    {change : Option (ElementChange Plain Pointed)}
    (full : memory.room array ≤ index) :
    memory.effectAt array change other index = id := by
  funext value
  cases change with
  | none => rfl
  | some change => simp [effectAt, full]

theorem effectAt_of_unshared
    {memory : SliceMemory Plain Pointed}
    {array other index : Nat}
    {change : Option (ElementChange Plain Pointed)}
    (different : other ≠ array)
    (noPointer : memory.pointer? array index = none) :
    memory.effectAt array change other index = id := by
  funext value
  cases change with
  | none => rfl
  | some change => simp [effectAt, different, noPointer]

/-- The effect of an assignment depends on room and pointers at its index. -/
theorem effectAt_congr
    {before after : SliceMemory Plain Pointed}
    {array other index : Nat}
    {change : Option (ElementChange Plain Pointed)}
    (room : after.room array = before.room array)
    (pointer : after.pointer? array index = before.pointer? array index)
    (otherPointer : after.pointer? other index = before.pointer? other index) :
    after.effectAt array change other index =
      before.effectAt array change other index := by
  funext value
  cases change with
  | none => rfl
  | some change => simp only [effectAt, room, pointer, otherPointer]

/-- The element that is assigned to next changes other slices as told. -/
theorem value?_assignElement
    {memory : SliceMemory Plain Pointed}
    {array index : Nat}
    {element : Stored Plain}
    {change : ElementChange Plain Pointed}
    (sound : memory.Sound)
    (present : memory.element? array index = some element)
    (other : Nat) :
    (memory.assignElement array index element change).value? other index =
      (memory.value? other index).map
        (memory.effectAt array (some change) other index) := by
  have inside : ¬ memory.room array ≤ index := by
    rw [← element?_eq_none_iff, present]
    rintro ⟨⟩
  have pointer : memory.pointer? array index = element.pointer := by
    rw [pointer?, present]
    rfl
  by_cases same : other = array
  · subst same
    rw [value?_assignElement_self present]
    congr 1
    funext value
    simp [effectAt, inside]
  · rw [value?_assignElement_of_ne sound present (by simp [same]), ← pointer]
    split
    · rename_i shared
      congr 1
      funext value
      simp [effectAt, inside, same, shared]
    · rename_i unshared
      cases memory.value? other index with
      | none => rfl
      | some value => simp [effectAt, inside, same, unshared]

/-- Assignments to the larger copy have the effect of those to the array. -/
theorem Roomy.effectAt_old
    {blank : Plain}
    {before after : SliceMemory Plain Pointed}
    {array index roomy : Nat}
    (room : Roomy blank before array index after roomy)
    (allocated : array < before.arrays.next)
    {other otherIndex : Nat}
    (old : other < before.arrays.next)
    (notEarlier : index ≤ otherIndex)
    (change : Option (ElementChange Plain Pointed)) :
    after.effectAt roomy change other otherIndex =
      before.effectAt array change other otherIndex := by
  rcases room.place with ⟨rfl, _⟩ | ⟨isNew, full⟩
  · apply effectAt_congr
    · rw [SliceMemory.room, room.old allocated, SliceMemory.room]
    · rw [pointer?, element?, room.old allocated, pointer?, element?]
    · rw [pointer?, element?, room.old old, pointer?, element?]
  · have outside : before.room array ≤ otherIndex :=
      Nat.le_trans full notEarlier
    have noPointer : after.pointer? roomy otherIndex = none := by
      rw [pointer?, room.copied, element?_eq_none_iff.mpr outside,
        Option.none_or]
      split <;> rfl
    rw [effectAt_of_unshared (Nat.ne_of_lt (Nat.lt_of_lt_of_le old isNew))
      noPointer, effectAt_of_full outside]

/-- One more element in front of a loop. -/
theorem Assigned.cons
    {blank : Plain}
    {before middle after : SliceMemory Plain Pointed}
    {array index roomy last : Nat}
    {element : Stored Plain}
    {change : ElementChange Plain Pointed}
    {rest : List (ElementChange Plain Pointed)}
    (room : Roomy blank before array index middle roomy)
    (allocated : array < before.arrays.next)
    (reached : index ≤ before.room array)
    (present : middle.element? roomy index = some element)
    (later :
      Assigned blank (middle.assignElement roomy index element change) roomy
        (index + 1) rest after last) :
    Assigned blank before array index (change :: rest) after last where
  sound := later.sound
  allocated := later.allocated
  grows := Nat.le_trans room.grows later.grows
  old := by
    intro other old otherIndex
    rw [later.old (Nat.lt_of_lt_of_le old room.grows) otherIndex]
    by_cases here : otherIndex = index
    · subst here
      rw [changeAt_of_lt _ (Nat.lt_succ_self _), effectAt_none,
        Option.map_id, id_eq, value?_assignElement room.sound present,
        room.value?_old old, changeAt_self,
        room.effectAt_old allocated old (Nat.le_refl _)]
    · rw [value?_assignElement_of_index_ne room.sound present here,
        room.value?_old old, changeAt_cons_of_ne _ _ here]
      congr 1
      by_cases earlier : otherIndex < index + 1
      · rw [changeAt_of_lt _ earlier, effectAt_none, effectAt_none]
      · rw [← room.effectAt_old allocated old (by omega)]
        apply effectAt_congr
        · exact room_assignElement roomy
        · exact pointer?_assignElement_of_ne present (by simp [here])
        · exact pointer?_assignElement_of_ne present (by simp [here])
  earlier := by
    intro otherIndex earlier
    have different : otherIndex ≠ index := Nat.ne_of_lt earlier
    rw [later.earlier (Nat.lt_succ_of_lt earlier),
      value?_assignElement_of_index_ne room.sound present different,
      room.value?_roomy]
    cases found : before.element? array otherIndex with
    | none =>
        have outside := element?_eq_none_iff.mp found
        omega
    | some element => simp [value?, found]
  new := by
    intro otherIndex assigned given
    by_cases here : otherIndex = index
    · subst here
      rw [changeAt_self] at given
      cases given
      rw [later.earlier (Nat.lt_succ_self _),
        value?_assignElement_self present, room.value?_roomy,
        if_pos room.hasRoom]
      cases before.value? array otherIndex <;> rfl
    · rw [changeAt_cons_of_ne _ _ here] at given
      rw [later.new given,
        value?_assignElement_of_index_ne room.sound present here,
        room.value?_roomy]
      cases before.value? array otherIndex with
      | some value => rfl
      | none =>
          simp only [Option.none_or]
          split <;> rfl

/-- Assignments from an index on lead to what they should. -/
theorem assigned_assignFrom
    {blank : Plain}
    {memory : SliceMemory Plain Pointed}
    {array index : Nat}
    (changes : List (ElementChange Plain Pointed))
    (sound : memory.Sound)
    (allocated : array < memory.arrays.next)
    (reached : index ≤ memory.room array) :
    Assigned blank memory array index changes
      (assignFrom blank index changes (memory, array)).1
      (assignFrom blank index changes (memory, array)).2 := by
  induction changes generalizing memory array index with
  | nil =>
      have noChange : ∀ otherIndex,
          changeAt index ([] : List (ElementChange Plain Pointed))
            otherIndex = none := by
        intro otherIndex
        simp [changeAt]
      refine ⟨sound, allocated, Nat.le_refl _, ?_, fun _ => rfl, ?_⟩
      · intro other old otherIndex
        rw [noChange, effectAt_none, Option.map_id]
        rfl
      · intro otherIndex change given
        rw [noChange] at given
        cases given
  | cons change rest inductionHypothesis =>
      have room : Roomy blank memory array index _ _ :=
        roomy_makeRoom sound allocated reached
      simp only [assignFrom]
      generalize memory.makeRoom blank array index = made at room
      obtain ⟨middle, roomy⟩ := made
      simp only at room ⊢
      cases present : middle.element? roomy index with
      | none =>
          have outside := element?_eq_none_iff.mp present
          exact absurd room.hasRoom (Nat.not_lt.mpr outside)
      | some element =>
          apply Assigned.cons room allocated reached present
          apply inductionHypothesis (room.sound.assignElement present)
          · exact room.allocated
          · rw [room_assignElement]
            exact room.hasRoom

/-!
## A field that holds a slice
-/

/-- The values in the array of a field, none if it holds no slice. -/
def backing? (memory : SliceMemory Plain Pointed) (field : Option Slice) :
    List (Plain × Option Pointed) :=
  field.elim [] memory.backing

/-- The arrays of a field are allocated. -/
def Holds (memory : SliceMemory Plain Pointed) (field : Option Slice) : Prop :=
  ∀ slice, field = some slice → slice.array < memory.arrays.next

/-- What an assignment to a field changes elsewhere. -/
def effectOf
    (memory : SliceMemory Plain Pointed)
    (field : Option Slice)
    (given : Option (Option (List (ElementChange Plain Pointed))))
    (other index : Nat) :
    Plain × Option Pointed → Plain × Option Pointed :=
  match field, given with
  | some slice, some (some changes) =>
      memory.effectAt slice.array changes[index]? other index
  | _, _ => id

/-- What an assignment to a field leads to. -/
structure FieldAssigned
    (blank : Plain)
    (before : SliceMemory Plain Pointed)
    (field : Option Slice)
    (given : Option (Option (List (ElementChange Plain Pointed))))
    (after : SliceMemory Plain Pointed)
    (assigned : Option Slice) : Prop where
  sound : after.Sound
  holds : after.Holds assigned
  grows : before.arrays.next ≤ after.arrays.next
  old :
    ∀ {other},
      other < before.arrays.next →
      ∀ index,
        after.value? other index =
          (before.value? other index).map
            (before.effectOf field given other index)
  contents :
    assigned.map after.contents =
      overSlice ElementChange.apply (blank, none) given
        (field.map before.contents) (before.backing? field)

/-- A new array that is empty. -/
theorem Sound.allocEmpty
    {memory : SliceMemory Plain Pointed}
    (sound : memory.Sound) :
    (memory.allocArray []).1.Sound := by
  apply sound.allocArray
  intro index pointer held
  cases held

/-- Old arrays keep their values when a new one is made. -/
theorem value?_allocArray
    {memory : SliceMemory Plain Pointed}
    {elements : List (Stored Plain)}
    {other : Nat}
    (old : other < memory.arrays.next)
    (index : Nat) :
    (memory.allocArray elements).1.value? other index =
      memory.value? other index := by
  rw [value?, element?, read_allocArray_of_ne (Nat.ne_of_lt old)]
  rfl

/-- The contents of a slice that a loop has assigned to. -/
theorem Assigned.contents
    {blank : Plain}
    {before after : SliceMemory Plain Pointed}
    {array roomy : Nat}
    {changes : List (ElementChange Plain Pointed)}
    (assigned : Assigned blank before array 0 changes after roomy)
    {values : List (Plain × Option Pointed)}
    (backing : ∀ index, values[index]? = before.value? array index) :
    after.contents { array := roomy, length := changes.length } =
      overElements ElementChange.apply (blank, none) changes values := by
  apply List.ext_getElem?
  intro index
  rw [getElem?_contents, getElem?_overElements]
  simp only
  cases given : changes[index]? with
  | none =>
      rw [if_neg (Nat.not_lt.mpr (List.getElem?_eq_none_iff.mp given))]
      rfl
  | some change =>
      rw [if_pos (List.getElem?_eq_some_iff.mp given).1,
        assigned.new given, backing index]
      rfl

/-- Assignments to the elements of a field. -/
theorem fieldAssigned_elements
    {blank : Plain}
    {memory : SliceMemory Plain Pointed}
    {field : Option Slice}
    (sound : memory.Sound)
    (holds : memory.Holds field)
    (change : ElementChange Plain Pointed)
    (rest : List (ElementChange Plain Pointed)) :
    FieldAssigned blank memory field (some (some (change :: rest)))
      (memory.assignSlice blank field (some (some (change :: rest)))).1
      (memory.assignSlice blank field (some (some (change :: rest)))).2 := by
  cases field with
  | some slice =>
      have assigned : Assigned blank memory slice.array 0 _ _ _ :=
        assigned_assignFrom (change :: rest) sound (holds slice rfl)
          (Nat.zero_le _)
      refine ⟨assigned.sound, ?_, assigned.grows, ?_, ?_⟩
      · intro after held
        cases held
        exact assigned.allocated
      · intro other old index
        exact assigned.old old index
      · refine congrArg some (assigned.contents ?_)
        intro index
        simp [backing?, backing, value?, element?]
  | none =>
      have grown : memory.arrays.next < (memory.allocArray []).1.arrays.next :=
        Nat.lt_succ_self _
      have assigned : Assigned blank _ memory.arrays.next 0 _ _ _ :=
        assigned_assignFrom (change :: rest) sound.allocEmpty grown
          (Nat.zero_le _)
      have empty :
          ∀ index,
            (memory.allocArray []).1.element? memory.arrays.next index =
              none := by
        intro index
        exact memory.element?_allocArray_self [] index
      refine ⟨assigned.sound, ?_, Nat.le_trans (Nat.le_succ _) assigned.grows,
        ?_, ?_⟩
      · intro after held
        cases held
        exact assigned.allocated
      · intro other old index
        have full :
            (memory.allocArray []).1.room memory.arrays.next ≤ index :=
          element?_eq_none_iff.mp (empty index)
        refine (assigned.old (Nat.lt_succ_of_lt old) index).trans ?_
        rw [effectAt_of_full full, value?_allocArray old]
        rfl
      · refine congrArg some (assigned.contents ?_)
        intro index
        rw [value?, empty index]
        rfl

/-- Every assignment to a field. -/
theorem fieldAssigned_assignSlice
    {blank : Plain}
    {memory : SliceMemory Plain Pointed}
    {field : Option Slice}
    (sound : memory.Sound)
    (holds : memory.Holds field)
    (given : Option (Option (List (ElementChange Plain Pointed)))) :
    FieldAssigned blank memory field given
      (memory.assignSlice blank field given).1
      (memory.assignSlice blank field given).2 := by
  have unchanged :
      ∀ (effect : Plain × Option Pointed → Plain × Option Pointed),
        effect = id →
        ∀ value : Option (Plain × Option Pointed), value = value.map effect := by
    rintro effect rfl value
    rw [Option.map_id, id_eq]
  rcases given with _ | _ | _ | ⟨change, rest⟩
  · refine ⟨sound, holds, Nat.le_refl _, ?_, rfl⟩
    intro other _ index
    exact unchanged _ (by cases field <;> rfl) _
  · refine ⟨sound, by rintro _ ⟨⟩, Nat.le_refl _, ?_, rfl⟩
    intro other _ index
    exact unchanged _ (by cases field <;> rfl) _
  · refine ⟨sound.allocEmpty, ?_, Nat.le_succ _, ?_, ?_⟩
    · intro slice held
      cases held
      exact Nat.lt_succ_self _
    · intro other old index
      exact (value?_allocArray old index).trans
        (unchanged _ (by cases field <;> rfl) _)
    · simp [assignSlice, overSlice, overElements, contents]
  · exact fieldAssigned_elements sound holds change rest

/--
Nothing that an assignment changes is seen through another slice: neither in
an array that they share, nor through a pointer that they share.
-/
def KeepsSlice
    (memory : SliceMemory Plain Pointed)
    (field : Option Slice)
    (given : Option (Option (List (ElementChange Plain Pointed))))
    (other : Slice) : Prop :=
  ∀ slice changes index change value,
    field = some slice →
    given = some (some changes) →
    changes[index]? = some change →
    index < other.length →
    index < memory.room slice.array →
    memory.value? other.array index = some value →
    (other.array = slice.array → change.apply value = value) ∧
      ∀ pointer written,
        memory.pointer? slice.array index = some pointer →
        memory.pointer? other.array index = some pointer →
        change.pointed = some (some written) →
        value.2 = some written

/-- The effect of an assignment leaves a value alone. -/
theorem effectAt_eq_self_iff
    {memory : SliceMemory Plain Pointed}
    {array other index : Nat}
    {change : ElementChange Plain Pointed}
    {value : Plain × Option Pointed}
    (inside : index < memory.room array) :
    memory.effectAt array (some change) other index value = value ↔
      (other = array → change.apply value = value) ∧
        ∀ pointer written,
          memory.pointer? array index = some pointer →
          memory.pointer? other index = some pointer →
          change.pointed = some (some written) →
          value.2 = some written := by
  simp only [effectAt, if_neg (Nat.not_le.mpr inside)]
  by_cases same : other = array
  · subst same
    simp only [if_true, forall_const, iff_self_and]
    intro kept pointer written _ _ given
    rw [← kept, ElementChange.apply, given, Option.getD_some]
  · simp only [same, if_false, IsEmpty.forall_iff, true_and]
    split
    · rename_i shared
      obtain ⟨isSome, samePointer⟩ := shared
      obtain ⟨pointer, held⟩ := Option.isSome_iff_exists.mp isSome
      obtain ⟨plain, pointed⟩ := value
      rw [samePointer, held]
      rcases written : change.pointed with _ | _ | written
      · simp [ElementChange.through, written]
      · simp [ElementChange.through, written]
      · simp [ElementChange.through, written, eq_comm]
    · rename_i unshared
      simp only [true_iff]
      intro pointer written held otherHeld _
      rw [held, otherHeld] at unshared
      simp at unshared

/-- An assignment keeps another slice exactly if it has this property. -/
theorem FieldAssigned.contents_eq_iff
    {blank : Plain}
    {before after : SliceMemory Plain Pointed}
    {field assigned : Option Slice}
    {given : Option (Option (List (ElementChange Plain Pointed)))}
    (result : FieldAssigned blank before field given after assigned)
    {other : Slice}
    (old : other.array < before.arrays.next) :
    after.contents other = before.contents other ↔
      before.KeepsSlice field given other := by
  rw [List.ext_getElem?_iff]
  simp only [getElem?_contents, result.old old]
  constructor
  · intro same slice changes index change value held mentioned listed visible
      inside found
    subst held mentioned
    have atIndex := same index
    rw [if_pos visible, if_pos visible, found, Option.map_some] at atIndex
    rw [effectOf, listed] at atIndex
    exact (effectAt_eq_self_iff inside).mp (Option.some.inj atIndex)
  · intro keeps index
    by_cases visible : index < other.length
    · rw [if_pos visible, if_pos visible]
      cases found : before.value? other.array index with
      | none => rfl
      | some value =>
          rw [Option.map_some]
          refine congrArg some ?_
          unfold effectOf
          split
          · rename_i slice changes
            cases listed : changes[index]? with
            | none => rfl
            | some change =>
                by_cases inside : index < before.room slice.array
                · exact (effectAt_eq_self_iff inside).mpr
                    (keeps slice changes index change value rfl rfl listed visible
                      inside found)
                · rw [effectAt_of_full (Nat.le_of_not_lt inside), id_eq]
          · rfl
    · rw [if_neg visible, if_neg visible]

end SliceMemory
