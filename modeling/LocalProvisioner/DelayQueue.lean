import Mathlib.Logic.Function.Basic
import Mathlib.Order.MinMax

/-!
# Delayed work queues

Items wait until a ready time and then queue up to be handed out.  An item
that is added while it waits keeps the earlier of its two ready times, and an
item that is added while it is queued up is not queued up again.

A promise is a property of an item and a ready time.  `Promised` says that the
promise of every timer is kept: of those that run, and of those that have run
out for the items that queue up.  `Holds` says that an item has not been lost.
-/

/-- The ready times of the waiting items, and the items that queue up. -/
structure DelayQueue (Item : Type) where
  waiting : Item → Option Nat
  ready : List Item

namespace DelayQueue

variable {Item : Type}

/-- The queue without items. -/
def empty : DelayQueue Item where
  waiting := fun _ => none
  ready := []

section Operations

variable [DecidableEq Item]

/-- Queue an item up. -/
def add (queue : DelayQueue Item) (item : Item) : DelayQueue Item :=
  if item ∈ queue.ready then
    queue
  else
    { queue with ready := queue.ready ++ [item] }

/-- Let an item wait; without a delay it queues up at once. -/
def addAfter (queue : DelayQueue Item) (now delay : Nat) (item : Item) :
    DelayQueue Item :=
  if delay = 0 then
    queue.add item
  else
    { queue with
      waiting := Function.update queue.waiting item
        (some ((queue.waiting item).elim (now + delay) (min (now + delay)))) }

/-- The timer of an item has run out, and the item queues up. -/
def ripen (queue : DelayQueue Item) (now : Nat) (item : Item) :
    Option (DelayQueue Item) :=
  match queue.waiting item with
  | none => none
  | some readyAt =>
      if readyAt ≤ now then
        some { queue.add item with
          waiting := Function.update queue.waiting item none }
      else
        none

end Operations

/-- An item waits or is queued up. -/
def Holds (queue : DelayQueue Item) (item : Item) : Prop :=
  (queue.waiting item).isSome = true ∨ item ∈ queue.ready

section Holding

variable [DecidableEq Item]
variable {queue : DelayQueue Item}
variable {item other : Item}

instance : Decidable (queue.Holds item) :=
  inferInstanceAs (Decidable (_ ∨ _))

theorem mem_ready_add : item ∈ (queue.add item).ready := by
  unfold add
  split
  · assumption
  · simp

theorem mem_ready_add_of_mem (queued : item ∈ queue.ready) :
    item ∈ (queue.add other).ready := by
  unfold add
  split
  · exact queued
  · exact List.mem_append_left _ queued

theorem Holds.add (held : queue.Holds item) : (queue.add other).Holds item := by
  refine held.imp ?_ mem_ready_add_of_mem
  intro waits
  unfold DelayQueue.add
  split <;> exact waits

/-- An added item is held. -/
theorem holds_addAfter (now delay : Nat) :
    (queue.addAfter now delay item).Holds item := by
  unfold addAfter
  split
  · exact .inr mem_ready_add
  · left
    simp

/-- Adding an item loses no other. -/
theorem Holds.addAfter
    (held : queue.Holds item)
    (now delay : Nat) :
    (queue.addAfter now delay other).Holds item := by
  unfold DelayQueue.addAfter
  split
  · exact held.add
  · refine held.imp ?_ id
    intro waits
    by_cases same : item = other
    · simp [same]
    · simpa [Function.update_of_ne same] using waits

/-- An item whose timer has run out is still held. -/
theorem Holds.ripen
    {now : Nat}
    {later : DelayQueue Item}
    (held : queue.Holds item)
    (ripened : queue.ripen now other = some later) :
    later.Holds item := by
  unfold DelayQueue.ripen at ripened
  split at ripened
  · cases ripened
  · split at ripened
    · cases ripened
      by_cases same : item = other
      · subst same
        exact .inr mem_ready_add
      · refine held.imp ?_ mem_ready_add_of_mem
        intro waits
        simpa [Function.update_of_ne same] using waits
    · cases ripened

end Holding

/-- Every timer of the queue keeps its promise. -/
structure Promised
    (promise : Item → Nat → Prop)
    (now : Nat)
    (queue : DelayQueue Item) : Prop where
  waiting :
    ∀ item readyAt, queue.waiting item = some readyAt → promise item readyAt
  ready :
    ∀ item ∈ queue.ready, ∃ readyAt, readyAt ≤ now ∧ promise item readyAt

namespace Promised

variable {promise : Item → Nat → Prop}
variable {now : Nat}
variable {queue : DelayQueue Item}

theorem empty : Promised promise now (.empty : DelayQueue Item) where
  waiting := nofun
  ready := by simp [DelayQueue.empty]

/-- Promises may be weakened for the timers of the queue, and time passes. -/
theorem mono
    {weaker : Item → Nat → Prop}
    {later : Nat}
    (promised : Promised promise now queue)
    (passes : now ≤ later)
    (waiting :
      ∀ item readyAt,
        queue.waiting item = some readyAt →
        promise item readyAt →
        weaker item readyAt)
    (ready :
      ∀ item readyAt,
        item ∈ queue.ready →
        promise item readyAt →
        weaker item readyAt) :
    Promised weaker later queue where
  waiting := fun item readyAt timer =>
    waiting item readyAt timer (promised.waiting item readyAt timer)
  ready := by
    intro item queued
    obtain ⟨readyAt, ranOut, kept⟩ := promised.ready item queued
    exact ⟨readyAt, Nat.le_trans ranOut passes, ready item readyAt queued kept⟩

/-- Promises may be weakened for all timers alike. -/
theorem weaken
    {weaker : Item → Nat → Prop}
    {later : Nat}
    (promised : Promised promise now queue)
    (passes : now ≤ later)
    (implies : ∀ item readyAt, promise item readyAt → weaker item readyAt) :
    Promised weaker later queue :=
  promised.mono passes
    (fun item readyAt _ => implies item readyAt)
    (fun item readyAt _ => implies item readyAt)

/-- The first item is handed out. -/
theorem handOut
    {item : Item}
    {rest : List Item}
    (promised : Promised promise now queue)
    (queued : queue.ready = item :: rest) :
    Promised promise now { queue with ready := rest } where
  waiting := promised.waiting
  ready := by
    intro other remains
    refine promised.ready other ?_
    rw [queued]
    exact .tail _ remains

variable [DecidableEq Item]

/-- An item queues up after a timer that kept its promise. -/
theorem add
    {item : Item}
    {readyAt : Nat}
    (promised : Promised promise now queue)
    (ranOut : readyAt ≤ now)
    (kept : promise item readyAt) :
    Promised promise now (queue.add item) := by
  unfold DelayQueue.add
  split
  · exact promised
  · refine ⟨promised.waiting, ?_⟩
    intro other queued
    rcases List.mem_append.mp queued with earlier | new
    · exact promised.ready other earlier
    · obtain rfl := List.mem_singleton.mp new
      exact ⟨readyAt, ranOut, kept⟩

/-- A new timer: the merged ready time is one of the two. -/
theorem addAfter
    {item : Item}
    {delay : Nat}
    (promised : Promised promise now queue)
    (kept : promise item (now + delay)) :
    Promised promise now (queue.addAfter now delay item) := by
  unfold DelayQueue.addAfter
  split
  · rename_i immediate
    subst immediate
    exact promised.add (Nat.le_refl _) kept
  · refine ⟨?_, promised.ready⟩
    intro other readyAt timer
    by_cases same : other = item
    · subst same
      simp only [Function.update_self, Option.some.injEq] at timer
      subst timer
      cases earlier : queue.waiting other with
      | none => exact kept
      | some time =>
          rcases min_choice (now + delay) time with first | second
          · simpa [first] using kept
          · simpa [second] using promised.waiting other time earlier
    · simp only [Function.update_of_ne same] at timer
      exact promised.waiting other readyAt timer

/-- A timer runs out. -/
theorem ripen
    {item : Item}
    {later : DelayQueue Item}
    (promised : Promised promise now queue)
    (ripened : queue.ripen now item = some later) :
    Promised promise now later := by
  unfold DelayQueue.ripen at ripened
  split at ripened
  · cases ripened
  · rename_i readyAt timer
    split at ripened
    · rename_i ranOut
      cases ripened
      have kept := promised.waiting item readyAt timer
      refine ⟨?_, (promised.add ranOut kept).ready⟩
      intro other time remains
      by_cases same : other = item
      · subst same
        simp at remains
      · simp only [Function.update_of_ne same] at remains
        exact promised.waiting other time remains
    · cases ripened

end Promised

end DelayQueue
