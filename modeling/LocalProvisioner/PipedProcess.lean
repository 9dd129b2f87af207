import LocalProvisioner.Inevitability
import Mathlib.Algebra.BigOperators.Fin
import Mathlib.Data.Fintype.BigOperators

namespace PipedProcess

/-!
# A process whose output is read line by line

A process writes to several streams and exits.  Each stream is a pipe of
limited capacity, and a writer waits while its pipe is full.  Each pipe has one
reader, which collects lines in a buffer of limited size.  A reader stops at
the end of its stream, and also at a line that does not fit into its buffer:
then it leaves the rest of the stream where it is.  Once every reader has
stopped, the process is awaited, and its status is returned.

Whether the status is returned does not depend on the order of the steps.  It
is returned in every run if what the readers leave behind fits into the pipes,
and in none otherwise.
-/

open Interleaving

variable {Stream : Type}

abbrev Byte : Type := UInt8

/-- A process: what it writes, in order, and the status that it exits with. -/
structure Process (Stream : Type) where
  output : List (Stream × Byte)
  status : Nat

/-- What a reader is doing. -/
inductive Scanner where
  | reading : (buffer : List Byte) → Scanner
  | tooLong : Scanner
  | atEnd : Scanner
  deriving Repr, DecidableEq

/-- A run in progress. -/
structure State (Stream : Type) where
  pending : List (Stream × Byte)
  exited : Bool
  pipe : Stream → List Byte
  logged : Stream → List (List Byte)
  scanner : Stream → Scanner
  gathered : Bool
  returned : Option Nat

/-- One step of the process, of a reader, or of whoever awaits them. -/
inductive Action (Stream : Type) where
  | write : Action Stream
  | exit : Action Stream
  | read : Stream → Action Stream
  | close : Stream → Action Stream
  | gather : Action Stream
  | reap : Action Stream
  deriving Repr, DecidableEq

/-- A line ends with a newline, and with a carriage return before it. -/
def newline : Byte :=
  10

/-- A line without the carriage return at its end. -/
def dropCarriageReturn (line : List Byte) : List Byte :=
  if line.getLast? = some 13 then line.dropLast else line

/-- The line that is left at the end of a stream. -/
def lastLine (buffer : List Byte) : List (List Byte) :=
  if buffer = [] then [] else [dropCarriageReturn buffer]

/-- A reader with a buffer of this size takes one more byte in. -/
def take (limit : Nat) (buffer : List Byte) (byte : Byte) :
    List (List Byte) × Scanner :=
  if byte = newline then
    ([dropCarriageReturn buffer], .reading [])
  else if buffer.length + 1 = limit then
    ([], .tooLong)
  else
    ([], .reading (buffer ++ [byte]))

section Steps

variable [DecidableEq Stream] [Fintype Stream]

instance (state : State Stream) :
    Decidable (∀ stream buffer, state.scanner stream ≠ .reading buffer) :=
  decidable_of_iff
    (∀ stream,
      state.scanner stream = .tooLong ∨ state.scanner stream = .atEnd) <| by
    refine forall_congr' fun stream => ?_
    cases state.scanner stream <;> simp

/-- The steps of a run. -/
def step
    (capacity limit : Nat)
    (status : Nat)
    (state : State Stream) :
    Action Stream → Option (State Stream)
  | .write =>
      match state.pending with
      | [] => none
      | (stream, byte) :: rest =>
          if (state.pipe stream).length < capacity then
            some { state with
              pending := rest
              pipe := Function.update state.pipe stream
                (state.pipe stream ++ [byte]) }
          else
            none
  | .exit =>
      if state.pending = [] ∧ state.exited = false then
        some { state with exited := true }
      else
        none
  | .read stream =>
      match state.scanner stream, state.pipe stream with
      | .reading buffer, byte :: rest =>
          some { state with
            pipe := Function.update state.pipe stream rest
            logged := Function.update state.logged stream
              (state.logged stream ++ (take limit buffer byte).1)
            scanner := Function.update state.scanner stream
              (take limit buffer byte).2 }
      | _, _ => none
  | .close stream =>
      match state.scanner stream with
      | .reading buffer =>
          if state.pipe stream = [] ∧ state.exited = true then
            some { state with
              logged := Function.update state.logged stream
                (state.logged stream ++ lastLine buffer)
              scanner := Function.update state.scanner stream .atEnd }
          else
            none
      | _ => none
  | .gather =>
      if state.gathered = false ∧
          ∀ stream buffer, state.scanner stream ≠ .reading buffer then
        some { state with gathered := true }
      else
        none
  | .reap =>
      if state.gathered = true ∧ state.exited = true ∧
          state.returned = none then
        some { state with returned := some status }
      else
        none

/-- A process that has just been started. -/
def started (process : Process Stream) : State Stream where
  pending := process.output
  exited := false
  pipe := fun _ => []
  logged := fun _ => []
  scanner := fun _ => .reading []
  gathered := false
  returned := none

end Steps

/-! ## What readers make of a stream -/

section Streams

variable [DecidableEq Stream]

/-- The lines that a reader logs of a stream. -/
def scanned (limit : Nat) (buffer : List Byte) : List Byte → List (List Byte)
  | [] => lastLine buffer
  | byte :: rest =>
      (take limit buffer byte).1 ++
        match (take limit buffer byte).2 with
        | .reading kept => scanned limit kept rest
        | _ => []

/-- What a reader leaves of a stream: the rest after a line that is too long. -/
def unread (limit : Nat) (buffer : List Byte) : List Byte → List Byte
  | [] => []
  | byte :: rest =>
      match (take limit buffer byte).2 with
      | .reading kept => unread limit kept rest
      | _ => rest

/-- A reader never leaves more than it has been given. -/
theorem length_unread_le (limit : Nat) (buffer stream : List Byte) :
    (unread limit buffer stream).length ≤ stream.length := by
  induction stream generalizing buffer with
  | nil => exact Nat.le_refl _
  | cons byte rest ih =>
      rw [unread]
      split
      · case h_1 kept _ =>
          exact Nat.le_trans (ih kept) (Nat.le_succ _)
      · exact Nat.le_succ _

/-- A byte does not end a stream. -/
theorem take_ne_atEnd (limit : Nat) (buffer : List Byte) (byte : Byte) :
    (take limit buffer byte).2 ≠ .atEnd := by
  unfold take
  split
  · simp
  · split <;> simp

/-- What the process has yet to write to a stream. -/
def pendingOf (pending : List (Stream × Byte)) (stream : Stream) : List Byte :=
  (pending.filter fun written => written.1 = stream).map Prod.snd

theorem pendingOf_cons_same
    (stream : Stream)
    (byte : Byte)
    (rest : List (Stream × Byte)) :
    pendingOf ((stream, byte) :: rest) stream =
      byte :: pendingOf rest stream := by
  simp [pendingOf]

theorem pendingOf_cons_other
    {stream other : Stream}
    (byte : Byte)
    (rest : List (Stream × Byte))
    (different : other ≠ stream) :
    pendingOf ((stream, byte) :: rest) other = pendingOf rest other := by
  simp [pendingOf, Ne.symm different]

/-- What a reader is still to be given. -/
def State.flow (state : State Stream) (stream : Stream) : List Byte :=
  state.pipe stream ++ pendingOf state.pending stream

/-- What a reader has logged of a stream, and what it will. -/
def Account
    (limit : Nat)
    (whole : List Byte)
    (exited : Bool)
    (logged : List (List Byte))
    (flow : List Byte) :
    Scanner → Prop
  | .reading buffer =>
      logged ++ scanned limit buffer flow = scanned limit [] whole ∧
        unread limit buffer flow = unread limit [] whole
  | .tooLong =>
      logged = scanned limit [] whole ∧ flow = unread limit [] whole
  | .atEnd =>
      logged = scanned limit [] whole ∧ unread limit [] whole = [] ∧
        exited = true

/-- Taking a byte in. -/
theorem Account.read
    {limit : Nat}
    {whole buffer flow : List Byte}
    {byte : Byte}
    {exited : Bool}
    {logged : List (List Byte)}
    (account :
      Account limit whole exited logged (byte :: flow) (.reading buffer)) :
    Account limit whole exited (logged ++ (take limit buffer byte).1) flow
      (take limit buffer byte).2 := by
  obtain ⟨lines, left⟩ := account
  rw [scanned, ← List.append_assoc] at lines
  rw [unread] at left
  cases shape : (take limit buffer byte).2 with
  | reading kept =>
      rw [shape] at lines left
      exact ⟨lines, left⟩
  | tooLong =>
      rw [shape, List.append_nil] at lines
      rw [shape] at left
      exact ⟨lines, left⟩
  | atEnd => exact (take_ne_atEnd _ _ _ shape).elim

/-- What holds in every run of a process. -/
structure Invariant
    (capacity limit : Nat)
    (process : Process Stream)
    (state : State Stream) : Prop where
  account :
    ∀ stream,
      Account limit (pendingOf process.output stream) state.exited
        (state.logged stream) (state.flow stream) (state.scanner stream)
  within : ∀ stream, (state.pipe stream).length ≤ capacity
  exited : state.exited = true → state.pending = []
  gathered :
    state.gathered = true →
      ∀ stream buffer, state.scanner stream ≠ .reading buffer
  returned :
    ∀ result, state.returned = some result →
      result = process.status ∧ state.exited = true ∧ state.gathered = true

theorem invariant_started
    (capacity limit : Nat)
    (process : Process Stream) :
    Invariant capacity limit process (started process) where
  account := fun _ => ⟨rfl, rfl⟩
  within := fun _ => Nat.zero_le _
  exited := by rintro ⟨⟩
  gathered := by rintro ⟨⟩
  returned := by rintro _ ⟨⟩

variable {capacity limit status : Nat}
variable {state next : State Stream}

/-- What a step can do. -/
inductive Moves
    (capacity limit status : Nat)
    (state : State Stream) :
    State Stream → Prop
  | wrote (stream : Stream) (byte : Byte) (rest : List (Stream × Byte)) :
      state.pending = (stream, byte) :: rest →
      (state.pipe stream).length < capacity →
      Moves capacity limit status state
        { state with
          pending := rest
          pipe := Function.update state.pipe stream
            (state.pipe stream ++ [byte]) }
  | exited :
      state.pending = [] →
      state.exited = false →
      Moves capacity limit status state { state with exited := true }
  | read (stream : Stream) (buffer : List Byte) (byte : Byte)
      (rest : List Byte) :
      state.scanner stream = .reading buffer →
      state.pipe stream = byte :: rest →
      Moves capacity limit status state
        { state with
          pipe := Function.update state.pipe stream rest
          logged := Function.update state.logged stream
            (state.logged stream ++ (take limit buffer byte).1)
          scanner := Function.update state.scanner stream
            (take limit buffer byte).2 }
  | closed (stream : Stream) (buffer : List Byte) :
      state.scanner stream = .reading buffer →
      state.pipe stream = [] →
      state.exited = true →
      Moves capacity limit status state
        { state with
          logged := Function.update state.logged stream
            (state.logged stream ++ lastLine buffer)
          scanner := Function.update state.scanner stream .atEnd }
  | gathered :
      state.gathered = false →
      (∀ stream buffer, state.scanner stream ≠ .reading buffer) →
      Moves capacity limit status state { state with gathered := true }
  | reaped :
      state.gathered = true →
      state.exited = true →
      state.returned = none →
      Moves capacity limit status state { state with returned := some status }

/-- Writing moves a byte from the process to the pipe. -/
theorem flow_wrote
    {stream : Stream}
    {byte : Byte}
    {rest : List (Stream × Byte)}
    (shape : state.pending = (stream, byte) :: rest)
    (other : Stream) :
    Function.update state.pipe stream (state.pipe stream ++ [byte]) other ++
        pendingOf rest other =
      state.flow other := by
  rw [State.flow, shape]
  by_cases same : other = stream
  · subst same
    rw [Function.update_self, pendingOf_cons_same, List.append_assoc]
    rfl
  · rw [Function.update_of_ne same, pendingOf_cons_other byte rest same]

theorem length_update_le
    {pipe : Stream → List Byte}
    {stream : Stream}
    {content : List Byte}
    (within : ∀ stream, (pipe stream).length ≤ capacity)
    (fits : content.length ≤ capacity)
    (other : Stream) :
    (Function.update pipe stream content other).length ≤ capacity := by
  by_cases same : other = stream
  · subst same
    rwa [Function.update_self]
  · rw [Function.update_of_ne same]
    exact within other

theorem Invariant.moves
    {process : Process Stream}
    (invariant : Invariant capacity limit process state)
    (moves : Moves capacity limit process.status state next) :
    Invariant capacity limit process next := by
  cases moves with
  | wrote stream byte rest shape room =>
      have running : state.exited = true → False := by
        intro gone
        rw [invariant.exited gone] at shape
        cases shape
      refine ⟨?_, ?_, ?_, invariant.gathered, invariant.returned⟩
      · intro other
        rw [State.flow, flow_wrote shape other]
        exact invariant.account other
      · refine length_update_le invariant.within ?_
        rw [List.length_append]
        exact room
      · intro gone
        exact (running gone).elim
  | exited nothing running =>
      refine ⟨?_, invariant.within, fun _ => nothing, invariant.gathered, ?_⟩
      · intro stream
        have account := invariant.account stream
        cases shape : state.scanner stream with
        | reading | tooLong =>
            rw [shape] at account
            exact account
        | atEnd =>
            rw [shape] at account
            exact ⟨account.1, account.2.1, rfl⟩
      · intro result isReturned
        obtain ⟨same, _, all⟩ := invariant.returned result isReturned
        exact ⟨same, rfl, all⟩
  | read stream buffer byte rest isReading shape =>
      refine ⟨?_, ?_, invariant.exited, ?_, invariant.returned⟩
      · intro other
        have account := invariant.account other
        by_cases same : other = stream
        · subst same
          rw [isReading, State.flow, shape] at account
          simpa [State.flow] using account.read
        · simpa [State.flow, Function.update_of_ne same] using account
      · have within := invariant.within stream
        rw [shape] at within
        exact length_update_le invariant.within (Nat.le_of_succ_le within)
      · intro all
        exact (invariant.gathered all stream buffer isReading).elim
  | closed stream buffer isReading empty gone =>
      refine ⟨?_, invariant.within, invariant.exited, ?_, invariant.returned⟩
      · intro other
        have account := invariant.account other
        by_cases same : other = stream
        · subst same
          rw [isReading, State.flow, empty, invariant.exited gone] at account
          simpa [Account] using ⟨account.1, account.2.symm, gone⟩
        · simpa [State.flow, Function.update_of_ne same] using account
      · intro all
        exact (invariant.gathered all stream buffer isReading).elim
  | gathered waiting stopped =>
      refine ⟨invariant.account, invariant.within, invariant.exited,
        fun _ => stopped, ?_⟩
      intro result isReturned
      obtain ⟨same, gone, _⟩ := invariant.returned result isReturned
      exact ⟨same, gone, rfl⟩
  | reaped all gone waiting =>
      refine ⟨invariant.account, invariant.within, invariant.exited,
        invariant.gathered, ?_⟩
      rintro result ⟨⟩
      exact ⟨rfl, gone, all⟩

/-- The status is returned, and every reader has logged its lines. -/
def Completed
    (limit : Nat)
    (process : Process Stream)
    (state : State Stream) : Prop :=
  state.returned = some process.status ∧
    ∀ stream,
      state.logged stream =
        scanned limit [] (pendingOf process.output stream)

theorem Invariant.completed
    {process : Process Stream}
    {result : Nat}
    (invariant : Invariant capacity limit process state)
    (isReturned : state.returned = some result) :
    Completed limit process state := by
  obtain ⟨rfl, _, all⟩ := invariant.returned result isReturned
  refine ⟨isReturned, fun stream => ?_⟩
  have account := invariant.account stream
  cases shape : state.scanner stream with
  | reading buffer => exact (invariant.gathered all stream buffer shape).elim
  | tooLong =>
      rw [shape] at account
      exact account.1
  | atEnd =>
      rw [shape] at account
      exact account.1

/-- What the readers leave behind fits into the pipes. -/
def Fits
    (capacity limit : Nat)
    (process : Process Stream) : Prop :=
  ∀ stream,
    (unread limit [] (pendingOf process.output stream)).length ≤ capacity

/-- A process that has exited has left its readers no more than the pipes hold. -/
theorem Invariant.fits_of_exited
    {process : Process Stream}
    (invariant : Invariant capacity limit process state)
    (gone : state.exited = true) :
    Fits capacity limit process := by
  intro stream
  have account := invariant.account stream
  have flow : state.flow stream = state.pipe stream := by
    simp [State.flow, invariant.exited gone, pendingOf]
  rw [flow] at account
  have within := invariant.within stream
  cases shape : state.scanner stream with
  | reading buffer =>
      rw [shape] at account
      rw [← account.2]
      exact Nat.le_trans (length_unread_le _ _ _) within
  | tooLong =>
      rw [shape] at account
      rw [← account.2]
      exact within
  | atEnd =>
      rw [shape] at account
      rw [account.2.1]
      exact Nat.zero_le _

/-- Of a line without an end, a reader takes as much as its buffer holds. -/
theorem unread_of_endless
    {limit : Nat}
    {buffer bytes : List Byte}
    (room : buffer.length < limit)
    (endless : ∀ byte ∈ bytes, byte ≠ newline) :
    unread limit buffer bytes = bytes.drop (limit - buffer.length) := by
  induction bytes generalizing buffer with
  | nil => simp [unread]
  | cons byte rest ih =>
      have notNewline := endless byte List.mem_cons_self
      have restEndless : ∀ other ∈ rest, other ≠ newline :=
        fun other member => endless other (List.mem_cons_of_mem _ member)
      have taken : limit - buffer.length = limit - (buffer.length + 1) + 1 := by
        omega
      rw [unread, taken, List.drop_succ_cons]
      by_cases full : buffer.length + 1 = limit
      · have shape : (take limit buffer byte).2 = .tooLong := by
          simp [take, notNewline, full]
        rw [shape, full, Nat.sub_self]
        rfl
      · have shape :
            (take limit buffer byte).2 = .reading (buffer ++ [byte]) := by
          simp [take, notNewline, full]
        have longer : (buffer ++ [byte]).length = buffer.length + 1 := by
          simp
        rw [shape, ← longer]
        exact ih (by omega) restEndless

/-- The first piece begins with what comes before any separator. -/
theorem splitOnP_append_of_forall_mem
    {Item : Type}
    {separates : Item → Bool}
    {front : List Item}
    (unbroken : ∀ item ∈ front, separates item = false)
    (rest : List Item) :
    ∃ more pieces,
      (front ++ rest).splitOnP separates = (front ++ more) :: pieces := by
  induction front with
  | nil =>
      cases shape : rest.splitOnP separates with
      | nil => exact (List.splitOnP_ne_nil _ _ shape).elim
      | cons first pieces => exact ⟨first, pieces, shape⟩
  | cons item front ih =>
      obtain ⟨more, pieces, shape⟩ :=
        ih fun other member => unbroken other (List.mem_cons_of_mem _ member)
      refine ⟨more, pieces, ?_⟩
      rw [List.cons_append, List.splitOnP_cons_eq_if_modifyHead, shape,
        unbroken item List.mem_cons_self]
      rfl

/-- Lines that fit into the buffer leave nothing behind. -/
theorem unread_eq_nil
    {limit : Nat}
    {buffer bytes : List Byte}
    (short :
      ∀ line ∈ (buffer ++ bytes).splitOnP (· == newline),
        line.length < limit)
    (unbroken : ∀ byte ∈ buffer, (byte == newline) = false) :
    unread limit buffer bytes = [] := by
  induction bytes generalizing buffer with
  | nil => rfl
  | cons byte rest ih =>
      rw [unread]
      by_cases isNewline : byte = newline
      · have shape : (take limit buffer byte).2 = .reading [] := by
          simp [take, isNewline]
        rw [shape]
        refine ih ?_ (by simp)
        intro line member
        apply short
        rw [List.splitOnP_append_cons_of_forall_mem unbroken byte
          (by simpa using isNewline)]
        exact List.mem_cons_of_mem _ member
      · have joined : buffer ++ [byte] ++ rest = buffer ++ byte :: rest := by
          simp
        have stillUnbroken :
            ∀ other ∈ buffer ++ [byte], (other == newline) = false := by
          intro other member
          rcases List.mem_append.mp member with inside | last
          · exact unbroken other inside
          · rw [List.mem_singleton.mp last]
            simpa using isNewline
        have room : buffer.length + 1 < limit := by
          obtain ⟨more, pieces, pieced⟩ :=
            splitOnP_append_of_forall_mem stillUnbroken rest
          rw [joined] at pieced
          have fits := short _ (pieced ▸ List.mem_cons_self)
          simp only [List.length_append, List.length_cons, List.length_nil]
            at fits
          omega
        have shape :
            (take limit buffer byte).2 = .reading (buffer ++ [byte]) := by
          simp [take, isNewline, Nat.ne_of_lt room]
        rw [shape]
        exact ih (joined ▸ short) stillUnbroken

end Streams

section Completion

variable [DecidableEq Stream] [Fintype Stream]
variable {capacity limit status : Nat}
variable {state next : State Stream}

theorem moves_of_step
    {action : Action Stream}
    (stepped : step capacity limit status state action = some next) :
    Moves capacity limit status state next := by
  cases action with
  | write =>
      simp only [step] at stepped
      split at stepped
      · cases stepped
      · case h_2 stream byte rest shape =>
          split at stepped
          · case isTrue room =>
              cases stepped
              exact .wrote stream byte rest shape room
          · cases stepped
  | exit =>
      simp only [step, Option.ite_none_right_eq_some, Option.some.injEq]
        at stepped
      obtain ⟨⟨nothing, running⟩, rfl⟩ := stepped
      exact .exited nothing running
  | read stream =>
      simp only [step] at stepped
      split at stepped
      · case h_1 buffer byte rest isReading shape =>
          cases stepped
          exact .read stream buffer byte rest isReading shape
      · cases stepped
  | close stream =>
      simp only [step] at stepped
      split at stepped
      · case h_1 buffer isReading =>
          simp only [Option.ite_none_right_eq_some, Option.some.injEq]
            at stepped
          obtain ⟨⟨empty, gone⟩, rfl⟩ := stepped
          exact .closed stream buffer isReading empty gone
      · cases stepped
  | gather =>
      simp only [step, Option.ite_none_right_eq_some, Option.some.injEq]
        at stepped
      obtain ⟨⟨waiting, stopped⟩, rfl⟩ := stepped
      exact .gathered waiting stopped
  | reap =>
      simp only [step, Option.ite_none_right_eq_some, Option.some.injEq]
        at stepped
      obtain ⟨⟨done, gone, waiting⟩, rfl⟩ := stepped
      exact .reaped done gone waiting

instance (process : Process Stream) :
    Decidable (Fits capacity limit process) :=
  inferInstanceAs (Decidable (∀ _, _))

/-- One if it is to come, zero afterwards. -/
def ahead (happened : Bool) : Nat :=
  if happened then 0 else 1

/-- A reader that has not stopped. -/
def Scanner.open : Scanner → Nat
  | .reading _ => 1
  | _ => 0

/-- A bound on the number of steps that are left. -/
def State.remaining (state : State Stream) : Nat :=
  2 * state.pending.length + (∑ stream, (state.pipe stream).length) +
    (∑ stream, (state.scanner stream).open) + ahead state.exited +
    ahead state.gathered + ahead state.returned.isSome

/-- A sum after the change of one summand. -/
theorem sum_update
    {Value : Type}
    (weight : Value → Nat)
    (values : Stream → Value)
    (stream : Stream)
    (value : Value) :
    (∑ other, weight (Function.update values stream value other)) +
        weight (values stream) =
      (∑ other, weight (values other)) + weight value := by
  rw [← Finset.add_sum_erase _ _ (Finset.mem_univ stream),
    ← Finset.add_sum_erase Finset.univ (fun other => weight (values other))
      (Finset.mem_univ stream), Function.update_self]
  have others :
      ∑ other ∈ Finset.univ.erase stream,
          weight (Function.update values stream value other) =
        ∑ other ∈ Finset.univ.erase stream, weight (values other) := by
    refine Finset.sum_congr rfl fun other member => ?_
    rw [Function.update_of_ne (Finset.ne_of_mem_erase member)]
  rw [others]
  omega

theorem remaining_lt
    (moves : Moves capacity limit status state next) :
    next.remaining < state.remaining := by
  cases moves with
  | wrote stream byte rest shape _ =>
      have pipes := sum_update List.length state.pipe stream
        (state.pipe stream ++ [byte])
      simp only [State.remaining, shape, List.length_cons, List.length_append,
        List.length_nil] at pipes ⊢
      omega
  | exited _ running => simp [State.remaining, running, ahead]
  | read stream buffer byte rest isReading shape =>
      have pipes := sum_update List.length state.pipe stream rest
      have scanners := sum_update Scanner.open state.scanner stream
        (take limit buffer byte).2
      have atMostOne : (take limit buffer byte).2.open ≤ 1 := by
        cases (take limit buffer byte).2 <;> simp [Scanner.open]
      simp only [State.remaining, shape, isReading, Scanner.open,
        List.length_cons] at pipes scanners atMostOne ⊢
      omega
  | closed stream buffer isReading _ _ =>
      have scanners := sum_update Scanner.open state.scanner stream .atEnd
      simp only [State.remaining, isReading, Scanner.open] at scanners ⊢
      omega
  | gathered waiting _ => simp [State.remaining, waiting, ahead]
  | reaped _ _ waiting => simp [State.remaining, waiting, ahead]

variable {process : Process Stream}

/-- Until the status is returned, somebody can go on. -/
theorem Invariant.progress
    (positive : 0 < capacity)
    (fits : Fits capacity limit process)
    (invariant : Invariant capacity limit process state) :
    Completed limit process state ∨
      ∃ action next,
        step capacity limit process.status state action = some next := by
  by_cases readable :
      ∃ stream buffer byte rest,
        state.scanner stream = .reading buffer ∧
          state.pipe stream = byte :: rest
  · obtain ⟨stream, buffer, byte, rest, isReading, shape⟩ := readable
    refine .inr ⟨.read stream, ?_⟩
    simp only [step, isReading, shape]
    exact ⟨_, rfl⟩
  have drained :
      ∀ stream buffer,
        state.scanner stream = .reading buffer → state.pipe stream = [] := by
    intro stream buffer isReading
    cases shape : state.pipe stream with
    | nil => rfl
    | cons byte rest =>
        exact (readable ⟨stream, buffer, byte, rest, isReading, shape⟩).elim
  cases pending : state.pending with
  | cons written rest =>
      obtain ⟨stream, byte⟩ := written
      have room : (state.pipe stream).length < capacity := by
        have account := invariant.account stream
        cases shape : state.scanner stream with
        | reading buffer =>
            rw [drained stream buffer shape]
            exact positive
        | tooLong =>
            -- the rest of the stream fits, and one byte of it is missing
            have within := fits stream
            rw [shape] at account
            rw [← account.2, State.flow, pending, pendingOf_cons_same,
              List.length_append, List.length_cons] at within
            omega
        | atEnd =>
            rw [shape] at account
            rw [invariant.exited account.2.2] at pending
            cases pending
      refine .inr ⟨.write, ?_⟩
      simp only [step, pending, if_pos room]
      exact ⟨_, rfl⟩
  | nil =>
      cases gone : state.exited with
      | false =>
          exact .inr ⟨.exit, { state with exited := true },
            if_pos ⟨pending, gone⟩⟩
      | true =>
          by_cases unfinished :
              ∃ stream buffer, state.scanner stream = .reading buffer
          · obtain ⟨stream, buffer, isReading⟩ := unfinished
            refine .inr ⟨.close stream, ?_⟩
            simp only [step, isReading,
              if_pos (And.intro (drained stream buffer isReading) gone)]
            exact ⟨_, rfl⟩
          · have stopped :
                ∀ stream buffer, state.scanner stream ≠ .reading buffer :=
              fun stream buffer isReading =>
                unfinished ⟨stream, buffer, isReading⟩
            cases all : state.gathered with
            | false =>
                exact .inr ⟨.gather, { state with gathered := true },
                  if_pos ⟨all, stopped⟩⟩
            | true =>
                cases isReturned : state.returned with
                | some result => exact .inl (invariant.completed isReturned)
                | none =>
                    exact .inr ⟨.reap,
                      { state with returned := some process.status },
                      if_pos ⟨all, gone, isReturned⟩⟩

/-- What the readers leave fits into the pipes: the status is always returned. -/
theorem inevitable_of_fits
    (positive : 0 < capacity)
    (fits : Fits capacity limit process) :
    Inevitable (step capacity limit process.status)
      (Completed limit process) (started process) :=
  Inevitable.of_measure State.remaining
    (fun _ _ _ invariant stepped => invariant.moves (moves_of_step stepped))
    (fun _ _ _ _ stepped => remaining_lt (moves_of_step stepped))
    (fun _ invariant => invariant.progress positive fits)
    (invariant_started capacity limit process)

/-- Otherwise the process never exits, and nothing is ever returned. -/
theorem not_returned_of_not_fits
    (overflows : ¬ Fits capacity limit process)
    (reachable :
      Reachable (step capacity limit process.status) (fun _ _ => True)
        (fun first => first = started process) state) :
    state.exited = false ∧ state.returned = none := by
  have invariant : Invariant capacity limit process state := by
    refine Reachable.invariant ?_ ?_ reachable
    · rintro _ rfl
      exact invariant_started capacity limit process
    · intro _ _ _ holds _ stepped
      exact holds.moves (moves_of_step stepped)
  have running : state.exited = false := by
    cases gone : state.exited with
    | false => rfl
    | true => exact (overflows (invariant.fits_of_exited gone)).elim
  refine ⟨running, ?_⟩
  cases isReturned : state.returned with
  | none => rfl
  | some result =>
      have gone := (invariant.returned result isReturned).2.1
      rw [running] at gone
      cases gone

end Completion

end PipedProcess
