import Mathlib.Logic.Basic

namespace Interleaving

/-!
# Executable transition systems and interleaved effect programs

Two general layers are collected here.  The first is a deterministic labelled
transition system: an action either fires or is disabled, a run is a list of
actions, and an assumption about the surroundings is a predicate on the pair
of a state and the action about to fire.

The second is a language of sequential programs whose only effects are calls
of a fixed signature.  One call is one atomic transition of the world, and the
surroundings may move the world between any two calls.  A `Protocol` is an
automaton over the calls; `Conforms` says that a program keeps to it, and an
`Outline` attaches to each phase of the automaton an assertion about the
world.  A program is walked through once, for its protocol, and each property
of its interleaved runs is then an outline.
-/

section Transitions

variable {State Action : Type}

/-- Replay a finite action list, stopping at an excluded or disabled action. -/
def replay
    (step : State → Action → Option State)
    (permitted : State → Action → Prop)
    [∀ state action, Decidable (permitted state action)] :
    State → List Action → Option State
  | state, [] => some state
  | state, action :: rest =>
      if permitted state action then
        (step state action).bind fun next =>
          replay step permitted next rest
      else
        none

/-- The states reached from a start state by permitted, enabled actions. -/
inductive Reachable
    (step : State → Action → Option State)
    (permitted : State → Action → Prop)
    (start : State → Prop) :
    State → Prop where
  | initial {state : State} :
      start state →
      Reachable step permitted start state
  | advance {state next : State} (action : Action) :
      Reachable step permitted start state →
      permitted state action →
      step state action = some next →
      Reachable step permitted start next

namespace Reachable

variable {step : State → Action → Option State}
variable {permitted : State → Action → Prop}
variable {start : State → Prop}

/-- A property of the start states that permitted steps keep always holds. -/
theorem invariant
    {property : State → Prop}
    (initially : ∀ state, start state → property state)
    (preserved :
      ∀ state action next,
        property state →
        permitted state action →
        step state action = some next →
        property next)
    {state : State}
    (reachable : Reachable step permitted start state) :
    property state := by
  induction reachable with
  | initial started =>
      exact initially _ started
  | advance action _ allowed fired inductionHypothesis =>
      exact preserved _ action _ inductionHypothesis allowed fired

/-- More starts and more permitted actions give more reachable states. -/
theorem mono
    {weaker : State → Action → Prop}
    {others : State → Prop}
    (starts : ∀ state, start state → others state)
    (permits :
      ∀ state action, permitted state action → weaker state action)
    {state : State}
    (reachable : Reachable step permitted start state) :
    Reachable step weaker others state := by
  induction reachable with
  | initial started =>
      exact .initial (starts _ started)
  | advance action _ allowed fired inductionHypothesis =>
      exact .advance action inductionHypothesis (permits _ action allowed) fired

/-- A successful replay from a reachable state ends in a reachable state. -/
theorem of_replay
    [∀ state action, Decidable (permitted state action)]
    {actions : List Action}
    {state final : State}
    (reachable : Reachable step permitted start state)
    (replayed : replay step permitted state actions = some final) :
    Reachable step permitted start final := by
  induction actions generalizing state with
  | nil =>
      simp only [replay, Option.some.injEq] at replayed
      subst final
      exact reachable
  | cons action rest inductionHypothesis =>
      simp only [replay] at replayed
      split at replayed
      · rename_i allowed
        obtain ⟨next, fired, later⟩ :=
          Option.bind_eq_some_iff.mp replayed
        exact inductionHypothesis
          (.advance action reachable allowed fired) later
      · contradiction

/-- A replay whose last state passes a check yields a reachable such state. -/
theorem exists_of_replay
    [∀ state action, Decidable (permitted state action)]
    {actions : List Action}
    {state : State}
    (check : State → Bool)
    (started : start state)
    (checked :
      (replay step permitted state actions).any check = true) :
    ∃ final,
      Reachable step permitted start final ∧ check final = true := by
  cases replayed : replay step permitted state actions with
  | none =>
      simp [replayed] at checked
  | some final =>
      simp only [replayed, Option.any_some] at checked
      exact ⟨final, of_replay (.initial started) replayed, checked⟩

end Reachable

/-- A system together with an account that is kept of its steps. -/
def observed
    {Account : Type}
    (step : State → Action → Option State)
    (note : State → Action → Account → Account)
    (state : State × Account)
    (action : Action) :
    Option (State × Account) :=
  (step state.1 action).map fun next =>
    (next, note state.1 action state.2)

/-- The states of a system that an account is kept of, from an empty account. -/
abbrev ReachableWith
    {Account : Type}
    (step : State → Action → Option State)
    (note : State → Action → Account → Account)
    (permitted : State → Action → Prop)
    (start : State → Prop)
    (first : Account) :
    State × Account → Prop :=
  Reachable (observed step note)
    (fun state action => permitted state.1 action)
    (fun state => start state.1 ∧ state.2 = first)

/--
A property of states and accounts that permitted steps of the reachable states
keep always holds.
-/
theorem ReachableWith.invariant
    {Account : Type}
    {step : State → Action → Option State}
    {note : State → Action → Account → Account}
    {permitted : State → Action → Prop}
    {start : State → Prop}
    {first : Account}
    {property : State → Account → Prop}
    (initially : ∀ state, start state → property state first)
    (preserved :
      ∀ state account action next,
        Reachable step permitted start state →
        property state account →
        permitted state action →
        step state action = some next →
        property next (note state action account))
    {state : State × Account}
    (reachable : ReachableWith step note permitted start first state) :
    property state.1 state.2 := by
  have both :
      Reachable step permitted start state.1 ∧ property state.1 state.2 := by
    induction reachable with
    | @initial state started =>
        obtain ⟨started, isFirst⟩ := started
        refine ⟨.initial started, ?_⟩
        rw [isFirst]
        exact initially _ started
    | @advance state next action _ allowed fired inductionHypothesis =>
        obtain ⟨reached, holds⟩ := inductionHypothesis
        obtain ⟨later, stepped, rfl⟩ := Option.map_eq_some_iff.mp fired
        exact ⟨.advance action reached allowed stepped,
          preserved _ _ action later reached holds allowed stepped⟩
  exact both.2

/-- Keeping an account does not change what is reached. -/
theorem ReachableWith.reachable
    {Account : Type}
    {step : State → Action → Option State}
    {note : State → Action → Account → Account}
    {permitted : State → Action → Prop}
    {start : State → Prop}
    {first : Account}
    {state : State × Account}
    (reachable : ReachableWith step note permitted start first state) :
    Reachable step permitted start state.1 := by
  refine @ReachableWith.invariant _ _ _ step note permitted start first
    (fun reached _ => Reachable step permitted start reached) ?_ ?_ _ reachable
  · intro reached started
    exact .initial started
  · intro reached _ action next before _ allowed stepped
    exact .advance action before allowed stepped

end Transitions

/-- The calls a program may make, with the type of each reply. -/
structure Signature where
  Op : Type
  Reply : Op → Type

/-- A call together with its reply. -/
structure Answered (sig : Signature) where
  op : sig.Op
  reply : sig.Reply op

/-- A sequential program over a signature, as the tree of its calls. -/
inductive Program (sig : Signature) (α : Type) where
  | done : α → Program sig α
  | call :
      (op : sig.Op) →
      (sig.Reply op → Program sig α) →
      Program sig α

namespace Program

variable {sig : Signature} {α β : Type}

/-- Run one program and continue with its result. -/
def bind : Program sig α → (α → Program sig β) → Program sig β
  | .done value, next => next value
  | .call op rest, next => .call op fun reply => (rest reply).bind next

instance : Monad (Program sig) where
  pure := .done
  bind := bind

/-- The program that makes one call and returns its reply. -/
def perform (op : sig.Op) : Program sig (sig.Reply op) :=
  .call op .done

/-- Run a program on each list element in turn. -/
def forEach (body : α → Program sig Unit) : List α → Program sig Unit
  | [] => .done ()
  | item :: rest => (body item).bind fun _ => forEach body rest

/-- The result of a program whose calls are answered one and the same way. -/
def result
    (answer : (op : sig.Op) → Option (sig.Reply op)) :
    Program sig α → Option α
  | .done value => some value
  | .call op rest =>
      (answer op).bind fun reply => (rest reply).result answer

/-- The calls that such a run makes, up to an unanswered one. -/
def calls
    (answer : (op : sig.Op) → Option (sig.Reply op)) :
    Program sig α → List sig.Op
  | .done _ => []
  | .call op rest =>
      op :: (answer op).elim [] fun reply => (rest reply).calls answer

/-- The same program over a larger signature. -/
def embed
    {larger : Signature}
    (operation : sig.Op → larger.Op)
    (reply : (op : sig.Op) → larger.Reply (operation op) → sig.Reply op) :
    Program sig α → Program larger α
  | .done value => .done value
  | .call op rest =>
      .call (operation op) fun answered =>
        (rest (reply op answered)).embed operation reply

/-- Run a program in a world, with exactly one answer for each of its calls. -/
def execute
    {World Answer : Type}
    (exec :
      (op : sig.Op) → Answer → World → Option (sig.Reply op × World)) :
    Program sig α → World → List Answer → Option (α × World)
  | .done value, world, [] => some (value, world)
  | .done _, _, _ :: _ => none
  | .call _ _, _, [] => none
  | .call op rest, world, answer :: answers =>
      (exec op answer world).bind fun replied =>
        (rest replied.1).execute exec replied.2 answers

/--
Run a program in a world, with the answer of an oracle for each call: its
answered calls, and its end or the call at which it gets stuck.
-/
def trace
    {World Answer : Type}
    (exec :
      (op : sig.Op) → Answer → World → Option (sig.Reply op × World))
    (oracle : sig.Op → Answer) :
    Program sig α → World → List (Answered sig) × Except sig.Op (α × World)
  | .done value, world => ([], .ok (value, world))
  | .call op rest, world =>
      match exec op (oracle op) world with
      | none => ([], .error op)
      | some (reply, later) =>
          let continued := (rest reply).trace exec oracle later
          (⟨op, reply⟩ :: continued.1, continued.2)

/-- Has a program come to its end? -/
def isDone : Program sig α → Bool
  | .done _ => true
  | .call _ _ => false

@[simp] theorem pure_eq (value : α) :
    (pure value : Program sig α) = .done value :=
  rfl

@[simp] theorem bind_eq
    (program : Program sig α)
    (next : α → Program sig β) :
    (program >>= next) = program.bind next :=
  rfl

@[simp] theorem done_bind
    (value : α)
    (next : α → Program sig β) :
    (Program.done value).bind next = next value :=
  rfl

@[simp] theorem call_bind
    (op : sig.Op)
    (rest : sig.Reply op → Program sig α)
    (next : α → Program sig β) :
    (Program.call op rest).bind next =
      .call op fun reply => (rest reply).bind next :=
  rfl

section Answers

variable {answer : (op : sig.Op) → Option (sig.Reply op)}

/-- A run of two programs in sequence. -/
theorem result_bind
    (program : Program sig α)
    (next : α → Program sig β) :
    (program.bind next).result answer =
      (program.result answer).bind fun value =>
        (next value).result answer := by
  induction program with
  | done value => rfl
  | call op rest inductionHypothesis =>
      cases replied : answer op with
      | none => simp [result, replied]
      | some reply => simp [result, replied, inductionHypothesis reply]

/-- The calls of two programs in sequence. -/
theorem calls_bind
    (program : Program sig α)
    (next : α → Program sig β) :
    (program.bind next).calls answer =
      program.calls answer ++
        (program.result answer).elim [] fun value =>
          (next value).calls answer := by
  induction program with
  | done value => rfl
  | call op rest inductionHypothesis =>
      cases replied : answer op with
      | none => simp [calls, result, replied]
      | some reply => simp [calls, result, replied, inductionHypothesis reply]

/-- A program whose calls are all answered has a result. -/
theorem exists_result
    (answered : ∀ op, (answer op).isSome = true)
    (program : Program sig α) :
    ∃ value, program.result answer = some value := by
  induction program with
  | done value => exact ⟨value, rfl⟩
  | call op rest inductionHypothesis =>
      obtain ⟨reply, replied⟩ := Option.isSome_iff_exists.mp (answered op)
      obtain ⟨value, ended⟩ := inductionHypothesis reply
      exact ⟨value, by simp [result, replied, ended]⟩

/-- A loop whose calls are all answered makes the calls of its rounds. -/
theorem calls_forEach
    (answered : ∀ op, (answer op).isSome = true)
    (body : α → Program sig Unit)
    (items : List α) :
    (forEach body items).calls answer =
      items.flatMap fun item => (body item).calls answer := by
  induction items with
  | nil => rfl
  | cons item rest inductionHypothesis =>
      obtain ⟨value, ended⟩ := exists_result answered (body item)
      rw [forEach, calls_bind, ended, List.flatMap_cons]
      exact congrArg _ inductionHypothesis

/-- All calls of a program, whatever the replies, are allowed. -/
inductive Only (allowed : sig.Op → Prop) : Program sig α → Prop where
  | done {value : α} :
      Only allowed (.done value)
  | call {op : sig.Op} {rest : sig.Reply op → Program sig α} :
      allowed op →
      (∀ reply, Only allowed (rest reply)) →
      Only allowed (.call op rest)

/-- Sequential composition of programs with allowed calls. -/
theorem Only.bind
    {allowed : sig.Op → Prop}
    {program : Program sig α}
    {next : α → Program sig β}
    (first : Only allowed program)
    (rest : ∀ value, Only allowed (next value)) :
    Only allowed (program.bind next) := by
  induction first with
  | done => exact rest _
  | call isAllowed _ inductionHypothesis =>
      exact .call isAllowed inductionHypothesis

/-- A loop whose rounds make allowed calls. -/
theorem Only.forEach
    {allowed : sig.Op → Prop}
    {body : α → Program sig Unit}
    (round : ∀ item, Only allowed (body item))
    (items : List α) :
    Only allowed (Program.forEach body items) := by
  induction items with
  | nil => exact .done
  | cons item _ inductionHypothesis =>
      exact (round item).bind fun _ => inductionHypothesis

/-- A program with allowed calls makes none but allowed calls. -/
theorem Only.of_mem_calls
    {allowed : sig.Op → Prop}
    {program : Program sig α}
    {op : sig.Op}
    (only : Only allowed program)
    (called : op ∈ program.calls answer) :
    allowed op := by
  induction only with
  | done => cases called
  | @call first rest isAllowed _ inductionHypothesis =>
      simp only [calls, List.mem_cons] at called
      rcases called with rfl | later
      · exact isAllowed
      · cases replied : answer first with
        | none => simp [replied] at later
        | some reply =>
            rw [replied] at later
            exact inductionHypothesis reply later

end Answers

/-- On every path, whatever the replies, the calls cost at most a bound. -/
inductive Within (cost : sig.Op → Nat) : Nat → Program sig α → Prop where
  | done {bound : Nat} {value : α} :
      Within cost bound (.done value)
  | call {bound : Nat} {op : sig.Op} {rest : sig.Reply op → Program sig α} :
      (∀ reply, Within cost bound (rest reply)) →
      Within cost (cost op + bound) (.call op rest)

namespace Within

variable {cost : sig.Op → Nat} {bound : Nat}

/-- The first call and every continuation share the bound. -/
theorem of_call
    {op : sig.Op}
    {rest : sig.Reply op → Program sig α}
    (within : Within cost bound (.call op rest)) :
    ∃ remaining,
      bound = cost op + remaining ∧
        ∀ reply, Within cost remaining (rest reply) := by
  generalize shape : Program.call op rest = program at within
  cases within with
  | done => cases shape
  | call continues =>
      cases shape
      exact ⟨_, rfl, continues⟩

/-- A larger bound. -/
theorem mono
    {larger : Nat}
    {program : Program sig α}
    (within : Within cost bound program)
    (atMost : bound ≤ larger) :
    Within cost larger program := by
  induction within generalizing larger with
  | done => exact .done
  | @call bound op rest _ inductionHypothesis =>
      obtain ⟨extra, rfl⟩ := Nat.exists_eq_add_of_le atMost
      rw [Nat.add_assoc]
      apply Within.call
      intro reply
      exact inductionHypothesis reply (Nat.le_add_right bound extra)

/-- Sequential composition adds the bounds. -/
theorem bind
    {more : Nat}
    {program : Program sig α}
    {next : α → Program sig β}
    (first : Within cost bound program)
    (rest : ∀ value, Within cost more (next value)) :
    Within cost (bound + more) (program.bind next) := by
  induction first with
  | @done bound value =>
      exact (rest value).mono (Nat.le_add_left more bound)
  | @call bound op following _ inductionHypothesis =>
      rw [Nat.add_assoc]
      exact .call inductionHypothesis

end Within

/-- A program over a larger signature makes the calls it made before. -/
theorem Only.embed
    {larger : Signature}
    {operation : sig.Op → larger.Op}
    {reply : (op : sig.Op) → larger.Reply (operation op) → sig.Reply op}
    {allowed : larger.Op → Prop}
    (always : ∀ op, allowed (operation op))
    (program : Program sig α) :
    Only allowed (program.embed operation reply) := by
  induction program with
  | done value => exact .done
  | call op rest inductionHypothesis =>
      exact .call (always op) fun answered =>
        inductionHypothesis (reply op answered)

section ExpectedReplies

variable {expected : (op : sig.Op) → sig.Reply op → Prop}
variable {goal : sig.Op → Prop}

/-- A program returns such a value if all of its replies are expected. -/
inductive Yields
    (expected : (op : sig.Op) → sig.Reply op → Prop)
    (post : α → Prop) :
    Program sig α → Prop where
  | done {value : α} :
      post value →
      Yields expected post (.done value)
  | call {op : sig.Op} {rest : sig.Reply op → Program sig α} :
      (∀ reply, expected op reply → Yields expected post (rest reply)) →
      Yields expected post (.call op rest)

/-- Sequential composition. -/
theorem Yields.bind
    {middle : α → Prop}
    {post : β → Prop}
    {program : Program sig α}
    {next : α → Program sig β}
    (first : Yields expected middle program)
    (second : ∀ value, middle value → Yields expected post (next value)) :
    Yields expected post (program.bind next) := by
  induction first with
  | done reached => exact second _ reached
  | call _ inductionHypothesis => exact .call inductionHypothesis

/-- Every program returns something. -/
theorem Yields.always (program : Program sig α) :
    Yields expected (fun _ => True) program := by
  induction program with
  | done value => exact .done trivial
  | call op rest inductionHypothesis =>
      exact .call fun reply _ => inductionHypothesis reply

/-- A program makes a goal call if all of its replies are expected. -/
inductive Inevitable
    (expected : (op : sig.Op) → sig.Reply op → Prop)
    (goal : sig.Op → Prop) :
    Program sig α → Prop where
  | now {op : sig.Op} {rest : sig.Reply op → Program sig α} :
      goal op →
      Inevitable expected goal (.call op rest)
  | later {op : sig.Op} {rest : sig.Reply op → Program sig α} :
      (∀ reply, expected op reply → Inevitable expected goal (rest reply)) →
      Inevitable expected goal (.call op rest)

namespace Inevitable

/-- A program has not ended before its goal call. -/
theorem isDone_eq_false
    {program : Program sig α}
    (inevitable : Inevitable expected goal program) :
    program.isDone = false := by
  cases inevitable <;> rfl

/-- A goal call of the first program. -/
theorem bind
    {program : Program sig α}
    {next : α → Program sig β}
    (first : Inevitable expected goal program) :
    Inevitable expected goal (program.bind next) := by
  induction first with
  | now isGoal => exact .now isGoal
  | later _ inductionHypothesis => exact .later inductionHypothesis

/-- A goal call of the second program, after what the first returns. -/
theorem after
    {middle : α → Prop}
    {program : Program sig α}
    {next : α → Program sig β}
    (first : Yields expected middle program)
    (second : ∀ value, middle value → Inevitable expected goal (next value)) :
    Inevitable expected goal (program.bind next) := by
  induction first with
  | done reached => exact second _ reached
  | call _ inductionHypothesis => exact .later inductionHypothesis

/-- A goal call in one round of a loop. -/
theorem forEach
    {body : α → Program sig Unit}
    {items : List α}
    {item : α}
    (member : item ∈ items)
    (round : Inevitable expected goal (body item)) :
    Inevitable expected goal (Program.forEach body items) := by
  induction items with
  | nil => cases member
  | cons first rest inductionHypothesis =>
      rcases List.mem_cons.mp member with rfl | later
      · exact round.bind
      · exact after (.always (body first)) fun _ _ => inductionHypothesis later

end Inevitable

end ExpectedReplies

section Executions

variable {World Answer : Type}
variable {exec :
  (op : sig.Op) → Answer → World → Option (sig.Reply op × World)}

/-- An execution of a program that has ended already. -/
theorem execute_done
    {value : α}
    {world : World}
    {answers : List Answer}
    {ended : α × World}
    (executed :
      (Program.done value : Program sig α).execute exec world answers =
        some ended) :
    ended = (value, world) := by
  cases answers with
  | nil => exact (Option.some.inj executed).symm
  | cons _ _ => cases executed

/-- An execution of two programs in sequence. -/
theorem execute_bind
    {program : Program sig α}
    {next : α → Program sig β}
    {world : World}
    {answers : List Answer}
    {ended : β × World}
    (executed : (program.bind next).execute exec world answers = some ended) :
    ∃ earlier later value middle,
      answers = earlier ++ later ∧
        program.execute exec world earlier = some (value, middle) ∧
        (next value).execute exec middle later = some ended := by
  induction program generalizing world answers with
  | done value => exact ⟨[], answers, value, world, rfl, rfl, executed⟩
  | call op rest inductionHypothesis =>
      cases answers with
      | nil => cases executed
      | cons answer answers =>
          obtain ⟨⟨reply, after⟩, replied, executedRest⟩ :=
            Option.bind_eq_some_iff.mp executed
          obtain ⟨earlier, later, value, middle, rfl, first, second⟩ :=
            inductionHypothesis reply executedRest
          refine ⟨answer :: earlier, later, value, middle, rfl, ?_, second⟩
          simp [execute, replied, first]

/-- What allowed calls keep, an execution of a program with such calls keeps. -/
theorem Only.execute
    {allowed : sig.Op → Prop}
    {program : Program sig α}
    (only : Only allowed program)
    (property : World → Prop)
    (kept :
      ∀ op answer world reply after,
        allowed op →
        property world →
        exec op answer world = some (reply, after) →
        property after)
    {world ended : World}
    {answers : List Answer}
    {value : α}
    (before : property world)
    (executed : program.execute exec world answers = some (value, ended)) :
    property ended := by
  induction only generalizing world answers with
  | done =>
      cases execute_done executed
      exact before
  | call isAllowed _ inductionHypothesis =>
      cases answers with
      | nil => cases executed
      | cons answer answers =>
          obtain ⟨⟨reply, after⟩, replied, executedRest⟩ :=
            Option.bind_eq_some_iff.mp executed
          exact inductionHypothesis reply
            (kept _ answer world reply after isAllowed before replied)
            executedRest

variable {oracle : sig.Op → Answer}

/-- A call that the world does not answer. -/
theorem trace_call_of_none
    {op : sig.Op}
    {rest : sig.Reply op → Program sig α}
    {world : World}
    (stuck : exec op (oracle op) world = none) :
    (Program.call op rest).trace exec oracle world = ([], .error op) := by
  simp [trace, stuck]

/-- A call that the world answers. -/
theorem trace_call_of_some
    {op : sig.Op}
    {rest : sig.Reply op → Program sig α}
    {world later : World}
    {reply : sig.Reply op}
    (replied : exec op (oracle op) world = some (reply, later)) :
    (Program.call op rest).trace exec oracle world =
      (⟨op, reply⟩ :: ((rest reply).trace exec oracle later).1,
        ((rest reply).trace exec oracle later).2) := by
  simp [trace, replied]

/-- The trace of two programs in sequence. -/
theorem trace_bind
    (program : Program sig α)
    (next : α → Program sig β)
    (world : World) :
    (program.bind next).trace exec oracle world =
      match program.trace exec oracle world with
      | (calls, .error op) => (calls, .error op)
      | (calls, .ok (value, later)) =>
          (calls ++ ((next value).trace exec oracle later).1,
            ((next value).trace exec oracle later).2) := by
  induction program generalizing world with
  | done value => rfl
  | call op rest inductionHypothesis =>
      cases replied : exec op (oracle op) world with
      | none =>
          rw [call_bind, trace_call_of_none replied,
            trace_call_of_none replied]
      | some answered =>
          obtain ⟨reply, later⟩ := answered
          rw [call_bind, trace_call_of_some replied,
            trace_call_of_some replied, inductionHypothesis reply later]
          rcases (rest reply).trace exec oracle later with ⟨calls, _ | ended⟩
          · rfl
          · rfl

/--
Each call of a trace has been answered in a world with a property that all
calls keep.
-/
theorem exists_exec_of_mem_trace
    (property : World → Prop)
    (kept :
      ∀ op world reply later,
        property world →
        exec op (oracle op) world = some (reply, later) →
        property later)
    {program : Program sig α}
    {world : World}
    (before : property world)
    {answered : Answered sig}
    (member : answered ∈ (program.trace exec oracle world).1) :
    ∃ current later,
      property current ∧
        exec answered.op (oracle answered.op) current =
          some (answered.reply, later) := by
  induction program generalizing world with
  | done value => cases member
  | call op rest inductionHypothesis =>
      cases replied : exec op (oracle op) world with
      | none =>
          rw [trace_call_of_none replied] at member
          cases member
      | some outcome =>
          obtain ⟨reply, later⟩ := outcome
          rw [trace_call_of_some replied] at member
          rcases List.mem_cons.mp member with rfl | further
          · exact ⟨world, later, before, replied⟩
          · exact inductionHypothesis reply
              (kept op world reply later before replied) further

/-- A property that all calls keep holds at the end of a run. -/
theorem kept_of_trace
    (property : World → Prop)
    (kept :
      ∀ op world reply later,
        property world →
        exec op (oracle op) world = some (reply, later) →
        property later)
    {program : Program sig α}
    {world later : World}
    {calls : List (Answered sig)}
    {value : α}
    (before : property world)
    (ran : program.trace exec oracle world = (calls, .ok (value, later))) :
    property later := by
  induction program generalizing world calls with
  | done result =>
      cases ran
      exact before
  | call op rest inductionHypothesis =>
      cases replied : exec op (oracle op) world with
      | none =>
          rw [trace_call_of_none replied] at ran
          cases ran
      | some outcome =>
          obtain ⟨reply, next⟩ := outcome
          rw [trace_call_of_some replied, Prod.mk.injEq] at ran
          exact inductionHypothesis reply
            (kept op world reply next before replied)
            (Prod.ext rfl ran.2)

/-- A program ends in a world, with such calls, such a value and world. -/
def Ends
    (exec :
      (op : sig.Op) → Answer → World → Option (sig.Reply op × World))
    (oracle : sig.Op → Answer)
    (program : Program sig α)
    (world : World)
    (post : List (Answered sig) → α → World → Prop) : Prop :=
  ∃ calls value later,
    program.trace exec oracle world = (calls, .ok (value, later)) ∧
      post calls value later

namespace Ends

variable {world : World}

theorem done
    {value : α}
    {post : List (Answered sig) → α → World → Prop}
    (reached : post [] value world) :
    Ends exec oracle (.done value) world post :=
  ⟨[], value, world, rfl, reached⟩

theorem call
    {op : sig.Op}
    {rest : sig.Reply op → Program sig α}
    {post : List (Answered sig) → α → World → Prop}
    {reply : sig.Reply op}
    {later : World}
    (replied : exec op (oracle op) world = some (reply, later))
    (continues :
      Ends exec oracle (rest reply) later fun calls =>
        post (⟨op, reply⟩ :: calls)) :
    Ends exec oracle (.call op rest) world post := by
  obtain ⟨calls, value, last, traced, reached⟩ := continues
  refine ⟨⟨op, reply⟩ :: calls, value, last, ?_, reached⟩
  rw [trace_call_of_some replied, traced]

theorem bind
    {program : Program sig α}
    {next : α → Program sig β}
    {middle : List (Answered sig) → α → World → Prop}
    {post : List (Answered sig) → β → World → Prop}
    (first : Ends exec oracle program world middle)
    (second :
      ∀ calls value later,
        middle calls value later →
        Ends exec oracle (next value) later fun more =>
          post (calls ++ more)) :
    Ends exec oracle (program.bind next) world post := by
  obtain ⟨calls, value, later, traced, reached⟩ := first
  obtain ⟨more, result, last, tracedNext, reachedNext⟩ :=
    second calls value later reached
  refine ⟨calls ++ more, result, last, ?_, reachedNext⟩
  rw [trace_bind, traced]
  simp only [tracedNext]

/-- A run is determined, so what a program ends with holds of the run seen. -/
theorem post_of_trace
    {program : Program sig α}
    {post : List (Answered sig) → α → World → Prop}
    {calls : List (Answered sig)}
    {value : α}
    {later : World}
    (ends : Ends exec oracle program world post)
    (ran : program.trace exec oracle world = (calls, .ok (value, later))) :
    post calls value later := by
  obtain ⟨_, _, _, traced, reached⟩ := ends
  rw [ran] at traced
  cases traced
  exact reached

end Ends

end Executions

end Program

/--
The order in which a program may make its calls, as an automaton.  `silent`
steps need no call; `admits` restricts the replies that count.
-/
structure Protocol (sig : Signature) (Phase : Type) where
  allows : Phase → sig.Op → Prop
  after : Phase → (op : sig.Op) → sig.Reply op → Phase
  silent : Phase → Phase → Prop
  admits : (op : sig.Op) → sig.Reply op → Prop

section Conformance

variable {sig : Signature} {Phase World Answer α β : Type}

/--
From this phase on, the program only makes calls that the protocol allows, and
it ends in a phase and with a value that satisfy the postcondition.
-/
inductive Conforms
    (protocol : Protocol sig Phase)
    (post : α → Phase → Prop) :
    Phase → Program sig α → Prop where
  | done {phase : Phase} {value : α} :
      post value phase →
      Conforms protocol post phase (.done value)
  | call
      {phase : Phase}
      {op : sig.Op}
      {next : sig.Reply op → Program sig α} :
      protocol.allows phase op →
      (∀ reply,
        protocol.admits op reply →
        Conforms protocol post (protocol.after phase op reply) (next reply)) →
      Conforms protocol post phase (.call op next)
  | silent
      {phase later : Phase}
      {program : Program sig α} :
      protocol.silent phase later →
      Conforms protocol post later program →
      Conforms protocol post phase program

namespace Conforms

variable {protocol : Protocol sig Phase}

/-- Sequential composition of conforming programs. -/
theorem bind
    {middle : α → Phase → Prop}
    {post : β → Phase → Prop}
    {phase : Phase}
    {program : Program sig α}
    {next : α → Program sig β}
    (first : Conforms protocol middle phase program)
    (rest :
      ∀ value current,
        middle value current →
        Conforms protocol post current (next value)) :
    Conforms protocol post phase (program.bind next) := by
  induction first with
  | done reached =>
      exact rest _ _ reached
  | call allowed _ inductionHypothesis =>
      exact .call allowed inductionHypothesis
  | silent moved _ inductionHypothesis =>
      exact .silent moved inductionHypothesis

/-- A postcondition may be weakened, also by silent steps at the end. -/
theorem consequence
    {post weaker : α → Phase → Prop}
    {phase : Phase}
    {program : Program sig α}
    (conforms : Conforms protocol post phase program)
    (implies :
      ∀ value current,
        post value current →
        Conforms protocol weaker current (.done value)) :
    Conforms protocol weaker phase program := by
  induction conforms with
  | done reached =>
      exact implies _ _ reached
  | call allowed _ inductionHypothesis =>
      exact .call allowed inductionHypothesis
  | silent moved _ inductionHypothesis =>
      exact .silent moved inductionHypothesis

/-- A loop whose body returns to a set of phases stays conforming. -/
theorem forEach
    {body : α → Program sig Unit}
    {items : List α}
    {home : Phase → Prop}
    {phase : Phase}
    (atHome : home phase)
    (returns :
      ∀ item,
        item ∈ items →
        ∀ current,
          home current →
          Conforms protocol (fun _ => home) current (body item)) :
    Conforms protocol (fun _ => home) phase (Program.forEach body items) := by
  induction items generalizing phase with
  | nil =>
      exact .done atHome
  | cons item rest inductionHypothesis =>
      refine bind (returns item (by simp) phase atHome) ?_
      intro _ current reached
      exact inductionHypothesis reached fun later member =>
        returns later (by simp [member])

end Conforms

/-- The protocol that allows calls at any time, for admitted replies. -/
def Protocol.stateless
    (allowed : sig.Op → Prop)
    (admitted : (op : sig.Op) → sig.Reply op → Prop) :
    Protocol sig Unit where
  allows := fun _ => allowed
  after := fun _ _ _ => ()
  silent := fun _ _ => False
  admits := admitted

/--
If two worlds are related, and allowed calls get the same replies in both and
keep them related, then a program makes the same calls in both.
-/
theorem Conforms.trace_of_simulation
    {allowed : sig.Op → Prop}
    {admitted : (op : sig.Op) → sig.Reply op → Prop}
    {post : α → Unit → Prop}
    {exec :
      (op : sig.Op) → Answer → World → Option (sig.Reply op × World)}
    {firstOracle secondOracle : sig.Op → Answer}
    {related : World → World → Prop}
    (simulated :
      ∀ op first second,
        allowed op →
        related first second →
        ∃ reply firstLater secondLater,
          exec op (firstOracle op) first = some (reply, firstLater) ∧
            exec op (secondOracle op) second = some (reply, secondLater) ∧
            admitted op reply ∧
            related firstLater secondLater)
    {program : Program sig α}
    {phase : Unit}
    (conforms : Conforms (.stateless allowed admitted) post phase program)
    {first second : World}
    (initially : related first second) :
    ∃ calls value firstLater secondLater,
      program.trace exec firstOracle first =
          (calls, .ok (value, firstLater)) ∧
        program.trace exec secondOracle second =
          (calls, .ok (value, secondLater)) ∧
        related firstLater secondLater := by
  induction conforms generalizing first second with
  | @done _ value _ => exact ⟨[], value, first, second, rfl, rfl, initially⟩
  | @call _ op _ isAllowed _ inductionHypothesis =>
      obtain ⟨reply, firstNext, secondNext, firstReplied, secondReplied,
          isAdmitted, stillRelated⟩ :=
        simulated op first second isAllowed initially
      obtain ⟨calls, value, firstLater, secondLater, firstTrace, secondTrace,
          relatedLater⟩ :=
        inductionHypothesis reply isAdmitted stillRelated
      refine ⟨⟨op, reply⟩ :: calls, value, firstLater, secondLater, ?_, ?_,
        relatedLater⟩
      · rw [Program.trace_call_of_some firstReplied, firstTrace]
      · rw [Program.trace_call_of_some secondReplied, secondTrace]
  | silent moved _ _ => exact moved.elim

/--
The protocol whose phases are the calls answered so far, newest first.  What a
call may rely on is what the earlier replies have shown.
-/
def Protocol.recording
    (allowed : List (Answered sig) → sig.Op → Prop) :
    Protocol sig (List (Answered sig)) where
  allows := allowed
  after := fun history op reply => ⟨op, reply⟩ :: history
  silent := fun _ _ => False
  admits := fun _ _ => True

/-- What is left of a program once some of its calls have been answered. -/
inductive Program.Unfolds (program : Program sig α) :
    List (Answered sig) → Program sig α → Prop where
  | start :
      Unfolds program [] program
  | answered
      {history : List (Answered sig)}
      {op : sig.Op}
      {rest : sig.Reply op → Program sig α}
      (reply : sig.Reply op) :
      Unfolds program history (.call op rest) →
      Unfolds program (⟨op, reply⟩ :: history) (rest reply)

/-- What is left of a program with allowed calls makes allowed calls. -/
theorem Program.Only.unfolds
    {allowed : sig.Op → Prop}
    {program rest : Program sig α}
    {history : List (Answered sig)}
    (only : program.Only allowed)
    (unfolded : program.Unfolds history rest) :
    rest.Only allowed := by
  induction unfolded with
  | start => exact only
  | answered reply _ inductionHypothesis =>
      cases inductionHypothesis with
      | call _ continues => exact continues reply

namespace Conforms

variable {allowed : List (Answered sig) → sig.Op → Prop}
variable {post : α → List (Answered sig) → Prop}
variable {history : List (Answered sig)}

/-- A program about to make a call may rely on what its history shows. -/
theorem recorded_call
    {op : sig.Op}
    {rest : sig.Reply op → Program sig α}
    (conforms :
      Conforms (.recording allowed) post history (.call op rest)) :
    allowed history op ∧
      ∀ reply,
        Conforms (.recording allowed) post (⟨op, reply⟩ :: history)
          (rest reply) := by
  cases conforms with
  | call isAllowed continues =>
      exact ⟨isAllowed, fun reply => continues reply trivial⟩
  | silent moved _ => exact moved.elim

/-- A finished program has met its postcondition. -/
theorem recorded_done
    {value : α}
    (conforms :
      Conforms (.recording allowed) post history (.done value)) :
    post value history := by
  cases conforms with
  | done reached => exact reached
  | silent moved _ => exact moved.elim

/-- What is left of a conforming program conforms. -/
theorem unfolds
    {program rest : Program sig α}
    (conforms : Conforms (.recording allowed) post [] program)
    (unfolded : program.Unfolds history rest) :
    Conforms (.recording allowed) post history rest := by
  induction unfolded with
  | start => exact conforms
  | answered reply _ inductionHypothesis =>
      exact inductionHypothesis.recorded_call.2 reply

/-- A program with allowed calls adds only such calls to its history. -/
theorem recorded_only
    {ordinary : sig.Op → Prop}
    {program : Program sig α}
    (conforms : Conforms (.recording allowed) post history program)
    (only : program.Only ordinary) :
    Conforms (.recording allowed)
      (fun value later =>
        (∀ answered ∈ later, answered ∈ history ∨ ordinary answered.op) ∧
          post value later)
      history program := by
  induction conforms with
  | done reached => exact .done ⟨fun _ => .inl, reached⟩
  | @call phase op _ isAllowed _ inductionHypothesis =>
      cases only with
      | call isOrdinary continues =>
          refine .call isAllowed ?_
          intro reply admitted
          refine (inductionHypothesis reply admitted (continues reply)).consequence
            ?_
          intro value later reached
          refine .done ⟨?_, reached.2⟩
          intro answered member
          rcases reached.1 answered member with known | isNew
          · rcases List.mem_cons.mp known with rfl | earlier
            · exact .inr isOrdinary
            · exact .inl earlier
          · exact .inr isNew
  | silent moved _ _ => exact moved.elim

/-- A recording program never forgets what it has seen. -/
theorem recorded_suffix
    {program : Program sig α}
    (conforms : Conforms (.recording allowed) post history program) :
    Conforms (.recording allowed)
      (fun value later => history <:+ later ∧ post value later)
      history program := by
  induction conforms with
  | done reached => exact .done ⟨List.suffix_refl _, reached⟩
  | call isAllowed _ inductionHypothesis =>
      refine .call isAllowed ?_
      intro reply admitted
      refine (inductionHypothesis reply admitted).consequence ?_
      intro value later reached
      exact .done ⟨(List.suffix_cons _ _).trans reached.1, reached.2⟩
  | silent moved _ _ => exact moved.elim

end Conforms

/--
A family of assertions, one for each phase, that the calls of the protocol
carry along: the proof outline of every conforming program at once.
-/
structure Outline
    (protocol : Protocol sig Phase)
    (exec :
      (op : sig.Op) → Answer → World → Option (sig.Reply op × World))
    (permitted : sig.Op → Answer → World → Prop)
    (assertion : Phase → World → Prop) : Prop where
  silent :
    ∀ {phase later world},
      protocol.silent phase later →
      assertion phase world →
      assertion later world
  call :
    ∀ {phase op answer world reply after},
      protocol.allows phase op →
      assertion phase world →
      permitted op answer world →
      exec op answer world = some (reply, after) →
      protocol.admits op reply ∧
        assertion (protocol.after phase op reply) after

/-- The assertion of some phase from which the program conforms holds. -/
def Follows
    (protocol : Protocol sig Phase)
    (assertion : Phase → World → Prop)
    (post : α → Phase → Prop)
    (program : Program sig α)
    (world : World) : Prop :=
  ∃ phase,
    assertion phase world ∧ Conforms protocol post phase program

namespace Follows

variable {protocol : Protocol sig Phase}
variable {exec :
  (op : sig.Op) → Answer → World → Option (sig.Reply op × World)}
variable {permitted : sig.Op → Answer → World → Prop}
variable {assertion : Phase → World → Prop}
variable {post : α → Phase → Prop}

/-- A program about to make a call is in a phase that allows it. -/
theorem atCall
    {op : sig.Op}
    {next : sig.Reply op → Program sig α}
    {world : World}
    (follows : Follows protocol assertion post (.call op next) world)
    (outline : Outline protocol exec permitted assertion) :
    ∃ phase,
      assertion phase world ∧
        protocol.allows phase op ∧
        ∀ reply,
          protocol.admits op reply →
          Conforms protocol post (protocol.after phase op reply)
            (next reply) := by
  obtain ⟨phase, holds, conforms⟩ := follows
  generalize shape : Program.call op next = program at conforms
  induction conforms with
  | done _ =>
      cases shape
  | call allowed rest _ =>
      cases shape
      exact ⟨_, holds, allowed, rest⟩
  | silent moved _ inductionHypothesis =>
      exact inductionHypothesis (outline.silent moved holds) shape

/-- A finished program is in a phase of its postcondition. -/
theorem atDone
    {value : α}
    {world : World}
    (follows : Follows protocol assertion post (.done value) world)
    (outline : Outline protocol exec permitted assertion) :
    ∃ phase, assertion phase world ∧ post value phase := by
  obtain ⟨phase, holds, conforms⟩ := follows
  generalize shape : Program.done value = program at conforms
  induction conforms with
  | done reached =>
      cases shape
      exact ⟨_, holds, reached⟩
  | call _ _ _ =>
      cases shape
  | silent moved _ inductionHypothesis =>
      exact inductionHypothesis (outline.silent moved holds) shape

/-- Making a permitted call keeps a program on its outline. -/
theorem exec_call
    {op : sig.Op}
    {next : sig.Reply op → Program sig α}
    {world after : World}
    {answer : Answer}
    {reply : sig.Reply op}
    (follows : Follows protocol assertion post (.call op next) world)
    (outline : Outline protocol exec permitted assertion)
    (allowed : permitted op answer world)
    (executed : exec op answer world = some (reply, after)) :
    Follows protocol assertion post (next reply) after := by
  obtain ⟨phase, holds, allows, rest⟩ := follows.atCall outline
  obtain ⟨admitted, carried⟩ :=
    outline.call allows holds allowed executed
  exact ⟨_, carried, rest reply admitted⟩

/-- A move of the world that keeps every assertion keeps the outline. -/
theorem moved
    {program : Program sig α}
    {world later : World}
    (follows : Follows protocol assertion post program world)
    (kept : ∀ phase, assertion phase world → assertion phase later) :
    Follows protocol assertion post program later := by
  obtain ⟨phase, holds, conforms⟩ := follows
  exact ⟨phase, kept phase holds, conforms⟩

end Follows

end Conformance

end Interleaving
