import LocalProvisioner.Interleaving
import Mathlib.Logic.Function.Basic
import Mathlib.Tactic.Common

namespace LocalProvisioner

/-!
# Stopping one instance and starting the next

`RunLocalController` and the instances of `StartLocalController` meet on two
unbuffered channels.  To stop an instance, the controller makes a channel,
sends it on the channel `closing` that all instances share, and waits for an
answer on the new one.  An instance looks at `closing` at the head of its loop
and answers after it has closed its informers.

Instances are numbered in the order they are started, and so are the channels
that the controller makes.  A send and the receive it meets are one step.
After its answer an instance only returns, so that step is left out.
-/

open Interleaving

/-- Where the goroutine of `RunLocalController` is. -/
inductive MainPhase (Config : Type) where
  | launching : (config : Config) → MainPhase Config
  | waiting : MainPhase Config
  | requesting : (config : Config) → (channel : Nat) → MainPhase Config
  | awaiting : (config : Config) → (channel : Nat) → MainPhase Config
  deriving Repr, DecidableEq

/-- Where the goroutine of an instance is. -/
inductive InstancePhase where
  | unstarted : InstancePhase
  | initialising : InstancePhase
  | atSelect : InstancePhase
  | deletingPVs : InstancePhase
  | discovering : InstancePhase
  | resting : InstancePhase
  | stopping : (channel : Nat) → InstancePhase
  | acknowledging : (channel : Nat) → InstancePhase
  | acknowledged : InstancePhase
  deriving Repr, DecidableEq

/-- A stop request that an instance has taken, and how many there were then. -/
structure TakenRequest where
  channel : Nat
  taker : Nat
  started : Nat
  deriving Repr, DecidableEq

/-- The controller, its instances, and what has been received and taken. -/
structure Handshake (Config : Type) where
  main : MainPhase Config
  configs : List Config
  phase : Nat → InstancePhase
  received : List Config
  channels : Nat
  taken : List TakenRequest

/-- The steps that an instance takes alone. -/
inductive InstanceMove where
  | enterLoop : InstanceMove
  | startPass : InstanceMove
  | discover : InstanceMove
  | rest : InstanceMove
  | endPass : InstanceMove
  | closeInformers : InstanceMove
  deriving Repr, DecidableEq

/-- The effect of such a step. -/
def InstanceMove.apply : InstanceMove → InstancePhase → Option InstancePhase
  | .enterLoop, .initialising => some .atSelect
  | .startPass, .atSelect => some .deletingPVs
  | .discover, .deletingPVs => some .discovering
  | .rest, .discovering => some .resting
  | .endPass, .resting => some .atSelect
  | .closeInformers, .stopping channel => some (.acknowledging channel)
  | _, _ => none

/-- All steps. -/
inductive HandshakeAction (Config : Type) where
  | receive : (config : Config) → HandshakeAction Config
  | launch : HandshakeAction Config
  | move : (number : Nat) → InstanceMove → HandshakeAction Config
  | takeStop : (number : Nat) → HandshakeAction Config
  | acknowledge : (number : Nat) → HandshakeAction Config
  deriving Repr, DecidableEq

namespace MainPhase

variable {Config : Type}

/-- The controller is sending on `closing`. -/
def isRequesting : MainPhase Config → Bool
  | .requesting _ _ => true
  | _ => false

/-- The configuration that has been received and has no instance yet. -/
def pending : MainPhase Config → List Config
  | .launching config => [config]
  | .waiting => []
  | .requesting config _ => [config]
  | .awaiting config _ => [config]

end MainPhase

namespace InstancePhase

/-- Started, and no stop request taken. -/
def Serving : InstancePhase → Prop
  | .initialising | .atSelect | .deletingPVs | .discovering | .resting => True
  | _ => False

/-- Between entering the loop and acknowledging the stop. -/
def InLoop : InstancePhase → Prop
  | .atSelect | .deletingPVs | .discovering | .resting => True
  | .stopping _ | .acknowledging _ => True
  | _ => False

/-- The steps an instance has left before it is at its select statement. -/
def distance : InstancePhase → Nat
  | .initialising => 1
  | .deletingPVs => 3
  | .discovering => 2
  | .resting => 1
  | _ => 0

end InstancePhase

namespace Handshake

variable {Config : Type}

/-- The controller before it starts its first instance. -/
def start (initial : Config) : Handshake Config where
  main := .launching initial
  configs := []
  phase := fun _ => .unstarted
  received := []
  channels := 0
  taken := []

/-- Put one instance into another phase. -/
def setPhase
    (state : Handshake Config)
    (number : Nat)
    (phase : InstancePhase) :
    Handshake Config :=
  { state with phase := Function.update state.phase number phase }

/--
One step.  The select statement of an instance takes its default case only if
the controller is not sending.
-/
def step (state : Handshake Config) :
    HandshakeAction Config → Option (Handshake Config)
  | .receive config =>
      match state.main with
      | .waiting =>
          some { state with
            main := .requesting config state.channels
            received := state.received ++ [config]
            channels := state.channels + 1 }
      | _ => none
  | .launch =>
      match state.main with
      | .launching config =>
          some { state.setPhase state.configs.length .initialising with
            main := .waiting
            configs := state.configs ++ [config] }
      | _ => none
  | .move number move =>
      if move = .startPass ∧ state.main.isRequesting = true then
        none
      else
        (move.apply (state.phase number)).map (state.setPhase number)
  | .takeStop number =>
      match state.main, state.phase number with
      | .requesting config channel, .atSelect =>
          some { state.setPhase number (.stopping channel) with
            main := .awaiting config channel
            taken :=
              { channel, taker := number, started := state.configs.length } ::
                state.taken }
      | _, _ => none
  | .acknowledge number =>
      match state.main, state.phase number with
      | .awaiting config channel, .acknowledging answered =>
          if answered = channel then
            some { state.setPhase number .acknowledged with
              main := .launching config }
          else
            none
      | _, _ => none

/-- The ways in which a step can change the state. -/
inductive Advance (state : Handshake Config) :
    HandshakeAction Config → Handshake Config → Prop where
  | received (config : Config) :
      state.main = .waiting →
      Advance state (.receive config)
        { state with
          main := .requesting config state.channels
          received := state.received ++ [config]
          channels := state.channels + 1 }
  | launched (config : Config) :
      state.main = .launching config →
      Advance state .launch
        { state.setPhase state.configs.length .initialising with
          main := .waiting
          configs := state.configs ++ [config] }
  | moved (number : Nat) (move : InstanceMove) (phase : InstancePhase) :
      ¬ (move = .startPass ∧ state.main.isRequesting = true) →
      move.apply (state.phase number) = some phase →
      Advance state (.move number move) (state.setPhase number phase)
  | tookStop (number : Nat) (config : Config) (channel : Nat) :
      state.main = .requesting config channel →
      state.phase number = .atSelect →
      Advance state (.takeStop number)
        { state.setPhase number (.stopping channel) with
          main := .awaiting config channel
          taken :=
            { channel, taker := number, started := state.configs.length } ::
              state.taken }
  | acknowledged (number : Nat) (config : Config) (channel : Nat) :
      state.main = .awaiting config channel →
      state.phase number = .acknowledging channel →
      Advance state (.acknowledge number)
        { state.setPhase number .acknowledged with main := .launching config }

/-- A step changes the state in one of these ways. -/
theorem advance_of_step
    {state next : Handshake Config}
    {action : HandshakeAction Config}
    (stepped : state.step action = some next) :
    Advance state action next := by
  cases action with
  | receive config =>
      simp only [step] at stepped
      split at stepped
      · cases stepped
        exact .received config ‹_›
      · cases stepped
  | launch =>
      simp only [step] at stepped
      split at stepped
      · cases stepped
        exact .launched _ ‹_›
      · cases stepped
  | move number move =>
      simp only [step] at stepped
      split at stepped
      · cases stepped
      · rename_i mayMove
        obtain ⟨phase, applied, rfl⟩ := Option.map_eq_some_iff.mp stepped
        exact .moved number move phase mayMove applied
  | takeStop number =>
      simp only [step] at stepped
      split at stepped
      · rename_i config channel isRequesting isAtSelect
        cases stepped
        exact .tookStop number config channel isRequesting isAtSelect
      · cases stepped
  | acknowledge number =>
      simp only [step] at stepped
      split at stepped
      · rename_i config channel answered isAwaiting isAcknowledging
        split at stepped
        · rename_i same
          subst same
          cases stepped
          exact .acknowledged number config answered isAwaiting
            isAcknowledging
        · cases stepped
      · cases stepped

/-- The states of the controller and its instances in all interleavings. -/
def Reaches (initial : Config) : Handshake Config → Prop :=
  Reachable step (fun _ _ => True) fun state => state = start initial

/-!
## One instance at a time
-/

/-- What the current instance does while the controller is in its phase. -/
def Agrees (state : Handshake Config) : Prop :=
  match state.main with
  | .launching _ =>
      state.channels = state.configs.length ∧
        ∀ number < state.configs.length,
          state.phase number = .acknowledged
  | .waiting =>
      state.configs.length = state.channels + 1 ∧
        (state.phase state.channels).Serving
  | .requesting _ channel =>
      state.configs.length = channel + 1 ∧
        state.channels = channel + 1 ∧
        (state.phase channel).Serving
  | .awaiting _ channel =>
      state.configs.length = channel + 1 ∧
        state.channels = channel + 1 ∧
        (state.phase channel = .stopping channel ∨
          state.phase channel = .acknowledging channel)

/-- What holds in every reachable state. -/
structure Orderly (initial : Config) (state : Handshake Config) : Prop where
  unstarted :
    ∀ number,
      state.configs.length ≤ number →
      state.phase number = .unstarted
  older :
    ∀ number,
      number + 1 < state.configs.length →
      state.phase number = .acknowledged
  agrees : state.Agrees
  inOrder : state.configs ++ state.main.pending = initial :: state.received
  takenByCurrent :
    ∀ request ∈ state.taken,
      request.taker = request.channel ∧
        request.started = request.taker + 1

/-- A step of an instance alone serves on, or finishes a stop it has taken. -/
theorem phases_of_apply
    {move : InstanceMove}
    {phase next : InstancePhase}
    (applied : move.apply phase = some next) :
    (phase.Serving ∧ next.Serving) ∨
      ∃ channel,
        phase = .stopping channel ∧ next = .acknowledging channel := by
  cases move <;> cases phase <;> cases applied <;>
    simp [InstancePhase.Serving]

namespace Orderly

variable {initial : Config}
variable {state next : Handshake Config}

/-- An instance that has started and not acknowledged is the current one. -/
theorem current
    (orderly : Orderly initial state)
    {number : Nat}
    (started : state.phase number ≠ .unstarted)
    (notDone : state.phase number ≠ .acknowledged) :
    state.configs.length = number + 1 := by
  have isStarted : number < state.configs.length := by
    by_contra notStarted
    exact started (orderly.unstarted number (Nat.le_of_not_lt notStarted))
  have isLast : ¬ number + 1 < state.configs.length := by
    intro isOlder
    exact notDone (orderly.older number isOlder)
  omega

/-- While an instance serves, the controller waits or asks it to stop. -/
theorem atServing
    (orderly : Orderly initial state)
    {number : Nat}
    (serving : (state.phase number).Serving) :
    state.configs.length = number + 1 ∧
      ((state.main = .waiting ∧ state.channels = number) ∨
        ∃ config,
          state.main = .requesting config number ∧
            state.channels = number + 1) := by
  have isCurrent : state.configs.length = number + 1 := by
    apply orderly.current
    · intro unstarted
      rw [unstarted] at serving
      exact serving
    · intro acknowledged
      rw [acknowledged] at serving
      exact serving
  refine ⟨isCurrent, ?_⟩
  have agrees := orderly.agrees
  cases main : state.main with
  | launching config =>
      simp only [Agrees, main] at agrees
      rw [agrees.2 number (by omega)] at serving
      cases serving
  | waiting =>
      simp only [Agrees, main] at agrees
      exact .inl ⟨rfl, by omega⟩
  | requesting config channel =>
      simp only [Agrees, main] at agrees
      have same : channel = number := by omega
      subst same
      exact .inr ⟨config, rfl, agrees.2.1⟩
  | awaiting config channel =>
      simp only [Agrees, main] at agrees
      have same : channel = number := by omega
      subst same
      rcases agrees.2.2 with isStopping | isAcknowledging
      · rw [isStopping] at serving
        cases serving
      · rw [isAcknowledging] at serving
        cases serving

/-- While an instance stops, the controller waits for its answer. -/
theorem atStop
    (orderly : Orderly initial state)
    {number channel : Nat}
    (stops :
      state.phase number = .stopping channel ∨
        state.phase number = .acknowledging channel) :
    number = channel ∧
      state.configs.length = channel + 1 ∧
      state.channels = channel + 1 ∧
      ∃ config, state.main = .awaiting config channel := by
  have isCurrent : state.configs.length = number + 1 := by
    rcases stops with isStopping | isAcknowledging
    · exact orderly.current (by simp [isStopping]) (by simp [isStopping])
    · exact orderly.current (by simp [isAcknowledging])
        (by simp [isAcknowledging])
  have notServing : ¬ (state.phase number).Serving := by
    rcases stops with isStopping | isAcknowledging
    · rw [isStopping]
      exact id
    · rw [isAcknowledging]
      exact id
  have agrees := orderly.agrees
  cases main : state.main with
  | launching config =>
      simp only [Agrees, main] at agrees
      rw [agrees.2 number (by omega)] at stops
      rcases stops with impossible | impossible <;> cases impossible
  | waiting =>
      simp only [Agrees, main] at agrees
      have same : state.channels = number := by omega
      rw [same] at agrees
      exact (notServing agrees.2).elim
  | requesting config request =>
      simp only [Agrees, main] at agrees
      have same : request = number := by omega
      rw [same] at agrees
      exact (notServing agrees.2.2).elim
  | awaiting config request =>
      simp only [Agrees, main] at agrees
      have same : request = number := by omega
      subst same
      have sameChannel : request = channel := by
        rcases stops with isStopping | isAcknowledging
        · rw [isStopping] at agrees
          simpa [eq_comm] using agrees.2.2
        · rw [isAcknowledging] at agrees
          simpa [eq_comm] using agrees.2.2
      subst sameChannel
      exact ⟨rfl, agrees.1, agrees.2.1, config, rfl⟩

/-- Putting the current instance into another phase, with the controller. -/
theorem setCurrent
    (orderly : Orderly initial state)
    {number : Nat}
    {phase : InstancePhase}
    {main : MainPhase Config}
    {taken : List TakenRequest}
    (isCurrent : state.configs.length = number + 1)
    (samePending : main.pending = state.main.pending)
    (takenByCurrent :
      ∀ request ∈ taken,
        request.taker = request.channel ∧
          request.started = request.taker + 1)
    (agrees :
      Agrees { state.setPhase number phase with main, taken }) :
    Orderly initial { state.setPhase number phase with main, taken } := by
  refine ⟨?_, ?_, agrees, ?_, takenByCurrent⟩
  · intro other notStarted
    have different : other ≠ number := by
      have isStarted : state.configs.length ≤ other := notStarted
      omega
    simp only [setPhase, Function.update_of_ne different]
    exact orderly.unstarted other notStarted
  · intro other isOlder
    have different : other ≠ number := by
      have beforeLast : other + 1 < state.configs.length := isOlder
      omega
    simp only [setPhase, Function.update_of_ne different]
    exact orderly.older other isOlder
  · rw [samePending]
    exact orderly.inOrder

/-- Before the first instance. -/
theorem ofStart (initial : Config) : Orderly initial (start initial) := by
  refine ⟨fun _ _ => rfl, ?_, ?_, rfl, ?_⟩
  · intro number isOlder
    cases isOlder
  · refine ⟨rfl, ?_⟩
    intro number isStarted
    cases isStarted
  · intro request member
    cases member

theorem receive
    (orderly : Orderly initial state)
    (config : Config)
    (isWaiting : state.main = .waiting) :
    Orderly initial
      { state with
        main := .requesting config state.channels
        received := state.received ++ [config]
        channels := state.channels + 1 } := by
  have agrees := orderly.agrees
  have inOrder := orderly.inOrder
  simp only [Agrees, isWaiting] at agrees
  simp only [isWaiting, MainPhase.pending, List.append_nil] at inOrder
  refine ⟨orderly.unstarted, orderly.older, ?_, ?_, orderly.takenByCurrent⟩
  · exact ⟨agrees.1, rfl, agrees.2⟩
  · simp only [MainPhase.pending, inOrder, List.cons_append]

theorem launch
    (orderly : Orderly initial state)
    {config : Config}
    (isLaunching : state.main = .launching config) :
    Orderly initial
      { state.setPhase state.configs.length .initialising with
        main := .waiting
        configs := state.configs ++ [config] } := by
  have agrees := orderly.agrees
  have inOrder := orderly.inOrder
  simp only [Agrees, isLaunching] at agrees
  simp only [isLaunching, MainPhase.pending] at inOrder
  refine ⟨?_, ?_, ?_, ?_, orderly.takenByCurrent⟩
  · intro number notStarted
    simp only [List.length_append, List.length_singleton] at notStarted
    have different : number ≠ state.configs.length := by omega
    simp only [setPhase, Function.update_of_ne different]
    exact orderly.unstarted number (by omega)
  · intro number isOlder
    simp only [List.length_append, List.length_singleton] at isOlder
    have different : number ≠ state.configs.length := by omega
    simp only [setPhase, Function.update_of_ne different]
    exact agrees.2 number (by omega)
  · simp only [Agrees, setPhase, List.length_append, List.length_singleton,
      agrees.1, Function.update_self, true_and]
    trivial
  · simp only [MainPhase.pending, List.append_nil]
    exact inOrder

theorem move
    (orderly : Orderly initial state)
    {number : Nat}
    {move : InstanceMove}
    {phase : InstancePhase}
    (applied : move.apply (state.phase number) = some phase) :
    Orderly initial (state.setPhase number phase) := by
  rcases phases_of_apply applied with
    ⟨serving, stillServing⟩ | ⟨channel, isStopping, rfl⟩
  · obtain ⟨isCurrent, main⟩ := orderly.atServing serving
    refine orderly.setCurrent isCurrent rfl orderly.takenByCurrent ?_
    rcases main with ⟨isWaiting, same⟩ | ⟨config, isRequesting, same⟩
    · simp only [Agrees, setPhase, isWaiting, same, Function.update_self]
      exact ⟨isCurrent, stillServing⟩
    · simp only [Agrees, setPhase, isRequesting, Function.update_self]
      exact ⟨isCurrent, same, stillServing⟩
  · obtain ⟨rfl, isCurrent, same, config, isAwaiting⟩ :=
      orderly.atStop (.inl isStopping)
    refine orderly.setCurrent isCurrent rfl orderly.takenByCurrent ?_
    simp only [Agrees, setPhase, isAwaiting, Function.update_self]
    exact ⟨isCurrent, same, by simp⟩

/-- A stop request reaches the current instance. -/
theorem atRequest
    (orderly : Orderly initial state)
    {number channel : Nat}
    {config : Config}
    (isRequesting : state.main = .requesting config channel)
    (isAtSelect : state.phase number = .atSelect) :
    channel = number ∧
      state.configs.length = number + 1 ∧
      state.channels = number + 1 := by
  have serving : (state.phase number).Serving := by
    rw [isAtSelect]
    trivial
  obtain ⟨isCurrent, main⟩ := orderly.atServing serving
  rcases main with ⟨isWaiting, _⟩ | ⟨_, sameRequest, same⟩
  · rw [isWaiting] at isRequesting
    cases isRequesting
  · rw [isRequesting] at sameRequest
    cases sameRequest
    exact ⟨rfl, isCurrent, same⟩

theorem takeStop
    (orderly : Orderly initial state)
    {number channel : Nat}
    {config : Config}
    (isRequesting : state.main = .requesting config channel)
    (isAtSelect : state.phase number = .atSelect) :
    Orderly initial
      { state.setPhase number (.stopping channel) with
        main := .awaiting config channel
        taken :=
          { channel, taker := number, started := state.configs.length } ::
            state.taken } := by
  obtain ⟨rfl, isCurrent, same⟩ := orderly.atRequest isRequesting isAtSelect
  refine orderly.setCurrent isCurrent ?_ ?_ ?_
  · rw [isRequesting]
    rfl
  · intro request member
    rcases List.mem_cons.mp member with rfl | earlier
    · exact ⟨rfl, isCurrent⟩
    · exact orderly.takenByCurrent request earlier
  · simp only [Agrees, setPhase, Function.update_self]
    exact ⟨isCurrent, same, by simp⟩

theorem acknowledge
    (orderly : Orderly initial state)
    {number channel : Nat}
    {config : Config}
    (isAwaiting : state.main = .awaiting config channel)
    (isAcknowledging : state.phase number = .acknowledging channel) :
    Orderly initial
      { state.setPhase number .acknowledged with
        main := .launching config } := by
  obtain ⟨rfl, isCurrent, same, _, _⟩ :=
    orderly.atStop (.inr isAcknowledging)
  refine orderly.setCurrent isCurrent ?_ orderly.takenByCurrent ?_
  · rw [isAwaiting]
    rfl
  · simp only [Agrees, setPhase, same, isCurrent, true_and]
    intro other isStarted
    by_cases isNumber : other = number
    · rw [isNumber, Function.update_self]
    · rw [Function.update_of_ne isNumber]
      exact orderly.older other (by omega)

/-- Every step keeps the states orderly. -/
theorem afterStep
    (orderly : Orderly initial state)
    {action : HandshakeAction Config}
    (stepped : state.step action = some next) :
    Orderly initial next := by
  cases advance_of_step stepped with
  | received config isWaiting => exact orderly.receive config isWaiting
  | launched config isLaunching => exact orderly.launch isLaunching
  | moved number move phase _ applied => exact orderly.move applied
  | tookStop number config channel isRequesting isAtSelect =>
      exact orderly.takeStop isRequesting isAtSelect
  | acknowledged number config channel isAwaiting isAcknowledging =>
      exact orderly.acknowledge isAwaiting isAcknowledging

/-- Every reachable state is orderly. -/
theorem ofReaches (reaches : Reaches initial state) :
    Orderly initial state := by
  induction reaches with
  | initial started =>
      rw [started]
      exact ofStart initial
  | advance action _ _ stepped orderly => exact orderly.afterStep stepped

end Orderly

/-!
## Every configuration gets its instance
-/

/-- A bound on the steps before the pending configuration has its instance. -/
def stepsToLaunch (state : Handshake Config) : Nat :=
  match state.main with
  | .launching _ => 1
  | .waiting => 0
  | .requesting _ channel => 4 + (state.phase channel).distance
  | .awaiting _ channel =>
      match state.phase channel with
      | .stopping _ => 3
      | _ => 2

/-- A serving instance that starts no pass comes closer to its select. -/
theorem distance_of_apply
    {move : InstanceMove}
    {phase next : InstancePhase}
    (applied : move.apply phase = some next)
    (serving : phase.Serving)
    (noPass : move ≠ .startPass) :
    next.distance < phase.distance := by
  cases move <;> cases phase <;> cases applied <;>
    simp [InstancePhase.distance, InstancePhase.Serving] at *

namespace Orderly

variable {initial : Config}
variable {state next : Handshake Config}

/-- While a configuration is pending, every step brings it closer. -/
theorem launched_or_closer
    (orderly : Orderly initial state)
    (pending : state.main.pending ≠ [])
    {action : HandshakeAction Config}
    (stepped : state.step action = some next) :
    state.configs.length < next.configs.length ∨
      (next.main.pending ≠ [] ∧
        next.configs = state.configs ∧
        next.stepsToLaunch < state.stepsToLaunch) := by
  cases advance_of_step stepped with
  | received config isWaiting =>
      simp [isWaiting, MainPhase.pending] at pending
  | launched config _ =>
      left
      simp
  | moved number move phase mayMove applied =>
      right
      refine ⟨pending, rfl, ?_⟩
      rcases phases_of_apply applied with
        ⟨serving, _⟩ | ⟨channel, isStopping, rfl⟩
      · obtain ⟨_, main⟩ := orderly.atServing serving
        rcases main with ⟨isWaiting, _⟩ | ⟨config, isRequesting, _⟩
        · simp [isWaiting, MainPhase.pending] at pending
        · have noPass : move ≠ .startPass := by
            intro isPass
            exact mayMove ⟨isPass, by rw [isRequesting]; rfl⟩
          have closer := distance_of_apply applied serving noPass
          simp only [stepsToLaunch, setPhase, isRequesting,
            Function.update_self]
          omega
      · obtain ⟨rfl, _, _, config, isAwaiting⟩ :=
          orderly.atStop (.inl isStopping)
        simp [stepsToLaunch, setPhase, isAwaiting, isStopping]
  | tookStop number config channel isRequesting isAtSelect =>
      right
      refine ⟨by simp [MainPhase.pending], rfl, ?_⟩
      obtain ⟨rfl, _⟩ := orderly.atRequest isRequesting isAtSelect
      simp [stepsToLaunch, setPhase, isRequesting]
      omega
  | acknowledged number config channel isAwaiting isAcknowledging =>
      right
      refine ⟨by simp [MainPhase.pending], rfl, ?_⟩
      obtain ⟨rfl, _⟩ := orderly.atStop (.inr isAcknowledging)
      simp [stepsToLaunch, isAwaiting, isAcknowledging]

/-- While a configuration is pending, some step is possible. -/
theorem exists_step
    (orderly : Orderly initial state)
    (pending : state.main.pending ≠ []) :
    ∃ action, (state.step action).isSome = true := by
  have agrees := orderly.agrees
  cases main : state.main with
  | launching config => exact ⟨.launch, by simp [step, main]⟩
  | waiting => simp [main, MainPhase.pending] at pending
  | requesting config channel =>
      simp only [Agrees, main] at agrees
      obtain ⟨_, _, serving⟩ := agrees
      cases phase : state.phase channel with
      | initialising =>
          exact ⟨.move channel .enterLoop, by
            simp [step, phase, InstanceMove.apply]⟩
      | atSelect => exact ⟨.takeStop channel, by simp [step, main, phase]⟩
      | deletingPVs =>
          exact ⟨.move channel .discover, by
            simp [step, phase, InstanceMove.apply]⟩
      | discovering =>
          exact ⟨.move channel .rest, by
            simp [step, phase, InstanceMove.apply]⟩
      | resting =>
          exact ⟨.move channel .endPass, by
            simp [step, phase, InstanceMove.apply]⟩
      | _ => simp [phase, InstancePhase.Serving] at serving
  | awaiting config channel =>
      simp only [Agrees, main] at agrees
      rcases agrees.2.2 with isStopping | isAcknowledging
      · exact ⟨.move channel .closeInformers, by
          simp [step, isStopping, InstanceMove.apply]⟩
      · exact ⟨.acknowledge channel, by simp [step, main, isAcknowledging]⟩

end Orderly

/-- No step forgets an instance. -/
theorem configs_of_step
    {state next : Handshake Config}
    {action : HandshakeAction Config}
    (stepped : state.step action = some next) :
    state.configs.length ≤ next.configs.length := by
  cases advance_of_step stepped with
  | launched config _ => simp
  | received | moved | tookStop | acknowledged => exact Nat.le_refl _

/-- No run forgets an instance. -/
theorem configs_of_replay
    {state final : Handshake Config}
    {actions : List (HandshakeAction Config)}
    (replayed :
      replay step (fun _ _ => True) state actions = some final) :
    state.configs.length ≤ final.configs.length := by
  induction actions generalizing state with
  | nil =>
      cases replayed
      exact Nat.le_refl _
  | cons action rest inductionHypothesis =>
      simp only [replay, if_true] at replayed
      obtain ⟨next, stepped, later⟩ := Option.bind_eq_some_iff.mp replayed
      exact Nat.le_trans (configs_of_step stepped) (inductionHypothesis later)

/-- A run of enough steps starts the instance for a pending configuration. -/
theorem Orderly.launched
    {initial : Config}
    {state final : Handshake Config}
    {actions : List (HandshakeAction Config)}
    (orderly : Orderly initial state)
    (pending : state.main.pending ≠ [])
    (replayed : replay step (fun _ _ => True) state actions = some final)
    (enough : state.stepsToLaunch ≤ actions.length) :
    state.configs.length < final.configs.length := by
  induction actions generalizing state with
  | nil =>
      have positive : 0 < state.stepsToLaunch := by
        unfold stepsToLaunch
        cases main : state.main with
        | waiting => simp [main, MainPhase.pending] at pending
        | launching config => simp
        | requesting config channel =>
            simp only
            omega
        | awaiting config channel =>
            simp only
            split <;> simp
      simp only [List.length_nil] at enough
      omega
  | cons action rest inductionHypothesis =>
      simp only [replay, if_true] at replayed
      obtain ⟨next, stepped, later⟩ := Option.bind_eq_some_iff.mp replayed
      rcases orderly.launched_or_closer pending stepped with
        started | ⟨stillPending, sameConfigs, closer⟩
      · exact Nat.lt_of_lt_of_le started (configs_of_replay later)
      · rw [← sameConfigs]
        apply inductionHypothesis (orderly.afterStep stepped) stillPending later
        simp only [List.length_cons] at enough
        omega

/--
What the handshake is for.  The last two say that a pending configuration can
always be brought on, and that a bounded number of steps starts its instance.
-/
structure Kept (initial : Config) (state : Handshake Config) : Prop where
  exclusive :
    ∀ first second,
      (state.phase first).InLoop →
      (state.phase second).InLoop →
      first = second
  afterAcknowledgement :
    ∀ number,
      number + 1 < state.configs.length →
      state.phase number = .acknowledged
  inOrder : state.configs ++ state.main.pending = initial :: state.received
  takenByCurrent :
    ∀ request ∈ state.taken, request.started = request.taker + 1
  neverStuck :
    state.main.pending ≠ [] →
    ∃ action, (state.step action).isSome = true
  served :
    state.main.pending ≠ [] →
    ∀ actions final,
      replay step (fun _ _ => True) state actions = some final →
      state.stepsToLaunch ≤ actions.length →
      state.configs.length < final.configs.length

/--
In every interleaving of the controller, its instances and any number of
configuration updates, at most one instance is between entering its loop and
acknowledging its stop, each one is started after the one before has
acknowledged, received configurations get exactly one instance each and in
order, and only the current instance takes a stop request.
-/
theorem kept_of_reaches
    {initial : Config}
    {state : Handshake Config}
    (reaches : Reaches initial state) :
    Kept initial state := by
  have orderly := Orderly.ofReaches reaches
  have current :
      ∀ number,
        (state.phase number).InLoop →
        state.configs.length = number + 1 := by
    intro number inLoop
    apply orderly.current
    · intro unstarted
      rw [unstarted] at inLoop
      exact inLoop
    · intro acknowledged
      rw [acknowledged] at inLoop
      exact inLoop
  refine ⟨?_, orderly.older, orderly.inOrder, ?_, orderly.exists_step, ?_⟩
  · intro first second firstInLoop secondInLoop
    have isFirst := current first firstInLoop
    have isSecond := current second secondInLoop
    omega
  · intro request member
    exact (orderly.takenByCurrent request member).2
  · intro pending actions final replayed enough
    exact orderly.launched pending replayed enough

/-- An update that arrives in the middle of a pass. -/
def updateDuringPass : List (HandshakeAction String) :=
  [.launch, .move 0 .enterLoop, .move 0 .startPass, .receive "second",
    .move 0 .discover, .move 0 .rest, .move 0 .endPass, .takeStop 0,
    .move 0 .closeInformers, .acknowledge 0, .launch, .move 1 .enterLoop]

/-- The second instance has entered its loop. -/
def secondInLoop (state : Handshake String) : Bool :=
  decide (state.configs = ["first", "second"]) &&
    decide (state.phase 1 = .atSelect)

/-- The handshake of this run, up to the loop of the second instance. -/
theorem kept_of_updateDuringPass :
    ∃ state : Handshake String,
      Reaches "first" state ∧
        secondInLoop state = true ∧
        Kept "first" state := by
  have reached :
      ∃ state, Reaches "first" state ∧ secondInLoop state = true :=
    Reachable.exists_of_replay secondInLoop rfl
      (by decide :
        (replay step (fun _ _ => True) (start "first")
          updateDuringPass).any secondInLoop = true)
  obtain ⟨state, reaches, checked⟩ := reached
  exact ⟨state, reaches, checked, kept_of_reaches reaches⟩

end Handshake

end LocalProvisioner
