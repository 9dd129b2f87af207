import LocalProvisioner.SyncLoop

namespace LocalProvisioner

/-!
# The not-ready taint

The provisioner can be told to remove a taint from its node once discovery has
succeeded.  The remover fetches the node, filters its taints, and sends an
update, at most three times in a row with a growing pause.  The sync loop asks
for it after each pass.

The model keeps the source's guard of that request, which is the negation of
the one its comments describe.
-/

open Interleaving

/-- `v1.Taint`. -/
structure Taint where
  key : String
  value : String
  effect : String
  deriving Repr, DecidableEq

/-- A node as the API server returns it, with what an update depends on. -/
structure NodeObject where
  node : Node
  resourceVersion : Nat
  taints : List Taint

/-- The calls that removing the taint makes; `fatal` ends the process. -/
inductive TaintOp where
  | getNode : (name : String) → TaintOp
  | updateNode : NodeObject → TaintOp
  | randomSeconds : (bound : Nat) → TaintOp
  | sleep : (seconds : Nat) → TaintOp
  | fatal : (message : String) → TaintOp

/-- The reply type of each call. -/
def TaintOp.Reply : TaintOp → Type
  | .getNode _ => Except ApiError NodeObject
  | .updateNode _ => Except ApiError Unit
  | .randomSeconds _ => Nat
  | .sleep _ => Unit
  | .fatal _ => Empty

/-- The signature of the taint remover. -/
abbrev taintSignature : Signature where
  Op := TaintOp
  Reply := TaintOp.Reply

/-- A routine of the taint remover. -/
abbrev TaintRoutine (α : Type) := Program taintSignature α

namespace TaintOp

/-- Make one call of the taint remover. -/
def perform (op : TaintOp) : TaintRoutine op.Reply :=
  @Program.perform taintSignature op

end TaintOp

/-- `klog.Fatalf`. -/
def fatalf {α : Type} (message : String) : TaintRoutine α :=
  .call (TaintOp.fatal message) fun impossible : Empty => nomatch impossible

/-- `maxGetNodesRetries`. -/
def maxGetNodesRetries : Nat := 3

/-- The loop of `GetNode` with the attempts that are left. -/
def getNodeLoop (name : String) : Nat → TaintRoutine NodeObject
  | 0 => fatalf "Could not get node information"
  | remaining + 1 => do
      match ← TaintOp.perform (.getNode name) with
      | .ok node => pure node
      | .error err =>
          if remaining = 0 then
            fatalf ("Could not get node information: " ++ err.text)
          else do
            let _ ← TaintOp.perform (.sleep 1)
            getNodeLoop name remaining

/-- `GetNode`. -/
def getNode (name : String) : TaintRoutine NodeObject :=
  getNodeLoop name maxGetNodesRetries

/-- `Remover` with the fields of its configuration that it reads. -/
structure Remover where
  nodeName : String
  removeNodeNotReadyTaint : Bool
  provisionerNotReadyNodeTaintKey : String
  taintRemoved : Bool
  deriving Repr, DecidableEq

/-- `NewRemover`. -/
def newRemover
    (node : Node)
    (removeNodeNotReadyTaint : Bool)
    (provisionerNotReadyNodeTaintKey : String) :
    Remover where
  nodeName := node.name
  removeNodeNotReadyTaint := removeNodeNotReadyTaint
  provisionerNotReadyNodeTaintKey := provisionerNotReadyNodeTaintKey
  taintRemoved := false

/-- `RemoveNodeTaint`, with the remover it leaves behind. -/
def removeNodeTaint (remover : Remover) :
    TaintRoutine (Except ApiError Unit × Remover) :=
  if !remover.removeNodeNotReadyTaint || remover.taintRemoved then
    pure (.ok (), remover)
  else do
    let node ← getNode remover.nodeName
    let isNotReadyTaint (taint : Taint) : Bool :=
      decide (taint.key = remover.provisionerNotReadyNodeTaintKey)
    let currTaints := node.taints.filter fun taint => !isNotReadyTaint taint
    if !node.taints.any isNotReadyTaint then
      pure (.ok (), remover)
    else
      match ← TaintOp.perform
          (.updateNode { node with taints := currTaints }) with
      | .error err => pure (.error err, remover)
      | .ok _ => pure (.ok (), { remover with taintRemoved := true })

/-- `ShouldRemoveTaint`. -/
def shouldRemoveTaint (remover : Remover) : Bool :=
  !remover.taintRemoved && remover.removeNodeNotReadyTaint

/-- `maxRemoveTaintRetries`. -/
def maxRemoveTaintRetries : Nat := 3

/-- `removeTaintRetryPeriod` in seconds. -/
def removeTaintRetryPeriod : Nat := 5

/-- The loop of `RemoveTaintWithBackoff` with the attempts that are left. -/
def removeTaintLoop : Nat → Nat → Remover → TaintRoutine Remover
  | 0, _, remover => pure remover
  | remaining + 1, retryPeriod, remover =>
      if shouldRemoveTaint remover then do
        let (outcome, remover) ← removeNodeTaint remover
        match outcome with
        | .ok _ => pure remover
        | .error _ => do
            let randomSeconds : Nat ←
              TaintOp.perform (.randomSeconds removeTaintRetryPeriod)
            let _ ← TaintOp.perform (.sleep (retryPeriod + randomSeconds))
            removeTaintLoop remaining (retryPeriod + randomSeconds) remover
      else
        pure remover

/-- `RemoveTaintWithBackoff`. -/
def removeTaintWithBackoff (remover : Remover) : TaintRoutine Remover :=
  removeTaintLoop maxRemoveTaintRetries 0 remover

/-!
## The loop of the controller
-/

/-- The calls of one round of the loop of `StartLocalController`. -/
inductive LoopOp where
  | sync : Op → LoopOp
  | taint : TaintOp → LoopOp
  | checkReady : LoopOp
  | sleepDiscoveryPeriod : LoopOp

/-- The reply type of each call; a readiness check passes or fails. -/
def LoopOp.Reply : LoopOp → Type
  | .sync op => op.Reply
  | .taint op => op.Reply
  | .checkReady => Bool
  | .sleepDiscoveryPeriod => Unit

/-- The signature of the loop. -/
abbrev loopSignature : Signature where
  Op := LoopOp
  Reply := LoopOp.Reply

/-- A routine of the loop. -/
abbrev LoopRoutine (α : Type) := Program loopSignature α

namespace LoopOp

/-- Make one call of the loop. -/
def perform (op : LoopOp) : LoopRoutine op.Reply :=
  @Program.perform loopSignature op

/-- A routine of the sync pass as a part of the loop. -/
def ofSync {α : Type} (routine : Routine α) : LoopRoutine α :=
  @Program.embed syncSignature α loopSignature LoopOp.sync
    (fun _ reply => reply) routine

/-- A routine of the taint remover as a part of the loop. -/
def ofTaint {α : Type} (routine : TaintRoutine α) : LoopRoutine α :=
  @Program.embed taintSignature α loopSignature LoopOp.taint
    (fun _ reply => reply) routine

end LoopOp

/-- The request to remove the taint after a pass, with the source's guard. -/
def removeTaintIfReady (remover : Remover) : LoopRoutine Remover :=
  if !shouldRemoveTaint remover then do
    match ← LoopOp.perform .checkReady with
    | true => LoopOp.ofTaint (removeTaintWithBackoff remover)
    | false => pure remover
  else
    pure remover

/-- The default case of the loop after `DiscoverLocalVolumes`. -/
def finishIteration (remover : Remover) : LoopRoutine Remover := do
  let remover ← removeTaintIfReady remover
  let _ ← LoopOp.perform .sleepDiscoveryPeriod
  pure remover

/-- The readiness flag, and the calls of the current round, newest first. -/
structure LoopWorld where
  ready : Bool
  calls : List LoopOp

/-- A call is answered from outside, apart from the readiness check. -/
abbrev LoopAnswer := (op : LoopOp) → Option op.Reply

namespace LoopWorld

/-- The reply to a call. -/
def reply (world : LoopWorld) (answer : LoopAnswer) :
    (op : LoopOp) → Option op.Reply
  | .checkReady => some world.ready
  | op => answer op

/-- Only the end of `DiscoverLocalVolumes` changes the readiness flag. -/
def after (world : LoopWorld) (op : LoopOp) : LoopWorld where
  ready :=
    match op with
    | .sync (.setReady ready) => ready
    | _ => world.ready
  calls := op :: world.calls

/-- One call of a round. -/
def exec (op : LoopOp) (answer : LoopAnswer) (world : LoopWorld) :
    Option (op.Reply × LoopWorld) :=
  (world.reply answer op).map fun reply => (reply, world.after op)

end LoopWorld

/-- The loop between two rounds. -/
structure LoopState where
  remover : Remover
  world : LoopWorld

/-- A round up to the end of `DiscoverLocalVolumes`. -/
def discoverRound
    (discoverer : Discoverer)
    (state : LoopState)
    (answers : List LoopAnswer) :
    Option LoopWorld :=
  ((LoopOp.ofSync (syncPass discoverer)).execute LoopWorld.exec
    { state.world with calls := [] } answers).map Prod.snd

/-- The rest of a round. -/
def finishRound
    (remover : Remover)
    (discovered : LoopWorld)
    (answers : List LoopAnswer) :
    Option LoopState :=
  ((finishIteration remover).execute LoopWorld.exec discovered answers).map
    fun ended => { remover := ended.1, world := ended.2 }

/-- The answers to the calls of a round. -/
structure RoundAnswers where
  discovery : List LoopAnswer
  request : List LoopAnswer

/-- One round of the loop. -/
def iterate
    (discoverer : Discoverer)
    (state : LoopState)
    (answers : RoundAnswers) :
    Option LoopState :=
  (discoverRound discoverer state answers.discovery).bind fun discovered =>
    finishRound state.remover discovered answers.request

/-- The states of the loop between rounds, whatever its calls are answered. -/
def LoopReaches (discoverer : Discoverer) (start : Remover) :
    LoopState → Prop :=
  Reachable (iterate discoverer) (fun _ _ => True) fun state =>
    state = { remover := start, world := { ready := false, calls := [] } }

/-- `RemoveNodeTaint` has been attempted: it starts by fetching the node. -/
def LoopState.Attempted (state : LoopState) : Prop :=
  ∃ name, .taint (.getNode name) ∈ state.world.calls

/--
An attempt if the readiness check passes after `DiscoverLocalVolumes` and the
taint has not been removed, and none if the check fails.
-/
structure TaintHandled
    (remover : Remover)
    (discovered : LoopWorld)
    (after : LoopState) : Prop where
  attempted :
    discovered.ready = true →
    remover.taintRemoved = false →
    after.Attempted
  patient :
    discovered.ready = false →
    ¬ after.Attempted

/-!
## What the guard lets through
-/

/-- A call that has nothing to do with the taint. -/
def LoopOp.Elsewhere : LoopOp → Prop
  | .taint _ => False
  | _ => True

/-- The calls of a round so far have nothing to do with the taint. -/
def LoopWorld.Untouched (world : LoopWorld) : Prop :=
  ∀ op ∈ world.calls, op.Elsewhere

/-- A program without calls about the taint leaves a round untouched. -/
theorem LoopWorld.Untouched.execute
    {α : Type}
    {program : LoopRoutine α}
    {world : LoopWorld}
    {answers : List LoopAnswer}
    {ended : α × LoopWorld}
    (untouched : world.Untouched)
    (only : Program.Only LoopOp.Elsewhere program)
    (executed : program.execute LoopWorld.exec world answers = some ended) :
    ended.2.Untouched := by
  apply only.execute LoopWorld.Untouched _ untouched executed
  intro op answer earlier reply after isElsewhere before executedCall
  obtain ⟨_, _, replied⟩ := Option.map_eq_some_iff.mp executedCall
  cases replied
  intro called member
  rcases List.mem_cons.mp member with rfl | older
  · exact isElsewhere
  · exact before called older

/-- A sync pass never touches the taint. -/
theorem untouched_of_discoverRound
    {discoverer : Discoverer}
    {state : LoopState}
    {discovered : LoopWorld}
    {answers : List LoopAnswer}
    (passed : discoverRound discoverer state answers = some discovered) :
    discovered.Untouched := by
  obtain ⟨ended, executed, rfl⟩ := Option.map_eq_some_iff.mp passed
  have only :
      Program.Only LoopOp.Elsewhere (LoopOp.ofSync (syncPass discoverer)) :=
    .embed (fun _ => trivial) _
  have nothingYet :
      LoopWorld.Untouched { state.world with calls := [] } := by
    intro op called
    cases called
  exact nothingYet.execute only executed

/-- While the taint should be removed, the request does nothing about it. -/
theorem only_finishIteration
    {remover : Remover}
    (due : shouldRemoveTaint remover = true) :
    Program.Only LoopOp.Elsewhere (finishIteration remover) := by
  apply Program.Only.bind
  · rw [removeTaintIfReady, due]
    exact .done
  · intro _
    exact .call trivial fun _ => .done

/-- While the taint should be removed, a round leaves the remover as it is. -/
theorem remover_of_finishRound
    {remover : Remover}
    {discovered : LoopWorld}
    {next : LoopState}
    {answers : List LoopAnswer}
    (due : shouldRemoveTaint remover = true)
    (finished : finishRound remover discovered answers = some next) :
    next.remover = remover := by
  obtain ⟨ended, executed, rfl⟩ := Option.map_eq_some_iff.mp finished
  obtain ⟨_, _, requested, _, _, guarded, afterRequest⟩ :=
    Program.execute_bind executed
  obtain ⟨_, _, _, _, _, _, afterSleep⟩ := Program.execute_bind afterRequest
  have passedOn : ended.1 = requested :=
    congrArg Prod.fst (Program.execute_done afterSleep)
  rw [removeTaintIfReady, due] at guarded
  have unchanged : requested = remover :=
    congrArg Prod.fst (Program.execute_done guarded)
  rw [passedOn, unchanged]

/-- While the taint should be removed, a round does not attempt to. -/
theorem not_attempted_of_finishRound
    {remover : Remover}
    {discovered : LoopWorld}
    {next : LoopState}
    {answers : List LoopAnswer}
    (due : shouldRemoveTaint remover = true)
    (untouched : discovered.Untouched)
    (finished : finishRound remover discovered answers = some next) :
    ¬ next.Attempted := by
  obtain ⟨ended, executed, rfl⟩ := Option.map_eq_some_iff.mp finished
  have stillUntouched :=
    untouched.execute (only_finishIteration due) executed
  intro attempted
  obtain ⟨name, called⟩ := attempted
  exact stillUntouched _ called

/-- A remover that should remove the taint stays as it was made. -/
theorem remover_of_reaches
    {discoverer : Discoverer}
    {start : Remover}
    {state : LoopState}
    (due : shouldRemoveTaint start = true)
    (reaches : LoopReaches discoverer start state) :
    state.remover = start := by
  induction reaches with
  | initial started => rw [started]
  | advance answers _ _ iterated unchanged =>
      obtain ⟨discovered, _, finished⟩ :=
        Option.bind_eq_some_iff.mp iterated
      rw [← unchanged] at due
      rw [remover_of_finishRound due finished, unchanged]

/--
In every round of every run with the removal of the taint switched on, the
taint is handled exactly if the readiness check fails after discovery: nothing
is ever attempted.
-/
theorem taintHandled_iff_unready
    {discoverer : Discoverer}
    {taintKey : String}
    {state next : LoopState}
    {discovered : LoopWorld}
    {answers : RoundAnswers}
    (reaches :
      LoopReaches discoverer (newRemover discoverer.node true taintKey) state)
    (passed : discoverRound discoverer state answers.discovery = some discovered)
    (finished : finishRound state.remover discovered answers.request = some next) :
    TaintHandled state.remover discovered next ↔
      discovered.ready = false := by
  have unchanged := remover_of_reaches rfl reaches
  have due : shouldRemoveTaint state.remover = true := by
    rw [unchanged]
    rfl
  have notRemoved : state.remover.taintRemoved = false := by
    rw [unchanged]
    rfl
  have notAttempted :=
    not_attempted_of_finishRound due (untouched_of_discoverRound passed) finished
  constructor
  · intro handled
    by_contra isReady
    have ready : discovered.ready = true := by simpa using isReady
    exact notAttempted (handled.attempted ready notRemoved)
  · intro unready
    constructor
    · intro ready
      rw [unready] at ready
      cases ready
    · intro _
      exact notAttempted

/-- Answers in a cluster without PVs and a configuration without classes. -/
def idleAnswer : LoopAnswer
  | .sync .listPVs => some []
  | .sync (.rangeDiscoveryMap _) => some []
  | .sync (.setReady _) => some ()
  | .sleepDiscoveryPeriod => some ()
  | _ => none

/-- The remover of the sample node. -/
def idleRemover : Remover :=
  newRemover sampleNode true "not-ready"

/-- The loop of a provisioner without classes, before its first round. -/
def idleStart : LoopState where
  remover := idleRemover
  world := { ready := false, calls := [] }

/-- The same loop after the first discovery. -/
def idleDiscovered : LoopWorld where
  ready := true
  calls := [
    .sync (.setReady true), .sync (.rangeDiscoveryMap ∅), .sync .listPVs]

/-- The answers of the round. -/
def idleAnswers : RoundAnswers where
  discovery := List.replicate 3 idleAnswer
  request := [idleAnswer]

/-- The loop after the round. -/
def idleRound : LoopState where
  remover := idleRemover
  world := idleDiscovered.after .sleepDiscoveryPeriod

theorem discoverRound_idleStart :
    discoverRound (sampleDiscoverer false ∅) idleStart idleAnswers.discovery =
      some idleDiscovered :=
  rfl

theorem finishRound_idleDiscovered :
    finishRound idleStart.remover idleDiscovered idleAnswers.request =
      some idleRound :=
  rfl

/-- The equivalence for this round. -/
theorem taintHandled_iff_unready_of_idleRound :
    LoopReaches (sampleDiscoverer false ∅) idleRemover idleStart ∧
      (TaintHandled idleStart.remover idleDiscovered idleRound ↔
        idleDiscovered.ready = false) :=
  ⟨.initial rfl,
    taintHandled_iff_unready
      (.initial rfl : LoopReaches (sampleDiscoverer false ∅) _ idleStart)
      discoverRound_idleStart finishRound_idleDiscovered⟩

/-- The node is ready, and the taint that is still there is left alone. -/
theorem taint_left_on_ready_node :
    ∃ discoverer taintKey state discovered next,
    ∃ answers : RoundAnswers,
      LoopReaches discoverer (newRemover discoverer.node true taintKey)
          state ∧
        discoverRound discoverer state answers.discovery = some discovered ∧
        finishRound state.remover discovered answers.request = some next ∧
        ¬ TaintHandled state.remover discovered next := by
  refine ⟨_, _, _, _, _, idleAnswers, .initial rfl, discoverRound_idleStart,
    finishRound_idleDiscovered, ?_⟩
  intro handled
  obtain ⟨name, called⟩ := handled.attempted rfl rfl
  simp [idleRound, idleDiscovered, LoopWorld.after] at called

end LocalProvisioner
