import LocalProvisioner.NodeTaint

namespace LocalProvisioner

open Interleaving

/-!
# Removing the taint from a node that others change

`RemoveNodeTaint` reads the node, filters its taints and sends the whole node
back.  Between the read and the update anybody may change the node, and the
read itself may be answered from an old version.  The API server accepts an
update only if it is based on the current version, so an update that is
accepted takes the taint away from the node as it is.  The reply to an update
can get lost after the server has stored it.  The remover then takes it for a
failed one and tries again.
-/

/--
All versions of a node at the API server.  Every change of the node gets a
resource version of its own, larger than those before.
-/
structure NodeServer where
  current : NodeObject
  older : List NodeObject
  ordered :
    (current :: older).Pairwise fun newer earlier =>
      earlier.resourceVersion < newer.resourceVersion

namespace NodeServer

/-- The versions, newest first. -/
def versions (server : NodeServer) : List NodeObject :=
  server.current :: server.older

/-- A change of the node, whoever made it. -/
def publish (server : NodeServer) (object : NodeObject) : NodeServer where
  current :=
    { object with resourceVersion := server.current.resourceVersion + 1 }
  older := server.versions
  ordered := by
    rw [List.pairwise_cons]
    refine ⟨?_, server.ordered⟩
    intro earlier member
    rcases List.mem_cons.mp member with isCurrent | isOlder
    · subst earlier
      exact Nat.lt_succ_self _
    · have older := (List.pairwise_cons.mp server.ordered).1 earlier isOlder
      exact Nat.lt_succ_of_lt older

/-- A resource version identifies a version. -/
theorem eq_current
    {server : NodeServer}
    {node : NodeObject}
    (known : node ∈ server.versions)
    (same : node.resourceVersion = server.current.resourceVersion) :
    node = server.current := by
  rcases List.mem_cons.mp known with isCurrent | isOlder
  · exact isCurrent
  · have older := (List.pairwise_cons.mp server.ordered).1 node isOlder
    exact (Nat.ne_of_lt older same).elim

/-- What was a version stays one. -/
theorem mem_versions_publish
    {server : NodeServer}
    {node : NodeObject}
    (known : node ∈ server.versions)
    (object : NodeObject) :
    node ∈ (server.publish object).versions :=
  List.mem_cons_of_mem _ known

end NodeServer

/--
An update that the remover sent, the node before and after it, whether the
server has stored it, and whether the remover has been told so.
-/
structure UpdateAttempt where
  sent : NodeObject
  before : NodeObject
  after : NodeObject
  stored : Bool
  succeeded : Bool

/-- The node, and the updates that a remover has sent, newest first. -/
structure TaintWorld where
  server : NodeServer
  thisCall : List UpdateAttempt
  earlierCalls : List UpdateAttempt

/-- All updates that a remover has sent. -/
def TaintWorld.attempts (world : TaintWorld) : List UpdateAttempt :=
  world.thisCall ++ world.earlierCalls

/-- What the surroundings choose for one call. -/
structure TaintAnswers where
  outcome : ApiOutcome := .processed
  version : Nat := 0
  seconds : Nat := 0

namespace TaintWorld

/-- An update that the server does not store. -/
def refuse (world : TaintWorld) (object : NodeObject) : TaintWorld :=
  { world with
    thisCall :=
      { sent := object
        before := world.server.current
        after := world.server.current
        stored := false
        succeeded := false } :: world.thisCall }

/-- An update that the server stores, and whose reply arrives or gets lost. -/
def store
    (world : TaintWorld)
    (object : NodeObject)
    (succeeded : Bool) :
    TaintWorld :=
  { world with
    server := world.server.publish object
    thisCall :=
      { sent := object
        before := world.server.current
        after := (world.server.publish object).current
        stored := true
        succeeded } :: world.thisCall }

/-- `Update` at the API server, which refuses what is based on an old version. -/
def execUpdate
    (world : TaintWorld)
    (answers : TaintAnswers)
    (object : NodeObject) :
    Except ApiError Unit × TaintWorld :=
  match answers.outcome with
  | .rejected err => (.error err, world.refuse object)
  | .processed =>
      if object.resourceVersion = world.server.current.resourceVersion then
        (.ok (), world.store object true)
      else
        (.error (.other "the object has been modified"), world.refuse object)
  | .lost err =>
      if object.resourceVersion = world.server.current.resourceVersion then
        (.error err, world.store object false)
      else
        (.error err, world.refuse object)

/-- The effect of one call; a read may be answered from any version. -/
def exec (op : TaintOp) (answers : TaintAnswers) (world : TaintWorld) :
    Option (op.Reply × TaintWorld) :=
  match op with
  | .getNode _ =>
      match answers.outcome with
      | .rejected err => some (.error err, world)
      | .lost err => some (.error err, world)
      | .processed =>
          world.server.versions[answers.version]?.map fun node =>
            (.ok node, world)
  | .updateNode object => some (world.execUpdate answers object)
  | .randomSeconds _ => some (answers.seconds, world)
  | .sleep _ => some ((), world)
  | .fatal _ => none

end TaintWorld

/-- A remover between two of its calls, or in the course of one. -/
structure TaintState where
  rest : TaintRoutine Remover
  world : TaintWorld

/-- What can happen next. -/
inductive TaintAction where
  /-- `RemoveTaintWithBackoff` is called. -/
  | beginCall : TaintAction
  /-- The pending call of the remover is answered. -/
  | answer : TaintAnswers → TaintAction
  /-- Another client changes the node. -/
  | change : NodeObject → TaintAction

/-- One step of a run; `none` if the action is not possible. -/
def taintStep (state : TaintState) : TaintAction → Option TaintState
  | .beginCall =>
      match state.rest with
      | .done remover =>
          some {
            rest := removeTaintWithBackoff remover
            world := { state.world with
              thisCall := []
              earlierCalls := state.world.attempts }
          }
      | .call _ _ => none
  | .answer answers =>
      match state.rest with
      | .done _ => none
      | .call op next =>
          (TaintWorld.exec op answers state.world).map fun outcome =>
            { rest := next outcome.1, world := outcome.2 }
  | .change object =>
      some { state with
        world := { state.world with
          server := state.world.server.publish object } }

/-- The states in the life of a remover, on any node. -/
def TaintReaches (remover : Remover) : TaintState → Prop :=
  Reachable taintStep (fun _ _ => True) fun state =>
    ∃ server,
      state =
        { rest := .done remover
          world := { server, thisCall := [], earlierCalls := [] } }

/-!
## The order of a remover's calls
-/

/-- What a remover has done last. -/
inductive RemovalPhase where
  | unread : RemovalPhase
  | read : NodeObject → RemovalPhase
  | removed : RemovalPhase

/-- Has the remover removed the taint? -/
def RemovalPhase.isRemoved : RemovalPhase → Bool
  | .removed => true
  | _ => false

/-- The remover with the flag that belongs to a phase. -/
def Remover.inPhase (remover : Remover) (phase : RemovalPhase) : Remover :=
  { remover with taintRemoved := phase.isRemoved }

/-- The node without the taints of the remover's key. -/
def Remover.untaint (remover : Remover) (node : NodeObject) : NodeObject :=
  { node with
    taints := node.taints.filter fun taint =>
      !decide (taint.key = remover.provisionerNotReadyNodeTaintKey) }

/-- An update is sent for the node read last; after a removal there is none. -/
def RemovalPhase.Allows (remover : Remover) : RemovalPhase → TaintOp → Prop
  | .removed, _ => False
  | .unread, .updateNode _ => False
  | .read node, .updateNode object =>
      remover.removeNodeNotReadyTaint = true ∧ object = remover.untaint node
  | _, _ => True

/-- The phase after a call. -/
def RemovalPhase.after : RemovalPhase → (op : TaintOp) → op.Reply → RemovalPhase
  | _, .getNode _, (fetched : Except ApiError NodeObject) =>
      match fetched with
      | .ok node => .read node
      | .error _ => .unread
  | _, .updateNode _, (updated : Except ApiError Unit) =>
      match updated with
      | .ok _ => .removed
      | .error _ => .unread
  | phase, _, _ => phase

/-- The calls of a remover; what it has read can be forgotten. -/
def removalProtocol (remover : Remover) :
    Protocol taintSignature RemovalPhase where
  allows := RemovalPhase.Allows remover
  after := RemovalPhase.after
  silent := fun phase later => phase.isRemoved = false ∧ later = .unread
  admits := fun _ _ => True

section Conformance

variable (remover : Remover)

/-- `GetNode` ends with the node it has read. -/
theorem conforms_getNodeLoop (name : String) (remaining : Nat) :
    Conforms (removalProtocol remover)
      (fun node phase => phase = .read node) .unread
      (getNodeLoop name remaining) := by
  induction remaining with
  | zero => exact .call trivial fun (impossible : Empty) => impossible.elim
  | succ remaining inductionHypothesis =>
      apply Conforms.call trivial
      intro (fetched : Except ApiError NodeObject) _
      cases fetched with
      | ok node => exact .done rfl
      | error err =>
          change Conforms _ _ RemovalPhase.unread (if _ then _ else _)
          split
          · exact .call trivial fun (impossible : Empty) => impossible.elim
          · exact .call trivial fun _ _ => inductionHypothesis

/-- `RemoveNodeTaint` returns the remover of the phase it ends in. -/
theorem conforms_removeNodeTaint
    (enabled : remover.removeNodeNotReadyTaint = true) :
    Conforms (removalProtocol remover)
      (fun outcome phase =>
        outcome.2 = remover.inPhase phase ∧
          (outcome.1 ≠ .ok () → phase = .unread))
      .unread (removeNodeTaint (remover.inPhase .unread)) := by
  have attempts :
      (!(remover.inPhase .unread).removeNodeNotReadyTaint ||
        (remover.inPhase .unread).taintRemoved) = false := by
    simp [Remover.inPhase, enabled, RemovalPhase.isRemoved]
  rw [removeNodeTaint, attempts]
  apply Conforms.bind (conforms_getNodeLoop remover _ _)
  rintro node phase rfl
  dsimp only
  split
  · exact .done ⟨rfl, fun failed => (failed rfl).elim⟩
  · have allowed :
        RemovalPhase.Allows remover (.read node)
          (.updateNode (remover.untaint node)) :=
      ⟨enabled, rfl⟩
    apply Conforms.call allowed
    intro (updated : Except ApiError Unit) _
    cases updated with
    | error err => exact .done ⟨rfl, fun _ => rfl⟩
    | ok _ => exact .done ⟨rfl, fun failed => (failed rfl).elim⟩

/-- The loop keeps to the order and returns the remover of its last phase. -/
theorem conforms_removeTaintLoop
    (remaining retryPeriod : Nat)
    (phase : RemovalPhase) :
    Conforms (removalProtocol remover)
      (fun result phase => result = remover.inPhase phase)
      phase (removeTaintLoop remaining retryPeriod (remover.inPhase phase)) := by
  induction remaining generalizing retryPeriod phase with
  | zero => exact .done rfl
  | succ remaining inductionHypothesis =>
      rw [removeTaintLoop]
      split
      · rename_i attempts
        obtain ⟨notRemoved, enabled⟩ :
            phase.isRemoved = false ∧
              remover.removeNodeNotReadyTaint = true := by
          simpa [shouldRemoveTaint, Remover.inPhase] using attempts
        have sameFlag :
            remover.inPhase phase = remover.inPhase .unread := by
          simp only [Remover.inPhase, notRemoved]
          rfl
        have forgotten :
            (removalProtocol remover).silent phase .unread :=
          ⟨notRemoved, rfl⟩
        rw [sameFlag]
        apply Conforms.silent forgotten
        apply Conforms.bind (conforms_removeNodeTaint remover enabled)
        rintro ⟨outcome, left⟩ later ⟨rfl, failed⟩
        cases outcome with
        | ok _ => exact .done rfl
        | error err =>
            obtain rfl : later = .unread := failed (by simp)
            apply Conforms.call trivial
            intro (seconds : Nat) _
            apply Conforms.call trivial
            intro _ _
            exact inductionHypothesis (retryPeriod + seconds) .unread
      · exact .done rfl

end Conformance

/-!
## The bounds of a call
-/

section Bounds

variable {cost : TaintOp → Nat} {other update : Nat}

/-- What calls cost: an update its own price, all others the same. -/
structure Priced (cost : TaintOp → Nat) (other update : Nat) : Prop where
  getNode : ∀ name, cost (.getNode name) = other
  updateNode : ∀ object, cost (.updateNode object) = update
  randomSeconds : ∀ bound, cost (.randomSeconds bound) = other
  sleep : ∀ seconds, cost (.sleep seconds) = other
  fatal : ∀ message, cost (.fatal message) = other

/-- `klog.Fatalf` is one call. -/
theorem Priced.within_fatalf
    {α : Type}
    (priced : Priced cost other update)
    (message : String) :
    @Program.Within taintSignature α cost other (fatalf message) := by
  have once :
      @Program.Within taintSignature α cost (cost (.fatal message) + 0)
        (fatalf message) :=
    .call fun (impossible : Empty) => impossible.elim
  rwa [priced.fatal] at once

/-- A read gives up after a bounded number of calls, none of them an update. -/
theorem Priced.within_getNodeLoop
    (priced : Priced cost other update)
    (name : String)
    (remaining : Nat) :
    Program.Within cost (other + (other * (2 * remaining)))
      (getNodeLoop name remaining) := by
  induction remaining with
  | zero => exact priced.within_fatalf _
  | succ remaining inductionHypothesis =>
      have shared :
          other + other * (2 * (remaining + 1)) =
            cost (.getNode name) +
              (other + (other + other * (2 * remaining))) := by
        rw [priced.getNode, Nat.mul_add, Nat.mul_add]
        omega
      rw [shared]
      apply Program.Within.call
      intro (fetched : Except ApiError NodeObject)
      cases fetched with
      | ok node => exact .done
      | error err =>
          change Program.Within _ _ (if _ then _ else _)
          split
          · exact (priced.within_fatalf _).mono (by omega)
          · rw [← priced.sleep 1]
            exact .call fun _ => priced.sleep 1 ▸ inductionHypothesis

/-- The price of one round of the loop. -/
def roundPrice (other update : Nat) : Nat :=
  other + other * (2 * maxGetNodesRetries) + update + (other + other)

/-- One attempt reads the node and sends at most one update. -/
theorem Priced.within_removeNodeTaint
    (priced : Priced cost other update)
    (remover : Remover) :
    Program.Within cost
      (other + other * (2 * maxGetNodesRetries) + update)
      (removeNodeTaint remover) := by
  rw [removeNodeTaint]
  split
  · exact .done
  · apply Program.Within.bind (priced.within_getNodeLoop _ _)
    intro node
    dsimp only
    split
    · exact .done
    · have paid : update = cost (.updateNode (remover.untaint node)) + 0 :=
        (priced.updateNode _).symm
      rw [paid]
      apply Program.Within.call
      intro (updated : Except ApiError Unit)
      cases updated <;> exact .done

/-- The loop makes a bounded number of rounds. -/
theorem Priced.within_removeTaintLoop
    (priced : Priced cost other update)
    (remaining retryPeriod : Nat)
    (remover : Remover) :
    Program.Within cost (remaining * roundPrice other update)
      (removeTaintLoop remaining retryPeriod remover) := by
  induction remaining generalizing retryPeriod remover with
  | zero => exact .done
  | succ remaining inductionHypothesis =>
      rw [removeTaintLoop]
      split
      · have shared :
            (remaining + 1) * roundPrice other update =
              other + other * (2 * maxGetNodesRetries) + update +
                (other + (other + remaining * roundPrice other update)) := by
          rw [Nat.succ_mul, roundPrice]
          omega
        rw [shared]
        apply Program.Within.bind (priced.within_removeNodeTaint remover)
        rintro ⟨outcome, left⟩
        cases outcome with
        | ok _ => exact .done
        | error err =>
            rw [← priced.randomSeconds removeTaintRetryPeriod]
            apply Program.Within.call
            intro (seconds : Nat)
            rw [priced.randomSeconds, ← priced.sleep (retryPeriod + seconds)]
            apply Program.Within.call
            intro _
            rw [priced.sleep]
            exact inductionHypothesis _ left
      · exact .done

end Bounds

/-- One for an update, nothing for the other calls. -/
def TaintOp.updates : TaintOp → Nat
  | .updateNode _ => 1
  | _ => 0

/-- A call sends at most as many updates as there are retries. -/
theorem within_updates_removeTaintWithBackoff (remover : Remover) :
    Program.Within TaintOp.updates maxRemoveTaintRetries
      (removeTaintWithBackoff remover) := by
  have priced : Priced TaintOp.updates 0 1 :=
    ⟨fun _ => rfl, fun _ => rfl, fun _ => rfl, fun _ => rfl, fun _ => rfl⟩
  exact priced.within_removeTaintLoop maxRemoveTaintRetries 0 remover

/-- The most calls of the API server and the clock that a call can make. -/
def maxRemoverCalls : Nat :=
  maxRemoveTaintRetries * roundPrice 1 1

/-- A call ends after a bounded number of steps. -/
theorem within_calls_removeTaintWithBackoff (remover : Remover) :
    Program.Within (fun _ => 1) maxRemoverCalls
      (removeTaintWithBackoff remover) := by
  have priced : Priced (fun _ => 1) 1 1 :=
    ⟨fun _ => rfl, fun _ => rfl, fun _ => rfl, fun _ => rfl, fun _ => rfl⟩
  exact priced.within_removeTaintLoop maxRemoveTaintRetries 0 remover

/-!
## The life of a remover
-/

/--
What an update does to the node: one that is stored takes exactly the taints of
the key away, one that is not stored nothing, and one that succeeds is stored.
-/
structure UpdateAttempt.Exact (remover : Remover) (attempt : UpdateAttempt) :
    Prop where
  stored :
    attempt.stored = true →
    attempt.after.node = attempt.before.node ∧
      attempt.after.taints =
        attempt.before.taints.filter fun taint =>
          !decide (taint.key = remover.provisionerNotReadyNodeTaintKey)
  refused : attempt.stored = false → attempt.after = attempt.before
  succeeded : attempt.succeeded = true → attempt.stored = true

/-- The updates of a remover that have succeeded. -/
def TaintWorld.successes (world : TaintWorld) : List UpdateAttempt :=
  world.attempts.filter UpdateAttempt.succeeded

/-- What holds of the node and the updates sent so far in each phase. -/
structure RemovalAssertion
    (remover : Remover)
    (phase : RemovalPhase)
    (world : TaintWorld) : Prop where
  known : ∀ node, phase = .read node → node ∈ world.server.versions
  exact : ∀ attempt ∈ world.attempts, attempt.Exact remover
  counted : world.successes.length = phase.isRemoved.toNat
  enabled : world.attempts ≠ [] → remover.removeNodeNotReadyTaint = true

namespace RemovalAssertion

variable {remover : Remover} {phase : RemovalPhase} {world later : TaintWorld}

/-- Forgetting what was read. -/
theorem forget
    (holds : RemovalAssertion remover phase world)
    (notRemoved : phase.isRemoved = false) :
    RemovalAssertion remover .unread world where
  known := by
    intro node impossible
    cases impossible
  exact := holds.exact
  counted := by
    rw [holds.counted, notRemoved]
    rfl
  enabled := holds.enabled

/-- A refused update changes nothing. -/
theorem refused
    {node object : NodeObject}
    (holds : RemovalAssertion remover (.read node) world)
    (isEnabled : remover.removeNodeNotReadyTaint = true) :
    RemovalAssertion remover .unread (world.refuse object) where
  known := by
    intro node impossible
    cases impossible
  exact := by
    intro attempt member
    rcases List.mem_cons.mp member with isNew | isOld
    · subst attempt
      exact ⟨by simp, fun _ => rfl, by simp⟩
    · exact holds.exact attempt isOld
  counted := holds.counted
  enabled := fun _ => isEnabled

/--
A stored update was computed from the current node; the remover learns of it,
or has to read the node again.
-/
theorem stored
    {node : NodeObject}
    (holds : RemovalAssertion remover (.read node) world)
    (isEnabled : remover.removeNodeNotReadyTaint = true)
    (upToDate :
      node.resourceVersion = world.server.current.resourceVersion)
    (succeeded : Bool) :
    RemovalAssertion remover (if succeeded then .removed else .unread)
      (world.store (remover.untaint node) succeeded) where
  known := by
    intro node impossible
    cases succeeded <;> cases impossible
  exact := by
    have isCurrent := NodeServer.eq_current (holds.known node rfl) upToDate
    intro attempt member
    rcases List.mem_cons.mp member with isNew | isOld
    · subst attempt
      rw [← isCurrent]
      exact ⟨fun _ => ⟨rfl, rfl⟩, by simp, fun _ => rfl⟩
    · exact holds.exact attempt isOld
  counted := by
    cases succeeded with
    | true => exact congrArg (· + 1) holds.counted
    | false => exact holds.counted
  enabled := fun _ => isEnabled

/-- Every allowed call carries the assertions along. -/
theorem call
    {op : TaintOp}
    {answers : TaintAnswers}
    {reply : op.Reply}
    (holds : RemovalAssertion remover phase world)
    (allowed : phase.Allows remover op)
    (executed : TaintWorld.exec op answers world = some (reply, later)) :
    RemovalAssertion remover (phase.after op reply) later := by
  cases op with
  | getNode name =>
      have notRemoved : phase.isRemoved = false := by
        cases phase with
        | removed => exact allowed.elim
        | _ => rfl
      have forgotten := holds.forget notRemoved
      simp only [TaintWorld.exec] at executed
      split at executed
      · cases executed
        exact forgotten
      · cases executed
        exact forgotten
      · obtain ⟨node, found, same⟩ := Option.map_eq_some_iff.mp executed
        cases same
        refine ⟨?_, forgotten.exact, forgotten.counted, forgotten.enabled⟩
        intro other isRead
        cases isRead
        exact List.mem_of_getElem? found
  | updateNode object =>
      cases phase with
      | unread => exact allowed.elim
      | removed => exact allowed.elim
      | read node =>
          obtain ⟨isEnabled, rfl⟩ := allowed
          have executed := Option.some.inj executed
          unfold TaintWorld.execUpdate at executed
          split at executed
          · cases executed
            exact holds.refused isEnabled
          · split at executed
            · rename_i upToDate
              cases executed
              exact holds.stored isEnabled upToDate true
            · cases executed
              exact holds.refused isEnabled
          · split at executed
            · rename_i upToDate
              cases executed
              exact holds.stored isEnabled upToDate false
            · cases executed
              exact holds.refused isEnabled
  | randomSeconds bound =>
      cases executed
      exact holds
  | sleep seconds =>
      cases executed
      exact holds
  | fatal message => cases executed

/-- Another client's change invalidates no assertion. -/
theorem changed
    (holds : RemovalAssertion remover phase world)
    (object : NodeObject) :
    RemovalAssertion remover phase
      { world with server := world.server.publish object } where
  known := fun node isRead =>
    NodeServer.mem_versions_publish (holds.known node isRead) object
  exact := holds.exact
  counted := holds.counted
  enabled := holds.enabled

/-- The assertions form an outline of the protocol. -/
theorem outline :
    Outline (removalProtocol remover) TaintWorld.exec (fun _ _ _ => True)
      (RemovalAssertion remover) where
  silent := by
    rintro phase later world ⟨notRemoved, rfl⟩ holds
    exact holds.forget notRemoved
  call := fun allowed holds _ executed =>
    ⟨trivial, holds.call allowed executed⟩

end RemovalAssertion

/-- Only an update adds to the updates of a call. -/
theorem TaintWorld.length_thisCall_of_exec
    {op : TaintOp}
    {answers : TaintAnswers}
    {world later : TaintWorld}
    {reply : op.Reply}
    (executed : TaintWorld.exec op answers world = some (reply, later)) :
    later.thisCall.length = op.updates + world.thisCall.length := by
  cases op with
  | getNode name =>
      simp only [TaintWorld.exec] at executed
      split at executed
      · cases executed
        simp [TaintOp.updates]
      · cases executed
        simp [TaintOp.updates]
      · obtain ⟨node, _, same⟩ := Option.map_eq_some_iff.mp executed
        cases same
        simp [TaintOp.updates]
  | updateNode object =>
      have executed := Option.some.inj executed
      unfold TaintWorld.execUpdate at executed
      split at executed
      · cases executed
        simp [TaintOp.updates, TaintWorld.refuse, Nat.add_comm]
      · split at executed <;>
          · cases executed
            simp [TaintOp.updates, TaintWorld.refuse, TaintWorld.store,
              Nat.add_comm]
      · split at executed <;>
          · cases executed
            simp [TaintOp.updates, TaintWorld.refuse, TaintWorld.store,
              Nat.add_comm]
  | randomSeconds bound =>
      cases executed
      simp [TaintOp.updates]
  | sleep seconds =>
      cases executed
      simp [TaintOp.updates]
  | fatal message => cases executed

/-- A remover in its life: on its outline and within its bounds. -/
structure OnTrack (remover : Remover) (state : TaintState) : Prop where
  follows :
    Follows (removalProtocol remover) (RemovalAssertion remover)
      (fun result phase => result = remover.inPhase phase)
      state.rest state.world
  updates :
    ∃ left,
      Program.Within TaintOp.updates left state.rest ∧
        state.world.thisCall.length + left ≤ maxRemoveTaintRetries
  ending : Program.Within (fun _ => 1) maxRemoverCalls state.rest

namespace OnTrack

variable {remover : Remover} {state next : TaintState}

/-- A new remover is on track. -/
theorem new
    (node : Node)
    (isEnabled : Bool)
    (taintKey : String)
    (server : NodeServer) :
    OnTrack (newRemover node isEnabled taintKey)
      { rest := .done (newRemover node isEnabled taintKey)
        world := { server, thisCall := [], earlierCalls := [] } } where
  follows := by
    refine ⟨.unread, ⟨?_, ?_, rfl, ?_⟩, .done rfl⟩
    · intro node impossible
      cases impossible
    · intro attempt member
      cases member
    · intro nonempty
      exact (nonempty rfl).elim
  updates := ⟨0, .done, by simp⟩
  ending := .done

/-- Every step keeps a remover on track. -/
theorem step
    {action : TaintAction}
    (onTrack : OnTrack remover state)
    (stepped : taintStep state action = some next) :
    OnTrack remover next := by
  obtain ⟨rest, world⟩ := state
  obtain ⟨follows, ⟨left, within, budget⟩, ending⟩ := onTrack
  cases action with
  | beginCall =>
      cases rest with
      | call op next => cases stepped
      | done result =>
          cases stepped
          obtain ⟨phase, holds, rfl⟩ :=
            follows.atDone RemovalAssertion.outline
          refine ⟨⟨phase, ?_, ?_⟩, ⟨maxRemoveTaintRetries, ?_, ?_⟩, ?_⟩
          · exact ⟨holds.known, holds.exact, holds.counted, holds.enabled⟩
          · exact conforms_removeTaintLoop remover _ _ phase
          · exact within_updates_removeTaintWithBackoff _
          · simp
          · exact within_calls_removeTaintWithBackoff _
  | answer answers =>
      cases rest with
      | done result => cases stepped
      | call op next =>
          obtain ⟨⟨reply, later⟩, executed, rfl⟩ :=
            Option.map_eq_some_iff.mp stepped
          have longer := TaintWorld.length_thisCall_of_exec executed
          obtain ⟨remaining, rfl, continues⟩ := within.of_call
          obtain ⟨fewer, counted, ends⟩ := ending.of_call
          refine ⟨?_, ⟨remaining, continues reply, ?_⟩, ?_⟩
          · exact follows.exec_call RemovalAssertion.outline trivial executed
          · simp only at longer budget ⊢
            omega
          · exact (ends reply).mono (by omega)
  | change object =>
      cases stepped
      refine ⟨?_, ⟨left, within, budget⟩, ending⟩
      exact follows.moved fun phase holds => holds.changed object

end OnTrack

/--
What is promised in every state of a remover's life: a call ends after a
bounded number of updates; at most one update ever succeeds; an update that the
server stores takes exactly the taints of the key away, and any other one
nothing; the flag tells whether one has succeeded; a disabled remover sends
none.
-/
structure SafeRemoval (remover : Remover) (state : TaintState) : Prop where
  bounded : state.world.thisCall.length ≤ maxRemoveTaintRetries
  ending : Program.Within (fun _ => 1) maxRemoverCalls state.rest
  once : state.world.successes.length ≤ 1
  exact : ∀ attempt ∈ state.world.attempts, attempt.Exact remover
  flag :
    ∀ result,
      state.rest = .done result →
      result =
        { remover with taintRemoved := decide (state.world.successes ≠ []) }
  disabled :
    remover.removeNodeNotReadyTaint = false → state.world.attempts = []

/-- The removal of the taint is safe, whatever other clients do to the node. -/
theorem taint_removal_safe
    {node : Node}
    {isEnabled : Bool}
    {taintKey : String}
    {state : TaintState}
    (reaches : TaintReaches (newRemover node isEnabled taintKey) state) :
    SafeRemoval (newRemover node isEnabled taintKey) state := by
  have onTrack : OnTrack (newRemover node isEnabled taintKey) state := by
    refine Reachable.invariant ?_ ?_ reaches
    · rintro state ⟨server, rfl⟩
      exact .new node isEnabled taintKey server
    · intro state action next onTrack _ stepped
      exact onTrack.step stepped
  obtain ⟨follows, ⟨left, _, budget⟩, ending⟩ := onTrack
  have inPhase := follows
  obtain ⟨phase, holds, _⟩ := inPhase
  constructor
  · omega
  · exact ending
  · rw [holds.counted]
    exact Bool.toNat_le phase.isRemoved
  · exact holds.exact
  · intro result isDone
    rw [isDone] at follows
    obtain ⟨last, holdsLast, rfl⟩ := follows.atDone RemovalAssertion.outline
    have flagged :
        last.isRemoved = decide (state.world.successes ≠ []) := by
      have counted := holdsLast.counted
      cases removed : last.isRemoved with
      | false => simp_all
      | true =>
          rw [removed] at counted
          have some : state.world.successes ≠ [] := by
            intro none
            simp [none] at counted
          simp [some]
    rw [Remover.inPhase, flagged]
  · intro isDisabled
    by_contra nonempty
    have isEnabledToo := holds.enabled nonempty
    rw [isDisabled] at isEnabledToo
    cases isEnabledToo

/-- A node with the taint of the provisioner and another one. -/
def sampleTaintedNode (value : String) : NodeObject where
  node := sampleNode
  resourceVersion := 7
  taints :=
    [{ key := "not-ready", value := "", effect := "NoSchedule" },
      { key := "other", value, effect := "NoSchedule" }]

/-- A remover on that node before its first call. -/
def sampleTaintState : TaintState where
  rest := .done (newRemover sampleNode true "not-ready")
  world :=
    { server := ⟨sampleTaintedNode "", [], by simp⟩
      thisCall := []
      earlierCalls := [] }

/-- A replayed run of the remover reaches the state it ends in. -/
theorem exists_of_sampleTaintRun
    {actions : List TaintAction}
    (check : TaintState → Bool)
    (checked :
      (@replay _ _ taintStep (fun _ _ => True) (fun _ _ => .isTrue trivial)
        sampleTaintState actions).any check = true) :
    ∃ state,
      TaintReaches (newRemover sampleNode true "not-ready") state ∧
        check state = true :=
  @Reachable.exists_of_replay _ _ taintStep (fun _ _ => True) _
    (fun _ _ => .isTrue trivial) actions _ check ⟨_, rfl⟩ checked

/-- The node is changed after it was read, and the second update succeeds. -/
def sampleRemoval : List TaintAction :=
  [.beginCall, .answer {}, .change (sampleTaintedNode "changed"), .answer {},
    .answer { seconds := 2 }, .answer {}, .answer {}, .answer {}]

theorem taint_removal_safe_of_sampleRemoval :
    ∃ state,
      TaintReaches (newRemover sampleNode true "not-ready") state ∧
        state.world.attempts.map UpdateAttempt.succeeded = [true, false] ∧
        SafeRemoval (newRemover sampleNode true "not-ready") state := by
  obtain ⟨state, reaches, checked⟩ :=
    @exists_of_sampleTaintRun sampleRemoval
      (fun state =>
        decide (state.world.attempts.map UpdateAttempt.succeeded =
          [true, false]))
      (by decide)
  exact ⟨state, reaches, of_decide_eq_true checked,
    taint_removal_safe reaches⟩

/--
The reply to the first update gets lost, the next read finds no taint and the
call ends.  Another client puts the taint back, and a second call removes it.
-/
def lostReplyRemoval : List TaintAction :=
  [.beginCall, .answer {}, .answer { outcome := .lost (.other "timeout") },
    .answer { seconds := 2 }, .answer {}, .answer {},
    .change (sampleTaintedNode ""), .beginCall, .answer {}, .answer {}]

/--
An update that fails for the remover has changed the node, and two of its
updates have taken effect.
-/
theorem failed_update_changes_node :
    ∃ state,
      TaintReaches (newRemover sampleNode true "not-ready") state ∧
        state.world.attempts.map UpdateAttempt.stored = [true, true] ∧
        ∃ attempt ∈ state.world.attempts,
          attempt.succeeded = false ∧
            attempt.before.taints.length = 2 ∧
            attempt.after.taints.length = 1 := by
  obtain ⟨state, reaches, checked⟩ :=
    @exists_of_sampleTaintRun lostReplyRemoval
      (fun state =>
        decide (state.world.attempts.map UpdateAttempt.stored = [true, true] ∧
          ∃ attempt ∈ state.world.attempts,
            attempt.succeeded = false ∧
              attempt.before.taints.length = 2 ∧
              attempt.after.taints.length = 1))
      (by decide)
  exact ⟨state, reaches, of_decide_eq_true checked⟩

end LocalProvisioner
