import LocalProvisioner.DelayQueue
import LocalProvisioner.NodeCleanup

namespace LocalProvisioner

namespace NodeCleanup

open Interleaving

/-!
# The grace period of PVCs

The cleanup controller deletes a PVC if the nodes of its PV have not come back
within `pvcDeletionDelay`.  Timers are filed under PV names and are not
cancelled when a node comes back.  If the node is deleted once more while the
first timer is running, the queue keeps the earlier ready time, and the PVC is
deleted before a full delay has passed.

The delay is kept in every run in which no node is the last of a PV to be
deleted while a timer of that PV is about to run out, or has run out and the
PV is queued up.

The node lister is taken to show the nodes as they are, and a delivery of the
queue runs to its end before a node changes again.  The clock starts with the
scan at startup.
-/

/-- The nodes of the cluster. -/
abbrev NodeStore := ObjectStore Node Node.name

/-- The PVCs of the cluster. -/
abbrev PVCStore := ObjectStore PersistentVolumeClaim PersistentVolumeClaim.key

/-- The affinity of a PV names a node, by its name or its hostname label. -/
def names (pv : PersistentVolume) (node : Node) : Bool :=
  (getLocalPersistentVolumeNodeNames pv).any fun nodeNames =>
    nodeNames.any fun nodeName =>
      decide (node.name = nodeName ∨
        node.labels.lookup hostnameLabel = some nodeName)

/-- Some node is named by the affinity of a PV. -/
def hasNamedNode (nodes : NodeStore) (pv : PersistentVolume) : Bool :=
  nodes.list.any (names pv)

/-- The nodes of a past stretch of time, and when it ended. -/
structure NodeSpan where
  nodes : NodeStore
  ended : Nat

/-- The state of the cleanup controller and what it observes. -/
structure ControllerState where
  now : Nat
  nodes : NodeStore
  past : List NodeSpan
  pvs : ObjectStore PersistentVolume PersistentVolume.name
  pvcs : PVCStore
  deletedNodes : Nat
  pvQueue : DelayQueue String

/-- The effect of a call on the queue; the rate limiter chooses the backoff. -/
def queueCall
    (now backoff : Nat)
    (queue : DelayQueue String) :
    CleanupOp → DelayQueue String
  | .addAfter pvName delay => queue.addAfter now delay pvName
  | .addRateLimited pvName => queue.addAfter now backoff pvName
  | _ => queue

namespace ControllerState

/-- The contents of the listers. -/
def listers (state : ControllerState) : Listers where
  pvs := state.pvs
  nodes := state.nodes
  pvcs := state.pvcs

/-- Run a routine to its end. -/
def run
    (state : ControllerState)
    (routine : CleanupRoutine Unit)
    (outcome : CleanupOp → Except ApiError Unit)
    (backoff : Nat) :
    ControllerState :=
  { state with
    pvQueue :=
      (routine.calls (state.listers.answer outcome)).foldl
        (queueCall state.now backoff) state.pvQueue }

/-- The nodes change. -/
def moveNodes (state : ControllerState) (nodes : NodeStore) :
    ControllerState :=
  { state with
    nodes
    past := { nodes := state.nodes, ended := state.now } :: state.past }

/-- One scan for PVs whose nodes are gone. -/
def scan (state : ControllerState) (config : CleanupConfig) :
    ControllerState :=
  state.run (startCleanupTimersIfNeeded config) (fun _ => .ok ()) 0

end ControllerState

/-- What can happen next. -/
inductive ControllerAction where
  | tick : (duration : Nat) → ControllerAction
  | createNode : Node → ControllerAction
  | deleteNode : (nodeName : String) → ControllerAction
  | nodeDeleted : ControllerAction
  | ripen : (pvName : String) → ControllerAction
  | deliver :
      (outcome : CleanupOp → Except ApiError Unit) →
      (backoff : Nat) →
      ControllerAction
  | updatePV : PersistentVolume → ControllerAction
  | replacePVCs : PVCStore → ControllerAction

/-- One step of the controller; `none` if the action is not possible. -/
def controllerStep (config : CleanupConfig) (state : ControllerState) :
    ControllerAction → Option ControllerState
  | .tick duration => some { state with now := state.now + duration }
  | .createNode node =>
      match state.nodes.get node.name with
      | some _ => none
      | none => some (state.moveNodes (state.nodes.put node))
  | .deleteNode nodeName =>
      match state.nodes.get nodeName with
      | none => none
      | some _ =>
          some { state.moveNodes (state.nodes.drop nodeName) with
            deletedNodes := state.deletedNodes + 1 }
  | .nodeDeleted =>
      match state.deletedNodes with
      | 0 => none
      | rest + 1 => some ({ state with deletedNodes := rest }.scan config)
  | .ripen pvName =>
      (state.pvQueue.ripen state.now pvName).map fun pvQueue =>
        { state with pvQueue }
  | .deliver outcome backoff =>
      match state.pvQueue.ready with
      | [] => none
      | pvName :: rest =>
          some ({ state with
            pvQueue := { state.pvQueue with ready := rest } }.run
              (processNextWorkItem pvName) outcome backoff)
  | .updatePV pv =>
      match state.pvs.get pv.name with
      | none => none
      | some current =>
          if current.nodeAffinity = pv.nodeAffinity then
            some { state with pvs := state.pvs.put pv }
          else
            none
  | .replacePVCs pvcs => some { state with pvcs }

/-- The state after the scan at startup. -/
def startup
    (config : CleanupConfig)
    (nodes : NodeStore)
    (pvs : ObjectStore PersistentVolume PersistentVolume.name)
    (pvcs : PVCStore) :
    ControllerState :=
  ControllerState.scan
    { now := 0
      nodes
      past := []
      pvs
      pvcs
      deletedNodes := 0
      pvQueue := .empty }
    config

/-- The states of the runs whose steps are all permitted. -/
abbrev ControllerReaches
    (config : CleanupConfig)
    (permitted : ControllerState → ControllerAction → Prop)
    (state : ControllerState) : Prop :=
  Reachable (controllerStep config) permitted
    (fun first => ∃ nodes pvs pvcs, first = startup config nodes pvs pvcs)
    state

/-- The PV is queued up, or will be before a full delay has passed. -/
def dueEarly
    (config : CleanupConfig)
    (state : ControllerState)
    (pvName : String) :
    Bool :=
  decide (pvName ∈ state.pvQueue.ready) ||
    (state.pvQueue.waiting pvName).any fun readyAt =>
      decide (readyAt < state.now + config.pvcDeletionDelay)

/-- No PV that is due early loses its last node. -/
def quietDeletion (config : CleanupConfig) (state : ControllerState) :
    ControllerAction → Bool
  | .deleteNode nodeName =>
      state.pvs.list.all fun pv =>
        !hasNamedNode state.nodes pv ||
          hasNamedNode (state.nodes.drop nodeName) pv ||
          !dueEarly config state pv.name
  | _ => true

/-- No node named by the affinity of a PV has existed for the last delay. -/
structure GoneForDelay
    (config : CleanupConfig)
    (state : ControllerState)
    (pv : PersistentVolume) : Prop where
  elapsed : config.pvcDeletionDelay ≤ state.now
  gone : hasNamedNode state.nodes pv = false
  goneBefore :
    ∀ span ∈ state.past,
      state.now < span.ended + config.pvcDeletionDelay →
      hasNamedNode span.nodes pv = false

/--
If the next delivery deletes a PVC, then no node named by the affinity of its
PV has existed for the last delay.
-/
def GraceKept (config : CleanupConfig) (state : ControllerState) : Prop :=
  ∀ pvName pv outcome namespaceName name uid,
    state.pvQueue.ready.head? = some pvName →
    state.pvs.get pvName = some pv →
    .deletePVC namespaceName name uid ∈
      (syncHandler pvName).calls (state.listers.answer outcome) →
    GoneForDelay config state pv

/-- If the listers show that the nodes of a PV are gone, none is named. -/
theorem hasNamedNode_of_isStale
    {listers : Listers}
    {pv : PersistentVolume}
    (stale : listers.isStale pv = true) :
    hasNamedNode listers.nodes pv = false := by
  unfold Listers.isStale at stale
  obtain ⟨nodeNames, read, gone⟩ := Option.any_eq_true _ _ |>.mp stale
  by_contra present
  rw [Bool.not_eq_false, hasNamedNode, List.any_eq_true] at present
  obtain ⟨node, live, named⟩ := present
  simp only [names, read, Option.any_some, List.any_eq_true,
    decide_eq_true_eq] at named
  obtain ⟨nodeName, member, byName⟩ := named
  rw [Bool.not_eq_true', List.any_eq_false] at gone
  have absent := gone nodeName member
  simp only [Listers.mayExist, Bool.not_eq_true, Bool.or_eq_false_iff] at absent
  rcases byName with rfl | labelled
  · simp [ObjectStore.mem_list.mp live] at absent
  · have carrier : node ∈ listers.labelledNodes nodeName := by
      simp [Listers.labelledNodes, live, labelled]
    have occupied := List.ne_nil_of_mem carrier
    simp [occupied] at absent

/-- Creating a node takes none away. -/
theorem hasNamedNode_put
    {nodes : NodeStore}
    {node : Node}
    {pv : PersistentVolume}
    (free : nodes.get node.name = none)
    (present : hasNamedNode nodes pv = true) :
    hasNamedNode (nodes.put node) pv = true := by
  obtain ⟨other, live, named⟩ := List.any_eq_true.mp present
  have stored := ObjectStore.mem_list.mp live
  have otherName : other.name ≠ node.name := by
    intro same
    rw [same, free] at stored
    cases stored
  refine List.any_eq_true.mpr ⟨other, ObjectStore.mem_list.mpr ?_, named⟩
  rw [ObjectStore.get_put, if_neg otherName]
  exact stored

/--
What the ready time of a timer promises: a node of the PV is there, or the
timer does not run out before a full delay after the last one was.
-/
def fullDelay
    (config : CleanupConfig)
    (state : ControllerState)
    (pvName : String)
    (readyAt : Nat) : Prop :=
  ∀ pv,
    state.pvs.get pvName = some pv →
    hasNamedNode state.nodes pv = false →
    config.pvcDeletionDelay ≤ readyAt ∧
      ∀ span ∈ state.past,
        hasNamedNode span.nodes pv = true →
        span.ended + config.pvcDeletionDelay ≤ readyAt

/-- A later ready time promises no less. -/
theorem fullDelay.later
    {config : CleanupConfig}
    {state : ControllerState}
    {pvName : String}
    {readyAt later : Nat}
    (granted : fullDelay config state pvName readyAt)
    (isLater : readyAt ≤ later) :
    fullDelay config state pvName later := by
  intro pv stored gone
  obtain ⟨elapsed, goneBefore⟩ := granted pv stored gone
  refine ⟨elapsed.trans isLater, ?_⟩
  intro span member present
  exact (goneBefore span member present).trans isLater

/-- A delay from now on is a full delay. -/
theorem fullDelay_of_le
    {config : CleanupConfig}
    {state : ControllerState}
    {pvName : String}
    {readyAt : Nat}
    (past : ∀ span ∈ state.past, span.ended ≤ state.now)
    (late : state.now + config.pvcDeletionDelay ≤ readyAt) :
    fullDelay config state pvName readyAt := by
  intro pv _ _
  constructor
  · omega
  · intro span member _
    have ended := past span member
    omega

/-- A change of the nodes that takes the last node from no PV of the name. -/
theorem fullDelay.moveNodes
    {config : CleanupConfig}
    {state : ControllerState}
    {nodes : NodeStore}
    {pvName : String}
    {readyAt : Nat}
    (granted : fullDelay config state pvName readyAt)
    (keepsLast :
      ∀ pv,
        state.pvs.get pvName = some pv →
        hasNamedNode state.nodes pv = true →
        hasNamedNode nodes pv = true) :
    fullDelay config (state.moveNodes nodes) pvName readyAt := by
  intro pv stored gone
  have goneNow : hasNamedNode state.nodes pv = false := by
    by_contra present
    have remains := keepsLast pv stored (Bool.not_eq_false _ ▸ present)
    exact Bool.noConfusion (remains.symm.trans gone)
  obtain ⟨elapsed, goneBefore⟩ := granted pv stored goneNow
  refine ⟨elapsed, ?_⟩
  intro span member present
  rcases List.mem_cons.mp member with rfl | earlier
  · rw [goneNow] at present
    cases present
  · exact goneBefore span earlier present

/-- The ready time of the timer that a call starts. -/
def readyTime (now backoff : Nat) : CleanupOp → Nat
  | .addAfter _ delay => now + delay
  | _ => now + backoff

/-- A call keeps the promises if its timer does. -/
theorem queueCall_promised
    {promise : String → Nat → Prop}
    {now backoff : Nat}
    {queue : DelayQueue String}
    {op : CleanupOp}
    (promised : queue.Promised promise now)
    (kept :
      ∀ pvName,
        op.enqueues = some pvName →
        promise pvName (readyTime now backoff op)) :
    (queueCall now backoff queue op).Promised promise now := by
  cases op with
  | addAfter pvName delay => exact promised.addAfter (kept pvName rfl)
  | addRateLimited pvName => exact promised.addAfter (kept pvName rfl)
  | _ => exact promised

/-- Past stretches are past, and every timer grants a full delay. -/
structure TimersKept
    (config : CleanupConfig)
    (state : ControllerState) : Prop where
  past : ∀ span ∈ state.past, span.ended ≤ state.now
  timers :
    state.pvQueue.Promised (fullDelay config state) state.now

namespace TimersKept

variable {config : CleanupConfig}
variable {state : ControllerState}

/-- A routine keeps the timers if each of its calls does. -/
theorem run
    {routine : CleanupRoutine Unit}
    {outcome : CleanupOp → Except ApiError Unit}
    {backoff : Nat}
    (kept : TimersKept config state)
    (delays :
      ∀ op ∈ routine.calls (state.listers.answer outcome),
        ∀ pvName,
          op.enqueues = some pvName →
          fullDelay config state pvName (readyTime state.now backoff op)) :
    TimersKept config (state.run routine outcome backoff) := by
  refine ⟨kept.past, ?_⟩
  exact List.foldlRecOn _ _ kept.timers fun queue promised op called =>
    queueCall_promised promised (delays op called)

/-- A scan starts timers with the configured delay. -/
theorem scan (kept : TimersKept config state) :
    TimersKept config (state.scan config) := by
  refine kept.run ?_
  intro op called pvName enqueues
  obtain ⟨rfl, _⟩ :=
    Listers.enqueues_of_mem_calls_startCleanupTimersIfNeeded called enqueues
  exact fullDelay_of_le kept.past (Nat.le_refl _)

/-- A delivery that fails is retried after a timer that has run out. -/
theorem deliver
    {pvName : String}
    {rest : List String}
    (kept : TimersKept config state)
    (queued : state.pvQueue.ready = pvName :: rest)
    (outcome : CleanupOp → Except ApiError Unit)
    (backoff : Nat) :
    TimersKept config
      ({ state with
        pvQueue := { state.pvQueue with ready := rest } }.run
          (processNextWorkItem pvName) outcome backoff) := by
  have handedOut :
      TimersKept config
        { state with pvQueue := { state.pvQueue with ready := rest } } :=
    ⟨kept.past, kept.timers.handOut queued⟩
  refine handedOut.run ?_
  intro op called key enqueues
  obtain rfl := enqueues_of_mem_calls_processNextWorkItem called enqueues
  cases enqueues
  obtain ⟨readyAt, ranOut, granted⟩ :=
    kept.timers.ready pvName (by simp [queued])
  exact granted.later (ranOut.trans (Nat.le_add_right _ _))

/-- After a change of the nodes, the stretch it ends is past too. -/
theorem past_moveNodes
    (kept : TimersKept config state)
    (nodes : NodeStore) :
    ∀ span ∈ (state.moveNodes nodes).past, span.ended ≤ state.now := by
  intro span member
  rcases List.mem_cons.mp member with rfl | earlier
  · exact Nat.le_refl _
  · exact kept.past span earlier

/-- A node comes into being. -/
theorem createNode
    {node : Node}
    (kept : TimersKept config state)
    (free : state.nodes.get node.name = none) :
    TimersKept config (state.moveNodes (state.nodes.put node)) := by
  refine ⟨kept.past_moveNodes _, kept.timers.weaken (Nat.le_refl _) ?_⟩
  intro pvName readyAt granted
  exact granted.moveNodes fun pv _ present => hasNamedNode_put free present

/-- A quiet deletion takes the last node only from a PV that is not due early. -/
theorem not_dueEarly
    {nodeName pvName : String}
    {pv : PersistentVolume}
    (quiet : quietDeletion config state (.deleteNode nodeName) = true)
    (stored : state.pvs.get pvName = some pv)
    (present : hasNamedNode state.nodes pv = true)
    (gone : hasNamedNode (state.nodes.drop nodeName) pv = false) :
    dueEarly config state pvName = false := by
  obtain rfl := ObjectStore.name_of_get stored
  have listed : pv ∈ state.pvs.list := ObjectStore.mem_list.mpr stored
  simpa [present, gone] using List.all_eq_true.mp quiet pv listed

/-- A quiet deletion of a node. -/
theorem deleteNode
    {nodeName : String}
    (kept : TimersKept config state)
    (quiet : quietDeletion config state (.deleteNode nodeName) = true) :
    TimersKept config (state.moveNodes (state.nodes.drop nodeName)) := by
  refine ⟨kept.past_moveNodes _, kept.timers.mono (Nat.le_refl _) ?_ ?_⟩
  · intro pvName readyAt timer granted
    by_cases early : readyAt < state.now + config.pvcDeletionDelay
    · refine granted.moveNodes ?_
      intro pv stored present
      by_contra gone
      have notDue :=
        not_dueEarly quiet stored present (Bool.not_eq_true _ ▸ gone)
      simp [dueEarly, timer, early] at notDue
    · exact fullDelay_of_le (kept.past_moveNodes _) (Nat.not_lt.mp early)
  · intro pvName readyAt queued granted
    refine granted.moveNodes ?_
    intro pv stored present
    by_contra gone
    have notDue :=
      not_dueEarly quiet stored present (Bool.not_eq_true _ ▸ gone)
    simp [dueEarly, queued] at notDue

/-- A PV is updated; its affinity cannot be changed. -/
theorem updatePV
    {current pv : PersistentVolume}
    (kept : TimersKept config state)
    (stored : state.pvs.get pv.name = some current)
    (sameAffinity : current.nodeAffinity = pv.nodeAffinity) :
    TimersKept config { state with pvs := state.pvs.put pv } := by
  have sameNodes :
      ∀ nodes, hasNamedNode nodes pv = hasNamedNode nodes current := by
    intro nodes
    have sameNames : names pv = names current := by
      funext node
      simp only [names, getLocalPersistentVolumeNodeNames,
        PersistentVolume.requiredAffinity, sameAffinity]
    rw [hasNamedNode, sameNames, hasNamedNode]
  refine ⟨kept.past, kept.timers.weaken (Nat.le_refl _) ?_⟩
  intro pvName readyAt granted other updated gone
  rw [ObjectStore.get_put] at updated
  split at updated
  · rename_i sameName
    cases updated
    subst sameName
    simp only [sameNodes] at gone ⊢
    exact granted current stored gone
  · exact granted other updated gone

/-- Every quiet step keeps the timers. -/
theorem step
    {action : ControllerAction}
    {next : ControllerState}
    (kept : TimersKept config state)
    (quiet : quietDeletion config state action = true)
    (stepped : controllerStep config state action = some next) :
    TimersKept config next := by
  cases action with
  | tick duration =>
      cases stepped
      refine ⟨?_, kept.timers.weaken (Nat.le_add_right _ _) ?_⟩
      · intro span member
        exact (kept.past span member).trans (Nat.le_add_right _ _)
      · exact fun pvName readyAt granted => granted
  | createNode node =>
      simp only [controllerStep] at stepped
      split at stepped
      · cases stepped
      · rename_i free
        cases stepped
        exact kept.createNode free
  | deleteNode nodeName =>
      simp only [controllerStep] at stepped
      split at stepped
      · cases stepped
      · cases stepped
        have moved := kept.deleteNode quiet
        exact ⟨moved.past, moved.timers⟩
  | nodeDeleted =>
      simp only [controllerStep] at stepped
      split at stepped
      · cases stepped
      · rename_i rest _
        cases stepped
        have handled : TimersKept config { state with deletedNodes := rest } :=
          ⟨kept.past, kept.timers⟩
        exact handled.scan
  | ripen pvName =>
      obtain ⟨pvQueue, ripened, rfl⟩ := Option.map_eq_some_iff.mp stepped
      exact ⟨kept.past, kept.timers.ripen ripened⟩
  | deliver outcome backoff =>
      simp only [controllerStep] at stepped
      split at stepped
      · cases stepped
      · rename_i pvName rest queued
        cases stepped
        exact kept.deliver queued outcome backoff
  | updatePV pv =>
      simp only [controllerStep] at stepped
      split at stepped
      · cases stepped
      · rename_i current stored
        split at stepped
        · rename_i sameAffinity
          cases stepped
          exact kept.updatePV stored sameAffinity
        · cases stepped
  | replacePVCs pvcs =>
      cases stepped
      exact ⟨kept.past, kept.timers⟩

/-- The timers grant a full delay in every state of a quiet run. -/
theorem of_reaches
    (reaches :
      ControllerReaches config
        (fun state action => quietDeletion config state action = true)
        state) :
    TimersKept config state := by
  refine reaches.invariant ?_ ?_
  · rintro first ⟨nodes, pvs, pvcs, rfl⟩
    refine scan ⟨?_, .empty⟩
    simp
  · intro state action next kept quiet stepped
    exact kept.step quiet stepped

end TimersKept

/--
In a run in which no PV loses its last node while it is due early, a PVC is
deleted only if no node named by the affinity of its PV has existed for the
configured delay.
-/
theorem graceKept_of_quietDeletions
    {config : CleanupConfig}
    {state : ControllerState}
    (reaches :
      ControllerReaches config
        (fun state action => quietDeletion config state action = true)
        state) :
    GraceKept config state := by
  intro pvName pv outcome namespaceName name uid queued stored deletes
  have kept := TimersKept.of_reaches reaches
  obtain ⟨found, pvc, foundStored, stale, _⟩ :=
    Listers.deletePVC_mem_calls_syncHandler.mp deletes
  cases stored.symm.trans foundStored
  have gone : hasNamedNode state.nodes pv = false :=
    hasNamedNode_of_isStale stale
  obtain ⟨readyAt, ranOut, granted⟩ :=
    kept.timers.ready pvName (List.mem_of_mem_head? queued)
  obtain ⟨elapsed, goneBefore⟩ := granted pv stored gone
  refine ⟨elapsed.trans ranOut, gone, ?_⟩
  intro span member recent
  by_contra present
  have ended := goneBefore span member (Bool.not_eq_false _ ▸ present)
  omega

/-- A PV on one node, bound to a PVC. -/
def boundPV : PersistentVolume :=
  { sampleAffinityPV [{ matchExpressions := [sampleHosts ["node"]] }] with
    claimRef := some { namespaceName := "default", name := "claim", uid := 7 }
    phase := .bound }

/-- The node of the PV. -/
def boundNode : Node where
  name := "node"
  uid := "1"
  labels := AList.insert hostnameLabel "node" ∅

/-- The node, its PV and the PVC are all there. -/
def graceStart : ControllerState :=
  startup sampleCleanup (ObjectStore.empty.put boundNode)
    (ObjectStore.empty.put boundPV)
    (ObjectStore.empty.put
      { namespaceName := "default", name := "claim", uid := 7,
        volumeName := "local-pv-1" })

/-- A replayed run of the sample reaches the state it ends in. -/
theorem reaches_of_graceRun
    (permitted : ControllerState → ControllerAction → Prop)
    [∀ state action, Decidable (permitted state action)]
    (actions : List ControllerAction)
    (check : ControllerState → Bool)
    (checked :
      (replay (controllerStep sampleCleanup) permitted graceStart actions).any
        check = true) :
    ∃ state,
      ControllerReaches sampleCleanup permitted state ∧ check state = true :=
  Reachable.exists_of_replay check ⟨_, _, _, rfl⟩ checked

/-- The PV whose PVC the next delivery deletes, if it deletes one. -/
def nextDeletion (state : ControllerState) : Option PersistentVolume :=
  state.pvQueue.ready.head?.bind fun pvName =>
    if .deletePVC "default" "claim" 7 ∈
        (syncHandler pvName).calls (state.listers.answer fun _ => .ok ()) then
      state.pvs.get pvName
    else
      none

/-- The node goes away for good. -/
def lostNodeRun : List ControllerAction :=
  [.deleteNode "node", .nodeDeleted, .tick 60, .ripen "local-pv-1"]

/-- A quiet run at the end of which the PVC is deleted. -/
theorem graceKept_of_lostNodeRun :
    ∃ state,
      ControllerReaches sampleCleanup
          (fun state action => quietDeletion sampleCleanup state action = true)
          state ∧
        (nextDeletion state).isSome = true ∧
        GraceKept sampleCleanup state := by
  obtain ⟨state, reaches, checked⟩ :=
    reaches_of_graceRun
      (fun state action => quietDeletion sampleCleanup state action = true)
      lostNodeRun (fun state => (nextDeletion state).isSome)
      (by decide +kernel)
  exact ⟨state, reaches, checked, graceKept_of_quietDeletions reaches⟩

/-- The node comes back after 30 seconds and is deleted again at second 59. -/
def returnedNodeRun : List ControllerAction :=
  [.deleteNode "node", .nodeDeleted, .tick 30, .createNode boundNode,
    .tick 29, .deleteNode "node", .nodeDeleted, .tick 1,
    .ripen "local-pv-1"]

/-- A PVC is deleted although a node of its PV existed within the delay. -/
def deletesEarly (config : CleanupConfig) (state : ControllerState) : Bool :=
  (nextDeletion state).any fun pv =>
    state.past.any fun span =>
      decide (state.now < span.ended + config.pvcDeletionDelay) &&
        hasNamedNode span.nodes pv

/-- An early deletion does not keep the grace period. -/
theorem not_graceKept_of_deletesEarly
    {config : CleanupConfig}
    {state : ControllerState}
    (early : deletesEarly config state = true) :
    ¬ GraceKept config state := by
  intro kept
  obtain ⟨pv, deletion, lately⟩ := Option.any_eq_true _ _ |>.mp early
  obtain ⟨span, member, present⟩ := List.any_eq_true.mp lately
  rw [Bool.and_eq_true, decide_eq_true_eq] at present
  obtain ⟨pvName, queued, delivered⟩ := Option.bind_eq_some_iff.mp deletion
  split at delivered
  · rename_i deletes
    have granted := kept pvName pv _ _ _ _ queued delivered deletes
    rw [granted.goneBefore span member present.1] at present
    cases present.2
  · cases delivered

/-- The second timer is merged with the first, which ends a second later. -/
theorem grace_cut_short_after_returnedNodeRun :
    ∃ config state,
      0 < config.pvcDeletionDelay ∧
        ControllerReaches config (fun _ _ => True) state ∧
        ¬ GraceKept config state := by
  obtain ⟨state, reaches, early⟩ :=
    reaches_of_graceRun (fun _ _ => True) returnedNodeRun
      (deletesEarly sampleCleanup) (by decide +kernel)
  exact ⟨sampleCleanup, state, by decide, reaches,
    not_graceKept_of_deletesEarly early⟩

end NodeCleanup

end LocalProvisioner
