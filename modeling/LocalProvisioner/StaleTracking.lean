import LocalProvisioner.ClaimDeletion

namespace LocalProvisioner

namespace NodeCleanup

open Interleaving

/-!
# Which stale PVs are tracked

The controller looks for stale PVs when it starts and whenever a node has been
deleted.  A PV that becomes stale and bound by something else, such as a PVC
that is bound to it after its node is gone, is not looked at.

A bound PV that, since the start or since a deletion of a node, has become stale
only by the deletion of nodes is waiting, queued up or being processed, or the
deletion of its PVC has been accepted, once the deletions have been handled.
What becomes of other PVs meanwhile does not matter.
-/

/-- A PV with the nodes it names and the PVC it is bound to. -/
structure Bond where
  pvName : String
  nodeNames : List String
  claim : ObjectReference
  deriving Repr, DecidableEq

/-- The bond of a PV, if its affinity can be read and it has a claim. -/
def bondOf (pv : PersistentVolume) : Option Bond :=
  (getLocalPersistentVolumeNodeNames pv).bind fun nodeNames =>
    pv.claimRef.map fun claim => { pvName := pv.name, nodeNames, claim }

/-- The key of the PVC of a bond. -/
def Bond.claimKey (bond : Bond) : String × String :=
  (bond.claim.namespaceName, bond.claim.name)

/--
The PV lister shows the PV of the bond, local and of a listed class; no node
that it names exists; the PVC lister shows the PVC, which points back with the
same UID; and the PVC exists.
-/
def CleanupSystem.qualifies
    (config : CleanupConfig)
    (system : CleanupSystem)
    (bond : Bond) :
    Bool :=
  ((system.listers.pvs.get bond.pvName).any fun pv =>
      isLocalPVWithStorageClass pv config.storageClassNames &&
        decide (bondOf pv = some bond)) &&
    (bond.nodeNames.all fun nodeName =>
      (system.listers.nodes.get nodeName).isNone &&
        (system.listers.labelledNodes nodeName).isEmpty) &&
    ((system.listers.pvcs.get bond.claimKey).any fun pvc =>
      decide (pvc.volumeName = bond.pvName ∧ pvc.uid = bond.claim.uid)) &&
    ((system.claims.get bond.claimKey).any fun pvc =>
      decide (pvc.uid = bond.claim.uid))

/-- The nodes of a bond can be looked up by label. -/
def Bond.Lookupable (bond : Bond) : Prop :=
  ∀ nodeName ∈ bond.nodeNames, isValidLabelValue nodeName = true

/-- The deletion of the PVC of a bond has been accepted. -/
def CleanupSystem.hasAccepted (system : CleanupSystem) (bond : Bond) : Bool :=
  system.accepted.any fun deletion =>
    decide (deletion.pvc.key = bond.claimKey ∧
      deletion.pvc.uid = bond.claim.uid)

/-- The PV is in the queue or being processed, or its PVC has been deleted. -/
def CleanupSystem.tracks (system : CleanupSystem) (bond : Bond) : Bool :=
  decide (system.pvQueue.Holds bond.pvName) ||
    system.isProcessing bond.pvName || system.hasAccepted bond

/-- All deletions of nodes have been handled, and no scan is under way. -/
def CleanupSystem.hasHandledDeletions (system : CleanupSystem) : Bool :=
  decide (system.deletedNodes = 0) &&
    system.routines.all fun underway =>
      decide (underway.duty ≠ .scan) || underway.rest.isDone

/-- The calls that are requests to the API server. -/
def CleanupOp.requestsDeletion : CleanupOp → Bool
  | .deletePVC _ _ _ => true
  | _ => false

/-- The next call of a routine. -/
def CleanupSystem.nextCall (system : CleanupSystem) (index : Nat) :
    Option CleanupOp :=
  match system.routines[index]? with
  | some ⟨_, _, .call op _⟩ => some op
  | _ => none

/-- The listers read from memory: only requests to the API server fail. -/
def listersServe (system : CleanupSystem) : SystemAction → Bool
  | .answer index answer =>
      answer.fault.isNone ||
        (system.nextCall index).all CleanupOp.requestsDeletion
  | _ => true

/-- Only the deletion of a node makes the bond qualify. -/
def exposesByNodesOnly
    (config : CleanupConfig)
    (bond : Bond)
    (system : CleanupSystem)
    (action : SystemAction) :
    Bool :=
  listersServe system action &&
    (action.deletesNode ||
      (systemStep config system action).all fun next =>
        !next.qualifies config bond || system.qualifies config bond)

/-- The controller has just started, or a deletion of a node is to be handled. -/
structure CleanupSystem.ScanDue
    (config : CleanupConfig)
    (system : CleanupSystem) : Prop where
  reaches : SystemReaches config (fun _ _ => True) system
  due : system.AtStartup config ∨ 0 < system.deletedNodes

/--
The states of runs in which, from some moment on at which a scan is due, only
the deletion of nodes makes the bond qualify.
-/
def ExposedByNodes (config : CleanupConfig) (bond : Bond) :
    CleanupSystem → Prop :=
  Reachable (systemStep config)
    (fun system action => exposesByNodesOnly config bond system action = true)
    (CleanupSystem.ScanDue config)

/-!
## What the routines do for a bond that qualifies throughout
-/

/-- The replies that a bond calls for as long as it qualifies. -/
def Bond.Expects (config : CleanupConfig) (bond : Bond) :
    (op : CleanupOp) → op.Reply → Prop
  | .listPVs, reply =>
      ∃ pvs pv,
        (reply : Except ApiError (List PersistentVolume)) = .ok pvs ∧
          pv ∈ pvs ∧
          isLocalPVWithStorageClass pv config.storageClassNames = true ∧
          bondOf pv = some bond
  | .getPV pvName, reply =>
      pvName = bond.pvName →
        ∃ pv,
          (reply : Except ApiError PersistentVolume) = .ok pv ∧
            bondOf pv = some bond
  | .getNode nodeName, reply =>
      nodeName ∈ bond.nodeNames →
        (reply : Except ApiError Node) = .error .notFound
  | .listNodes hostname, reply =>
      hostname ∈ bond.nodeNames →
        (reply : Except ApiError (List Node)) = .ok []
  | .getPVC namespaceName name, reply =>
      (namespaceName, name) = bond.claimKey →
        ∃ pvc : PersistentVolumeClaim,
          (reply : Except ApiError PersistentVolumeClaim) = .ok pvc ∧
            pvc.key = bond.claimKey ∧
            pvc.volumeName = bond.pvName ∧
            pvc.uid = bond.claim.uid
  | .deletePVC namespaceName name uid, reply =>
      (namespaceName, name) = bond.claimKey →
        uid = bond.claim.uid →
        ∃ err,
          (reply : Except ApiError Unit) = .error err ∧ err ≠ .notFound
  | _, _ => True

section Routines

variable {config : CleanupConfig}
variable {bond : Bond}

/-- What the bond of a PV says about the PV. -/
theorem bondOf_eq_some {pv : PersistentVolume} :
    bondOf pv = some bond ↔
      pv.name = bond.pvName ∧
        getLocalPersistentVolumeNodeNames pv = some bond.nodeNames ∧
        pv.claimRef = some bond.claim := by
  simp only [bondOf, Option.bind_eq_some_iff, Option.map_eq_some_iff]
  constructor
  · intro bound
    obtain ⟨nodeNames, read, claim, claimRef, rfl⟩ := bound
    exact ⟨rfl, read, claimRef⟩
  · intro bound
    obtain ⟨named, read, claimRef⟩ := bound
    exact ⟨_, read, _, claimRef, by rw [named]⟩

/-- `AnyNodeExists` finds none of the nodes of a bond. -/
theorem yields_anyNodeExists
    (lookupable : bond.Lookupable)
    {nodeNames : List String}
    (named : nodeNames ⊆ bond.nodeNames) :
    Program.Yields (bond.Expects config) (fun exist => exist = false)
      (anyNodeExists nodeNames) := by
  induction nodeNames with
  | nil => exact .done rfl
  | cons nodeName rest inductionHypothesis =>
      have member : nodeName ∈ bond.nodeNames := named List.mem_cons_self
      refine .call ?_
      intro reply isExpected
      cases isExpected member
      show Program.Yields _ _ (ite (isValidLabelValue nodeName = true) _ _)
      rw [if_pos (lookupable nodeName member)]
      refine .call ?_
      intro reply isExpected
      cases isExpected member
      exact inductionHypothesis fun _ later =>
        named (List.mem_cons_of_mem _ later)

/-- A scan starts the timer of a bond that qualifies throughout. -/
theorem inevitable_startCleanupTimersIfNeeded
    (lookupable : bond.Lookupable) :
    Program.Inevitable (bond.Expects config)
      (fun op : CleanupOp => op.enqueues = some bond.pvName)
      (startCleanupTimersIfNeeded config) := by
  refine .later ?_
  intro reply isExpected
  obtain ⟨pvs, pv, rfl, listed, isLocal, bound⟩ := isExpected
  refine Program.Inevitable.forEach listed ?_
  obtain ⟨named, read, claimRef⟩ := bondOf_eq_some.mp bound
  unfold startTimerIfNeeded
  rw [if_pos isLocal, read]
  have due :
      Program.Yields (bond.Expects config) (fun due => due = true)
        (shouldEnqueueEntry pv bond.nodeNames) := by
    unfold shouldEnqueueEntry
    rw [if_neg (by rw [claimRef]; nofun)]
    refine (yields_anyNodeExists lookupable (List.Subset.refl _)).bind ?_
    intro exist absent
    subst absent
    exact .done rfl
  refine Program.Inevitable.after due ?_
  intro value isDue
  subst isDue
  refine .later ?_
  intro _ _
  exact .now (congrArg some named)

/-- An item of a bond that qualifies throughout fails to delete the PVC. -/
theorem yields_syncHandler (lookupable : bond.Lookupable) :
    Program.Yields (bond.Expects config)
      (fun outcome => ∃ err, outcome = .error err)
      (syncHandler bond.pvName) := by
  refine .call ?_
  intro reply isExpected
  obtain ⟨pv, rfl, bound⟩ := isExpected rfl
  obtain ⟨named, read, claimRef⟩ := bondOf_eq_some.mp bound
  show Program.Yields _ _ (syncPV pv)
  unfold syncPV
  rw [read]
  refine (yields_anyNodeExists lookupable (List.Subset.refl _)).bind ?_
  intro exist absent
  subst absent
  show Program.Yields _ _ (deleteClaimOf pv)
  unfold deleteClaimOf
  rw [claimRef]
  refine .call ?_
  intro reply isExpected
  obtain ⟨pvc, rfl, keyed, pointsBack, sameUid⟩ := isExpected rfl
  show Program.Yields _ _ (deleteBoundPVC pv bond.claim pvc)
  unfold deleteBoundPVC
  rw [if_neg (by simp [pointsBack, named, sameUid])]
  refine .call ?_
  intro reply isExpected
  obtain ⟨err, rfl, known⟩ := isExpected keyed sameUid
  cases err with
  | notFound => exact (known rfl).elim
  | alreadyExists => exact .call fun _ _ => .done ⟨_, rfl⟩
  | other message => exact .call fun _ _ => .done ⟨_, rfl⟩

/-- An item of a bond that qualifies throughout puts its key back. -/
theorem inevitable_processNextWorkItem (lookupable : bond.Lookupable) :
    Program.Inevitable (bond.Expects config)
      (fun op : CleanupOp => op.enqueues = some bond.pvName)
      (processNextWorkItem bond.pvName) := by
  refine Program.Inevitable.after
    (yields_syncHandler lookupable) ?_
  intro outcome failed
  obtain ⟨err, rfl⟩ := failed
  exact .now rfl

end Routines

/-!
## Runs in which only deletions of nodes make a bond qualify
-/

section Tracking

variable {config : CleanupConfig}
variable {system next : CleanupSystem}
variable {bond : Bond}

/-- The parts of the condition. -/
theorem qualifies_iff :
    system.qualifies config bond = true ↔
      (∃ pv,
        system.listers.pvs.get bond.pvName = some pv ∧
          isLocalPVWithStorageClass pv config.storageClassNames = true ∧
          bondOf pv = some bond) ∧
      (∀ nodeName ∈ bond.nodeNames,
        system.listers.nodes.get nodeName = none ∧
          system.listers.labelledNodes nodeName = []) ∧
      (∃ pvc,
        system.listers.pvcs.get bond.claimKey = some pvc ∧
          pvc.volumeName = bond.pvName ∧ pvc.uid = bond.claim.uid) ∧
      ∃ pvc,
        system.claims.get bond.claimKey = some pvc ∧
          pvc.uid = bond.claim.uid := by
  simp [CleanupSystem.qualifies, Option.any_eq_true, and_assoc]

/-- A request that does not fail gets the reply that is due. -/
theorem CallAnswer.orFault_of_none
    {α : Type}
    {answer : CallAnswer}
    {served : Except ApiError α}
    (smooth : answer.fault = none) :
    answer.orFault served = some served := by
  simp [CallAnswer.orFault, smooth]

/-- A deletion of the PVC of a bond is accepted, or fails and is retried. -/
theorem deletion_of_qualifies
    {answer : CallAnswer}
    {namespaceName name : String}
    {uid : Nat}
    {reply : Except ApiError Unit}
    (qualified : system.qualifies config bond = true)
    (replied :
      answer.orFault (system.deletionReply namespaceName name uid) =
        some reply) :
    bond.Expects config (.deletePVC namespaceName name uid) reply ∨
      ∃ pvc,
        system.accepts answer (.deletePVC namespaceName name uid) = some pvc ∧
          pvc.key = bond.claimKey ∧ pvc.uid = bond.claim.uid := by
  obtain ⟨_, _, _, pvc, stored, sameUid⟩ := qualifies_iff.mp qualified
  by_cases isClaim : (namespaceName, name) = bond.claimKey ∧ uid = bond.claim.uid
  · obtain ⟨keyed, rfl⟩ := isClaim
    cases fault : answer.fault with
    | none =>
        right
        refine ⟨pvc, ?_, ObjectStore.name_of_get stored, sameUid⟩
        simp [CleanupSystem.accepts, fault, keyed, stored, sameUid]
    | some err =>
        left
        intro _ _
        simp only [CallAnswer.orFault, fault] at replied
        cases err with
        | notFound => cases replied
        | alreadyExists => exact ⟨_, (Option.some.inj replied).symm, by simp⟩
        | other message => exact ⟨_, (Option.some.inj replied).symm, by simp⟩
  · left
    intro keyed isUid
    exact (isClaim ⟨keyed, isUid⟩).elim

/-- While a bond qualifies, replies are as expected, or its PVC is deleted. -/
theorem expects_or_accepts
    {answer : CallAnswer}
    {op : CleanupOp}
    {reply : op.Reply}
    (qualified : system.qualifies config bond = true)
    (serves : answer.fault = none ∨ op.requestsDeletion = true)
    (replied : system.replyTo answer op = some reply) :
    bond.Expects config op reply ∨
      ∃ pvc,
        system.accepts answer op = some pvc ∧
          pvc.key = bond.claimKey ∧ pvc.uid = bond.claim.uid := by
  have parts := qualifies_iff.mp qualified
  obtain ⟨⟨pv, shown, isLocal, bound⟩, gone, ⟨pvc, pvcShown, pointsBack⟩, _⟩ :=
    parts
  cases op with
  | deletePVC namespaceName name uid =>
      exact deletion_of_qualifies qualified replied
  | listPVs =>
      left
      have smooth := serves.resolve_right nofun
      rw [CleanupSystem.replyTo, CallAnswer.orFault_of_none smooth] at replied
      cases replied
      exact ⟨_, pv, rfl, ObjectStore.mem_list.mpr (ObjectStore.get_name shown),
        isLocal, bound⟩
  | getPV pvName =>
      left
      intro isNamed
      have smooth := serves.resolve_right nofun
      rw [CleanupSystem.replyTo, CallAnswer.orFault_of_none smooth, isNamed,
        shown] at replied
      cases replied
      exact ⟨pv, rfl, bound⟩
  | getNode nodeName =>
      left
      intro member
      have smooth := serves.resolve_right nofun
      rw [CleanupSystem.replyTo, CallAnswer.orFault_of_none smooth,
        (gone nodeName member).1] at replied
      cases replied
      rfl
  | listNodes hostname =>
      left
      intro member
      have smooth := serves.resolve_right nofun
      rw [CleanupSystem.replyTo, CallAnswer.orFault_of_none smooth,
        (gone hostname member).2] at replied
      cases replied
      rfl
  | getPVC namespaceName name =>
      left
      intro keyed
      have smooth := serves.resolve_right nofun
      rw [CleanupSystem.replyTo, CallAnswer.orFault_of_none smooth, keyed,
        pvcShown] at replied
      cases replied
      exact ⟨pvc, rfl, ObjectStore.name_of_get pvcShown, pointsBack⟩
  | _ => exact .inl trivial

/--
A bond is tracked, or it will be: a deletion of a node is to be handled, or a
scan or an item will put its PV into the queue as long as the bond qualifies.
-/
inductive Pursued
    (config : CleanupConfig)
    (system : CleanupSystem)
    (bond : Bond) : Prop where
  | pending :
      0 < system.deletedNodes →
      Pursued config system bond
  | queued :
      system.pvQueue.Holds bond.pvName →
      Pursued config system bond
  | underway (pursuer : Underway) :
      pursuer ∈ system.routines →
      pursuer.duty = .scan ∨ pursuer.duty = .item bond.pvName →
      pursuer.rest.Inevitable (bond.Expects config)
        (fun op : CleanupOp => op.enqueues = some bond.pvName) →
      Pursued config system bond
  | accepted :
      system.hasAccepted bond = true →
      Pursued config system bond

namespace Pursued

/-- A bond stays pursued while nothing is lost. -/
theorem mono
    (pursued : Pursued config system bond)
    (pending : system.deletedNodes ≤ next.deletedNodes)
    (queued :
      system.pvQueue.Holds bond.pvName → next.pvQueue.Holds bond.pvName)
    (routines : system.routines ⊆ next.routines)
    (accepted : next.accepted = system.accepted) :
    Pursued config next bond := by
  cases pursued with
  | pending some => exact .pending (Nat.lt_of_lt_of_le some pending)
  | queued held => exact .queued (queued held)
  | underway pursuer member duty inevitable =>
      exact .underway pursuer (routines member) duty inevitable
  | accepted deleted =>
      refine .accepted ?_
      rw [CleanupSystem.hasAccepted, accepted]
      exact deleted

/-- A new scan pursues every bond. -/
theorem of_scan
    (lookupable : bond.Lookupable)
    (scanning : Duty.scan.start config ∈ next.routines) :
    Pursued config next bond :=
  .underway _ scanning (.inl rfl)
    (inevitable_startCleanupTimersIfNeeded lookupable)

/-- A key that is taken from the queue is pursued by its worker. -/
theorem take
    {pvName : String}
    (lookupable : bond.Lookupable)
    (pursued : Pursued config system bond) :
    Pursued config
      ({ system with
        pvQueue :=
          { system.pvQueue with
            ready := system.pvQueue.ready.erase pvName } }.launch config
              (.item pvName))
      bond := by
  by_cases same : bond.pvName = pvName
  · subst same
    exact .underway _ List.mem_cons_self (.inr rfl)
      (inevitable_processNextWorkItem lookupable)
  · refine pursued.mono (Nat.le_refl _) ?_ (List.subset_cons_self _ _) rfl
    intro held
    refine held.imp id ?_
    intro queuedUp
    exact (List.mem_erase_of_ne same).mpr queuedUp

end Pursued

/-- A call loses no item of the queue. -/
theorem holds_queueCall
    {now backoff : Nat}
    {queue : DelayQueue String}
    {pvName : String}
    (op : CleanupOp)
    (held : queue.Holds pvName) :
    (queueCall now backoff queue op).Holds pvName := by
  cases op with
  | addAfter other delay => exact held.addAfter now delay
  | addRateLimited other => exact held.addAfter now backoff
  | _ => exact held

/-- A call that puts an item into the queue. -/
theorem holds_queueCall_of_enqueues
    {now backoff : Nat}
    {queue : DelayQueue String}
    {pvName : String}
    {op : CleanupOp}
    (enqueues : op.enqueues = some pvName) :
    (queueCall now backoff queue op).Holds pvName := by
  cases op with
  | addAfter other delay =>
      cases enqueues
      exact DelayQueue.holds_addAfter now delay
  | addRateLimited other =>
      cases enqueues
      exact DelayQueue.holds_addAfter now backoff
  | _ => cases enqueues

/-- A routine other than the one that makes a call is still there. -/
theorem mem_set_of_ne
    {routines : List Underway}
    {index : Nat}
    {pursuer later : Underway}
    (member : pursuer ∈ routines)
    (other : routines[index]? ≠ some pursuer) :
    pursuer ∈ routines.set index later := by
  obtain ⟨position, atPosition⟩ := List.mem_iff_getElem?.mp member
  have apart : index ≠ position := by
    intro same
    rw [same] at other
    exact other atPosition
  refine List.mem_iff_getElem?.mpr ⟨position, ?_⟩
  rw [List.getElem?_set_ne apart]
  exact atPosition

/-- A bond that qualifies while a call is answered stays pursued. -/
theorem Pursued.answer
    {index : Nat}
    {answer : CallAnswer}
    (pursued : Pursued config system bond)
    (qualified : system.qualifies config bond = true)
    (serve : listersServe system (.answer index answer) = true)
    (called : system.answerCall index answer = some next) :
    Pursued config next bond := by
  obtain ⟨duty, history, op, rest, reply, atIndex, replied, rfl⟩ :=
    CleanupSystem.call_of_answerCall called
  have serves : answer.fault = none ∨ op.requestsDeletion = true := by
    simpa [listersServe, CleanupSystem.nextCall, atIndex] using serve
  cases pursued with
  | pending some => exact .pending some
  | queued held => exact .queued (holds_queueCall op held)
  | accepted deleted =>
      refine .accepted ?_
      rw [CleanupSystem.hasAccepted, List.any_append, Bool.or_eq_true]
      exact .inr deleted
  | underway pursuer member isDuty inevitable =>
      by_cases calls : system.routines[index]? = some pursuer
      · obtain rfl := Option.some.inj (atIndex.symm.trans calls)
        cases inevitable with
        | now isGoal => exact .queued (holds_queueCall_of_enqueues isGoal)
        | later continues =>
            rcases expects_or_accepts qualified serves replied with
              isExpected | ⟨pvc, accepts, keyed, sameUid⟩
            · have inRange : index < system.routines.length :=
                (List.getElem?_eq_some_iff.mp atIndex).1
              exact .underway _ (List.mem_set inRange _) isDuty
                (continues reply isExpected)
            · refine .accepted ?_
              simp [CleanupSystem.hasAccepted, accepts, keyed, sameUid]
      · exact .underway pursuer (mem_set_of_ne member calls) isDuty inevitable

/-- A bond that qualifies after such a step has qualified before. -/
theorem qualifies_of_exposesByNodesOnly
    {action : SystemAction}
    (permitted : exposesByNodesOnly config bond system action = true)
    (stepped : systemStep config system action = some next)
    (notByNode : action.deletesNode = false)
    (qualified : next.qualifies config bond = true) :
    system.qualifies config bond = true := by
  simp only [exposesByNodesOnly, notByNode, stepped, Bool.and_eq_true,
    Bool.false_or, Option.all_some, qualified, Bool.not_true] at permitted
  exact permitted.2

/-- Every step keeps the bond pursued while it qualifies. -/
theorem Pursued.step
    {action : SystemAction}
    (lookupable : bond.Lookupable)
    (before : system.qualifies config bond = true → Pursued config system bond)
    (permitted : exposesByNodesOnly config bond system action = true)
    (stepped : systemStep config system action = some next)
    (qualified : next.qualifies config bond = true) :
    Pursued config next bond := by
  have earlier :
      action.deletesNode = false → system.qualifies config bond = true := by
    intro notByNode
    exact qualifies_of_exposesByNodesOnly permitted stepped notByNode qualified
  cases moved_of_systemStep stepped with
  | nodeGone nodeName => exact .pending (Nat.succ_pos _)
  | scanned rest _ => exact .of_scan lookupable List.mem_cons_self
  | surroundings now listers claims nextUid notByNode _ _ =>
      exact (before (earlier notByNode)).mono (Nat.le_refl _) id
        (List.Subset.refl _) rfl
  | ripened pvName pvQueue ripened =>
      exact (before (earlier rfl)).mono (Nat.le_refl _)
        (fun held => held.ripen ripened) (List.Subset.refl _) rfl
  | took pvName => exact (before (earlier rfl)).take lookupable
  | answered index answer called =>
      have serve : listersServe system (.answer index answer) = true :=
        (Bool.and_eq_true _ _ |>.mp permitted).1
      exact (before (earlier rfl)).answer (earlier rfl) serve called

/-- In such a run, the bond is pursued while it qualifies. -/
theorem pursued_of_exposedByNodes
    (lookupable : bond.Lookupable)
    (exposed : ExposedByNodes config bond system)
    (qualified : system.qualifies config bond = true) :
    Pursued config system bond := by
  induction exposed with
  | initial scanDue =>
      rcases scanDue.due with started | pending
      · refine .of_scan lookupable ?_
        rw [started.routines]
        exact List.mem_cons_self
      · exact .pending pending
  | advance action _ permitted stepped inductionHypothesis =>
      exact Pursued.step lookupable inductionHypothesis permitted stepped
        qualified

/--
A PV that qualifies, with node names that can be looked up, and that since the
start or since a deletion of a node has begun to do so only by the deletion of
nodes: once all deletions have been handled, it is in the queue, is being
processed, or has had the deletion of its PVC accepted.
-/
theorem tracks_of_exposesByNodesOnly
    (exposed : ExposedByNodes config bond system)
    (handled : system.hasHandledDeletions = true)
    (lookupable : bond.Lookupable)
    (qualified : system.qualifies config bond = true) :
    system.tracks bond = true := by
  simp only [CleanupSystem.hasHandledDeletions, Bool.and_eq_true,
    decide_eq_true_eq, List.all_eq_true] at handled
  simp only [CleanupSystem.tracks, Bool.or_eq_true, decide_eq_true_eq]
  cases pursued_of_exposedByNodes lookupable exposed qualified with
  | pending some =>
      rw [handled.1] at some
      cases some
  | queued held => exact .inl (.inl held)
  | accepted deleted => exact .inr deleted
  | underway pursuer member isDuty inevitable =>
      have running := inevitable.isDone_eq_false
      rcases isDuty with isScan | isItem
      · have ended := handled.2 pursuer member
        simp [isScan, running] at ended
      · refine .inl (.inr (List.any_eq_true.mpr ⟨pursuer, member, ?_⟩))
        simp [isItem, running]

end Tracking

/-- The bond of the sample PV with a PVC of some UID. -/
def sampleBond (uid : Nat) : Bond where
  pvName := "local-pv-1"
  nodeNames := ["node"]
  claim := { namespaceName := "default", name := "claim", uid }

theorem lookupable_sampleBond (uid : Nat) : (sampleBond uid).Lookupable := by
  intro nodeName member
  obtain rfl := List.mem_singleton.mp member
  decide

/-- The deletions have been handled, and the bond qualifies. -/
def isDue (uid : Nat) (system : CleanupSystem) : Bool :=
  system.hasHandledDeletions && system.qualifies sampleCleanup (sampleBond uid)

/-- The node of the PV is there when the controller starts. -/
def liveNodeSystem : CleanupSystem :=
  { lostNodeSystem with
    listers :=
      { lostNodeSystem.listers with
        nodes := ObjectStore.empty.put boundNode } }

/-- The node is deleted after the scan at startup. -/
def deletedNodeRun : List SystemAction :=
  List.replicate 2 (.answer 0 served) ++
    [.deleteNode "node", .nodeDeleted] ++
    List.replicate 5 (.answer 0 served)

/-- A PV whose node is deleted is tracked. -/
theorem tracks_of_deletedNodeRun :
    ∃ system,
      ExposedByNodes sampleCleanup (sampleBond 7) system ∧
        system.hasHandledDeletions = true ∧
        (sampleBond 7).Lookupable ∧
        system.qualifies sampleCleanup (sampleBond 7) = true ∧
        system.tracks (sampleBond 7) = true := by
  have started : liveNodeSystem.AtStartup sampleCleanup :=
    ⟨rfl, rfl, rfl, by decide, by decide⟩
  have scanDue : liveNodeSystem.ScanDue sampleCleanup :=
    ⟨.initial started, .inl started⟩
  have reached :
      ∃ system,
        ExposedByNodes sampleCleanup (sampleBond 7) system ∧
          isDue 7 system = true :=
    Reachable.exists_of_replay (isDue 7) scanDue
      (by decide +kernel :
        (replay (systemStep sampleCleanup)
          (fun system action =>
            exposesByNodesOnly sampleCleanup (sampleBond 7) system action = true)
          liveNodeSystem deletedNodeRun).any (isDue 7) = true)
  obtain ⟨system, exposed, due⟩ := reached
  obtain ⟨handled, qualified⟩ := Bool.and_eq_true _ _ |>.mp due
  exact ⟨system, exposed, handled, lookupable_sampleBond 7, qualified,
    tracks_of_exposesByNodesOnly exposed handled (lookupable_sampleBond 7)
      qualified⟩

/-- The PV before it is bound. -/
def availablePV : PersistentVolume :=
  { boundPV with claimRef := none, phase := .available }

/-- The PV is available, and its node is gone. -/
def availableSystem : CleanupSystem :=
  { lostNodeSystem with
    listers :=
      { pvs := ObjectStore.empty.put availablePV
        nodes := .empty
        pvcs := .empty }
    claims := .empty }

/-- The PV is bound to a new PVC after the scan at startup. -/
def lateBindingRun : List SystemAction :=
  [.answer 0 served,
    .createClaim "default" "claim" "local-pv-1",
    .showPVCs (ObjectStore.empty.put { boundPVC with uid := 8 }),
    .showPVs (ObjectStore.empty.put
      { boundPV with claimRef := some (sampleBond 8).claim })]

/-- A PV that is bound after its node is gone is not tracked. -/
theorem untracked_after_lateBindingRun :
    ∃ system bond,
      SystemReaches sampleCleanup (fun _ _ => True) system ∧
        system.hasHandledDeletions = true ∧
        bond.nodeNames ≠ [] ∧
        bond.Lookupable ∧
        system.qualifies sampleCleanup bond = true ∧
        system.tracks bond = false := by
  have started : availableSystem.AtStartup sampleCleanup :=
    ⟨rfl, rfl, rfl, by decide, by decide⟩
  have reached :
      ∃ system,
        SystemReaches sampleCleanup (fun _ _ => True) system ∧
          (isDue 8 system && !system.tracks (sampleBond 8)) = true :=
    Reachable.exists_of_replay
      (fun system => isDue 8 system && !system.tracks (sampleBond 8)) started
      (by decide +kernel :
        (replay (systemStep sampleCleanup) (fun _ _ => True) availableSystem
          lateBindingRun).any
            (fun system => isDue 8 system && !system.tracks (sampleBond 8)) =
          true)
  obtain ⟨system, reaches, checked⟩ := reached
  simp only [isDue, Bool.and_eq_true, Bool.not_eq_true'] at checked
  obtain ⟨⟨handled, qualified⟩, untracked⟩ := checked
  exact ⟨system, sampleBond 8, reaches, handled, nofun, lookupable_sampleBond 8,
    qualified, untracked⟩

end NodeCleanup

end LocalProvisioner
