import LocalProvisioner.Interleaving
import LocalProvisioner.NodeAffinity
import LocalProvisioner.ObjectStore
import LocalProvisioner.Operations

namespace LocalProvisioner

namespace NodeCleanup

open Interleaving

/-!
# The node-cleanup components

The node-cleanup deleter removes PVs whose nodes are gone.  The cleanup
controller starts a timer for every bound PV whose nodes are gone, and deletes
its PVC if they are still gone when the timer has run out.  Both judge a PV by
the node names that `GetLocalPersistentVolumeNodeNames` reads from its
affinity.

The routines make calls to the listers, the API server, and the work queue.
Log lines are left out; metrics and events are reports.
-/

/-- `v1.PersistentVolumeClaim`. -/
structure PersistentVolumeClaim where
  namespaceName : String
  name : String
  uid : Nat
  volumeName : String
  deriving Repr, DecidableEq

/-- A PVC is stored under its namespace and name. -/
def PersistentVolumeClaim.key (pvc : PersistentVolumeClaim) : String × String :=
  (pvc.namespaceName, pvc.name)

/--
The configuration of the deleter and the controller.  `delayText` is the
delay as `Duration.String` prints it, which stays abstract.
-/
structure CleanupConfig where
  storageClassNames : List String
  pvcDeletionDelay : Nat
  delayText : String
  deriving Repr, DecidableEq

/-- Clean-up of one class after a minute. -/
def sampleCleanup : CleanupConfig where
  storageClassNames := ["fast"]
  pvcDeletionDelay := 60
  delayText := "1m0s"

/-- Metrics and events of the node-cleanup components. -/
inductive CleanupReport where
  | pvDeleteFailed : VolumePhase → CleanupReport
  | pvDeleted : VolumePhase → CleanupReport
  | pvcDeleteFailed : CleanupReport
  | pvcDeleted : CleanupReport
  | warning :
      (claim : Option ObjectReference) →
      (reason message : String) →
      CleanupReport
  deriving Repr, DecidableEq

/-- One call of a node-cleanup component. -/
inductive CleanupOp where
  | listPVs : CleanupOp
  | getPV : (pvName : String) → CleanupOp
  | getNode : (nodeName : String) → CleanupOp
  | listNodes : (hostname : String) → CleanupOp
  | getPVC : (namespaceName name : String) → CleanupOp
  | deletePV : (pvName : String) → CleanupOp
  | deletePVC :
      (namespaceName name : String) → (uid : Nat) → CleanupOp
  | addAfter : (pvName : String) → (delay : Nat) → CleanupOp
  | addRateLimited : (pvName : String) → CleanupOp
  | forget : (pvName : String) → CleanupOp
  | doneWith : (pvName : String) → CleanupOp
  | report : CleanupReport → CleanupOp
  deriving Repr, DecidableEq

/-- The reply type of each call. -/
def CleanupOp.Reply : CleanupOp → Type
  | .listPVs => Except ApiError (List PersistentVolume)
  | .getPV _ => Except ApiError PersistentVolume
  | .getNode _ => Except ApiError Node
  | .listNodes _ => Except ApiError (List Node)
  | .getPVC _ _ => Except ApiError PersistentVolumeClaim
  | .deletePV _ => Except ApiError Unit
  | .deletePVC _ _ _ => Except ApiError Unit
  | .addAfter _ _ => Unit
  | .addRateLimited _ => Unit
  | .forget _ => Unit
  | .doneWith _ => Unit
  | .report _ => Unit

/-- The PV name that a call puts into the queue, if it does. -/
def CleanupOp.enqueues : CleanupOp → Option String
  | .addAfter pvName _ => some pvName
  | .addRateLimited pvName => some pvName
  | _ => none

/-- The calls of the work queue. -/
def CleanupOp.usesQueue : CleanupOp → Bool
  | .addAfter _ _ | .addRateLimited _ | .forget _ | .doneWith _ => true
  | _ => false

/-- The signature of node-cleanup routines. -/
abbrev cleanupSignature : Signature where
  Op := CleanupOp
  Reply := CleanupOp.Reply

/-- A routine of a node-cleanup component. -/
abbrev CleanupRoutine (α : Type) := Program cleanupSignature α

/-- Make one call. -/
def perform (op : CleanupOp) : CleanupRoutine op.Reply :=
  @Program.perform cleanupSignature op

/-- `IsValidLabelValue`: at most 63 bytes of a qualified name, or empty. -/
def isValidLabelValue (value : String) : Bool :=
  let characters := value.toList
  decide (value.utf8ByteSize ≤ 63) &&
    characters.all (fun char => char.isAlphanum || "-_.".toList.contains char) &&
    characters.head?.all Char.isAlphanum &&
    characters.getLast?.all Char.isAlphanum

/-- `AnyNodeExists`. -/
def anyNodeExists : List String → CleanupRoutine Bool
  | [] => pure false
  | nodeName :: rest => do
      match ← perform (.getNode nodeName) with
      | .ok _ => pure true
      | .error .notFound =>
          if isValidLabelValue nodeName then
            match ← perform (.listNodes nodeName) with
            | .error _ => pure true
            | .ok (_ :: _) => pure true
            | .ok [] => anyNodeExists rest
          else
            pure true
      | .error _ => pure true

/-- `IsLocalPVWithStorageClass`. -/
def isLocalPVWithStorageClass
    (pv : PersistentVolume)
    (storageClassNames : List String) :
    Bool :=
  pv.localSource.isSome && storageClassNames.contains pv.storageClassName

/-!
## The deleter of stale PVs
-/

/-- `referencesNonExistentNode`. -/
def referencesNonExistentNode
    (localPV : PersistentVolume) : CleanupRoutine Bool :=
  match getLocalPersistentVolumeNodeNames localPV with
  | none => pure false
  | some nodeNames => do
      let exist ← anyNodeExists nodeNames
      pure (!exist)

/-- `deletePV`. -/
def deletePV (pvName : String) : CleanupRoutine (Except ApiError Unit) := do
  match ← perform (.deletePV pvName) with
  | .error .notFound => pure (.ok ())
  | reply => pure reply

/-- The phases in which a stale PV can safely be deleted. -/
def isDisposable (pv : PersistentVolume) : Bool :=
  let isReleasedWithDeleteReclaim :=
    decide (pv.phase = .released) && decide (pv.reclaimPolicy = .delete)
  let isAvailable := decide (pv.phase = .available)
  isReleasedWithDeleteReclaim || isAvailable

/-- The body of the loop of `DeletePVs`. -/
def deleteIfStale
    (config : CleanupConfig)
    (pv : PersistentVolume) :
    CleanupRoutine Unit :=
  if isLocalPVWithStorageClass pv config.storageClassNames then do
    if ← referencesNonExistentNode pv then
      if isDisposable pv then
        match ← deletePV pv.name with
        | .error _ =>
            let _ ← perform (.report (.pvDeleteFailed pv.phase))
            pure ()
        | .ok _ =>
            let _ ← perform (.report (.pvDeleted pv.phase))
            pure ()
      else
        pure ()
    else
      pure ()
  else
    pure ()

/-- `DeletePVs` of the node-cleanup deleter. -/
def deletePVs (config : CleanupConfig) : CleanupRoutine Unit := do
  match ← perform .listPVs with
  | .error _ => pure ()
  | .ok pvs => Program.forEach (deleteIfStale config) pvs

/-!
## The controller that deletes PVCs
-/

/-- `deletePVC`, with the UID of the PVC as a precondition. -/
def deletePVC
    (pvc : PersistentVolumeClaim) :
    CleanupRoutine (Except ApiError Unit) := do
  match ← perform (.deletePVC pvc.namespaceName pvc.name pvc.uid) with
  | .error .notFound => pure (.ok ())
  | reply => pure reply

/-- The part of `syncHandler` after the PVC has been found. -/
def deleteBoundPVC
    (pv : PersistentVolume)
    (claim : ObjectReference)
    (pvc : PersistentVolumeClaim) :
    CleanupRoutine (Except ApiError Unit) :=
  if pvc.volumeName ≠ pv.name ∨ pvc.uid ≠ claim.uid then
    pure (.ok ())
  else do
    match ← deletePVC pvc with
    | .error err =>
        let _ ← perform (.report .pvcDeleteFailed)
        pure (.error err)
    | .ok _ =>
        let _ ← perform (.report .pvcDeleted)
        pure (.ok ())

/-- The part of `syncHandler` once the nodes are known to be gone. -/
def deleteClaimOf
    (pv : PersistentVolume) : CleanupRoutine (Except ApiError Unit) :=
  match pv.claimRef with
  | none => pure (.ok ())
  | some claim => do
      match ← perform (.getPVC claim.namespaceName claim.name) with
      | .error .notFound => pure (.ok ())
      | .error err => pure (.error err)
      | .ok pvc => deleteBoundPVC pv claim pvc

/-- The part of `syncHandler` after the PV has been found. -/
def syncPV (pv : PersistentVolume) : CleanupRoutine (Except ApiError Unit) :=
  match getLocalPersistentVolumeNodeNames pv with
  | none => pure (.ok ())
  | some nodeNames => do
      if ← anyNodeExists nodeNames then
        pure (.ok ())
      else
        deleteClaimOf pv

/-- `syncHandler`. -/
def syncHandler (pvName : String) : CleanupRoutine (Except ApiError Unit) := do
  match ← perform (.getPV pvName) with
  | .error .notFound => pure (.ok ())
  | .error err => pure (.error err)
  | .ok pv => syncPV pv

/-- `processNextWorkItem` on a key that the queue has handed out. -/
def processNextWorkItem (pvName : String) : CleanupRoutine Unit := do
  match ← syncHandler pvName with
  | .error _ =>
      let _ ← perform (.addRateLimited pvName)
      perform (.doneWith pvName)
  | .ok _ =>
      let _ ← perform (.forget pvName)
      perform (.doneWith pvName)

/-- `shouldEnqueueEntry`. -/
def shouldEnqueueEntry
    (pv : PersistentVolume)
    (nodeNames : List String) :
    CleanupRoutine Bool :=
  if pv.claimRef = none then
    pure false
  else do
    let exist ← anyNodeExists nodeNames
    pure (!exist)

/-- The event that announces the deletion of a PVC. -/
def deletionWarning
    (config : CleanupConfig)
    (pv : PersistentVolume) :
    CleanupReport :=
  .warning pv.claimRef "ReferencedNodeDeleted"
    ("PVC is tied to a deleted Node. PVC will be cleaned up in " ++
      config.delayText ++ " if the Node doesn't come back")

/-- The body of the loop of `startCleanupTimersIfNeeded`. -/
def startTimerIfNeeded
    (config : CleanupConfig)
    (pv : PersistentVolume) :
    CleanupRoutine Unit :=
  if isLocalPVWithStorageClass pv config.storageClassNames then
    match getLocalPersistentVolumeNodeNames pv with
    | none => pure ()
    | some nodeNames => do
        if ← shouldEnqueueEntry pv nodeNames then
          let _ ← perform (.report (deletionWarning config pv))
          perform (.addAfter pv.name config.pvcDeletionDelay)
        else
          pure ()
  else
    pure ()

/-- `startCleanupTimersIfNeeded`, which is also the handler `nodeDeleted`. -/
def startCleanupTimersIfNeeded (config : CleanupConfig) : CleanupRoutine Unit := do
  match ← perform .listPVs with
  | .error _ => pure ()
  | .ok pvs => Program.forEach (startTimerIfNeeded config) pvs

/-!
## Runs against fixed listers

What the routines do while the listers answer from fixed contents.
-/

/-- The contents of the listers. -/
structure Listers where
  pvs : ObjectStore PersistentVolume PersistentVolume.name
  nodes : ObjectStore Node Node.name
  pvcs : ObjectStore PersistentVolumeClaim PersistentVolumeClaim.key

/-- The answer of a lister to a request for one object. -/
def found {α : Type} : Option α → Except ApiError α
  | none => .error .notFound
  | some object => .ok object

namespace Listers

/-- The nodes with a given value of the hostname label. -/
def labelledNodes (listers : Listers) (hostname : String) : List Node :=
  listers.nodes.list.filter fun node =>
    decide (node.labels.lookup hostnameLabel = some hostname)

/-- The replies of the listers, with any outcome of the API requests. -/
def reply
    (listers : Listers)
    (outcome : CleanupOp → Except ApiError Unit) :
    (op : CleanupOp) → op.Reply
  | .listPVs => (.ok listers.pvs.list : Except ApiError (List PersistentVolume))
  | .getPV pvName => found (listers.pvs.get pvName)
  | .getNode nodeName => found (listers.nodes.get nodeName)
  | .listNodes hostname =>
      (.ok (listers.labelledNodes hostname) : Except ApiError (List Node))
  | .getPVC namespaceName name => found (listers.pvcs.get (namespaceName, name))
  | .deletePV pvName => outcome (.deletePV pvName)
  | .deletePVC namespaceName name uid =>
      outcome (.deletePVC namespaceName name uid)
  | .addAfter _ _ => ()
  | .addRateLimited _ => ()
  | .forget _ => ()
  | .doneWith _ => ()
  | .report _ => ()

/-- Every call gets its reply. -/
def answer
    (listers : Listers)
    (outcome : CleanupOp → Except ApiError Unit)
    (op : CleanupOp) :
    Option op.Reply :=
  some (listers.reply outcome op)

/-- Is a node known under this name, or can that not be ruled out? -/
def mayExist (listers : Listers) (nodeName : String) : Bool :=
  (listers.nodes.get nodeName).isSome || !isValidLabelValue nodeName ||
    !(listers.labelledNodes nodeName).isEmpty

variable {listers : Listers}
variable {outcome : CleanupOp → Except ApiError Unit}

/-- Every routine ends. -/
theorem exists_result {α : Type} (routine : CleanupRoutine α) :
    ∃ value, routine.result (listers.answer outcome) = some value :=
  Program.exists_result (fun _ => rfl) routine

/-- The result of a routine that begins with a call. -/
@[simp] theorem result_perform_bind
    {α : Type}
    (op : CleanupOp)
    (next : op.Reply → CleanupRoutine α) :
    (perform op >>= next).result (listers.answer outcome) =
      (next (listers.reply outcome op)).result (listers.answer outcome) :=
  rfl

/-- The calls of a routine that begins with a call. -/
@[simp] theorem calls_perform_bind
    {α : Type}
    (op : CleanupOp)
    (next : op.Reply → CleanupRoutine α) :
    (perform op >>= next).calls (listers.answer outcome) =
      op ::
        (next (listers.reply outcome op)).calls (listers.answer outcome) :=
  rfl

/-- The answer of `AnyNodeExists`. -/
theorem result_anyNodeExists (nodeNames : List String) :
    (anyNodeExists nodeNames).result (listers.answer outcome) =
      some (nodeNames.any listers.mayExist) := by
  induction nodeNames with
  | nil => rfl
  | cons nodeName rest inductionHypothesis =>
      rw [anyNodeExists, result_perform_bind, reply, List.any_cons, mayExist]
      cases stored : listers.nodes.get nodeName with
      | some node => rfl
      | none =>
          cases valid : isValidLabelValue nodeName with
          | false => rfl
          | true =>
              simp only [found, if_true, result_perform_bind, reply]
              cases listers.labelledNodes nodeName with
              | nil => exact inductionHypothesis
              | cons node others => rfl

/-- `AnyNodeExists` only looks nodes up. -/
theorem mem_calls_anyNodeExists
    {op : CleanupOp}
    {nodeNames : List String}
    (called : op ∈ (anyNodeExists nodeNames).calls (listers.answer outcome)) :
    ∃ nodeName, op = .getNode nodeName ∨ op = .listNodes nodeName := by
  induction nodeNames with
  | nil => cases called
  | cons nodeName rest inductionHypothesis =>
      rw [anyNodeExists, calls_perform_bind, reply, List.mem_cons] at called
      rcases called with rfl | later
      · exact ⟨nodeName, .inl rfl⟩
      · split at later
        · cases later
        · split at later
          · rw [calls_perform_bind, List.mem_cons] at later
            rcases later with rfl | afterwards
            · exact ⟨nodeName, .inr rfl⟩
            · split at afterwards
              · cases afterwards
              · cases afterwards
              · exact inductionHypothesis afterwards
          · cases later
        · cases later

/-- To return the opposite of its answer, only nodes are looked up. -/
theorem mem_calls_not_anyNodeExists
    {op : CleanupOp}
    {nodeNames : List String}
    (called :
      op ∈
        ((anyNodeExists nodeNames).bind fun exist => .done !exist).calls
          (listers.answer outcome)) :
    ∃ nodeName, op = .getNode nodeName ∨ op = .listNodes nodeName := by
  rw [Program.calls_bind, result_anyNodeExists] at called
  exact mem_calls_anyNodeExists (by simpa [Program.calls] using called)

/-- Do the listers show that all nodes a PV names are gone? -/
def isStale (listers : Listers) (pv : PersistentVolume) : Bool :=
  (getLocalPersistentVolumeNodeNames pv).any fun nodeNames =>
    !nodeNames.any listers.mayExist

/-- The answer of `referencesNonExistentNode`. -/
theorem result_referencesNonExistentNode (pv : PersistentVolume) :
    (referencesNonExistentNode pv).result (listers.answer outcome) =
      some (listers.isStale pv) := by
  unfold referencesNonExistentNode isStale
  cases getLocalPersistentVolumeNodeNames pv with
  | none => rfl
  | some nodeNames =>
      simp [Program.result_bind, result_anyNodeExists, Program.result]

/-- `referencesNonExistentNode` only looks nodes up. -/
theorem mem_calls_referencesNonExistentNode
    {op : CleanupOp}
    {pv : PersistentVolume}
    (called :
      op ∈ (referencesNonExistentNode pv).calls (listers.answer outcome)) :
    ∃ nodeName, op = .getNode nodeName ∨ op = .listNodes nodeName := by
  unfold referencesNonExistentNode at called
  split at called
  · cases called
  · exact mem_calls_not_anyNodeExists called

/-- `deletePV` makes one request. -/
theorem calls_deletePV (pvName : String) :
    (deletePV pvName).calls (listers.answer outcome) = [.deletePV pvName] := by
  rw [deletePV, calls_perform_bind]
  split <;> rfl

/-- `deletePVC` makes one request. -/
theorem calls_deletePVC (pvc : PersistentVolumeClaim) :
    (deletePVC pvc).calls (listers.answer outcome) =
      [.deletePVC pvc.namespaceName pvc.name pvc.uid] := by
  rw [deletePVC, calls_perform_bind]
  split <;> rfl

/-- The PVs that one round of `DeletePVs` deletes. -/
theorem deletePV_mem_calls_deleteIfStale
    {config : CleanupConfig}
    {pv : PersistentVolume}
    {pvName : String} :
    .deletePV pvName ∈
        (deleteIfStale config pv).calls (listers.answer outcome) ↔
      pvName = pv.name ∧
        isLocalPVWithStorageClass pv config.storageClassNames = true ∧
        listers.isStale pv = true ∧
        isDisposable pv = true := by
  unfold deleteIfStale
  split
  · rename_i isLocal
    have noLookup :
        .deletePV pvName ∉
          (referencesNonExistentNode pv).calls (listers.answer outcome) := by
      intro called
      obtain ⟨_, same | same⟩ := mem_calls_referencesNonExistentNode called
      · cases same
      · cases same
    rw [Program.bind_eq, Program.calls_bind,
      result_referencesNonExistentNode, List.mem_append, Option.elim_some]
    cases listers.isStale pv with
    | false => simp [noLookup, Program.calls]
    | true =>
        cases isDisposable pv with
        | false => simp [noLookup, Program.calls]
        | true =>
            obtain ⟨reply, ended⟩ :=
              @exists_result listers outcome _ (deletePV pv.name)
            simp only [noLookup, if_true, false_or, isLocal, and_true]
            rw [Program.bind_eq, Program.calls_bind, calls_deletePV, ended,
              Option.elim_some, List.mem_append]
            rcases reply with err | _
            · rw [calls_perform_bind]
              simp [Program.calls]
            · rw [calls_perform_bind]
              simp [Program.calls]
  · rename_i notLocal
    simp [Program.calls, notLocal]

/-- The PVs that `DeletePVs` deletes. -/
theorem deletePV_mem_calls_deletePVs
    {config : CleanupConfig}
    {pvName : String} :
    .deletePV pvName ∈ (deletePVs config).calls (listers.answer outcome) ↔
      ∃ pv,
        listers.pvs.get pvName = some pv ∧
          isLocalPVWithStorageClass pv config.storageClassNames = true ∧
          listers.isStale pv = true ∧
          isDisposable pv = true := by
  rw [deletePVs, calls_perform_bind, reply, Program.calls_forEach fun _ => rfl]
  simp only [List.mem_cons, reduceCtorEq, false_or, List.mem_flatMap]
  constructor
  · intro deletion
    obtain ⟨pv, listed, called⟩ := deletion
    obtain ⟨rfl, deleted⟩ := deletePV_mem_calls_deleteIfStale.mp called
    exact ⟨pv, ObjectStore.mem_list.mp listed, deleted⟩
  · intro deletion
    obtain ⟨pv, stored, deleted⟩ := deletion
    obtain rfl := ObjectStore.name_of_get stored
    exact ⟨pv, ObjectStore.mem_list.mpr stored,
      deletePV_mem_calls_deleteIfStale.mpr ⟨rfl, deleted⟩⟩

/-- The PVC that a PV and its claim agree on, if there is one. -/
def boundPVC (listers : Listers) (pv : PersistentVolume) :
    Option PersistentVolumeClaim :=
  pv.claimRef.bind fun claim =>
    (listers.pvcs.get (claim.namespaceName, claim.name)).filter fun pvc =>
      decide (pvc.volumeName = pv.name ∧ pvc.uid = claim.uid)

/-- The PVC is deleted if it and the PV still refer to each other. -/
theorem deletePVC_mem_calls_deleteBoundPVC
    {pv : PersistentVolume}
    {claim : ObjectReference}
    {pvc : PersistentVolumeClaim}
    {namespaceName name : String}
    {uid : Nat} :
    .deletePVC namespaceName name uid ∈
        (deleteBoundPVC pv claim pvc).calls (listers.answer outcome) ↔
      (pvc.volumeName = pv.name ∧ pvc.uid = claim.uid) ∧
        namespaceName = pvc.namespaceName ∧ name = pvc.name ∧
        uid = pvc.uid := by
  unfold deleteBoundPVC
  split
  · rename_i severed
    rw [← not_and_or] at severed
    simp [severed, Program.calls]
  · rename_i bound
    rw [← not_and_or, not_not] at bound
    obtain ⟨reply, ended⟩ := @exists_result listers outcome _ (deletePVC pvc)
    rw [Program.bind_eq, Program.calls_bind, calls_deletePVC, ended,
      Option.elim_some, List.mem_append]
    rcases reply with err | _
    · rw [calls_perform_bind]
      simp [bound, Program.calls]
    · rw [calls_perform_bind]
      simp [bound, Program.calls]

/-- The PVC that the last part of `syncHandler` deletes. -/
theorem deletePVC_mem_calls_deleteClaimOf
    {pv : PersistentVolume}
    {namespaceName name : String}
    {uid : Nat} :
    .deletePVC namespaceName name uid ∈
        (deleteClaimOf pv).calls (listers.answer outcome) ↔
      ∃ pvc,
        listers.boundPVC pv = some pvc ∧
          namespaceName = pvc.namespaceName ∧ name = pvc.name ∧
          uid = pvc.uid := by
  unfold deleteClaimOf boundPVC
  cases pv.claimRef with
  | none => simp [Program.calls]
  | some claim =>
      rw [calls_perform_bind, reply]
      simp only [Option.bind_some, List.mem_cons, reduceCtorEq, false_or]
      cases listers.pvcs.get (claim.namespaceName, claim.name) with
      | none => simp [found, Program.calls]
      | some pvc =>
          simp only [found, Option.filter_eq_some_iff, Option.some.injEq,
            decide_eq_true_eq]
          rw [deletePVC_mem_calls_deleteBoundPVC]
          constructor
          · intro deletion
            obtain ⟨bound, named⟩ := deletion
            exact ⟨pvc, ⟨rfl, bound⟩, named⟩
          · intro deletion
            obtain ⟨_, ⟨rfl, bound⟩, named⟩ := deletion
            exact ⟨bound, named⟩

/-- The PVC is deleted if the nodes of the PV are gone. -/
theorem deletePVC_mem_calls_syncPV
    {pv : PersistentVolume}
    {namespaceName name : String}
    {uid : Nat} :
    .deletePVC namespaceName name uid ∈
        (syncPV pv).calls (listers.answer outcome) ↔
      listers.isStale pv = true ∧
        ∃ pvc,
          listers.boundPVC pv = some pvc ∧
            namespaceName = pvc.namespaceName ∧ name = pvc.name ∧
            uid = pvc.uid := by
  unfold syncPV isStale
  cases getLocalPersistentVolumeNodeNames pv with
  | none => simp [Program.calls]
  | some nodeNames =>
      have noLookup :
          .deletePVC namespaceName name uid ∉
            (anyNodeExists nodeNames).calls (listers.answer outcome) := by
        intro called
        obtain ⟨_, same | same⟩ := mem_calls_anyNodeExists called
        · cases same
        · cases same
      simp only [Program.bind_eq, Program.calls_bind, result_anyNodeExists,
        Option.elim_some, List.mem_append, Option.any_some]
      cases nodeNames.any listers.mayExist with
      | true => simp [noLookup, Program.calls]
      | false =>
          simpa [noLookup] using deletePVC_mem_calls_deleteClaimOf

/-- The PVC that `syncHandler` deletes. -/
theorem deletePVC_mem_calls_syncHandler
    {pvName namespaceName name : String}
    {uid : Nat} :
    .deletePVC namespaceName name uid ∈
        (syncHandler pvName).calls (listers.answer outcome) ↔
      ∃ pv pvc,
        listers.pvs.get pvName = some pv ∧
          listers.isStale pv = true ∧
          listers.boundPVC pv = some pvc ∧
          namespaceName = pvc.namespaceName ∧ name = pvc.name ∧
          uid = pvc.uid := by
  rw [syncHandler, calls_perform_bind, reply]
  simp only [List.mem_cons, reduceCtorEq, false_or]
  cases listers.pvs.get pvName with
  | none => simp [found, Program.calls]
  | some pv =>
      simp only [found, Option.some.injEq]
      rw [deletePVC_mem_calls_syncPV]
      constructor
      · intro deletion
        obtain ⟨stale, pvc, bound, named⟩ := deletion
        exact ⟨pv, pvc, rfl, stale, bound, named⟩
      · intro deletion
        obtain ⟨_, pvc, rfl, stale, bound, named⟩ := deletion
        exact ⟨stale, pvc, bound, named⟩

/-- The answer of `shouldEnqueueEntry`. -/
theorem result_shouldEnqueueEntry
    (pv : PersistentVolume)
    (nodeNames : List String) :
    (shouldEnqueueEntry pv nodeNames).result (listers.answer outcome) =
      some (pv.claimRef.isSome && !nodeNames.any listers.mayExist) := by
  unfold shouldEnqueueEntry
  split
  · rename_i unbound
    simp [unbound, Program.result]
  · rename_i bound
    rw [← ne_eq, Option.ne_none_iff_isSome] at bound
    simp [bound, Program.result_bind, result_anyNodeExists, Program.result]

/-- `shouldEnqueueEntry` only looks nodes up. -/
theorem mem_calls_shouldEnqueueEntry
    {op : CleanupOp}
    {pv : PersistentVolume}
    {nodeNames : List String}
    (called :
      op ∈ (shouldEnqueueEntry pv nodeNames).calls (listers.answer outcome)) :
    ∃ nodeName, op = .getNode nodeName ∨ op = .listNodes nodeName := by
  unfold shouldEnqueueEntry at called
  split at called
  · cases called
  · exact mem_calls_not_anyNodeExists called

/-- A timer is started only if the nodes of the PV are gone. -/
theorem enqueues_of_mem_calls_startTimerIfNeeded
    {config : CleanupConfig}
    {pv : PersistentVolume}
    {op : CleanupOp}
    {pvName : String}
    (called :
      op ∈ (startTimerIfNeeded config pv).calls (listers.answer outcome))
    (enqueues : op.enqueues = some pvName) :
    op = .addAfter pv.name config.pvcDeletionDelay ∧
      listers.isStale pv = true := by
  unfold startTimerIfNeeded at called
  split at called
  · split at called
    · cases called
    · rename_i nodeNames read
      simp only [Program.bind_eq, Program.calls_bind,
        result_shouldEnqueueEntry, Option.elim_some] at called
      rcases List.mem_append.mp called with lookup | later
      · obtain ⟨_, rfl | rfl⟩ := mem_calls_shouldEnqueueEntry lookup
        · cases enqueues
        · cases enqueues
      · cases gone : pv.claimRef.isSome && !nodeNames.any listers.mayExist with
        | false =>
            rw [gone] at later
            cases later
        | true =>
            rw [gone] at later
            rcases List.mem_cons.mp later with rfl | last
            · cases enqueues
            · refine ⟨List.mem_singleton.mp last, ?_⟩
              rw [Bool.and_eq_true] at gone
              simpa [isStale, read] using gone.2
  · cases called

/-- The timers that one scan starts. -/
theorem enqueues_of_mem_calls_startCleanupTimersIfNeeded
    {config : CleanupConfig}
    {op : CleanupOp}
    {pvName : String}
    (called :
      op ∈ (startCleanupTimersIfNeeded config).calls (listers.answer outcome))
    (enqueues : op.enqueues = some pvName) :
    op = .addAfter pvName config.pvcDeletionDelay ∧
      ∃ pv,
        listers.pvs.get pvName = some pv ∧ listers.isStale pv = true := by
  rw [startCleanupTimersIfNeeded, calls_perform_bind, reply,
    Program.calls_forEach fun _ => rfl] at called
  rcases List.mem_cons.mp called with rfl | later
  · cases enqueues
  · obtain ⟨pv, listed, started⟩ := List.mem_flatMap.mp later
    obtain ⟨rfl, stale⟩ :=
      enqueues_of_mem_calls_startTimerIfNeeded started enqueues
    cases enqueues
    exact ⟨rfl, pv, ObjectStore.mem_list.mp listed, stale⟩

end Listers

section AllowedCalls

variable {allowed : cleanupSignature.Op → Prop}

/-- `AnyNodeExists` only looks nodes up. -/
theorem only_anyNodeExists
    (byName : ∀ nodeName, allowed (.getNode nodeName))
    (byLabel : ∀ hostname, allowed (.listNodes hostname))
    (nodeNames : List String) :
    Program.Only allowed (anyNodeExists nodeNames) := by
  induction nodeNames with
  | nil => exact .done
  | cons nodeName rest inductionHypothesis =>
      refine .call (byName nodeName) ?_
      intro (node : Except ApiError Node)
      rcases node with (_ | _ | _) | _
      · show Program.Only allowed (ite _ _ _)
        split
        · refine .call (byLabel nodeName) ?_
          intro (labelled : Except ApiError (List Node))
          rcases labelled with _ | (_ | _)
          · exact .done
          · exact inductionHypothesis
          · exact .done
        · exact .done
      · exact .done
      · exact .done
      · exact .done

/-- A scan lists PVs, looks nodes up, and announces and starts timers. -/
theorem only_startCleanupTimersIfNeeded
    (config : CleanupConfig)
    (lists : allowed .listPVs)
    (byName : ∀ nodeName, allowed (.getNode nodeName))
    (byLabel : ∀ hostname, allowed (.listNodes hostname))
    (reports : ∀ report, allowed (.report report))
    (adds : ∀ pvName delay, allowed (.addAfter pvName delay)) :
    Program.Only allowed (startCleanupTimersIfNeeded config) := by
  refine .call lists ?_
  intro (listed : Except ApiError (List PersistentVolume))
  rcases listed with err | pvs
  · exact .done
  · refine Program.Only.forEach ?_ pvs
    intro pv
    unfold startTimerIfNeeded shouldEnqueueEntry
    split
    · split
      · exact .done
      · rename_i nodeNames _
        split
        · exact .done
        · refine ((only_anyNodeExists byName byLabel nodeNames).bind
            fun _ => .done).bind ?_
          intro due
          cases due with
          | false => exact .done
          | true => exact .call (reports _) fun _ => .call (adds _ _) fun _ => .done
    · exact .done

variable (silent : ∀ op : CleanupOp, op.usesQueue = false → allowed op)

include silent

theorem only_deleteClaimOf (pv : PersistentVolume) :
    Program.Only allowed (deleteClaimOf pv) := by
  unfold deleteClaimOf
  split
  · exact .done
  · refine .call (silent _ rfl) ?_
    intro (listed : Except ApiError PersistentVolumeClaim)
    rcases listed with (_ | _ | _) | pvc
    · exact .done
    · exact .done
    · exact .done
    · show Program.Only allowed (deleteBoundPVC pv _ pvc)
      unfold deleteBoundPVC
      split
      · exact .done
      · refine .call (silent _ rfl) ?_
        intro (reply : Except ApiError Unit)
        rcases reply with (_ | _ | _) | _ <;>
          exact .call (silent _ rfl) fun _ => .done

/-- `syncHandler` leaves the queue alone. -/
theorem only_syncHandler (pvName : String) :
    Program.Only allowed (syncHandler pvName) := by
  refine .call (silent _ rfl) ?_
  intro (listed : Except ApiError PersistentVolume)
  rcases listed with (_ | _ | _) | pv
  · exact .done
  · exact .done
  · exact .done
  · show Program.Only allowed (syncPV pv)
    unfold syncPV
    split
    · exact .done
    · refine (only_anyNodeExists (fun _ => silent _ rfl)
        (fun _ => silent _ rfl) _).bind ?_
      intro exist
      cases exist
      · exact only_deleteClaimOf silent pv
      · exact .done

end AllowedCalls

/-- `processNextWorkItem` puts at most its own key into the queue again. -/
theorem enqueues_of_mem_calls_processNextWorkItem
    {answer : (op : CleanupOp) → Option op.Reply}
    {op : CleanupOp}
    {key pvName : String}
    (called : op ∈ (processNextWorkItem key).calls answer)
    (enqueues : op.enqueues = some pvName) :
    op = .addRateLimited key := by
  have only :
      Program.Only (fun op : CleanupOp =>
        op.enqueues = none ∨ op = .addRateLimited key)
        (processNextWorkItem key) := by
    have silent :
        ∀ op : CleanupOp,
          op.usesQueue = false →
          op.enqueues = none ∨ op = .addRateLimited key := by
      intro op unused
      left
      cases op <;> first | rfl | cases unused
    refine (only_syncHandler silent key).bind ?_
    intro outcome
    cases outcome with
    | error err => exact .call (.inr rfl) fun _ => .call (.inl rfl) fun _ => .done
    | ok _ => exact .call (.inl rfl) fun _ => .call (.inl rfl) fun _ => .done
  rcases only.of_mem_calls called with silent | same
  · rw [silent] at enqueues
    cases enqueues
  · exact same

end NodeCleanup

end LocalProvisioner
