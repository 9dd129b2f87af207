import LocalProvisioner.CleanupRecord
import LocalProvisioner.GracePeriod

namespace LocalProvisioner

namespace NodeCleanup

open Interleaving

/-!
# The cleanup controller at work

Scans and any number of workers run side by side, one call at a time.  Between
two calls the listers may come to show other nodes, PVs and PVCs, and other
clients may create, bind and delete PVCs.  A lister may lag by any amount: it
shows any PVs, and any PVCs whose UIDs have been given out.  Every call to a
lister or to the API server may fail.

The API server gives a UID out once, and carries out a deletion only if the
PVC has the UID of the request.
-/

/-- What a goroutine of the controller is there for. -/
inductive Duty where
  | scan : Duty
  | item : (key : String) → Duty
  deriving Repr, DecidableEq

/-- The routine of each duty. -/
def Duty.routine (config : CleanupConfig) : Duty → CleanupRoutine Unit
  | .scan => startCleanupTimersIfNeeded config
  | .item key => processNextWorkItem key

/-- A routine that has been started: its answered calls, and what is left. -/
structure Underway where
  duty : Duty
  history : CleanupHistory
  rest : CleanupRoutine Unit

/-- A routine before its first call. -/
def Duty.start (config : CleanupConfig) (duty : Duty) : Underway where
  duty
  history := []
  rest := duty.routine config

/-- A deletion that the API server has accepted, and what led to it. -/
structure AcceptedDeletion where
  duty : Duty
  history : CleanupHistory
  pvc : PersistentVolumeClaim

/--
How a call is answered.  A deletion may be carried out although its reply is
an error, and finalizers may keep the PVC for a while.  The rate limiter
chooses the backoff.
-/
structure CallAnswer where
  fault : Option ApiError
  carriedOut : Bool
  finalizers : Bool
  backoff : Nat

/-- The controller with its listers, the PVCs of the API server, and its queue. -/
structure CleanupSystem where
  now : Nat
  listers : Listers
  claims : PVCStore
  nextUid : Nat
  deletedNodes : Nat
  pvQueue : DelayQueue String
  routines : List Underway
  accepted : List AcceptedDeletion

/-- The reply to a request that may fail, but not with `NotFound`. -/
def CallAnswer.orFault
    {α : Type}
    (answer : CallAnswer)
    (served : Except ApiError α) :
    Option (Except ApiError α) :=
  match answer.fault with
  | none => some served
  | some .notFound => none
  | some err => some (.error err)

namespace CleanupSystem

/-- The reply of the API server to a deletion with a UID as precondition. -/
def deletionReply
    (system : CleanupSystem)
    (namespaceName name : String)
    (uid : Nat) :
    Except ApiError Unit :=
  match system.claims.get (namespaceName, name) with
  | none => .error .notFound
  | some pvc =>
      if pvc.uid = uid then
        .ok ()
      else
        .error (.other "the UID in the precondition does not match")

/-- The reply to a call; PVs are deleted by another component. -/
def replyTo
    (system : CleanupSystem)
    (answer : CallAnswer) :
    (op : CleanupOp) → Option op.Reply
  | .listPVs =>
      @CallAnswer.orFault (List PersistentVolume) answer
        (.ok system.listers.pvs.list)
  | .getPV pvName => answer.orFault (found (system.listers.pvs.get pvName))
  | .getNode nodeName =>
      answer.orFault (found (system.listers.nodes.get nodeName))
  | .listNodes hostname =>
      @CallAnswer.orFault (List Node) answer
        (.ok (system.listers.labelledNodes hostname))
  | .getPVC namespaceName name =>
      answer.orFault (found (system.listers.pvcs.get (namespaceName, name)))
  | .deletePV _ => none
  | .deletePVC namespaceName name uid =>
      answer.orFault (system.deletionReply namespaceName name uid)
  | .addAfter _ _ => some ()
  | .addRateLimited _ => some ()
  | .forget _ => some ()
  | .doneWith _ => some ()
  | .report _ => some ()

/-- The PVC whose deletion a call has accepted. -/
def accepts (system : CleanupSystem) (answer : CallAnswer) :
    CleanupOp → Option PersistentVolumeClaim
  | .deletePVC namespaceName name uid =>
      if answer.fault = none ∨ answer.carriedOut = true then
        (system.claims.get (namespaceName, name)).filter fun pvc =>
          decide (pvc.uid = uid)
      else
        none
  | _ => none

/-- The effects of a call. -/
def afterCall
    (system : CleanupSystem)
    (answer : CallAnswer)
    (op : CleanupOp) :
    CleanupSystem :=
  { system with
    pvQueue := queueCall system.now answer.backoff system.pvQueue op
    claims :=
      if answer.finalizers then
        system.claims
      else
        (system.accepts answer op).elim system.claims fun pvc =>
          system.claims.drop pvc.key }

/-- The next call of a routine is answered. -/
def answerCall
    (system : CleanupSystem)
    (index : Nat)
    (answer : CallAnswer) :
    Option CleanupSystem :=
  match system.routines[index]? with
  | none => none
  | some ⟨_, _, .done _⟩ => none
  | some ⟨duty, history, .call op next⟩ =>
      (system.replyTo answer op).map fun reply =>
        { system.afterCall answer op with
          routines :=
            system.routines.set index ⟨duty, ⟨op, reply⟩ :: history, next reply⟩
          accepted :=
            (system.accepts answer op).toList.map
                (fun pvc => ⟨duty, history, pvc⟩) ++
              system.accepted }

/-- Is a worker busy with a key? -/
def isProcessing (system : CleanupSystem) (pvName : String) : Bool :=
  system.routines.any fun underway =>
    decide (underway.duty = .item pvName) && !underway.rest.isDone

/-- A goroutine starts. -/
def launch (system : CleanupSystem) (config : CleanupConfig) (duty : Duty) :
    CleanupSystem :=
  { system with routines := duty.start config :: system.routines }

end CleanupSystem

/-- What can happen next. -/
inductive SystemAction where
  | tick : (duration : Nat) → SystemAction
  | putNode : Node → SystemAction
  | deleteNode : (nodeName : String) → SystemAction
  | nodeDeleted : SystemAction
  | showPVs :
      ObjectStore PersistentVolume PersistentVolume.name → SystemAction
  | showPVCs : PVCStore → SystemAction
  | createClaim : (namespaceName name volumeName : String) → SystemAction
  | bindClaim : (namespaceName name volumeName : String) → SystemAction
  | removeClaim : (namespaceName name : String) → SystemAction
  | ripen : (pvName : String) → SystemAction
  | take : (pvName : String) → SystemAction
  | answer : (index : Nat) → CallAnswer → SystemAction

/-- Is this the deletion of a node? -/
def SystemAction.deletesNode : SystemAction → Bool
  | .deleteNode _ => true
  | _ => false

/-- Have the UIDs of these PVCs been given out? -/
def uidsGiven (pvcs : PVCStore) (nextUid : Nat) : Bool :=
  pvcs.list.all fun pvc => decide (pvc.uid < nextUid)

/-- One step of the system; `none` if the action is not possible. -/
def systemStep (config : CleanupConfig) (system : CleanupSystem) :
    SystemAction → Option CleanupSystem
  | .tick duration => some { system with now := system.now + duration }
  | .putNode node =>
      some { system with
        listers :=
          { system.listers with nodes := system.listers.nodes.put node } }
  | .deleteNode nodeName =>
      match system.listers.nodes.get nodeName with
      | none => none
      | some _ =>
          some { system with
            listers :=
              { system.listers with
                nodes := system.listers.nodes.drop nodeName }
            deletedNodes := system.deletedNodes + 1 }
  | .nodeDeleted =>
      match system.deletedNodes with
      | 0 => none
      | rest + 1 =>
          some ({ system with deletedNodes := rest }.launch config .scan)
  | .showPVs pvs =>
      some { system with listers := { system.listers with pvs } }
  | .showPVCs pvcs =>
      if uidsGiven pvcs system.nextUid then
        some { system with listers := { system.listers with pvcs } }
      else
        none
  | .createClaim namespaceName name volumeName =>
      match system.claims.get (namespaceName, name) with
      | some _ => none
      | none =>
          some { system with
            claims :=
              system.claims.put
                { namespaceName, name, uid := system.nextUid, volumeName }
            nextUid := system.nextUid + 1 }
  | .bindClaim namespaceName name volumeName =>
      (system.claims.get (namespaceName, name)).map fun pvc =>
        { system with claims := system.claims.put { pvc with volumeName } }
  | .removeClaim namespaceName name =>
      some { system with claims := system.claims.drop (namespaceName, name) }
  | .ripen pvName =>
      (system.pvQueue.ripen system.now pvName).map fun pvQueue =>
        { system with pvQueue }
  | .take pvName =>
      -- the queue withholds a key that a worker is busy with
      if pvName ∈ system.pvQueue.ready ∧ system.isProcessing pvName = false then
        some ({ system with
          pvQueue :=
            { system.pvQueue with
              ready := system.pvQueue.ready.erase pvName } }.launch config
                (.item pvName))
      else
        none
  | .answer index answer => system.answerCall index answer

/-- The controller begins with a scan. -/
structure CleanupSystem.AtStartup
    (config : CleanupConfig)
    (system : CleanupSystem) : Prop where
  routines : system.routines = [Duty.scan.start config]
  accepted : system.accepted = []
  pvQueue : system.pvQueue = .empty
  claims : uidsGiven system.claims system.nextUid = true
  pvcs : uidsGiven system.listers.pvcs system.nextUid = true

/-- The states of the runs whose steps are all permitted. -/
abbrev SystemReaches
    (config : CleanupConfig)
    (permitted : CleanupSystem → SystemAction → Prop)
    (system : CleanupSystem) : Prop :=
  Reachable (systemStep config) permitted (CleanupSystem.AtStartup config)
    system

/-!
## What every run keeps
-/

section Runs

variable {config : CleanupConfig}
variable {permitted : CleanupSystem → SystemAction → Prop}
variable {system next : CleanupSystem}

/-- The routine whose call is answered, before and after. -/
theorem CleanupSystem.call_of_answerCall
    {index : Nat}
    {answer : CallAnswer}
    (answered : system.answerCall index answer = some next) :
    ∃ duty history op rest reply,
      system.routines[index]? = some ⟨duty, history, .call op rest⟩ ∧
        system.replyTo answer op = some reply ∧
        next =
          { system.afterCall answer op with
            routines :=
              system.routines.set index
                ⟨duty, ⟨op, reply⟩ :: history, rest reply⟩
            accepted :=
              (system.accepts answer op).toList.map
                  (fun pvc => ⟨duty, history, pvc⟩) ++
                system.accepted } := by
  unfold answerCall at answered
  split at answered
  · cases answered
  · cases answered
  · rename_i duty history op rest atIndex
    obtain ⟨reply, replied, rfl⟩ := Option.map_eq_some_iff.mp answered
    exact ⟨duty, history, op, rest, reply, atIndex, replied, rfl⟩

/-- The ways in which a step can move the system. -/
inductive Moved (config : CleanupConfig) (system : CleanupSystem) :
    SystemAction → CleanupSystem → Prop where
  | surroundings
      {action : SystemAction}
      (now : Nat)
      (listers : Listers)
      (claims : PVCStore)
      (nextUid : Nat) :
      action.deletesNode = false →
      system.nextUid ≤ nextUid →
      listers.pvcs = system.listers.pvcs ∨
        uidsGiven listers.pvcs nextUid = true →
      Moved config system action { system with now, listers, claims, nextUid }
  | nodeGone (nodeName : String) :
      Moved config system (.deleteNode nodeName)
        { system with
          listers :=
            { system.listers with
              nodes := system.listers.nodes.drop nodeName }
          deletedNodes := system.deletedNodes + 1 }
  | scanned (rest : Nat) :
      system.deletedNodes = rest + 1 →
      Moved config system .nodeDeleted
        ({ system with deletedNodes := rest }.launch config .scan)
  | ripened (pvName : String) (pvQueue : DelayQueue String) :
      system.pvQueue.ripen system.now pvName = some pvQueue →
      Moved config system (.ripen pvName) { system with pvQueue }
  | took (pvName : String) :
      Moved config system (.take pvName)
        ({ system with
          pvQueue :=
            { system.pvQueue with
              ready := system.pvQueue.ready.erase pvName } }.launch config
                (.item pvName))
  | answered (index : Nat) (answer : CallAnswer) {next : CleanupSystem} :
      system.answerCall index answer = some next →
      Moved config system (.answer index answer) next

/-- A step moves the system in one of these ways. -/
theorem moved_of_systemStep
    {action : SystemAction}
    (stepped : systemStep config system action = some next) :
    Moved config system action next := by
  cases action with
  | answer index answer => exact .answered index answer stepped
  | tick duration =>
      cases stepped
      exact .surroundings _ _ _ _ rfl (Nat.le_refl _) (.inl rfl)
  | putNode node =>
      cases stepped
      exact .surroundings _ _ _ _ rfl (Nat.le_refl _) (.inl rfl)
  | deleteNode nodeName =>
      simp only [systemStep] at stepped
      split at stepped
      · cases stepped
      · cases stepped
        exact .nodeGone nodeName
  | nodeDeleted =>
      simp only [systemStep] at stepped
      split at stepped
      · cases stepped
      · rename_i rest pending
        cases stepped
        exact .scanned rest pending
  | showPVs pvs =>
      cases stepped
      exact .surroundings _ _ _ _ rfl (Nat.le_refl _) (.inl rfl)
  | showPVCs pvcs =>
      simp only [systemStep] at stepped
      split at stepped
      · rename_i given
        cases stepped
        exact .surroundings _ _ _ _ rfl (Nat.le_refl _) (.inr given)
      · cases stepped
  | createClaim namespaceName name volumeName =>
      simp only [systemStep] at stepped
      split at stepped
      · cases stepped
      · cases stepped
        exact .surroundings _ _ _ _ rfl (Nat.le_succ _) (.inl rfl)
  | bindClaim namespaceName name volumeName =>
      obtain ⟨pvc, _, rfl⟩ := Option.map_eq_some_iff.mp stepped
      exact .surroundings _ _ _ _ rfl (Nat.le_refl _) (.inl rfl)
  | removeClaim namespaceName name =>
      cases stepped
      exact .surroundings _ _ _ _ rfl (Nat.le_refl _) (.inl rfl)
  | ripen pvName =>
      obtain ⟨pvQueue, ripened, rfl⟩ := Option.map_eq_some_iff.mp stepped
      exact .ripened pvName pvQueue ripened
  | take pvName =>
      simp only [systemStep] at stepped
      split at stepped
      · cases stepped
        exact .took pvName
      · cases stepped

/-- What a step does to the routines and the UIDs, unless it answers a call. -/
structure Launched
    (config : CleanupConfig)
    (system next : CleanupSystem) : Prop where
  routines :
    next.routines = system.routines ∨
      ∃ duty, next.routines = Duty.start config duty :: system.routines
  accepted : next.accepted = system.accepted
  nextUid : system.nextUid ≤ next.nextUid
  pvcs :
    next.listers.pvcs = system.listers.pvcs ∨
      uidsGiven next.listers.pvcs next.nextUid = true

/-- A step starts at most one routine, or it answers a call. -/
theorem launched_or_answered
    {action : SystemAction}
    (stepped : systemStep config system action = some next) :
    Launched config system next ∨
      ∃ index answer,
        action = .answer index answer ∧
          system.answerCall index answer = some next := by
  cases moved_of_systemStep stepped with
  | answered index answer called => exact .inr ⟨index, answer, rfl, called⟩
  | surroundings now listers claims nextUid _ given pvcs =>
      exact .inl ⟨.inl rfl, rfl, given, pvcs⟩
  | nodeGone | ripened =>
      exact .inl ⟨.inl rfl, rfl, Nat.le_refl _, .inl rfl⟩
  | scanned | took =>
      exact .inl ⟨.inr ⟨_, rfl⟩, rfl, Nat.le_refl _, .inl rfl⟩

/-- A routine is where its answered calls have led it. -/
def Underway.OnCourse (config : CleanupConfig) (underway : Underway) : Prop :=
  (underway.duty.routine config).Unfolds underway.history underway.rest

/-- Every routine is on course. -/
theorem onCourse_of_reaches
    (reaches : SystemReaches config permitted system) :
    ∀ underway ∈ system.routines, underway.OnCourse config := by
  induction reaches with
  | initial started =>
      intro underway member
      rw [started.routines, List.mem_singleton] at member
      subst member
      exact .start
  | advance action _ _ stepped inductionHypothesis =>
      intro underway member
      rcases launched_or_answered stepped with launched | answered
      · rcases launched.routines with same | ⟨duty, started⟩
        · rw [same] at member
          exact inductionHypothesis underway member
        · rw [started] at member
          rcases List.mem_cons.mp member with rfl | earlier
          · exact .start
          · exact inductionHypothesis underway earlier
      · obtain ⟨index, answer, rfl, called⟩ := answered
        obtain ⟨duty, history, op, rest, reply, atIndex, _, rfl⟩ :=
          CleanupSystem.call_of_answerCall called
        rcases List.mem_or_eq_of_mem_set member with earlier | rfl
        · exact inductionHypothesis underway earlier
        · exact .answered reply
            (inductionHypothesis _ (List.mem_of_getElem? atIndex))

end Runs

end NodeCleanup

end LocalProvisioner
