import LocalProvisioner.CleanupSystem

namespace LocalProvisioner

namespace NodeCleanup

open Interleaving

/-!
# The PVCs that the cleanup controller deletes

A worker reads a PV, its nodes and its PVC at three different times, and the
API server looks at the PVC at a fourth.  What it deletes is the PVC whose UID
the claimRef of the PV records.  An item that has failed to read the PV or the
PVC, or to delete the PVC, puts its key back.

The runs let the node lister fail as well, although it reads from memory and has
no error but `NotFound`.  The code would take such a failure as a node that may
exist and keep the PVC.
-/

/-- The PVC is the one that the PV processed and the PVC lister have shown. -/
def AcceptedDeletion.Identified (deletion : AcceptedDeletion) : Prop :=
  ∃ key pv claim pvc,
    deletion.duty = .item key ∧
      deletion.history.ShowsBound key pv claim pvc ∧
      deletion.pvc.key = pvc.key ∧
      deletion.pvc.uid = claim.uid

/-- A PVC that is still to be created is not the one about to be deleted. -/
def Underway.SparesLaterPVCs (underway : Underway) (nextUid : Nat) : Prop :=
  ∀ namespaceName name uid rest,
    underway.rest = .call (.deletePVC namespaceName name uid) rest →
    uid < nextUid

/-- An item that has failed has put its key back once it has ended. -/
def Underway.Retries (underway : Underway) : Prop :=
  ∀ key,
    underway.duty = .item key →
    underway.rest.isDone = true →
    underway.history.Failed →
    Retried key underway.history

section Deletions

variable {config : CleanupConfig}
variable {permitted : CleanupSystem → SystemAction → Prop}
variable {system next : CleanupSystem}

/-- Only workers delete PVCs, and only those they have identified. -/
theorem licensed_of_onCourse
    {duty : Duty}
    {history : CleanupHistory}
    {namespaceName name : String}
    {uid : Nat}
    {rest : Except ApiError Unit → CleanupRoutine Unit}
    (onCourse :
      Underway.OnCourse config
        ⟨duty, history, .call (.deletePVC namespaceName name uid) rest⟩) :
    ∃ key pv claim pvc,
      duty = .item key ∧
        history.ShowsBound key pv claim pvc ∧
        namespaceName = pvc.namespaceName ∧ name = pvc.name ∧
        uid = pvc.uid := by
  cases duty with
  | scan =>
      have only :
          Program.Only
            (fun op : CleanupOp => op ≠ .deletePVC namespaceName name uid)
            (startCleanupTimersIfNeeded config) :=
        only_startCleanupTimersIfNeeded config nofun nofun nofun nofun nofun
      cases only.unfolds onCourse with
      | call isAllowed _ => exact (isAllowed rfl).elim
  | item key =>
      have recorded := recorded_processNextWorkItem.unfolds onCourse
      obtain ⟨pv, claim, pvc, bound, named⟩ := recorded.recorded_call.1
      exact ⟨key, pv, claim, pvc, rfl, bound, named⟩

/-- A PVC is accepted for deletion under the name and UID of the request. -/
theorem CleanupSystem.accepts_eq_some
    {answer : CallAnswer}
    {op : CleanupOp}
    {pvc : PersistentVolumeClaim}
    (accepted : system.accepts answer op = some pvc) :
    op = .deletePVC pvc.namespaceName pvc.name pvc.uid := by
  cases op with
  | deletePVC namespaceName name uid =>
      simp only [CleanupSystem.accepts] at accepted
      split at accepted
      · obtain ⟨stored, same⟩ := Option.filter_eq_some_iff.mp accepted
        have named := ObjectStore.name_of_get stored
        simp only [PersistentVolumeClaim.key, Prod.mk.injEq] at named
        simp only [decide_eq_true_eq] at same
        rw [named.1, named.2, same]
      · cases accepted
  | _ => cases accepted

/-- Every accepted deletion is of the PVC that its worker has identified. -/
theorem identified_of_reaches
    (reaches : SystemReaches config permitted system) :
    ∀ deletion ∈ system.accepted, deletion.Identified := by
  induction reaches with
  | initial started =>
      intro deletion member
      rw [started.accepted] at member
      cases member
  | @advance state next action earlier _ stepped inductionHypothesis =>
      intro deletion member
      rcases launched_or_answered stepped with launched | answered
      · rw [launched.accepted] at member
        exact inductionHypothesis deletion member
      · obtain ⟨index, answer, rfl, called⟩ := answered
        obtain ⟨duty, history, op, rest, reply, atIndex, _, rfl⟩ :=
          CleanupSystem.call_of_answerCall called
        rcases List.mem_append.mp member with isNew | known
        · obtain ⟨pvc, accepted, rfl⟩ := List.mem_map.mp isNew
          have request :=
            CleanupSystem.accepts_eq_some (Option.mem_toList.mp accepted)
          subst request
          obtain ⟨key, pv, claim, shown, rfl, bound, sameNamespace, sameName,
              sameUid⟩ :=
            licensed_of_onCourse
              (onCourse_of_reaches earlier _ (List.mem_of_getElem? atIndex))
          refine ⟨key, pv, claim, shown, rfl, bound, ?_, ?_⟩
          · exact Prod.ext sameNamespace sameName
          · exact sameUid.trans bound.uid
        · exact inductionHypothesis deletion known

/-- The UIDs of the PVCs that the lister shows have been given out. -/
theorem uid_lt_of_uidsGiven
    {pvcs : PVCStore}
    {nextUid : Nat}
    {key : String × String}
    {pvc : PersistentVolumeClaim}
    (given : uidsGiven pvcs nextUid = true)
    (shown : pvcs.get key = some pvc) :
    pvc.uid < nextUid := by
  have listed : pvc ∈ pvcs.list :=
    ObjectStore.mem_list.mpr (ObjectStore.get_name shown)
  simpa using List.all_eq_true.mp given pvc listed

/-- UIDs are never taken back. -/
theorem uidsGiven_mono
    {pvcs : PVCStore}
    {nextUid later : Nat}
    (given : uidsGiven pvcs nextUid = true)
    (grown : nextUid ≤ later) :
    uidsGiven pvcs later = true := by
  refine List.all_eq_true.mpr ?_
  intro pvc listed
  have earlier := List.all_eq_true.mp given pvc listed
  simp only [decide_eq_true_eq] at earlier ⊢
  exact Nat.lt_of_lt_of_le earlier grown

/-- A PVC that a call has returned was shown by the lister. -/
theorem CleanupSystem.shown_of_replyTo
    {answer : CallAnswer}
    {namespaceName name : String}
    {pvc : PersistentVolumeClaim}
    (replied :
      system.replyTo answer (.getPVC namespaceName name) =
        some (.ok pvc : Except ApiError PersistentVolumeClaim)) :
    system.listers.pvcs.get (namespaceName, name) = some pvc := by
  have served :
      answer.orFault (found (system.listers.pvcs.get (namespaceName, name))) =
        some (.ok pvc) :=
    replied
  unfold CallAnswer.orFault at served
  split at served
  · cases shown : system.listers.pvcs.get (namespaceName, name) with
    | none =>
        rw [shown] at served
        cases served
    | some other =>
        rw [shown] at served
        cases served
        rfl
  · cases served
  · cases served

/-- The UIDs of all PVCs that are shown or have been read are given out. -/
structure CleanupSystem.UidsKnown (system : CleanupSystem) : Prop where
  pvcs : uidsGiven system.listers.pvcs system.nextUid = true
  read :
    ∀ underway ∈ system.routines,
    ∀ namespaceName name pvc,
      underway.history.GotPVC namespaceName name pvc →
      pvc.uid < system.nextUid

/-- The UIDs are known in every state. -/
theorem uidsKnown_of_reaches
    (reaches : SystemReaches config permitted system) :
    system.UidsKnown := by
  induction reaches with
  | initial started =>
      refine ⟨started.pvcs, ?_⟩
      intro underway member namespaceName name pvc got
      rw [started.routines, List.mem_singleton] at member
      subst member
      cases got
  | @advance state next action _ _ stepped inductionHypothesis =>
      rcases launched_or_answered stepped with launched | answered
      · constructor
        · rcases launched.pvcs with same | given
          · rw [same]
            exact uidsGiven_mono inductionHypothesis.pvcs launched.nextUid
          · exact given
        · intro underway member namespaceName name pvc got
          refine Nat.lt_of_lt_of_le ?_ launched.nextUid
          rcases launched.routines with same | ⟨duty, started⟩
          · rw [same] at member
            exact inductionHypothesis.read underway member _ _ pvc got
          · rw [started] at member
            rcases List.mem_cons.mp member with rfl | earlier
            · cases got
            · exact inductionHypothesis.read underway earlier _ _ pvc got
      · obtain ⟨index, answer, rfl, called⟩ := answered
        obtain ⟨duty, history, op, rest, reply, atIndex, replied, rfl⟩ :=
          CleanupSystem.call_of_answerCall called
        refine ⟨inductionHypothesis.pvcs, ?_⟩
        intro underway member namespaceName name pvc got
        rcases List.mem_or_eq_of_mem_set member with earlier | rfl
        · exact inductionHypothesis.read underway earlier _ _ pvc got
        · rcases List.mem_cons.mp got with isNew | known
          · cases isNew
            exact uid_lt_of_uidsGiven inductionHypothesis.pvcs
              (CleanupSystem.shown_of_replyTo replied)
          · exact inductionHypothesis.read _ (List.mem_of_getElem? atIndex)
              _ _ pvc known

/--
In every state of every run, with listers that lag by any amount and any calls
that fail: each accepted deletion is of the PVC whose UID the claimRef of the
PV processed records and which, in the PVC lister, names that PV.  No deletion
that is about to be requested can meet a PVC that is created later.  An item
that has failed has put its key back, and has not forgotten it.
-/
theorem deletions_identified_and_failures_retried
    (reaches : SystemReaches config (fun _ _ => True) system) :
    (∀ deletion ∈ system.accepted, deletion.Identified) ∧
      ∀ underway ∈ system.routines,
        underway.SparesLaterPVCs system.nextUid ∧ underway.Retries := by
  refine ⟨identified_of_reaches reaches, ?_⟩
  intro underway member
  have onCourse := onCourse_of_reaches reaches underway member
  constructor
  · intro namespaceName name uid rest atDeletion
    obtain ⟨duty, history, _⟩ := underway
    cases atDeletion
    obtain ⟨_, _, claim, pvc, _, bound, _, _, rfl⟩ :=
      licensed_of_onCourse onCourse
    exact (uidsKnown_of_reaches reaches).read _ member _ _ pvc bound.gotPVC
  · intro key isItem ended failed
    obtain ⟨duty, history, rest⟩ := underway
    cases isItem
    cases rest with
    | call op next => cases ended
    | done value =>
        have recorded := recorded_processNextWorkItem.unfolds onCourse
        exact recorded.recorded_done failed

end Deletions

/-- The PVC that the sample PV is bound to. -/
def boundPVC : PersistentVolumeClaim where
  namespaceName := "default"
  name := "claim"
  uid := 7
  volumeName := "local-pv-1"

/-- The node of the PV is gone when the controller starts. -/
def lostNodeSystem : CleanupSystem where
  now := 0
  listers :=
    { pvs := ObjectStore.empty.put boundPV
      nodes := .empty
      pvcs := ObjectStore.empty.put boundPVC }
  claims := ObjectStore.empty.put boundPVC
  nextUid := 8
  deletedNodes := 0
  pvQueue := .empty
  routines := [Duty.scan.start sampleCleanup]
  accepted := []

/-- The controller starts with the node gone. -/
theorem atStartup_lostNodeSystem : lostNodeSystem.AtStartup sampleCleanup :=
  ⟨rfl, rfl, rfl, by decide, by decide⟩

/-- A call that is served. -/
def served : CallAnswer where
  fault := none
  carriedOut := false
  finalizers := false
  backoff := 1

/-- A call that fails. -/
def refused : CallAnswer :=
  { served with fault := some (.other "timeout") }

/-- The scan runs to its end, and the timer runs out. -/
def timerRun : List SystemAction :=
  List.replicate 5 (.answer 0 served) ++
    [.tick 60, .ripen "local-pv-1", .take "local-pv-1"]

/-- The first request to delete the PVC fails, the second succeeds. -/
def retriedRun : List SystemAction :=
  timerRun ++ List.replicate 4 (.answer 0 served) ++ [.answer 0 refused] ++
    List.replicate 3 (.answer 0 served) ++
    [.tick 1, .ripen "local-pv-1", .take "local-pv-1"] ++
    List.replicate 8 (.answer 0 served)

/-- The PVC has been deleted in the end, and the key had been put back. -/
def deletedAfterRetry (system : CleanupSystem) : Bool :=
  decide (system.accepted.map (fun deletion => deletion.pvc) = [boundPVC]) &&
    system.routines.any fun underway =>
      underway.rest.isDone &&
        underway.history.any fun answered =>
          decide (answered.op = .addRateLimited "local-pv-1")

/-- A run with a failure, a retry and a deletion. -/
theorem deletions_identified_of_retriedRun :
    ∃ system,
      SystemReaches sampleCleanup (fun _ _ => True) system ∧
        deletedAfterRetry system = true ∧
        (∀ deletion ∈ system.accepted, deletion.Identified) ∧
        ∀ underway ∈ system.routines,
          underway.SparesLaterPVCs system.nextUid ∧ underway.Retries := by
  have reached :
      ∃ system,
        SystemReaches sampleCleanup (fun _ _ => True) system ∧
          deletedAfterRetry system = true :=
    Reachable.exists_of_replay deletedAfterRetry atStartup_lostNodeSystem
      (by decide +kernel :
        (replay (systemStep sampleCleanup) (fun _ _ => True) lostNodeSystem
          retriedRun).any deletedAfterRetry = true)
  obtain ⟨system, reaches, deleted⟩ := reached
  exact ⟨system, reaches, deleted,
    deletions_identified_and_failures_retried reaches⟩

end NodeCleanup

end LocalProvisioner
