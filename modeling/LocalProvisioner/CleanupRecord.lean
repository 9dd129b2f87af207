import LocalProvisioner.NodeCleanup

namespace LocalProvisioner

namespace NodeCleanup

open Interleaving

/-!
# What node-cleanup has seen before it acts

The listers and the API server may answer anything at any time: they lag
behind each other, and a request may fail.  Before each call that has an
effect, the replies so far show why it is made.  The routines are walked
through once, for every sequence of replies.
-/

/-- The calls of a routine that have been answered, newest first. -/
abbrev CleanupHistory := List (Answered cleanupSignature)

namespace CleanupHistory

/-- The PV lister has listed these PVs. -/
def ListedPVs (history : CleanupHistory) (pvs : List PersistentVolume) : Prop :=
  ⟨.listPVs, (.ok pvs : Except ApiError (List PersistentVolume))⟩ ∈ history

/-- The PV lister has had this PV under a name. -/
def GotPV
    (history : CleanupHistory)
    (pvName : String)
    (pv : PersistentVolume) : Prop :=
  ⟨.getPV pvName, (.ok pv : Except ApiError PersistentVolume)⟩ ∈ history

/-- The PVC lister has had this PVC under a name. -/
def GotPVC
    (history : CleanupHistory)
    (namespaceName name : String)
    (pvc : PersistentVolumeClaim) : Prop :=
  ⟨.getPVC namespaceName name,
    (.ok pvc : Except ApiError PersistentVolumeClaim)⟩ ∈ history

/-- The node lister has had no node with a hostname. -/
def NoNodeLabelled (history : CleanupHistory) (hostname : String) : Prop :=
  ⟨.listNodes hostname, (.ok [] : Except ApiError (List Node))⟩ ∈ history

/-- None of the nodes that a PV names has been found. -/
def ShowsStale (history : CleanupHistory) (pv : PersistentVolume) : Prop :=
  ∃ nodeNames,
    getLocalPersistentVolumeNodeNames pv = some nodeNames ∧
      ∀ nodeName ∈ nodeNames, history.NoNodeLabelled nodeName

/-- The PV and the PVC that a deletion of a PVC goes back to. -/
structure ShowsBound
    (history : CleanupHistory)
    (key : String)
    (pv : PersistentVolume)
    (claim : ObjectReference)
    (pvc : PersistentVolumeClaim) : Prop where
  gotPV : history.GotPV key pv
  stale : history.ShowsStale pv
  claimRef : pv.claimRef = some claim
  gotPVC : history.GotPVC claim.namespaceName claim.name pvc
  volumeName : pvc.volumeName = pv.name
  uid : pvc.uid = claim.uid

/-- A reply with an error other than `NotFound`. -/
def isFailure {α : Type} : Except ApiError α → Prop
  | .ok _ => False
  | .error .notFound => False
  | .error _ => True

/-- A PV or PVC could not be read, or a PVC could not be deleted. -/
def Failing : Answered cleanupSignature → Prop
  | ⟨.getPV _, reply⟩ => @isFailure PersistentVolume reply
  | ⟨.getPVC _ _, reply⟩ => @isFailure PersistentVolumeClaim reply
  | ⟨.deletePVC _ _ _, reply⟩ => @isFailure Unit reply
  | _ => False

/-- Some call has failed with an error that is not `NotFound`. -/
def Failed (history : CleanupHistory) : Prop :=
  ∃ answered ∈ history, Failing answered

/-- What the replies so far must show before a call is made for a key. -/
def Licensed (key : String) (history : CleanupHistory) : CleanupOp → Prop
  | .deletePV pvName =>
      ∃ pvs pv,
        history.ListedPVs pvs ∧ pv ∈ pvs ∧ pv.name = pvName ∧
          history.ShowsStale pv
  | .addAfter pvName _ =>
      ∃ pvs pv,
        history.ListedPVs pvs ∧ pv ∈ pvs ∧ pv.name = pvName ∧
          history.ShowsStale pv
  | .deletePVC namespaceName name uid =>
      ∃ pv claim pvc,
        history.ShowsBound key pv claim pvc ∧
          namespaceName = pvc.namespaceName ∧ name = pvc.name ∧
          uid = pvc.uid
  | .forget pvName => pvName = key ∧ ¬ history.Failed
  | .addRateLimited pvName => pvName = key
  | _ => True

/-- Nothing has failed before the first call. -/
theorem not_failed_nil : ¬ CleanupHistory.Failed [] := by
  intro failed
  obtain ⟨_, member, _⟩ := failed
  cases member

/-- A history that ends with a harmless reply has failed before. -/
theorem Failed.before
    {answered : Answered cleanupSignature}
    {history : CleanupHistory}
    (failed : CleanupHistory.Failed (answered :: history))
    (harmless : ¬ Failing answered) :
    history.Failed := by
  obtain ⟨found, member, failing⟩ := failed
  rcases List.mem_cons.mp member with rfl | earlier
  · exact (harmless failing).elim
  · exact ⟨found, earlier, failing⟩

/-- What a call may rely on, it may still rely on later. -/
theorem ShowsStale.mono
    {history later : CleanupHistory}
    {pv : PersistentVolume}
    (stale : history.ShowsStale pv)
    (extended : history <:+ later) :
    later.ShowsStale pv := by
  obtain ⟨nodeNames, read, absent⟩ := stale
  refine ⟨nodeNames, read, ?_⟩
  intro nodeName member
  exact extended.subset (absent nodeName member)

end CleanupHistory

section Walkthrough

variable {key : String}
variable {history : CleanupHistory}

/-- A routine conforms if each of its calls is licensed by its history. -/
abbrev Recorded
    {α : Type}
    (key : String)
    (post : α → CleanupHistory → Prop)
    (history : CleanupHistory)
    (routine : CleanupRoutine α) : Prop :=
  Conforms (.recording (CleanupHistory.Licensed key)) post history routine

/--
`AnyNodeExists` answers no only after the lister has shown that there is no
node for any of the names.
-/
theorem recorded_anyNodeExists (nodeNames : List String) :
    Recorded key
      (fun exist later =>
        (exist = false →
          ∀ nodeName ∈ nodeNames, later.NoNodeLabelled nodeName) ∧
        (later.Failed → history.Failed))
      history (anyNodeExists nodeNames) := by
  induction nodeNames generalizing history with
  | nil => exact .done ⟨by simp, id⟩
  | cons nodeName rest inductionHypothesis =>
      refine .call trivial ?_
      intro (node : Except ApiError Node) _
      rcases node with (_ | _ | _) | node
      · show Recorded key _ _ (ite _ _ _)
        split
        · refine .call trivial ?_
          intro (labelled : Except ApiError (List Node)) _
          rcases labelled with err | (_ | ⟨first, others⟩)
          · exact .done ⟨nofun, fun failed => (failed.before id).before id⟩
          · -- no node with this hostname: the loop goes on
            refine inductionHypothesis.recorded_suffix.consequence ?_
            intro exist later reached
            obtain ⟨extended, absent, kept⟩ := reached
            refine .done ⟨?_, fun failed => ((kept failed).before id).before id⟩
            intro none name member
            rcases List.mem_cons.mp member with rfl | inRest
            · exact extended.subset List.mem_cons_self
            · exact absent none name inRest
          · exact .done ⟨nofun, fun failed => (failed.before id).before id⟩
        · exact .done ⟨nofun, fun failed => failed.before id⟩
      · exact .done ⟨nofun, fun failed => failed.before id⟩
      · exact .done ⟨nofun, fun failed => failed.before id⟩
      · exact .done ⟨nofun, fun failed => failed.before id⟩

/-- A PV counts as stale only after none of its nodes has been found. -/
theorem recorded_referencesNonExistentNode (pv : PersistentVolume) :
    Recorded key
      (fun stale later => stale = true → later.ShowsStale pv)
      history (referencesNonExistentNode pv) := by
  unfold referencesNonExistentNode
  cases read : getLocalPersistentVolumeNodeNames pv with
  | none => exact .done nofun
  | some nodeNames =>
      refine (recorded_anyNodeExists nodeNames).bind ?_
      intro exist later reached
      refine .done ?_
      intro gone
      refine ⟨nodeNames, read, reached.1 ?_⟩
      simpa using gone

/-- A loop over the listed PVs. -/
theorem recorded_eachListed
    {body : PersistentVolume → CleanupRoutine Unit}
    {pvs : List PersistentVolume}
    (listed : history.ListedPVs pvs)
    (walked :
      ∀ pv ∈ pvs,
      ∀ current : CleanupHistory,
        current.ListedPVs pvs →
        Recorded key (fun _ later => later.ListedPVs pvs) current (body pv)) :
    Recorded key (fun _ _ => True) history (Program.forEach body pvs) := by
  have looped :
      Recorded key (fun _ later => later.ListedPVs pvs) history
        (Program.forEach body pvs) :=
    Conforms.forEach listed walked
  refine looped.consequence ?_
  intro _ _ _
  exact .done trivial

/-- One round of `DeletePVs`. -/
theorem recorded_deleteIfStale
    {config : CleanupConfig}
    {pvs : List PersistentVolume}
    {pv : PersistentVolume}
    (member : pv ∈ pvs)
    (listed : history.ListedPVs pvs) :
    Recorded key (fun _ later => later.ListedPVs pvs)
      history (deleteIfStale config pv) := by
  unfold deleteIfStale
  split
  · refine (recorded_referencesNonExistentNode pv).recorded_suffix.bind ?_
    intro stale (later : CleanupHistory) reached
    have stillListed : later.ListedPVs pvs := reached.1.subset listed
    cases stale with
    | false => exact .done stillListed
    | true =>
        show Recorded key _ _ (ite (isDisposable pv = true) _ _)
        split
        · have licensed :
              CleanupHistory.Licensed key later (.deletePV pv.name) :=
            ⟨pvs, pv, stillListed, member, rfl, reached.2 rfl⟩
          refine .call licensed ?_
          intro (reply : Except ApiError Unit) _
          rcases reply with (_ | _ | _) | _
          all_goals
            refine .call trivial fun _ _ => .done ?_
            exact List.mem_cons_of_mem _ (List.mem_cons_of_mem _ stillListed)
        · exact .done stillListed
  · exact .done listed

/-- `DeletePVs` deletes only PVs it has seen and found stale. -/
theorem recorded_deletePVs (config : CleanupConfig) :
    Recorded key (fun _ _ => True) history (deletePVs config) := by
  refine .call trivial ?_
  intro (listed : Except ApiError (List PersistentVolume)) _
  rcases listed with err | pvs
  · exact .done trivial
  · refine recorded_eachListed List.mem_cons_self ?_
    intro pv member current stillListed
    exact recorded_deleteIfStale member stillListed

/-- One round of `startCleanupTimersIfNeeded`. -/
theorem recorded_startTimerIfNeeded
    {config : CleanupConfig}
    {pvs : List PersistentVolume}
    {pv : PersistentVolume}
    (member : pv ∈ pvs)
    (listed : history.ListedPVs pvs) :
    Recorded key (fun _ later => later.ListedPVs pvs)
      history (startTimerIfNeeded config pv) := by
  unfold startTimerIfNeeded
  split
  · cases read : getLocalPersistentVolumeNodeNames pv with
    | none => exact .done listed
    | some nodeNames =>
        have asked :
            Recorded key
              (fun due later =>
                history <:+ later ∧ (due = true → later.ShowsStale pv))
              history (shouldEnqueueEntry pv nodeNames) := by
          unfold shouldEnqueueEntry
          split
          · exact .done ⟨List.suffix_refl _, nofun⟩
          · refine (recorded_anyNodeExists nodeNames).recorded_suffix.bind ?_
            intro exist later reached
            refine .done ⟨reached.1, ?_⟩
            intro gone
            refine ⟨nodeNames, read, reached.2.1 ?_⟩
            simpa using gone
        refine asked.bind ?_
        intro due (later : CleanupHistory) reached
        have stillListed : later.ListedPVs pvs := reached.1.subset listed
        cases due with
        | false => exact .done stillListed
        | true =>
            refine .call trivial fun _ _ => .call ?_ fun _ _ => .done ?_
            · exact ⟨pvs, pv, List.mem_cons_of_mem _ stillListed, member, rfl,
                (reached.2 rfl).mono (List.suffix_cons _ _)⟩
            · exact List.mem_cons_of_mem _
                (List.mem_cons_of_mem _ stillListed)
  · exact .done listed

/-- A scan starts timers only for PVs it has seen and found stale. -/
theorem recorded_startCleanupTimersIfNeeded (config : CleanupConfig) :
    Recorded key (fun _ _ => True) history
      (startCleanupTimersIfNeeded config) := by
  refine .call trivial ?_
  intro (listed : Except ApiError (List PersistentVolume)) _
  rcases listed with err | pvs
  · exact .done trivial
  · refine recorded_eachListed List.mem_cons_self ?_
    intro pv member current stillListed
    exact recorded_startTimerIfNeeded member stillListed

/-- A routine that has succeeded has met no failure. -/
def Reliable : Except ApiError Unit → CleanupHistory → Prop
  | .ok _, later => ¬ later.Failed
  | .error _, _ => True

/-- The end of `syncHandler` once the PVC has been found. -/
theorem recorded_deleteBoundPVC
    {pv : PersistentVolume}
    {claim : ObjectReference}
    {pvc : PersistentVolumeClaim}
    (gotPV : history.GotPV key pv)
    (stale : history.ShowsStale pv)
    (claimRef : pv.claimRef = some claim)
    (gotPVC : history.GotPVC claim.namespaceName claim.name pvc)
    (fine : ¬ history.Failed) :
    Recorded key Reliable history (deleteBoundPVC pv claim pvc) := by
  unfold deleteBoundPVC
  split
  · exact .done fine
  · rename_i bound
    rw [← not_and_or, not_not] at bound
    have licensed :
        CleanupHistory.Licensed key history
          (.deletePVC pvc.namespaceName pvc.name pvc.uid) :=
      ⟨pv, claim, pvc, ⟨gotPV, stale, claimRef, gotPVC, bound.1, bound.2⟩,
        rfl, rfl, rfl⟩
    refine .call licensed ?_
    intro (reply : Except ApiError Unit) _
    rcases reply with (_ | _ | _) | _
    · refine .call trivial fun _ _ => .done ?_
      intro failed
      exact fine ((failed.before id).before id)
    · exact .call trivial fun _ _ => .done trivial
    · exact .call trivial fun _ _ => .done trivial
    · refine .call trivial fun _ _ => .done ?_
      intro failed
      exact fine ((failed.before id).before id)

/-- The end of `syncHandler` once the nodes are known to be gone. -/
theorem recorded_deleteClaimOf
    {pv : PersistentVolume}
    (gotPV : history.GotPV key pv)
    (stale : history.ShowsStale pv)
    (fine : ¬ history.Failed) :
    Recorded key Reliable history (deleteClaimOf pv) := by
  unfold deleteClaimOf
  cases claimRef : pv.claimRef with
  | none => exact .done fine
  | some claim =>
      refine .call trivial ?_
      intro (listed : Except ApiError PersistentVolumeClaim) _
      rcases listed with (_ | _ | _) | pvc
      · exact .done fun failed => fine (failed.before id)
      · exact .done trivial
      · exact .done trivial
      · exact recorded_deleteBoundPVC (List.mem_cons_of_mem _ gotPV)
          (stale.mono (List.suffix_cons _ _)) claimRef List.mem_cons_self
          fun failed => fine (failed.before id)

/-- `syncHandler` succeeds only if no call has failed. -/
theorem recorded_syncHandler (fine : ¬ history.Failed) :
    Recorded key Reliable history (syncHandler key) := by
  refine .call trivial ?_
  intro (listed : Except ApiError PersistentVolume) _
  rcases listed with (_ | _ | _) | pv
  · exact .done fun failed => fine (failed.before id)
  · exact .done trivial
  · exact .done trivial
  · have stillFine :
        ¬ CleanupHistory.Failed
          (⟨.getPV key, (.ok pv : Except ApiError PersistentVolume)⟩ ::
            history) :=
      fun failed => fine (failed.before id)
    show Recorded key Reliable _ (syncPV pv)
    unfold syncPV
    cases read : getLocalPersistentVolumeNodeNames pv with
    | none => exact .done stillFine
    | some nodeNames =>
        refine (recorded_anyNodeExists nodeNames).recorded_suffix.bind ?_
        intro exist (later : CleanupHistory) reached
        obtain ⟨extended, absent, kept⟩ := reached
        cases exist with
        | true => exact .done fun failed => stillFine (kept failed)
        | false =>
            refine recorded_deleteClaimOf
              (extended.subset List.mem_cons_self) ?_
              fun failed => stillFine (kept failed)
            exact ⟨nodeNames, read, absent rfl⟩

/-- A key whose processing has failed is put back, and not forgotten. -/
structure Retried (key : String) (history : CleanupHistory) : Prop where
  again : ⟨.addRateLimited key, ()⟩ ∈ history
  notForgotten : ∀ answered ∈ history, answered.op ≠ .forget key

/-- An item ends with its key put back if a call has failed. -/
theorem recorded_processNextWorkItem :
    Recorded key (fun _ later => later.Failed → Retried key later) []
      (processNextWorkItem key) := by
  have ordinary :
      Program.Only (fun op : CleanupOp => op.usesQueue = false)
        (syncHandler key) :=
    only_syncHandler (fun _ unused => unused) key
  refine ((recorded_syncHandler CleanupHistory.not_failed_nil).recorded_only
    ordinary).bind ?_
  intro outcome (later : CleanupHistory) reached
  obtain ⟨queueUnused, reliable⟩ := reached
  cases outcome with
  | error err =>
      refine .call rfl fun _ _ => .call trivial fun _ _ => .done ?_
      intro _
      refine ⟨List.mem_cons_of_mem _ List.mem_cons_self, ?_⟩
      intro answered member same
      rcases List.mem_cons.mp member with rfl | member
      · cases same
      · rcases List.mem_cons.mp member with rfl | member
        · cases same
        · rcases queueUnused answered member with impossible | unused
          · cases impossible
          · rw [same] at unused
            cases unused
  | ok _ =>
      refine .call ⟨rfl, reliable⟩ fun _ _ =>
        .call trivial fun _ _ => .done ?_
      intro failed
      exact (reliable ((failed.before id).before id)).elim

end Walkthrough

end NodeCleanup

end LocalProvisioner
