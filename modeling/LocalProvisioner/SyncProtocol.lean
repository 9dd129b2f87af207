import LocalProvisioner.Discovery

namespace LocalProvisioner

open Interleaving

/-!
# The protocol of a sync pass

One pass of the sync loop, seen as the order of its calls.  Both routines take
a PV name through the same stages: they ask the cleanup tracker whether the
name is being cleaned, take the status of a finished cleaning, and then act on
it.  The deleter does so for the reclaimable PVs of one listing of the cache;
the discoverer for a name that the cache does not know and a path that no
cached PV uses.

`conforms_syncPass` walks through the routines once.  The invariants of the
runs are proved over the phases, and not over the routines again.
-/

/-- Why a PV name is taken through the cleanup tracker. -/
inductive Purpose where
  | reclaim :
      (listed : List PersistentVolume) → (pv : PersistentVolume) → Purpose
  | create : (pvName path : String) → Purpose

/-- How far a PV name has been taken through the cleanup tracker. -/
inductive Stage where
  | considered : Stage
  | checked : (isJob : Bool) → Stage
  | found : Job → Stage
  | cleared : (isJob : Bool) → (state : CleanupState) → Stage

/-- The phases of a sync pass. -/
inductive Phase where
  | idle : Phase
  | scanning : (listed : List PersistentVolume) → Phase
  | missing : (pvName : String) → Phase
  | tracking : Purpose → Stage → Phase

namespace Purpose

/-- The PV name in question. -/
def pvName : Purpose → String
  | .reclaim _ pv => pv.name
  | .create pvName _ => pvName

/-- The phase to return to once the name has been dealt with. -/
def home : Purpose → Phase
  | .reclaim listed _ => .scanning listed
  | .create _ _ => .idle

end Purpose

/--
What is assumed of the instances and volumes of a run: the admitted values of
`UseJobForCleaning`, and whether volumes may be directories.
-/
structure Scope where
  flags : Bool → Prop
  directories : Prop

namespace Scope

/-- Every flag and every volume. -/
def all : Scope where
  flags := fun _ => True
  directories := True

/-- The volume modes that a probe can find. -/
def Finds (scope : Scope) : VolumeMode → Prop
  | .block => True
  | .filesystem => scope.directories
  | .other _ => False

/-- The trackers that can be consulted. -/
def Tracks (scope : Scope) (isJob : Bool) : Prop :=
  if isJob then scope.flags true else scope.flags false ∨ scope.directories

/-- The tracker selected by an admitted flag and a found mode. -/
theorem Tracks.of_flag
    {scope : Scope}
    {flag : Bool}
    {mode : VolumeMode}
    (admitted : scope.flags flag)
    (found : scope.Finds mode) :
    scope.Tracks (mode == .block && flag) := by
  cases mode with
  | block =>
      cases flag with
      | false => exact .inl admitted
      | true => exact admitted
  | filesystem =>
      exact .inr found
  | other text =>
      exact found.elim

end Scope

/-- The calls allowed in each phase. -/
inductive Allowed (scope : Scope) : Phase → Op → Prop where
  | probe {phase : Phase} {op : Op} :
      op.Probing →
      Allowed scope phase op
  | list :
      Allowed scope .idle .listPVs
  | get {pvName : String} :
      Allowed scope .idle (.getPV pvName)
  | lookup {pvName path : String} :
      Allowed scope (.missing pvName) (.lookupPVsByPath pvName path)
  | askProcess {purpose : Purpose} :
      scope.Tracks false →
      Allowed scope (.tracking purpose .considered)
        (.isRunning purpose.pvName)
  | askJob {purpose : Purpose} :
      scope.Tracks true →
      Allowed scope (.tracking purpose .considered)
        (.isCleaningJobRunning purpose.pvName)
  | takeEntry {purpose : Purpose} :
      Allowed scope (.tracking purpose (.checked false))
        (.removeEntry purpose.pvName)
  | findJob {purpose : Purpose} :
      Allowed scope (.tracking purpose (.checked true))
        (.getJob (generateCleaningJobName purpose.pvName))
  | takeJob {purpose : Purpose} {job : Job} {namespaceName : String} :
      job.succeeded ≠ 0 →
      Allowed scope (.tracking purpose (.found job))
        (.deleteJob job.name namespaceName)
  | deletePV
      {listed : List PersistentVolume}
      {pv : PersistentVolume}
      {isJob : Bool} :
      Allowed scope
        (.tracking (.reclaim listed pv) (.cleared isJob .succeeded))
        (.deletePV pv.name)
  | spawnCleaner
      {listed : List PersistentVolume}
      {work : CleanerWork}
      {state : CleanupState} :
      Allowed scope
        (.tracking (.reclaim listed work.pv) (.cleared false state))
        (.spawnCleaner work)
  | createJob
      {listed : List PersistentVolume}
      {pv : PersistentVolume}
      {state : CleanupState}
      {job : Job} :
      job.name = generateCleaningJobName pv.name →
      job.succeeded = 0 →
      Allowed scope
        (.tracking (.reclaim listed pv) (.cleared true state))
        (.createJob job)
  | createPV
      {pv : PersistentVolume}
      {path : String}
      {isJob : Bool}
      {state : CleanupState} :
      pv.localPath = some path →
      Allowed scope
        (.tracking (.create pv.name path) (.cleared isJob state))
        (.createPV pv)

namespace Phase

/-- The phase after a call, given its reply. -/
def after : Phase → (op : Op) → op.Reply → Phase
  | .idle, .listPVs, (listed : List PersistentVolume) => .scanning listed
  | .idle, .getPV pvName, (found : Option PersistentVolume) =>
      match found with
      | none => .missing pvName
      | some _ => .idle
  | .missing pvName, .lookupPVsByPath _ path, (users : List String) =>
      match users with
      | [] => .tracking (.create pvName path) .considered
      | _ :: _ => .idle
  | .tracking purpose .considered, .isRunning _, (busy : Bool) =>
      if busy then purpose.home else .tracking purpose (.checked false)
  | .tracking purpose .considered, .isCleaningJobRunning _, (busy : Bool) =>
      if busy then purpose.home else .tracking purpose (.checked true)
  | .tracking purpose (.checked _), .removeEntry _,
      (taken : Except String (CleanupState × Option Nat)) =>
      match taken with
      | .ok (state, _) => .tracking purpose (.cleared false state)
      | .error _ => purpose.home
  | .tracking purpose (.checked _), .getJob _,
      (listed : Except ApiError Job) =>
      match listed with
      | .ok job => .tracking purpose (.found job)
      | .error .notFound => .tracking purpose (.cleared true .notFound)
      | .error _ => purpose.home
  | .tracking purpose (.found _), .deleteJob _ _,
      (deleted : Except ApiError Unit) =>
      match deleted with
      | .ok _ => .tracking purpose (.cleared true .succeeded)
      | .error _ => purpose.home
  | .tracking purpose (.cleared _ _), .deletePV _, _ => purpose.home
  | .tracking purpose (.cleared _ _), .spawnCleaner _, _ => purpose.home
  | .tracking purpose (.cleared _ _), .createJob _, _ => purpose.home
  | .tracking purpose (.cleared _ _), .createPV _, _ => purpose.home
  | phase, _, _ => phase

/-- Steps of a pass that need no call. -/
inductive Silent : Phase → Phase → Prop where
  | pick {listed : List PersistentVolume} {pv : PersistentVolume} :
      pv ∈ listed →
      Reclaimable pv →
      Silent (.scanning listed) (.tracking (.reclaim listed pv) .considered)
  | giveUp {purpose : Purpose} {stage : Stage} :
      Silent (.tracking purpose stage) purpose.home
  | finishScan {listed : List PersistentVolume} :
      Silent (.scanning listed) .idle

/-- Probing does not change the phase. -/
theorem after_of_probing
    {op : Op}
    (probing : op.Probing)
    (phase : Phase)
    (reply : op.Reply) :
    phase.after op reply = phase := by
  rcases phase with _ | _ | _ | ⟨purpose, _ | _ | _ | _⟩ <;>
    cases op <;>
    first | rfl | exact probing.elim

end Phase

/-- The protocol of a sync pass. -/
def syncProtocol (scope : Scope) : Protocol syncSignature Phase where
  allows := Allowed scope
  after := Phase.after
  silent := Phase.Silent
  admits := fun op reply =>
    match op, reply with
    | .isDir _, (isdir : Except String Bool) =>
        scope.directories ∨ isdir ≠ .ok true
    | _, _ => True

/-- Every reply is admitted when volumes may be directories. -/
theorem syncProtocol_admits
    {scope : Scope}
    (directories : scope.directories)
    (op : Op)
    (reply : op.Reply) :
    (syncProtocol scope).admits op reply := by
  cases op <;> first | trivial | exact .inl directories

section Conformance

variable {scope : Scope}

/-- A routine that conforms to the protocol of a sync pass. -/
abbrev PassConforms
    {α : Type}
    (scope : Scope)
    (post : α → Phase → Prop)
    (phase : Phase)
    (routine : Routine α) : Prop :=
  Conforms (syncProtocol scope) post phase routine

/-- A probing call keeps the phase. -/
theorem conforms_probe
    {α : Type}
    {post : α → Phase → Prop}
    {phase : Phase}
    {op : Op}
    {next : op.Reply → Routine α}
    (probing : op.Probing)
    (rest :
      ∀ reply,
        (syncProtocol scope).admits op reply →
        PassConforms scope post phase (next reply)) :
    PassConforms scope post phase (.call op next) := by
  refine .call (.probe probing) ?_
  intro reply admitted
  rw [show (syncProtocol scope).after phase op reply = phase from
    Phase.after_of_probing probing phase reply]
  exact rest reply admitted

/-- The volume mode of a path is one that probes can find. -/
theorem conforms_getVolumeMode (phase : Phase) (fullPath : String) :
    PassConforms scope
      (fun found current =>
        current = phase ∧ ∀ mode, found = .ok mode → scope.Finds mode)
      phase (getVolumeMode fullPath) := by
  refine conforms_probe trivial ?_
  intro (isdir : Except String Bool) admitted
  rcases isdir with errdir | _ | _
  · refine conforms_probe trivial ?_
    intro (isblk : Except String Bool) _
    rcases isblk with errblk | _ | _ <;>
      exact .done ⟨rfl, by rintro mode ⟨⟩; try trivial⟩
  · refine conforms_probe trivial ?_
    intro (isblk : Except String Bool) _
    rcases isblk with errblk | _ | _ <;>
      exact .done ⟨rfl, by rintro mode ⟨⟩; try trivial⟩
  · refine .done ⟨rfl, ?_⟩
    rintro mode ⟨⟩
    rcases admitted with directories | notDirectory
    · exact directories
    · exact (notDirectory rfl).elim

/-- Computing a container path makes no call that matters. -/
theorem conforms_getContainerPath
    (phase : Phase)
    (pv : PersistentVolume)
    (config : MountConfig) :
    PassConforms scope (fun _ current => current = phase) phase
      (getContainerPath pv config) := by
  unfold getContainerPath
  split
  · exact conforms_probe trivial fun (reply : Empty) => reply.elim
  · exact .done rfl

/-- `getVolMode` only probes. -/
theorem conforms_getVolMode
    (phase : Phase)
    (runtime : RuntimeConfig)
    (pv : PersistentVolume) :
    PassConforms scope
      (fun found current =>
        current = phase ∧ ∀ mode, found = .ok mode → scope.Finds mode)
      phase (getVolMode runtime pv) := by
  unfold getVolMode
  split
  · exact .done ⟨rfl, by rintro mode ⟨⟩⟩
  · refine (conforms_getContainerPath phase pv _).bind ?_
    intro mountPath current same
    subst same
    split
    · exact .done ⟨rfl, by rintro mode ⟨⟩⟩
    · exact conforms_getVolumeMode _ _

/-- `InProgress` either sends the pass home or completes the first check. -/
theorem conforms_inProgress
    {isJob : Bool}
    (purpose : Purpose)
    (tracked : scope.Tracks isJob) :
    PassConforms scope
      (fun busy current =>
        current =
          if busy then purpose.home else .tracking purpose (.checked isJob))
      (.tracking purpose .considered)
      (inProgress purpose.pvName isJob) := by
  cases isJob with
  | false =>
      refine .call (.askProcess tracked) ?_
      intro (busy : Bool) _
      exact .done (by cases busy <;> rfl)
  | true =>
      refine .call (.askJob tracked) ?_
      intro (busy : Bool) _
      exact .done (by cases busy <;> rfl)

/-- The phases in which `RemoveStatus` may leave a pass. -/
def Removed
    (purpose : Purpose)
    (isJob : Bool)
    (removed : Except String (CleanupState × Option Nat))
    (phase : Phase) : Prop :=
  match removed with
  | .ok (state, _) => phase = .tracking purpose (.cleared isJob state)
  | .error _ => phase = purpose.home

/-- A found job is deleted once it has succeeded. -/
theorem conforms_removeListedJob
    (runtime : RuntimeConfig)
    (purpose : Purpose)
    (job : Job) :
    PassConforms scope (Removed purpose true)
      (.tracking purpose (.found job))
      (removeListedJob runtime job) := by
  unfold removeListedJob
  split
  · exact .silent .giveUp (.done rfl)
  · rename_i succeeded
    refine .call (.takeJob succeeded) ?_
    intro (deleted : Except ApiError Unit) _
    cases deleted with
    | error err => exact .done rfl
    | ok _ => exact .done rfl

/-- `RemoveJob` looks the job up first. -/
theorem conforms_removeJob
    (runtime : RuntimeConfig)
    (purpose : Purpose) :
    PassConforms scope (Removed purpose true)
      (.tracking purpose (.checked true))
      (removeJob runtime purpose.pvName) := by
  refine .call .findJob ?_
  intro (listed : Except ApiError Job) _
  rcases listed with err | job
  · cases err with
    | notFound => exact .done rfl
    | alreadyExists => exact .done rfl
    | other message => exact .done rfl
  · exact conforms_removeListedJob runtime purpose job

/-- `RemoveStatus` takes the status of the selected tracker. -/
theorem conforms_removeStatus
    (runtime : RuntimeConfig)
    (purpose : Purpose)
    (isJob : Bool) :
    PassConforms scope (Removed purpose isJob)
      (.tracking purpose (.checked isJob))
      (removeStatus runtime purpose.pvName isJob) := by
  cases isJob with
  | false =>
      refine .call .takeEntry ?_
      intro (taken : Except String (CleanupState × Option Nat)) _
      cases taken with
      | error err => exact .done rfl
      | ok status => exact .done rfl
  | true =>
      exact conforms_removeJob runtime purpose

/-- Only the metrics of a deletion are left once its call has been made. -/
theorem conforms_reportDeleted
    {phase : Phase}
    (pv : PersistentVolume)
    (volMode : VolumeMode)
    (config : MountConfig)
    (runjob : Bool)
    (startTime : Option Nat) :
    PassConforms scope (fun _ current => current = phase) phase
      (reportDeleted pv volMode config runjob startTime) := by
  refine conforms_probe trivial ?_
  intro _ _
  cases startTime with
  | none => exact .done rfl
  | some started => exact conforms_probe trivial fun _ _ => .done rfl

/-- A cleaned PV is deleted once. -/
theorem conforms_deleteCleanedPV
    {listed : List PersistentVolume}
    (pv : PersistentVolume)
    (volMode : VolumeMode)
    (config : MountConfig)
    (runjob : Bool)
    (startTime : Option Nat) :
    PassConforms scope (fun _ current => current = .scanning listed)
      (.tracking (.reclaim listed pv) (.cleared runjob .succeeded))
      (deleteCleanedPV pv volMode config runjob startTime) := by
  refine .call .deletePV ?_
  intro (deleted : Except ApiError Unit) _
  rcases deleted with err | _
  · cases err with
    | notFound => exact conforms_reportDeleted pv volMode config runjob _
    | alreadyExists => exact conforms_probe trivial fun _ _ => .done rfl
    | other message => exact conforms_probe trivial fun _ _ => .done rfl
  · exact conforms_reportDeleted pv volMode config runjob _

/-- A cleanup job carries the name derived from its PV and has not succeeded. -/
theorem newCleanupJob_named
    {pv : PersistentVolume}
    {volMode : VolumeMode}
    {imageName nodeName namespaceName mountPath : String}
    {tolerations : List Toleration}
    {config : MountConfig}
    {now : Nat}
    {job : Job}
    (made :
      newCleanupJob pv volMode imageName tolerations nodeName namespaceName
        mountPath config now = .ok job) :
    job.name = generateCleaningJobName pv.name ∧ job.succeeded = 0 := by
  unfold newCleanupJob at made
  split at made
  · cases made
  · cases made
    exact ⟨rfl, rfl⟩

/-- Only a job with the name of its PV is submitted. -/
theorem conforms_submitJob
    {listed : List PersistentVolume}
    {pv : PersistentVolume}
    {state : CleanupState}
    {manifest : Except String Job}
    (named :
      ∀ job,
        manifest = .ok job →
        job.name = generateCleaningJobName pv.name ∧ job.succeeded = 0) :
    PassConforms scope (fun _ current => current = .scanning listed)
      (.tracking (.reclaim listed pv) (.cleared true state))
      (submitJob manifest) := by
  cases manifest with
  | error err => exact .silent .giveUp (.done rfl)
  | ok job =>
      obtain ⟨sameName, unfinished⟩ := named job rfl
      refine .call (.createJob sameName unfinished) ?_
      intro (created : Except ApiError Unit) _
      cases created with
      | error err => exact .done rfl
      | ok _ => exact .done rfl

/-- A cleaning is started through the tracker that was cleared. -/
theorem conforms_startCleaning
    {listed : List PersistentVolume}
    {state : CleanupState}
    (runtime : RuntimeConfig)
    (pv : PersistentVolume)
    (volMode : VolumeMode)
    (mountPath : String)
    (config : MountConfig)
    (runjob : Bool) :
    PassConforms scope (fun _ current => current = .scanning listed)
      (.tracking (.reclaim listed pv) (.cleared runjob state))
      (startCleaning runtime pv volMode mountPath config runjob) := by
  unfold startCleaning
  split
  · exact .silent .giveUp (.done rfl)
  · cases runjob with
    | false =>
        exact .call
          (@Allowed.spawnCleaner _ _ ⟨pv, volMode, mountPath, config⟩ _)
          fun _ _ => .done rfl
    | true =>
        simp only [if_true, runJob]
        split
        · exact .silent .giveUp (.done rfl)
        · exact conforms_probe trivial fun now _ =>
            conforms_submitJob fun _ => newCleanupJob_named

/-- What `deletePV` does with a taken status. -/
theorem conforms_actOnStatus
    {listed : List PersistentVolume}
    (runtime : RuntimeConfig)
    (pv : PersistentVolume)
    (volMode : VolumeMode)
    (mountPath : String)
    (config : MountConfig)
    (runjob : Bool)
    (state : CleanupState)
    (startTime : Option Nat) :
    PassConforms scope (fun _ current => current = .scanning listed)
      (.tracking (.reclaim listed pv) (.cleared runjob state))
      (actOnStatus runtime pv volMode mountPath config runjob state
        startTime) := by
  cases state with
  | succeeded => exact conforms_deleteCleanedPV pv volMode config runjob _
  | failed => exact conforms_startCleaning runtime pv volMode _ config runjob
  | notFound => exact conforms_startCleaning runtime pv volMode _ config runjob
  | unknown => exact .silent .giveUp (.done rfl)
  | running => exact .silent .giveUp (.done rfl)

/-- The tracker part of `deletePV`. -/
theorem conforms_cleanOrDelete
    {listed : List PersistentVolume}
    {runtime : RuntimeConfig}
    {volMode : VolumeMode}
    (flagged : scope.flags runtime.useJobForCleaning)
    (found : scope.Finds volMode)
    (pv : PersistentVolume)
    (mountPath : String)
    (config : MountConfig) :
    PassConforms scope (fun _ current => current = .scanning listed)
      (.tracking (.reclaim listed pv) .considered)
      (cleanOrDelete runtime pv volMode mountPath config) := by
  refine (conforms_inProgress (.reclaim listed pv)
    (Scope.Tracks.of_flag flagged found)).bind ?_
  intro busy current reached
  subst current
  cases busy with
  | true => exact .done rfl
  | false =>
      refine (conforms_removeStatus runtime (.reclaim listed pv)
        (shouldRunJob runtime volMode)).bind ?_
      intro removed current taken
      rcases removed with err | ⟨state, startTime⟩
      · subst taken
        exact .done rfl
      · subst taken
        exact conforms_actOnStatus runtime pv volMode mountPath config _ _ _

/-- `deletePV` of a PV that the pass has listed. -/
theorem conforms_deletePV
    {listed : List PersistentVolume}
    {runtime : RuntimeConfig}
    {pv : PersistentVolume}
    (flagged : scope.flags runtime.useJobForCleaning)
    (member : pv ∈ listed)
    (reclaimable : Reclaimable pv) :
    PassConforms scope (fun _ current => current = .scanning listed)
      (.scanning listed) (deletePV runtime pv) := by
  unfold deletePV
  split
  · exact .done rfl
  · split
    · exact .done rfl
    · refine (conforms_getContainerPath _ pv _).bind ?_
      intro mountPath current same
      subst same
      split
      · exact .done rfl
      · refine (conforms_getVolMode _ runtime pv).bind ?_
        intro found current reached
        obtain ⟨rfl, finds⟩ := reached
        split
        · exact .done rfl
        · exact .silent (.pick member reclaimable)
            (conforms_cleanOrDelete flagged (finds _ rfl) pv _ _)

/-- Reporting a failed deletion only probes. -/
theorem conforms_reportFailedDelete
    (phase : Phase)
    (runtime : RuntimeConfig)
    (pv : PersistentVolume)
    (err : String) :
    PassConforms scope (fun _ current => current = phase) phase
      (reportFailedDelete runtime pv err) := by
  refine (conforms_getVolMode phase runtime pv).bind ?_
  intro found current reached
  obtain ⟨rfl, _⟩ := reached
  cases found with
  | error err =>
      exact conforms_probe trivial fun _ _ =>
        conforms_probe trivial fun _ _ => .done rfl
  | ok mode =>
      exact conforms_probe trivial fun _ _ =>
        conforms_probe trivial fun _ _ => .done rfl

/-- One PV of a deletion pass. -/
theorem conforms_reclaimPV
    {listed : List PersistentVolume}
    {runtime : RuntimeConfig}
    {pv : PersistentVolume}
    (flagged : scope.flags runtime.useJobForCleaning)
    (member : pv ∈ listed) :
    PassConforms scope (fun _ current => current = .scanning listed)
      (.scanning listed) (reclaimPV runtime pv) := by
  unfold reclaimPV
  split
  · exact .done rfl
  · split
    · exact .done rfl
    · split
      · exact .done rfl
      · exact conforms_probe trivial fun _ _ => .done rfl
      · rename_i released live _ policy
        have reclaimable : Reclaimable pv :=
          ⟨not_not.mp released, not_not.mp live, policy⟩
        refine (conforms_deletePV flagged member reclaimable).bind ?_
        intro outcome current same
        subst same
        cases outcome with
        | error err => exact conforms_reportFailedDelete _ runtime pv err
        | ok _ => exact .done rfl
      · exact conforms_probe trivial fun _ _ => .done rfl

/-- A deletion pass. -/
theorem conforms_deletePVs
    {runtime : RuntimeConfig}
    (flagged : scope.flags runtime.useJobForCleaning) :
    PassConforms scope (fun _ current => current = .idle) .idle
      (deletePVs runtime) := by
  refine .call .list ?_
  intro (listed : List PersistentVolume) _
  have scanned :
      PassConforms scope (fun _ current => current = .scanning listed)
        (.scanning listed)
        (Program.forEach (reclaimPV runtime) listed) := by
    refine Conforms.forEach rfl ?_
    intro pv member current same
    subst same
    exact conforms_reclaimPV flagged member
  refine scanned.consequence ?_
  intro _ current same
  subst same
  exact .silent .finishScan (.done rfl)

/-- The purpose with which the discoverer takes a file through the tracker. -/
def Candidate.purpose (candidate : Candidate) (node : Node) : Purpose :=
  .create (candidate.pvName node) candidate.outsidePath

/-- `createPV` makes at most one call, with the name and path it was cleared for. -/
theorem conforms_createPV
    {isJob : Bool}
    {state : CleanupState}
    (discoverer : Discoverer)
    (candidate : Candidate)
    (mountOptions : List String)
    (capacityByte : Int) :
    PassConforms scope (fun _ current => current = .idle)
      (.tracking (candidate.purpose discoverer.node) (.cleared isJob state))
      (createPV discoverer candidate mountOptions capacityByte) := by
  unfold createPV
  split
  · exact .silent .giveUp (.done rfl)
  · rename_i affinityAnn _
    refine .call
      (@Allowed.createPV _
        (localPV discoverer candidate mountOptions capacityByte affinityAnn)
        candidate.outsidePath isJob state rfl) ?_
    intro (created : Except ApiError Unit) _
    cases created with
    | error err => exact .done rfl
    | ok _ => exact conforms_probe trivial fun _ _ => .done rfl

/-- The block branch ends in `createPV` or gives up. -/
theorem conforms_provisionBlock
    {isJob : Bool}
    {state : CleanupState}
    (discoverer : Discoverer)
    (candidate : Candidate)
    (mountOptions : List String) :
    PassConforms scope (fun _ current => current = .idle)
      (.tracking (candidate.purpose discoverer.node) (.cleared isJob state))
      (provisionBlock discoverer candidate mountOptions) := by
  refine conforms_probe trivial ?_
  intro (bytes : Except String Int) _
  cases bytes with
  | error err => exact .silent .giveUp (.done rfl)
  | ok capacityByte =>
      refine (conforms_createPV discoverer candidate mountOptions
        capacityByte).bind ?_
      intro outcome current same
      subst same
      exact .done rfl

/-- The filesystem branch ends in `createPV` or gives up. -/
theorem conforms_provisionFilesystem
    {isJob : Bool}
    {state : CleanupState}
    (discoverer : Discoverer)
    (candidate : Candidate)
    (mountPoints mountOptions : List String) :
    PassConforms scope (fun _ current => current = .idle)
      (.tracking (candidate.purpose discoverer.node) (.cleared isJob state))
      (provisionFilesystem discoverer candidate mountPoints
        mountOptions) := by
  unfold provisionFilesystem
  split
  · exact .silent .giveUp (.done rfl)
  · split
    · exact .silent .giveUp (.done rfl)
    · refine conforms_probe trivial ?_
      intro (bytes : Except String Int) _
      cases bytes with
      | error err => exact .silent .giveUp (.done rfl)
      | ok capacityByte =>
          refine (conforms_createPV discoverer candidate mountOptions
            capacityByte).bind ?_
          intro outcome current same
          subst same
          exact .done rfl

/-- The loop body after the cleanup status has been removed. -/
theorem conforms_provision
    {isJob : Bool}
    {state : CleanupState}
    (discoverer : Discoverer)
    (candidate : Candidate)
    (mountPoints : List String)
    (volMode : VolumeMode) :
    PassConforms scope (fun _ current => current = .idle)
      (.tracking (candidate.purpose discoverer.node) (.cleared isJob state))
      (provision discoverer candidate mountPoints volMode) := by
  refine conforms_probe trivial ?_
  intro (storageClass : Except String StorageClass) _
  cases storageClass with
  | error err => exact .silent .giveUp (.done rfl)
  | ok storageClass =>
      cases volMode with
      | block => exact conforms_provisionBlock discoverer candidate _
      | filesystem =>
          exact conforms_provisionFilesystem discoverer candidate _ _
      | other mode => exact .silent .giveUp (.done rfl)

/-- The loop body from the in-progress check on. -/
theorem conforms_provisionUnlessCleaning
    {discoverer : Discoverer}
    {volMode : VolumeMode}
    (flagged : scope.flags discoverer.useJobForCleaning)
    (found : scope.Finds volMode)
    (candidate : Candidate)
    (mountPoints : List String) :
    PassConforms scope (fun _ current => current = .idle)
      (.tracking (candidate.purpose discoverer.node) .considered)
      (provisionUnlessCleaning discoverer candidate mountPoints
        volMode) := by
  have tracked := Scope.Tracks.of_flag flagged found
  have selected :
      (if volMode = .block then discoverer.useJobForCleaning else false) =
        (volMode == .block && discoverer.useJobForCleaning) := by
    by_cases block : volMode = .block <;> simp [block]
  unfold provisionUnlessCleaning
  rw [selected]
  refine (conforms_inProgress (candidate.purpose discoverer.node)
    tracked).bind ?_
  intro busy current reached
  subst current
  cases busy with
  | true => exact .done rfl
  | false =>
      refine (conforms_removeStatus discoverer.toRuntimeConfig
        (candidate.purpose discoverer.node) _).bind ?_
      intro removed current taken
      rcases removed with err | ⟨state, startTime⟩
      · subst taken
        exact .done rfl
      · subst taken
        exact conforms_provision discoverer candidate mountPoints volMode

/-- A file whose PV is cached is at most reported. -/
theorem conforms_skipExisting
    (pv : PersistentVolume)
    (pvName filePath : String)
    (volMode : VolumeMode) :
    PassConforms scope (fun _ current => current = .idle) .idle
      (skipExisting pv pvName filePath volMode) := by
  unfold skipExisting
  split
  · exact conforms_probe trivial fun _ _ => .done rfl
  · exact .done rfl

/-- One matching file of a discovery pass. -/
theorem conforms_discoverFile
    {discoverer : Discoverer}
    (flagged : scope.flags discoverer.useJobForCleaning)
    (storageClass : String)
    (config : MountConfig)
    (reclaimPolicy : ReclaimPolicy)
    (mountPoints : List String)
    (file : String) :
    PassConforms scope (fun _ current => current = .idle) .idle
      (discoverFile discoverer storageClass config reclaimPolicy
        mountPoints file) := by
  refine conforms_probe trivial ?_
  intro startTime _
  refine (conforms_getVolumeMode .idle _).bind ?_
  intro found current reached
  obtain ⟨rfl, finds⟩ := reached
  cases found with
  | error err => exact .done rfl
  | ok volMode =>
      refine .call .get ?_
      intro (cached : Option PersistentVolume) _
      cases cached with
      | some pv =>
          exact conforms_skipExisting pv _ _ volMode
      | none =>
          refine .call .lookup ?_
          intro (users : List String) _
          cases users with
          | cons user rest => exact .done rfl
          | nil =>
              exact conforms_provisionUnlessCleaning flagged
                (finds volMode rfl) _ mountPoints

/-- The file loop of a class. -/
theorem conforms_discoverFiles
    {discoverer : Discoverer}
    (flagged : scope.flags discoverer.useJobForCleaning)
    (storageClass : String)
    (config : MountConfig)
    (reclaimPolicy : ReclaimPolicy)
    (mountPoints files : List String)
    (total : Tally) :
    PassConforms scope (fun _ current => current = .idle) .idle
      (discoverFiles discoverer storageClass config reclaimPolicy
        mountPoints files total) := by
  induction files generalizing total with
  | nil =>
      exact .done rfl
  | cons file rest inductionHypothesis =>
      unfold discoverFiles
      split
      · exact .done rfl
      · exact inductionHypothesis total
      · refine (conforms_discoverFile flagged storageClass config
          reclaimPolicy mountPoints file).bind ?_
        intro found current same
        subst same
        exact inductionHypothesis (total.add found)

/-- The end of a class only reports. -/
theorem conforms_concludeDiscovery (total : Tally) :
    PassConforms scope (fun _ current => current = .idle) .idle
      (concludeDiscovery total) := by
  refine conforms_probe trivial fun _ _ => ?_
  refine conforms_probe trivial fun _ _ => ?_
  by_cases clean : total.discoErrors = []
  · simp only [if_pos clean]
    exact .done rfl
  · simp only [if_neg clean]
    exact .done rfl

/-- A class whose policy is known reads its directory and the mounts. -/
theorem conforms_discoverWithPolicy
    {discoverer : Discoverer}
    (flagged : scope.flags discoverer.useJobForCleaning)
    (storageClass : String)
    (config : MountConfig)
    (reclaimPolicy : ReclaimPolicy) :
    PassConforms scope (fun _ current => current = .idle) .idle
      (discoverWithPolicy discoverer storageClass config
        reclaimPolicy) := by
  unfold discoverWithPolicy
  split
  · exact .done rfl
  · refine conforms_probe trivial ?_
    intro (files : Except String (List String)) _
    cases files with
    | error err => exact .done rfl
    | ok files =>
        refine conforms_probe trivial ?_
        intro (mountPoints : Except String (List String)) _
        cases mountPoints with
        | error err => exact .done rfl
        | ok mountPoints =>
            refine (conforms_discoverFiles flagged storageClass config
              reclaimPolicy mountPoints files {}).bind ?_
            intro found current same
            subst same
            cases found with
            | error err => exact .done rfl
            | ok total => exact conforms_concludeDiscovery total

/-- One class of a discovery pass. -/
theorem conforms_discoverVolumesAtPath
    {discoverer : Discoverer}
    (flagged : scope.flags discoverer.useJobForCleaning)
    (storageClass : String)
    (config : MountConfig) :
    PassConforms scope (fun _ current => current = .idle) .idle
      (discoverVolumesAtPath discoverer storageClass config) := by
  refine conforms_probe trivial ?_
  intro (storageClass : Except String StorageClass) _
  cases storageClass with
  | error err => exact .done rfl
  | ok storageClass => exact conforms_discoverWithPolicy flagged _ config _

/-- The class loop of a discovery pass. -/
theorem conforms_discoverClasses
    {discoverer : Discoverer}
    (flagged : scope.flags discoverer.useJobForCleaning)
    (classes : List (String × MountConfig))
    (readyz : Bool) :
    PassConforms scope (fun _ current => current = .idle) .idle
      (discoverClasses discoverer classes readyz) := by
  induction classes generalizing readyz with
  | nil =>
      exact .done rfl
  | cons entry rest inductionHypothesis =>
      refine (conforms_discoverVolumesAtPath flagged entry.1 entry.2).bind ?_
      intro outcome current same
      subst same
      cases outcome with
      | error err => exact inductionHypothesis false
      | ok _ => exact inductionHypothesis readyz

/-- A discovery pass. -/
theorem conforms_discoverLocalVolumes
    {discoverer : Discoverer}
    (flagged : scope.flags discoverer.useJobForCleaning) :
    PassConforms scope (fun _ current => current = .idle) .idle
      (discoverLocalVolumes discoverer) := by
  refine conforms_probe trivial fun classes _ => ?_
  refine (conforms_discoverClasses flagged classes true).bind ?_
  intro readyz current same
  subst same
  exact conforms_probe trivial fun _ _ => .done rfl

/-- A whole pass of the sync loop starts and ends idle. -/
theorem conforms_syncPass
    {discoverer : Discoverer}
    (flagged : scope.flags discoverer.useJobForCleaning) :
    PassConforms scope (fun _ current => current = .idle) .idle
      (syncPass discoverer) := by
  refine (conforms_deletePVs flagged).bind ?_
  intro _ current same
  subst same
  exact conforms_discoverLocalVolumes flagged

end Conformance

end LocalProvisioner
