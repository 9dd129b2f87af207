import LocalProvisioner.Configuration
import LocalProvisioner.SyncLoop

namespace LocalProvisioner

open Interleaving UnixPath

/-!
# The paths that are cleaned

`deletePV` computes the path to clean by `Rel` and `Join`, which leads out of
the mount directory if the path of the PV does not lie below the host
directory.  `cleanPV` is to make sure that nothing outside of the mount
directory is deleted, but compares strings: a sibling directory whose name
starts with that of the mount directory passes, and so does the mount directory
itself.  Cleaning jobs are created without a check.
-/

/-- The paths that a call has cleaned: by a cleaner goroutine, or by a job. -/
def Op.cleanedPaths : Op → List String
  | .spawnCleaner work =>
      match cleanPV work with
      | .ok action => [action.target]
      | .error _ => []
  | .createJob job => job.env.map EnvVar.value
  | _ => []

/-- Does a call start a cleaner goroutine or a cleaning job? -/
def Op.startsCleaning : Op → Bool
  | .spawnCleaner _ => true
  | .createJob _ => true
  | _ => false

/-- A call that starts no cleaning has nothing cleaned. -/
theorem Op.cleanedPaths_eq_nil
    {op : Op}
    (starts : op.startsCleaning = false) :
    op.cleanedPaths = [] := by
  cases op with
  | spawnCleaner work => cases starts
  | createJob job => cases starts
  | _ => rfl

/--
Whatever the surroundings answer, `deletePV` has nothing cleaned but proper
descendants of the mount directory, and only for a PV whose path lies strictly
below the host directory.
-/
def Confined
    (runtime : RuntimeConfig)
    (config : MountConfig)
    (pv : PersistentVolume)
    (path : String) : Prop :=
  ∀ (answer : (op : Op) → Option op.Reply),
    ∀ op ∈ Program.calls answer (deletePV runtime pv),
      ∀ target ∈ op.cleanedPaths,
        StrictlyBelow (clean config.mountDir) target ∧
          StrictlyBelow config.hostDir path

/-- Jobs can be created for block devices. -/
def runsJobs (runtime : RuntimeConfig) : Bool :=
  runtime.useJobForCleaning && decide (runtime.jobContainerImage ≠ "")

section Calls

variable {allowed : Op → Prop}
variable (harmless : ∀ op : Op, op.startsCleaning = false → allowed op)

include harmless

/-- Finding out a volume mode starts no cleaning. -/
theorem only_getVolMode (runtime : RuntimeConfig) (pv : PersistentVolume) :
    Program.Only allowed (getVolMode runtime pv) := by
  unfold getVolMode
  split
  · exact .done
  · refine Program.Only.bind ?_ ?_
    · unfold getContainerPath
      split
      · exact .call (harmless _ rfl) fun (reply : Empty) => reply.elim
      · exact .done
    · rintro (err | mountPath)
      · exact .done
      · refine .call (harmless _ rfl) ?_
        intro (isdir : Except String Bool)
        rcases isdir with errdir | _ | _
        · refine .call (harmless _ rfl) ?_
          intro (isblk : Except String Bool)
          rcases isblk with errblk | _ | _ <;> exact .done
        · refine .call (harmless _ rfl) ?_
          intro (isblk : Except String Bool)
          rcases isblk with errblk | _ | _ <;> exact .done
        · exact .done

/-- Taking a cleanup status starts no cleaning. -/
theorem only_removeStatus
    (runtime : RuntimeConfig)
    (pvName : String)
    (isJob : Bool) :
    Program.Only allowed (removeStatus runtime pvName isJob) := by
  cases isJob with
  | false => exact .call (harmless _ rfl) fun _ => .done
  | true =>
      refine .call (harmless _ rfl) ?_
      intro (listed : Except ApiError Job)
      rcases listed with (_ | _ | _) | job
      · exact .done
      · exact .done
      · exact .done
      · show Program.Only allowed (removeListedJob runtime job)
        unfold removeListedJob
        split
        · exact .done
        · refine .call (harmless _ rfl) ?_
          intro (deleted : Except ApiError Unit)
          cases deleted <;> exact .done

/-- Deleting a cleaned PV starts no cleaning. -/
theorem only_deleteCleanedPV
    (pv : PersistentVolume)
    (volMode : VolumeMode)
    (config : MountConfig)
    (runjob : Bool)
    (startTime : Option Nat) :
    Program.Only allowed
      (deleteCleanedPV pv volMode config runjob startTime) := by
  have reported :
      Program.Only allowed
        (reportDeleted pv volMode config runjob startTime) := by
    refine .call (harmless _ rfl) fun _ => ?_
    cases startTime with
    | none => exact .done
    | some started => exact .call (harmless _ rfl) fun _ => .done
  refine .call (harmless _ rfl) ?_
  intro (deleted : Except ApiError Unit)
  rcases deleted with (_ | _ | _) | _
  · exact reported
  · exact .call (harmless _ rfl) fun _ => .done
  · exact .call (harmless _ rfl) fun _ => .done
  · exact reported

/-- A cleaning is started for the given path only. -/
theorem only_startCleaning
    {runtime : RuntimeConfig}
    {pv : PersistentVolume}
    {volMode : VolumeMode}
    {mountPath : String}
    {config : MountConfig}
    {runjob : Bool}
    (byProcess : allowed (.spawnCleaner { pv, volMode, mountPath, config }))
    (byJob :
      runjob = true →
      runtime.jobContainerImage ≠ "" →
      ∀ job : Job,
        job.env.map EnvVar.value = [mountPath] →
        allowed (.createJob job)) :
    Program.Only allowed
      (startCleaning runtime pv volMode mountPath config runjob) := by
  unfold startCleaning
  split
  · exact .done
  · cases runjob with
    | false => exact .call byProcess fun _ => .done
    | true =>
        show Program.Only allowed (runJob runtime pv volMode mountPath config)
        unfold runJob
        split
        · exact .done
        · rename_i imaged
          refine .call (harmless _ rfl) fun (now : Nat) => ?_
          cases volMode with
          | block =>
              refine .call (byJob rfl imaged _ rfl) ?_
              intro (created : Except ApiError Unit)
              cases created <;> exact .done
          | filesystem =>
              refine .call (byJob rfl imaged _ rfl) ?_
              intro (created : Except ApiError Unit)
              cases created <;> exact .done
          | other mode => exact .done

/-- The part of `deletePV` behind the tracker cleans the given path only. -/
theorem only_cleanOrDelete
    {runtime : RuntimeConfig}
    {pv : PersistentVolume}
    {volMode : VolumeMode}
    {mountPath : String}
    {config : MountConfig}
    (byProcess : allowed (.spawnCleaner { pv, volMode, mountPath, config }))
    (byJob :
      runsJobs runtime = true →
      ∀ job : Job,
        job.env.map EnvVar.value = [mountPath] →
        allowed (.createJob job)) :
    Program.Only allowed
      (cleanOrDelete runtime pv volMode mountPath config) := by
  have asked :
      Program.Only allowed
        (inProgress pv.name (shouldRunJob runtime volMode)) := by
    unfold inProgress
    cases shouldRunJob runtime volMode <;>
      exact .call (harmless _ rfl) fun _ => .done
  refine asked.bind ?_
  rintro (_ | _)
  · refine (only_removeStatus harmless runtime pv.name _).bind ?_
    rintro (err | ⟨state, startTime⟩)
    · exact .done
    · have started :
          Program.Only allowed
            (startCleaning runtime pv volMode mountPath config
              (shouldRunJob runtime volMode)) := by
        refine only_startCleaning harmless byProcess ?_
        intro runs imaged
        refine byJob ?_
        simp only [shouldRunJob, Bool.and_eq_true] at runs
        simp [runsJobs, runs.2, imaged]
      cases state with
      | unknown => exact .done
      | notFound => exact started
      | running => exact .done
      | failed => exact started
      | succeeded =>
          exact only_deleteCleanedPV harmless pv volMode config _ startTime
  · exact .done

/-- `deletePV` starts cleanings of the container path of the PV only. -/
theorem only_deletePV
    {runtime : RuntimeConfig}
    {config : MountConfig}
    {pv : PersistentVolume}
    {source : LocalVolumeSource}
    (isLocal : pv.localSource = some source)
    (ofClass : runtime.discoveryMap.lookup pv.storageClassName = some config)
    (byProcess :
      ∀ volMode mountPath,
        containerPath pv.name source.path config = .ok mountPath →
        allowed (.spawnCleaner { pv, volMode, mountPath, config }))
    (byJob :
      runsJobs runtime = true →
      ∀ mountPath,
        containerPath pv.name source.path config = .ok mountPath →
        ∀ job : Job,
          job.env.map EnvVar.value = [mountPath] →
          allowed (.createJob job)) :
    Program.Only allowed (deletePV runtime pv) := by
  simp only [deletePV, isLocal, ofClass, getContainerPath, reduceCtorEq,
    if_false, Program.pure_eq, Program.bind_eq, Program.done_bind]
  cases container : containerPath pv.name source.path config with
  | error err => exact .done
  | ok mountPath =>
      refine (only_getVolMode harmless runtime pv).bind ?_
      rintro (err | volMode)
      · exact .done
      · exact only_cleanOrDelete harmless (byProcess volMode mountPath container)
          fun runs => byJob runs mountPath container

end Calls

section Pointwise

variable {runtime : RuntimeConfig}
variable {config : MountConfig}
variable {pv : PersistentVolume}
variable {source : LocalVolumeSource}

/-- Only the container path is cleaned, past the check or by a job. -/
theorem cleaned_eq_containerPath
    {answer : (op : Op) → Option op.Reply}
    {op : Op}
    {target : String}
    (isLocal : pv.localSource = some source)
    (ofClass : runtime.discoveryMap.lookup pv.storageClassName = some config)
    (called : op ∈ Program.calls answer (deletePV runtime pv))
    (cleaned : target ∈ op.cleanedPaths) :
    containerPath pv.name source.path config = .ok target ∧
      (hasPrefix target config.mountDir = true ∨ runsJobs runtime = true) := by
  suffices only :
      Program.Only
        (fun op : Op =>
          ∀ target ∈ op.cleanedPaths,
            containerPath pv.name source.path config = .ok target ∧
              (hasPrefix target config.mountDir = true ∨
                runsJobs runtime = true))
        (deletePV runtime pv) from
    only.of_mem_calls called target cleaned
  refine only_deletePV ?_ isLocal ofClass ?_ ?_
  · intro op starts target member
    rw [Op.cleanedPaths_eq_nil starts] at member
    cases member
  · intro volMode mountPath container target member
    by_cases inside : hasPrefix mountPath config.mountDir = true
    · have isTarget : target = mountPath := by
        cases volMode with
        | block =>
            simpa [Op.cleanedPaths, cleanPV, inside, CleaningAction.target]
              using member
        | filesystem =>
            simpa [Op.cleanedPaths, cleanPV, inside, CleaningAction.target]
              using member
        | other mode => simp [Op.cleanedPaths, cleanPV, inside] at member
      subst target
      exact ⟨container, .inl inside⟩
    · simp [Op.cleanedPaths, cleanPV, inside] at member
  · intro runs mountPath container job paths target member
    have isTarget : target = mountPath := by
      simpa [Op.cleanedPaths, paths] using member
    subst target
    exact ⟨container, .inr runs⟩

/-- The path is a directory that no cleaner works on. -/
def directoryAnswers : (op : Op) → Option op.Reply
  | .isDir _ => some (.ok true : Except String Bool)
  | .isRunning _ => some false
  | .removeEntry _ =>
      some (.ok (.notFound, none) :
        Except String (CleanupState × Option Nat))
  | _ => none

/-- The path is a block device that no job works on. -/
def deviceAnswers : (op : Op) → Option op.Reply
  | .isDir _ => some (.ok false : Except String Bool)
  | .isBlock _ => some (.ok true : Except String Bool)
  | .isCleaningJobRunning _ => some false
  | .getJob _ => some (.error .notFound : Except ApiError Job)
  | .now => some (0 : Nat)
  | _ => none

/-- For a directory a cleaner is started, whatever its path. -/
theorem spawns_directory
    {mountPath : String}
    (isLocal : pv.localSource = some source)
    (ofClass : runtime.discoveryMap.lookup pv.storageClassName = some config)
    (container : containerPath pv.name source.path config = .ok mountPath) :
    .spawnCleaner { pv, volMode := .filesystem, mountPath, config } ∈
      Program.calls directoryAnswers (deletePV runtime pv) := by
  simp only [deletePV, isLocal, ofClass, getContainerPath, reduceCtorEq,
    if_false, Program.pure_eq, Program.bind_eq, Program.done_bind, container,
    getVolMode, getVolumeMode]
  exact .tail _ (.tail _ (.tail _ (.head _)))

/-- A directory that passes the check is cleaned in-process. -/
theorem cleans_directory
    {mountPath : String}
    (isLocal : pv.localSource = some source)
    (ofClass : runtime.discoveryMap.lookup pv.storageClassName = some config)
    (container : containerPath pv.name source.path config = .ok mountPath)
    (inside : hasPrefix mountPath config.mountDir = true) :
    ∃ op ∈ Program.calls directoryAnswers (deletePV runtime pv),
      mountPath ∈ op.cleanedPaths := by
  refine ⟨_, spawns_directory isLocal ofClass container, ?_⟩
  simp [Op.cleanedPaths, cleanPV, inside, CleaningAction.target]

/-- A device is cleaned by a job, whatever its path. -/
theorem cleans_device
    {mountPath : String}
    (isLocal : pv.localSource = some source)
    (ofClass : runtime.discoveryMap.lookup pv.storageClassName = some config)
    (command : config.blockCleanerCommand ≠ [])
    (container : containerPath pv.name source.path config = .ok mountPath)
    (runs : runsJobs runtime = true) :
    ∃ op ∈ Program.calls deviceAnswers (deletePV runtime pv),
      mountPath ∈ op.cleanedPaths := by
  simp only [runsJobs, Bool.and_eq_true, decide_eq_true_eq] at runs
  obtain ⟨useJob, imaged⟩ := runs
  have chosen : shouldRunJob runtime .block = true := by
    simp [shouldRunJob, useJob]
  have started :
      startCleaning runtime pv .block mountPath config true =
        runJob runtime pv .block mountPath config := by
    simp [startCleaning, command]
  obtain ⟨job, made, paths⟩ :
      ∃ job,
        newCleanupJob pv .block runtime.jobContainerImage
            runtime.jobTolerations runtime.node.name runtime.namespaceName
            mountPath config 0 = .ok job ∧
          job.env.map EnvVar.value = [mountPath] :=
    ⟨_, rfl, rfl⟩
  refine ⟨.createJob job, ?_, by simp [Op.cleanedPaths, paths]⟩
  simp only [deletePV, isLocal, ofClass, getContainerPath, reduceCtorEq,
    if_false, Program.pure_eq, Program.bind_eq, Program.done_bind, container,
    getVolMode, getVolumeMode]
  refine .tail _ (.tail _ ?_)
  show .createJob job ∈ Program.calls deviceAnswers
    (cleanOrDelete runtime pv .block mountPath config)
  rw [cleanOrDelete, chosen]
  refine .tail _ (.tail _ ?_)
  show .createJob job ∈ Program.calls deviceAnswers
    (startCleaning runtime pv .block mountPath config true)
  rw [started, runJob, if_neg imaged]
  refine .tail _ ?_
  show .createJob job ∈ Program.calls deviceAnswers
    (submitJob (newCleanupJob pv .block runtime.jobContainerImage
      runtime.jobTolerations runtime.node.name runtime.namespaceName
      mountPath config 0))
  rw [made]
  exact .head _

/-- An accepted class has a mount directory and a block cleaner command. -/
theorem directories_of_configureClass
    {className : String}
    {settings configured : MountSettings}
    (accepted : configureClass className settings = .ok configured) :
    configured.mountDir ≠ "" ∧
      configured.toMountConfig.blockCleanerCommand ≠ [] := by
  obtain ⟨settingsAccepted, rfl⟩ := configureClass_ok_iff.mp accepted
  obtain ⟨command, mountDir, _⟩ := settingsAccepted.withDefaults
  refine ⟨mountDir, ?_⟩
  simpa [MountSettings.toMountConfig, MountSettings.withDefaults]
    using command

/--
Cleaning for a PV of an accepted class is confined exactly if the path of the
PV lies strictly below the host directory, or it has no container path that
passes the check or is handed to a job.
-/
theorem confined_iff
    {settings configured : MountSettings}
    (accepted :
      configureClass pv.storageClassName settings = .ok configured)
    (ofClass :
      runtime.discoveryMap.lookup pv.storageClassName =
        some configured.toMountConfig)
    (isLocal : pv.localSource = some source) :
    Confined runtime configured.toMountConfig pv source.path ↔
      StrictlyBelow configured.hostDir source.path ∨
        ∀ mountPath,
          containerPath pv.name source.path configured.toMountConfig =
            .ok mountPath →
          hasPrefix mountPath configured.mountDir = false ∧
            runsJobs runtime = false := by
  obtain ⟨mountDir, command⟩ := directories_of_configureClass accepted
  constructor
  · intro confined
    by_cases below : StrictlyBelow configured.hostDir source.path
    · exact .inl below
    · refine .inr ?_
      intro mountPath container
      constructor
      · rw [Bool.eq_false_iff]
        intro inside
        obtain ⟨op, called, cleaned⟩ :=
          cleans_directory isLocal ofClass container inside
        exact below (confined _ op called mountPath cleaned).2
      · rw [Bool.eq_false_iff]
        intro runs
        obtain ⟨op, called, cleaned⟩ :=
          cleans_device isLocal ofClass command container runs
        exact below (confined _ op called mountPath cleaned).2
  · intro condition answer op called target cleaned
    obtain ⟨container, way⟩ :=
      cleaned_eq_containerPath isLocal ofClass called cleaned
    rcases condition with below | unreached
    · obtain ⟨relative, related, confined⟩ :=
        strictlyBelow_join_rel mountDir below
      have target_eq : join [configured.mountDir, relative] = target := by
        simpa [containerPath, MountSettings.toMountConfig, related]
          using container
      exact ⟨target_eq ▸ confined, below⟩
    · obtain ⟨outside, noJobs⟩ := unreached target container
      have impossible : False := by
        rcases way with inside | runs
        · exact Bool.false_ne_true (outside.symm.trans inside)
        · exact Bool.false_ne_true (noJobs.symm.trans runs)
      exact impossible.elim

end Pointwise

/-- The class of the sample deployment, before defaults. -/
def sampleSettings : MountSettings :=
  { hostDir := "/mnt/disks", mountDir := "/mnt/fast" }

/-- The equivalence for the PV of the sample deployment. -/
theorem confined_iff_of_sampleReleasedPV :
    configureClass "fast" sampleSettings = .ok sampleSettings.withDefaults ∧
      (Confined (sampleRuntime false sampleClasses)
          sampleSettings.withDefaults.toMountConfig (sampleReleasedPV 1)
          "/mnt/disks/volume" ↔
        StrictlyBelow "/mnt/disks" "/mnt/disks/volume" ∨
          ∀ mountPath,
            containerPath (sampleReleasedPV 1).name "/mnt/disks/volume"
                sampleSettings.withDefaults.toMountConfig = .ok mountPath →
            hasPrefix mountPath "/mnt/fast" = false ∧
              runsJobs (sampleRuntime false sampleClasses) = false) := by
  have accepted :
      configureClass "fast" sampleSettings =
        .ok sampleSettings.withDefaults :=
    configureClass_ok_iff.mpr ⟨by decide, rfl⟩
  have ofClass :
      (sampleRuntime false sampleClasses).discoveryMap.lookup "fast" =
        some sampleSettings.withDefaults.toMountConfig := by
    decide
  have isLocal :
      (sampleReleasedPV 1).localSource =
        some { path := "/mnt/disks/volume", fsType := none } := rfl
  exact ⟨accepted,
    @confined_iff (sampleRuntime false sampleClasses) (sampleReleasedPV 1)
      { path := "/mnt/disks/volume", fsType := none } sampleSettings
      sampleSettings.withDefaults accepted ofClass isLocal⟩

/-- A PV whose path lies beside the mount directory, in its container. -/
def siblingPV : PersistentVolume :=
  { sampleReleasedPV 1 with
    localSource := some { path := "/mnt/fast-other/x", fsType := none } }

/-- A sibling of the mount directory is cleaned. -/
theorem cleans_outside_mountDir :
    ∃ (runtime : RuntimeConfig) (settings configured : MountSettings)
        (pv : PersistentVolume) (answer : (op : Op) → Option op.Reply)
        (op : Op) (target : String),
      configureClass pv.storageClassName settings = .ok configured ∧
        runtime.discoveryMap.lookup pv.storageClassName =
          some configured.toMountConfig ∧
        op ∈ Program.calls answer (deletePV runtime pv) ∧
        target ∈ op.cleanedPaths ∧
        ¬ StrictlyBelow (clean configured.mountDir) target := by
  obtain ⟨op, called, cleaned⟩ :=
    @cleans_directory (sampleRuntime false sampleClasses)
      (sampleMount "/mnt/disks" "/mnt/fast") siblingPV _ "/mnt/fast-other/x"
      rfl (by decide) (by decide +kernel) (by decide)
  exact ⟨sampleRuntime false sampleClasses, sampleSettings,
    sampleSettings.withDefaults, siblingPV, directoryAnswers, op,
    "/mnt/fast-other/x", configureClass_ok_iff.mpr ⟨by decide, rfl⟩,
    by decide, called, cleaned, by decide +kernel⟩

end LocalProvisioner
