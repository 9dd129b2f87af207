import LocalProvisioner.Operations
import LocalProvisioner.UnixPath

namespace LocalProvisioner

/-!
# The deleter

`DeletePVs` walks the cached PVs, cleans the released ones whose policy is
Delete, in-process or by a Kubernetes job, and deletes a PV once a cleaning of
it has ended in success.  The routines below are the source's functions in its
own order of checks, with every early return.
-/

/-- `generateCleaningJobName`. -/
def generateCleaningJobName (pvName : String) : String :=
  "cleanup-" ++ pvName

/-- Different PVs have differently named jobs. -/
theorem generateCleaningJobName_injective
    {first second : String}
    (same :
      generateCleaningJobName first = generateCleaningJobName second) :
    first = second := by
  have characters := congrArg String.toList same
  simp only [generateCleaningJobName, String.toList_append,
    List.append_cancel_left_eq] at characters
  exact String.toList_inj.mp characters

/-- `GenerateMountName`. -/
def generateMountName (config : MountConfig) : String :=
  "mount-" ++ hexadecimal
    (fnv32a (utf8Bytes config.hostDir ++ utf8Bytes config.mountDir))

/-- `IsCleaningJobRunning` on the answer of the job lister. -/
def isCleaningJobRunning : Except ApiError Job → Bool
  | .error .notFound => false
  | .error _ => true
  | .ok job => decide (job.succeeded ≤ 0)

/-- The command and environment that `NewCleanupJob` gives a cleaning container. -/
def cleaningCommand
    (volMode : VolumeMode)
    (mountPath : String)
    (config : MountConfig) :
    Except String (List String × List EnvVar) :=
  match volMode with
  | .block =>
      .ok (config.blockCleanerCommand,
        [{ name := localPVEnv, value := mountPath }])
  | .filesystem =>
      .ok (["/scripts/fsclean.sh"],
        [{ name := localFilesystemEnv, value := mountPath }])
  | .other mode =>
      .error ("unknown PersistentVolume mode: " ++ mode)

/-- `NewCleanupJob`, reading the clock as `now`. -/
def newCleanupJob
    (pv : PersistentVolume)
    (volMode : VolumeMode)
    (imageName : String)
    (tolerations : List Toleration)
    (nodeName namespaceName mountPath : String)
    (config : MountConfig)
    (now : Nat) :
    Except String Job :=
  match cleaningCommand volMode mountPath config with
  | .error err => .error err
  | .ok (command, env) =>
      let mountName := generateMountName config
      let isBlock := volMode == .block
      .ok {
        name := generateCleaningJobName pv.name
        namespaceName := namespaceName
        uid := 0
        deletionTimestamp := none
        labels := { nodeName := nodeName, pv := pv.name, pvUUID := pv.uid }
        device := mountPath
        startTime := some now
        containerName := "cleaner"
        image := imageName
        command := command
        env := env
        volumeMounts :=
          { name := mountName, mountPath := config.mountDir } ::
            if isBlock then [{ name := "dev", mountPath := "/dev" }] else []
        volumes :=
          { name := mountName, path := config.hostDir } ::
            if isBlock then [{ name := "dev", path := "/dev" }] else []
        nodeSelector := nodeName
        tolerations := tolerations
        succeeded := 0
      }

/-- `GetContainerPath` on the local path of a PV. -/
def containerPath
    (pvName path : String)
    (config : MountConfig) :
    Except String String :=
  match UnixPath.rel config.hostDir path with
  | .error err =>
      .error ("Could not get relative path for pv " ++ quoted pvName ++
        ": " ++ err)
  | .ok relativePath =>
      .ok (UnixPath.join [config.mountDir, relativePath])

/-- `GetContainerPath`; it dereferences `pv.Spec.Local` unchecked. -/
def getContainerPath
    (pv : PersistentVolume)
    (config : MountConfig) :
    Routine (Except String String) :=
  match pv.localSource with
  | none => crash "invalid memory address or nil pointer dereference"
  | some source => pure (containerPath pv.name source.path config)

/-- The error of `GetVolumeMode` when a path is neither directory nor device. -/
def volumeModeError
    (fullPath : String) :
    Except String Bool → Except String Bool → String
  | .error errdir, _ =>
      "Directory check for " ++ quoted fullPath ++ " failed: " ++ errdir
  | .ok _, .error errblk =>
      "Block device check for " ++ quoted fullPath ++ " failed: " ++ errblk
  | .ok _, .ok _ =>
      "Skipping file " ++ quoted fullPath ++
        ": not a directory nor block device"

/-- `GetVolumeMode` on Unix. -/
def getVolumeMode (fullPath : String) : Routine (Except String VolumeMode) := do
  let isdir ← perform (.isDir fullPath)
  match isdir with
  | .ok true => pure (.ok .filesystem)
  | _ =>
      let isblk ← perform (.isBlock fullPath)
      match isblk with
      | .ok true => pure (.ok .block)
      | _ => pure (.error (volumeModeError fullPath isdir isblk))

/-- `getVolMode`. -/
def getVolMode
    (runtime : RuntimeConfig)
    (pv : PersistentVolume) :
    Routine (Except String VolumeMode) :=
  match runtime.discoveryMap.lookup pv.storageClassName with
  | none =>
      pure (.error ("Unknown storage class name " ++ pv.storageClassName))
  | some config => do
      match ← getContainerPath pv config with
      | .error err => pure (.error err)
      | .ok mountPath => getVolumeMode mountPath

/-- `shouldRunJob`. -/
def shouldRunJob (runtime : RuntimeConfig) (mode : VolumeMode) : Bool :=
  mode == .block && runtime.useJobForCleaning

/-- `CleanupStatusTracker.InProgress`. -/
def inProgress (pvName : String) (isJob : Bool) : Routine Bool :=
  if isJob then
    perform (.isCleaningJobRunning pvName)
  else
    perform (.isRunning pvName)

/-- The part of `RemoveJob` after the lister has found the job. -/
def removeListedJob
    (runtime : RuntimeConfig)
    (job : Job) :
    Routine (Except String (CleanupState × Option Nat)) :=
  if job.succeeded = 0 then
    pure (.error ("Error deleting Job " ++ quoted job.name ++
      ": Cannot remove job that has not succeeded"))
  else do
    match ← perform (.deleteJob job.name runtime.namespaceName) with
    | .error err =>
        pure (.error ("Error deleting Job " ++ quoted job.name ++
          ": " ++ err.text))
    | .ok _ => pure (.ok (.succeeded, job.startTime))

/-- `jobController.RemoveJob`. -/
def removeJob
    (runtime : RuntimeConfig)
    (pvName : String) :
    Routine (Except String (CleanupState × Option Nat)) := do
  let jobName := generateCleaningJobName pvName
  match ← perform (.getJob jobName) with
  | .error .notFound => pure (.ok (.notFound, none))
  | .error err =>
      pure (.error ("Failed to check whether job " ++ jobName ++
        " has succeeded. Error - " ++ err.text))
  | .ok job => removeListedJob runtime job

/-- `CleanupStatusTracker.RemoveStatus`. -/
def removeStatus
    (runtime : RuntimeConfig)
    (pvName : String)
    (isJob : Bool) :
    Routine (Except String (CleanupState × Option Nat)) :=
  if isJob then
    removeJob runtime pvName
  else
    perform (.removeEntry pvName)

/-- The metric label of a deletion. -/
def deleteType (runjob : Bool) : String :=
  if runjob then "job" else "process"

/-- The metrics of a deleted PV. -/
def reportDeleted
    (pv : PersistentVolume)
    (volMode : VolumeMode)
    (config : MountConfig)
    (runjob : Bool)
    (startTime : Option Nat) :
    Routine (Except String Unit) := do
  let _ ← perform (.report (.deleted volMode.text (deleteType runjob)))
  match startTime with
  | none => pure (.ok ())
  | some started =>
      let _ ← perform (.report (.deleteDuration volMode.text
        (deleteType runjob) (pv.capacity.getD 0)
        (config.blockCleanerCommand.headD "") started))
      pure (.ok ())

/-- The part of `deletePV` after a cleaning that ended in success. -/
def deleteCleanedPV
    (pv : PersistentVolume)
    (volMode : VolumeMode)
    (config : MountConfig)
    (runjob : Bool)
    (startTime : Option Nat) :
    Routine (Except String Unit) := do
  match ← perform (.deletePV pv.name) with
  | .ok _ => reportDeleted pv volMode config runjob startTime
  | .error .notFound => reportDeleted pv volMode config runjob startTime
  | .error err =>
      let _ ← perform
        (.report (.event pv.name "VolumeFailedDelete" err.text))
      pure (.error ("Error deleting PV " ++ quoted pv.name ++ ": " ++
        err.text))

/-- The end of `runJob`: send the manifest, if there is one. -/
def submitJob : Except String Job → Routine (Except String Unit)
  | .error err => pure (.error err)
  | .ok job => do
      match ← perform (.createJob job) with
      | .error err => pure (.error err.text)
      | .ok _ => pure (.ok ())

/-- `runJob`. -/
def runJob
    (runtime : RuntimeConfig)
    (pv : PersistentVolume)
    (volMode : VolumeMode)
    (mountPath : String)
    (config : MountConfig) :
    Routine (Except String Unit) :=
  if runtime.jobContainerImage = "" then
    pure (.error ("cannot run cleanup job without specifying job image " ++
      "name in the environment variable"))
  else do
    let now ← perform .now
    submitJob (newCleanupJob pv volMode runtime.jobContainerImage
      runtime.jobTolerations runtime.node.name runtime.namespaceName
      mountPath config now)

/-- `runProcess`. -/
def runProcess
    (pv : PersistentVolume)
    (volMode : VolumeMode)
    (mountPath : String)
    (config : MountConfig) :
    Routine (Except String Unit) :=
  perform (.spawnCleaner { pv, volMode, mountPath, config })

/-- The part of `deletePV` that starts a cleaning. -/
def startCleaning
    (runtime : RuntimeConfig)
    (pv : PersistentVolume)
    (volMode : VolumeMode)
    (mountPath : String)
    (config : MountConfig)
    (runjob : Bool) :
    Routine (Except String Unit) :=
  if volMode = .block ∧ config.blockCleanerCommand = [] then
    pure (.error ("Blockcleaner command was empty for pv " ++
      quoted pv.name ++ " mountPath " ++ mountPath ++
      " but mount dir is " ++ config.mountDir))
  else if runjob then
    runJob runtime pv volMode mountPath config
  else
    runProcess pv volMode mountPath config

/-- The part of `deletePV` after `RemoveStatus`. -/
def actOnStatus
    (runtime : RuntimeConfig)
    (pv : PersistentVolume)
    (volMode : VolumeMode)
    (mountPath : String)
    (config : MountConfig)
    (runjob : Bool)
    (state : CleanupState)
    (startTime : Option Nat) :
    Routine (Except String Unit) :=
  match state with
  | .succeeded => deleteCleanedPV pv volMode config runjob startTime
  | .failed | .notFound =>
      startCleaning runtime pv volMode mountPath config runjob
  | .unknown | .running =>
      pure (.error ("Unexpected state " ++ toString state.code ++
        " for pv " ++ pv.name))

/-- The part of `deletePV` that consults the cleanup tracker. -/
def cleanOrDelete
    (runtime : RuntimeConfig)
    (pv : PersistentVolume)
    (volMode : VolumeMode)
    (mountPath : String)
    (config : MountConfig) :
    Routine (Except String Unit) := do
  let runjob := shouldRunJob runtime volMode
  if ← inProgress pv.name runjob then
    pure (.ok ())
  else
    match ← removeStatus runtime pv.name runjob with
    | .error err => pure (.error err)
    | .ok (state, startTime) =>
        actOnStatus runtime pv volMode mountPath config runjob
          state startTime

/-- `deletePV`. -/
def deletePV
    (runtime : RuntimeConfig)
    (pv : PersistentVolume) :
    Routine (Except String Unit) :=
  if pv.localSource = none then
    pure (.error "Unsupported volume type")
  else
    match runtime.discoveryMap.lookup pv.storageClassName with
    | none =>
        pure (.error ("Unknown storage class name " ++ pv.storageClassName))
    | some config => do
        match ← getContainerPath pv config with
        | .error err => pure (.error err)
        | .ok mountPath =>
            match ← getVolMode runtime pv with
            | .error err =>
                pure (.error ("failed to get volume mode of path " ++
                  quoted mountPath ++ ": " ++ err))
            | .ok volMode =>
                cleanOrDelete runtime pv volMode mountPath config

/-- The reporting branch of `DeletePVs` for a PV whose `deletePV` failed. -/
def reportFailedDelete
    (runtime : RuntimeConfig)
    (pv : PersistentVolume)
    (err : String) :
    Routine Unit := do
  let mode ←
    match ← getVolMode runtime pv with
    | .ok mode => pure mode
    | .error _ => pure (VolumeMode.other "unknown")
  let _ ← perform (.report
    (.deleteFailed mode.text (deleteType (shouldRunJob runtime mode))))
  let _ ← perform (.report (.event pv.name "VolumeFailedDelete"
    ("Error cleaning PV " ++ quoted pv.name ++ ": " ++ err)))
  pure ()

/-- The body of the loop of `DeletePVs`. -/
def reclaimPV
    (runtime : RuntimeConfig)
    (pv : PersistentVolume) :
    Routine Unit :=
  if pv.phase ≠ .released then
    pure ()
  else if pv.deletionTimestamp ≠ none then
    pure ()
  else
    match pv.reclaimPolicy with
    | .retain => pure ()
    | .recycle => do
        let _ ← perform (.report (.event pv.name
          "VolumeUnsupportedReclaimPolicy"
          ("Volume has unsupported PersistentVolumeReclaimPolicy: " ++
            "Recycle")))
        pure ()
    | .delete => do
        match ← deletePV runtime pv with
        | .ok _ => pure ()
        | .error err => reportFailedDelete runtime pv err
    | .other _ => do
        let _ ← perform (.report (.event pv.name
          "VolumeUnknownReclaimPolicy"
          "Volume has unrecognized PersistentVolumeReclaimPolicy"))
        pure ()

/-- `DeletePVs`. -/
def deletePVs (runtime : RuntimeConfig) : Routine Unit := do
  let pvs ← perform .listPVs
  Interleaving.Program.forEach (reclaimPV runtime) pvs

/-- The PVs that `DeletePVs` hands to `deletePV`. -/
def Reclaimable (pv : PersistentVolume) : Prop :=
  pv.phase = .released ∧
    pv.deletionTimestamp = none ∧
    pv.reclaimPolicy = .delete

instance (pv : PersistentVolume) : Decidable (Reclaimable pv) :=
  inferInstanceAs (Decidable (_ ∧ _ ∧ _))

/-!
## The cleaner goroutine

`cleanPV` decides what a cleaner runs.  The deletion of directory contents and
the block cleaner command are the environment's; only their arguments and
their outcome matter here.
-/

/-- What a cleaner runs: `DeleteContents`, or the block cleaner command. -/
inductive CleaningAction where
  | deleteContents : (hostPath mountPath : String) → CleaningAction
  | execScript :
      (command : List String) →
      (environment : EnvVar) →
      CleaningAction
  deriving Repr, DecidableEq

/-- The path a cleaning action works on. -/
def CleaningAction.target : CleaningAction → String
  | .deleteContents _ mountPath => mountPath
  | .execScript _ environment => environment.value

/-- `strings.HasPrefix`. -/
def hasPrefix (text leading : String) : Bool :=
  leading.toList.isPrefixOf text.toList

/-- `cleanPV` up to the action it performs. -/
def cleanPV (work : CleanerWork) : Except String CleaningAction :=
  if hasPrefix work.mountPath work.config.mountDir = false then
    .error ("Unexpected error pv " ++ quoted work.pv.name ++
      " mountPath " ++ work.mountPath ++ " but mount dir is " ++
      work.config.mountDir)
  else
    match work.volMode with
    | .filesystem =>
        .ok (.deleteContents (work.pv.localPath.getD "") work.mountPath)
    | .block =>
        .ok (.execScript work.config.blockCleanerCommand
          { name := localPVEnv, value := work.mountPath })
    | .other mode =>
        .error ("Unexpected volume mode " ++ quoted mode ++
          " for deleting path " ++ quoted (work.pv.localPath.getD ""))

/-- The outcome `asyncCleanPV` records, given the outcome of the action. -/
def cleaningOutcome
    (work : CleanerWork)
    (performed : Except String Unit) :
    CleanupState :=
  match cleanPV work with
  | .error _ => .failed
  | .ok _ =>
      match performed with
      | .error _ => .failed
      | .ok _ => .succeeded

end LocalProvisioner
