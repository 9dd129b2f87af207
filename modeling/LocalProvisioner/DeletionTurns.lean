import LocalProvisioner.DeletionIsolation
import LocalProvisioner.FileVerdicts

namespace LocalProvisioner

open Interleaving

/-!
# What a deletion pass orders

A pass of `DeletePVs` orders the deletion of PVs, the start of cleaners, and
the creation of jobs.  `Turn` names what the turn of a PV can come to, and
`DeletionPass.turn` says what it comes to, with either way of cleaning.  The
turns of a pass are decided by the state in which the pass starts, whatever the
order in which the cache is listed.

The surroundings answer each call in one way throughout the pass.
-/

/-- A pass of `DeletePVs`. -/
structure DeletionPass where
  runtime : RuntimeConfig
  oracle : Op → Answers
  world : World

/-- What the turn of a reclaimable PV comes to. -/
inductive Turn where
  /-- Its cleaning is in progress. -/
  | waits : Turn
  /-- It has been cleaned, and its deletion is requested. -/
  | deletes : (pvName : String) → Turn
  /-- A cleaner is started for it, -/
  | spawns : CleanerWork → Turn
  /-- or a job. -/
  | submits : Job → Turn
  /-- Nothing can be done about it. -/
  | refuses : (err : String) → Turn

/-- The call by which a turn orders something. -/
def Turn.order? : Turn → Option Op
  | .waits => none
  | .deletes pvName => some (.deletePV pvName)
  | .spawns work => some (.spawnCleaner work)
  | .submits job => some (.createJob job)
  | .refuses _ => none

/-- The calls by which something is ordered. -/
def Op.order? : Op → Option Op
  | .deletePV pvName => some (.deletePV pvName)
  | .spawnCleaner work => some (.spawnCleaner work)
  | .createJob job => some (.createJob job)
  | _ => none

/-- What is ordered by the calls of a run. -/
def orders (calls : List (Answered syncSignature)) : List Op :=
  calls.filterMap fun answered => Op.order? answered.op

@[simp] theorem orders_nil : orders [] = [] :=
  rfl

theorem orders_append (earlier later : List (Answered syncSignature)) :
    orders (earlier ++ later) = orders earlier ++ orders later :=
  List.filterMap_append

namespace DeletionPass

/-- The volume mode of a path, as the file system has it. -/
def mode? (pass : DeletionPass) (path : String) : Except String VolumeMode :=
  match (pass.oracle (.isDir path)).probe with
  | .ok true => .ok .filesystem
  | isdir =>
      match (pass.oracle (.isBlock path)).probe with
      | .ok true => .ok .block
      | isblk => .error (volumeModeError path isdir isblk)

/-- What a cleaner of a PV would work on. -/
def target (pass : DeletionPass) (pv : PersistentVolume) :
    Except String CleanerWork :=
  match pv.localSource with
  | none => .error "Unsupported volume type"
  | some source =>
      match pass.runtime.discoveryMap.lookup pv.storageClassName with
      | none =>
          .error ("Unknown storage class name " ++ pv.storageClassName)
      | some config =>
          match containerPath pv.name source.path config with
          | .error err => .error err
          | .ok mountPath =>
              match pass.mode? mountPath with
              | .error err =>
                  .error ("failed to get volume mode of path " ++
                    quoted mountPath ++ ": " ++ err)
              | .ok volMode => .ok { pv, volMode, mountPath, config }

/-- The answer of `InProgress`. -/
def busy (pass : DeletionPass) (pvName : String) (runjob : Bool) : Bool :=
  if runjob then
    isCleaningJobRunning
      (pass.world.listedJob (pass.oracle (.isCleaningJobRunning pvName))
        (generateCleaningJobName pvName))
  else
    pass.world.procTable.isRunning pvName

/-- The job that `RemoveJob` finds in its lister. -/
def listedJob (pass : DeletionPass) (pvName : String) : Except ApiError Job :=
  pass.world.listedJob
    (pass.oracle (.getJob (generateCleaningJobName pvName)))
    (generateCleaningJobName pvName)

/-- The deletion of a job. -/
def jobDeletion (pass : DeletionPass) (job : Job) :
    Except ApiError Unit × World :=
  pass.world.execDeleteJob
    (pass.oracle (.deleteJob job.name pass.runtime.namespaceName)) job.name

/-- The result of `RemoveJob`, and the world after it. -/
def removedJob (pass : DeletionPass) (pvName : String) :
    Except String (CleanupState × Option Nat) × World :=
  match pass.listedJob pvName with
  | .error .notFound => (.ok (.notFound, none), pass.world)
  | .error err =>
      (.error ("Failed to check whether job " ++
        generateCleaningJobName pvName ++ " has succeeded. Error - " ++
        err.text), pass.world)
  | .ok job =>
      if job.succeeded = 0 then
        (.error ("Error deleting Job " ++ quoted job.name ++
          ": Cannot remove job that has not succeeded"), pass.world)
      else
        match pass.jobDeletion job with
        | (.error err, later) =>
            (.error ("Error deleting Job " ++ quoted job.name ++
              ": " ++ err.text), later)
        | (.ok _, later) => (.ok (.succeeded, job.startTime), later)

/-- The result of `RemoveStatus`, and the world after it. -/
def removed (pass : DeletionPass) (pvName : String) (runjob : Bool) :
    Except String (CleanupState × Option Nat) × World :=
  if runjob then
    pass.removedJob pvName
  else
    ((pass.world.procTable.removeEntry pvName).1,
      { pass.world with
        procTable := (pass.world.procTable.removeEntry pvName).2 })

/-- Is a volume of this mode cleaned by a job? -/
def runjob (pass : DeletionPass) (work : CleanerWork) : Bool :=
  shouldRunJob pass.runtime work.volMode

/-- How a cleaning is started. -/
def startTurn (pass : DeletionPass) (work : CleanerWork) : Turn :=
  if work.volMode = .block ∧ work.config.blockCleanerCommand = [] then
    .refuses ("Blockcleaner command was empty for pv " ++
      quoted work.pv.name ++ " mountPath " ++ work.mountPath ++
      " but mount dir is " ++ work.config.mountDir)
  else if pass.runjob work then
    if pass.runtime.jobContainerImage = "" then
      .refuses ("cannot run cleanup job without specifying job image " ++
        "name in the environment variable")
    else
      match newCleanupJob work.pv work.volMode pass.runtime.jobContainerImage
          pass.runtime.jobTolerations pass.runtime.node.name
          pass.runtime.namespaceName work.mountPath work.config
          (pass.oracle .now).now with
      | .error err => .refuses err
      | .ok job => .submits job
  else
    .spawns work

/-- What is done once the status of a PV has been removed. -/
def statusTurn (pass : DeletionPass) (work : CleanerWork) :
    CleanupState → Turn
  | .succeeded => .deletes work.pv.name
  | .failed | .notFound => pass.startTurn work
  | state =>
      .refuses ("Unexpected state " ++ toString state.code ++ " for pv " ++
        work.pv.name)

/-- What the turn of a reclaimable PV comes to. -/
def turn (pass : DeletionPass) (pv : PersistentVolume) : Turn :=
  match pass.target pv with
  | .error err => .refuses err
  | .ok work =>
      if pass.busy pv.name (pass.runjob work) then
        .waits
      else
        match (pass.removed pv.name (pass.runjob work)).1 with
        | .error err => .refuses err
        | .ok (state, _) => pass.statusTurn work state

/-- The pass, with another world to start from. -/
def inWorld (pass : DeletionPass) (world : World) : DeletionPass :=
  { pass with world }

/-- The reply to what a turn orders, and the world after it. -/
def ordered (pass : DeletionPass) (world : World) :
    Turn → Except String Unit × World
  | .waits => (.ok (), world)
  | .deletes pvName =>
      match world.execDeletePV (pass.oracle (.deletePV pvName)) pvName with
      | (.ok _, later) => (.ok (), later)
      | (.error .notFound, later) => (.ok (), later)
      | (.error err, later) =>
          (.error ("Error deleting PV " ++ quoted pvName ++ ": " ++ err.text),
            later)
  | .spawns work =>
      world.execSpawnCleaner (pass.oracle (.spawnCleaner work)) work
  | .submits job =>
      match world.execCreateJob (pass.oracle (.createJob job)) job with
      | (.ok _, later) => (.ok (), later)
      | (.error err, later) => (.error err.text, later)
  | .refuses err => (.error err, world)

/-- The world in which a turn orders something. -/
def cleared (pass : DeletionPass) (pv : PersistentVolume) : World :=
  match pass.target pv with
  | .error _ => pass.world
  | .ok work =>
      if pass.busy pv.name (pass.runjob work) then
        pass.world
      else
        (pass.removed pv.name (pass.runjob work)).2

/-- The result of `deletePV`, and the world after it. -/
def deleted (pass : DeletionPass) (pv : PersistentVolume) :
    Except String Unit × World :=
  pass.ordered (pass.cleared pv) (pass.turn pv)

/-!
## The calls of a turn
-/

section Routines

variable {pass : DeletionPass}
variable {pv : PersistentVolume}

/-- The mode of a path is what the file system says. -/
theorem ends_getVolumeMode (current : World) (path : String) :
    (getVolumeMode path).Ends exec pass.oracle current
      fun calls found later =>
        orders calls = [] ∧ found = pass.mode? path ∧ later = current := by
  apply Program.Ends.call rfl
  unfold mode?
  cases isdir : (pass.oracle (.isDir path)).probe with
  | error errdir =>
      apply Program.Ends.call rfl
      cases isblk : (pass.oracle (.isBlock path)).probe with
      | error errblk => exact .done ⟨rfl, rfl, rfl⟩
      | ok answer =>
          cases answer with
          | true => exact .done ⟨rfl, rfl, rfl⟩
          | false => exact .done ⟨rfl, rfl, rfl⟩
  | ok answer =>
      cases answer with
      | true => exact .done ⟨rfl, rfl, rfl⟩
      | false =>
          apply Program.Ends.call rfl
          cases isblk : (pass.oracle (.isBlock path)).probe with
          | error errblk => exact .done ⟨rfl, rfl, rfl⟩
          | ok answer =>
              cases answer with
              | true => exact .done ⟨rfl, rfl, rfl⟩
              | false => exact .done ⟨rfl, rfl, rfl⟩

/-- `InProgress` asks the lister of jobs or the table. -/
theorem ends_inProgress (pvName : String) (runjob : Bool) :
    (inProgress pvName runjob).Ends exec pass.oracle pass.world
      fun calls busy later =>
        orders calls = [] ∧ busy = pass.busy pvName runjob ∧
          later = pass.world := by
  cases runjob with
  | true => exact .call rfl (.done ⟨rfl, rfl, rfl⟩)
  | false => exact .call rfl (.done ⟨rfl, rfl, rfl⟩)

/-- `RemoveJob` asks for the deletion of a listed job that has succeeded. -/
theorem ends_removeJob (pvName : String) :
    (removeJob pass.runtime pvName).Ends exec pass.oracle pass.world
      fun calls result later =>
        orders calls = [] ∧ (result, later) = pass.removedJob pvName := by
  have replied :
      exec (.getJob (generateCleaningJobName pvName))
        (pass.oracle (.getJob (generateCleaningJobName pvName))) pass.world =
        some (pass.listedJob pvName, pass.world) := rfl
  unfold removedJob
  cases listed : pass.listedJob pvName with
  | error err =>
      rw [listed] at replied
      apply Program.Ends.call replied
      cases err with
      | notFound => exact .done ⟨rfl, rfl⟩
      | alreadyExists => exact .done ⟨rfl, rfl⟩
      | other message => exact .done ⟨rfl, rfl⟩
  | ok job =>
      rw [listed] at replied
      apply Program.Ends.call replied
      change Program.Ends _ _ (removeListedJob pass.runtime job) _ _
      unfold removeListedJob
      by_cases unfinished : job.succeeded = 0
      · rw [if_pos unfinished]
        apply Program.Ends.done
        exact ⟨rfl, by simp [unfinished]⟩
      · rw [if_neg unfinished]
        have asked :
            exec (.deleteJob job.name pass.runtime.namespaceName)
              (pass.oracle (.deleteJob job.name pass.runtime.namespaceName))
              pass.world = some (pass.jobDeletion job) := rfl
        simp only [unfinished, if_false]
        generalize pass.jobDeletion job = made at asked
        obtain ⟨reply, later⟩ := made
        apply Program.Ends.call asked
        cases reply with
        | error err => exact .done ⟨rfl, rfl⟩
        | ok _ => exact .done ⟨rfl, rfl⟩

/-- `RemoveStatus` deletes a finished job or takes an entry out of the table. -/
theorem ends_removeStatus (pvName : String) (runjob : Bool) :
    (removeStatus pass.runtime pvName runjob).Ends exec pass.oracle pass.world
      fun calls result later =>
        orders calls = [] ∧ (result, later) = pass.removed pvName runjob := by
  cases runjob with
  | true => exact ends_removeJob pvName
  | false => exact .call rfl (.done ⟨rfl, rfl⟩)

/-- Metrics are no orders, and change only the reports. -/
theorem ends_reportDeleted
    (current : World)
    (volMode : VolumeMode)
    (config : MountConfig)
    (runjob : Bool)
    (startTime : Option Nat) :
    (reportDeleted pv volMode config runjob startTime).Ends exec pass.oracle
        current
      fun calls result later =>
        orders calls = [] ∧ result = .ok () ∧
          ∃ reports, later = current.reporting reports := by
  apply Program.Ends.call rfl
  cases startTime with
  | none => exact .done ⟨rfl, rfl, _, rfl⟩
  | some started => exact .call rfl (.done ⟨rfl, rfl, _, rfl⟩)

/-- A deletion is requested once, and is a success if the PV is gone. -/
theorem ends_deleteCleanedPV
    (current : World)
    (volMode : VolumeMode)
    (config : MountConfig)
    (runjob : Bool)
    (startTime : Option Nat) :
    (deleteCleanedPV pv volMode config runjob startTime).Ends exec pass.oracle
        current
      fun calls result later =>
        orders calls = [.deletePV pv.name] ∧
          result = (pass.ordered current (.deletes pv.name)).1 ∧
          ∃ reports,
            later =
              (pass.ordered current (.deletes pv.name)).2.reporting
                reports := by
  have replied :
      exec (.deletePV pv.name) (pass.oracle (.deletePV pv.name)) current =
        some (current.execDeletePV (pass.oracle (.deletePV pv.name))
          pv.name) := rfl
  simp only [ordered]
  generalize current.execDeletePV (pass.oracle (.deletePV pv.name)) pv.name =
    made at replied
  obtain ⟨reply, later⟩ := made
  apply Program.Ends.call replied
  have succeeds :
      (reportDeleted pv volMode config runjob startTime).Ends exec pass.oracle
          later
        fun calls result last =>
          orders (⟨.deletePV pv.name, reply⟩ :: calls) = [.deletePV pv.name] ∧
            result = .ok () ∧ ∃ reports, last = later.reporting reports := by
    obtain ⟨calls, result, last, traced, quiet, succeeded, reported⟩ :=
      @ends_reportDeleted pass pv later volMode config runjob startTime
    refine ⟨calls, result, last, traced, ?_, succeeded, reported⟩
    exact congrArg (List.cons (Op.deletePV pv.name)) quiet
  cases reply with
  | ok _ => exact succeeds
  | error err =>
      cases err with
      | notFound => exact succeeds
      | alreadyExists => exact .call rfl (.done ⟨rfl, rfl, _, rfl⟩)
      | other message => exact .call rfl (.done ⟨rfl, rfl, _, rfl⟩)

/-- A manifest is sent if there is one. -/
theorem ends_submitJob (current : World) (job : Job) :
    (submitJob (.ok job)).Ends exec pass.oracle current
      fun calls result later =>
        orders calls = [.createJob job] ∧
          (result, later) = pass.ordered current (.submits job) := by
  have replied :
      exec (.createJob job) (pass.oracle (.createJob job)) current =
        some (current.execCreateJob (pass.oracle (.createJob job)) job) := rfl
  simp only [ordered]
  generalize current.execCreateJob (pass.oracle (.createJob job)) job = made
    at replied
  obtain ⟨reply, later⟩ := made
  apply Program.Ends.call replied
  cases reply with
  | error err => exact .done ⟨rfl, rfl⟩
  | ok _ => exact .done ⟨rfl, rfl⟩

/-- A cleaning is started in one way, or not at all. -/
theorem ends_startCleaning (current : World) (work : CleanerWork) :
    (startCleaning pass.runtime work.pv work.volMode work.mountPath
        work.config (pass.runjob work)).Ends exec pass.oracle current
      fun calls result later =>
        orders calls = (pass.startTurn work).order?.toList ∧
          (result, later) = pass.ordered current (pass.startTurn work) := by
  unfold startCleaning startTurn
  by_cases commandless :
      work.volMode = .block ∧ work.config.blockCleanerCommand = []
  · rw [if_pos commandless, if_pos commandless]
    exact .done ⟨rfl, rfl⟩
  · rw [if_neg commandless, if_neg commandless]
    cases byJob : pass.runjob work with
    | false =>
        rw [if_neg Bool.false_ne_true, if_neg Bool.false_ne_true]
        exact .call rfl (.done ⟨rfl, rfl⟩)
    | true =>
        rw [if_pos rfl, if_pos rfl]
        unfold runJob
        by_cases unset : pass.runtime.jobContainerImage = ""
        · rw [if_pos unset, if_pos unset]
          exact .done ⟨rfl, rfl⟩
        · rw [if_neg unset, if_neg unset]
          apply Program.Ends.call rfl
          change Program.Ends _ _ (submitJob _) _ _
          cases newCleanupJob work.pv work.volMode
              pass.runtime.jobContainerImage pass.runtime.jobTolerations
              pass.runtime.node.name pass.runtime.namespaceName
              work.mountPath work.config (pass.oracle .now).now with
          | error err => exact .done ⟨rfl, rfl⟩
          | ok job => exact ends_submitJob current job

/-- The world with reports that it already has. -/
theorem exists_reporting (world : World) :
    ∃ reports, world = world.reporting reports :=
  ⟨world.reports, rfl⟩

/-- The status of a PV is removed, and then something is ordered or not. -/
theorem ends_cleanOrDelete
    {work : CleanerWork}
    (targeted : pass.target work.pv = .ok work) :
    (cleanOrDelete pass.runtime work.pv work.volMode work.mountPath
        work.config).Ends exec pass.oracle pass.world
      fun calls result later =>
        orders calls = (pass.turn work.pv).order?.toList ∧
          result = (pass.deleted work.pv).1 ∧
          ∃ reports,
            later = (pass.deleted work.pv).2.reporting reports := by
  unfold cleanOrDelete
  apply Program.Ends.bind (ends_inProgress work.pv.name (pass.runjob work))
  rintro asked busy later ⟨askedOnly, rfl, rfl⟩
  simp only [orders_append, askedOnly, List.nil_append]
  unfold deleted turn cleared
  simp only [targeted]
  cases isBusy : pass.busy work.pv.name (pass.runjob work) with
  | true => exact .done ⟨rfl, rfl, exists_reporting pass.world⟩
  | false =>
      apply Program.Ends.bind
        (ends_removeStatus work.pv.name (pass.runjob work))
      rintro taken result cleared ⟨takenOnly, made⟩
      simp only [orders_append, takenOnly, List.nil_append, ← made,
        Bool.false_eq_true, if_false]
      cases result with
      | error err => exact .done ⟨rfl, rfl, exists_reporting cleared⟩
      | ok status =>
          obtain ⟨state, startTime⟩ := status
          have starts :
              (startCleaning pass.runtime work.pv work.volMode work.mountPath
                  work.config (pass.runjob work)).Ends exec pass.oracle
                  cleared
                fun calls result later =>
                  orders calls = (pass.startTurn work).order?.toList ∧
                    result =
                      (pass.ordered cleared (pass.startTurn work)).1 ∧
                    ∃ reports,
                      later =
                        (pass.ordered cleared
                          (pass.startTurn work)).2.reporting reports := by
            obtain ⟨calls, result, later, traced, ordered, same⟩ :=
              ends_startCleaning cleared work
            rw [← same]
            exact ⟨calls, result, later, traced, ordered, rfl,
              exists_reporting later⟩
          cases state with
          | succeeded =>
              exact ends_deleteCleanedPV cleared work.volMode work.config
                (pass.runjob work) startTime
          | failed => exact starts
          | notFound => exact starts
          | unknown => exact .done ⟨rfl, rfl, exists_reporting cleared⟩
          | running => exact .done ⟨rfl, rfl, exists_reporting cleared⟩

/-- `deletePV` does what the turn says. -/
theorem ends_deletePV (pv : PersistentVolume) :
    (deletePV pass.runtime pv).Ends exec pass.oracle pass.world
      fun calls result later =>
        orders calls = (pass.turn pv).order?.toList ∧
          result = (pass.deleted pv).1 ∧
          ∃ reports, later = (pass.deleted pv).2.reporting reports := by
  have refused :
      ∀ err,
        pass.target pv = .error err →
        (Pure.pure (Except.error err) : Routine (Except String Unit)).Ends exec
            pass.oracle pass.world
          fun calls result later =>
            orders calls = (pass.turn pv).order?.toList ∧
              result = (pass.deleted pv).1 ∧
              ∃ reports, later = (pass.deleted pv).2.reporting reports := by
    intro err untargeted
    unfold deleted turn cleared
    simp only [untargeted]
    exact .done ⟨rfl, rfl, exists_reporting pass.world⟩
  unfold LocalProvisioner.deletePV
  cases isLocal : pv.localSource with
  | none =>
      rw [if_pos rfl]
      apply refused
      simp [target, isLocal]
  | some source =>
      rw [if_neg (by simp)]
      cases configured :
          pass.runtime.discoveryMap.lookup pv.storageClassName with
      | none =>
          apply refused
          simp [target, isLocal, configured]
      | some config =>
          simp only [getContainerPath, isLocal]
          cases inside : containerPath pv.name source.path config with
          | error err =>
              apply refused
              simp [target, isLocal, configured, inside]
          | ok mountPath =>
              change Program.Ends _ _
                ((getVolMode pass.runtime pv).bind _) _ _
              have probes :
                  getVolMode pass.runtime pv = getVolumeMode mountPath := by
                simp only [getVolMode, configured, getContainerPath, isLocal,
                  inside]
                rfl
              rw [probes]
              apply Program.Ends.bind
                (@ends_getVolumeMode pass pass.world mountPath)
              rintro probed found later ⟨probedOnly, rfl, rfl⟩
              simp only [orders_append, probedOnly, List.nil_append]
              cases determined : pass.mode? mountPath with
              | error err =>
                  apply refused
                  simp [target, isLocal, configured, inside, determined]
              | ok volMode =>
                  have targeted :
                      pass.target pv =
                        .ok { pv, volMode, mountPath, config } := by
                    simp [target, isLocal, configured, inside, determined]
                  exact @ends_cleanOrDelete pass
                    { pv, volMode, mountPath, config } targeted

/-- The volume mode is asked for without orders, unless that is a crash. -/
theorem ends_getVolMode
    (safe :
      pv.localSource = none →
      pass.runtime.discoveryMap.lookup pv.storageClassName = none)
    (current : World) :
    (getVolMode pass.runtime pv).Ends exec pass.oracle current
      fun calls _ later => orders calls = [] ∧ later = current := by
  unfold getVolMode getContainerPath
  cases configured :
      pass.runtime.discoveryMap.lookup pv.storageClassName with
  | none => exact .done ⟨rfl, rfl⟩
  | some config =>
      cases isLocal : pv.localSource with
      | none =>
          rw [safe isLocal] at configured
          cases configured
      | some source =>
          simp only []
          cases inside : containerPath pv.name source.path config with
          | error err => exact .done ⟨rfl, rfl⟩
          | ok mountPath =>
              obtain ⟨calls, found, later, traced, quiet, _, same⟩ :=
                @ends_getVolumeMode pass current mountPath
              exact ⟨calls, found, later, traced, quiet, same⟩

/-- Does a call report that a PV could not be deleted? -/
def reportsFailure (pvName : String) (answered : Answered syncSignature) :
    Prop :=
  ∃ message,
    answered.op = .report (.event pvName "VolumeFailedDelete" message)

/-- A failure is reported, and nothing is ordered. -/
theorem ends_reportFailedDelete
    (safe :
      pv.localSource = none →
      pass.runtime.discoveryMap.lookup pv.storageClassName = none)
    (current : World)
    (err : String) :
    (reportFailedDelete pass.runtime pv err).Ends exec pass.oracle current
      fun calls _ later =>
        orders calls = [] ∧
          (∃ answered ∈ calls, reportsFailure pv.name answered) ∧
          ∃ reports, later = current.reporting reports := by
  unfold reportFailedDelete
  apply Program.Ends.bind (ends_getVolMode safe current)
  rintro probed found later ⟨probedOnly, rfl⟩
  simp only [orders_append, probedOnly, List.nil_append]
  have last :
      ∀ first second : Answered syncSignature,
        second ∈ probed ++ [first, second] := by
    simp
  cases found with
  | error _ =>
      exact .call rfl (.call rfl (.done
        ⟨rfl, ⟨_, last _ _, _, rfl⟩, _, rfl⟩))
  | ok mode =>
      exact .call rfl (.call rfl (.done
        ⟨rfl, ⟨_, last _ _, _, rfl⟩, _, rfl⟩))

/-- What the turn of a PV orders, if it is reclaimable. -/
def orderFor (pass : DeletionPass) (pv : PersistentVolume) : Option Op :=
  if Reclaimable pv then (pass.turn pv).order? else none

/-- The world after the turn of a PV, up to reports. -/
def after (pass : DeletionPass) (pv : PersistentVolume) : World :=
  if Reclaimable pv then (pass.deleted pv).2 else pass.world

/-- What the turn of a PV has done by its end. -/
structure Done
    (pass : DeletionPass)
    (pv : PersistentVolume)
    (calls : List (Answered syncSignature))
    (later : World) : Prop where
  ordered : orders calls = (pass.orderFor pv).toList
  reported :
    Reclaimable pv →
    (pass.deleted pv).1.isOk = false →
    ∃ answered ∈ calls, reportsFailure pv.name answered
  world : ∃ reports, later = (pass.after pv).reporting reports

/-- The turn of a PV that is not reclaimable. -/
theorem Done.of_not_reclaimable
    {calls : List (Answered syncSignature)}
    (kept : ¬ Reclaimable pv)
    (quiet : orders calls = [])
    (reports : List Report) :
    pass.Done pv calls (pass.world.reporting reports) where
  ordered := by simp [orderFor, kept, quiet]
  reported := fun reclaimable => (kept reclaimable).elim
  world := ⟨reports, by simp [after, kept]⟩

/-- The turn of a PV does what the turn says, unless it crashes. -/
theorem ends_reclaimPV (safe : ¬ Dereferenced pass.runtime pv) :
    (reclaimPV pass.runtime pv).Ends exec pass.oracle pass.world
      fun calls _ => pass.Done pv calls := by
  unfold reclaimPV
  by_cases released : pv.phase = .released
  · rw [if_neg (not_not.mpr released)]
    by_cases unmarked : pv.deletionTimestamp = none
    · rw [if_neg (not_not.mpr unmarked)]
      cases policy : pv.reclaimPolicy with
      | retain =>
          exact .done (.of_not_reclaimable (by simp [Reclaimable, policy]) rfl
            pass.world.reports)
      | recycle =>
          exact .call rfl (.done
            (.of_not_reclaimable (by simp [Reclaimable, policy]) rfl _))
      | other text =>
          exact .call rfl (.done
            (.of_not_reclaimable (by simp [Reclaimable, policy]) rfl _))
      | delete =>
          have reclaimable : Reclaimable pv := ⟨released, unmarked, policy⟩
          have known :
              pv.localSource = none →
              pass.runtime.discoveryMap.lookup pv.storageClassName = none := by
            intro noSource
            rw [← Option.not_isSome_iff_eq_none]
            intro isKnown
            exact safe ⟨reclaimable, noSource, isKnown⟩
          apply Program.Ends.bind (ends_deletePV pv)
          rintro calls result later ⟨ordered, rfl, reports, rfl⟩
          cases outcome : (pass.deleted pv).1 with
          | ok _ =>
              apply Program.Ends.done
              rw [List.append_nil]
              exact {
                ordered := by rw [ordered, orderFor, if_pos reclaimable]
                reported := by
                  intro _ failed
                  rw [outcome] at failed
                  cases failed
                world := ⟨reports, by rw [after, if_pos reclaimable]⟩
              }
          | error err =>
              obtain ⟨more, ⟨⟩, last, traced, quiet, told, moreReports, rfl⟩ :=
                @ends_reportFailedDelete pass pv known
                  ((pass.deleted pv).2.reporting reports) err
              refine ⟨more, (), _, traced, ?_⟩
              exact {
                ordered := by
                  rw [orders_append, ordered, quiet, List.append_nil,
                    orderFor, if_pos reclaimable]
                reported := by
                  intro _ _
                  obtain ⟨answered, member, isReport⟩ := told
                  exact ⟨answered, List.mem_append_right _ member, isReport⟩
                world := ⟨moreReports, by rw [after, if_pos reclaimable]; rfl⟩
              }
    · rw [if_pos unmarked]
      exact .done (.of_not_reclaimable (by simp [Reclaimable, unmarked]) rfl
        pass.world.reports)
  · rw [if_pos released]
    exact .done (.of_not_reclaimable (by simp [Reclaimable, released]) rfl
      pass.world.reports)

end Routines

/-!
## The turns of a pass
-/

section Passes

variable {pass : DeletionPass}
variable {pv : PersistentVolume}
variable {current : World}

/-- `InProgress` answers alike in worlds that look the same to a PV. -/
theorem busy_inWorld
    (same : World.SameView pv.name current pass.world)
    (runjob : Bool) :
    (pass.inWorld current).busy pv.name runjob = pass.busy pv.name runjob := by
  cases runjob with
  | true => exact congrArg isCleaningJobRunning (same.listedJob_eq _)
  | false =>
      change current.procTable.isRunning pv.name =
        pass.world.procTable.isRunning pv.name
      simp [ProcTable.isRunning, same.entry]

/-- So does `RemoveStatus`. -/
theorem removed_inWorld
    (same : World.SameView pv.name current pass.world)
    (runjob : Bool) :
    ((pass.inWorld current).removed pv.name runjob).1 =
        (pass.removed pv.name runjob).1 ∧
      World.SameView pv.name ((pass.inWorld current).removed pv.name runjob).2
        (pass.removed pv.name runjob).2 := by
  cases runjob with
  | false =>
      obtain ⟨sameReply, sameEntry⟩ :=
        ProcTable.removeEntry_of_lookup_eq same.entry
      exact ⟨sameReply, sameEntry, same.listedJob, same.job, same.stored⟩
  | true =>
      have sameJob :
          (pass.inWorld current).listedJob pv.name = pass.listedJob pv.name :=
        same.listedJob_eq _
      change ((pass.inWorld current).removedJob pv.name).1 =
          (pass.removedJob pv.name).1 ∧
        World.SameView pv.name ((pass.inWorld current).removedJob pv.name).2
          (pass.removedJob pv.name).2
      unfold removedJob
      rw [sameJob]
      cases listed : pass.listedJob pv.name with
      | error err => cases err <;> exact ⟨rfl, same⟩
      | ok job =>
          by_cases unfinished : job.succeeded = 0
          · simp only [unfinished, if_true, true_and]
            exact same
          · simp only [unfinished, if_false]
            have named : job.name = generateCleaningJobName pv.name :=
              ObjectStore.name_of_get (World.get_of_listedJob listed)
            have alike :
                ((pass.inWorld current).jobDeletion job).1 =
                    (pass.jobDeletion job).1 ∧
                  World.SameView pv.name
                    ((pass.inWorld current).jobDeletion job).2
                    (pass.jobDeletion job).2 := by
              unfold jobDeletion
              rw [named]
              exact same.execDeleteJob _
            generalize (pass.inWorld current).jobDeletion job = first at alike
            generalize pass.jobDeletion job = second at alike
            obtain ⟨firstReply, firstLater⟩ := first
            obtain ⟨secondReply, secondLater⟩ := second
            obtain ⟨rfl, sameLater⟩ := alike
            cases firstReply <;> exact ⟨rfl, sameLater⟩

/-- What a turn comes to is decided by what its PV sees of the world. -/
theorem turn_inWorld (same : World.SameView pv.name current pass.world) :
    (pass.inWorld current).turn pv = pass.turn pv := by
  unfold turn
  have sameTarget : (pass.inWorld current).target pv = pass.target pv := rfl
  rw [sameTarget]
  cases pass.target pv with
  | error err => rfl
  | ok work =>
      have sameWay : (pass.inWorld current).runjob work = pass.runjob work := rfl
      simp only [sameWay, busy_inWorld same, (removed_inWorld same _).1]
      rfl

/-- The worlds of the turns of some PVs, up to reports. -/
inductive Turned (pass : DeletionPass) :
    List PersistentVolume → World → World → Prop where
  | done (world : World) : Turned pass [] world world
  | turn
      {pv : PersistentVolume}
      {rest : List PersistentVolume}
      {world later : World}
      (reports : List Report) :
      Turned pass rest (((pass.inWorld world).after pv).reporting reports)
        later →
      Turned pass (pv :: rest) world later

/-- What the turns of some PVs have done by their end. -/
structure Completed
    (pass : DeletionPass)
    (listed : List PersistentVolume)
    (before : World)
    (calls : List (Answered syncSignature))
    (later : World) : Prop where
  ordered : orders calls = listed.filterMap pass.orderFor
  reported :
    ∀ pv ∈ listed,
      Reclaimable pv →
      ∀ err,
        pass.turn pv = .refuses err →
        ∃ answered ∈ calls, reportsFailure pv.name answered
  turned : pass.Turned listed before later

/-- The surroundings list the cache in the order that they list it. -/
theorem ordered_self (oracle : Op → Answers) :
    LocalProvisioner.ordered oracle (oracle .listPVs).order = oracle := by
  funext op
  cases op <;> rfl

/-- A turn that is refused fails. -/
theorem deleted_of_refuses
    {err : String}
    (refused : pass.turn pv = .refuses err) :
    (pass.deleted pv).1 = .error err := by
  simp [deleted, refused, DeletionPass.ordered]

/-- The turns of PVs with different names. -/
theorem ends_turns
    {listed : List PersistentVolume}
    (safe : ∀ pv ∈ listed, ¬ Dereferenced pass.runtime pv)
    (different : (listed.map PersistentVolume.name).Nodup)
    (same : ∀ pv ∈ listed, World.SameView pv.name current pass.world) :
    (Program.forEach (reclaimPV pass.runtime) listed).Ends exec pass.oracle
        current
      fun calls _ => pass.Completed listed current calls := by
  induction listed generalizing current with
  | nil => exact .done ⟨rfl, by simp, .done current⟩
  | cons pv rest inductionHypothesis =>
      rw [List.map_cons, List.nodup_cons] at different
      have safeHere := safe pv List.mem_cons_self
      have sameHere := same pv List.mem_cons_self
      obtain ⟨calls, ⟨⟩, between, traced, done⟩ :=
        @ends_reclaimPV (pass.inWorld current) pv safeHere
      have untouched :
          ∀ other, other ≠ pv.name →
            World.SameView other between current := by
        obtain ⟨after, tracedAlone, untouched⟩ :=
          @trace_reclaimPV pass.world pass.runtime pass.oracle
            (pass.oracle .listPVs).order pv current safeHere sameHere
        rw [ordered_self] at tracedAlone
        have isSame := tracedAlone.symm.trans traced
        cases isSame
        exact untouched
      have sameAfter :
          ∀ other ∈ rest, World.SameView other.name between pass.world := by
        intro other member
        have apart : other.name ≠ pv.name := by
          intro sameName
          rw [← sameName] at different
          exact different.1 (List.mem_map_of_mem member)
        exact (untouched other.name apart).trans
          (same other (List.mem_cons_of_mem _ member))
      obtain ⟨more, ⟨⟩, later, tracedRest, completed⟩ :=
        inductionHypothesis
          (fun other member => safe other (List.mem_cons_of_mem _ member))
          different.2 sameAfter
      have sameOrder : (pass.inWorld current).orderFor pv = pass.orderFor pv := by
        simp only [orderFor, turn_inWorld sameHere]
      refine ⟨calls ++ more, (), later, ?_, ?_, ?_, ?_⟩
      · rw [Program.forEach, Program.trace_bind]
        simp only [inWorld] at traced
        rw [traced]
        simp only [tracedRest]
      · rw [orders_append, done.ordered, completed.ordered, sameOrder,
          List.filterMap_cons]
        cases pass.orderFor pv <;> rfl
      · intro other member reclaimable err refused
        rcases List.mem_cons.mp member with rfl | later
        · have failed :
              ((pass.inWorld current).deleted other).1.isOk = false := by
            rw [deleted_of_refuses ((turn_inWorld sameHere).trans refused)]
            rfl
          obtain ⟨answered, inCalls, isReport⟩ :=
            done.reported reclaimable failed
          exact ⟨answered, List.mem_append_left _ inCalls, isReport⟩
        · obtain ⟨answered, inCalls, isReport⟩ :=
            completed.reported other later reclaimable err refused
          exact ⟨answered, List.mem_append_right _ inCalls, isReport⟩
      · obtain ⟨reports, rfl⟩ := done.world
        exact .turn reports completed.turned

/-- A deletion pass lists the cache and takes each PV in turn. -/
theorem ends_deletePVs
    {listed : List PersistentVolume}
    (inOrder :
      permuted (pass.oracle .listPVs).order
        (VolumeCache.listPVs pass.world.cache) = some listed)
    (safe :
      ∀ pv ∈ VolumeCache.listPVs pass.world.cache,
        ¬ Dereferenced pass.runtime pv) :
    (deletePVs pass.runtime).Ends exec pass.oracle pass.world
      fun calls _ =>
        pass.Completed listed (pass.world.record (.listedPVs listed))
          calls := by
  have isPermutation := perm_of_permuted inOrder
  have different : (listed.map PersistentVolume.name).Nodup :=
    (isPermutation.map PersistentVolume.name).nodup_iff.mpr
      (ObjectStore.nodup_names pass.world.cache)
  have replied :
      exec .listPVs (pass.oracle .listPVs) pass.world =
        some (listed, pass.world.record (.listedPVs listed)) := by
    simp only [exec, inOrder]
    rfl
  obtain ⟨calls, ⟨⟩, later, traced, completed⟩ :=
    @ends_turns pass (pass.world.record (.listedPVs listed)) listed
      (fun pv member => safe pv (isPermutation.mem_iff.mp member)) different
      (fun _ _ => ⟨rfl, rfl, rfl, rfl⟩)
  apply Program.Ends.call replied
  refine ⟨calls, (), later, traced, completed.ordered, ?_, completed.turned⟩
  intro pv member reclaimable err refused
  obtain ⟨answered, inCalls, isReport⟩ :=
    completed.reported pv member reclaimable err refused
  exact ⟨answered, List.mem_cons_of_mem _ inCalls, isReport⟩

/-!
## What is ordered
-/

/-- The last cleaning of a PV has ended in success. -/
def Cleaned (pass : DeletionPass) (work : CleanerWork) : Prop :=
  if pass.runjob work then
    pass.busy work.pv.name true = false ∧
      ∃ job,
        pass.listedJob work.pv.name = .ok job ∧
          job.succeeded ≠ 0 ∧
          (pass.jobDeletion job).1 = .ok ()
  else
    pass.world.procTable.status? work.pv.name = some .succeeded

/-- No cleaning of a PV is in progress or has ended in success. -/
def Uncleaned (pass : DeletionPass) (work : CleanerWork) : Prop :=
  if pass.runjob work then
    pass.busy work.pv.name true = false ∧
      pass.listedJob work.pv.name = .error .notFound
  else
    pass.world.procTable.status? work.pv.name ∈
      [none, some .failed, some .notFound]

/-- There is a command to clean the volume with. -/
def Cleanable (work : CleanerWork) : Prop :=
  work.volMode = .block → work.config.blockCleanerCommand ≠ []

/-- The manifest of the job that cleans the volume, if there can be one. -/
def manifest (pass : DeletionPass) (work : CleanerWork) : Except String Job :=
  newCleanupJob work.pv work.volMode pass.runtime.jobContainerImage
    pass.runtime.jobTolerations pass.runtime.node.name
    pass.runtime.namespaceName work.mountPath work.config
    (pass.oracle .now).now

/-- What a pass orders for a PV. -/
inductive Orders (pass : DeletionPass) (pv : PersistentVolume) : Op → Prop where
  | deletion {work : CleanerWork} :
      pass.target pv = .ok work →
      pass.Cleaned work →
      Orders pass pv (.deletePV pv.name)
  | cleaner {work : CleanerWork} :
      pass.target pv = .ok work →
      pass.Uncleaned work →
      Cleanable work →
      pass.runjob work = false →
      Orders pass pv (.spawnCleaner work)
  | job {work : CleanerWork} {job : Job} :
      pass.target pv = .ok work →
      pass.Uncleaned work →
      Cleanable work →
      pass.runjob work = true →
      pass.runtime.jobContainerImage ≠ "" →
      pass.manifest work = .ok job →
      Orders pass pv (.createJob job)

/-- A cleaner works on the PV that it is started for. -/
theorem pv_of_target
    {work : CleanerWork}
    (targeted : pass.target pv = .ok work) :
    work.pv = pv := by
  unfold target at targeted
  repeat' split at targeted
  all_goals first | cases targeted; rfl | cases targeted

/-- What `RemoveJob` can return with success. -/
theorem removedJob_ok_iff
    {pvName : String}
    {state : CleanupState} :
    (∃ startTime, (pass.removedJob pvName).1 = .ok (state, startTime)) ↔
      state = .notFound ∧ pass.listedJob pvName = .error .notFound ∨
        state = .succeeded ∧
          ∃ job,
            pass.listedJob pvName = .ok job ∧
              job.succeeded ≠ 0 ∧
              (pass.jobDeletion job).1 = .ok () := by
  unfold removedJob
  cases listed : pass.listedJob pvName with
  | error err =>
      cases err with
      | notFound => cases state <;> simp
      | alreadyExists => simp
      | other message => simp
  | ok job =>
      by_cases unfinished : job.succeeded = 0
      · simp [unfinished]
      · cases reply : pass.jobDeletion job with
        | mk outcome later =>
            cases outcome with
            | error err => simp [unfinished, reply]
            | ok _ => cases state <;> simp [unfinished, reply]

/-- What `RemoveEntry` returns for a PV that is not being cleaned. -/
theorem removedEntry_ok_iff
    {pvName : String}
    {state : CleanupState} :
    (pass.world.procTable.isRunning pvName = false ∧
        ∃ startTime,
          (pass.world.procTable.removeEntry pvName).1 =
            .ok (state, startTime)) ↔
      state = .notFound ∧ pass.world.procTable.status? pvName = none ∨
        pass.world.procTable.status? pvName = some state ∧
          state ≠ .running ∧ state ≠ .unknown := by
  unfold ProcTable.isRunning ProcTable.removeEntry ProcTable.status?
  cases pass.world.procTable.procTable.lookup pvName with
  | none => cases state <;> simp
  | some entry =>
      obtain ⟨startTime, status⟩ := entry
      cases status <;> cases state <;> simp

/-- The state that the tracker returns for a PV that is not being cleaned. -/
def Finds (pass : DeletionPass) (work : CleanerWork) (state : CleanupState) :
    Prop :=
  pass.busy work.pv.name (pass.runjob work) = false ∧
    ∃ startTime,
      (pass.removed work.pv.name (pass.runjob work)).1 = .ok (state, startTime)

theorem cleaned_iff_finds (pass : DeletionPass) (work : CleanerWork) :
    pass.Cleaned work ↔ pass.Finds work .succeeded := by
  unfold Cleaned Finds
  cases pass.runjob work with
  | true =>
      change _ ↔ _ ∧ ∃ startTime,
        (pass.removedJob work.pv.name).1 = .ok (.succeeded, startTime)
      rw [removedJob_ok_iff]
      simp
  | false =>
      change _ ↔ pass.world.procTable.isRunning work.pv.name = false ∧
        ∃ startTime,
          (pass.world.procTable.removeEntry work.pv.name).1 =
            .ok (.succeeded, startTime)
      rw [removedEntry_ok_iff]
      simp

theorem uncleaned_iff_finds (pass : DeletionPass) (work : CleanerWork) :
    pass.Uncleaned work ↔
      pass.Finds work .failed ∨ pass.Finds work .notFound := by
  unfold Uncleaned Finds
  cases pass.runjob work with
  | true =>
      change _ ↔
        (_ ∧ ∃ startTime,
          (pass.removedJob work.pv.name).1 = .ok (.failed, startTime)) ∨
        (_ ∧ ∃ startTime,
          (pass.removedJob work.pv.name).1 = .ok (.notFound, startTime))
      rw [removedJob_ok_iff, removedJob_ok_iff]
      simp
  | false =>
      change _ ↔
        (pass.world.procTable.isRunning work.pv.name = false ∧
          ∃ startTime,
            (pass.world.procTable.removeEntry work.pv.name).1 =
              .ok (.failed, startTime)) ∨
        (pass.world.procTable.isRunning work.pv.name = false ∧
          ∃ startTime,
            (pass.world.procTable.removeEntry work.pv.name).1 =
              .ok (.notFound, startTime))
      rw [removedEntry_ok_iff, removedEntry_ok_iff]
      simp only [Bool.false_eq_true, if_false, List.mem_cons,
        List.not_mem_nil, or_false, reduceCtorEq, false_and, false_or, ne_eq,
        not_false_eq_true, and_true, true_and]
      tauto

/-- How a cleaning is started. -/
theorem startTurn_order?_eq_some_iff
    {work : CleanerWork}
    {op : Op} :
    (pass.startTurn work).order? = some op ↔
      Cleanable work ∧
        (pass.runjob work = false ∧ op = .spawnCleaner work ∨
          pass.runjob work = true ∧
            pass.runtime.jobContainerImage ≠ "" ∧
            ∃ job, pass.manifest work = .ok job ∧ op = .createJob job) := by
  unfold startTurn Cleanable manifest
  by_cases commandless :
      work.volMode = .block ∧ work.config.blockCleanerCommand = []
  · rw [if_pos commandless]
    simp [Turn.order?, commandless.1, commandless.2]
  · have cleanable :
        work.volMode = .block → work.config.blockCleanerCommand ≠ [] :=
      fun isBlock empty => commandless ⟨isBlock, empty⟩
    rw [if_neg commandless]
    cases byJob : pass.runjob work with
    | false =>
        simp only [Bool.false_eq_true, if_false]
        constructor
        · rintro ⟨⟩
          exact ⟨cleanable, .inl ⟨trivial, rfl⟩⟩
        · rintro ⟨_, ⟨_, rfl⟩ | ⟨⟨⟩, _⟩⟩
          rfl
    | true =>
        by_cases unset : pass.runtime.jobContainerImage = ""
        · simp [Turn.order?, unset]
        · cases newCleanupJob work.pv work.volMode
              pass.runtime.jobContainerImage pass.runtime.jobTolerations
              pass.runtime.node.name pass.runtime.namespaceName
              work.mountPath work.config (pass.oracle .now).now with
          | error err => simp [Turn.order?, unset]
          | ok job =>
              simp only [unset, if_true, if_false]
              constructor
              · rintro ⟨⟩
                exact ⟨cleanable, .inr ⟨trivial, unset, job, rfl, rfl⟩⟩
              · rintro ⟨_, ⟨⟨⟩, _⟩ | ⟨_, _, _, ⟨⟩, rfl⟩⟩
                rfl

/-- What a turn comes to once the tracker has been asked. -/
theorem turn_of_finds
    {work : CleanerWork}
    {state : CleanupState}
    (targeted : pass.target work.pv = .ok work)
    (finds : pass.Finds work state) :
    pass.turn work.pv = pass.statusTurn work state := by
  obtain ⟨idle, startTime, found⟩ := finds
  unfold turn
  rw [targeted]
  simp only [idle, found, Bool.false_eq_true, if_false]

/-- A turn that orders something has asked the tracker. -/
theorem finds_of_order
    {op : Op}
    (ordered : (pass.turn pv).order? = some op) :
    ∃ work state,
      pass.target pv = .ok work ∧
        pass.Finds work state ∧
        (pass.statusTurn work state).order? = some op := by
  unfold turn at ordered
  cases targeted : pass.target pv with
  | error err => simp [targeted, Turn.order?] at ordered
  | ok work =>
      have named : work.pv = pv := pv_of_target targeted
      cases busy : pass.busy pv.name (pass.runjob work) with
      | true => simp [targeted, busy, Turn.order?] at ordered
      | false =>
          cases status : (pass.removed pv.name (pass.runjob work)).1 with
          | error err => simp [targeted, busy, status, Turn.order?] at ordered
          | ok found =>
              simp only [targeted, busy, status, Bool.false_eq_true,
                if_false] at ordered
              refine ⟨work, found.1, rfl, ?_, ordered⟩
              rw [← named] at busy status
              exact ⟨busy, found.2, status⟩

/-- The turn of a PV orders what its state calls for. -/
theorem order?_turn_eq_some_iff {op : Op} :
    (pass.turn pv).order? = some op ↔ pass.Orders pv op := by
  constructor
  · intro ordered
    obtain ⟨work, state, targeted, finds, ordered⟩ := finds_of_order ordered
    have named : work.pv = pv := pv_of_target targeted
    have starts :
        (pass.startTurn work).order? = some op →
        pass.Uncleaned work →
        pass.Orders pv op := by
      intro ordered uncleaned
      obtain ⟨cleanable, way⟩ := startTurn_order?_eq_some_iff.mp ordered
      rcases way with ⟨inProcess, rfl⟩ | ⟨byJob, image, job, made, rfl⟩
      · exact .cleaner targeted uncleaned cleanable inProcess
      · exact .job targeted uncleaned cleanable byJob image made
    cases state with
    | succeeded =>
        obtain rfl : Op.deletePV work.pv.name = op := by
          simpa [statusTurn, Turn.order?] using ordered
        rw [named]
        exact .deletion targeted ((pass.cleaned_iff_finds work).mpr finds)
    | failed =>
        exact starts ordered ((pass.uncleaned_iff_finds work).mpr (.inl finds))
    | notFound =>
        exact starts ordered ((pass.uncleaned_iff_finds work).mpr (.inr finds))
    | unknown => simp [statusTurn, Turn.order?] at ordered
    | running => simp [statusTurn, Turn.order?] at ordered
  · have starts :
        ∀ {work : CleanerWork},
          pass.target pv = .ok work →
          pass.Uncleaned work →
          pass.turn pv = pass.startTurn work := by
      intro work targeted uncleaned
      obtain rfl : work.pv = pv := pv_of_target targeted
      rcases (pass.uncleaned_iff_finds work).mp uncleaned with finds | finds
      · exact turn_of_finds targeted finds
      · exact turn_of_finds targeted finds
    rintro (⟨targeted, cleaned⟩ | ⟨targeted, uncleaned, cleanable, inProcess⟩ |
      ⟨targeted, uncleaned, cleanable, byJob, image, made⟩)
    · obtain rfl := pv_of_target targeted
      rw [turn_of_finds targeted ((pass.cleaned_iff_finds _).mp cleaned)]
      rfl
    · rw [starts targeted uncleaned, startTurn_order?_eq_some_iff]
      exact ⟨cleanable, .inl ⟨inProcess, rfl⟩⟩
    · rw [starts targeted uncleaned, startTurn_order?_eq_some_iff]
      exact ⟨cleanable, .inr ⟨byJob, image, _, made, rfl⟩⟩

end Passes

end DeletionPass

namespace DeletionPass

section Exactness

variable {pass : DeletionPass}

/-- A turn without an order waits or is refused. -/
theorem Turn.cases_of_order?
    {turn : Turn}
    (unordered : turn.order? = none) :
    turn = .waits ∨ ∃ err, turn = .refuses err := by
  cases turn with
  | waits => exact .inl rfl
  | refuses err => exact .inr ⟨err, rfl⟩
  | deletes pvName => cases unordered
  | spawns work => cases unordered
  | submits job => cases unordered

/-- What is ordered for a PV is about this PV alone. -/
theorem Orders.about_iff
    {pv : PersistentVolume}
    {op : Op}
    (ordered : pass.Orders pv op)
    (other : String) :
    op.About other ↔ other = pv.name := by
  cases ordered with
  | deletion _ _ => exact eq_comm
  | cleaner targeted _ _ _ =>
      rw [← pv_of_target targeted]
      exact eq_comm
  | @job work job targeted _ _ _ _ made =>
      have named : job.name = generateCleaningJobName pv.name := by
        rw [← pv_of_target targeted]
        exact (newCleanupJob_named made).1
      change job.name = generateCleaningJobName other ↔ other = pv.name
      rw [named]
      constructor
      · intro same
        exact (generateCleaningJobName_injective same).symm
      · rintro rfl
        rfl

/-- The orders of a pass, by the PVs that they are for. -/
theorem mem_filterMap_orderFor
    {listed : List PersistentVolume}
    {op : Op} :
    op ∈ listed.filterMap pass.orderFor ↔
      ∃ pv ∈ listed, Reclaimable pv ∧ pass.Orders pv op := by
  simp only [List.mem_filterMap, orderFor, Option.ite_none_right_eq_some,
    order?_turn_eq_some_iff]

end Exactness

end DeletionPass

/--
What a deletion pass orders is decided by the state in which it starts, in
whatever order the cache is listed.  It asks for the deletion of exactly the
released PVs whose cleaning has succeeded, and starts a cleaner or a job for
exactly those that are not cleaned and can be.  Nothing is ordered twice, and a
PV that is neither being cleaned nor gets an order is reported.
-/
theorem deletionPass_orders_iff
    {pass : DeletionPass}
    {listed : List PersistentVolume}
    (inOrder :
      permuted (pass.oracle .listPVs).order
        (VolumeCache.listPVs pass.world.cache) = some listed)
    (safe :
      ∀ pv ∈ VolumeCache.listPVs pass.world.cache,
        ¬ Dereferenced pass.runtime pv) :
    (deletePVs pass.runtime).Ends exec pass.oracle pass.world
      fun calls _ _ =>
        (∀ op,
          op ∈ orders calls ↔
            ∃ pv ∈ VolumeCache.listPVs pass.world.cache,
              Reclaimable pv ∧ pass.Orders pv op) ∧
          (orders calls).Nodup ∧
          ∀ pv ∈ VolumeCache.listPVs pass.world.cache,
            Reclaimable pv →
            pass.turn pv = .waits ∨
              (∃ op ∈ orders calls, pass.Orders pv op) ∨
              ∃ answered ∈ calls,
                DeletionPass.reportsFailure pv.name answered := by
  have isPermutation := perm_of_permuted inOrder
  have different : (listed.map PersistentVolume.name).Nodup :=
    (isPermutation.map PersistentVolume.name).nodup_iff.mpr
      (ObjectStore.nodup_names pass.world.cache)
  obtain ⟨calls, ⟨⟩, later, traced, completed⟩ :=
    DeletionPass.ends_deletePVs inOrder safe
  refine ⟨calls, (), later, traced, ?_, ?_, ?_⟩
  · intro op
    rw [completed.ordered, DeletionPass.mem_filterMap_orderFor]
    simp only [isPermutation.mem_iff]
  · rw [completed.ordered]
    refine List.Pairwise.filterMap pass.orderFor ?_
      (List.pairwise_map.mp different)
    intro first second apart op ordered other alsoOrdered same
    subst same
    simp only [DeletionPass.orderFor, Option.ite_none_right_eq_some,
      DeletionPass.order?_turn_eq_some_iff] at ordered alsoOrdered
    exact apart ((alsoOrdered.2.about_iff _).mp
      ((ordered.2.about_iff _).mpr rfl))
  · intro pv cached reclaimable
    have member : pv ∈ listed := isPermutation.mem_iff.mpr cached
    cases ordered : (pass.turn pv).order? with
    | none =>
        rcases DeletionPass.Turn.cases_of_order? ordered with
          waits | ⟨err, refused⟩
        · exact .inl waits
        · exact .inr (.inr
            (completed.reported pv member reclaimable err refused))
    | some op =>
        have orders := DeletionPass.order?_turn_eq_some_iff.mp ordered
        refine .inr (.inl ⟨op, ?_, orders⟩)
        rw [completed.ordered, DeletionPass.mem_filterMap_orderFor]
        exact ⟨pv, member, reclaimable, orders⟩

/-- A pass over two released PVs, of which the first has been cleaned. -/
def samplePairPass : DeletionPass where
  runtime := sampleRuntime false sampleClasses
  oracle := ordered directories [1, 0]
  world :=
    { worldOf (releasedPV "one") (releasedPV "two") with
      procTable :=
        ((ProcTable.newProcTable.markRunning "one" 0).2.markSucceeded "one").2 }

/-- What a cleaner of one of them would work on. -/
def sampleTarget (name : String) : CleanerWork where
  pv := releasedPV name
  volMode := .filesystem
  mountPath := "/mnt/fast/volume"
  config := sampleMount "/mnt/disks" "/mnt/fast"

/-- One PV is deleted, and a cleaner is started for the other. -/
theorem deletionPass_orders_iff_of_samplePairPass :
    (deletePVs samplePairPass.runtime).Ends exec samplePairPass.oracle
        samplePairPass.world
      fun calls _ _ =>
        .deletePV "one" ∈ orders calls ∧
          .spawnCleaner (sampleTarget "two") ∈ orders calls := by
  have inOrder :
      permuted (samplePairPass.oracle .listPVs).order
          (VolumeCache.listPVs samplePairPass.world.cache) =
        some [releasedPV "one", releasedPV "two"] :=
    rfl
  have cached :
      ∀ pv,
        pv ∈ [releasedPV "one", releasedPV "two"] ↔
          pv ∈ VolumeCache.listPVs samplePairPass.world.cache :=
    fun _ => (perm_of_permuted inOrder).mem_iff
  have safe :
      ∀ pv ∈ VolumeCache.listPVs samplePairPass.world.cache,
        ¬ Dereferenced samplePairPass.runtime pv := by
    intro pv member dereferenced
    have noSource := dereferenced.2.1
    rw [← cached] at member
    simp only [List.mem_cons, List.not_mem_nil, or_false] at member
    rcases member with rfl | rfl
    · cases noSource
    · cases noSource
  obtain ⟨calls, ⟨⟩, later, traced, ordered, -, -⟩ :=
    deletionPass_orders_iff inOrder safe
  refine ⟨calls, (), later, traced, ?_, ?_⟩
  · have targeted :
        samplePairPass.target (releasedPV "one") = .ok (sampleTarget "one") :=
      rfl
    have cleaned : samplePairPass.Cleaned (sampleTarget "one") := by
      change samplePairPass.world.procTable.status? "one" = some .succeeded
      decide
    rw [ordered]
    exact ⟨releasedPV "one", (cached _).mp (by simp), by decide,
      .deletion targeted cleaned⟩
  · have targeted :
        samplePairPass.target (releasedPV "two") = .ok (sampleTarget "two") :=
      rfl
    have uncleaned : samplePairPass.Uncleaned (sampleTarget "two") := by
      change samplePairPass.world.procTable.status? "two" ∈
        [none, some .failed, some .notFound]
      decide
    have cleanable : DeletionPass.Cleanable (sampleTarget "two") := by
      rintro ⟨⟩
    rw [ordered]
    exact ⟨releasedPV "two", (cached _).mp (by simp), by decide,
      .cleaner targeted uncleaned cleanable rfl⟩

end LocalProvisioner
