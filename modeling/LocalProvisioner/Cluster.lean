import LocalProvisioner.Discovery
import LocalProvisioner.VolumeCache

namespace LocalProvisioner

/-!
# The world of the sync loop

The state that the sync loop shares with its cleaner goroutines, its
informers and the API server, and the effect of each call on it.  Informers
lag: a change at the API server is queued as a notice, and the cache or the
job lister sees it only when the notice is delivered.

Every answer that the model does not compute itself is chosen by the
surroundings: iteration orders, filesystem probes, storage classes, the clock,
and whether an API request is processed, rejected, or processed with its
response lost.  `history` records, newest first, what happened so far.
-/

/-- What happens in a run, as far as the cleaning of volumes is concerned. -/
inductive Event where
  | listedPVs : List PersistentVolume → Event
  | cleanerStarted : (run : Nat) → (pv : PersistentVolume) → Event
  | cleanerEnded :
      (run : Nat) → (pvName : String) → (outcome : CleanupState) → Event
  | createPVIssued : (pvName : String) → Event
  | pvCreated : (pvName : String) → (uid : Nat) → Event
  | deletePVIssued : (pvName : String) → Event
  | jobCreated : (jobName : String) → (uid : Nat) → Event
  | jobSucceeded : (jobName : String) → (uid : Nat) → Event

/-- A live cleaner goroutine. -/
structure Cleaner where
  run : Nat
  work : CleanerWork

/-- The name of the PV that a cleaner works on. -/
def Cleaner.pvName (cleaner : Cleaner) : String :=
  cleaner.work.pv.name

/-- A watch notification. -/
inductive Notice (Object : Type) where
  | updated : Object → Notice Object
  | deleted : Object → Notice Object

/-- The object a notification is about. -/
def Notice.object {Object : Type} : Notice Object → Object
  | .updated object => object
  | .deleted object => object

/-- The shared state of the provisioner and the cluster. -/
structure World where
  procTable : ProcTable
  cleaners : List Cleaner
  cache : VolumeCache
  jobLister : ObjectStore Job Job.name
  pvs : ObjectStore PersistentVolume PersistentVolume.name
  jobs : ObjectStore Job Job.name
  pvNotices : List (Notice PersistentVolume)
  jobNotices : List (Notice Job)
  nextUID : Nat
  ready : Bool
  reports : List Report
  history : List Event

/-- The world in which the first sync loop starts. -/
def World.empty : World where
  procTable := .newProcTable
  cleaners := []
  cache := VolumeCache.newVolumeCache
  jobLister := .empty
  pvs := .empty
  jobs := .empty
  pvNotices := []
  jobNotices := []
  nextUID := 1
  ready := false
  reports := []
  history := []

/-- How the API server treats a request. -/
inductive ApiOutcome where
  | processed : ApiOutcome
  | rejected : ApiError → ApiOutcome
  | lost : ApiError → ApiOutcome
  deriving Repr, DecidableEq

/-- The reply to a request that the API server has carried out. -/
def ApiOutcome.reply : ApiOutcome → Except ApiError Unit
  | .processed => .ok ()
  | .rejected err => .error err
  | .lost err => .error err

/-- What the surroundings choose for one call; each call reads its part. -/
structure Answers where
  order : List Nat := []
  outcome : ApiOutcome := .processed
  lingers : Bool := false
  listerFault : Option String := none
  probe : Except String Bool := .ok false
  names : Except String (List String) := .ok []
  bytes : Except String Int := .ok 0
  storageClass : Except String StorageClass := .error "not found"
  takenUIDs : Nat := 0
  now : Nat := 0

/-- The items in the order of a permutation of their indices. -/
def permuted {α : Type} (order : List Nat) (items : List α) :
    Option (List α) :=
  if order.Perm (List.range items.length) then
    some (order.filterMap fun index => items[index]?)
  else
    none

/-- The items at all indices in turn. -/
theorem filterMap_getElem?_range {α : Type} (items : List α) :
    (List.range items.length).filterMap (fun index => items[index]?) =
      items := by
  induction items with
  | nil => rfl
  | cons item rest inductionHypothesis =>
      rw [List.length_cons, List.range_succ_eq_map, List.filterMap_cons]
      simpa [List.filterMap_map, Function.comp_def] using inductionHypothesis

/-- Permuting the indices permutes the items. -/
theorem perm_of_permuted
    {α : Type}
    {order : List Nat}
    {items listed : List α}
    (inOrder : permuted order items = some listed) :
    listed.Perm items := by
  unfold permuted at inOrder
  split at inOrder
  · rename_i isPermutation
    cases inOrder
    have moved := isPermutation.filterMap fun index => items[index]?
    rwa [filterMap_getElem?_range] at moved
  · cases inOrder

namespace World

/-- Record an event. -/
def record (world : World) (event : Event) : World :=
  { world with history := event :: world.history }

/-- `jobLister.Jobs(namespace).Get(name)`. -/
def listedJob (world : World) (answers : Answers) (jobName : String) :
    Except ApiError Job :=
  match answers.listerFault with
  | some message => .error (.other message)
  | none =>
      match world.jobLister.get jobName with
      | none => .error .notFound
      | some job => .ok job

/-- A job that the lister returns is in the lister. -/
theorem get_of_listedJob
    {world : World}
    {answers : Answers}
    {jobName : String}
    {job : Job}
    (listed : world.listedJob answers jobName = .ok job) :
    world.jobLister.get jobName = some job := by
  unfold listedJob at listed
  split at listed
  · cases listed
  · split at listed
    · cases listed
    · cases listed
      assumption

/-- Store a PV at the API server and queue its notice. -/
def putPV (world : World) (pv : PersistentVolume) : World :=
  { world with
    pvs := world.pvs.put pv
    pvNotices := world.pvNotices ++ [.updated pv] }

/-- Remove a PV from the API server and queue its notice. -/
def dropPV (world : World) (pv : PersistentVolume) : World :=
  { world with
    pvs := world.pvs.drop pv.name
    pvNotices := world.pvNotices ++ [.deleted pv] }

/-- Store a job at the API server and queue its notice. -/
def putJob (world : World) (job : Job) : World :=
  { world with
    jobs := world.jobs.put job
    jobNotices := world.jobNotices ++ [.updated job] }

/-- Remove a job from the API server and queue its notice. -/
def dropJob (world : World) (job : Job) : World :=
  { world with
    jobs := world.jobs.drop job.name
    jobNotices := world.jobNotices ++ [.deleted job] }

/-- The UID of a new object; other clients may have been given some before. -/
def freshUID (world : World) (answers : Answers) : Nat :=
  world.nextUID + answers.takenUIDs

/-- The API server creates a PV and gives it a UID. -/
def admitPV (world : World) (uid : Nat) (pv : PersistentVolume) : World :=
  ({ world with nextUID := uid + 1 }.putPV { pv with uid }).record
    (.pvCreated pv.name uid)

/-- The API server creates a job and gives it a UID. -/
def admitJob (world : World) (uid : Nat) (job : Job) : World :=
  ({ world with nextUID := uid + 1 }.putJob { job with uid }).record
    (.jobCreated job.name uid)

/-- `CreatePV` at the API server. -/
def execCreatePV (world : World) (answers : Answers) (pv : PersistentVolume) :
    Except ApiError Unit × World :=
  let issued := world.record (.createPVIssued pv.name)
  match answers.outcome with
  | .rejected err => (.error err, issued)
  | outcome =>
      match world.pvs.get pv.name with
      | some _ => (.error .alreadyExists, issued)
      | none => (outcome.reply, issued.admitPV (world.freshUID answers) pv)

/-- `DeletePV` at the API server; a finalizer may keep the object for a while. -/
def execDeletePV (world : World) (answers : Answers) (pvName : String) :
    Except ApiError Unit × World :=
  let issued := world.record (.deletePVIssued pvName)
  match answers.outcome with
  | .rejected err => (.error err, issued)
  | outcome =>
      match world.pvs.get pvName with
      | none => (.error .notFound, issued)
      | some pv =>
          if answers.lingers then
            (outcome.reply,
              issued.putPV { pv with deletionTimestamp := some answers.now })
          else
            (outcome.reply, issued.dropPV pv)

/-- Every deletion request is recorded, whatever becomes of it. -/
theorem history_execDeletePV
    (world : World)
    (answers : Answers)
    (pvName : String) :
    (world.execDeletePV answers pvName).2.history =
      .deletePVIssued pvName :: world.history := by
  unfold execDeletePV
  split
  · rfl
  · split
    · rfl
    · split <;> rfl

/-- `CreateJob` at the API server. -/
def execCreateJob (world : World) (answers : Answers) (job : Job) :
    Except ApiError Unit × World :=
  match answers.outcome with
  | .rejected err => (.error err, world)
  | outcome =>
      match world.jobs.get job.name with
      | some _ => (.error .alreadyExists, world)
      | none => (outcome.reply, world.admitJob (world.freshUID answers) job)

/--
`DeleteJob` at the API server.  Foreground deletion only marks the job; the
object stays until its finalizer is removed.
-/
def execDeleteJob (world : World) (answers : Answers) (jobName : String) :
    Except ApiError Unit × World :=
  match answers.outcome with
  | .rejected err => (.error err, world)
  | outcome =>
      match world.jobs.get jobName with
      | none => (.error .notFound, world)
      | some job =>
          (outcome.reply,
            world.putJob { job with deletionTimestamp := some answers.now })

/-- Marking a job as deleted is no event of the history. -/
theorem history_execDeleteJob
    (world : World)
    (answers : Answers)
    (jobName : String) :
    (world.execDeleteJob answers jobName).2.history = world.history := by
  unfold execDeleteJob
  split
  · rfl
  · split <;> rfl

/-- `MarkRunning` followed by the `go` statement of `runProcess`. -/
def execSpawnCleaner (world : World) (answers : Answers) (work : CleanerWork) :
    Except String Unit × World :=
  match world.procTable.markRunning work.pv.name answers.now with
  | (.error err, procTable) => (.error err, { world with procTable })
  | (.ok _, procTable) =>
      let run := world.history.length
      (.ok (), {
        world with
        procTable
        cleaners := { run, work } :: world.cleaners
        history := .cleanerStarted run work.pv :: world.history
      })

/-- A cleaner is started for every PV without an entry. -/
theorem execSpawnCleaner_of_none
    {world : World}
    {work : CleanerWork}
    (absent : world.procTable.status? work.pv.name = none)
    (answers : Answers) :
    world.execSpawnCleaner answers work =
      (.ok (), {
        world with
        procTable :=
          (world.procTable.markRunning work.pv.name answers.now).2
        cleaners :=
          { run := world.history.length, work } :: world.cleaners
        history :=
          .cleanerStarted world.history.length work.pv :: world.history
      }) := by
  unfold execSpawnCleaner
  rw [ProcTable.markRunning_of_none absent answers.now]

end World

/-- The effect of one call on the world. -/
def exec (op : Op) (answers : Answers) (world : World) :
    Option (op.Reply × World) :=
  match op with
  | .listPVs =>
      (permuted answers.order (VolumeCache.listPVs world.cache)).map fun listed =>
        (listed, world.record (.listedPVs listed))
  | .getPV pvName => some (VolumeCache.getPV world.cache pvName, world)
  | .lookupPVsByPath _ path =>
      some (VolumeCache.lookupPVsByPath world.cache path, world)
  | .isRunning pvName => some (world.procTable.isRunning pvName, world)
  | .removeEntry pvName =>
      let (reply, procTable) := world.procTable.removeEntry pvName
      some (reply, { world with procTable })
  | .spawnCleaner work => some (world.execSpawnCleaner answers work)
  | .isCleaningJobRunning pvName =>
      some (isCleaningJobRunning
        (world.listedJob answers (generateCleaningJobName pvName)), world)
  | .getJob jobName => some (world.listedJob answers jobName, world)
  | .deleteJob jobName _ => some (world.execDeleteJob answers jobName)
  | .createJob job => some (world.execCreateJob answers job)
  | .createPV pv => some (world.execCreatePV answers pv)
  | .deletePV pvName => some (world.execDeletePV answers pvName)
  | .isDir _ => some (answers.probe, world)
  | .isBlock _ => some (answers.probe, world)
  | .readDir _ => some (answers.names, world)
  | .listMounts => some (answers.names, world)
  | .getBlockCapacityByte _ => some (answers.bytes, world)
  | .getFsCapacityByte _ _ => some (answers.bytes, world)
  | .getStorageClass _ => some (answers.storageClass, world)
  | .rangeDiscoveryMap classes =>
      (permuted answers.order
        (classes.entries.map fun entry => (entry.1, entry.2))).map
          fun ordered => (ordered, world)
  | .now => some (answers.now, world)
  | .report report =>
      some ((), { world with reports := report :: world.reports })
  | .setReady ready => some ((), { world with ready })
  | .crash _ => none

/-- The ways in which a call can change the world. -/
inductive Effect (world : World) (answers : Answers) : Op → World → Prop where
  | recorded
      {op : Op}
      (reports : List Report)
      (ready : Bool)
      (history : List Event) :
      Effect world answers op { world with reports, ready, history }
  | tookEntry (pvName : String) :
      Effect world answers (.removeEntry pvName)
        { world with procTable := (world.procTable.removeEntry pvName).2 }
  | spawned (work : CleanerWork) :
      Effect world answers (.spawnCleaner work)
        (world.execSpawnCleaner answers work).2
  | createdPV (pv : PersistentVolume) :
      world.pvs.get pv.name = none →
      Effect world answers (.createPV pv)
        ((world.record (.createPVIssued pv.name)).admitPV
          (world.freshUID answers) pv)
  | markedPV (pvName : String) (pv : PersistentVolume) :
      world.pvs.get pvName = some pv →
      Effect world answers (.deletePV pvName)
        ((world.record (.deletePVIssued pvName)).putPV
          { pv with deletionTimestamp := some answers.now })
  | removedPV (pvName : String) (pv : PersistentVolume) :
      world.pvs.get pvName = some pv →
      Effect world answers (.deletePV pvName)
        ((world.record (.deletePVIssued pvName)).dropPV pv)
  | createdJob (job : Job) :
      world.jobs.get job.name = none →
      Effect world answers (.createJob job)
        (world.admitJob (world.freshUID answers) job)
  | markedJob (jobName namespaceName : String) (job : Job) :
      world.jobs.get jobName = some job →
      Effect world answers (.deleteJob jobName namespaceName)
        (world.putJob { job with deletionTimestamp := some answers.now })

/-- A call changes the world in one of these ways. -/
theorem effect_of_exec
    {op : Op}
    {answers : Answers}
    {world later : World}
    {reply : op.Reply}
    (executed : exec op answers world = some (reply, later)) :
    Effect world answers op later := by
  cases op with
  | listPVs =>
      obtain ⟨listed, _, same⟩ := Option.map_eq_some_iff.mp executed
      cases same
      exact .recorded _ _ _
  | rangeDiscoveryMap classes =>
      obtain ⟨ordered, _, same⟩ := Option.map_eq_some_iff.mp executed
      cases same
      exact .recorded _ _ _
  | removeEntry pvName =>
      obtain rfl :
          { world with
            procTable := (world.procTable.removeEntry pvName).2 } = later :=
        congrArg Prod.snd (Option.some.inj executed)
      exact .tookEntry pvName
  | spawnCleaner work =>
      obtain rfl : (world.execSpawnCleaner answers work).2 = later :=
        congrArg Prod.snd (Option.some.inj executed)
      exact .spawned work
  | createPV pv =>
      obtain rfl : (world.execCreatePV answers pv).2 = later :=
        congrArg Prod.snd (Option.some.inj executed)
      unfold World.execCreatePV
      split
      · exact .recorded _ _ _
      · split
        · exact .recorded _ _ _
        · rename_i free
          exact .createdPV pv free
  | deletePV pvName =>
      obtain rfl : (world.execDeletePV answers pvName).2 = later :=
        congrArg Prod.snd (Option.some.inj executed)
      unfold World.execDeletePV
      split
      · exact .recorded _ _ _
      · split
        · exact .recorded _ _ _
        · rename_i pv stored
          split
          · exact .markedPV pvName pv stored
          · exact .removedPV pvName pv stored
  | createJob job =>
      obtain rfl : (world.execCreateJob answers job).2 = later :=
        congrArg Prod.snd (Option.some.inj executed)
      unfold World.execCreateJob
      split
      · exact .recorded _ _ _
      · split
        · exact .recorded _ _ _
        · rename_i free
          exact .createdJob job free
  | deleteJob jobName namespaceName =>
      obtain rfl : (world.execDeleteJob answers jobName).2 = later :=
        congrArg Prod.snd (Option.some.inj executed)
      unfold World.execDeleteJob
      split
      · exact .recorded _ _ _
      · split
        · exact .recorded _ _ _
        · rename_i job stored
          exact .markedJob jobName namespaceName job stored
  | crash reason =>
      cases executed
  | getPV | lookupPVsByPath | isRunning | isCleaningJobRunning | getJob
  | isDir | isBlock | readDir | listMounts | getBlockCapacityByte
  | getFsCapacityByte | getStorageClass | now | report | setReady =>
      cases executed
      exact .recorded _ _ _

/-- Only the populator changes the cache. -/
theorem cache_of_exec
    {op : Op}
    {answers : Answers}
    {world later : World}
    {reply : op.Reply}
    (executed : exec op answers world = some (reply, later)) :
    later.cache = world.cache := by
  cases effect_of_exec executed with
  | spawned work =>
      unfold World.execSpawnCleaner
      split
      · rfl
      · rfl
  | recorded | tookEntry | createdPV | markedPV | removedPV | createdJob
  | markedJob => rfl

end LocalProvisioner
