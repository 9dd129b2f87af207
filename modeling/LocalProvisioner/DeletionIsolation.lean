import LocalProvisioner.SyncLoop

namespace LocalProvisioner

open Interleaving

/-!
# Isolation of the PVs of a deletion pass

The PVs of a pass share the table of cleaners, the job lister and the API
server.  What a pass does for one of them depends only on the entry, the job
and the API object under its own name, and it touches nothing else.  So a pass
does for each PV what it would do if the cache held that PV alone, unless it
crashes.

It crashes at a released PV without a local volume source whose class is
known: `deletePV` rejects it, but reporting the failure asks for its mode, and
`GetContainerPath` dereferences the source.

The surroundings answer each call in one way throughout a pass: the file
system, faults of the job lister, the outcomes of API requests, the clock.
-/

/-- The calls that a pass may make for a PV. -/
def Op.About (pvName : String) : Op → Prop
  | .isRunning name => name = pvName
  | .removeEntry name => name = pvName
  | .spawnCleaner work => work.pv.name = pvName
  | .isCleaningJobRunning name => name = pvName
  | .getJob jobName => jobName = generateCleaningJobName pvName
  | .deleteJob jobName _ => jobName = generateCleaningJobName pvName
  | .createJob job => job.name = generateCleaningJobName pvName
  | .deletePV name => name = pvName
  | .isDir _ => True
  | .isBlock _ => True
  | .now => True
  | .report _ => True
  | _ => False

/-- The job lister returns a job under its own name. -/
def Op.Truthful : (op : Op) → op.Reply → Prop
  | .getJob jobName, (listed : Except ApiError Job) =>
      ∀ job, listed = .ok job → job.name = jobName
  | _, _ => True

/-!
## The calls of one PV
-/

section Walkthrough

/-- All calls of a routine are about one PV. -/
abbrev KeepsTo {α : Type} (pvName : String) (routine : Routine α) : Prop :=
  Conforms (.stateless (Op.About pvName) Op.Truthful) (fun _ _ => True) ()
    routine

variable {pv : PersistentVolume}

theorem keepsTo_getVolumeMode (pvName fullPath : String) :
    KeepsTo pvName (getVolumeMode fullPath) := by
  refine .call trivial ?_
  intro (isdir : Except String Bool) _
  rcases isdir with errdir | _ | _
  · refine .call trivial ?_
    intro (isblk : Except String Bool) _
    rcases isblk with errblk | _ | _ <;> exact .done trivial
  · refine .call trivial ?_
    intro (isblk : Except String Bool) _
    rcases isblk with errblk | _ | _ <;> exact .done trivial
  · exact .done trivial

/-- A path is computed without a crash if there is a local source. -/
theorem keepsTo_getContainerPath
    {source : LocalVolumeSource}
    (pvName : String)
    (isLocal : pv.localSource = some source)
    (config : MountConfig) :
    KeepsTo pvName (getContainerPath pv config) := by
  unfold getContainerPath
  rw [isLocal]
  exact .done trivial

/-- The released PVs at which a pass crashes. -/
def Dereferenced (runtime : RuntimeConfig) (pv : PersistentVolume) : Prop :=
  Reclaimable pv ∧
    pv.localSource = none ∧
    (runtime.discoveryMap.lookup pv.storageClassName).isSome = true

instance (runtime : RuntimeConfig) (pv : PersistentVolume) :
    Decidable (Dereferenced runtime pv) :=
  inferInstanceAs (Decidable (_ ∧ _ ∧ _))

theorem keepsTo_getVolMode
    {runtime : RuntimeConfig}
    (pvName : String)
    (known :
      pv.localSource = none →
      runtime.discoveryMap.lookup pv.storageClassName = none) :
    KeepsTo pvName (getVolMode runtime pv) := by
  unfold getVolMode
  split
  · exact .done trivial
  · rename_i config found
    cases isLocal : pv.localSource with
    | none =>
        rw [known isLocal] at found
        cases found
    | some source =>
        refine (keepsTo_getContainerPath pvName isLocal config).bind ?_
        intro mountPath _ _
        cases mountPath with
        | error err => exact .done trivial
        | ok mountPath => exact keepsTo_getVolumeMode pvName mountPath

theorem keepsTo_inProgress (pvName : String) (isJob : Bool) :
    KeepsTo pvName (inProgress pvName isJob) := by
  cases isJob with
  | true => exact .call rfl fun _ _ => .done trivial
  | false => exact .call rfl fun _ _ => .done trivial

theorem keepsTo_removeListedJob
    {pvName : String}
    {job : Job}
    (runtime : RuntimeConfig)
    (named : job.name = generateCleaningJobName pvName) :
    KeepsTo pvName (removeListedJob runtime job) := by
  unfold removeListedJob
  split
  · exact .done trivial
  · refine .call named ?_
    intro (deleted : Except ApiError Unit) _
    cases deleted with
    | error err => exact .done trivial
    | ok _ => exact .done trivial

theorem keepsTo_removeStatus
    (runtime : RuntimeConfig)
    (pvName : String)
    (isJob : Bool) :
    KeepsTo pvName (removeStatus runtime pvName isJob) := by
  cases isJob with
  | false => exact .call rfl fun _ _ => .done trivial
  | true =>
      refine .call rfl ?_
      intro (listed : Except ApiError Job) truthful
      rcases listed with (_ | _ | _) | job
      · exact .done trivial
      · exact .done trivial
      · exact .done trivial
      · exact keepsTo_removeListedJob runtime (truthful job rfl)

theorem keepsTo_reportDeleted
    (pvName : String)
    (volMode : VolumeMode)
    (config : MountConfig)
    (runjob : Bool)
    (startTime : Option Nat) :
    KeepsTo pvName (reportDeleted pv volMode config runjob startTime) := by
  refine .call trivial ?_
  intro _ _
  cases startTime with
  | none => exact .done trivial
  | some started => exact .call trivial fun _ _ => .done trivial

theorem keepsTo_deleteCleanedPV
    (volMode : VolumeMode)
    (config : MountConfig)
    (runjob : Bool)
    (startTime : Option Nat) :
    KeepsTo pv.name
      (deleteCleanedPV pv volMode config runjob startTime) := by
  refine .call rfl ?_
  intro (deleted : Except ApiError Unit) _
  rcases deleted with (_ | _ | message) | _
  · exact keepsTo_reportDeleted pv.name volMode config runjob startTime
  · exact .call trivial fun _ _ => .done trivial
  · exact .call trivial fun _ _ => .done trivial
  · exact keepsTo_reportDeleted pv.name volMode config runjob startTime

theorem keepsTo_startCleaning
    (runtime : RuntimeConfig)
    (volMode : VolumeMode)
    (mountPath : String)
    (config : MountConfig)
    (runjob : Bool) :
    KeepsTo pv.name
      (startCleaning runtime pv volMode mountPath config runjob) := by
  unfold startCleaning
  split
  · exact .done trivial
  · cases runjob with
    | false => exact .call rfl fun _ _ => .done trivial
    | true =>
        show KeepsTo pv.name (runJob runtime pv volMode mountPath config)
        unfold runJob
        split
        · exact .done trivial
        · refine .call trivial ?_
          intro now _
          show KeepsTo pv.name (submitJob _)
          cases made :
              newCleanupJob pv volMode runtime.jobContainerImage
                runtime.jobTolerations runtime.node.name runtime.namespaceName
                mountPath config now with
          | error err => exact .done trivial
          | ok job =>
              refine .call (newCleanupJob_named made).1 ?_
              intro (created : Except ApiError Unit) _
              cases created with
              | error err => exact .done trivial
              | ok _ => exact .done trivial

theorem keepsTo_cleanOrDelete
    (runtime : RuntimeConfig)
    (volMode : VolumeMode)
    (mountPath : String)
    (config : MountConfig) :
    KeepsTo pv.name (cleanOrDelete runtime pv volMode mountPath config) := by
  unfold cleanOrDelete
  refine (keepsTo_inProgress pv.name _).bind ?_
  intro busy _ _
  cases busy with
  | true => exact .done trivial
  | false =>
      refine (keepsTo_removeStatus runtime pv.name _).bind ?_
      intro removed _ _
      rcases removed with err | ⟨state, startTime⟩
      · exact .done trivial
      · show KeepsTo pv.name (actOnStatus _ _ _ _ _ _ _ _)
        cases state with
        | succeeded => exact keepsTo_deleteCleanedPV volMode config _ startTime
        | failed => exact keepsTo_startCleaning runtime volMode mountPath config _
        | notFound => exact keepsTo_startCleaning runtime volMode mountPath config _
        | unknown => exact .done trivial
        | running => exact .done trivial

theorem keepsTo_deletePV (runtime : RuntimeConfig) :
    KeepsTo pv.name (deletePV runtime pv) := by
  unfold deletePV
  split
  · exact .done trivial
  · rename_i hasSource
    split
    · exact .done trivial
    · rename_i config _
      obtain ⟨source, isLocal⟩ := Option.ne_none_iff_exists'.mp hasSource
      refine (keepsTo_getContainerPath pv.name isLocal config).bind ?_
      intro mountPath _ _
      cases mountPath with
      | error err => exact .done trivial
      | ok mountPath =>
          refine (keepsTo_getVolMode pv.name (by simp [isLocal])).bind ?_
          intro volMode _ _
          cases volMode with
          | error err => exact .done trivial
          | ok volMode =>
              exact keepsTo_cleanOrDelete runtime volMode mountPath config

/-- All calls of a turn are about its PV, and none is a crash. -/
theorem keepsTo_reclaimPV
    {runtime : RuntimeConfig}
    (safe : ¬ Dereferenced runtime pv) :
    KeepsTo pv.name (reclaimPV runtime pv) := by
  unfold reclaimPV
  split
  · exact .done trivial
  · split
    · exact .done trivial
    · split
      · exact .done trivial
      · exact .call trivial fun _ _ => .done trivial
      · rename_i released live _ policy
        have known :
            pv.localSource = none →
            runtime.discoveryMap.lookup pv.storageClassName = none := by
          intro noSource
          rw [← Option.not_isSome_iff_eq_none]
          intro isKnown
          exact safe ⟨⟨not_not.mp released, not_not.mp live, policy⟩,
            noSource, isKnown⟩
        refine (keepsTo_deletePV runtime).bind ?_
        intro outcome _ _
        cases outcome with
        | ok _ => exact .done trivial
        | error err =>
            refine (keepsTo_getVolMode pv.name known).bind ?_
            intro mode _ _
            cases mode with
            | error _ =>
                exact .call trivial fun _ _ =>
                  .call trivial fun _ _ => .done trivial
            | ok _ =>
                exact .call trivial fun _ _ =>
                  .call trivial fun _ _ => .done trivial
      · exact .call trivial fun _ _ => .done trivial

end Walkthrough

/-!
## What a PV sees of the world
-/

/-- Two worlds look the same to the turn of a PV. -/
structure World.SameView (pvName : String) (first second : World) : Prop where
  entry :
    first.procTable.procTable.lookup pvName =
      second.procTable.procTable.lookup pvName
  listedJob :
    first.jobLister.get (generateCleaningJobName pvName) =
      second.jobLister.get (generateCleaningJobName pvName)
  job :
    (first.jobs.get (generateCleaningJobName pvName)).isSome =
      (second.jobs.get (generateCleaningJobName pvName)).isSome
  stored :
    (first.pvs.get pvName).isSome = (second.pvs.get pvName).isSome

namespace World.SameView

variable {pvName : String}
variable {first second third : World}

theorem refl (world : World) : SameView pvName world world :=
  ⟨rfl, rfl, rfl, rfl⟩

theorem trans
    (same : SameView pvName first second)
    (further : SameView pvName second third) :
    SameView pvName first third where
  entry := same.entry.trans further.entry
  listedJob := same.listedJob.trans further.listedJob
  job := same.job.trans further.job
  stored := same.stored.trans further.stored

/-- The job lister answers alike. -/
theorem listedJob_eq
    (same : SameView pvName first second)
    (answers : Answers) :
    first.listedJob answers (generateCleaningJobName pvName) =
      second.listedJob answers (generateCleaningJobName pvName) := by
  unfold World.listedJob
  rw [same.listedJob]

/-- A cleaner is started alike. -/
theorem execSpawnCleaner
    {work : CleanerWork}
    (same : SameView work.pv.name first second)
    (answers : Answers) :
    (first.execSpawnCleaner answers work).1 =
        (second.execSpawnCleaner answers work).1 ∧
      SameView work.pv.name (first.execSpawnCleaner answers work).2
        (second.execSpawnCleaner answers work).2 := by
  unfold World.execSpawnCleaner ProcTable.markRunning
  rw [same.entry]
  cases second.procTable.procTable.lookup work.pv.name with
  | some entry =>
      exact ⟨rfl, same.entry, same.listedJob, same.job, same.stored⟩
  | none =>
      refine ⟨rfl, ?_, same.listedJob, same.job, same.stored⟩
      simp

/-- A PV is deleted alike. -/
theorem execDeletePV
    (same : SameView pvName first second)
    (answers : Answers) :
    (first.execDeletePV answers pvName).1 =
        (second.execDeletePV answers pvName).1 ∧
      SameView pvName (first.execDeletePV answers pvName).2
        (second.execDeletePV answers pvName).2 := by
  have stored := same.stored
  unfold World.execDeletePV
  cases answers.outcome with
  | rejected err =>
      exact ⟨rfl, same.entry, same.listedJob, same.job, same.stored⟩
  | _ =>
      cases inFirst : first.pvs.get pvName with
      | none =>
          rw [inFirst] at stored
          have inSecond := Option.not_isSome_iff_eq_none.mp
            (Bool.eq_false_iff.mp stored.symm)
          rw [inSecond]
          exact ⟨rfl, same.entry, same.listedJob, same.job, same.stored⟩
      | some pv =>
          rw [inFirst] at stored
          obtain ⟨other, inSecond⟩ :=
            Option.isSome_iff_exists.mp stored.symm
          have firstName : pv.name = pvName := ObjectStore.name_of_get inFirst
          have secondName : other.name = pvName :=
            ObjectStore.name_of_get inSecond
          rw [inSecond]
          cases answers.lingers with
          | true =>
              refine ⟨rfl, same.entry, same.listedJob, same.job, ?_⟩
              simp [World.putPV, World.record, firstName, secondName]
          | false =>
              refine ⟨rfl, same.entry, same.listedJob, same.job, ?_⟩
              simp [World.dropPV, World.record, ObjectStore.get_drop, firstName,
                secondName]

/-- A job is created alike. -/
theorem execCreateJob
    {job : Job}
    (same : SameView pvName first second)
    (named : job.name = generateCleaningJobName pvName)
    (answers : Answers) :
    (first.execCreateJob answers job).1 =
        (second.execCreateJob answers job).1 ∧
      SameView pvName (first.execCreateJob answers job).2
        (second.execCreateJob answers job).2 := by
  have stored := same.job
  unfold World.execCreateJob
  rw [named]
  cases answers.outcome with
  | rejected err => exact ⟨rfl, same⟩
  | _ =>
      cases inFirst : first.jobs.get (generateCleaningJobName pvName) with
      | some _ =>
          rw [inFirst] at stored
          obtain ⟨other, inSecond⟩ :=
            Option.isSome_iff_exists.mp stored.symm
          rw [inSecond]
          exact ⟨rfl, same⟩
      | none =>
          rw [inFirst] at stored
          have inSecond := Option.not_isSome_iff_eq_none.mp
            (Bool.eq_false_iff.mp stored.symm)
          rw [inSecond]
          refine ⟨rfl, same.entry, same.listedJob, ?_, same.stored⟩
          simp [World.admitJob, World.putJob, World.record, named]

/-- A job is marked as deleted alike. -/
theorem execDeleteJob
    (same : SameView pvName first second)
    (answers : Answers) :
    (first.execDeleteJob answers (generateCleaningJobName pvName)).1 =
        (second.execDeleteJob answers (generateCleaningJobName pvName)).1 ∧
      SameView pvName
        (first.execDeleteJob answers (generateCleaningJobName pvName)).2
        (second.execDeleteJob answers (generateCleaningJobName pvName)).2 := by
  have stored := same.job
  unfold World.execDeleteJob
  cases answers.outcome with
  | rejected err => exact ⟨rfl, same⟩
  | _ =>
      cases inFirst : first.jobs.get (generateCleaningJobName pvName) with
      | none =>
          rw [inFirst] at stored
          have inSecond := Option.not_isSome_iff_eq_none.mp
            (Bool.eq_false_iff.mp stored.symm)
          rw [inSecond]
          exact ⟨rfl, same⟩
      | some job =>
          rw [inFirst] at stored
          obtain ⟨other, inSecond⟩ :=
            Option.isSome_iff_exists.mp stored.symm
          have firstName : job.name = generateCleaningJobName pvName :=
            ObjectStore.name_of_get inFirst
          have secondName : other.name = generateCleaningJobName pvName :=
            ObjectStore.name_of_get inSecond
          rw [inSecond]
          refine ⟨rfl, same.entry, same.listedJob, ?_, same.stored⟩
          simp [World.putJob, firstName, secondName]

end World.SameView

section Passes

variable {pvName : String}
variable {first second world later : World}

/-- A job that the lister returns has the name it was asked for. -/
theorem truthful_listedJob
    (world : World)
    (answers : Answers)
    (jobName : String) :
    Op.Truthful (.getJob jobName) (world.listedJob answers jobName) := by
  intro job listed
  exact ObjectStore.name_of_get (World.get_of_listedJob listed)

/-- Two executions of a call, each in its own world. -/
theorem exec_alike
    {op : Op}
    {answers : Answers}
    (run : World → op.Reply × World)
    (executes : ∀ world, exec op answers world = some (run world))
    (truthful : op.Truthful (run first).1)
    (same :
      (run first).1 = (run second).1 ∧
        World.SameView pvName (run first).2 (run second).2) :
    ∃ reply firstLater secondLater,
      exec op answers first = some (reply, firstLater) ∧
        exec op answers second = some (reply, secondLater) ∧
        op.Truthful reply ∧
        World.SameView pvName firstLater secondLater := by
  refine ⟨(run first).1, (run first).2, (run second).2, executes first, ?_,
    truthful, same.2⟩
  rw [executes second, same.1]

/-- A call about a PV gets the same reply in worlds that look the same to it. -/
theorem exec_of_sameView
    {op : Op}
    (about : op.About pvName)
    (same : World.SameView pvName first second)
    (answers : Answers) :
    ∃ reply firstLater secondLater,
      exec op answers first = some (reply, firstLater) ∧
        exec op answers second = some (reply, secondLater) ∧
        op.Truthful reply ∧
        World.SameView pvName firstLater secondLater := by
  cases op with
  | isRunning name =>
      obtain rfl : name = pvName := about
      have alike :
          first.procTable.isRunning name = second.procTable.isRunning name := by
        simp [ProcTable.isRunning, same.entry]
      exact exec_alike (fun world => (world.procTable.isRunning name, world))
        (fun _ => rfl) trivial ⟨alike, same⟩
  | removeEntry name =>
      obtain rfl : name = pvName := about
      obtain ⟨sameReply, sameEntry⟩ :=
        ProcTable.removeEntry_of_lookup_eq same.entry
      exact exec_alike
        (fun world =>
          ((world.procTable.removeEntry name).1,
            { world with procTable := (world.procTable.removeEntry name).2 }))
        (fun _ => rfl) trivial
        ⟨sameReply, sameEntry, same.listedJob, same.job, same.stored⟩
  | spawnCleaner work =>
      obtain rfl : work.pv.name = pvName := about
      exact exec_alike (fun world => world.execSpawnCleaner answers work)
        (fun _ => rfl) trivial (same.execSpawnCleaner answers)
  | isCleaningJobRunning name =>
      obtain rfl : name = pvName := about
      exact exec_alike
        (fun world =>
          (isCleaningJobRunning
            (world.listedJob answers (generateCleaningJobName name)), world))
        (fun _ => rfl) trivial
        ⟨congrArg isCleaningJobRunning (same.listedJob_eq answers), same⟩
  | getJob jobName =>
      obtain rfl : jobName = generateCleaningJobName pvName := about
      exact exec_alike
        (fun world =>
          (world.listedJob answers (generateCleaningJobName pvName), world))
        (fun _ => rfl) (truthful_listedJob first answers _)
        ⟨same.listedJob_eq answers, same⟩
  | deleteJob jobName namespaceName =>
      obtain rfl : jobName = generateCleaningJobName pvName := about
      exact exec_alike
        (fun world =>
          world.execDeleteJob answers (generateCleaningJobName pvName))
        (fun _ => rfl) trivial (same.execDeleteJob answers)
  | createJob job =>
      exact exec_alike (fun world => world.execCreateJob answers job)
        (fun _ => rfl) trivial (same.execCreateJob about answers)
  | deletePV name =>
      obtain rfl : name = pvName := about
      exact exec_alike (fun world => world.execDeletePV answers name)
        (fun _ => rfl) trivial (same.execDeletePV answers)
  | isDir path => exact ⟨_, first, second, rfl, rfl, trivial, same⟩
  | isBlock path => exact ⟨_, first, second, rfl, rfl, trivial, same⟩
  | now => exact ⟨_, first, second, rfl, rfl, trivial, same⟩
  | report report =>
      exact ⟨_, _, _, rfl, rfl, trivial,
        same.entry, same.listedJob, same.job, same.stored⟩
  | _ => exact about.elim

/-- A call about a PV changes nothing that another PV sees. -/
theorem sameView_of_other
    {op : Op}
    {answers : Answers}
    {reply : op.Reply}
    {other : String}
    (about : op.About other)
    (apart : pvName ≠ other)
    (executed : exec op answers world = some (reply, later)) :
    World.SameView pvName later world := by
  have jobsApart :
      generateCleaningJobName pvName ≠ generateCleaningJobName other :=
    fun same => apart (generateCleaningJobName_injective same)
  cases effect_of_exec executed with
  | recorded reports ready history => exact ⟨rfl, rfl, rfl, rfl⟩
  | tookEntry name =>
      obtain rfl : name = other := about
      exact ⟨ProcTable.lookup_removeEntry_of_ne apart _, rfl, rfl, rfl⟩
  | spawned work =>
      obtain rfl : work.pv.name = other := about
      have kept :=
        ProcTable.lookup_markRunning_of_ne apart world.procTable answers.now
      unfold World.execSpawnCleaner
      split
      · rename_i marked
        rw [marked] at kept
        exact ⟨kept, rfl, rfl, rfl⟩
      · rename_i marked
        rw [marked] at kept
        exact ⟨kept, rfl, rfl, rfl⟩
  | createdPV pv _ => exact about.elim
  | markedPV name pv stored =>
      obtain rfl : name = other := about
      have named : pv.name = name := ObjectStore.name_of_get stored
      refine ⟨rfl, rfl, rfl, ?_⟩
      simp [World.putPV, World.record, ObjectStore.get_put, named, apart]
  | removedPV name pv stored =>
      obtain rfl : name = other := about
      have named : pv.name = name := ObjectStore.name_of_get stored
      refine ⟨rfl, rfl, rfl, ?_⟩
      simp [World.dropPV, World.record, ObjectStore.get_drop, named, apart]
  | createdJob job _ =>
      have named : job.name = generateCleaningJobName other := about
      refine ⟨rfl, rfl, ?_, rfl⟩
      simp [World.admitJob, World.putJob, World.record, ObjectStore.get_put,
        named, jobsApart]
  | markedJob jobName namespaceName job stored =>
      obtain rfl : jobName = generateCleaningJobName other := about
      have named : job.name = generateCleaningJobName other :=
        ObjectStore.name_of_get stored
      refine ⟨rfl, rfl, ?_, rfl⟩
      simp [World.putJob, ObjectStore.get_put, named, jobsApart]

/-!
## Whole passes
-/

/-- The answers of the surroundings, with an order for the listing. -/
def ordered (oracle : Op → Answers) (order : List Nat) : Op → Answers
  | .listPVs => { oracle .listPVs with order }
  | op => oracle op

theorem ordered_of_about
    {op : Op}
    (about : op.About pvName)
    (oracle : Op → Answers)
    (order : List Nat) :
    ordered oracle order op = oracle op := by
  cases op with
  | listPVs => exact about.elim
  | _ => rfl

/-- The answered calls of a pass of `DeletePVs`, and its end or its crash. -/
def deletionPass
    (runtime : RuntimeConfig)
    (oracle : Op → Answers)
    (order : List Nat)
    (world : World) :
    List (Answered syncSignature) × Except Op (Unit × World) :=
  (deletePVs runtime).trace exec (ordered oracle order) world

/-- The calls of a pass over one PV alone, after its listing of the cache. -/
def aloneCalls
    (runtime : RuntimeConfig)
    (oracle : Op → Answers)
    (world : World)
    (pv : PersistentVolume) :
    List (Answered syncSignature) :=
  (deletionPass runtime oracle [0]
    { world with cache := ObjectStore.empty.put pv }).1.tail

/-- A pass completes, and does for each PV what it would do for it alone. -/
structure Isolated
    (runtime : RuntimeConfig)
    (oracle : Op → Answers)
    (order : List Nat)
    (world : World)
    (listed : List PersistentVolume) : Prop where
  completes : (deletionPass runtime oracle order world).2.isOk = true
  alone :
    (deletionPass runtime oracle order world).1 =
      ⟨.listPVs, listed⟩ :: listed.flatMap (aloneCalls runtime oracle world)

variable {runtime : RuntimeConfig}
variable {oracle : Op → Answers}
variable {order : List Nat}

/-- The surroundings list the only PV of a cache. -/
theorem permuted_singleton (pv : PersistentVolume) :
    permuted [0] (VolumeCache.listPVs (ObjectStore.empty.put pv)) =
      some [pv] :=
  rfl

/-- A pass lists the cache and then takes each PV in turn. -/
theorem deletionPass_eq
    {listed : List PersistentVolume}
    (inOrder : permuted order (VolumeCache.listPVs world.cache) = some listed) :
    deletionPass runtime oracle order world =
      let turns :=
        (Program.forEach (reclaimPV runtime) listed).trace exec
          (ordered oracle order) (world.record (.listedPVs listed))
      (⟨.listPVs, listed⟩ :: turns.1, turns.2) := by
  have replied :
      exec .listPVs (ordered oracle order .listPVs) world =
        some (listed, world.record (.listedPVs listed)) := by
    simp only [exec, ordered, inOrder]
    rfl
  exact Program.trace_call_of_some replied

/-- The calls of a pass over one PV are those of its turn. -/
theorem aloneCalls_eq
    {pv : PersistentVolume}
    {after : World}
    {calls : List (Answered syncSignature)}
    (traced :
      (reclaimPV runtime pv).trace exec (ordered oracle [0])
          ({ world with cache := ObjectStore.empty.put pv }.record
            (.listedPVs [pv])) =
        (calls, .ok ((), after))) :
    aloneCalls runtime oracle world pv = calls := by
  unfold aloneCalls
  rw [deletionPass_eq (permuted_singleton pv)]
  show ((Program.bind (reclaimPV runtime pv) _).trace exec _ _).1 = calls
  rw [Program.trace_bind, traced]
  exact List.append_nil calls

/--
The turn of a PV makes the calls of a pass over this PV alone, and changes
nothing that the other PVs see.
-/
theorem trace_reclaimPV
    {pv : PersistentVolume}
    {current : World}
    (safe : ¬ Dereferenced runtime pv)
    (same : World.SameView pv.name current world) :
    ∃ after,
      (reclaimPV runtime pv).trace exec (ordered oracle order) current =
          (aloneCalls runtime oracle world pv, .ok ((), after)) ∧
        ∀ other, other ≠ pv.name → World.SameView other after current := by
  have simulated :
      ∀ op (first second : World),
        Op.About pv.name op →
        (World.SameView pv.name first second ∧
          ∀ other, other ≠ pv.name → World.SameView other first current) →
        ∃ reply firstLater secondLater,
          exec op (ordered oracle order op) first = some (reply, firstLater) ∧
            exec op (ordered oracle [0] op) second =
              some (reply, secondLater) ∧
            op.Truthful reply ∧
            World.SameView pv.name firstLater secondLater ∧
            ∀ other, other ≠ pv.name →
              World.SameView other firstLater current := by
    intro op first second about related
    rw [ordered_of_about about, ordered_of_about about]
    obtain ⟨reply, firstLater, secondLater, inFirst, inSecond, truthful,
        alike⟩ :=
      exec_of_sameView about related.1 (oracle op)
    refine ⟨reply, firstLater, secondLater, inFirst, inSecond, truthful, alike,
      ?_⟩
    intro other apart
    exact (sameView_of_other about apart inFirst).trans (related.2 other apart)
  have alone :
      World.SameView pv.name current
        ({ world with cache := ObjectStore.empty.put pv }.record
          (.listedPVs [pv])) :=
    ⟨same.entry, same.listedJob, same.job, same.stored⟩
  obtain ⟨calls, _, after, _, traced, tracedAlone, _, untouched⟩ :=
    Conforms.trace_of_simulation simulated (keepsTo_reclaimPV safe)
      ⟨alone, fun _ _ => World.SameView.refl current⟩
  rw [aloneCalls_eq tracedAlone]
  exact ⟨after, traced, untouched⟩

/-- The turns of PVs with different names. -/
theorem trace_turns
    {listed : List PersistentVolume}
    {current : World}
    (safe : ∀ pv ∈ listed, ¬ Dereferenced runtime pv)
    (different : (listed.map PersistentVolume.name).Nodup)
    (same : ∀ pv ∈ listed, World.SameView pv.name current world) :
    ∃ after,
      (Program.forEach (reclaimPV runtime) listed).trace exec
          (ordered oracle order) current =
        (listed.flatMap (aloneCalls runtime oracle world),
          .ok ((), after)) := by
  induction listed generalizing current with
  | nil => exact ⟨current, rfl⟩
  | cons pv rest inductionHypothesis =>
      rw [List.map_cons, List.nodup_cons] at different
      obtain ⟨between, traced, untouched⟩ :=
        @trace_reclaimPV world runtime oracle order pv current
          (safe pv List.mem_cons_self) (same pv List.mem_cons_self)
      have sameAfter :
          ∀ other ∈ rest, World.SameView other.name between world := by
        intro other member
        have apart : other.name ≠ pv.name := by
          intro sameName
          rw [← sameName] at different
          exact different.1 (List.mem_map_of_mem member)
        exact (untouched other.name apart).trans
          (same other (List.mem_cons_of_mem _ member))
      obtain ⟨after, tracedRest⟩ :=
        inductionHypothesis
          (fun other member => safe other (List.mem_cons_of_mem _ member))
          different.2 sameAfter
      refine ⟨after, ?_⟩
      rw [Program.forEach, Program.trace_bind, traced, List.flatMap_cons]
      simp only [tracedRest]

/-- A pass crashes in the turn of a PV that it dereferences. -/
theorem trace_reclaimPV_of_dereferenced
    {pv : PersistentVolume}
    (dereferenced : Dereferenced runtime pv)
    (world : World) :
    ((reclaimPV runtime pv).trace exec (ordered oracle order) world).2 =
      .error (.crash "invalid memory address or nil pointer dereference") := by
  obtain ⟨⟨released, live, policy⟩, noSource, known⟩ := dereferenced
  obtain ⟨config, found⟩ := Option.isSome_iff_exists.mp known
  have turn :
      reclaimPV runtime pv =
        reportFailedDelete runtime pv "Unsupported volume type" := by
    unfold reclaimPV deletePV
    rw [if_neg (not_not.mpr released), if_neg (not_not.mpr live), policy,
      if_pos noSource]
    rfl
  rw [turn]
  unfold reportFailedDelete getVolMode getContainerPath
  rw [found, noSource]
  rfl

/-- A loop completes only if each of its turns does. -/
theorem exists_turn_of_completes
    {listed : List PersistentVolume}
    {pv : PersistentVolume}
    (member : pv ∈ listed)
    (completes :
      ((Program.forEach (reclaimPV runtime) listed).trace exec
        (ordered oracle order) world).2.isOk = true) :
    ∃ current,
      ((reclaimPV runtime pv).trace exec (ordered oracle order)
        current).2.isOk = true := by
  induction listed generalizing world with
  | nil => cases member
  | cons first rest inductionHypothesis =>
      rw [Program.forEach, Program.trace_bind] at completes
      split at completes
      · cases completes
      · rename_i calls value later traced
        rcases List.mem_cons.mp member with rfl | inRest
        · exact ⟨world, by rw [traced]; rfl⟩
        · exact inductionHypothesis inRest completes

/--
A deletion pass completes, and does for every PV what it would do if the cache
held that PV alone, exactly if no released PV with policy Delete and a known
class lacks a local volume source.
-/
theorem isolated_iff_not_dereferenced
    {listed : List PersistentVolume}
    (inOrder : permuted order (VolumeCache.listPVs world.cache) = some listed) :
    Isolated runtime oracle order world listed ↔
      ∀ pv ∈ VolumeCache.listPVs world.cache, ¬ Dereferenced runtime pv := by
  have isPermutation := perm_of_permuted inOrder
  constructor
  · intro isolated pv cached dereferenced
    have completes := isolated.completes
    rw [deletionPass_eq inOrder] at completes
    obtain ⟨current, turn⟩ :=
      exists_turn_of_completes (isPermutation.mem_iff.mpr cached) completes
    rw [trace_reclaimPV_of_dereferenced dereferenced] at turn
    cases turn
  · intro safe
    have different : (listed.map PersistentVolume.name).Nodup :=
      (isPermutation.map PersistentVolume.name).nodup_iff.mpr
        (ObjectStore.nodup_names world.cache)
    have recorded :
        ∀ pv ∈ listed,
          World.SameView pv.name (world.record (.listedPVs listed)) world :=
      fun _ _ => ⟨rfl, rfl, rfl, rfl⟩
    obtain ⟨after, traced⟩ :=
      @trace_turns world runtime oracle order listed _
        (fun pv member => safe pv (isPermutation.mem_iff.mp member))
        different recorded
    constructor
    · rw [deletionPass_eq inOrder, traced]
      rfl
    · rw [deletionPass_eq inOrder, traced]

end Passes

/-- A released PV of the sample class. -/
def releasedPV (name : String) : PersistentVolume :=
  { sampleReleasedPV 1 with name }

/-- A released PV of the sample class that is not a local volume. -/
def remotePV : PersistentVolume :=
  { releasedPV "remote" with localSource := none }

/-- A world with two cached PVs. -/
def worldOf (first second : PersistentVolume) : World :=
  { World.empty with
    cache := (ObjectStore.empty.put first).put second }

/-- Every path is a directory, and requests are processed. -/
def directories : Op → Answers :=
  fun _ => { probe := .ok true }

/-- A pass over two local PVs, which starts two cleaners. -/
theorem isolated_of_localPVs :
    permuted [1, 0]
          (VolumeCache.listPVs
            (worldOf (releasedPV "one") (releasedPV "two")).cache) =
        some [releasedPV "one", releasedPV "two"] ∧
      Isolated (sampleRuntime false sampleClasses) directories [1, 0]
        (worldOf (releasedPV "one") (releasedPV "two"))
        [releasedPV "one", releasedPV "two"] := by
  have inOrder :
      permuted [1, 0]
          (VolumeCache.listPVs
            (worldOf (releasedPV "one") (releasedPV "two")).cache) =
        some [releasedPV "one", releasedPV "two"] :=
    rfl
  refine ⟨inOrder, (isolated_iff_not_dereferenced inOrder).mpr ?_⟩
  intro pv cached dereferenced
  have noSource := dereferenced.2.1
  rw [← (perm_of_permuted inOrder).mem_iff] at cached
  simp only [List.mem_cons, List.not_mem_nil, or_false] at cached
  rcases cached with rfl | rfl
  · cases noSource
  · cases noSource

/-- A PV that is not local crashes the pass before another one's turn. -/
theorem crash_before_turn_of_localPV :
    permuted [0, 1]
          (VolumeCache.listPVs (worldOf (releasedPV "one") remotePV).cache) =
        some [remotePV, releasedPV "one"] ∧
      deletionPass (sampleRuntime false sampleClasses) directories [0, 1]
          (worldOf (releasedPV "one") remotePV) =
        ([⟨.listPVs, [remotePV, releasedPV "one"]⟩],
          .error (.crash "invalid memory address or nil pointer dereference")) ∧
      ¬ Isolated (sampleRuntime false sampleClasses) directories [0, 1]
        (worldOf (releasedPV "one") remotePV)
        [remotePV, releasedPV "one"] := by
  have crashed :
      deletionPass (sampleRuntime false sampleClasses) directories [0, 1]
          (worldOf (releasedPV "one") remotePV) =
        ([⟨.listPVs, [remotePV, releasedPV "one"]⟩],
          .error (.crash "invalid memory address or nil pointer dereference")) :=
    rfl
  refine ⟨rfl, crashed, ?_⟩
  intro isolated
  have completes := isolated.completes
  rw [crashed] at completes
  cases completes

end LocalProvisioner
