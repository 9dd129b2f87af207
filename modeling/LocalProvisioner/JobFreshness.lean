import LocalProvisioner.SyncLoop

namespace LocalProvisioner

open Interleaving

/-!
# Freshness of job-based cleaning

All instances clean block volumes by jobs.  A cleanup job is named after its
PV, so the job of an earlier incarnation of a PV is found under the name of a
later one: `RemoveJob` looks neither at the UID label nor at the deletion
timestamp.  Since a deleted job stays visible until its finalizer is removed,
its success can license the deletion of an incarnation that was never cleaned.

If no trace of a cleanup job is left when its PV is created again, neither at
the API server nor in the job lister nor on the way to it, every deletion is
preceded by the success of a job of the incarnation at hand.
-/

/-- Only block devices are found, so that cleaning is always by job. -/
def findsBlock : Op → Answers → Bool
  | .isDir _, answers => decide (answers.probe ≠ .ok true)
  | _, _ => true

/-- Runs whose instances all clean by job, on block volumes. -/
def jobBlockMode : Conditions where
  configuration := fun runtime => runtime.useJobForCleaning = true
  restarts := True
  disturbance := fun disturbance _ => disturbance.faithful = true
  call := fun op answers _ => findsBlock op answers = true

instance : jobBlockMode.Executable where
  configuration := fun _ => inferInstanceAs (Decidable (_ = _))
  restarts := .isTrue trivial
  disturbance := fun _ _ => inferInstanceAs (Decidable (_ = _))
  call := fun _ _ _ => inferInstanceAs (Decidable (_ = _))

/-- No trace of the cleanup job of a PV is left. -/
def JobGone (world : World) (pvName : String) : Prop :=
  world.jobs.get (generateCleaningJobName pvName) = none ∧
    world.jobLister.get (generateCleaningJobName pvName) = none ∧
    ∀ notice ∈ world.jobNotices,
      notice.object.name ≠ generateCleaningJobName pvName

/-- Runs in which a PV is created only when its cleanup job is gone. -/
def goneJobMode : Conditions where
  configuration := jobBlockMode.configuration
  restarts := jobBlockMode.restarts
  disturbance := jobBlockMode.disturbance
  call := fun op answers world =>
    findsBlock op answers = true ∧
      ∀ pvName ∈ op.createdName, JobGone world pvName

instance (world : World) (pvName : String) :
    Decidable (JobGone world pvName) :=
  inferInstanceAs (Decidable (_ ∧ _ ∧ _))

instance : goneJobMode.Executable where
  configuration := fun _ => inferInstanceAs (Decidable (_ = _))
  restarts := .isTrue trivial
  disturbance := fun _ _ => inferInstanceAs (Decidable (_ = _))
  call := fun _ _ _ => inferInstanceAs (Decidable (_ ∧ _))

/-- The scope of job-based cleaning of block volumes. -/
def jobBlockScope : Scope where
  flags := fun flag => flag = true
  directories := False

/-- Is this the creation of a given PV at the API server? -/
def Event.creates (pvName : String) : Event → Bool
  | .pvCreated created _ => created == pvName
  | _ => false

/-- What has happened since the latest incarnation of a PV was created. -/
def sinceCreation (pvName : String) (history : List Event) : List Event :=
  history.takeWhile fun event => !event.creates pvName

/--
The latest incarnation of a PV has been cleaned: a cleanup job was created
after it, and that job has succeeded.
-/
def FreshlyCleaned (past : List Event) (pvName : String) : Prop :=
  ∃ uid,
    .jobCreated (generateCleaningJobName pvName) uid ∈
        sinceCreation pvName past ∧
      .jobSucceeded (generateCleaningJobName pvName) uid ∈
        sinceCreation pvName past

theorem sinceCreation_cons
    {pvName : String}
    {event : Event}
    (notCreated : event.creates pvName = false)
    (history : List Event) :
    sinceCreation pvName (event :: history) =
      event :: sinceCreation pvName history := by
  simp [sinceCreation, notCreated]

/-- Events other than a new creation keep an incarnation clean. -/
theorem FreshlyCleaned.cons
    {past : List Event}
    {pvName : String}
    {event : Event}
    (cleaned : FreshlyCleaned past pvName)
    (notCreated : event.creates pvName = false) :
    FreshlyCleaned (event :: past) pvName := by
  obtain ⟨uid, created, succeeded⟩ := cleaned
  rw [FreshlyCleaned, sinceCreation_cons notCreated]
  exact ⟨uid, List.mem_cons_of_mem _ created,
    List.mem_cons_of_mem _ succeeded⟩

/-- A job that exists at the API server, in the lister, or in a notice. -/
def Known (world : World) (job : Job) : Prop :=
  world.jobs.get job.name = some job ∨
    world.jobLister.get job.name = some job ∨
    .updated job ∈ world.jobNotices

/-- A job that was created for the latest incarnation of its PV. -/
def OfIncarnation (history : List Event) (job : Job) : Prop :=
  ∀ pvName,
    job.name = generateCleaningJobName pvName →
    .jobCreated job.name job.uid ∈ sinceCreation pvName history ∧
      (job.succeeded ≠ 0 →
        .jobSucceeded job.name job.uid ∈ sinceCreation pvName history)

/-- Events other than a creation of its PV keep a job current. -/
theorem OfIncarnation.cons
    {history : List Event}
    {job : Job}
    {event : Event}
    (current : OfIncarnation history job)
    (notCreated :
      ∀ pvName,
        job.name = generateCleaningJobName pvName →
        event.creates pvName = false) :
    OfIncarnation (event :: history) job := by
  intro pvName named
  obtain ⟨created, succeeded⟩ := current pvName named
  rw [sinceCreation_cons (notCreated pvName named)]
  exact ⟨List.mem_cons_of_mem _ created,
    fun finished => List.mem_cons_of_mem _ (succeeded finished)⟩

/-- A succeeded job of an incarnation has cleaned it. -/
theorem OfIncarnation.freshlyCleaned
    {history : List Event}
    {job : Job}
    {pvName : String}
    (current : OfIncarnation history job)
    (named : job.name = generateCleaningJobName pvName)
    (finished : job.succeeded ≠ 0) :
    FreshlyCleaned history pvName := by
  obtain ⟨created, succeeded⟩ := current pvName named
  rw [named] at created succeeded
  exact ⟨job.uid, created, succeeded finished⟩

/-- Known jobs are current, and every deletion follows a cleaning. -/
structure JobInvariant (world : World) : Prop where
  current : ∀ job, Known world job → OfIncarnation world.history job
  deletions :
    ∀ pvName past,
      .deletePVIssued pvName :: past <:+ world.history →
      FreshlyCleaned past pvName

namespace JobInvariant

variable {world later : World}

/-- Forgetting jobs keeps the invariant. -/
theorem forget
    (invariant : JobInvariant world)
    (known : ∀ job, Known later job → Known world job)
    (sameHistory : later.history = world.history) :
    JobInvariant later := by
  refine ⟨?_, ?_⟩
  · intro job knownLater
    rw [sameHistory]
    exact invariant.current job (known job knownLater)
  · rw [sameHistory]
    exact invariant.deletions

/-- Recording an event that creates no PV and is no unlicensed deletion. -/
theorem record
    {event : Event}
    (invariant : JobInvariant world)
    (notCreated : ∀ pvName, event.creates pvName = false)
    (cleaned :
      ∀ pvName,
        event = .deletePVIssued pvName →
        FreshlyCleaned world.history pvName) :
    JobInvariant (world.record event) := by
  refine ⟨?_, ?_⟩
  · intro job known
    exact (invariant.current job known).cons fun pvName _ =>
      notCreated pvName
  · intro pvName past issued
    rcases List.suffix_cons_iff.mp issued with here | earlier
    · cases here
      exact cleaned pvName rfl
    · exact invariant.deletions pvName past earlier

/-- After a job is stored, only it is newly known. -/
theorem known_putJob
    {job other : Job}
    (known : Known (world.putJob job) other) :
    other = job ∨ Known world other := by
  rcases known with stored | listed | noticed
  · simp only [World.putJob] at stored
    rw [ObjectStore.get_put] at stored
    split at stored
    · cases stored
      exact .inl rfl
    · exact .inr (.inl stored)
  · exact .inr (.inr (.inl listed))
  · rcases List.mem_append.mp noticed with older | newest
    · exact .inr (.inr (.inr older))
    · simp only [List.mem_singleton, Notice.updated.injEq] at newest
      exact .inl newest

/-- Storing a current job keeps the invariant. -/
theorem putJob
    {job : Job}
    (invariant : JobInvariant world)
    (current : OfIncarnation world.history job) :
    JobInvariant (world.putJob job) := by
  refine ⟨?_, invariant.deletions⟩
  intro other known
  rcases known_putJob known with rfl | known
  · exact current
  · exact invariant.current other known

/-- Removing a job keeps the invariant. -/
theorem dropJob
    (invariant : JobInvariant world)
    (job : Job) :
    JobInvariant (world.dropJob job) := by
  refine invariant.forget ?_ rfl
  rintro other (stored | listed | noticed)
  · exact .inl (ObjectStore.get_of_get_drop stored)
  · exact .inr (.inl listed)
  · simp only [World.dropJob, List.mem_append, List.mem_singleton,
      reduceCtorEq, or_false] at noticed
    exact .inr (.inr noticed)

/-- A new job is current until its PV is created again. -/
theorem admitJob
    {job : Job}
    {uid : Nat}
    (invariant : JobInvariant world)
    (unfinished : job.succeeded = 0) :
    JobInvariant (world.admitJob uid job) := by
  have recorded :
      JobInvariant (world.record (.jobCreated job.name uid)) :=
    invariant.record (fun _ => rfl) nofun
  have current :
      OfIncarnation
        (world.record (.jobCreated job.name uid)).history
        { job with uid } := by
    intro pvName _
    simp only [World.record]
    rw [sinceCreation_cons rfl]
    exact ⟨by simp, fun finished => (finished unfinished).elim⟩
  exact (recorded.putJob current).forget (fun _ known => known) rfl

/-- A job that succeeds has cleaned the incarnation it was created for. -/
theorem succeedJob
    {job : Job}
    (invariant : JobInvariant world)
    (known : Known world job) :
    JobInvariant (world.succeedJob job) := by
  have recorded :
      JobInvariant (world.record (.jobSucceeded job.name job.uid)) :=
    invariant.record (fun _ => rfl) nofun
  have current :
      OfIncarnation
        (world.record (.jobSucceeded job.name job.uid)).history
        { job with succeeded := 1 } := by
    intro pvName named
    obtain ⟨created, _⟩ := invariant.current job known pvName named
    simp only [World.record]
    rw [sinceCreation_cons rfl]
    exact ⟨List.mem_cons_of_mem _ created, fun _ => by simp⟩
  exact (recorded.putJob current).forget (fun _ known => known) rfl

/-- A delivered notice tells the lister nothing that was not known. -/
theorem deliverJob
    {notice : Notice Job}
    {rest : List (Notice Job)}
    (invariant : JobInvariant world)
    (pending : world.jobNotices = notice :: rest) :
    JobInvariant { world with
      jobNotices := rest
      jobLister := World.handleJobNotice world.jobLister notice } := by
  have older : ∀ item ∈ rest, item ∈ world.jobNotices := by
    intro item member
    rw [pending]
    exact List.mem_cons_of_mem _ member
  refine invariant.forget ?_ rfl
  rintro job (stored | listed | noticed)
  · exact .inl stored
  · cases notice with
    | updated received =>
        simp only [World.handleJobNotice] at listed
        rw [ObjectStore.get_put] at listed
        split at listed
        · cases listed
          refine .inr (.inr ?_)
          rw [pending]
          exact List.mem_cons_self
        · exact .inr (.inl listed)
    | deleted received =>
        exact .inr (.inl (ObjectStore.get_of_get_drop listed))
  · exact .inr (.inr (older _ noticed))

/-- A new instance lists the jobs of the API server. -/
theorem newInstance (invariant : JobInvariant world) :
    JobInvariant world.newInstance := by
  refine invariant.forget ?_ rfl
  rintro job (stored | listed | noticed)
  · exact .inl stored
  · exact .inl listed
  · cases noticed

/-- No move of the surroundings breaks the invariant. -/
theorem disturbed
    {runtime : RuntimeConfig}
    {disturbance : Disturbance}
    (invariant : JobInvariant world)
    (moved : world.disturb runtime disturbance = some later) :
    JobInvariant later := by
  cases World.move_of_disturb moved with
  | cleanerEnded index cleaner performed _ =>
      have recorded :
          JobInvariant
            (world.record (.cleanerEnded cleaner.run cleaner.pvName
              (cleaningOutcome cleaner.work performed))) :=
        invariant.record (fun _ => rfl) nofun
      exact recorded.forget (fun _ known => known) rfl
  | succeededJob job stored _ =>
      exact invariant.succeedJob (.inl stored)
  | markedJob job now stored =>
      exact invariant.putJob (invariant.current job (.inl stored))
  | removedJob job =>
      exact invariant.dropJob job
  | listedJob notice rest pending =>
      exact invariant.deliverJob pending
  | cached | updatedPV | removedPV =>
      exact invariant.forget (fun _ known => known) rfl

/-- Marking a job as deleted keeps it current. -/
theorem deleteJob
    (invariant : JobInvariant world)
    (answers : Answers)
    (jobName : String) :
    JobInvariant (world.execDeleteJob answers jobName).2 := by
  unfold World.execDeleteJob
  split
  · exact invariant
  · split
    · exact invariant
    · rename_i job stored
      exact invariant.putJob
        (invariant.current job (.inl (ObjectStore.get_name stored)))

/-- Submitting a job that has not run yet. -/
theorem createJob
    {job : Job}
    (invariant : JobInvariant world)
    (unfinished : job.succeeded = 0)
    (answers : Answers) :
    JobInvariant (world.execCreateJob answers job).2 := by
  unfold World.execCreateJob
  split
  · exact invariant
  · split
    · exact invariant
    · exact invariant.admitJob unfinished

/-- Issuing the deletion of a PV that has been cleaned. -/
theorem deletePV
    {pvName : String}
    (invariant : JobInvariant world)
    (cleaned : FreshlyCleaned world.history pvName)
    (answers : Answers) :
    JobInvariant (world.execDeletePV answers pvName).2 := by
  have issued : JobInvariant (world.record (.deletePVIssued pvName)) := by
    refine invariant.record (fun _ => rfl) ?_
    rintro other ⟨⟩
    exact cleaned
  unfold World.execDeletePV
  split
  · exact issued
  · split
    · exact issued
    · split
      · exact issued.forget (fun _ known => known) rfl
      · exact issued.forget (fun _ known => known) rfl

/-- A PV may be created once its cleanup job is gone. -/
theorem createPV
    {pv : PersistentVolume}
    (invariant : JobInvariant world)
    (gone : JobGone world pv.name)
    (answers : Answers) :
    JobInvariant (world.execCreatePV answers pv).2 := by
  have unknown :
      ∀ job,
        Known world job →
        job.name ≠ generateCleaningJobName pv.name := by
    obtain ⟨notStored, notListed, notNoticed⟩ := gone
    rintro job (stored | listed | noticed) named
    · rw [named, notStored] at stored
      cases stored
    · rw [named, notListed] at listed
      cases listed
    · exact notNoticed _ noticed named
  have issued :
      JobInvariant (world.record (.createPVIssued pv.name)) :=
    invariant.record (fun _ => rfl) nofun
  have admitted :
      JobInvariant
        ((world.record (.createPVIssued pv.name)).admitPV
          (world.freshUID answers) pv) := by
    refine ⟨?_, ?_⟩
    · intro job known
      have knownBefore : Known world job := known
      refine (issued.current job knownBefore).cons ?_
      intro pvName named
      simp only [Event.creates, beq_eq_false_iff_ne]
      rintro rfl
      exact unknown job knownBefore named
    · intro pvName past deleted
      rcases List.suffix_cons_iff.mp deleted with here | earlier
      · cases here
      · exact issued.deletions pvName past earlier
  unfold World.execCreatePV
  split
  · exact issued
  · split
    · exact issued
    · exact admitted

end JobInvariant

/-- What a pass knows about the job of the PV it deals with. -/
def JobStageKnown (history : List Event) (pvName : String) : Stage → Prop
  | .considered => True
  | .checked isJob => isJob = true
  | .found job => job.succeeded ≠ 0 → FreshlyCleaned history pvName
  | .cleared isJob state =>
      isJob = true ∧
        (state = .succeeded → FreshlyCleaned history pvName)

/-- What a pass knows about jobs. -/
def JobKnown (history : List Event) : Phase → Prop
  | .tracking purpose stage => JobStageKnown history purpose.pvName stage
  | _ => True

/-- The assertions that job-based cleaning carries through its phases. -/
structure JobAssertion (phase : Phase) (world : World) : Prop where
  invariant : JobInvariant world
  known : JobKnown world.history phase

theorem JobKnown.home (history : List Event) (purpose : Purpose) :
    JobKnown history purpose.home := by
  cases purpose <;> trivial

/-- What is known about jobs survives as long as clean PVs stay clean. -/
theorem JobKnown.mono
    {history later : List Event}
    {phase : Phase}
    (known : JobKnown history phase)
    (cleaned :
      ∀ pvName, FreshlyCleaned history pvName → FreshlyCleaned later pvName) :
    JobKnown later phase := by
  rcases phase with _ | _ | _ | ⟨purpose, _ | isJob | job | ⟨isJob, state⟩⟩
  · trivial
  · trivial
  · trivial
  · trivial
  · exact known
  · exact fun finished => cleaned _ (known finished)
  · exact ⟨known.1, fun succeeded => cleaned _ (known.2 succeeded)⟩

namespace JobAssertion

variable {phase : Phase} {world later : World}

/-- Silent steps of a pass. -/
theorem silent
    {next : Phase}
    (holds : JobAssertion phase world)
    (moved : Phase.Silent phase next) :
    JobAssertion next world := by
  refine ⟨holds.invariant, ?_⟩
  cases moved with
  | pick _ _ => trivial
  | giveUp => exact JobKnown.home _ _
  | finishScan => trivial

/-- No move of the surroundings invalidates an assertion. -/
theorem disturbed
    {runtime : RuntimeConfig}
    {disturbance : Disturbance}
    (holds : JobAssertion phase world)
    (moved : world.disturb runtime disturbance = some later) :
    JobAssertion phase later := by
  refine ⟨holds.invariant.disturbed moved, holds.known.mono ?_⟩
  intro pvName cleaned
  rcases World.processes_of_disturb moved with
    ⟨index, cleaner, performed, _, rfl⟩ |
    ⟨_, _, sameHistory | ⟨jobName, uid, recorded⟩⟩
  · exact cleaned.cons rfl
  · rwa [sameHistory]
  · rw [recorded]
    exact cleaned.cons rfl

/-- Every allowed call carries the assertions along. -/
theorem call
    {op : Op}
    {answers : Answers}
    {reply : op.Reply}
    (holds : JobAssertion phase world)
    (allowed : Allowed jobBlockScope phase op)
    (permitted : goneJobMode.call op answers world)
    (executed : exec op answers world = some (reply, later)) :
    JobAssertion (phase.after op reply) later := by
  have invariant := holds.invariant
  cases allowed with
  | probe probing =>
      obtain ⟨reports, ready, rfl⟩ := exec_of_probing probing executed
      rw [Phase.after_of_probing probing]
      exact ⟨invariant.forget (fun _ known => known) rfl, holds.known⟩
  | list =>
      obtain ⟨listed, _, same⟩ := Option.map_eq_some_iff.mp executed
      cases same
      exact ⟨invariant.record (fun _ => rfl) (by rintro _ ⟨⟩), trivial⟩
  | get =>
      cases executed
      refine ⟨invariant, ?_⟩
      simp only [Phase.after]
      split <;> trivial
  | lookup =>
      cases executed
      refine ⟨invariant, ?_⟩
      simp only [Phase.after]
      split <;> trivial
  | askProcess tracked => rcases tracked with flag | directories <;> contradiction
  | @askJob purpose _ =>
      cases executed
      refine ⟨invariant, ?_⟩
      simp only [Phase.after]
      split
      · exact JobKnown.home _ purpose
      · rfl
  | takeEntry => cases holds.known
  | @findJob purpose =>
      cases executed
      refine ⟨invariant, ?_⟩
      simp only [Phase.after]
      split
      · rename_i job listed
        have inLister := World.get_of_listedJob listed
        have current :=
          invariant.current job (.inr (.inl (ObjectStore.get_name inLister)))
        exact current.freshlyCleaned (ObjectStore.name_of_get inLister)
      · exact ⟨rfl, by rintro ⟨⟩⟩
      · exact JobKnown.home _ purpose
  | @takeJob purpose job namespaceName finished =>
      obtain rfl : (world.execDeleteJob answers job.name).2 = later :=
        congrArg Prod.snd (Option.some.inj executed)
      refine ⟨invariant.deleteJob answers job.name, ?_⟩
      rw [World.history_execDeleteJob]
      simp only [Phase.after]
      split
      · exact ⟨rfl, fun _ => holds.known finished⟩
      · exact JobKnown.home _ purpose
  | @deletePV listed pv isJob =>
      obtain rfl : (world.execDeletePV answers pv.name).2 = later :=
        congrArg Prod.snd (Option.some.inj executed)
      exact ⟨invariant.deletePV (holds.known.2 rfl) answers, trivial⟩
  | spawnCleaner => cases holds.known.1
  | createJob _ unfinished =>
      obtain rfl : (world.execCreateJob answers _).2 = later :=
        congrArg Prod.snd (Option.some.inj executed)
      exact ⟨invariant.createJob unfinished answers, trivial⟩
  | createPV _ =>
      obtain rfl : (world.execCreatePV answers _).2 = later :=
        congrArg Prod.snd (Option.some.inj executed)
      exact ⟨invariant.createPV (permitted.2 _ rfl) answers, trivial⟩

end JobAssertion

/-- Block answers never report a directory. -/
theorem admits_of_findsBlock
    {op : Op}
    {answers : Answers}
    {world later : World}
    {reply : op.Reply}
    (block : findsBlock op answers = true)
    (executed : exec op answers world = some (reply, later)) :
    (syncProtocol jobBlockScope).admits op reply := by
  cases op with
  | isDir path =>
      cases executed
      exact .inr (of_decide_eq_true block)
  | _ => trivial

/-- Job-based cleaning carries its assertions through every such run. -/
theorem goneJobMode_carried :
    Carried goneJobMode jobBlockScope JobAssertion where
  flags := fun _ admitted => admitted
  outline := {
    silent := fun moved holds => holds.silent moved
    call := fun allowed holds permitted executed =>
      ⟨admits_of_findsBlock permitted.1 executed,
        holds.call allowed permitted executed⟩
  }
  initially := by
    refine ⟨⟨?_, ?_⟩, trivial⟩
    · rintro job (stored | listed | noticed)
      · simp [World.empty] at stored
      · simp [World.empty] at listed
      · simp [World.empty] at noticed
    · simp [World.empty]
  disturbed := fun holds _ moved => holds.disturbed moved
  reloaded := fun holds => ⟨holds.invariant.newInstance, trivial⟩
  restarted := fun _ holds =>
    ⟨holds.invariant.newInstance.forget (fun _ known => known) rfl, trivial⟩

/-- A PV is created, released, cleaned by a job, and deleted. -/
def jobCycleRun : List Action :=
  sampleProvisioning 2 ++ sampleCalls 5 ++ sampleRelease 1 ++
    sampleReclaiming 4 ++ sampleNoDiscovery ++
    [.disturb (.jobSucceeds (generateCleaningJobName sampleName)),
      .disturb .deliverJob, .disturb .deliverJob] ++
    sampleReclaiming 4

/--
The job, deleted in the foreground, is still listed as succeeded when the PV
is created again, and when the second incarnation is released.
-/
def staleJobRun : List Action :=
  jobCycleRun ++ sampleCalls 2 ++ sampleNoDiscovery ++
    .disturb .deliverPV :: sampleProvisioning 3 ++ sampleCalls 5 ++
    sampleRelease 3 ++ sampleReclaiming 4

/-- The latest event deletes an incarnation without a cleanup job. -/
def deletesUncleaned : List Event → Bool
  | .deletePVIssued pvName :: past =>
      (sinceCreation pvName past).all fun event =>
        match event with
        | .jobCreated _ _ => false
        | _ => true
  | _ => false

/-- An incarnation without a cleanup job has not been cleaned. -/
theorem not_freshlyCleaned_of_deletesUncleaned
    {history : List Event}
    (uncleaned : deletesUncleaned history = true) :
    ∃ pvName past,
      .deletePVIssued pvName :: past <:+ history ∧
        ¬ FreshlyCleaned past pvName := by
  unfold deletesUncleaned at uncleaned
  split at uncleaned
  · rename_i pvName past
    refine ⟨pvName, past, List.suffix_rfl, ?_⟩
    rintro ⟨uid, created, _⟩
    have unseen := List.all_eq_true.mp uncleaned _ created
    cases unseen
  · cases uncleaned

/-- A stale job licenses the deletion of an incarnation that was not cleaned. -/
theorem stale_job_licenses_deletion :
    ∃ state pvName past,
      jobBlockMode.Reaches state ∧
        .deletePVIssued pvName :: past <:+ state.world.history ∧
        ¬ FreshlyCleaned past pvName := by
  obtain ⟨state, reaches, uncleaned⟩ :=
    jobBlockMode.reaches_of_sampleRun true sampleClasses staleJobRun
      (fun state => deletesUncleaned state.world.history) rfl
      (by decide +kernel)
  obtain ⟨pvName, past, issued, notCleaned⟩ :=
    not_freshlyCleaned_of_deletesUncleaned uncleaned
  exact ⟨state, pvName, past, reaches, issued, notCleaned⟩

/--
If a PV is created only when its cleanup job is gone, every issued deletion of
a PV is preceded by the success of a job that was created after the latest
incarnation of the PV.
-/
theorem deletions_freshlyCleaned
    {state : SyncState}
    (reaches : goneJobMode.Reaches state) :
    ∀ pvName past,
      .deletePVIssued pvName :: past <:+ state.world.history →
      FreshlyCleaned past pvName := by
  obtain ⟨phase, holds⟩ := goneJobMode_carried.assertion_of_reaches reaches
  exact holds.invariant.deletions

/-- A run that meets the condition and deletes a cleaned PV. -/
theorem deletions_freshlyCleaned_of_jobCycleRun :
    ∃ state pvName past,
      goneJobMode.Reaches state ∧
        .deletePVIssued pvName :: past <:+ state.world.history ∧
        FreshlyCleaned past pvName := by
  obtain ⟨state, reaches, deleted⟩ :=
    goneJobMode.reaches_of_sampleRun true sampleClasses jobCycleRun
      (fun state => endsInDeletion state.world.history) rfl
      (by decide +kernel)
  obtain ⟨pvName, past, issued⟩ := deletePVIssued_of_endsInDeletion deleted
  exact ⟨state, pvName, past, reaches, issued,
    deletions_freshlyCleaned reaches pvName past issued⟩

end LocalProvisioner
