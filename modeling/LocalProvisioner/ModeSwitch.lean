import LocalProvisioner.CleanerTable
import LocalProvisioner.JobExclusion

namespace LocalProvisioner

open Interleaving

/-!
# Switching between in-process and job-based cleaning

Successive instances may differ in `UseJobForCleaning`, and the listers are
exact.  `CleanupStatusTracker` consults the tracker that the current flag and
the current volume mode select, and only that one.  A cleaning that the other
tracker knows of goes unnoticed, so that a restart with another flag in the
middle of a long cleaning starts a second one.

If the other tracker has no active cleaner for a name whenever one is asked,
there is at most one cleaner for every name at any time, and PVs are neither
deleted nor created while one is active.
-/

/-- No notice is on its way. -/
def listersExact (world : World) : Bool :=
  world.jobNotices.isEmpty && world.pvNotices.isEmpty

/-- Runs of instances with either mode, with exact listers. -/
def switchMode : Conditions where
  configuration := fun _ => True
  restarts := True
  disturbance := fun disturbance _ => disturbance.faithful = true
  call := fun _ _ world => listersExact world = true

instance : switchMode.Executable where
  configuration := fun _ => .isTrue trivial
  restarts := .isTrue trivial
  disturbance := fun _ _ => inferInstanceAs (Decidable (_ = _))
  call := fun _ _ _ => inferInstanceAs (Decidable (_ = _))

/-- Is no in-process cleaner for a PV alive? -/
def noCleaner (world : World) (pvName : String) : Bool :=
  world.cleaners.all fun cleaner => decide (cleaner.pvName ≠ pvName)

/-- When one tracker is asked about a PV, the other has no active cleaner. -/
def otherTrackerIdle (world : World) : Op → Bool
  | .isRunning pvName => !activeJob world.jobs pvName
  | .isCleaningJobRunning pvName => noCleaner world pvName
  | _ => true

/-- Runs in which the tracker that is not asked is idle. -/
def quietSwitchMode : Conditions where
  configuration := switchMode.configuration
  restarts := switchMode.restarts
  disturbance := switchMode.disturbance
  call := fun op _ world =>
    listersExact world = true ∧ otherTrackerIdle world op = true

instance : quietSwitchMode.Executable where
  configuration := fun _ => .isTrue trivial
  restarts := .isTrue trivial
  disturbance := fun _ _ => inferInstanceAs (Decidable (_ = _))
  call := fun _ _ _ => inferInstanceAs (Decidable (_ ∧ _))

/-- How many cleaners of either kind are active for a PV. -/
def activeCleaners (world : World) (pvName : String) : Nat :=
  world.cleaners.countP (fun cleaner => decide (cleaner.pvName = pvName)) +
    if activeJob world.jobs pvName then 1 else 0

/-- The lister will hold the jobs of the API server. -/
def ListerSynced (world : World) : Prop :=
  ∀ name,
    (world.jobNotices.foldl World.handleJobNotice world.jobLister).get name =
      world.jobs.get name

namespace ListerSynced

variable {world later : World}

theorem congr (synced : ListerSynced world) (same : World.SameJobs world later) :
    ListerSynced later := by
  intro name
  rw [same.jobs, same.jobLister, same.jobNotices]
  exact synced name

theorem putJob (synced : ListerSynced world) (job : Job) :
    ListerSynced (world.putJob job) := by
  intro name
  simp only [World.putJob, List.foldl_append, List.foldl_cons,
    List.foldl_nil, World.handleJobNotice, ObjectStore.get_put, synced name]

theorem dropJob (synced : ListerSynced world) (job : Job) :
    ListerSynced (world.dropJob job) := by
  intro name
  simp only [World.dropJob, List.foldl_append, List.foldl_cons,
    List.foldl_nil, World.handleJobNotice, ObjectStore.get_drop, synced name]

/-- The surroundings keep the lister and its notices in step. -/
theorem disturbed
    {runtime : RuntimeConfig}
    {disturbance : Disturbance}
    (synced : ListerSynced world)
    (moved : world.disturb runtime disturbance = some later) :
    ListerSynced later := by
  rcases World.jobs_of_disturb moved with
    same | ⟨_, updated, _, _, same⟩ | ⟨job, same⟩ |
    ⟨notice, rest, pending, same⟩
  · exact synced.congr same
  · exact (synced.putJob updated).congr same
  · exact (synced.dropJob job).congr same
  · refine ListerSynced.congr ?_ same
    intro name
    rw [← synced name, pending]
    rfl

/-- Without notices on their way the lister is exact. -/
theorem activeJob_eq
    (synced : ListerSynced world)
    (exactly : listersExact world = true)
    (pvName : String) :
    activeJob world.jobLister pvName = activeJob world.jobs pvName := by
  have noNotices : world.jobNotices = [] := by
    simp only [listersExact, Bool.and_eq_true, List.isEmpty_iff] at exactly
    exact exactly.1
  have same := synced (generateCleaningJobName pvName)
  rw [noNotices] at same
  exact congrArg (fun job => job.any Job.active) same

end ListerSynced

/-- From the first check on, a pass knows that its PV has no live cleaner. -/
def NoCleanerKnown (world : World) : Phase → Prop
  | .tracking _ .considered => True
  | .tracking purpose _ =>
      ∀ cleaner ∈ world.cleaners, cleaner.pvName ≠ purpose.pvName
  | _ => True

namespace NoCleanerKnown

variable {phase : Phase} {world later : World}

theorem iff_knownOnceChecked :
    NoCleanerKnown world phase ↔
      KnownOnceChecked
        (fun pvName => ∀ cleaner ∈ world.cleaners, cleaner.pvName ≠ pvName)
        phase := by
  rcases phase with _ | _ | _ | ⟨purpose, _ | _ | _ | _⟩ <;> rfl

/-- Cleaners that end keep what is known. -/
theorem mono
    (known : NoCleanerKnown world phase)
    (fewer : ∀ cleaner ∈ later.cleaners, cleaner ∈ world.cleaners) :
    NoCleanerKnown later phase := by
  rw [iff_knownOnceChecked] at known ⊢
  exact known.mono fun _ cleanerless cleaner member =>
    cleanerless cleaner (fewer cleaner member)

/-- Silent steps of a pass. -/
theorem silent
    {next : Phase}
    (moved : Phase.Silent phase next) :
    NoCleanerKnown world next :=
  iff_knownOnceChecked.mpr (.silent moved)

/-- The table answers for the live cleaners. -/
theorem cleanerless_of_idle
    {pvName : String}
    (invariant : TableInvariant world)
    (idle : world.procTable.isRunning pvName = false) :
    ∀ cleaner ∈ world.cleaners, cleaner.pvName ≠ pvName := by
  rintro cleaner member rfl
  have running := invariant.running_of_mem member
  rw [← ProcTable.isRunning_iff, idle] at running
  cases running

/-- Every allowed call carries the knowledge about cleaners along. -/
theorem call
    {scope : Scope}
    {op : Op}
    {answers : Answers}
    {reply : op.Reply}
    (known : NoCleanerKnown world phase)
    (invariant : TableInvariant world)
    (allowed : Allowed scope phase op)
    (quiet : otherTrackerIdle world op = true)
    (executed : exec op answers world = some (reply, later)) :
    NoCleanerKnown later (phase.after op reply) := by
  rw [iff_knownOnceChecked] at known ⊢
  apply known.call allowed executed
  · rintro pvName rfl notBusy
    cases executed
    exact cleanerless_of_idle invariant notBusy
  · rintro pvName rfl _
    cases executed
    simpa [otherTrackerIdle, noCleaner] using quiet
  · intro noCleanerSpawned _ pvName cleanerless
    rcases cleaners_of_exec executed with sameCleaners | ⟨work, _, spawned, _⟩
    · rwa [sameCleaners]
    · exact absurd spawned (noCleanerSpawned work)

end NoCleanerKnown

/-- No PV has both a live cleaner and an active job. -/
def Apart (world : World) : Prop :=
  ∀ cleaner ∈ world.cleaners, activeJob world.jobs cleaner.pvName = false

/-- Without cleaners nothing has to be kept apart. -/
theorem Apart.of_no_cleaners
    {world : World}
    (noCleaners : world.cleaners = []) :
    Apart world := by
  intro cleaner member
  rw [noCleaners] at member
  cases member

/-- Fewer cleaners and further jobs stay apart. -/
theorem Apart.mono
    {world later : World}
    (apart : Apart world)
    (fewer : ∀ cleaner ∈ later.cleaners, cleaner ∈ world.cleaners)
    (progress : JobsProgress world.jobs later.jobs) :
    Apart later :=
  fun cleaner member => progress.idle (apart cleaner (fewer cleaner member))

/-- A job of another PV leaves a PV's job as it is. -/
theorem activeJob_put_of_ne
    {job : Job}
    {pvName : String}
    (other : generateCleaningJobName pvName ≠ job.name)
    (jobs : ObjectStore Job Job.name) :
    activeJob (jobs.put job) pvName = activeJob jobs pvName := by
  unfold activeJob
  rw [ObjectStore.get_put, if_neg other]

/-- Every allowed call keeps cleaners and jobs apart. -/
theorem Apart.call
    {phase : Phase}
    {world later : World}
    {scope : Scope}
    {op : Op}
    {answers : Answers}
    {reply : op.Reply}
    (apart : Apart world)
    (jobless : NoActiveJobKnown world phase)
    (cleanerless : NoCleanerKnown world phase)
    (allowed : Allowed scope phase op)
    (executed : exec op answers world = some (reply, later)) :
    Apart later := by
  rcases cleaners_of_exec executed with sameCleaners | ⟨work, run, rfl, started⟩
  · have fewer : ∀ cleaner ∈ later.cleaners, cleaner ∈ world.cleaners := by
      rw [sameCleaners]
      exact fun _ member => member
    rcases jobs_of_exec executed with
      same | ⟨earlier, updated, stored, progressed, same⟩ | ⟨job, uid, rfl, same⟩
    · exact apart.mono fewer (same.jobs ▸ .refl _)
    · exact apart.mono fewer (same.jobs ▸ .put stored progressed)
    · cases allowed with
      | probe probing => exact probing.elim
      | @createJob listed pv state job named _ =>
          intro cleaner member
          have otherName := cleanerless cleaner (fewer cleaner member)
          rw [same.jobs]
          refine (activeJob_put_of_ne ?_ world.jobs).trans
            (apart cleaner (fewer cleaner member))
          intro sameJob
          exact otherName
            (generateCleaningJobName_injective (sameJob.trans named))
  · have sameJobs : later.jobs = world.jobs := by
      obtain rfl : (world.execSpawnCleaner answers work).2 = later :=
        congrArg Prod.snd (Option.some.inj executed)
      exact (World.SameJobs.execSpawnCleaner answers work).jobs
    cases allowed with
    | probe probing => exact probing.elim
    | spawnCleaner =>
        intro cleaner member
        rw [sameJobs]
        rw [started] at member
        rcases List.mem_cons.mp member with rfl | earlier
        · exact jobless
        · exact apart cleaner earlier

/-- Calls keep the lister and its notices in step. -/
theorem ListerSynced.exec
    {world later : World}
    {op : Op}
    {answers : Answers}
    {reply : op.Reply}
    (synced : ListerSynced world)
    (executed : exec op answers world = some (reply, later)) :
    ListerSynced later := by
  rcases jobs_of_exec executed with
    same | ⟨_, updated, _, _, same⟩ | ⟨job, uid, _, same⟩
  · exact synced.congr same
  · exact (synced.putJob updated).congr same
  · exact (synced.putJob { job with uid := uid }).congr same

/-- The assertions of runs that switch modes. -/
structure SwitchAssertion (phase : Phase) (world : World) : Prop where
  table : TableAssertion phase world
  jobless : NoActiveJobKnown world phase
  cleanerless : NoCleanerKnown world phase
  apart : Apart world
  synced : ListerSynced world

namespace SwitchAssertion

variable {phase : Phase} {world later : World}

/-- With exact listers and an idle other tracker, the one asked is informed. -/
theorem trackerInformed_of_quiet
    {op : Op}
    {answers : Answers}
    (holds : SwitchAssertion phase world)
    (quiet : quietSwitchMode.call op answers world) :
    trackerInformed world op = true := by
  obtain ⟨exactly, idle⟩ := quiet
  cases op with
  | isRunning pvName => exact idle
  | isCleaningJobRunning pvName =>
      simp [trackerInformed, holds.synced.activeJob_eq exactly pvName]
  | _ => rfl

/-- Every allowed call of a quiet run carries the assertions along. -/
theorem call
    {scope : Scope}
    {op : Op}
    {answers : Answers}
    {reply : op.Reply}
    (holds : SwitchAssertion phase world)
    (allowed : Allowed scope phase op)
    (quiet : quietSwitchMode.call op answers world)
    (executed : exec op answers world = some (reply, later)) :
    SwitchAssertion (phase.after op reply) later := by
  have informed := holds.trackerInformed_of_quiet quiet
  constructor
  · exact holds.table.call allowed executed
  · exact holds.jobless.call allowed informed executed
  · exact holds.cleanerless.call holds.table.invariant allowed quiet.2 executed
  · exact holds.apart.call holds.jobless holds.cleanerless allowed executed
  · exact holds.synced.exec executed

/-- No move of the surroundings invalidates an assertion. -/
theorem disturbed
    {runtime : RuntimeConfig}
    {disturbance : Disturbance}
    (holds : SwitchAssertion phase world)
    (moved : world.disturb runtime disturbance = some later) :
    SwitchAssertion phase later := by
  have progress := JobsProgress.disturbed moved
  have fewer : ∀ cleaner ∈ later.cleaners, cleaner ∈ world.cleaners := by
    rcases World.processes_of_disturb moved with
      ⟨index, _, _, _, rfl⟩ | ⟨_, sameCleaners, _⟩
    · exact fun _ member => List.mem_of_mem_eraseIdx member
    · rw [sameCleaners]
      exact fun _ member => member
  constructor
  · exact holds.table.disturbed moved
  · exact holds.jobless.mono progress
  · exact holds.cleanerless.mono fewer
  · exact holds.apart.mono fewer progress
  · exact holds.synced.disturbed moved

end SwitchAssertion

/-- Quiet runs carry the assertions. -/
theorem quietSwitchMode_carried :
    Carried quietSwitchMode .all SwitchAssertion where
  flags := fun _ _ => trivial
  outline := {
    silent := fun moved holds =>
      ⟨holds.table.silent moved, .silent moved, .silent moved, holds.apart,
        holds.synced⟩
    call := fun allowed holds quiet executed =>
      ⟨syncProtocol_admits trivial _ _, holds.call allowed quiet executed⟩
  }
  initially :=
    ⟨⟨.empty, trivial⟩, trivial, trivial, .of_no_cleaners rfl, fun _ => rfl⟩
  disturbed := fun holds _ moved => holds.disturbed moved
  reloaded := fun holds =>
    ⟨holds.table.newInstance, trivial, trivial, holds.apart, fun _ => rfl⟩
  restarted := fun _ _ =>
    ⟨.newProcess, trivial, trivial, .of_no_cleaners rfl,
      fun _ => rfl⟩

/--
At most one cleaner is active for every PV, and none is when the PV is about
to be created or deleted.
-/
structure CleanersExclusive (state : SyncState) : Prop where
  single : ∀ pvName, activeCleaners state.world pvName ≤ 1
  creation :
    ∀ pv next,
      state.rest = .call (.createPV pv) next →
      activeCleaners state.world pv.name = 0
  deletion :
    ∀ pvName next,
      state.rest = .call (.deletePV pvName) next →
      activeCleaners state.world pvName = 0

/-- A PV without a live cleaner and without an active job has no cleaner. -/
theorem activeCleaners_eq_zero
    {world : World}
    {pvName : String}
    (cleanerless : ∀ cleaner ∈ world.cleaners, cleaner.pvName ≠ pvName)
    (jobless : activeJob world.jobs pvName = false) :
    activeCleaners world pvName = 0 := by
  have noneLive :
      world.cleaners.countP
        (fun cleaner => decide (cleaner.pvName = pvName)) = 0 := by
    rw [List.countP_eq_zero]
    simpa using cleanerless
  simp [activeCleaners, noneLive, jobless]

/-- The assertions bound the number of cleaners. -/
theorem SwitchAssertion.activeCleaners_le
    {phase : Phase}
    {world : World}
    (holds : SwitchAssertion phase world)
    (pvName : String) :
    activeCleaners world pvName ≤ 1 := by
  have single :
      world.cleaners.countP
        (fun cleaner => decide (cleaner.pvName = pvName)) ≤ 1 := by
    have counted :=
      List.nodup_iff_count_le_one.mp holds.table.invariant.single pvName
    rw [List.count, List.countP_map] at counted
    exact counted
  cases jobs : activeJob world.jobs pvName with
  | false => simpa [activeCleaners, jobs] using single
  | true =>
      have noneLive :
          world.cleaners.countP
            (fun cleaner => decide (cleaner.pvName = pvName)) = 0 := by
        rw [List.countP_eq_zero]
        intro cleaner member
        simp only [decide_eq_true_eq]
        rintro rfl
        rw [holds.apart cleaner member] at jobs
        cases jobs
      simp [activeCleaners, noneLive, jobs]

/--
In a run in which the other tracker is idle whenever one is asked, cleaners
exclude each other, and creations and deletions.
-/
theorem cleanersExclusive_of_quietSwitch
    {state : SyncState}
    (reaches : quietSwitchMode.Reaches state) :
    CleanersExclusive state := by
  constructor
  · obtain ⟨phase, holds⟩ := quietSwitchMode_carried.assertion_of_reaches reaches
    exact holds.activeCleaners_le
  · intro pv next creating
    obtain ⟨phase, holds, allowed⟩ :=
      quietSwitchMode_carried.atCall reaches creating
    cases allowed with
    | probe probing => exact probing.elim
    | createPV _ =>
        exact activeCleaners_eq_zero holds.cleanerless holds.jobless
  · intro pvName next deleting
    obtain ⟨phase, holds, allowed⟩ :=
      quietSwitchMode_carried.atCall reaches deleting
    cases allowed with
    | probe probing => exact probing.elim
    | deletePV =>
        exact activeCleaners_eq_zero holds.cleanerless holds.jobless

/-- A PV is created, released, and handed to an in-process cleaner. -/
def longCleaningRun : List Action :=
  sampleProvisioning 2 ++ [.call {}, .disturb .deliverPV] ++ sampleCalls 4 ++
    [.disturb (.updatePV (sampleReleasedPV 1)), .disturb .deliverPV] ++
    sampleReclaiming 3

/-- A run that meets the condition, with an active cleaner. -/
theorem cleanersExclusive_of_longCleaningRun :
    ∃ state,
      quietSwitchMode.Reaches state ∧
        activeCleaners state.world sampleName = 1 ∧
        CleanersExclusive state := by
  obtain ⟨state, reaches, checked⟩ :=
    quietSwitchMode.reaches_of_sampleRun false sampleClasses longCleaningRun
      (fun state => decide (activeCleaners state.world sampleName = 1))
      trivial (by decide +kernel)
  exact ⟨state, reaches, of_decide_eq_true checked,
    cleanersExclusive_of_quietSwitch reaches⟩

/--
A PV is created, released, and handed to a job.  Before the job has succeeded,
the provisioner is restarted with in-process cleaning.
-/
def switchedCleaningRun : List Action :=
  sampleProvisioning 2 ++ [.call {}, .disturb .deliverPV] ++ sampleCalls 4 ++
    [.disturb (.updatePV (sampleReleasedPV 1)), .disturb .deliverPV] ++
    sampleReclaiming 4 ++ [.disturb .deliverJob] ++ sampleNoDiscovery ++
    [.restart (sampleRuntime false sampleClasses), .disturb .deliverPV] ++
    sampleReclaiming 3

/-- A restart with in-process cleaning starts a second cleaner. -/
theorem second_cleaner_after_switch :
    ∃ state,
      switchMode.Reaches state ∧
        activeJob state.world.jobs sampleName = true ∧
        1 < activeCleaners state.world sampleName := by
  obtain ⟨state, reaches, checked⟩ :=
    switchMode.reaches_of_sampleRun true sampleClasses switchedCleaningRun
      (fun state =>
        decide (activeJob state.world.jobs sampleName = true ∧
          1 < activeCleaners state.world sampleName))
      trivial (by decide +kernel)
  exact ⟨state, reaches, of_decide_eq_true checked⟩

end LocalProvisioner
