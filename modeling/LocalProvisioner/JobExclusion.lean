import LocalProvisioner.SyncLoop

namespace LocalProvisioner

open Interleaving

/-!
# Creation during job-based cleaning

All instances have `UseJobForCleaning` set.  The comment on `runJob` promises
that a cleaning job keeps its PV from being created again, even if a user
deletes the PV.  The discoverer learns of jobs from the job lister and of PVs
from the cache, and the two lag independently: if the cache has heard of the
deletion before the lister has heard of the job, the PV is created while the
job is running.

The promise holds in every run in which the tracker that is asked about a name
knows of its active job.
-/

/-- A job that has not succeeded. -/
def Job.active (job : Job) : Bool :=
  decide (job.succeeded ≤ 0)

/-- Does a store hold an active cleanup job for a PV? -/
def activeJob (jobs : ObjectStore Job Job.name) (pvName : String) : Bool :=
  (jobs.get (generateCleaningJobName pvName)).any Job.active

/-- Runs whose instances all have `UseJobForCleaning` set. -/
def jobMode : Conditions where
  configuration := fun runtime => runtime.useJobForCleaning = true
  restarts := True
  disturbance := fun disturbance _ => disturbance.faithful = true
  call := fun _ _ _ => True

instance : jobMode.Executable where
  configuration := fun _ => inferInstanceAs (Decidable (_ = _))
  restarts := .isTrue trivial
  disturbance := fun _ _ => inferInstanceAs (Decidable (_ = _))
  call := fun _ _ _ => .isTrue trivial

/--
The tracker that is asked whether a PV is being cleaned knows of its active
job: the lister if it holds the job too, the table only if there is none.
-/
def trackerInformed (world : World) : Op → Bool
  | .isRunning pvName => !activeJob world.jobs pvName
  | .isCleaningJobRunning pvName =>
      !activeJob world.jobs pvName || activeJob world.jobLister pvName
  | _ => true

/-- Runs in which the tracker that is asked is informed. -/
def informedJobMode : Conditions where
  configuration := jobMode.configuration
  restarts := jobMode.restarts
  disturbance := jobMode.disturbance
  call := fun op _ world => trackerInformed world op = true

instance : informedJobMode.Executable where
  configuration := fun _ => inferInstanceAs (Decidable (_ = _))
  restarts := .isTrue trivial
  disturbance := fun _ _ => inferInstanceAs (Decidable (_ = _))
  call := fun _ _ _ => inferInstanceAs (Decidable (_ = _))

/-- The scope of job mode: both trackers may be consulted. -/
def jobScope : Scope where
  flags := fun flag => flag = true
  directories := True

/-- Every job afterwards was there before, and has not become active. -/
def JobsProgress (before after : ObjectStore Job Job.name) : Prop :=
  ∀ name later,
    after.get name = some later →
    ∃ earlier,
      before.get name = some earlier ∧ earlier.succeeded ≤ later.succeeded

namespace JobsProgress

variable {before after : ObjectStore Job Job.name}

theorem refl (jobs : ObjectStore Job Job.name) : JobsProgress jobs jobs :=
  fun _ later found => ⟨later, found, Int.le_refl _⟩

/-- Replacing a job by one that has made progress. -/
theorem put
    {earlier later : Job}
    (found : before.get later.name = some earlier)
    (progressed : earlier.succeeded ≤ later.succeeded) :
    JobsProgress before (before.put later) := by
  intro name other present
  rw [ObjectStore.get_put] at present
  split at present
  · rename_i same
    cases present
    rw [same]
    exact ⟨earlier, found, progressed⟩
  · exact ⟨other, present, Int.le_refl _⟩

/-- Removing a job. -/
theorem drop (name : String) : JobsProgress before (before.drop name) :=
  fun _ later found => ⟨later, ObjectStore.get_of_get_drop found, Int.le_refl _⟩

/-- Progress never makes a PV's job active. -/
theorem idle
    {pvName : String}
    (progress : JobsProgress before after)
    (notActive : activeJob before pvName = false) :
    activeJob after pvName = false := by
  unfold activeJob at notActive ⊢
  cases found : after.get (generateCleaningJobName pvName) with
  | none => rfl
  | some later =>
      obtain ⟨earlier, present, progressed⟩ := progress _ later found
      simp only [present, Option.any_some, Job.active,
        decide_eq_false_iff_not] at notActive
      simp only [Option.any_some, Job.active, decide_eq_false_iff_not]
      omega

/-- The surroundings create no jobs. -/
theorem disturbed
    {world later : World}
    {runtime : RuntimeConfig}
    {disturbance : Disturbance}
    (moved : world.disturb runtime disturbance = some later) :
    JobsProgress world.jobs later.jobs := by
  rcases World.jobs_of_disturb moved with
    same | ⟨earlier, updated, stored, progressed, same⟩ | ⟨job, same⟩ |
    ⟨notice, rest, _, same⟩
  · rw [same.jobs]
    exact refl _
  · rw [same.jobs]
    exact put stored progressed
  · rw [same.jobs]
    exact drop job.name
  · rw [same.jobs]
    exact refl _

/-- Only the creation of a job can make one active. -/
theorem exec
    {op : Op}
    {answers : Answers}
    {world later : World}
    {reply : op.Reply}
    (executed : exec op answers world = some (reply, later))
    (noJobCreated : ∀ job, op ≠ .createJob job) :
    JobsProgress world.jobs later.jobs := by
  rcases jobs_of_exec executed with
    same | ⟨earlier, updated, stored, progressed, same⟩ | ⟨job, _, created, _⟩
  · rw [same.jobs]
    exact refl _
  · rw [same.jobs]
    exact put stored progressed
  · exact absurd created (noJobCreated job)

end JobsProgress

/-- An idle answer of the lister means that it holds no active job. -/
theorem activeJob_of_idle_answer
    {world : World}
    {answers : Answers}
    {pvName : String}
    (idle :
      isCleaningJobRunning
        (world.listedJob answers (generateCleaningJobName pvName)) = false) :
    activeJob world.jobLister pvName = false := by
  unfold activeJob
  cases found : world.jobLister.get (generateCleaningJobName pvName) with
  | none => rfl
  | some job =>
      unfold World.listedJob at idle
      split at idle
      · cases idle
      · simpa [found, isCleaningJobRunning, Job.active] using idle

/-- From the first check on, a pass knows that its PV has no active job. -/
def NoActiveJobKnown (world : World) : Phase → Prop
  | .tracking _ .considered => True
  | .tracking purpose _ => activeJob world.jobs purpose.pvName = false
  | _ => True

namespace NoActiveJobKnown

variable {phase : Phase} {world later : World}

theorem iff_knownOnceChecked :
    NoActiveJobKnown world phase ↔
      KnownOnceChecked (fun pvName => activeJob world.jobs pvName = false)
        phase := by
  rcases phase with _ | _ | _ | ⟨purpose, _ | _ | _ | _⟩ <;> rfl

/-- Progress of the jobs keeps what is known. -/
theorem mono
    (known : NoActiveJobKnown world phase)
    (progress : JobsProgress world.jobs later.jobs) :
    NoActiveJobKnown later phase := by
  rw [iff_knownOnceChecked] at known ⊢
  exact known.mono fun _ idle => progress.idle idle

/-- Silent steps of a pass. -/
theorem silent
    {next : Phase}
    (moved : Phase.Silent phase next) :
    NoActiveJobKnown world next :=
  iff_knownOnceChecked.mpr (.silent moved)

/-- Every allowed call of an informed run carries the knowledge along. -/
theorem call
    {scope : Scope}
    {op : Op}
    {answers : Answers}
    {reply : op.Reply}
    (known : NoActiveJobKnown world phase)
    (allowed : Allowed scope phase op)
    (informed : trackerInformed world op = true)
    (executed : exec op answers world = some (reply, later)) :
    NoActiveJobKnown later (phase.after op reply) := by
  rw [iff_knownOnceChecked] at known ⊢
  apply known.call allowed executed
  · rintro pvName rfl _
    cases executed
    simpa [trackerInformed] using informed
  · rintro pvName rfl notBusy
    cases executed
    simpa [trackerInformed, activeJob_of_idle_answer notBusy] using informed
  · intro _ noJobCreated pvName idle
    exact (JobsProgress.exec executed noJobCreated).idle idle

end NoActiveJobKnown

/-- Informed runs carry the knowledge about active jobs. -/
theorem informedJobMode_carried :
    Carried informedJobMode jobScope
      fun phase world => NoActiveJobKnown world phase where
  flags := fun _ admitted => admitted
  outline := {
    silent := fun moved _ => NoActiveJobKnown.silent moved
    call := fun allowed known informed executed =>
      ⟨syncProtocol_admits trivial _ _,
        known.call allowed informed executed⟩
  }
  initially := trivial
  disturbed := fun known _ moved => known.mono (.disturbed moved)
  reloaded := fun _ => trivial
  restarted := fun _ _ => trivial

/--
In a run in which the tracker that is asked about a PV knows of its active
job, no PV is created while a job that has not succeeded exists for it.
-/
theorem creation_without_activeJob
    {state : SyncState}
    (reaches : informedJobMode.Reaches state)
    {pv : PersistentVolume}
    {next : (Op.createPV pv).Reply → Routine Unit}
    (creating : state.rest = .call (.createPV pv) next) :
    activeJob state.world.jobs pv.name = false := by
  obtain ⟨phase, known, allowed⟩ :=
    informedJobMode_carried.atCall reaches creating
  cases allowed with
  | probe probing => exact probing.elim
  | createPV _ => exact known

/-- The PV that a state is about to create, if any. -/
def SyncState.creating (state : SyncState) : Option PersistentVolume :=
  match state.rest with
  | .call (.createPV pv) _ => some pv
  | _ => none

/-- A state that is about to create a PV makes the call. -/
theorem SyncState.rest_of_creating
    {state : SyncState}
    {pv : PersistentVolume}
    (creating : state.creating = some pv) :
    ∃ next, state.rest = .call (.createPV pv) next := by
  unfold SyncState.creating at creating
  split at creating
  · cases creating
    exact ⟨_, by assumption⟩
  · cases creating

/-- A run that meets the condition and is about to create a PV. -/
theorem creation_without_activeJob_of_sampleProvisioning :
    ∃ state pv next,
      informedJobMode.Reaches state ∧
        state.rest = .call (.createPV pv) next ∧
        activeJob state.world.jobs pv.name = false := by
  obtain ⟨state, reaches, checked⟩ :=
    informedJobMode.reaches_of_sampleRun true sampleClasses
      (sampleProvisioning 2) (fun state => state.creating.isSome) rfl
      (by decide +kernel)
  obtain ⟨pv, creating⟩ := Option.isSome_iff_exists.mp checked
  obtain ⟨next, calling⟩ := state.rest_of_creating creating
  exact ⟨state, pv, next, reaches, calling,
    creation_without_activeJob reaches calling⟩

/--
A user deletes a PV that is being cleaned.  The cache hears of it before the
lister hears of the job.
-/
def laggingListerRun : List Action :=
  sampleProvisioning 2 ++ sampleCalls 5 ++ sampleRelease 1 ++
    sampleReclaiming 4 ++ sampleNoDiscovery ++
    [.disturb (.removePV sampleName), .disturb .deliverPV] ++
    sampleProvisioning 2

/-- A lagging lister lets a PV be created while its job is active. -/
theorem creation_during_activeJob :
    ∃ state pv next,
      jobMode.Reaches state ∧
        state.rest = .call (.createPV pv) next ∧
        activeJob state.world.jobs pv.name = true := by
  obtain ⟨state, reaches, checked⟩ :=
    jobMode.reaches_of_sampleRun true sampleClasses laggingListerRun
      (fun state =>
        state.creating.any fun pv => activeJob state.world.jobs pv.name)
      rfl (by decide +kernel)
  obtain ⟨pv, creating, active⟩ := Option.any_eq_true _ _ |>.mp checked
  obtain ⟨next, calling⟩ := state.rest_of_creating creating
  exact ⟨state, pv, next, reaches, calling, active⟩

end LocalProvisioner
