import LocalProvisioner.Cluster
import LocalProvisioner.SyncProtocol

namespace LocalProvisioner

open Interleaving

/-!
# Runs of the sync loop

A run interleaves the calls of successive sync-loop instances with everything
else that moves the shared state: cleaner goroutines ending, users and
controllers changing PVs and jobs at the API server, and notices reaching the
cache and the job lister.

`Conditions` collects what a theorem assumes of a run.  `Carried` lists what
has to be checked, once for each kind of step, to carry an assertion about the
phases of a pass through every run that meets the conditions.
-/

/-- A move of the surroundings. -/
inductive Disturbance where
  | cleanerFinishes :
      (index : Nat) → (performed : Except String Unit) → Disturbance
  | overwriteCache : VolumeCache → Disturbance
  | updatePV : PersistentVolume → Disturbance
  | removePV : (pvName : String) → Disturbance
  | jobSucceeds : (jobName : String) → Disturbance
  | markJobDeleted : (jobName : String) → (now : Nat) → Disturbance
  | removeJob : (jobName : String) → Disturbance
  | deliverPV : Disturbance
  | deliverJob : Disturbance

/-- A move that leaves the contents of the cache to the populator. -/
def Disturbance.faithful : Disturbance → Bool
  | .overwriteCache _ => false
  | _ => true

namespace World

/-- A cleaner goroutine ends and marks its outcome: the end of `asyncCleanPV`. -/
def finishCleaner
    (world : World)
    (index : Nat)
    (cleaner : Cleaner)
    (performed : Except String Unit) :
    World :=
  let outcome := cleaningOutcome cleaner.work performed
  { world with
    procTable := (world.procTable.markStatus cleaner.pvName outcome).2
    cleaners := world.cleaners.eraseIdx index
    history :=
      .cleanerEnded cleaner.run cleaner.pvName outcome :: world.history }

/-- A job succeeds at the API server. -/
def succeedJob (world : World) (job : Job) : World :=
  (world.putJob { job with succeeded := 1 }).record
    (.jobSucceeded job.name job.uid)

/-- The populator handles one notice. -/
def handlePVNotice
    (runtime : RuntimeConfig)
    (cache : VolumeCache) :
    Notice PersistentVolume → VolumeCache
  | .updated pv => handlePVUpdate runtime cache pv
  | .deleted pv => handlePVDelete cache pv

/-- The job informer handles one notice. -/
def handleJobNotice
    (lister : ObjectStore Job Job.name) :
    Notice Job → ObjectStore Job Job.name
  | .updated job => lister.put job
  | .deleted job => lister.drop job.name

/-- The effect of a move of the surroundings, if it is possible. -/
def disturb
    (world : World)
    (runtime : RuntimeConfig) :
    Disturbance → Option World
  | .cleanerFinishes index performed =>
      world.cleaners[index]?.map fun cleaner =>
        world.finishCleaner index cleaner performed
  | .overwriteCache cache => some { world with cache }
  | .updatePV pv =>
      match world.pvs.get pv.name with
      | none => none
      | some current =>
          if current.uid = pv.uid ∧ current.localSource = pv.localSource then
            some (world.putPV pv)
          else
            none
  | .removePV pvName => (world.pvs.get pvName).map world.dropPV
  | .jobSucceeds jobName =>
      match world.jobs.get jobName with
      | none => none
      | some job =>
          if job.succeeded = 0 then some (world.succeedJob job) else none
  | .markJobDeleted jobName now =>
      (world.jobs.get jobName).map fun job =>
        world.putJob { job with deletionTimestamp := some now }
  | .removeJob jobName => (world.jobs.get jobName).map world.dropJob
  | .deliverPV =>
      match world.pvNotices with
      | [] => none
      | notice :: rest =>
          some { world with
            pvNotices := rest
            cache := handlePVNotice runtime world.cache notice }
  | .deliverJob =>
      match world.jobNotices with
      | [] => none
      | notice :: rest =>
          some { world with
            jobNotices := rest
            jobLister := handleJobNotice world.jobLister notice }

/-- The ways in which the surroundings can move the world. -/
inductive Move (world : World) : World → Prop where
  | cleanerEnded
      (index : Nat)
      (cleaner : Cleaner)
      (performed : Except String Unit) :
      world.cleaners[index]? = some cleaner →
      Move world (world.finishCleaner index cleaner performed)
  | cached (cache : VolumeCache) (pvNotices : List (Notice PersistentVolume)) :
      Move world { world with cache, pvNotices }
  | updatedPV (current pv : PersistentVolume) :
      world.pvs.get pv.name = some current →
      current.uid = pv.uid →
      current.localSource = pv.localSource →
      Move world (world.putPV pv)
  | removedPV (pv : PersistentVolume) :
      Move world (world.dropPV pv)
  | succeededJob (job : Job) :
      world.jobs.get job.name = some job →
      job.succeeded = 0 →
      Move world (world.succeedJob job)
  | markedJob (job : Job) (now : Nat) :
      world.jobs.get job.name = some job →
      Move world (world.putJob { job with deletionTimestamp := some now })
  | removedJob (job : Job) :
      Move world (world.dropJob job)
  | listedJob (notice : Notice Job) (rest : List (Notice Job)) :
      world.jobNotices = notice :: rest →
      Move world { world with
        jobNotices := rest
        jobLister := handleJobNotice world.jobLister notice }

/-- The surroundings move the world in one of these ways. -/
theorem move_of_disturb
    {world later : World}
    {runtime : RuntimeConfig}
    {disturbance : Disturbance}
    (moved : world.disturb runtime disturbance = some later) :
    Move world later := by
  cases disturbance with
  | cleanerFinishes index performed =>
      obtain ⟨cleaner, found, rfl⟩ := Option.map_eq_some_iff.mp moved
      exact .cleanerEnded index cleaner performed found
  | overwriteCache cache =>
      cases moved
      exact .cached cache world.pvNotices
  | updatePV pv =>
      simp only [disturb] at moved
      split at moved
      · cases moved
      · rename_i current stored
        split at moved
        · rename_i same
          cases moved
          exact .updatedPV current pv stored same.1 same.2
        · cases moved
  | removePV pvName =>
      obtain ⟨pv, _, rfl⟩ := Option.map_eq_some_iff.mp moved
      exact .removedPV pv
  | jobSucceeds jobName =>
      simp only [disturb] at moved
      split at moved
      · cases moved
      · rename_i job stored
        split at moved
        · rename_i unfinished
          cases moved
          exact .succeededJob job (ObjectStore.get_name stored) unfinished
        · cases moved
  | markJobDeleted jobName now =>
      obtain ⟨job, stored, rfl⟩ := Option.map_eq_some_iff.mp moved
      exact .markedJob job now (ObjectStore.get_name stored)
  | removeJob jobName =>
      obtain ⟨job, _, rfl⟩ := Option.map_eq_some_iff.mp moved
      exact .removedJob job
  | deliverPV =>
      simp only [disturb] at moved
      split at moved
      · cases moved
      · cases moved
        exact .cached _ _
  | deliverJob =>
      simp only [disturb] at moved
      split at moved
      · cases moved
      · rename_i notice rest pending
        cases moved
        exact .listedJob notice rest pending

/-- Two worlds with the same jobs, at the server and on their way. -/
structure SameJobs (world later : World) : Prop where
  jobs : later.jobs = world.jobs
  jobLister : later.jobLister = world.jobLister
  jobNotices : later.jobNotices = world.jobNotices

namespace SameJobs

variable {world : World}

theorem execSpawnCleaner (answers : Answers) (work : CleanerWork) :
    SameJobs world (world.execSpawnCleaner answers work).2 := by
  unfold World.execSpawnCleaner
  split <;> exact ⟨rfl, rfl, rfl⟩

end SameJobs

/--
Apart from a cleaner that ends, the surroundings leave the cleaners and their
table alone, and the only event they cause is the success of a job.
-/
theorem processes_of_disturb
    {world later : World}
    {runtime : RuntimeConfig}
    {disturbance : Disturbance}
    (moved : world.disturb runtime disturbance = some later) :
    (∃ index cleaner performed,
      world.cleaners[index]? = some cleaner ∧
        later = world.finishCleaner index cleaner performed) ∨
      later.procTable = world.procTable ∧
        later.cleaners = world.cleaners ∧
        (later.history = world.history ∨
          ∃ jobName uid,
            later.history = .jobSucceeded jobName uid :: world.history) := by
  cases move_of_disturb moved with
  | cleanerEnded index cleaner performed found =>
      exact .inl ⟨index, cleaner, performed, found, rfl⟩
  | succeededJob job _ _ =>
      exact .inr ⟨rfl, rfl, .inr ⟨_, _, rfl⟩⟩
  | cached | updatedPV | removedPV | markedJob | removedJob | listedJob =>
      exact .inr ⟨rfl, rfl, .inl rfl⟩

/--
What the surroundings do to jobs: nothing, progress of a job, removal of a
job, or the delivery of a notice.
-/
theorem jobs_of_disturb
    {world later : World}
    {runtime : RuntimeConfig}
    {disturbance : Disturbance}
    (moved : world.disturb runtime disturbance = some later) :
    SameJobs world later ∨
      (∃ earlier updated,
        world.jobs.get updated.name = some earlier ∧
          earlier.succeeded ≤ updated.succeeded ∧
          SameJobs (world.putJob updated) later) ∨
      (∃ job, SameJobs (world.dropJob job) later) ∨
      ∃ notice rest,
        world.jobNotices = notice :: rest ∧
          SameJobs { world with
            jobNotices := rest
            jobLister := handleJobNotice world.jobLister notice } later := by
  cases move_of_disturb moved with
  | succeededJob job stored unfinished =>
      exact .inr (.inl ⟨job, { job with succeeded := 1 }, stored,
        by simp [unfinished], ⟨rfl, rfl, rfl⟩⟩)
  | markedJob job now stored =>
      exact .inr (.inl ⟨job, { job with deletionTimestamp := some now },
        stored, Int.le_refl _, ⟨rfl, rfl, rfl⟩⟩)
  | removedJob job =>
      exact .inr (.inr (.inl ⟨job, ⟨rfl, rfl, rfl⟩⟩))
  | listedJob notice rest pending =>
      exact .inr (.inr (.inr ⟨notice, rest, pending, ⟨rfl, rfl, rfl⟩⟩))
  | cleanerEnded | cached | updatedPV | removedPV =>
      exact .inl ⟨rfl, rfl, rfl⟩

/--
What the surroundings do to the PVs of the API server: nothing, an update that
keeps the identity and the source of a PV, or the removal of a PV.
-/
theorem pvs_of_disturb
    {world later : World}
    {runtime : RuntimeConfig}
    {disturbance : Disturbance}
    (moved : world.disturb runtime disturbance = some later) :
    later.pvs = world.pvs ∨
      (∃ current updated,
        world.pvs.get updated.name = some current ∧
          current.uid = updated.uid ∧
          current.localSource = updated.localSource ∧
          later.pvs = world.pvs.put updated) ∨
      ∃ pvName, later.pvs = world.pvs.drop pvName := by
  cases move_of_disturb moved with
  | updatedPV current pv stored sameUid sameSource =>
      exact .inr (.inl ⟨current, pv, stored, sameUid, sameSource, rfl⟩)
  | removedPV pv =>
      exact .inr (.inr ⟨pv.name, rfl⟩)
  | cleanerEnded | cached | succeededJob | markedJob | removedJob
  | listedJob =>
      exact .inl rfl

/--
A new instance of the sync loop: an empty cache that the populator has yet to
fill, and a job lister that has been synced before the loop starts.
-/
def newInstance (world : World) : World :=
  { world with
    cache := VolumeCache.newVolumeCache
    pvNotices := world.pvs.list.map Notice.updated
    jobLister := world.jobs
    jobNotices := []
    ready := false }

/-- A new process: the in-process cleaners and their table are gone. -/
def newProcess (world : World) : World :=
  { world.newInstance with
    procTable := .newProcTable
    cleaners := [] }

end World

/-- Probing changes at most the reports and the readiness flag. -/
theorem exec_of_probing
    {op : Op}
    {answers : Answers}
    {world after : World}
    {reply : op.Reply}
    (probing : op.Probing)
    (executed : exec op answers world = some (reply, after)) :
    ∃ reports ready, after = { world with reports, ready } := by
  cases op with
  | rangeDiscoveryMap classes =>
      obtain ⟨ordered, _, same⟩ := Option.map_eq_some_iff.mp executed
      cases same
      exact ⟨_, _, rfl⟩
  | crash reason =>
      cases executed
  | isDir | isBlock | readDir | listMounts | getBlockCapacityByte
  | getFsCapacityByte | getStorageClass | now | report | setReady =>
      cases executed
      exact ⟨_, _, rfl⟩
  | _ =>
      exact probing.elim

/--
What calls do to jobs: nothing, marking a job as deleted, or the creation of a
job under a free name.
-/
theorem jobs_of_exec
    {op : Op}
    {answers : Answers}
    {world later : World}
    {reply : op.Reply}
    (executed : exec op answers world = some (reply, later)) :
    world.SameJobs later ∨
      (∃ earlier updated,
        world.jobs.get updated.name = some earlier ∧
          earlier.succeeded ≤ updated.succeeded ∧
          (world.putJob updated).SameJobs later) ∨
      ∃ job uid,
        op = .createJob job ∧
          (world.putJob { job with uid := uid }).SameJobs later := by
  cases effect_of_exec executed with
  | spawned work =>
      exact .inl (World.SameJobs.execSpawnCleaner answers work)
  | markedJob jobName namespaceName job stored =>
      exact .inr (.inl ⟨job,
        { job with deletionTimestamp := some answers.now },
        ObjectStore.get_name stored, Int.le_refl _, ⟨rfl, rfl, rfl⟩⟩)
  | createdJob job _ =>
      exact .inr (.inr ⟨job, world.freshUID answers, rfl, ⟨rfl, rfl, rfl⟩⟩)
  | recorded | tookEntry | createdPV | markedPV | removedPV =>
      exact .inl ⟨rfl, rfl, rfl⟩

/--
What calls do to the PVs of the API server: nothing, marking a PV as deleted,
the removal of a PV, or the creation of a PV under a free name.
-/
theorem pvs_of_exec
    {op : Op}
    {answers : Answers}
    {world later : World}
    {reply : op.Reply}
    (executed : exec op answers world = some (reply, later)) :
    later.pvs = world.pvs ∨
      (∃ pv timestamp,
        world.pvs.get pv.name = some pv ∧
          later.pvs =
            world.pvs.put { pv with deletionTimestamp := timestamp }) ∨
      (∃ pvName, later.pvs = world.pvs.drop pvName) ∨
      ∃ pv,
        op = .createPV pv ∧
          world.pvs.get pv.name = none ∧
          later.pvs =
            world.pvs.put { pv with uid := world.freshUID answers } := by
  cases effect_of_exec executed with
  | spawned work =>
      unfold World.execSpawnCleaner
      split <;> exact .inl rfl
  | createdPV pv free =>
      exact .inr (.inr (.inr ⟨pv, rfl, free, rfl⟩))
  | markedPV pvName pv stored =>
      exact .inr (.inl ⟨pv, some answers.now, ObjectStore.get_name stored,
        rfl⟩)
  | removedPV pvName pv stored =>
      exact .inr (.inr (.inl ⟨pv.name, rfl⟩))
  | recorded | tookEntry | createdJob | markedJob =>
      exact .inl rfl

/-- A state of the sync loop: its instance, the rest of its pass, the world. -/
structure SyncState where
  discoverer : Discoverer
  rest : Routine Unit
  world : World

/-- What can happen next. -/
inductive Action where
  | call : Answers → Action
  | disturb : Disturbance → Action
  | beginPass : Action
  | reload : RuntimeConfig → Action
  | restart : RuntimeConfig → Action

/-- One step of a run; `none` if the action is not possible. -/
def step (state : SyncState) : Action → Option SyncState
  | .call answers =>
      match state.rest with
      | .done _ => none
      | .call op next =>
          (exec op answers state.world).map fun outcome =>
            { state with rest := next outcome.1, world := outcome.2 }
  | .disturb disturbance =>
      (state.world.disturb state.discoverer.toRuntimeConfig
        disturbance).map fun world => { state with world }
  | .beginPass =>
      match state.rest with
      | .done _ => some { state with rest := syncPass state.discoverer }
      | .call _ _ => none
  | .reload runtime =>
      match state.rest, newDiscoverer runtime with
      | .done _, .ok discoverer =>
          some { discoverer, rest := .done (), world := state.world.newInstance }
      | _, _ => none
  | .restart runtime =>
      match newDiscoverer runtime with
      | .ok discoverer =>
          some { discoverer, rest := .done (), world := state.world.newProcess }
      | .error _ => none

/-- What is assumed of the instances, moves and calls of a run. -/
structure Conditions where
  configuration : RuntimeConfig → Prop
  restarts : Prop
  disturbance : Disturbance → World → Prop
  call : Op → Answers → World → Prop

namespace Conditions

/-- The actions that the conditions admit. -/
def permits (conditions : Conditions) (state : SyncState) : Action → Prop
  | .call answers =>
      match state.rest with
      | .done _ => True
      | .call op _ => conditions.call op answers state.world
  | .disturb disturbance =>
      conditions.disturbance disturbance state.world
  | .beginPass => True
  | .reload runtime => conditions.configuration runtime
  | .restart runtime =>
      conditions.restarts ∧ conditions.configuration runtime

/-- Conditions that can be checked along a replayed run. -/
class Executable (conditions : Conditions) where
  configuration :
    ∀ runtime, Decidable (conditions.configuration runtime)
  restarts : Decidable conditions.restarts
  disturbance :
    ∀ disturbance world,
      Decidable (conditions.disturbance disturbance world)
  call : ∀ op answers world, Decidable (conditions.call op answers world)

instance
    (conditions : Conditions)
    [executable : conditions.Executable]
    (state : SyncState)
    (action : Action) :
    Decidable (conditions.permits state action) :=
  match action with
  | .call answers =>
      match shape : state.rest with
      | .done _ =>
          .isTrue (by simp [permits, shape])
      | .call op _ =>
          @decidable_of_iff _ (conditions.call op answers state.world)
            (by simp [permits, shape])
            (executable.call op answers state.world)
  | .disturb disturbance => executable.disturbance disturbance state.world
  | .beginPass => .isTrue trivial
  | .reload runtime => executable.configuration runtime
  | .restart runtime =>
      @instDecidableAnd _ _ executable.restarts
        (executable.configuration runtime)

/-- The first instance of a run. -/
def started (conditions : Conditions) (state : SyncState) : Prop :=
  ∃ runtime discoverer,
    conditions.configuration runtime ∧
      newDiscoverer runtime = .ok discoverer ∧
      state = { discoverer, rest := .done (), world := .empty }

/-- The states of the runs that meet the conditions. -/
abbrev Reaches (conditions : Conditions) (state : SyncState) : Prop :=
  Reachable step conditions.permits conditions.started state

end Conditions

/--
What it takes to carry an assertion about the phases of a pass through every
run that meets some conditions.
-/
structure Carried
    (conditions : Conditions)
    (scope : Scope)
    (assertion : Phase → World → Prop) : Prop where
  flags :
    ∀ runtime,
      conditions.configuration runtime →
      scope.flags runtime.useJobForCleaning
  outline : Outline (syncProtocol scope) exec conditions.call assertion
  initially : assertion .idle .empty
  disturbed :
    ∀ {phase world later runtime disturbance},
      assertion phase world →
      conditions.disturbance disturbance world →
      world.disturb runtime disturbance = some later →
      assertion phase later
  reloaded :
    ∀ {world}, assertion .idle world → assertion .idle world.newInstance
  restarted :
    ∀ {phase world},
      conditions.restarts →
      assertion phase world →
      assertion .idle world.newProcess

/-- A state on the outline of an assertion, running an admitted instance. -/
structure OnOutline
    (conditions : Conditions)
    (scope : Scope)
    (assertion : Phase → World → Prop)
    (state : SyncState) : Prop where
  admitted : conditions.configuration state.discoverer.toRuntimeConfig
  follows :
    Follows (syncProtocol scope) assertion (fun _ phase => phase = .idle)
      state.rest state.world

namespace Carried

variable {conditions : Conditions}
variable {scope : Scope}
variable {assertion : Phase → World → Prop}

/-- A new instance is on the outline as soon as its world is. -/
theorem onOutline_of_new
    {runtime : RuntimeConfig}
    {discoverer : Discoverer}
    {world : World}
    (admitted : conditions.configuration runtime)
    (made : newDiscoverer runtime = .ok discoverer)
    (holds : assertion .idle world) :
    OnOutline conditions scope assertion
      { discoverer, rest := .done (), world } := by
  refine ⟨?_, .idle, holds, .done rfl⟩
  rw [toRuntimeConfig_newDiscoverer made]
  exact admitted

/-- Every permitted step stays on the outline. -/
theorem onOutline_of_step
    (carried : Carried conditions scope assertion)
    {state next : SyncState}
    {action : Action}
    (onOutline : OnOutline conditions scope assertion state)
    (permitted : conditions.permits state action)
    (stepped : step state action = some next) :
    OnOutline conditions scope assertion next := by
  obtain ⟨discoverer, rest, world⟩ := state
  obtain ⟨admitted, follows⟩ := onOutline
  cases action with
  | call answers =>
      cases rest with
      | done value =>
          cases stepped
      | call op rest =>
          simp only [step, Option.map_eq_some_iff] at stepped
          obtain ⟨⟨reply, after⟩, executed, rfl⟩ := stepped
          exact ⟨admitted,
            follows.exec_call carried.outline permitted executed⟩
  | disturb disturbance =>
      simp only [step, Option.map_eq_some_iff] at stepped
      obtain ⟨later, moved, rfl⟩ := stepped
      exact ⟨admitted, follows.moved fun phase holds =>
        carried.disturbed holds permitted moved⟩
  | beginPass =>
      cases rest with
      | done value =>
          cases stepped
          obtain ⟨phase, holds, reached⟩ := follows.atDone carried.outline
          subst reached
          exact ⟨admitted, .idle, holds,
            conforms_syncPass (carried.flags _ admitted)⟩
      | call op rest =>
          cases stepped
  | reload runtime =>
      cases rest with
      | done value =>
          simp only [step] at stepped
          split at stepped
          · rename_i made
            cases stepped
            obtain ⟨phase, holds, reached⟩ := follows.atDone carried.outline
            subst reached
            exact onOutline_of_new permitted made (carried.reloaded holds)
          · cases stepped
      | call op rest =>
          cases stepped
  | restart runtime =>
      simp only [step] at stepped
      split at stepped
      · rename_i made
        cases stepped
        obtain ⟨phase, holds, _⟩ := follows
        exact onOutline_of_new permitted.2 made
          (carried.restarted permitted.1 holds)
      · cases stepped

/-- Every state of a run that meets the conditions is on the outline. -/
theorem onOutline
    (carried : Carried conditions scope assertion)
    {state : SyncState}
    (reaches : conditions.Reaches state) :
    OnOutline conditions scope assertion state := by
  refine reaches.invariant ?_ ?_
  · rintro state ⟨runtime, discoverer, admitted, made, rfl⟩
    exact onOutline_of_new admitted made carried.initially
  · intro state action next holds permitted stepped
    exact carried.onOutline_of_step holds permitted stepped

/-- In every state of such a run the assertion of some phase holds. -/
theorem assertion_of_reaches
    (carried : Carried conditions scope assertion)
    {state : SyncState}
    (reaches : conditions.Reaches state) :
    ∃ phase, assertion phase state.world := by
  obtain ⟨phase, holds, _⟩ := (carried.onOutline reaches).follows
  exact ⟨phase, holds⟩

/-- A pass about to make a call is in a phase that allows it. -/
theorem atCall
    (carried : Carried conditions scope assertion)
    {state : SyncState}
    (reaches : conditions.Reaches state)
    {op : Op}
    {next : op.Reply → Routine Unit}
    (calling : state.rest = .call op next) :
    ∃ phase,
      assertion phase state.world ∧ Allowed scope phase op := by
  have follows := (carried.onOutline reaches).follows
  rw [calling] at follows
  obtain ⟨phase, holds, allowed, _⟩ := follows.atCall carried.outline
  exact ⟨phase, holds, allowed⟩

end Carried

/-- From its first check on, a pass knows a fact about the name of its PV. -/
def KnownOnceChecked (fact : String → Prop) : Phase → Prop
  | .tracking _ .considered => True
  | .tracking purpose _ => fact purpose.pvName
  | _ => True

namespace KnownOnceChecked

variable {fact laterFact : String → Prop} {phase : Phase}

theorem home (purpose : Purpose) : KnownOnceChecked fact purpose.home := by
  cases purpose <;> trivial

theorem mono
    (known : KnownOnceChecked fact phase)
    (kept : ∀ pvName, fact pvName → laterFact pvName) :
    KnownOnceChecked laterFact phase := by
  rcases phase with _ | _ | _ | ⟨purpose, _ | _ | _ | _⟩
  · trivial
  · trivial
  · trivial
  · trivial
  · exact kept _ known
  · exact kept _ known
  · exact kept _ known

/-- Silent steps of a pass. -/
theorem silent
    {next : Phase}
    (moved : Phase.Silent phase next) :
    KnownOnceChecked fact next := by
  cases moved with
  | pick _ _ => trivial
  | giveUp => exact home _
  | finishScan => trivial

/--
The answer to the first check has to establish the fact. After it, only the
calls that start a cleanup may break it.
-/
theorem call
    {scope : Scope}
    {op : Op}
    {answers : Answers}
    {world later : World}
    {reply : op.Reply}
    (known : KnownOnceChecked fact phase)
    (allowed : Allowed scope phase op)
    (executed : exec op answers world = some (reply, later))
    (processIdle :
      ∀ pvName,
        op = .isRunning pvName →
        world.procTable.isRunning pvName = false →
        laterFact pvName)
    (jobIdle :
      ∀ pvName,
        op = .isCleaningJobRunning pvName →
        isCleaningJobRunning
          (world.listedJob answers (generateCleaningJobName pvName)) = false →
        laterFact pvName)
    (kept :
      (∀ work, op ≠ .spawnCleaner work) →
      (∀ job, op ≠ .createJob job) →
      ∀ pvName, fact pvName → laterFact pvName) :
    KnownOnceChecked laterFact (phase.after op reply) := by
  cases allowed with
  | probe probing =>
      rw [Phase.after_of_probing probing]
      apply known.mono
      apply kept
      · rintro work rfl
        exact probing
      · rintro job rfl
        exact probing
  | list => trivial
  | get =>
      simp only [Phase.after]
      split <;> trivial
  | lookup =>
      simp only [Phase.after]
      split <;> trivial
  | @askProcess purpose _ =>
      cases executed
      simp only [Phase.after]
      split
      · exact home purpose
      · rename_i notBusy
        exact processIdle _ rfl (Bool.eq_false_iff.mpr notBusy)
  | @askJob purpose _ =>
      cases executed
      simp only [Phase.after]
      split
      · exact home purpose
      · rename_i notBusy
        exact jobIdle _ rfl (Bool.eq_false_iff.mpr notBusy)
  | @takeEntry purpose =>
      have still : laterFact purpose.pvName :=
        kept (by simp) (by simp) _ known
      simp only [Phase.after]
      split
      · exact still
      · exact home purpose
  | @findJob purpose =>
      have still : laterFact purpose.pvName :=
        kept (by simp) (by simp) _ known
      simp only [Phase.after]
      split
      · exact still
      · exact still
      · exact home purpose
  | @takeJob purpose job namespaceName _ =>
      have still : laterFact purpose.pvName :=
        kept (by simp) (by simp) _ known
      simp only [Phase.after]
      split
      · exact still
      · exact home purpose
  | deletePV => trivial
  | spawnCleaner => trivial
  | createJob _ _ => trivial
  | createPV _ => trivial

end KnownOnceChecked

/-!
## A small deployment

One node and classes of one's choice, for runs on fixed inputs.
-/

/-- A class that finds every file of its directory. -/
def sampleMount (hostDir mountDir : String) : MountConfig where
  hostDir := hostDir
  mountDir := mountDir
  blockCleanerCommand := ["/scripts/quick_reset.sh"]
  volumeMode := "Filesystem"
  accessMode := ""
  fsType := ""
  namePattern := "*"
  selector := []

/-- A node with the hostname label. -/
def sampleNode : Node where
  name := "node"
  uid := "1"
  labels := AList.insert hostnameLabel "node" ∅

/-- The configuration of an instance on the sample node. -/
def sampleRuntime
    (useJobForCleaning : Bool)
    (classes : GoMap MountConfig) :
    RuntimeConfig where
  name := "local-volume-provisioner-node-1"
  node := sampleNode
  discoveryMap := classes
  nodeLabelsForPV := []
  labelsForPV := ∅
  useAlphaAPI := false
  useJobForCleaning := useJobForCleaning
  useNodeNameOnly := false
  setPVOwnerRef := false
  namespaceName := "default"
  jobContainerImage := "cleaner"
  jobTolerations := []
  marshalAffinity := fun _ => .ok ""

/-- The discoverer that `newDiscoverer` makes on the sample node. -/
def sampleDiscoverer
    (useJobForCleaning : Bool)
    (classes : GoMap MountConfig) :
    Discoverer :=
  { sampleRuntime useJobForCleaning classes with
    labels := ∅
    nodeSelector := {
      nodeSelectorTerms := [{
        matchExpressions := [
          { key := hostnameLabel, operator := .opIn, values := ["node"] }]
      }]
    }
    ownerReference :=
      { kind := "Node", apiVersion := "v1", name := "node", uid := "1" } }

theorem newDiscoverer_sampleRuntime
    (useJobForCleaning : Bool)
    (classes : GoMap MountConfig) :
    newDiscoverer (sampleRuntime useJobForCleaning classes) =
      .ok (sampleDiscoverer useJobForCleaning classes) :=
  rfl

/-- The first state of a run on the sample node. -/
def sampleStart
    (useJobForCleaning : Bool)
    (classes : GoMap MountConfig) :
    SyncState where
  discoverer := sampleDiscoverer useJobForCleaning classes
  rest := .done ()
  world := .empty

/-- A replayed run on the sample node reaches the state it ends in. -/
theorem Conditions.reaches_of_sampleRun
    (conditions : Conditions)
    [conditions.Executable]
    (useJobForCleaning : Bool)
    (classes : GoMap MountConfig)
    (actions : List Action)
    (check : SyncState → Bool)
    (admitted :
      conditions.configuration (sampleRuntime useJobForCleaning classes))
    (checked :
      (replay step conditions.permits
        (sampleStart useJobForCleaning classes) actions).any check = true) :
    ∃ state, conditions.Reaches state ∧ check state = true :=
  Reachable.exists_of_replay check
    ⟨_, _, admitted, newDiscoverer_sampleRuntime useJobForCleaning classes,
      rfl⟩
    checked

/-- One class with one directory. -/
def sampleClasses : GoMap MountConfig :=
  AList.insert "fast" (sampleMount "/mnt/disks" "/mnt/fast") ∅

/-- The name of the PV for the one file of the sample class. -/
def sampleName : String :=
  generatePVName "volume" "node" "fast"

/-- The PV for that file, released by its claim. -/
def sampleReleasedPV (uid : Nat) : PersistentVolume :=
  { samplePV with
    name := sampleName
    uid
    annotations :=
      AList.insert annProvisionedBy "local-volume-provisioner-node-1" ∅
    phase := .released }

/-- Calls whose answers do not matter. -/
def sampleCalls (count : Nat) : List Action :=
  List.replicate count (.call {})

/--
The discovery of one class that is about to create a PV for a block device,
after a given number of calls to the cleanup tracker.
-/
def sampleDiscovery (trackerCalls : Nat) : List Action :=
  [.call { storageClass := .ok { reclaimPolicy := none, mountOptions := [] } },
    .call { names := .ok ["volume"] }, .call {}, .call {}, .call {},
    .call { probe := .ok true }, .call {}, .call {}] ++
    sampleCalls trackerCalls ++
    [.call { storageClass := .ok { reclaimPolicy := none, mountOptions := [] } },
      .call {}]

/-- A pass over an empty cache, up to the creation of the PV of one class. -/
def sampleProvisioning (trackerCalls : Nat) : List Action :=
  [.beginPass, .call {}, .call { order := [0] }] ++
    sampleDiscovery trackerCalls

/-- The PV is released, and the cache hears of its creation and release. -/
def sampleRelease (uid : Nat) : List Action :=
  [.disturb (.updatePV (sampleReleasedPV uid)), .disturb .deliverPV,
    .disturb .deliverPV]

/-- A pass that reclaims the one cached PV by a given number of calls. -/
def sampleReclaiming (calls : Nat) : List Action :=
  [.beginPass, .call { order := [0] }, .call {}, .call { probe := .ok true }] ++
    sampleCalls calls

/-- Is the latest event a request to delete a PV? -/
def endsInDeletion : List Event → Bool
  | .deletePVIssued _ :: _ => true
  | _ => false

/-- A history that ends in a deletion has one. -/
theorem deletePVIssued_of_endsInDeletion
    {history : List Event}
    (ends : endsInDeletion history = true) :
    ∃ pvName past, .deletePVIssued pvName :: past <:+ history := by
  unfold endsInDeletion at ends
  split at ends
  · exact ⟨_, _, List.suffix_rfl⟩
  · cases ends

/-- A discovery that does not get beyond the storage class. -/
def sampleNoDiscovery : List Action :=
  [.call { order := [0] }, .call {}, .call {}]

end LocalProvisioner
