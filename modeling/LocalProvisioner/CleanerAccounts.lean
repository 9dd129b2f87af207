import LocalProvisioner.ProcessMode

namespace LocalProvisioner

open Interleaving

/-!
# The accounts of the table of in-process cleaners

`Stats` reports how many cleaners are running and how many have succeeded or
failed since the process started.  The two counters are never decremented:
`RemoveEntry` takes an outcome out of the table and leaves the counters alone.

A `Ledger` is kept beside every run: it counts the cleaners that were started
and the outcomes that `RemoveEntry` returned, whichever of the deleter and the
discoverer called it.  The statistics agree with the ledger in every state.
-/

section Counting

namespace ProcTable

/-- What one entry adds to the count of a status. -/
def oneIf (entry : ProcEntry) (status : CleanupState) : Nat :=
  if entry.status = status then 1 else 0

/-- Erasing an entry takes it out of the count of its status. -/
theorem countStatus_erase
    {table : ProcTable}
    {pvName : String}
    {entry : ProcEntry}
    (found : table.procTable.lookup pvName = some entry)
    (status : CleanupState) :
    countStatus { table with procTable := table.procTable.erase pvName }
        status + oneIf entry status =
      table.countStatus status := by
  have member : (⟨pvName, entry⟩ : Sigma fun _ : String => ProcEntry) ∈
      table.procTable.entries :=
    AList.mem_lookup_iff.mp found
  obtain ⟨other, before, after, notBefore, shape, erased⟩ :=
    List.exists_of_kerase (List.mem_keys_of_mem member)
  have same : other = entry := by
    have otherMember :
        (⟨pvName, other⟩ : Sigma fun _ : String => ProcEntry) ∈
          table.procTable.entries := by
      simp [shape]
    have otherFound := AList.mem_lookup_iff.mpr otherMember
    rw [Option.mem_def, found] at otherFound
    exact (Option.some.inj otherFound).symm
  subst other
  simp only [countStatus, entries_erase, erased]
  simp only [shape, List.countP_append, List.countP_cons, oneIf, beq_iff_eq]
  omega

/-- A new entry joins the count of its status. -/
theorem countStatus_insert
    (table : ProcTable)
    (pvName : String)
    (entry : ProcEntry)
    (status : CleanupState) :
    countStatus { table with
        procTable := table.procTable.insert pvName entry } status =
      countStatus { table with procTable := table.procTable.erase pvName }
        status + oneIf entry status := by
  simp only [countStatus, AList.entries_insert, entries_erase,
    List.countP_cons, oneIf, beq_iff_eq]

/-- Erasing what is not there changes no count. -/
theorem countStatus_erase_of_none
    {table : ProcTable}
    {pvName : String}
    (missing : table.procTable.lookup pvName = none)
    (status : CleanupState) :
    countStatus { table with procTable := table.procTable.erase pvName }
        status =
      table.countStatus status := by
  have absent : pvName ∉ table.procTable.entries.keys := by
    rw [← AList.keys, ← AList.mem_keys]
    exact AList.lookup_eq_none.mp missing
  simp only [countStatus, entries_erase, List.kerase_of_notMem_keys absent]

/-- Counting outcomes does not touch the entries. -/
theorem countStatus_countOutcome
    (table : ProcTable)
    (outcome status : CleanupState) :
    (table.countOutcome outcome).countStatus status =
      table.countStatus status := by
  simp [countStatus]

end ProcTable

end Counting

/-- What has been done with cleaners since the process started. -/
structure Ledger where
  started : Nat := 0
  tookSucceeded : Nat := 0
  tookFailed : Nat := 0
  deriving Repr, DecidableEq

namespace Ledger

/-- Note an outcome that `RemoveEntry` returned. -/
def took (ledger : Ledger) : CleanupState → Ledger
  | .succeeded => { ledger with tookSucceeded := ledger.tookSucceeded + 1 }
  | .failed => { ledger with tookFailed := ledger.tookFailed + 1 }
  | _ => ledger

/-- Note the reply of a call. -/
def noteReply (ledger : Ledger) : (op : Op) → op.Reply → Ledger
  | .removeEntry _, (taken : Except String (CleanupState × Option Nat)) =>
      match taken with
      | .ok (status, _) => ledger.took status
      | .error _ => ledger
  | .spawnCleaner _, (spawned : Except String Unit) =>
      match spawned with
      | .ok _ => { ledger with started := ledger.started + 1 }
      | .error _ => ledger
  | _, _ => ledger

/-- Note what an action does with cleaners; a new process starts a new ledger. -/
def note (state : SyncState) (action : Action) (ledger : Ledger) : Ledger :=
  match action, state.rest with
  | .call answers, .call op _ =>
      match exec op answers state.world with
      | some (reply, _) => ledger.noteReply op reply
      | none => ledger
  | .restart _, _ => {}
  | _, _ => ledger

end Ledger

/-- Runs of instances and processes that all clean in-process. -/
def processRuns : Conditions where
  configuration := fun runtime => runtime.useJobForCleaning = false
  restarts := True
  disturbance := fun _ _ => True
  call := fun _ _ _ => True

instance : processRuns.Executable where
  configuration := fun _ => inferInstanceAs (Decidable (_ = _))
  restarts := .isTrue trivial
  disturbance := fun _ _ => .isTrue trivial
  call := fun _ _ _ => .isTrue trivial

/-- In these runs the table agrees with the live cleaners. -/
theorem processRuns_carried :
    Carried processRuns .all TableAssertion where
  flags := fun _ _ => trivial
  outline := {
    silent := fun moved holds => holds.silent moved
    call := fun allowed holds _ executed =>
      ⟨syncProtocol_admits trivial _ _, holds.call allowed executed⟩
  }
  initially := ⟨.empty, trivial⟩
  disturbed := fun holds _ moved => holds.disturbed moved
  reloaded := fun holds => holds.newInstance
  restarted := fun _ _ => .newProcess

/-- The states of these runs, with their ledgers. -/
abbrev ReachesWithLedger : SyncState × Ledger → Prop :=
  ReachableWith step Ledger.note processRuns.permits processRuns.started {}

/-- The table and the live cleaners agree with the ledger. -/
structure Balanced (ledger : Ledger) (world : World) : Prop where
  live : world.procTable.countStatus .running = world.cleaners.length
  started :
    ledger.started =
      world.cleaners.length + world.procTable.succeeded +
        world.procTable.failed
  succeeded :
    ledger.tookSucceeded + world.procTable.countStatus .succeeded =
      world.procTable.succeeded
  failed :
    ledger.tookFailed + world.procTable.countStatus .failed =
      world.procTable.failed

namespace Balanced

variable {ledger : Ledger} {world later : World}

/-- Balance only reads the table and the cleaners. -/
theorem congr
    (balanced : Balanced ledger world)
    (same : SameProcesses world later) :
    Balanced ledger later := by
  obtain ⟨sameTable, sameCleaners⟩ := same
  obtain ⟨live, started, succeeded, failed⟩ := balanced
  constructor
  · rwa [sameTable, sameCleaners]
  · rwa [sameTable, sameCleaners]
  · rwa [sameTable]
  · rwa [sameTable]

/-- A process starts with nothing to account for. -/
theorem new
    (table : world.procTable = .newProcTable)
    (cleaners : world.cleaners = []) :
    Balanced {} world := by
  constructor <;>
    simp [table, cleaners, ProcTable.newProcTable, ProcTable.countStatus]

/-- Starting a cleaner, or failing to. -/
theorem spawn
    (balanced : Balanced ledger world)
    (answers : Answers)
    (work : CleanerWork) :
    Balanced
      (ledger.noteReply (.spawnCleaner work)
        (world.execSpawnCleaner answers work).1)
      (world.execSpawnCleaner answers work).2 := by
  cases found : world.procTable.procTable.lookup work.pv.name with
  | none =>
      have absent : world.procTable.status? work.pv.name = none := by
        simp [ProcTable.status?, found]
      have counted : ∀ status,
          (world.procTable.markRunning work.pv.name
              answers.now).2.countStatus status =
            world.procTable.countStatus status +
              ProcTable.oneIf { startTime := answers.now, status := .running }
                status := by
        intro status
        rw [ProcTable.markRunning_of_none absent,
          ProcTable.countStatus_insert,
          ProcTable.countStatus_erase_of_none found]
      have counters :
          (world.procTable.markRunning work.pv.name answers.now).2.succeeded =
              world.procTable.succeeded ∧
            (world.procTable.markRunning work.pv.name answers.now).2.failed =
              world.procTable.failed := by
        rw [ProcTable.markRunning_of_none absent]
        exact ⟨rfl, rfl⟩
      obtain ⟨live, started, succeeded, failed⟩ := balanced
      rw [World.execSpawnCleaner_of_none absent answers]
      constructor
      · simpa [counted, ProcTable.oneIf] using live
      · simp only [Ledger.noteReply, List.length_cons, counters, started]
        omega
      · simpa [counted, counters, ProcTable.oneIf, Ledger.noteReply]
          using succeeded
      · simpa [counted, counters, ProcTable.oneIf, Ledger.noteReply]
          using failed
  | some entry =>
      have refused :
          ∃ err, world.procTable.markRunning work.pv.name answers.now =
            (.error err, world.procTable) := by
        simp only [ProcTable.markRunning, found]
        exact ⟨_, rfl⟩
      obtain ⟨err, refused⟩ := refused
      simpa [World.execSpawnCleaner, refused, Ledger.noteReply] using balanced

/-- A cleaner that ends moves from the running ones to its outcome. -/
theorem finish
    {index : Nat}
    {cleaner : Cleaner}
    (balanced : Balanced ledger world)
    (invariant : TableInvariant world)
    (found : world.cleaners[index]? = some cleaner)
    (performed : Except String Unit) :
    Balanced ledger (world.finishCleaner index cleaner performed) := by
  have running := invariant.running_of_mem (List.mem_of_getElem? found)
  obtain ⟨entry, present, isRunning⟩ :
      ∃ entry,
        world.procTable.procTable.lookup cleaner.pvName = some entry ∧
          entry.status = .running := by
    simpa [ProcTable.status?] using running
  have fewer :
      (world.cleaners.eraseIdx index).length + 1 = world.cleaners.length := by
    have inRange := (List.getElem?_eq_some_iff.mp found).1
    rw [List.length_eraseIdx_of_lt inRange]
    omega
  have counted : ∀ status,
      (world.finishCleaner index cleaner
            performed).procTable.countStatus status +
          ProcTable.oneIf entry status =
        world.procTable.countStatus status +
          ProcTable.oneIf
            { entry with status := cleaningOutcome cleaner.work performed }
            status := by
    intro status
    have erased := ProcTable.countStatus_erase present status
    simp only [World.finishCleaner, ProcTable.markStatus, present,
      ProcTable.countStatus_countOutcome, ProcTable.countStatus_insert]
    omega
  obtain ⟨live, started, succeeded, failed⟩ := balanced
  have whenRunning := counted .running
  have whenSucceeded := counted .succeeded
  have whenFailed := counted .failed
  rcases TableInvariant.settled_cleaningOutcome cleaner.work performed with
    outcome | outcome <;>
    simp only [ProcTable.oneIf, isRunning, outcome, reduceCtorEq, if_true,
      if_false] at whenRunning whenSucceeded whenFailed <;>
    constructor <;>
    simp only [World.finishCleaner, ProcTable.markStatus, present, outcome,
      ProcTable.countOutcome] at * <;>
    omega

/-- Taking an outcome moves it from the table to the ledger. -/
theorem takeEntry
    (balanced : Balanced ledger world)
    (invariant : TableInvariant world)
    (pvName : String) :
    Balanced
      (ledger.noteReply (.removeEntry pvName)
        (world.procTable.removeEntry pvName).1)
      { world with procTable := (world.procTable.removeEntry pvName).2 } := by
  cases found : world.procTable.procTable.lookup pvName with
  | none =>
      have absent : world.procTable.status? pvName = none := by
        simp [ProcTable.status?, found]
      rw [ProcTable.removeEntry_of_none absent]
      exact balanced
  | some entry =>
      have present : world.procTable.status? pvName = some entry.status := by
        simp [ProcTable.status?, found]
      have erased := ProcTable.countStatus_erase found
      obtain ⟨live, started, succeeded, failed⟩ := balanced
      obtain ⟨notUnknown, notAbsent⟩ := invariant.ended _ _ present
      have inRunning := erased .running
      have inSucceeded := erased .succeeded
      have inFailed := erased .failed
      rcases entry with ⟨startTime, status⟩
      cases status with
      | unknown => exact (notUnknown rfl).elim
      | notFound => exact (notAbsent rfl).elim
      | running =>
          simp only [ProcTable.removeEntry, found, if_true]
          exact ⟨live, started, succeeded, failed⟩
      | failed =>
          simp only [ProcTable.oneIf, reduceCtorEq, if_false, if_true]
            at inRunning inSucceeded inFailed
          simp only [ProcTable.removeEntry, found, reduceCtorEq, if_false,
            Ledger.noteReply, Ledger.took]
          constructor <;> dsimp only <;> omega
      | succeeded =>
          simp only [ProcTable.oneIf, reduceCtorEq, if_false, if_true]
            at inRunning inSucceeded inFailed
          simp only [ProcTable.removeEntry, found, reduceCtorEq, if_false,
            Ledger.noteReply, Ledger.took]
          constructor <;> dsimp only <;> omega

/-- Every call keeps the balance. -/
theorem call
    {op : Op}
    {answers : Answers}
    {reply : op.Reply}
    (balanced : Balanced ledger world)
    (invariant : TableInvariant world)
    (executed : exec op answers world = some (reply, later)) :
    Balanced (ledger.noteReply op reply) later := by
  cases op with
  | removeEntry pvName =>
      cases executed
      exact balanced.takeEntry invariant pvName
  | spawnCleaner work =>
      have spawned := Option.some.inj executed
      have balancedAfter := balanced.spawn answers work
      rw [spawned] at balancedAfter
      exact balancedAfter
  | _ =>
      exact balanced.congr (.of_exec rfl executed)

/-- Every move of the surroundings keeps the balance. -/
theorem disturbed
    {runtime : RuntimeConfig}
    {disturbance : Disturbance}
    (balanced : Balanced ledger world)
    (invariant : TableInvariant world)
    (moved : world.disturb runtime disturbance = some later) :
    Balanced ledger later := by
  rcases World.processes_of_disturb moved with
    ⟨index, cleaner, performed, found, rfl⟩ | ⟨sameTable, sameCleaners, _⟩
  · exact balanced.finish invariant found performed
  · exact balanced.congr ⟨sameTable, sameCleaners⟩

/-- Every step of a run keeps the balance. -/
theorem step
    {state next : SyncState}
    {action : Action}
    (balanced : Balanced ledger state.world)
    (invariant : TableInvariant state.world)
    (stepped : LocalProvisioner.step state action = some next) :
    Balanced (Ledger.note state action ledger) next.world := by
  obtain ⟨discoverer, rest, world⟩ := state
  cases action with
  | call answers =>
      cases rest with
      | done value => cases stepped
      | call op rest =>
          obtain ⟨⟨reply, after⟩, executed, rfl⟩ :=
            Option.map_eq_some_iff.mp stepped
          have noted :
              Ledger.note ⟨discoverer, .call op rest, world⟩ (.call answers)
                  ledger =
                ledger.noteReply op reply := by
            simp only [Ledger.note, executed]
          rw [noted]
          exact balanced.call invariant executed
  | disturb disturbance =>
      obtain ⟨later, moved, rfl⟩ := Option.map_eq_some_iff.mp stepped
      exact balanced.disturbed invariant moved
  | beginPass =>
      cases rest with
      | done value =>
          cases stepped
          exact balanced
      | call op rest => cases stepped
  | reload runtime =>
      simp only [LocalProvisioner.step] at stepped
      split at stepped
      · cases stepped
        exact balanced.congr ⟨rfl, rfl⟩
      · cases stepped
  | restart runtime =>
      simp only [LocalProvisioner.step] at stepped
      split at stepped
      · cases stepped
        exact new rfl rfl
      · cases stepped

end Balanced

/--
In every state the cleaners started so far are those that run, have succeeded
or have failed; the running ones are the live ones; and every outcome that was
counted has been taken or is still in the table.
-/
theorem stats_agree_with_ledger
    {state : SyncState}
    {ledger : Ledger}
    (reaches : ReachesWithLedger (state, ledger)) :
    let stats := state.world.procTable.stats
    ledger.started = stats.running + stats.succeeded + stats.failed ∧
      stats.running = state.world.cleaners.length ∧
      ledger.tookSucceeded + state.world.procTable.countStatus .succeeded =
        stats.succeeded ∧
      ledger.tookFailed + state.world.procTable.countStatus .failed =
        stats.failed := by
  have balanced : Balanced ledger state.world := by
    refine @ReachableWith.invariant _ _ _ _ _ _ _ _
      (fun state ledger => Balanced ledger state.world) ?_ ?_ _ reaches
    · rintro state ⟨runtime, discoverer, _, _, rfl⟩
      exact .new rfl rfl
    · intro state ledger action next reached balanced _ stepped
      obtain ⟨phase, holds⟩ :=
        processRuns_carried.assertion_of_reaches reached
      exact balanced.step holds.invariant stepped
  obtain ⟨live, started, succeeded, failed⟩ := balanced
  have running :
      state.world.procTable.stats.running = state.world.cleaners.length :=
    live
  refine ⟨?_, running, succeeded, failed⟩
  rw [running]
  exact started

/-- A run in which a cleaner is started and succeeds, and its outcome is taken. -/
theorem stats_agree_with_ledger_of_samplePasses :
    ∃ state,
      ReachesWithLedger (state, { started := 1, tookSucceeded := 1 }) ∧
        1 = state.world.procTable.stats.running +
            state.world.procTable.stats.succeeded +
            state.world.procTable.stats.failed ∧
        state.world.procTable.stats.running = state.world.cleaners.length ∧
        1 + state.world.procTable.countStatus .succeeded =
          state.world.procTable.stats.succeeded ∧
        0 + state.world.procTable.countStatus .failed =
          state.world.procTable.stats.failed := by
  have started :
      processRuns.started (sampleStart false sampleClasses) ∧
        ({} : Ledger) = {} :=
    ⟨⟨sampleRuntime false sampleClasses, _, rfl,
      newDiscoverer_sampleRuntime false sampleClasses, rfl⟩, rfl⟩
  obtain ⟨⟨state, ledger⟩, reaches, checked⟩ :=
    @Reachable.exists_of_replay _ _ (observed step Ledger.note)
      (fun state action => processRuns.permits state.1 action)
      (fun state => processRuns.started state.1 ∧ state.2 = {}) _
      (sampleCleaningPass ++ sampleDeletingPass)
      (sampleStart false sampleClasses, {})
      (fun reached => decide (reached.2 = { started := 1, tookSucceeded := 1 }))
      started (by decide +kernel)
  obtain rfl : ledger = { started := 1, tookSucceeded := 1 } :=
    of_decide_eq_true checked
  exact ⟨state, reaches, stats_agree_with_ledger reaches⟩

end LocalProvisioner
