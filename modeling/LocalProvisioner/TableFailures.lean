import LocalProvisioner.CleanerAccounts

namespace LocalProvisioner

/-!
# Failed calls of the table of in-process cleaners

`MarkRunning` and `RemoveEntry` leave the table alone when they return an
error.  `MarkFailed` and `MarkSucceeded` count the outcome in a deferred
function, which also runs when the PV has no entry and an error is returned:
the statistics then report a cleaner that has never existed.

In runs of the provisioner this does not happen.  Only the goroutine whose
`MarkRunning` succeeded marks an outcome, and nothing takes its entry before.
-/

/-- A call of a method of `ProcTableImpl`. -/
inductive TableCall where
  | isRunning : (pvName : String) → TableCall
  | isEmpty : TableCall
  | markRunning : (pvName : String) → (now : Nat) → TableCall
  | markFailed : (pvName : String) → TableCall
  | markSucceeded : (pvName : String) → TableCall
  | removeEntry : (pvName : String) → TableCall
  | stats : TableCall
  deriving Repr, DecidableEq

/-- The error that a call returns, if any. -/
def returnedError {Reply : Type} : Except String Reply → Option String
  | .error err => some err
  | .ok _ => none

theorem isSome_returnedError {Reply : Type} {reply : Except String Reply} :
    (returnedError reply).isSome = true ↔ ∃ err, reply = .error err := by
  cases reply <;> simp [returnedError]

namespace TableCall

/-- The error that a call returns, if any, and the table after the call. -/
def run (call : TableCall) (table : ProcTable) : Option String × ProcTable :=
  match call with
  | .isRunning _ => (none, table)
  | .isEmpty => (none, table)
  | .markRunning pvName now =>
      (table.markRunning pvName now).map returnedError id
  | .markFailed pvName => (table.markFailed pvName).map returnedError id
  | .markSucceeded pvName => (table.markSucceeded pvName).map returnedError id
  | .removeEntry pvName => (table.removeEntry pvName).map returnedError id
  | .stats => (none, table)

/-- The PV whose cleaner a call reports to have ended. -/
def reports? : TableCall → Option String
  | .markFailed pvName => some pvName
  | .markSucceeded pvName => some pvName
  | _ => none

/-- The table after a sequence of calls on a new one. -/
def tableAfter (calls : List TableCall) : ProcTable :=
  calls.foldl (fun table call => (call.run table).2) .newProcTable

end TableCall

/-- Two tables with the same entries, start times included, and statistics. -/
structure ProcTable.SameAs (before after : ProcTable) : Prop where
  entries :
    ∀ pvName, after.procTable.lookup pvName = before.procTable.lookup pvName
  stats : after.stats = before.stats

theorem ProcTable.SameAs.refl (table : ProcTable) : table.SameAs table :=
  ⟨fun _ => rfl, rfl⟩

/-- Every call of a sequence that returns an error leaves the table as it was. -/
def FailuresLeaveTable (calls : List TableCall) : Prop :=
  ∀ earlier call later,
    calls = earlier ++ call :: later →
    (call.run (TableCall.tableAfter earlier)).1.isSome = true →
    (TableCall.tableAfter earlier).SameAs
      (call.run (TableCall.tableAfter earlier)).2

/-- Every outcome that a sequence marks is marked for a PV with an entry. -/
def ReportsKnown (calls : List TableCall) : Prop :=
  ∀ earlier call later,
    calls = earlier ++ call :: later →
    ∀ pvName,
      call.reports? = some pvName →
      (TableCall.tableAfter earlier).status? pvName ≠ none

/-- A mark of an outcome changes the statistics, also when it fails. -/
theorem ProcTable.stats_markStatus_ne
    (table : ProcTable)
    (pvName : String)
    {status : CleanupState}
    (ended : status = .failed ∨ status = .succeeded) :
    (table.markStatus pvName status).2.stats ≠ table.stats := by
  intro same
  have failures := congrArg ProcTableStats.failed same
  have successes := congrArg ProcTableStats.succeeded same
  unfold ProcTable.markStatus at failures successes
  rcases ended with rfl | rfl <;>
    cases found : table.procTable.lookup pvName <;>
    simp [found, ProcTable.stats, ProcTable.countOutcome] at failures successes

/-- A mark that fails changes the table; it fails if the PV has no entry. -/
theorem ProcTable.sameAs_failed_markStatus_iff
    (table : ProcTable)
    (pvName : String)
    {status : CleanupState}
    (ended : status = .failed ∨ status = .succeeded) :
    ((returnedError (table.markStatus pvName status).1).isSome = true →
        table.SameAs (table.markStatus pvName status).2) ↔
      table.status? pvName ≠ none := by
  have counted := table.stats_markStatus_ne pvName ended
  cases found : table.procTable.lookup pvName with
  | none =>
      have failed :
          (returnedError (table.markStatus pvName status).1).isSome = true := by
        simp [ProcTable.markStatus, found, returnedError]
      constructor
      · intro same
        exact (counted (same failed).stats).elim
      · intro present
        simp [ProcTable.status?, found] at present
  | some entry =>
      simp [ProcTable.markStatus, ProcTable.status?, found, returnedError]

/-- `MarkRunning` that fails leaves the table alone. -/
theorem ProcTable.markRunning_of_error
    {table : ProcTable}
    {pvName err : String}
    {now : Nat}
    (failed : (table.markRunning pvName now).1 = .error err) :
    (table.markRunning pvName now).2 = table := by
  revert failed
  unfold ProcTable.markRunning
  split
  · exact fun _ => rfl
  · rintro ⟨⟩

/-- `RemoveEntry` that fails leaves the table alone. -/
theorem ProcTable.removeEntry_of_error
    {table : ProcTable}
    {pvName err : String}
    (failed : (table.removeEntry pvName).1 = .error err) :
    (table.removeEntry pvName).2 = table := by
  revert failed
  unfold ProcTable.removeEntry
  split
  · rintro ⟨⟩
  · split
    · exact fun _ => rfl
    · split
      · exact fun _ => rfl
      · rintro ⟨⟩

/-- A call that fails leaves the table alone, unless it marks an unknown PV. -/
theorem TableCall.sameAs_failed_iff (call : TableCall) (table : ProcTable) :
    ((call.run table).1.isSome = true → table.SameAs (call.run table).2) ↔
      ∀ pvName, call.reports? = some pvName → table.status? pvName ≠ none := by
  cases call with
  | isRunning pvName => simp [run, reports?]
  | isEmpty => simp [run, reports?]
  | stats => simp [run, reports?]
  | markRunning pvName now =>
      refine iff_of_true ?_ (by simp [reports?])
      intro failed
      obtain ⟨err, failed⟩ := isSome_returnedError.mp failed
      simpa [run, ProcTable.markRunning_of_error failed] using
        ProcTable.SameAs.refl table
  | removeEntry pvName =>
      refine iff_of_true ?_ (by simp [reports?])
      intro failed
      obtain ⟨err, failed⟩ := isSome_returnedError.mp failed
      simpa [run, ProcTable.removeEntry_of_error failed] using
        ProcTable.SameAs.refl table
  | markFailed pvName =>
      simpa [run, reports?, ProcTable.markFailed] using
        table.sameAs_failed_markStatus_iff pvName (.inl rfl)
  | markSucceeded pvName =>
      simpa [run, reports?, ProcTable.markSucceeded] using
        table.sameAs_failed_markStatus_iff pvName (.inr rfl)

/--
The failing calls of a sequence leave the table as it was just if every
outcome is marked for a PV that has an entry.
-/
theorem failuresLeaveTable_iff_reportsKnown (calls : List TableCall) :
    FailuresLeaveTable calls ↔ ReportsKnown calls := by
  constructor
  · intro leaves earlier call later shape
    apply (call.sameAs_failed_iff _).mp
    exact leaves earlier call later shape
  · intro known earlier call later shape
    apply (call.sameAs_failed_iff _).mpr
    exact known earlier call later shape

/-- A failure that is marked for an unknown PV is counted. -/
theorem not_failuresLeaveTable_of_unknown :
    ¬ FailuresLeaveTable [.markFailed "local-pv-1"] := by
  intro leaves
  have same := leaves [] (.markFailed "local-pv-1") [] rfl (by decide)
  have counted := congrArg ProcTableStats.failed same.stats
  revert counted
  decide

/-- In runs with in-process cleaning, the mark of a live cleaner never fails. -/
theorem markStatus_of_live
    {state : SyncState}
    (reaches : processRuns.Reaches state)
    {cleaner : Cleaner}
    (live : cleaner ∈ state.world.cleaners)
    (status : CleanupState) :
    (state.world.procTable.markStatus cleaner.pvName status).1 = .ok () := by
  obtain ⟨_, holds⟩ := processRuns_carried.assertion_of_reaches reaches
  apply ProcTable.markStatus_ok_iff.mpr
  rw [holds.invariant.running_of_mem live]
  simp

end LocalProvisioner
