import LocalProvisioner.Objects

namespace LocalProvisioner

/-!
# The table of in-process cleaners

`ProcTableImpl` records one entry for each PV whose in-process cleaner is
running, or has ended without its outcome having been taken.  Every method
holds the table's mutex from start to end, so each one is a single transition
of the table; it is modelled as a function returning the reply and the table
after the call.
-/

/-- `CleanupState`, in the order of the source's `iota`. -/
inductive CleanupState where
  | unknown : CleanupState
  | notFound : CleanupState
  | running : CleanupState
  | failed : CleanupState
  | succeeded : CleanupState
  deriving Repr, DecidableEq

/-- The integer behind a cleanup state, as error texts print it. -/
def CleanupState.code : CleanupState → Nat
  | .unknown => 1
  | .notFound => 2
  | .running => 3
  | .failed => 4
  | .succeeded => 5

/-- The states in which an entry can be removed. -/
def CleanupState.hasEnded (status : CleanupState) : Bool :=
  decide (status ≠ .running) && decide (status ≠ .unknown)

/-- `ProcEntry`: when a cleaner was started, and how far it is. -/
structure ProcEntry where
  startTime : Nat
  status : CleanupState
  deriving Repr, DecidableEq

/-- `ProcTableImpl` without its mutex. -/
structure ProcTable where
  procTable : GoMap ProcEntry
  succeeded : Nat
  failed : Nat
  deriving DecidableEq

/-- `ProcTableStats`. -/
structure ProcTableStats where
  running : Nat
  succeeded : Nat
  failed : Nat
  deriving Repr, DecidableEq

namespace ProcTable

/-- `NewProcTable`. -/
def newProcTable : ProcTable where
  procTable := ∅
  succeeded := 0
  failed := 0

/-- The status recorded for a PV, if any. -/
def status? (table : ProcTable) (pvName : String) : Option CleanupState :=
  (table.procTable.lookup pvName).map ProcEntry.status

/-- `IsRunning`. -/
def isRunning (table : ProcTable) (pvName : String) : Bool :=
  match table.procTable.lookup pvName with
  | none => false
  | some entry => entry.status == .running

/-- `IsEmpty`. -/
def isEmpty (table : ProcTable) : Bool :=
  table.procTable.entries.isEmpty

/-- `MarkRunning`, reading the clock as `now`. -/
def markRunning
    (table : ProcTable)
    (pvName : String)
    (now : Nat) :
    Except String Unit × ProcTable :=
  match table.procTable.lookup pvName with
  | some _ =>
      (.error ("Failed to mark running of " ++ quoted pvName ++
        " as it is already running, should never happen"), table)
  | none =>
      (.ok (), { table with
        procTable :=
          table.procTable.insert pvName
            { startTime := now, status := .running } })

/-- The deferred counter update of `markStatus`, run on every exit. -/
def countOutcome (table : ProcTable) (status : CleanupState) : ProcTable :=
  match status with
  | .succeeded => { table with succeeded := table.succeeded + 1 }
  | .failed => { table with failed := table.failed + 1 }
  | _ => table

/-- `markStatus`. -/
def markStatus
    (table : ProcTable)
    (pvName : String)
    (status : CleanupState) :
    Except String Unit × ProcTable :=
  match table.procTable.lookup pvName with
  | none =>
      (.error ("failed to mark status " ++ toString status.code ++
        " for pv " ++ quoted pvName ++
        " as it is not present in proctable"), table.countOutcome status)
  | some entry =>
      (.ok (), { table with
        procTable :=
          table.procTable.insert pvName { entry with status := status }
        }.countOutcome status)

/-- `MarkFailed`. -/
def markFailed (table : ProcTable) (pvName : String) :
    Except String Unit × ProcTable :=
  table.markStatus pvName .failed

/-- `MarkSucceeded`. -/
def markSucceeded (table : ProcTable) (pvName : String) :
    Except String Unit × ProcTable :=
  table.markStatus pvName .succeeded

/-- `RemoveEntry`: the final state and start time, or an error. -/
def removeEntry (table : ProcTable) (pvName : String) :
    Except String (CleanupState × Option Nat) × ProcTable :=
  match table.procTable.lookup pvName with
  | none => (.ok (.notFound, none), table)
  | some entry =>
      if entry.status = .running then
        (.error ("cannot remove proctable entry for " ++ quoted pvName ++
          " when it is still running"), table)
      else if entry.status = .unknown then
        (.error ("proctable entry for " ++ quoted pvName ++
          " in unexpected unknown state"), table)
      else
        (.ok (entry.status, some entry.startTime),
          { table with procTable := table.procTable.erase pvName })

/-- `Stats`. -/
def stats (table : ProcTable) : ProcTableStats where
  running :=
    table.procTable.entries.countP fun entry => entry.2.status == .running
  succeeded := table.succeeded
  failed := table.failed

/-- The number of entries with a given status. -/
def countStatus (table : ProcTable) (status : CleanupState) : Nat :=
  table.procTable.entries.countP fun entry => entry.2.status == status

@[simp] theorem status?_newProcTable (pvName : String) :
    newProcTable.status? pvName = none := by
  simp [status?, newProcTable]

@[simp] theorem procTable_countOutcome
    (table : ProcTable)
    (status : CleanupState) :
    (table.countOutcome status).procTable = table.procTable := by
  cases status <;> rfl

/-- `IsRunning` reads the recorded status. -/
theorem isRunning_iff {table : ProcTable} {pvName : String} :
    table.isRunning pvName = true ↔
      table.status? pvName = some .running := by
  unfold isRunning status?
  cases table.procTable.lookup pvName <;> simp

/-- `MarkRunning` succeeds exactly when the PV has no entry. -/
theorem markRunning_of_none
    {table : ProcTable}
    {pvName : String}
    (absent : table.status? pvName = none)
    (now : Nat) :
    table.markRunning pvName now =
      (.ok (), { table with
        procTable :=
          table.procTable.insert pvName
            { startTime := now, status := .running } }) := by
  have missing : table.procTable.lookup pvName = none := by
    simpa [status?] using absent
  simp [markRunning, missing]

/-- A started cleaner is recorded as running; other entries are untouched. -/
theorem status?_markRunning
    {table : ProcTable}
    {pvName : String}
    (absent : table.status? pvName = none)
    (now : Nat)
    (other : String) :
    (table.markRunning pvName now).2.status? other =
      if other = pvName then some .running else table.status? other := by
  rw [markRunning_of_none absent now]
  by_cases same : other = pvName
  · subst other
    simp [status?]
  · simp [status?, same]

/-- `markStatus` fails exactly when the PV has no entry. -/
theorem markStatus_ok_iff
    {table : ProcTable}
    {pvName : String}
    {status : CleanupState} :
    (table.markStatus pvName status).1 = .ok () ↔
      table.status? pvName ≠ none := by
  unfold markStatus status?
  cases table.procTable.lookup pvName <;> simp

/-- A finished cleaner's outcome replaces its entry; others are untouched. -/
theorem status?_markStatus
    {table : ProcTable}
    {pvName : String}
    (present : table.status? pvName ≠ none)
    (status : CleanupState)
    (other : String) :
    (table.markStatus pvName status).2.status? other =
      if other = pvName then some status else table.status? other := by
  unfold markStatus
  cases found : table.procTable.lookup pvName with
  | none =>
      exact (present (by simp [status?, found])).elim
  | some entry =>
      by_cases same : other = pvName
      · subst other
        simp [status?]
      · simp [status?, same]

/-- `RemoveEntry` without an entry reports that and changes nothing. -/
theorem removeEntry_of_none
    {table : ProcTable}
    {pvName : String}
    (absent : table.status? pvName = none) :
    table.removeEntry pvName = (.ok (.notFound, none), table) := by
  have missing : table.procTable.lookup pvName = none := by
    simpa [status?] using absent
  simp [removeEntry, missing]

/-- `RemoveEntry` of an ended cleaner takes its outcome and its entry away. -/
theorem removeEntry_of_ended
    {table : ProcTable}
    {pvName : String}
    {status : CleanupState}
    (found : table.status? pvName = some status)
    (ended : status ≠ .running ∧ status ≠ .unknown) :
    ∃ startTime,
      table.removeEntry pvName =
        (.ok (status, some startTime),
          { table with procTable := table.procTable.erase pvName }) := by
  unfold status? at found
  cases entryFound : table.procTable.lookup pvName with
  | none =>
      simp [entryFound] at found
  | some entry =>
      simp only [entryFound, Option.map_some, Option.some.injEq] at found
      subst status
      exact ⟨entry.startTime, by
        simp [removeEntry, entryFound, ended.1, ended.2]⟩

/-- Erasing an entry clears its status and no other. -/
theorem status?_erase
    (table : ProcTable)
    (pvName other : String) :
    status? { table with procTable := table.procTable.erase pvName } other =
      if other = pvName then none else table.status? other := by
  by_cases same : other = pvName
  · subst other
    simp [status?]
  · simp [status?, same]

/-- `RemoveEntry` depends on and changes the entry of its PV. -/
theorem removeEntry_of_lookup_eq
    {first second : ProcTable}
    {pvName : String}
    (same : first.procTable.lookup pvName = second.procTable.lookup pvName) :
    (first.removeEntry pvName).1 = (second.removeEntry pvName).1 ∧
      (first.removeEntry pvName).2.procTable.lookup pvName =
        (second.removeEntry pvName).2.procTable.lookup pvName := by
  unfold removeEntry
  rw [same]
  cases second.procTable.lookup pvName with
  | none => exact ⟨rfl, same⟩
  | some entry =>
      dsimp only
      split
      · exact ⟨rfl, same⟩
      · split
        · exact ⟨rfl, same⟩
        · exact ⟨rfl, by simp⟩

/-- `RemoveEntry` takes nothing away but an entry that is not running. -/
theorem removeEntry_cases (table : ProcTable) (pvName : String) :
    (table.removeEntry pvName).2 = table ∨
      (table.isRunning pvName = false ∧
        (table.removeEntry pvName).2 =
          { table with procTable := table.procTable.erase pvName }) := by
  unfold removeEntry
  split
  · exact .inl rfl
  · rename_i entry found
    split
    · exact .inl rfl
    · rename_i notRunning
      split
      · exact .inl rfl
      · exact .inr ⟨by simp [isRunning, found, notRunning], rfl⟩

/-- `RemoveEntry` leaves the other entries alone. -/
theorem lookup_removeEntry_of_ne
    {pvName other : String}
    (apart : other ≠ pvName)
    (table : ProcTable) :
    (table.removeEntry pvName).2.procTable.lookup other =
      table.procTable.lookup other := by
  rcases table.removeEntry_cases pvName with same | ⟨_, erased⟩
  · rw [same]
  · rw [erased]
    exact AList.lookup_erase_ne apart

/-- `RemoveEntry` never ends a running cleaner. -/
theorem isRunning_removeEntry
    (table : ProcTable)
    (pvName other : String) :
    (table.removeEntry pvName).2.isRunning other = table.isRunning other := by
  rcases table.removeEntry_cases pvName with same | ⟨idle, erased⟩
  · rw [same]
  · by_cases sameName : other = pvName
    · subst sameName
      rw [idle, erased]
      simp [isRunning]
    · simp [isRunning, lookup_removeEntry_of_ne sameName]

/-- `RemoveEntry` brings no new status in. -/
theorem status?_removeEntry
    {table : ProcTable}
    {pvName other : String}
    {status : CleanupState}
    (found : (table.removeEntry pvName).2.status? other = some status) :
    table.status? other = some status := by
  rcases table.removeEntry_cases pvName with same | ⟨_, erased⟩
  · rwa [same] at found
  · rw [erased, status?_erase] at found
    split at found
    · cases found
    · exact found

/-- `RemoveEntry` succeeds for a cleaner that has ended, and without one. -/
theorem removeEntry_ok
    {table : ProcTable}
    {pvName : String}
    (idle : table.isRunning pvName = false)
    (known : table.status? pvName ≠ some .unknown) :
    ∃ taken, (table.removeEntry pvName).1 = .ok taken := by
  cases found : table.procTable.lookup pvName with
  | none => exact ⟨(.notFound, none), by simp [removeEntry, found]⟩
  | some entry =>
      have notRunning : entry.status ≠ .running := by
        simpa [isRunning, found] using idle
      have notUnknown : entry.status ≠ .unknown := by
        simpa [status?, found] using known
      exact ⟨(entry.status, some entry.startTime),
        by simp [removeEntry, found, notRunning, notUnknown]⟩

/-- `RemoveEntry` fails only while a cleaner runs, or on an unknown state. -/
theorem isOk_removeEntry (table : ProcTable) (pvName : String) :
    (table.removeEntry pvName).1.isOk =
      (table.status? pvName).all CleanupState.hasEnded := by
  unfold removeEntry status?
  cases table.procTable.lookup pvName with
  | none => rfl
  | some entry =>
      cases state : entry.status <;>
        simp [state, CleanupState.hasEnded, Except.isOk, Except.toBool]

/-- What is left after `RemoveEntry`. -/
theorem status?_removeEntry_eq (table : ProcTable) (pvName other : String) :
    (table.removeEntry pvName).2.status? other =
      if other = pvName ∧ (table.status? pvName).all CleanupState.hasEnded then
        none
      else
        table.status? other := by
  by_cases same : other = pvName
  · subst same
    cases found : table.status? other with
    | none => simp [removeEntry_of_none found, found]
    | some status =>
        by_cases ended : status ≠ .running ∧ status ≠ .unknown
        · obtain ⟨startTime, removed⟩ := removeEntry_of_ended found ended
          simp [removed, status?_erase, CleanupState.hasEnded, ended]
        · have kept : (table.removeEntry other).2 = table := by
            unfold status? at found
            obtain ⟨entry, stored, rfl⟩ := Option.map_eq_some_iff.mp found
            unfold removeEntry
            rw [stored]
            by_cases running : entry.status = .running
            · simp [running]
            · have unknown : entry.status = .unknown := by
                simpa [running] using ended
              simp [unknown]
          rw [kept, found]
          simp only [CleanupState.hasEnded, Option.all_some, true_and]
          rw [if_neg]
          simpa using ended
  · rw [if_neg fun both => same both.1]
    simp [status?, lookup_removeEntry_of_ne same]

/-- `MarkRunning` leaves the other entries alone. -/
theorem lookup_markRunning_of_ne
    {pvName other : String}
    (apart : other ≠ pvName)
    (table : ProcTable)
    (now : Nat) :
    (table.markRunning pvName now).2.procTable.lookup other =
      table.procTable.lookup other := by
  unfold markRunning
  split
  · rfl
  · exact AList.lookup_insert_ne apart

/-- A state of the tracker: what its methods make of a new table. -/
inductive Made : ProcTable → Prop where
  | new : Made newProcTable
  | markRunning
      {table : ProcTable}
      (pvName : String)
      (now : Nat) :
      Made table →
      Made (table.markRunning pvName now).2
  | markFailed
      {table : ProcTable}
      (pvName : String) :
      Made table →
      Made (table.markFailed pvName).2
  | markSucceeded
      {table : ProcTable}
      (pvName : String) :
      Made table →
      Made (table.markSucceeded pvName).2
  | removeEntry
      {table : ProcTable}
      (pvName : String) :
      Made table →
      Made (table.removeEntry pvName).2

/-- `MarkRunning` records no unknown state. -/
theorem status?_markRunning_ne_unknown
    {table : ProcTable}
    {other : String}
    (known : table.status? other ≠ some .unknown)
    (pvName : String)
    (now : Nat) :
    (table.markRunning pvName now).2.status? other ≠ some .unknown := by
  by_cases same : other = pvName
  · subst same
    cases found : table.procTable.lookup other with
    | none =>
        have absent : table.status? other = none := by
          simp [status?, found]
        simp [status?_markRunning absent]
    | some entry => simpa [markRunning, found] using known
  · simpa [status?, lookup_markRunning_of_ne same] using known

/-- `markStatus` records the given state, if anything. -/
theorem status?_markStatus_ne_unknown
    {table : ProcTable}
    {other : String}
    {status : CleanupState}
    (known : table.status? other ≠ some .unknown)
    (given : status ≠ .unknown)
    (pvName : String) :
    (table.markStatus pvName status).2.status? other ≠ some .unknown := by
  cases present : table.status? pvName with
  | none =>
      have missing : table.procTable.lookup pvName = none := by
        simpa [status?] using present
      simpa [markStatus, missing, status?] using known
  | some recorded =>
      rw [status?_markStatus (by simp [present])]
      split
      · simpa using given
      · exact known

/-- No method records the unknown state. -/
theorem Made.known
    {table : ProcTable}
    (made : table.Made)
    (other : String) :
    table.status? other ≠ some .unknown := by
  induction made with
  | new => simp
  | markRunning pvName now _ inductionHypothesis =>
      exact status?_markRunning_ne_unknown inductionHypothesis pvName now
  | markFailed pvName _ inductionHypothesis =>
      exact status?_markStatus_ne_unknown inductionHypothesis (by simp) pvName
  | markSucceeded pvName _ inductionHypothesis =>
      exact status?_markStatus_ne_unknown inductionHypothesis (by simp) pvName
  | removeEntry pvName _ inductionHypothesis =>
      exact fun unknown =>
        inductionHypothesis (status?_removeEntry unknown)

end ProcTable

end LocalProvisioner
