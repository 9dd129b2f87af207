import LocalProvisioner.CleanerTable

namespace LocalProvisioner

open Interleaving

/-!
# In-process cleaning

All instances of a run clean in-process and share one `ProcTable`.  Nothing is
assumed of the cache, which the surroundings may overwrite at any time, of the
filesystem, or of the API server.

The invariant ties three things together: the entries of the table, the live
cleaner goroutines, and the history.  A running entry is a live cleaner, and a
succeeded entry is a cleaner run that has not been followed by a creation or a
deletion of its PV, so that taking the entry licenses one deletion.
-/

/-- Runs whose instances all clean in-process and share one table. -/
def processMode : Conditions where
  configuration := fun runtime => runtime.useJobForCleaning = false
  restarts := False
  disturbance := fun _ _ => True
  call := fun _ _ _ => True

instance : processMode.Executable where
  configuration := fun _ => inferInstanceAs (Decidable (_ = _))
  restarts := inferInstanceAs (Decidable False)
  disturbance := fun _ _ => .isTrue trivial
  call := fun _ _ _ => .isTrue trivial

/-- The scope of in-process cleaning. -/
def processScope : Scope where
  flags := fun flag => flag = false
  directories := True

/-- What the latest `ListPVs` call of a history returned. -/
def lastListing : List Event → Option (List PersistentVolume)
  | [] => none
  | .listedPVs listed :: _ => some listed
  | _ :: past => lastListing past

/--
`since` is what has happened since cleaner run `run` was started for a
reclaimable PV of the latest listing, and it contains no creation and no
deletion of that PV.
-/
def CleaningSince
    (history : List Event)
    (pvName : String)
    (run : Nat)
    (since : List Event) : Prop :=
  ∃ pv before listing,
    history = since ++ .cleanerStarted run pv :: before ∧
      before.length = run ∧
      pv.name = pvName ∧
      Reclaimable pv ∧
      lastListing before = some listing ∧
      pv ∈ listing ∧
      .createPVIssued pvName ∉ since ∧
      .deletePVIssued pvName ∉ since

/-- A cleaner run that has ended in success and licenses a deletion. -/
def Licensed (past : List Event) (pvName : String) (run : Nat) : Prop :=
  ∃ since,
    CleaningSince past pvName run since ∧
      .cleanerEnded run pvName .succeeded ∈ since

/-- An event that neither creates nor deletes the PV keeps its run going. -/
theorem CleaningSince.cons
    {history since : List Event}
    {pvName : String}
    {run : Nat}
    {event : Event}
    (cleaning : CleaningSince history pvName run since)
    (notCreated : event ≠ .createPVIssued pvName)
    (notDeleted : event ≠ .deletePVIssued pvName) :
    CleaningSince (event :: history) pvName run (event :: since) := by
  obtain ⟨pv, before, listing, shape, ordinal, named, reclaimable, latest,
    member, fresh, kept⟩ := cleaning
  refine ⟨pv, before, listing, by rw [shape]; rfl, ordinal, named,
    reclaimable, latest, member, ?_, ?_⟩
  · simp only [List.mem_cons, not_or]
    exact ⟨notCreated.symm, fresh⟩
  · simp only [List.mem_cons, not_or]
    exact ⟨notDeleted.symm, kept⟩

/-- A license survives every event about other PVs. -/
theorem Licensed.cons
    {history : List Event}
    {pvName : String}
    {run : Nat}
    {event : Event}
    (licensed : Licensed history pvName run)
    (notCreated : event ≠ .createPVIssued pvName)
    (notDeleted : event ≠ .deletePVIssued pvName) :
    Licensed (event :: history) pvName run := by
  obtain ⟨since, cleaning, ended⟩ := licensed
  exact ⟨event :: since, cleaning.cons notCreated notDeleted,
    List.mem_cons_of_mem _ ended⟩

/--
The same run cannot license two deletions of a history: the earlier deletion
lies between the start of the run and the later one.
-/
theorem Licensed.not_again
    {run : Nat}
    {firstName secondName : String}
    {first second : List Event}
    (firstLicensed : Licensed first firstName run)
    (secondLicensed : Licensed second secondName run)
    (earlier : .deletePVIssued firstName :: first <:+ second) :
    False := by
  obtain ⟨firstSince, ⟨firstPV, firstBefore, _, firstShape, firstOrdinal,
    firstNamed, _⟩, _⟩ := firstLicensed
  obtain ⟨since, ⟨pv, before, _, shape, ordinal, named, _, _, _, _, kept⟩,
    _⟩ := secondLicensed
  have sameStart :
      Event.cleanerStarted run firstPV :: firstBefore =
        .cleanerStarted run pv :: before := by
    have firstSuffix :
        (.cleanerStarted run firstPV :: firstBefore) <:+ second := by
      refine List.IsSuffix.trans ?_ earlier
      rw [firstShape]
      exact ⟨.deletePVIssued firstName :: firstSince, rfl⟩
    have secondSuffix : (.cleanerStarted run pv :: before) <:+ second := by
      rw [shape]
      exact ⟨since, rfl⟩
    refine List.IsSuffix.eq_of_length
      (List.suffix_of_suffix_length_le firstSuffix secondSuffix ?_) ?_
    · simp [firstOrdinal, ordinal]
    · simp [firstOrdinal, ordinal]
  have sameName : firstName = secondName := by
    simp only [List.cons.injEq, Event.cleanerStarted.injEq, true_and]
      at sameStart
    rw [← firstNamed, ← named, sameStart.1]
  obtain ⟨later, split⟩ := earlier
  rw [shape, firstShape, sameStart, ← List.cons_append,
    ← List.append_assoc] at split
  have between : later ++ .deletePVIssued firstName :: firstSince = since :=
    List.append_cancel_right split
  apply kept
  rw [← between, sameName]
  simp

/-- What the table and the cleaners owe to the history. -/
structure HistoryInvariant (world : World) : Prop where
  underway :
    ∀ cleaner ∈ world.cleaners,
      ∃ since,
        CleaningSince world.history cleaner.pvName cleaner.run since
  licensed :
    ∀ pvName,
      world.procTable.status? pvName = some .succeeded →
      ∃ run, Licensed world.history pvName run
  deletions :
    ∀ pvName past,
      .deletePVIssued pvName :: past <:+ world.history →
      ∃ run, Licensed past pvName run

namespace HistoryInvariant

/-- The invariant only reads the table, the cleaners and the history. -/
theorem congr
    {world later : World}
    (invariant : HistoryInvariant world)
    (same : SameProcesses world later)
    (sameHistory : later.history = world.history) :
    HistoryInvariant later := by
  obtain ⟨underway, licensed, deletions⟩ := invariant
  constructor
  · rwa [same.cleaners, sameHistory]
  · rwa [same.procTable, sameHistory]
  · rwa [sameHistory]

/--
Recording an event keeps the invariant if a PV it creates or deletes has no
entry, and a deletion is licensed.
-/
theorem record
    {world : World}
    {event : Event}
    (invariant : HistoryInvariant world)
    (table : TableInvariant world)
    (idle :
      ∀ pvName,
        event = .createPVIssued pvName ∨ event = .deletePVIssued pvName →
        world.procTable.status? pvName = none)
    (license :
      ∀ pvName,
        event = .deletePVIssued pvName →
        ∃ run, Licensed world.history pvName run) :
    HistoryInvariant (world.record event) := by
  have spared :
      ∀ pvName status,
        world.procTable.status? pvName = some status →
        event ≠ .createPVIssued pvName ∧ event ≠ .deletePVIssued pvName := by
    intro pvName status present
    refine ⟨fun created => ?_, fun deleted => ?_⟩
    · rw [idle pvName (.inl created)] at present
      cases present
    · rw [idle pvName (.inr deleted)] at present
      cases present
  constructor
  · intro cleaner member
    obtain ⟨since, cleaning⟩ := invariant.underway cleaner member
    obtain ⟨notCreated, notDeleted⟩ :=
      spared cleaner.pvName .running (table.running_of_mem member)
    exact ⟨_, cleaning.cons notCreated notDeleted⟩
  · intro pvName succeeded
    obtain ⟨run, licensed⟩ := invariant.licensed pvName succeeded
    obtain ⟨notCreated, notDeleted⟩ := spared pvName .succeeded succeeded
    exact ⟨run, licensed.cons notCreated notDeleted⟩
  · intro pvName past issued
    rcases List.suffix_cons_iff.mp issued with here | earlier
    · cases here
      exact license pvName rfl
    · exact invariant.deletions pvName past earlier

/-- Recording an event that neither creates nor deletes a PV. -/
theorem record_harmless
    {world : World}
    {event : Event}
    (invariant : HistoryInvariant world)
    (table : TableInvariant world)
    (notCreated : ∀ pvName, event ≠ .createPVIssued pvName)
    (notDeleted : ∀ pvName, event ≠ .deletePVIssued pvName) :
    HistoryInvariant (world.record event) := by
  refine invariant.record table ?_ ?_
  · rintro pvName (created | deleted)
    · exact (notCreated pvName created).elim
    · exact (notDeleted pvName deleted).elim
  · intro pvName deleted
    exact (notDeleted pvName deleted).elim

/-- Starting a cleaner for a listed, reclaimable PV without an entry. -/
theorem spawn
    {world : World}
    {work : CleanerWork}
    {listing : List PersistentVolume}
    (invariant : HistoryInvariant world)
    (table : TableInvariant world)
    (absent : world.procTable.status? work.pv.name = none)
    (latest : lastListing world.history = some listing)
    (member : work.pv ∈ listing)
    (reclaimable : Reclaimable work.pv)
    (answers : Answers) :
    HistoryInvariant (world.execSpawnCleaner answers work).2 := by
  have recorded :
      HistoryInvariant
        (world.record (.cleanerStarted world.history.length work.pv)) :=
    invariant.record_harmless table nofun nofun
  rw [World.execSpawnCleaner_of_none absent answers]
  constructor
  · intro cleaner cleanerMember
    rcases List.mem_cons.mp cleanerMember with rfl | older
    · exact ⟨[], work.pv, world.history, listing, rfl, rfl, rfl, reclaimable,
        latest, member, by simp, by simp⟩
    · exact recorded.underway cleaner older
  · intro pvName
    rw [ProcTable.status?_markRunning absent answers.now]
    split
    · nofun
    · exact recorded.licensed pvName
  · exact recorded.deletions

/-- Issuing a creation of a PV without an entry. -/
theorem createPV
    {world : World}
    {pv : PersistentVolume}
    (invariant : HistoryInvariant world)
    (table : TableInvariant world)
    (absent : world.procTable.status? pv.name = none)
    (answers : Answers) :
    HistoryInvariant (world.execCreatePV answers pv).2 := by
  have issued :
      HistoryInvariant (world.record (.createPVIssued pv.name)) := by
    refine invariant.record table ?_ (fun _ deleted => by cases deleted)
    rintro pvName (created | deleted)
    · cases created
      exact absent
    · cases deleted
  have admitted :
      HistoryInvariant
        ((world.record (.createPVIssued pv.name)).admitPV
          (world.freshUID answers) pv) := by
    have created :
        HistoryInvariant
          ((world.record (.createPVIssued pv.name)).record
            (.pvCreated pv.name (world.freshUID answers))) :=
      issued.record_harmless (table.congr ⟨rfl, rfl⟩) nofun nofun
    exact created.congr ⟨rfl, rfl⟩ rfl
  unfold World.execCreatePV
  split
  · exact issued
  · split
    · exact issued
    · exact admitted

/-- Issuing a licensed deletion of a PV without an entry. -/
theorem deletePV
    {world : World}
    {pvName : String}
    {run : Nat}
    (invariant : HistoryInvariant world)
    (table : TableInvariant world)
    (absent : world.procTable.status? pvName = none)
    (licensed : Licensed world.history pvName run)
    (answers : Answers) :
    HistoryInvariant (world.execDeletePV answers pvName).2 := by
  have issued :
      HistoryInvariant (world.record (.deletePVIssued pvName)) := by
    refine invariant.record table ?_ ?_
    · rintro other (created | deleted)
      · cases created
      · cases deleted
        exact absent
    · rintro other ⟨⟩
      exact ⟨run, licensed⟩
  refine issued.congr ?_ (world.history_execDeletePV answers pvName)
  have same : SameProcesses world (world.execDeletePV answers pvName).2 :=
    @SameProcesses.of_exec (.deletePV pvName) answers _ _ _ rfl rfl
  exact ⟨same.procTable, same.cleaners⟩

/-- A cleaner that ends in success becomes a license. -/
theorem finish
    {world : World}
    {index : Nat}
    {cleaner : Cleaner}
    (invariant : HistoryInvariant world)
    (table : TableInvariant world)
    (found : world.cleaners[index]? = some cleaner)
    (performed : Except String Unit) :
    HistoryInvariant (world.finishCleaner index cleaner performed) := by
  have member : cleaner ∈ world.cleaners := List.mem_of_getElem? found
  have recorded :
      HistoryInvariant
        (world.record (.cleanerEnded cleaner.run cleaner.pvName
          (cleaningOutcome cleaner.work performed))) :=
    invariant.record_harmless table nofun nofun
  constructor
  · intro other otherMember
    exact recorded.underway other
      ((table.mem_eraseIdx found).mp otherMember).1
  · intro pvName
    rw [table.status?_finishCleaner found performed]
    split
    · rename_i same
      subst pvName
      intro succeeded
      obtain ⟨since, cleaning⟩ := invariant.underway cleaner member
      refine ⟨cleaner.run, _, cleaning.cons nofun nofun, ?_⟩
      rw [Option.some.injEq] at succeeded
      rw [succeeded]
      simp
    · exact recorded.licensed pvName
  · exact recorded.deletions

/-- The initial world satisfies the invariant. -/
theorem empty : HistoryInvariant World.empty := by
  constructor <;> simp [World.empty]

end HistoryInvariant

/-- What a pass knows about the cache listing it works through. -/
def PurposeKnown (world : World) : Purpose → Prop
  | .reclaim listed pv =>
      lastListing world.history = some listed ∧
        pv ∈ listed ∧
        Reclaimable pv
  | .create _ _ => True

/-- What a pass knows about the cleaning of the PV it deals with. -/
def LicenseKnown (world : World) (pvName : String) : Stage → Prop
  | .considered => True
  | .checked isJob => isJob = false
  | .found _ => False
  | .cleared isJob state =>
      isJob = false ∧
        (state = .succeeded → ∃ run, Licensed world.history pvName run)

/-- What a pass knows about the history. -/
def HistoryKnown (world : World) : Phase → Prop
  | .idle => True
  | .scanning listed => lastListing world.history = some listed
  | .missing _ => True
  | .tracking purpose stage =>
      PurposeKnown world purpose ∧ LicenseKnown world purpose.pvName stage

/-- The assertions that in-process cleaning carries through its phases. -/
structure ProcessAssertion (phase : Phase) (world : World) : Prop where
  table : TableAssertion phase world
  history : HistoryInvariant world
  known : HistoryKnown world phase

/-- Giving up on a PV leads back to a phase that knows no less. -/
theorem PurposeKnown.home
    {world : World}
    {purpose : Purpose}
    (known : PurposeKnown world purpose) :
    HistoryKnown world purpose.home := by
  cases purpose with
  | reclaim listed pv => exact known.1
  | create pvName path => trivial

/-- The latest listing is all that is known about a purpose. -/
theorem PurposeKnown.congr
    {world later : World}
    {purpose : Purpose}
    (known : PurposeKnown world purpose)
    (sameListing :
      lastListing later.history = lastListing world.history) :
    PurposeKnown later purpose := by
  cases purpose with
  | reclaim listed pv => exact ⟨sameListing.trans known.1, known.2⟩
  | create pvName path => trivial

/-- Listings and licenses are all that is known about the history. -/
theorem HistoryKnown.mono
    {world later : World}
    {phase : Phase}
    (known : HistoryKnown world phase)
    (sameListing :
      lastListing later.history = lastListing world.history)
    (licensed :
      ∀ pvName run,
        Licensed world.history pvName run →
        Licensed later.history pvName run) :
    HistoryKnown later phase := by
  rcases phase with _ | listed | pvName | ⟨purpose, stage⟩
  · trivial
  · exact sameListing.trans known
  · trivial
  · refine ⟨known.1.congr sameListing, ?_⟩
    cases stage with
    | considered => trivial
    | checked isJob => exact known.2
    | found job => exact known.2
    | cleared isJob state =>
        refine ⟨known.2.1, ?_⟩
        intro succeeded
        obtain ⟨run, license⟩ := known.2.2 succeeded
        exact ⟨run, licensed _ run license⟩

namespace ProcessAssertion

/-- Silent steps of a pass. -/
theorem silent
    {phase later : Phase}
    {world : World}
    (holds : ProcessAssertion phase world)
    (moved : Phase.Silent phase later) :
    ProcessAssertion later world := by
  refine ⟨holds.table.silent moved, holds.history, ?_⟩
  cases moved with
  | pick member reclaimable =>
      exact ⟨⟨holds.known, member, reclaimable⟩, trivial⟩
  | giveUp => exact holds.known.1.home
  | finishScan => trivial

/-- What is known about the history after an allowed call. -/
theorem known_after
    {phase : Phase}
    {op : Op}
    {answers : Answers}
    {world after : World}
    {reply : op.Reply}
    (holds : ProcessAssertion phase world)
    (allowed : Allowed processScope phase op)
    (executed : exec op answers world = some (reply, after)) :
    HistoryInvariant after ∧ HistoryKnown after (phase.after op reply) := by
  have table := holds.table.invariant
  cases allowed with
  | probe probing =>
      obtain ⟨reports, ready, rfl⟩ := exec_of_probing probing executed
      rw [Phase.after_of_probing probing]
      exact ⟨holds.history.congr ⟨rfl, rfl⟩ rfl,
        holds.known.mono rfl fun _ _ licensed => licensed⟩
  | list =>
      obtain ⟨listed, _, same⟩ := Option.map_eq_some_iff.mp executed
      cases same
      exact ⟨holds.history.record_harmless table nofun nofun, rfl⟩
  | get =>
      cases executed
      refine ⟨holds.history, ?_⟩
      simp only [Phase.after]
      split <;> trivial
  | lookup =>
      cases executed
      refine ⟨holds.history, ?_⟩
      simp only [Phase.after]
      split
      · exact ⟨trivial, trivial⟩
      · trivial
  | @askProcess purpose _ =>
      cases executed
      refine ⟨holds.history, ?_⟩
      simp only [Phase.after]
      split
      · exact holds.known.1.home
      · exact ⟨holds.known.1, rfl⟩
  | askJob tracked => cases tracked
  | takeEntry =>
      obtain ⟨state, startTime, procTable, removed, cleared, license⟩ :=
        table.takeEntry holds.table.known
      simp only [exec, removed] at executed
      cases executed
      refine ⟨⟨holds.history.underway, ?_, holds.history.deletions⟩,
        holds.known.1, rfl, ?_⟩
      · intro pvName succeeded
        rw [cleared] at succeeded
        split at succeeded
        · cases succeeded
        · exact holds.history.licensed pvName succeeded
      · intro succeeded
        exact holds.history.licensed _ (license succeeded)
  | findJob => cases holds.known.2
  | takeJob _ => exact holds.known.2.elim
  | @deletePV listed pv isJob =>
      obtain rfl : (world.execDeletePV answers pv.name).2 = after :=
        congrArg Prod.snd (Option.some.inj executed)
      obtain ⟨inProcess, license⟩ := holds.known.2
      subst inProcess
      obtain ⟨run, licensed⟩ := license rfl
      refine ⟨holds.history.deletePV table holds.table.known licensed
        answers, PurposeKnown.home (.congr holds.known.1 ?_)⟩
      rw [world.history_execDeletePV]
      rfl
  | @spawnCleaner listed work state =>
      obtain rfl : (world.execSpawnCleaner answers work).2 = after :=
        congrArg Prod.snd (Option.some.inj executed)
      obtain ⟨latest, member, reclaimable⟩ := holds.known.1
      refine ⟨holds.history.spawn table holds.table.known latest member
        reclaimable answers, PurposeKnown.home (.congr holds.known.1 ?_)⟩
      rw [World.execSpawnCleaner_of_none holds.table.known answers]
      rfl
  | createJob _ _ => cases holds.known.2.1
  | @createPV pv path isJob state _ =>
      obtain rfl : (world.execCreatePV answers pv).2 = after :=
        congrArg Prod.snd (Option.some.inj executed)
      obtain ⟨inProcess, _⟩ := holds.known.2
      subst inProcess
      exact ⟨holds.history.createPV table holds.table.known answers, trivial⟩

/-- Every allowed call carries the assertions along. -/
theorem call
    {phase : Phase}
    {op : Op}
    {answers : Answers}
    {world after : World}
    {reply : op.Reply}
    (holds : ProcessAssertion phase world)
    (allowed : Allowed processScope phase op)
    (executed : exec op answers world = some (reply, after)) :
    ProcessAssertion (phase.after op reply) after := by
  obtain ⟨history, known⟩ := holds.known_after allowed executed
  exact ⟨holds.table.call allowed executed, history, known⟩

/-- No move of the surroundings invalidates an assertion. -/
theorem disturbed
    {phase : Phase}
    {world later : World}
    {runtime : RuntimeConfig}
    {disturbance : Disturbance}
    (holds : ProcessAssertion phase world)
    (moved : world.disturb runtime disturbance = some later) :
    ProcessAssertion phase later := by
  have table := holds.table.disturbed moved
  rcases World.processes_of_disturb moved with
    ⟨index, cleaner, performed, found, rfl⟩ |
    ⟨sameTable, sameCleaners, sameHistory | ⟨jobName, uid, recorded⟩⟩
  · refine ⟨table, holds.history.finish holds.table.invariant found
      performed, holds.known.mono rfl ?_⟩
    intro pvName run licensed
    exact licensed.cons nofun nofun
  · refine ⟨table, holds.history.congr ⟨sameTable, sameCleaners⟩
      sameHistory, holds.known.mono (by rw [sameHistory]) ?_⟩
    intro pvName run licensed
    rwa [sameHistory]
  · have succeeded :
        HistoryInvariant (world.record (.jobSucceeded jobName uid)) :=
      holds.history.record_harmless holds.table.invariant nofun nofun
    refine ⟨table, succeeded.congr ⟨sameTable, sameCleaners⟩ recorded,
      holds.known.mono (by rw [recorded]; rfl) ?_⟩
    intro pvName run licensed
    rw [recorded]
    exact licensed.cons nofun nofun

end ProcessAssertion

/-- In-process cleaning carries its assertions through every run. -/
theorem processMode_carried :
    Carried processMode processScope ProcessAssertion where
  flags := fun _ admitted => admitted
  outline := {
    silent := fun moved holds => holds.silent moved
    call := fun allowed holds _ executed =>
      ⟨syncProtocol_admits trivial _ _, holds.call allowed executed⟩
  }
  initially := ⟨⟨.empty, trivial⟩, .empty, trivial⟩
  disturbed := fun holds _ moved => holds.disturbed moved
  reloaded := fun holds =>
    ⟨holds.table.newInstance, holds.history.congr ⟨rfl, rfl⟩ rfl, trivial⟩
  restarted := fun restarts => restarts.elim

/-- A position of a history determines the event there. -/
theorem event_of_suffixes
    {history past : List Event}
    {first second : Event}
    (firstIn : first :: past <:+ history)
    (secondIn : second :: past <:+ history) :
    first = second := by
  have same : first :: past = second :: past :=
    (List.suffix_of_suffix_length_le firstIn secondIn le_rfl).eq_of_length rfl
  cases same
  rfl

/--
Every issued deletion is licensed by a cleaner run that ended in success, was
started for a listed reclaimable PV, and has not been followed by a creation;
no run licenses two deletions.
-/
theorem deletions_licensed
    {state : SyncState}
    (reaches : processMode.Reaches state) :
    ∃ license : List Event → Nat,
      (∀ pvName past,
        .deletePVIssued pvName :: past <:+ state.world.history →
        Licensed past pvName (license past)) ∧
      ∀ firstName secondName first second,
        .deletePVIssued firstName :: first <:+ state.world.history →
        .deletePVIssued secondName :: second <:+ state.world.history →
        license first = license second →
        first = second := by
  have chosen :
      ∀ past, ∃ run, ∀ pvName,
        .deletePVIssued pvName :: past <:+ state.world.history →
        Licensed past pvName run := by
    intro past
    by_cases issued :
        ∃ pvName, .deletePVIssued pvName :: past <:+ state.world.history
    · obtain ⟨pvName, here⟩ := issued
      obtain ⟨phase, holds⟩ :=
        processMode_carried.assertion_of_reaches reaches
      obtain ⟨run, licensed⟩ := holds.history.deletions pvName past here
      refine ⟨run, ?_⟩
      intro other there
      cases event_of_suffixes here there
      exact licensed
    · exact ⟨0, fun pvName here => (issued ⟨pvName, here⟩).elim⟩
  choose license licensed using chosen
  refine ⟨license, fun pvName past here => licensed past pvName here, ?_⟩
  intro firstName secondName first second firstIn secondIn same
  have firstLicensed := licensed first firstName firstIn
  have secondLicensed := licensed second secondName secondIn
  rw [same] at firstLicensed
  rcases List.suffix_or_suffix_of_suffix firstIn secondIn with
    firstEarlier | secondEarlier
  · rcases List.suffix_cons_iff.mp firstEarlier with together | earlier
    · cases together
      rfl
    · exact (firstLicensed.not_again secondLicensed earlier).elim
  · rcases List.suffix_cons_iff.mp secondEarlier with together | earlier
    · cases together
      rfl
    · exact (secondLicensed.not_again firstLicensed earlier).elim

/-- A pass that starts a cleaner for a released PV. -/
def sampleCleaningPass : List Action :=
  .disturb (.overwriteCache (ObjectStore.empty.put (sampleReleasedPV 0))) ::
    sampleReclaiming 3

/-- The cleaner succeeds, and the next pass deletes the PV. -/
def sampleDeletingPass : List Action :=
  sampleNoDiscovery ++ .disturb (.cleanerFinishes 0 (.ok ())) ::
    sampleReclaiming 3

/-- A run in which a deletion is issued, and licensed. -/
theorem deletions_licensed_of_samplePasses :
    ∃ state pvName past run,
      processMode.Reaches state ∧
        .deletePVIssued pvName :: past <:+ state.world.history ∧
        Licensed past pvName run := by
  obtain ⟨state, reaches, deleted⟩ :=
    processMode.reaches_of_sampleRun false sampleClasses
      (sampleCleaningPass ++ sampleDeletingPass)
      (fun state => endsInDeletion state.world.history) rfl
      (by decide +kernel)
  obtain ⟨pvName, past, issued⟩ := deletePVIssued_of_endsInDeletion deleted
  obtain ⟨license, licensed, _⟩ := deletions_licensed reaches
  exact ⟨state, pvName, past, license past, reaches, issued,
    licensed pvName past issued⟩

/-- What in-process cleaning promises in every state of a run. -/
structure ProcessExclusion (state : SyncState) : Prop where
  live :
    ∀ pvName,
      (∃ cleaner ∈ state.world.cleaners, cleaner.pvName = pvName) ↔
        state.world.procTable.status? pvName = some .running
  single : (state.world.cleaners.map Cleaner.pvName).Nodup
  creation :
    ∀ pv next,
      state.rest = .call (.createPV pv) next →
      ∀ cleaner ∈ state.world.cleaners, cleaner.pvName ≠ pv.name
  markRunning :
    ∀ work next now,
      state.rest = .call (.spawnCleaner work) next →
      (state.world.procTable.markRunning work.pv.name now).1 = .ok ()
  markFailed :
    ∀ cleaner ∈ state.world.cleaners,
      (state.world.procTable.markFailed cleaner.pvName).1 = .ok ()
  markSucceeded :
    ∀ cleaner ∈ state.world.cleaners,
      (state.world.procTable.markSucceeded cleaner.pvName).1 = .ok ()
  removeEntry :
    ∀ pvName next,
      state.rest = .call (.removeEntry pvName) next →
      ∃ status, (state.world.procTable.removeEntry pvName).1 = .ok status

/--
In every state of a run the live cleaners are the running entries, one for
each name; no PV is created while it is being cleaned; and the calls whose
errors should never happen do not fail.
-/
theorem processExclusion_of_reaches
    {state : SyncState}
    (reaches : processMode.Reaches state) :
    ProcessExclusion state := by
  obtain ⟨_, somewhere⟩ := processMode_carried.assertion_of_reaches reaches
  have invariant := somewhere.table.invariant
  constructor
  · intro pvName
    exact (invariant.live pvName).symm
  · exact invariant.single
  · intro pv next calling cleaner member sameName
    obtain ⟨phase, holds, allowed⟩ :=
      processMode_carried.atCall reaches calling
    cases allowed with
    | probe probing => exact probing.elim
    | createPV _ =>
        obtain ⟨inProcess, _⟩ := holds.known.2
        subst inProcess
        have absent : state.world.procTable.status? pv.name = none :=
          holds.table.known
        have running := invariant.running_of_mem member
        rw [sameName, absent] at running
        cases running
  · intro work next now calling
    obtain ⟨phase, holds, allowed⟩ :=
      processMode_carried.atCall reaches calling
    cases allowed with
    | probe probing => exact probing.elim
    | spawnCleaner =>
        exact congrArg Prod.fst
          (ProcTable.markRunning_of_none holds.table.known now)
  · intro cleaner member
    exact ProcTable.markStatus_ok_iff.mpr
      (by simp [invariant.running_of_mem member])
  · intro cleaner member
    exact ProcTable.markStatus_ok_iff.mpr
      (by simp [invariant.running_of_mem member])
  · intro pvName next calling
    obtain ⟨phase, holds, allowed⟩ :=
      processMode_carried.atCall reaches calling
    cases allowed with
    | probe probing => exact probing.elim
    | takeEntry =>
        obtain ⟨status, startTime, procTable, removed, _⟩ :=
          invariant.takeEntry holds.table.known
        exact ⟨(status, startTime), by rw [removed]⟩

/-- A run with a live cleaner. -/
theorem processExclusion_of_samplePass :
    ∃ state,
      processMode.Reaches state ∧
        state.world.cleaners ≠ [] ∧
        ProcessExclusion state := by
  obtain ⟨state, reaches, live⟩ :=
    processMode.reaches_of_sampleRun false sampleClasses
      sampleCleaningPass (fun state => !state.world.cleaners.isEmpty)
      rfl (by decide +kernel)
  refine ⟨state, reaches, ?_, processExclusion_of_reaches reaches⟩
  intro none
  simp [none] at live

end LocalProvisioner
