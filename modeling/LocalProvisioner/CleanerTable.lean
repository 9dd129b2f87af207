import LocalProvisioner.SyncLoop

namespace LocalProvisioner

open Interleaving

/-!
# Live cleaners and the table of in-process cleaners

In every run, whatever its instances and its surroundings do, the running
entries of the table are the live cleaner goroutines, one for each name, and
an entry never has a state that `RemoveEntry` does not expect.  A pass that
has seen a name idle and has taken its entry knows that the entry stays away.
-/

/-- The table agrees with the live cleaners. -/
structure TableInvariant (world : World) : Prop where
  live :
    ∀ pvName,
      world.procTable.status? pvName = some .running ↔
        ∃ cleaner ∈ world.cleaners, cleaner.pvName = pvName
  single : (world.cleaners.map Cleaner.pvName).Nodup
  ended :
    ∀ pvName status,
      world.procTable.status? pvName = some status →
      status ≠ .unknown ∧ status ≠ .notFound

/-- Two worlds with the same cleaners and the same table. -/
structure SameProcesses (world later : World) : Prop where
  procTable : later.procTable = world.procTable
  cleaners : later.cleaners = world.cleaners

/-- The calls that change the table or the cleaners. -/
def Op.usesTable : Op → Bool
  | .removeEntry _ => true
  | .spawnCleaner _ => true
  | _ => false

/-- All other calls leave them alone. -/
theorem SameProcesses.of_exec
    {op : Op}
    {answers : Answers}
    {world later : World}
    {reply : op.Reply}
    (unused : op.usesTable = false)
    (executed : exec op answers world = some (reply, later)) :
    SameProcesses world later := by
  cases effect_of_exec executed with
  | tookEntry | spawned =>
      cases unused
  | recorded | createdPV | markedPV | removedPV | createdJob | markedJob =>
      exact ⟨rfl, rfl⟩

/-- Calls leave the live cleaners alone, but for the start of one. -/
theorem cleaners_of_exec
    {op : Op}
    {answers : Answers}
    {world later : World}
    {reply : op.Reply}
    (executed : exec op answers world = some (reply, later)) :
    later.cleaners = world.cleaners ∨
      ∃ work run,
        op = .spawnCleaner work ∧
          later.cleaners = { run, work } :: world.cleaners := by
  cases effect_of_exec executed with
  | spawned work =>
      unfold World.execSpawnCleaner
      split
      · exact .inl rfl
      · exact .inr ⟨work, world.history.length, rfl, rfl⟩
  | recorded | tookEntry | createdPV | markedPV | removedPV | createdJob
  | markedJob =>
      exact .inl rfl

namespace TableInvariant

/-- The invariant only reads the table and the cleaners. -/
theorem congr
    {world later : World}
    (invariant : TableInvariant world)
    (same : SameProcesses world later) :
    TableInvariant later := by
  obtain ⟨sameTable, sameCleaners⟩ := same
  obtain ⟨live, single, ended⟩ := invariant
  constructor
  · rwa [sameTable, sameCleaners]
  · rwa [sameCleaners]
  · rwa [sameTable]

/-- A live cleaner has a running entry. -/
theorem running_of_mem
    {world : World}
    {cleaner : Cleaner}
    (invariant : TableInvariant world)
    (member : cleaner ∈ world.cleaners) :
    world.procTable.status? cleaner.pvName = some .running :=
  (invariant.live _).mpr ⟨cleaner, member, rfl⟩

/-- Taking the entry of a PV that is not being cleaned clears its status. -/
theorem takeEntry
    {world : World}
    {pvName : String}
    (invariant : TableInvariant world)
    (idle : world.procTable.status? pvName ≠ some .running) :
    ∃ state startTime procTable,
      world.procTable.removeEntry pvName =
          (.ok (state, startTime), procTable) ∧
        (∀ other,
          procTable.status? other =
            if other = pvName then
              none
            else
              world.procTable.status? other) ∧
        (state = .succeeded →
          world.procTable.status? pvName = some .succeeded) := by
  cases found : world.procTable.status? pvName with
  | none =>
      refine ⟨.notFound, none, world.procTable,
        ProcTable.removeEntry_of_none found, ?_, nofun⟩
      intro other
      split
      · rename_i same
        rw [same]
        exact found
      · rfl
  | some status =>
      have notRunning : status ≠ .running := by
        rintro rfl
        exact idle found
      obtain ⟨notUnknown, _⟩ := invariant.ended pvName status found
      obtain ⟨startTime, removed⟩ :=
        ProcTable.removeEntry_of_ended found ⟨notRunning, notUnknown⟩
      refine ⟨status, some startTime, _, removed, ?_, ?_⟩
      · exact ProcTable.status?_erase world.procTable pvName
      · rintro rfl
        rfl

/-- Clearing the status of a PV that is not being cleaned. -/
theorem clear
    {world : World}
    {pvName : String}
    {procTable : ProcTable}
    (invariant : TableInvariant world)
    (idle : world.procTable.status? pvName ≠ some .running)
    (cleared :
      ∀ other,
        procTable.status? other =
          if other = pvName then
            none
          else
            world.procTable.status? other) :
    TableInvariant { world with procTable } := by
  constructor
  · intro other
    rw [← invariant.live other, cleared]
    by_cases same : other = pvName
    · subst other
      simp [idle]
    · simp [same]
  · exact invariant.single
  · intro other status present
    rw [cleared] at present
    split at present
    · cases present
    · exact invariant.ended other status present

/-- Starting a cleaner for a PV without an entry. -/
theorem spawn
    {world : World}
    {work : CleanerWork}
    (invariant : TableInvariant world)
    (absent : world.procTable.status? work.pv.name = none)
    (answers : Answers) :
    TableInvariant (world.execSpawnCleaner answers work).2 := by
  have status := ProcTable.status?_markRunning absent answers.now
  have cleanerless :
      ∀ cleaner ∈ world.cleaners, cleaner.pvName ≠ work.pv.name := by
    intro cleaner member sameName
    have running := invariant.running_of_mem member
    rw [sameName, absent] at running
    cases running
  rw [World.execSpawnCleaner_of_none absent answers]
  constructor
  · intro pvName
    rw [status]
    simp only [List.mem_cons, exists_eq_or_imp, Cleaner.pvName]
    by_cases same : pvName = work.pv.name
    · simp [same]
    · simp only [same, if_false, Ne.symm same, false_or]
      exact invariant.live pvName
  · simp only [List.map_cons, List.nodup_cons, List.mem_map, not_exists,
      not_and]
    exact ⟨cleanerless, invariant.single⟩
  · intro pvName state
    rw [status]
    split
    · rintro ⟨⟩
      exact ⟨nofun, nofun⟩
    · exact invariant.ended pvName state

/-- The cleaners left after one has ended are those of other PVs. -/
theorem mem_eraseIdx
    {world : World}
    {index : Nat}
    {cleaner other : Cleaner}
    (invariant : TableInvariant world)
    (found : world.cleaners[index]? = some cleaner) :
    other ∈ world.cleaners.eraseIdx index ↔
      other ∈ world.cleaners ∧ other.pvName ≠ cleaner.pvName := by
  have distinct :
      ∀ position,
        world.cleaners[position]? = some other →
        other.pvName = cleaner.pvName →
        position = index := by
    intro position otherFound sameName
    have named :
        (world.cleaners.map Cleaner.pvName)[position]? =
          (world.cleaners.map Cleaner.pvName)[index]? := by
      simp [otherFound, found, sameName]
    refine (List.getElem?_inj ?_ invariant.single).mp named
    rw [List.length_map]
    exact (List.getElem?_eq_some_iff.mp otherFound).1
  rw [List.mem_eraseIdx_iff_getElem?]
  constructor
  · intro live
    obtain ⟨position, elsewhere, otherFound⟩ := live
    refine ⟨List.mem_of_getElem? otherFound, ?_⟩
    intro sameName
    exact elsewhere (distinct position otherFound sameName)
  · intro live
    obtain ⟨member, otherName⟩ := live
    obtain ⟨position, otherFound⟩ := List.mem_iff_getElem?.mp member
    refine ⟨position, ?_, otherFound⟩
    rintro rfl
    rw [found] at otherFound
    cases otherFound
    exact otherName rfl

/-- The entry of a cleaner that ends becomes its outcome; others are kept. -/
theorem status?_finishCleaner
    {world : World}
    {index : Nat}
    {cleaner : Cleaner}
    (invariant : TableInvariant world)
    (found : world.cleaners[index]? = some cleaner)
    (performed : Except String Unit)
    (pvName : String) :
    (world.finishCleaner index cleaner performed).procTable.status? pvName =
      if pvName = cleaner.pvName then
        some (cleaningOutcome cleaner.work performed)
      else
        world.procTable.status? pvName := by
  have running := invariant.running_of_mem (List.mem_of_getElem? found)
  exact ProcTable.status?_markStatus (by simp [running]) _ pvName

/-- A cleaner ends in failure or in success. -/
theorem settled_cleaningOutcome
    (work : CleanerWork)
    (performed : Except String Unit) :
    cleaningOutcome work performed = .failed ∨
      cleaningOutcome work performed = .succeeded := by
  unfold cleaningOutcome
  split
  · exact .inl rfl
  · split
    · exact .inl rfl
    · exact .inr rfl

/-- A cleaner that ends turns its running entry into its outcome. -/
theorem finish
    {world : World}
    {index : Nat}
    {cleaner : Cleaner}
    (invariant : TableInvariant world)
    (found : world.cleaners[index]? = some cleaner)
    (performed : Except String Unit) :
    TableInvariant (world.finishCleaner index cleaner performed) := by
  have status := invariant.status?_finishCleaner found performed
  have settled := settled_cleaningOutcome cleaner.work performed
  constructor
  · intro pvName
    rw [status]
    simp only [World.finishCleaner, invariant.mem_eraseIdx found]
    by_cases same : pvName = cleaner.pvName
    · subst pvName
      simp only [if_true, Option.some.injEq]
      constructor
      · intro stillRunning
        rcases settled with outcome | outcome <;>
          simp [outcome] at stillRunning
      · intro live
        obtain ⟨other, ⟨_, otherName⟩, sameName⟩ := live
        exact (otherName sameName).elim
    · simp only [same, if_false, invariant.live pvName]
      constructor
      · intro live
        obtain ⟨other, otherMember, rfl⟩ := live
        exact ⟨other, ⟨otherMember, same⟩, rfl⟩
      · intro live
        obtain ⟨other, ⟨otherMember, _⟩, rfl⟩ := live
        exact ⟨other, otherMember, rfl⟩
  · exact invariant.single.sublist
      ((List.eraseIdx_sublist _ _).map Cleaner.pvName)
  · intro pvName state
    rw [status]
    split
    · rintro ⟨⟩
      rcases settled with outcome | outcome <;> simp [outcome]
    · exact invariant.ended pvName state

/-- The initial world satisfies the invariant. -/
theorem empty : TableInvariant World.empty := by
  constructor <;> simp [World.empty]

end TableInvariant

/-- What a pass knows about the entry of the PV it deals with. -/
def TableKnown (world : World) : Phase → Prop
  | .tracking purpose (.checked false) =>
      world.procTable.status? purpose.pvName ≠ some .running
  | .tracking purpose (.cleared false _) =>
      world.procTable.status? purpose.pvName = none
  | _ => True

/-- The table agrees with the cleaners, and the pass knows about its PV. -/
structure TableAssertion (phase : Phase) (world : World) : Prop where
  invariant : TableInvariant world
  known : TableKnown world phase

theorem TableKnown.home (world : World) (purpose : Purpose) :
    TableKnown world purpose.home := by
  cases purpose <;> trivial

/-- An entry that is missing or not running may only stay as it is. -/
theorem TableKnown.mono
    {world later : World}
    {phase : Phase}
    (known : TableKnown world phase)
    (idle :
      ∀ pvName,
        world.procTable.status? pvName ≠ some .running →
        later.procTable.status? pvName = world.procTable.status? pvName) :
    TableKnown later phase := by
  rcases phase with _ | _ | _ | ⟨purpose, _ | isJob | _ | ⟨isJob, state⟩⟩
  · trivial
  · trivial
  · trivial
  · trivial
  · cases isJob with
    | true => trivial
    | false =>
        have notRunning :
            world.procTable.status? purpose.pvName ≠ some .running := known
        have same := idle _ notRunning
        exact fun running => notRunning (same ▸ running)
  · trivial
  · cases isJob with
    | true => trivial
    | false =>
        have absent : world.procTable.status? purpose.pvName = none := known
        exact (idle _ (by simp [absent])).trans absent

namespace TableAssertion

variable {phase : Phase} {world later : World}

/-- Worlds with the same processes satisfy the same assertions. -/
theorem congr
    (holds : TableAssertion phase world)
    (same : SameProcesses world later) :
    TableAssertion phase later := by
  refine ⟨holds.invariant.congr same, holds.known.mono ?_⟩
  intro pvName _
  rw [same.procTable]

/-- Silent steps of a pass. -/
theorem silent
    {next : Phase}
    (holds : TableAssertion phase world)
    (moved : Phase.Silent phase next) :
    TableAssertion next world := by
  refine ⟨holds.invariant, ?_⟩
  cases moved with
  | pick _ _ => trivial
  | giveUp => exact TableKnown.home world _
  | finishScan => trivial

/-- No move of the surroundings invalidates an assertion. -/
theorem disturbed
    {runtime : RuntimeConfig}
    {disturbance : Disturbance}
    (holds : TableAssertion phase world)
    (moved : world.disturb runtime disturbance = some later) :
    TableAssertion phase later := by
  rcases World.processes_of_disturb moved with
    ⟨index, cleaner, performed, found, rfl⟩ | ⟨sameTable, sameCleaners, _⟩
  · refine ⟨holds.invariant.finish found performed, holds.known.mono ?_⟩
    intro pvName idle
    rw [holds.invariant.status?_finishCleaner found performed, if_neg]
    rintro rfl
    exact idle
      (holds.invariant.running_of_mem (List.mem_of_getElem? found))
  · exact holds.congr ⟨sameTable, sameCleaners⟩

/-- Every allowed call carries the assertions along. -/
theorem call
    {scope : Scope}
    {op : Op}
    {answers : Answers}
    {reply : op.Reply}
    (holds : TableAssertion phase world)
    (allowed : Allowed scope phase op)
    (executed : exec op answers world = some (reply, later)) :
    TableAssertion (phase.after op reply) later := by
  cases allowed with
  | probe probing =>
      obtain ⟨reports, ready, rfl⟩ := exec_of_probing probing executed
      rw [Phase.after_of_probing probing]
      exact holds.congr ⟨rfl, rfl⟩
  | list =>
      exact ⟨holds.invariant.congr (.of_exec rfl executed), trivial⟩
  | get =>
      cases executed
      refine ⟨holds.invariant, ?_⟩
      simp only [Phase.after]
      split <;> trivial
  | lookup =>
      cases executed
      refine ⟨holds.invariant, ?_⟩
      simp only [Phase.after]
      split <;> trivial
  | @askProcess purpose _ =>
      cases executed
      refine ⟨holds.invariant, ?_⟩
      cases busy : world.procTable.isRunning purpose.pvName with
      | true => exact TableKnown.home world purpose
      | false =>
          intro running
          rw [ProcTable.isRunning_iff.mpr running] at busy
          cases busy
  | @askJob purpose _ =>
      cases executed
      refine ⟨holds.invariant, ?_⟩
      simp only [Phase.after]
      split
      · exact TableKnown.home world purpose
      · trivial
  | takeEntry =>
      obtain ⟨state, startTime, procTable, removed, cleared, _⟩ :=
        holds.invariant.takeEntry holds.known
      simp only [exec, removed] at executed
      cases executed
      refine ⟨holds.invariant.clear holds.known cleared, ?_⟩
      exact (cleared _).trans (if_pos rfl)
  | @findJob purpose =>
      cases executed
      refine ⟨holds.invariant, ?_⟩
      simp only [Phase.after]
      split
      · trivial
      · trivial
      · exact TableKnown.home world purpose
  | @takeJob purpose job namespaceName _ =>
      refine ⟨holds.invariant.congr (.of_exec rfl executed), ?_⟩
      simp only [Phase.after]
      split
      · trivial
      · exact TableKnown.home _ purpose
  | deletePV =>
      exact ⟨holds.invariant.congr (.of_exec rfl executed), trivial⟩
  | spawnCleaner =>
      obtain rfl : (world.execSpawnCleaner answers _).2 = later :=
        congrArg Prod.snd (Option.some.inj executed)
      exact ⟨holds.invariant.spawn holds.known answers, trivial⟩
  | createJob _ _ =>
      exact ⟨holds.invariant.congr (.of_exec rfl executed), trivial⟩
  | createPV _ =>
      exact ⟨holds.invariant.congr (.of_exec rfl executed), trivial⟩

/-- A new instance takes the table and the cleaners over. -/
theorem newInstance (holds : TableAssertion .idle world) :
    TableAssertion .idle world.newInstance :=
  holds.congr ⟨rfl, rfl⟩

/-- A new process starts without cleaners. -/
theorem newProcess : TableAssertion .idle world.newProcess :=
  ⟨TableInvariant.empty.congr ⟨rfl, rfl⟩, trivial⟩

end TableAssertion

end LocalProvisioner
