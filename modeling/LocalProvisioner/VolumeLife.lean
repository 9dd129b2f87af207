import LocalProvisioner.CleanerSafety
import LocalProvisioner.PassCalls

namespace LocalProvisioner

open Interleaving

/-!
# The life of a volume

What the provisioner is for, without its cache, its table and its API calls: a
volume is offered, occupied by a claim, given up with the data of the claim on
it, cleansed, and withdrawn, before it can be offered again.  `Life.Step` has
no other steps.  In particular nothing leads to `exposed`, where data of an
earlier claim is within reach of the next one.

Runs in which nobody else deletes PVs refine this machine: every step of such a
run is a step of the machine, or none, for every PV name.  An account is kept
of the volumes that hold data of a claim: the first binding of a claim soils a
volume, and a cleaner that succeeds cleans it.  A volume is known by the name of
its PV here; of a path that two PVs share, each of them has a life of its own.
-/

/-- The states of a volume, as its claims see them. -/
inductive Life where
  | absent : Life
  | offered : Life
  | occupied : Life
  | soiled : Life
  | cleansed : Life
  | exposed : Life
  deriving Repr, DecidableEq

/-- What can happen to a volume. -/
inductive Life.Step : Life → Life → Prop where
  | offer : Step .absent .offered
  | occupy : Step .offered .occupied
  | pass : Step .offered .soiled
  | vacate : Step .occupied .soiled
  | cleanse : Step .soiled .cleansed
  | withdraw : Step .cleansed .absent

/-- The machine never exposes a volume. -/
theorem Life.Step.not_exposed
    {life later : Life}
    (step : Life.Step life later) :
    later ≠ .exposed := by
  cases step <;> simp

/-- The state of a volume, from its PV and from whether it holds data. -/
def Life.of (server : Option PersistentVolume) (soiled : Bool) : Life :=
  match server with
  | none => if soiled then .exposed else .absent
  | some pv =>
      if pv.phase.rank < 3 then
        if soiled then .exposed else .offered
      else if pv.phase.rank < 4 then
        .occupied
      else
        if soiled then .soiled else .cleansed

/-- The volume of a PV that no claim has come to yet. -/
theorem Life.of_early
    {pv : PersistentVolume}
    (isEarly : pv.phase.rank < 3) :
    Life.of (some pv) false = .offered := by
  simp [Life.of, isEarly]

/-- The volume of a PV that is bound to a claim. -/
theorem Life.of_bound
    {pv : PersistentVolume}
    (isBound : pv.phase.rank = 3)
    (soiled : Bool) :
    Life.of (some pv) soiled = .occupied := by
  simp [Life.of, isBound]

/-- The volume of a relinquished PV. -/
theorem Life.of_relinquished
    {pv : PersistentVolume}
    (relinquished : pv.Relinquished)
    (soiled : Bool) :
    Life.of (some pv) soiled = if soiled then .soiled else .cleansed := by
  have past : 4 ≤ pv.phase.rank := relinquished
  have notEarly : ¬ pv.phase.rank < 3 := by omega
  have notBound : ¬ pv.phase.rank < 4 := by omega
  simp [Life.of, notEarly, notBound]

/-- Which volumes hold data of a claim. -/
abbrev Soiling := String → Bool

namespace Soiling

/-- Enter whether the volume of a PV holds data. -/
def set (soiling : Soiling) (pvName : String) (soiled : Bool) : Soiling :=
  fun other => if other = pvName then soiled else soiling other

/-- A claim has come to a PV. -/
def occupies (current pv : PersistentVolume) : Bool :=
  decide (current.phase.rank < 3 ∧ 3 ≤ pv.phase.rank)

/-- A relinquished PV is past its claim. -/
theorem occupies_of_relinquished
    {current : PersistentVolume}
    (relinquished : current.Relinquished)
    (pv : PersistentVolume) :
    occupies current pv = false := by
  have past : 4 ≤ current.phase.rank := relinquished
  simp only [occupies, decide_eq_false_iff_not]
  omega

/-- The account after one more step of the run. -/
def note (state : SyncState) (action : Action) (soiling : Soiling) : Soiling :=
  match action with
  | .disturb (.updatePV pv) =>
      match state.world.pvs.get pv.name with
      | none => soiling
      | some current =>
          soiling.set pv.name (occupies current pv || soiling pv.name)
  | .disturb (.cleanerFinishes index performed) =>
      match state.world.cleaners[index]? with
      | none => soiling
      | some cleaner =>
          if cleaningOutcome cleaner.work performed = .succeeded then
            soiling.set cleaner.pvName false
          else
            soiling
  | _ => soiling

end Soiling

/-- The surroundings neither mark PVs as deleted nor remove unmarked ones. -/
def Disturbance.leavesDeletion (world : World) : Disturbance → Bool
  | .updatePV pv =>
      (world.pvs.get pv.name).all fun current =>
        decide (current.deletionTimestamp = pv.deletionTimestamp)
  | .removePV pvName =>
      (world.pvs.get pvName).all fun pv => pv.deletionTimestamp.isSome
  | _ => true

/-- Orderly runs in which the deletion of PVs is left to the provisioner. -/
def reclaimingMode : Conditions where
  configuration := orderlyMode.configuration
  restarts := orderlyMode.restarts
  disturbance := fun disturbance world =>
    disturbance.orderly world = true ∧
      disturbance.leavesDeletion world = true
  call := orderlyMode.call

instance : reclaimingMode.Executable where
  configuration := fun _ => inferInstanceAs (Decidable (_ = _))
  restarts := .isTrue trivial
  disturbance := fun _ _ => inferInstanceAs (Decidable (_ ∧ _))
  call := fun _ _ _ => .isTrue trivial

/-- The states of these runs, with the account of their volumes. -/
abbrev ReachesWithSoiling : SyncState × Soiling → Prop :=
  ReachableWith step Soiling.note reclaimingMode.permits
    reclaimingMode.started fun _ => false

/-!
## One name at a time
-/

/-- How one step changes the PV of a name and the state of its volume. -/
inductive LifeMove :
    Option PersistentVolume → Bool → Option PersistentVolume → Bool → Prop where
  | same (server : Option PersistentVolume) (soiled : Bool) :
      LifeMove server soiled server soiled
  | created {pv : PersistentVolume} (soiled : Bool) :
      pv.phase = .unset →
      pv.deletionTimestamp = none →
      LifeMove none soiled (some pv) soiled
  | marked {pv : PersistentVolume} (timestamp : Option Nat) :
      pv.Relinquished →
      LifeMove (some pv) false
        (some { pv with deletionTimestamp := timestamp }) false
  | withdrawn {pv : PersistentVolume} :
      pv.Relinquished →
      LifeMove (some pv) false none false
  | updated {current pv : PersistentVolume} (soiled : Bool) :
      current.phase.rank ≤ pv.phase.rank →
      current.deletionTimestamp = pv.deletionTimestamp →
      LifeMove (some current) soiled (some pv)
        (Soiling.occupies current pv || soiled)
  | cleansed {server : Option PersistentVolume} (soiled : Bool) :
      (∀ pv, server = some pv → pv.Relinquished) →
      LifeMove server soiled server false

/-- What always holds of the PV of a name and the state of its volume. -/
structure Sane (server : Option PersistentVolume) (soiled : Bool) : Prop where
  absent : server = none → soiled = false
  early : ∀ pv, server = some pv → pv.phase.rank < 3 → soiled = false
  bound : ∀ pv, server = some pv → pv.phase.rank = 3 → soiled = true
  marked :
    ∀ pv,
      server = some pv →
      pv.deletionTimestamp ≠ none →
      pv.Relinquished ∧ soiled = false

namespace LifeMove

variable {server later : Option PersistentVolume} {soiled afterwards : Bool}

/-- The invariant of one name is kept. -/
theorem sane
    (move : LifeMove server soiled later afterwards)
    (sane : Sane server soiled) :
    Sane later afterwards := by
  cases move with
  | same => exact sane
  | @created pv _ isUnset unmarked =>
      refine ⟨by rintro ⟨⟩, ?_, ?_, ?_⟩
      · intro _ _ _
        exact sane.absent rfl
      · rintro _ ⟨⟩ isBound
        rw [isUnset] at isBound
        cases isBound
      · rintro _ ⟨⟩ marked
        exact (marked unmarked).elim
  | marked timestamp relinquished =>
      refine ⟨by rintro ⟨⟩, ?_, ?_, ?_⟩
      · intro _ _ _
        rfl
      · rintro _ ⟨⟩ isBound
        exact absurd (isBound ▸ relinquished : 4 ≤ 3) (by decide)
      · rintro _ ⟨⟩ _
        exact ⟨relinquished, rfl⟩
  | withdrawn _ =>
      exact ⟨fun _ => rfl, by rintro _ ⟨⟩, by rintro _ ⟨⟩, by rintro _ ⟨⟩⟩
  | @updated current pv _ forward sameMark =>
      refine ⟨by rintro ⟨⟩, ?_, ?_, ?_⟩
      · rintro _ ⟨⟩ isEarly
        have wasEarly := Nat.lt_of_le_of_lt forward isEarly
        rw [sane.early current rfl wasEarly]
        simp only [Soiling.occupies, Bool.or_false, decide_eq_false_iff_not]
        omega
      · rintro _ ⟨⟩ isBound
        simp only [Soiling.occupies, Bool.or_eq_true, decide_eq_true_eq]
        by_cases wasEarly : current.phase.rank < 3
        · exact .inl ⟨wasEarly, by omega⟩
        · exact .inr (sane.bound current rfl (by omega))
      · rintro _ ⟨⟩ marked
        obtain ⟨relinquished, clean⟩ :=
          sane.marked current rfl (sameMark ▸ marked)
        refine ⟨Nat.le_trans relinquished forward, ?_⟩
        rw [Soiling.occupies_of_relinquished relinquished pv, clean]
        rfl
  | cleansed _ relinquished =>
      refine ⟨fun _ => rfl, fun _ _ _ => rfl, ?_, ?_⟩
      · intro pv stored isBound
        have ranked := relinquished pv stored
        exact absurd (isBound ▸ ranked : 4 ≤ 3) (by decide)
      · intro pv stored _
        exact ⟨relinquished pv stored, rfl⟩

/-- A relinquished PV of a clean volume stays so, unless it is created. -/
theorem vacated
    (move : LifeMove server soiled later afterwards)
    (stored : server ≠ none ∨ later = none)
    (vacated : ∀ pv, server = some pv → pv.Relinquished)
    (clean : soiled = false) :
    (∀ pv, later = some pv → pv.Relinquished) ∧ afterwards = false := by
  cases move with
  | same => exact ⟨vacated, clean⟩
  | created _ _ _ =>
      rcases stored with isStored | isAbsent
      · exact (isStored rfl).elim
      · cases isAbsent
  | marked timestamp relinquished =>
      exact ⟨by rintro _ ⟨⟩; exact relinquished, rfl⟩
  | withdrawn _ => exact ⟨by rintro _ ⟨⟩, rfl⟩
  | @updated current pv _ forward sameMark =>
      have relinquished := vacated current rfl
      refine ⟨?_, ?_⟩
      · rintro _ ⟨⟩
        exact Nat.le_trans relinquished forward
      · rw [Soiling.occupies_of_relinquished relinquished pv, clean]
        rfl
  | cleansed _ _ => exact ⟨vacated, rfl⟩

/-- A move is a step of the machine, or none. -/
theorem simulates
    (move : LifeMove server soiled later afterwards)
    (sane : Sane server soiled) :
    Life.of later afterwards = Life.of server soiled ∨
      Life.Step (Life.of server soiled) (Life.of later afterwards) := by
  cases move with
  | same => exact .inl rfl
  | @created pv _ isUnset _ =>
      have clean := sane.absent rfl
      subst clean
      rw [Life.of_early (by rw [isUnset]; decide)]
      exact .inr .offer
  | marked timestamp relinquished => exact .inl rfl
  | withdrawn relinquished =>
      rw [Life.of_relinquished relinquished]
      exact .inr .withdraw
  | @updated current pv _ forward sameMark =>
      rcases Nat.lt_trichotomy current.phase.rank 3 with
        wasEarly | wasBound | wasPast
      · have clean := sane.early current rfl wasEarly
        subst clean
        rw [Life.of_early wasEarly]
        rcases Nat.lt_trichotomy pv.phase.rank 3 with isEarly | isBound | isPast
        · have stays : Soiling.occupies current pv = false := by
            simp only [Soiling.occupies, decide_eq_false_iff_not]
            omega
          rw [stays, Bool.or_false, Life.of_early isEarly]
          exact .inl rfl
        · rw [Life.of_bound isBound]
          exact .inr .occupy
        · have comes : Soiling.occupies current pv = true := by
            simp only [Soiling.occupies, decide_eq_true_eq]
            omega
          have relinquished : pv.Relinquished := isPast
          rw [comes, Life.of_relinquished relinquished]
          exact .inr .pass
      · have soiledBefore := sane.bound current rfl wasBound
        subst soiledBefore
        rw [Life.of_bound wasBound, Bool.or_true]
        rcases Nat.lt_or_ge 3 pv.phase.rank with isPast | notPast
        · have relinquished : pv.Relinquished := isPast
          rw [Life.of_relinquished relinquished]
          exact .inr .vacate
        · rw [Life.of_bound (by omega)]
          exact .inl rfl
      · have relinquished : current.Relinquished := wasPast
        rw [Soiling.occupies_of_relinquished relinquished pv, Bool.false_or,
          Life.of_relinquished relinquished,
          Life.of_relinquished (Nat.le_trans relinquished forward)]
        exact .inl rfl
  | cleansed _ relinquished =>
      cases server with
      | none =>
          rw [sane.absent rfl]
          exact .inl rfl
      | some pv =>
          rw [Life.of_relinquished (relinquished pv rfl),
            Life.of_relinquished (relinquished pv rfl)]
          cases soiled with
          | false => exact .inl rfl
          | true => exact .inr .cleanse

end LifeMove

/-- No volume is exposed. -/
theorem Sane.not_exposed
    {server : Option PersistentVolume}
    {soiled : Bool}
    (sane : Sane server soiled) :
    Life.of server soiled ≠ .exposed := by
  cases server with
  | none =>
      rw [sane.absent rfl]
      simp [Life.of]
  | some pv =>
      rcases Nat.lt_trichotomy pv.phase.rank 3 with isEarly | isBound | isPast
      · rw [sane.early pv rfl isEarly, Life.of_early isEarly]
        simp
      · rw [Life.of_bound isBound]
        simp
      · have relinquished : pv.Relinquished := isPast
        rw [Life.of_relinquished relinquished]
        cases soiled <;> simp

/-!
## Licenses

The deleter deletes a PV once a cleaning of it has ended in success and no
creation has followed (`Licensed`).  As long as a name has such a license, its
volume is clean and its PV, if it still has one, is relinquished.
-/

/-- A license is as old as the event before, unless the event grants it. -/
theorem Licensed.of_cons
    {history : List Event}
    {event : Event}
    {pvName : String}
    {run : Nat}
    (licensed : Licensed (event :: history) pvName run) :
    event = .cleanerEnded run pvName .succeeded ∨
      Licensed history pvName run ∧ event ≠ .createPVIssued pvName := by
  obtain ⟨since, ⟨pv, before, listing, shape, ordinal, named, reclaimable,
    latest, member, fresh, kept⟩, ended⟩ := licensed
  cases since with
  | nil => cases ended
  | cons newest earlier =>
      rw [List.cons_append] at shape
      cases shape
      simp only [List.mem_cons, not_or] at fresh kept ended
      rcases ended with grants | isEarlier
      · exact .inl grants.symm
      · exact .inr ⟨⟨earlier, ⟨pv, before, listing, rfl, ordinal, named,
          reclaimable, latest, member, fresh.2, kept.2⟩, isEarlier⟩,
          Ne.symm fresh.1⟩

/-- Is an event the end of a cleaner? -/
def Event.endsCleaner : Event → Bool
  | .cleanerEnded _ _ _ => true
  | _ => false

/-- Events that end no cleaner grant no license. -/
theorem Licensed.of_append
    {events history : List Event}
    {pvName : String}
    {run : Nat}
    (licensed : Licensed (events ++ history) pvName run)
    (grantless : ∀ event ∈ events, event.endsCleaner = false) :
    Licensed history pvName run ∧ .createPVIssued pvName ∉ events := by
  induction events with
  | nil => exact ⟨licensed, by simp⟩
  | cons event rest inductionHypothesis =>
      rcases licensed.of_cons with rfl | ⟨earlier, notCreated⟩
      · cases grantless _ List.mem_cons_self
      · obtain ⟨isLicensed, fresh⟩ := inductionHypothesis earlier
          fun other member => grantless other (List.mem_cons_of_mem _ member)
        refine ⟨isLicensed, ?_⟩
        simp only [List.mem_cons, not_or]
        exact ⟨Ne.symm notCreated, fresh⟩

/-- What a call adds to the history. -/
theorem history_of_exec
    {op : Op}
    {answers : Answers}
    {world later : World}
    {reply : op.Reply}
    (executed : exec op answers world = some (reply, later)) :
    ∃ events,
      later.history = events ++ world.history ∧
        (∀ event ∈ events, event.endsCleaner = false) ∧
        ∀ pvName, op.createdName = some pvName →
          .createPVIssued pvName ∈ events := by
  cases op with
  | listPVs =>
      obtain ⟨listed, _, same⟩ := Option.map_eq_some_iff.mp executed
      cases same
      exact ⟨[.listedPVs reply], rfl, by simp [Event.endsCleaner],
        by rintro _ ⟨⟩⟩
  | rangeDiscoveryMap classes =>
      obtain ⟨ordered, _, same⟩ := Option.map_eq_some_iff.mp executed
      cases same
      exact ⟨[], rfl, by simp, by rintro _ ⟨⟩⟩
  | spawnCleaner work =>
      obtain rfl : (world.execSpawnCleaner answers work).2 = later :=
        congrArg Prod.snd (Option.some.inj executed)
      unfold World.execSpawnCleaner
      split
      · exact ⟨[], rfl, by simp, by rintro _ ⟨⟩⟩
      · exact ⟨[.cleanerStarted world.history.length work.pv], rfl,
          by simp [Event.endsCleaner], by rintro _ ⟨⟩⟩
  | deleteJob jobName namespaceName =>
      obtain rfl : (world.execDeleteJob answers jobName).2 = later :=
        congrArg Prod.snd (Option.some.inj executed)
      exact ⟨[], world.history_execDeleteJob answers jobName, by simp,
        by rintro _ ⟨⟩⟩
  | deletePV pvName =>
      obtain rfl : (world.execDeletePV answers pvName).2 = later :=
        congrArg Prod.snd (Option.some.inj executed)
      exact ⟨[.deletePVIssued pvName],
        world.history_execDeletePV answers pvName,
        by simp [Event.endsCleaner], by rintro _ ⟨⟩⟩
  | createJob job =>
      obtain rfl : (world.execCreateJob answers job).2 = later :=
        congrArg Prod.snd (Option.some.inj executed)
      unfold World.execCreateJob
      split
      · exact ⟨[], rfl, by simp, by rintro _ ⟨⟩⟩
      · split
        · exact ⟨[], rfl, by simp, by rintro _ ⟨⟩⟩
        · exact ⟨[.jobCreated job.name (world.freshUID answers)], rfl,
            by simp [Event.endsCleaner], by rintro _ ⟨⟩⟩
  | createPV pv =>
      obtain rfl : (world.execCreatePV answers pv).2 = later :=
        congrArg Prod.snd (Option.some.inj executed)
      unfold World.execCreatePV
      split
      · exact ⟨[.createPVIssued pv.name], rfl, by simp [Event.endsCleaner],
          by rintro _ ⟨⟩; simp⟩
      · split
        · exact ⟨[.createPVIssued pv.name], rfl, by simp [Event.endsCleaner],
            by rintro _ ⟨⟩; simp⟩
        · exact ⟨[.pvCreated pv.name (world.freshUID answers),
            .createPVIssued pv.name], rfl, by simp [Event.endsCleaner], by rintro _ ⟨⟩; simp⟩
  | crash reason => cases executed
  | getPV | lookupPVsByPath | isRunning | removeEntry | isCleaningJobRunning
  | getJob | isDir | isBlock | readDir | listMounts | getBlockCapacityByte
  | getFsCapacityByte | getStorageClass | now | report | setReady =>
      cases executed
      exact ⟨[], rfl, by simp, by rintro _ ⟨⟩⟩

/-- What a move of the surroundings adds to the history. -/
theorem history_of_disturb
    {world later : World}
    {runtime : RuntimeConfig}
    {disturbance : Disturbance}
    (moved : world.disturb runtime disturbance = some later) :
    (∃ index cleaner performed,
      disturbance = .cleanerFinishes index performed ∧
        world.cleaners[index]? = some cleaner ∧
        later = world.finishCleaner index cleaner performed) ∨
      later.history = world.history ∨
      ∃ jobName uid,
        later.history = .jobSucceeded jobName uid :: world.history := by
  cases disturbance with
  | cleanerFinishes index performed =>
      obtain ⟨cleaner, found, rfl⟩ := Option.map_eq_some_iff.mp moved
      exact .inl ⟨index, cleaner, performed, rfl, found, rfl⟩
  | jobSucceeds jobName =>
      simp only [World.disturb] at moved
      split at moved
      · cases moved
      · split at moved
        · cases moved
          exact .inr (.inr ⟨_, _, rfl⟩)
        · cases moved
  | updatePV pv =>
      simp only [World.disturb] at moved
      split at moved
      · cases moved
      · split at moved
        · cases moved
          exact .inr (.inl rfl)
        · cases moved
  | overwriteCache cache =>
      cases moved
      exact .inr (.inl rfl)
  | removePV | markJobDeleted | removeJob =>
      obtain ⟨_, _, rfl⟩ := Option.map_eq_some_iff.mp moved
      exact .inr (.inl rfl)
  | deliverPV | deliverJob =>
      simp only [World.disturb] at moved
      split at moved
      · cases moved
      · cases moved
        exact .inr (.inl rfl)

/-!
## Whole runs
-/

/-- A new process has no cleaners and no entries to account for. -/
theorem HistoryInvariant.newProcess
    {world : World}
    (invariant : HistoryInvariant world) :
    HistoryInvariant world.newProcess := by
  refine ⟨?_, ?_, invariant.deletions⟩
  · intro cleaner member
    cases member
  · intro pvName succeeded
    simp [World.newProcess] at succeeded

/-- The assertions of orderly runs and of in-process cleaning. -/
structure LifeAssertion (phase : Phase) (world : World) : Prop where
  orderly : OrderlyAssertion phase world
  process : ProcessAssertion phase world

/-- Runs whose deletions are left to the provisioner carry both. -/
theorem reclaimingMode_carried :
    Carried reclaimingMode processScope LifeAssertion where
  flags := fun _ admitted => admitted
  outline := {
    silent := fun moved holds =>
      ⟨holds.orderly.silent moved, holds.process.silent moved⟩
    call := fun allowed holds _ executed =>
      ⟨syncProtocol_admits trivial _ _,
        (orderlyMode_carried.outline.call allowed holds.orderly trivial
          executed).2,
        holds.process.call allowed executed⟩
  }
  initially :=
    ⟨orderlyMode_carried.initially, processMode_carried.initially⟩
  disturbed := fun holds permitted moved =>
    ⟨holds.orderly.disturbed permitted.1 moved,
      holds.process.disturbed moved⟩
  reloaded := fun holds =>
    ⟨holds.orderly.newInstance, processMode_carried.reloaded holds.process⟩
  restarted := fun _ holds =>
    ⟨.newProcess, .newProcess, holds.process.history.newProcess, trivial⟩

/-- A pass about to delete a PV has a license for it. -/
theorem licensed_of_deletePV
    {state : SyncState}
    {pvName : String}
    {next : Except ApiError Unit → Routine Unit}
    (reached : reclaimingMode.Reaches state)
    (calling : state.rest = .call (.deletePV pvName) next) :
    ∃ run, Licensed state.world.history pvName run := by
  obtain ⟨phase, holds, allowed⟩ :=
    reclaimingMode_carried.atCall reached calling
  cases allowed with
  | probe probing => exact probing.elim
  | deletePV => exact holds.process.known.2.2 rfl

/-- What holds of every name in the states of a run. -/
structure LifeInvariant (world : World) (soiling : Soiling) : Prop where
  sane : ∀ pvName, Sane (world.pvs.get pvName) (soiling pvName)
  licensed :
    ∀ pvName run,
      Licensed world.history pvName run →
      (∀ pv, world.pvs.get pvName = some pv → pv.Relinquished) ∧
        soiling pvName = false

section Steps

variable {state next : SyncState}
variable {soiling : Soiling}

/-- The calls of a pass move every name. -/
theorem lifeMove_of_call
    {op : Op}
    {continues : op.Reply → Routine Unit}
    {answers : Answers}
    {reply : op.Reply}
    {later : World}
    (reached : reclaimingMode.Reaches state)
    (invariant : LifeInvariant state.world soiling)
    (calling : state.rest = .call op continues)
    (executed : exec op answers state.world = some (reply, later))
    (pvName : String) :
    LifeMove (state.world.pvs.get pvName) (soiling pvName)
      (later.pvs.get pvName) (soiling pvName) := by
  cases effect_of_exec executed with
  | recorded | tookEntry | createdJob | markedJob => exact .same _ _
  | spawned work =>
      rw [(World.SamePVs.execSpawnCleaner answers work).pvs]
      exact .same _ _
  | createdPV pv free =>
      have own := createsOwn_of_reaches reached
      rw [SyncState.CreatesOwn, calling] at own
      cases own with
      | call isOwn _ =>
          obtain ⟨candidate, mountOptions, capacityByte, affinityAnn, rfl⟩ :=
            isOwn pv rfl
          simp only [World.admitPV, World.record, World.putPV,
            ObjectStore.get_put]
          split
          · rename_i same
            rw [same, free]
            exact .created _ rfl rfl
          · exact .same _ _
  | markedPV deletedName pv stored =>
      obtain ⟨run, licensed⟩ := licensed_of_deletePV reached calling
      obtain ⟨relinquished, clean⟩ :=
        invariant.licensed deletedName run licensed
      have sameName := ObjectStore.name_of_get stored
      subst sameName
      simp only [World.record, World.putPV, ObjectStore.get_put]
      split
      · rename_i same
        rw [same, stored, clean]
        exact .marked _ (relinquished pv stored)
      · exact .same _ _
  | removedPV deletedName pv stored =>
      obtain ⟨run, licensed⟩ := licensed_of_deletePV reached calling
      obtain ⟨relinquished, clean⟩ :=
        invariant.licensed deletedName run licensed
      have sameName := ObjectStore.name_of_get stored
      simp only [World.record, World.dropPV, ObjectStore.get_drop]
      split
      · rename_i same
        rw [same, sameName, stored, clean]
        exact .withdrawn (relinquished pv stored)
      · exact .same _ _

/-- The moves of the surroundings move every name. -/
theorem lifeMove_of_disturb
    {runtime : RuntimeConfig}
    {disturbance : Disturbance}
    {later : World}
    (reached : reclaimingMode.Reaches state)
    (invariant : LifeInvariant state.world soiling)
    (leaves : disturbance.leavesDeletion state.world = true)
    (orderly : disturbance.orderly state.world = true)
    (moved : state.world.disturb runtime disturbance = some later)
    (pvName : String) :
    LifeMove (state.world.pvs.get pvName) (soiling pvName)
      (later.pvs.get pvName)
      (Soiling.note state (.disturb disturbance) soiling pvName) := by
  cases disturbance with
  | overwriteCache cache => cases orderly
  | cleanerFinishes index performed =>
      obtain ⟨cleaner, found, rfl⟩ := Option.map_eq_some_iff.mp moved
      simp only [Soiling.note, found]
      split
      · simp only [Soiling.set]
        split
        · rename_i same
          obtain ⟨phase, holds⟩ :=
            reclaimingMode_carried.assertion_of_reaches reached
          have running := holds.process.table.invariant.running_of_mem
            (List.mem_of_getElem? found)
          subst same
          exact .cleansed _
            (holds.orderly.invariant.entries cleaner.pvName _ running)
        · exact .same _ _
      · exact .same _ _
  | updatePV pv =>
      simp only [World.disturb] at moved
      split at moved
      · cases moved
      · rename_i current stored
        split at moved
        · cases moved
          simp only [Disturbance.orderly, stored, Option.all_some,
            decide_eq_true_eq] at orderly
          simp only [Disturbance.leavesDeletion, stored, Option.all_some,
            decide_eq_true_eq] at leaves
          simp only [Soiling.note, stored, Soiling.set, World.putPV,
            ObjectStore.get_put]
          split
          · rename_i same
            subst same
            rw [stored]
            exact .updated _ orderly leaves
          · exact .same _ _
        · cases moved
  | removePV removedName =>
      obtain ⟨pv, stored, rfl⟩ := Option.map_eq_some_iff.mp moved
      simp only [Disturbance.leavesDeletion, stored, Option.all_some,
        Option.isSome_iff_ne_none] at leaves
      simp only [Soiling.note, World.dropPV, ObjectStore.get_drop]
      split
      · rename_i same
        have sameName := ObjectStore.name_of_get stored
        obtain ⟨relinquished, clean⟩ :=
          (invariant.sane removedName).marked pv stored leaves
        rw [same, sameName, stored, clean]
        exact .withdrawn relinquished
      · exact .same _ _
  | jobSucceeds jobName =>
      simp only [World.disturb] at moved
      split at moved
      · cases moved
      · split at moved
        · cases moved
          exact .same _ _
        · cases moved
  | markJobDeleted jobName now =>
      obtain ⟨job, _, rfl⟩ := Option.map_eq_some_iff.mp moved
      exact .same _ _
  | removeJob jobName =>
      obtain ⟨job, _, rfl⟩ := Option.map_eq_some_iff.mp moved
      exact .same _ _
  | deliverPV =>
      simp only [World.disturb] at moved
      split at moved
      · cases moved
      · cases moved
        exact .same _ _
  | deliverJob =>
      simp only [World.disturb] at moved
      split at moved
      · cases moved
      · cases moved
        exact .same _ _

/-- Every step moves every name. -/
theorem lifeMove_of_step
    {action : Action}
    (reached : reclaimingMode.Reaches state)
    (invariant : LifeInvariant state.world soiling)
    (permitted : reclaimingMode.permits state action)
    (stepped : step state action = some next)
    (pvName : String) :
    LifeMove (state.world.pvs.get pvName) (soiling pvName)
      (next.world.pvs.get pvName)
      (Soiling.note state action soiling pvName) := by
  cases action with
  | call answers =>
      simp only [step] at stepped
      split at stepped
      · cases stepped
      · rename_i op continues calling
        obtain ⟨outcome, executed, rfl⟩ := Option.map_eq_some_iff.mp stepped
        exact lifeMove_of_call reached invariant calling executed pvName
  | disturb disturbance =>
      obtain ⟨later, moved, rfl⟩ := Option.map_eq_some_iff.mp stepped
      exact lifeMove_of_disturb reached invariant permitted.2 permitted.1
        moved pvName
  | beginPass =>
      simp only [step] at stepped
      split at stepped
      · cases stepped
        exact .same _ _
      · cases stepped
  | reload runtime =>
      simp only [step] at stepped
      split at stepped
      · cases stepped
        exact .same _ _
      · cases stepped
  | restart runtime =>
      simp only [step] at stepped
      split at stepped
      · cases stepped
        exact .same _ _
      · cases stepped

/--
A name with a license had one before, and was not created meanwhile, or the
step ended a cleaner of it in success.
-/
theorem licensed_of_step
    {action : Action}
    {pvName : String}
    {run : Nat}
    (stepped : step state action = some next)
    (licensed : Licensed next.world.history pvName run) :
    (Licensed state.world.history pvName run ∧
        (state.world.pvs.get pvName ≠ none ∨
          next.world.pvs.get pvName = none)) ∨
      ∃ index cleaner performed,
        action = .disturb (.cleanerFinishes index performed) ∧
          state.world.cleaners[index]? = some cleaner ∧
          cleaner.pvName = pvName ∧
          cleaningOutcome cleaner.work performed = .succeeded ∧
          next.world.pvs = state.world.pvs := by
  have unchanged :
      ∀ later : World,
        later.history = state.world.history →
        later.pvs = state.world.pvs →
        Licensed later.history pvName run →
        Licensed state.world.history pvName run ∧
          (state.world.pvs.get pvName ≠ none ∨
            later.pvs.get pvName = none) := by
    intro later sameHistory samePVs isLicensed
    rw [sameHistory] at isLicensed
    rw [samePVs]
    exact ⟨isLicensed, (em _).symm⟩
  cases action with
  | call answers =>
      simp only [step] at stepped
      split at stepped
      · cases stepped
      · rename_i op continues calling
        obtain ⟨⟨reply, later⟩, executed, rfl⟩ :=
          Option.map_eq_some_iff.mp stepped
        obtain ⟨events, history, grantless, creation⟩ :=
          history_of_exec executed
        simp only [history] at licensed
        obtain ⟨earlier, notCreated⟩ := licensed.of_append grantless
        refine .inl ⟨earlier, ?_⟩
        by_contra appears
        rw [not_or, not_not] at appears
        obtain ⟨free, stored⟩ := appears
        rcases pvs_of_exec executed with
          same | ⟨pv, timestamp, isStored, same⟩ | ⟨dropped, same⟩ |
          ⟨pv, rfl, _, same⟩
        · rw [same] at stored
          exact stored free
        · rw [same, ObjectStore.get_put] at stored
          split at stored
          · rename_i isName
            have sameName : pvName = pv.name := isName
            rw [sameName, isStored] at free
            cases free
          · exact stored free
        · apply stored
          rw [same, ObjectStore.get_drop]
          split
          · rfl
          · exact free
        · rw [same, ObjectStore.get_put] at stored
          split at stored
          · rename_i isName
            have sameName : pvName = pv.name := isName
            exact notCreated (creation pvName (by rw [sameName]; rfl))
          · exact stored free
  | disturb disturbance =>
      obtain ⟨later, moved, rfl⟩ := Option.map_eq_some_iff.mp stepped
      have appears :
          state.world.pvs.get pvName ≠ none ∨ later.pvs.get pvName = none := by
        rcases World.pvs_of_disturb moved with
          same | ⟨current, updated, stored, _, _, same⟩ | ⟨dropped, same⟩
        · rw [same]
          exact (em _).symm
        · by_cases isName : pvName = updated.name
          · rw [isName, stored]
            exact .inl (by simp)
          · rw [same, ObjectStore.get_put, if_neg isName]
            exact (em _).symm
        · by_cases isName : pvName = dropped
          · rw [same, isName, ObjectStore.get_drop, if_pos rfl]
            exact .inr rfl
          · rw [same, ObjectStore.get_drop, if_neg isName]
            exact (em _).symm
      rcases history_of_disturb moved with
        ⟨index, cleaner, performed, rfl, found, rfl⟩ | same |
        ⟨jobName, uid, recorded⟩
      · rcases Licensed.of_cons licensed with granted | ⟨earlier, _⟩
        · simp only [Event.cleanerEnded.injEq] at granted
          exact .inr ⟨index, cleaner, performed, rfl, found, granted.2.1,
            granted.2.2, rfl⟩
        · exact .inl ⟨earlier, appears⟩
      · simp only [same] at licensed
        exact .inl ⟨licensed, appears⟩
      · simp only [recorded] at licensed
        rcases licensed.of_cons with granted | ⟨earlier, _⟩
        · cases granted
        · exact .inl ⟨earlier, appears⟩
  | beginPass =>
      simp only [step] at stepped
      split at stepped
      · cases stepped
        exact .inl (unchanged _ rfl rfl licensed)
      · cases stepped
  | reload runtime =>
      simp only [step] at stepped
      split at stepped
      · cases stepped
        exact .inl (unchanged _ rfl rfl licensed)
      · cases stepped
  | restart runtime =>
      simp only [step] at stepped
      split at stepped
      · cases stepped
        exact .inl (unchanged _ rfl rfl licensed)
      · cases stepped

end Steps

/-- The invariant holds in every state of a run. -/
theorem lifeInvariant_of_reaches
    {state : SyncState}
    {soiling : Soiling}
    (reaches : ReachesWithSoiling (state, soiling)) :
    LifeInvariant state.world soiling := by
  refine @ReachableWith.invariant _ _ _ _ _ _ _ _
    (fun state soiling => LifeInvariant state.world soiling) ?_ ?_ _ reaches
  · rintro state ⟨runtime, discoverer, _, _, rfl⟩
    constructor
    · intro pvName
      refine ⟨fun _ => rfl, ?_, ?_, ?_⟩ <;>
        · intro pv stored
          simp [World.empty] at stored
    · rintro pvName run ⟨since, ⟨pv, before, listing, shape, _⟩, _⟩
      simp [World.empty] at shape
  · intro state soiling action next reached invariant permitted stepped
    have moves := lifeMove_of_step reached invariant permitted stepped
    constructor
    · intro pvName
      exact (moves pvName).sane (invariant.sane pvName)
    · intro pvName run licensed
      rcases licensed_of_step stepped licensed with
        ⟨earlier, stored⟩ |
        ⟨index, cleaner, performed, rfl, found, rfl, succeeded, same⟩
      · obtain ⟨vacated, clean⟩ := invariant.licensed pvName run earlier
        exact (moves pvName).vacated stored vacated clean
      · obtain ⟨phase, holds⟩ :=
          reclaimingMode_carried.assertion_of_reaches reached
        have running := holds.process.table.invariant.running_of_mem
          (List.mem_of_getElem? found)
        refine ⟨?_, ?_⟩
        · rw [same]
          exact holds.orderly.invariant.entries cleaner.pvName _ running
        · simp [Soiling.note, found, succeeded, Soiling.set]

/--
Runs in which the deletion of PVs is left to the provisioner refine the life of
a volume for every PV name: the PV of that name is never exposed, and every step
is a step of the machine for this name, or none.
-/
theorem life_refined
    {state next : SyncState}
    {soiling : Soiling}
    {action : Action}
    (reaches : ReachesWithSoiling (state, soiling))
    (permitted : reclaimingMode.permits state action)
    (stepped : step state action = some next)
    (pvName : String) :
    let before := Life.of (state.world.pvs.get pvName) (soiling pvName)
    let afterwards :=
      Life.of (next.world.pvs.get pvName)
        (Soiling.note state action soiling pvName)
    before ≠ .exposed ∧
      (afterwards = before ∨ Life.Step before afterwards) := by
  have invariant := lifeInvariant_of_reaches reaches
  have reached : reclaimingMode.Reaches state := reaches.reachable
  have sane := invariant.sane pvName
  exact ⟨sane.not_exposed,
    (lifeMove_of_step reached invariant permitted stepped pvName).simulates
      sane⟩

/-- A cleaner that succeeds cleanses the volume that its claim has soiled. -/
theorem life_refined_of_sampleReclamation :
    ∃ state soiling next,
      ReachesWithSoiling (state, soiling) ∧
        step state (.disturb (.cleanerFinishes 0 (.ok ()))) = some next ∧
        Life.of (state.world.pvs.get sampleName) (soiling sampleName) =
          .soiled ∧
        Life.Step .soiled
          (Life.of (next.world.pvs.get sampleName)
            (Soiling.note state (.disturb (.cleanerFinishes 0 (.ok ())))
              soiling sampleName)) := by
  have started :
      reclaimingMode.started (sampleStart false sampleClasses) ∧
        (fun _ => false : Soiling) = fun _ => false :=
    ⟨⟨sampleRuntime false sampleClasses, _, rfl,
      newDiscoverer_sampleRuntime false sampleClasses, rfl⟩, rfl⟩
  obtain ⟨⟨state, soiling⟩, reaches, checked⟩ :=
    @Reachable.exists_of_replay _ _ (observed step Soiling.note)
      (fun state action => reclaimingMode.permits state.1 action)
      (fun state =>
        reclaimingMode.started state.1 ∧ state.2 = fun _ => false) _
      sampleReclamation (sampleStart false sampleClasses, fun _ => false)
      (fun reached =>
        (step reached.1 (.disturb (.cleanerFinishes 0 (.ok ())))).any
          fun next =>
            decide (Life.of (reached.1.world.pvs.get sampleName)
              (reached.2 sampleName) = .soiled ∧
              Life.of (next.world.pvs.get sampleName)
                (Soiling.note reached.1
                  (.disturb (.cleanerFinishes 0 (.ok ()))) reached.2
                  sampleName) ≠ .soiled))
      started (by decide +kernel)
  obtain ⟨next, stepped, shape⟩ := (Option.any_eq_true _ _).mp checked
  obtain ⟨soiled, changed⟩ := of_decide_eq_true shape
  have permitted :
      reclaimingMode.permits state
        (.disturb (.cleanerFinishes 0 (.ok ()))) :=
    ⟨rfl, rfl⟩
  obtain ⟨_, same | advances⟩ :=
    life_refined reaches permitted stepped sampleName
  · exact (changed (same.trans soiled)).elim
  · exact ⟨state, soiling, next, reaches, stepped, soiled,
      soiled ▸ advances⟩

end LocalProvisioner
