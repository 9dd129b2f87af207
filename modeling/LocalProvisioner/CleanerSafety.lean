import LocalProvisioner.ProcessMode
import LocalProvisioner.WatchStream

namespace LocalProvisioner

open Interleaving
open WatchStream (View Quiet InStep)

/-!
# Cleaners and the claims on a volume

A cleaner erases the volume of a PV.  The deleter starts it for a PV that its
cache shows as released, and the cache lags behind the API server, so by then
the API server may have a new PV of the same name that is on offer, or bound to
another claim.

In runs whose PVs go through their phases in order, and lose an object only
after the cache has been told of its deletion mark, this does not happen: as
long as a cleaner is at work on a PV, or its outcome has not been taken from
the table, the API server has no PV of that name, or one that its claim has
given up.  Instances may be reloaded and processes restarted at any time.
-/

/-- How far a phase is along the life of a PV. -/
def VolumePhase.rank : VolumePhase → Nat
  | .unset => 0
  | .pending => 1
  | .available => 2
  | .bound => 3
  | .released => 4
  | .failed => 5

/-- A PV that its claim has given up. -/
def PersistentVolume.Relinquished (pv : PersistentVolume) : Prop :=
  4 ≤ pv.phase.rank

instance (pv : PersistentVolume) : Decidable pv.Relinquished :=
  inferInstanceAs (Decidable (_ ≤ _))

/-- A relinquished PV is released or failed. -/
theorem PersistentVolume.relinquished_iff (pv : PersistentVolume) :
    pv.Relinquished ↔ pv.phase = .released ∨ pv.phase = .failed := by
  unfold Relinquished
  cases pv.phase <;> simp [VolumePhase.rank]

/-- The deleter only takes up relinquished PVs. -/
theorem Reclaimable.relinquished
    {pv : PersistentVolume}
    (reclaimable : Reclaimable pv) :
    pv.Relinquished :=
  pv.relinquished_iff.mpr (.inl reclaimable.1)

/-- The version of an object that a notice tells of. -/
def Notice.news {Object : Type} : Notice Object → Option Object
  | .updated object => some object
  | .deleted _ => none

/-- What the API server has under a name, and what the cache shows of it. -/
structure Standing where
  server : Option PersistentVolume
  view : View PersistentVolume

/-- What a list of notices tells of one PV. -/
def newsOf (pvName : String) (notices : List (Notice PersistentVolume)) :
    List (Option PersistentVolume) :=
  (notices.filter fun notice => notice.object.name = pvName).map Notice.news

/-- Where a PV stands. -/
def World.standing (world : World) (pvName : String) : Standing where
  server := world.pvs.get pvName
  view := {
    shown := VolumeCache.getPV world.cache pvName
    coming := newsOf pvName world.pvNotices
  }

namespace World

variable {world later : World}

/-- Storing a PV tells the cache. -/
theorem standing_putPV
    (world : World)
    (pv : PersistentVolume)
    (pvName : String) :
    (world.putPV pv).standing pvName =
      if pvName = pv.name then
        { server := some pv
          view := (world.standing pvName).view.tell (some pv) }
      else
        world.standing pvName := by
  unfold standing putPV newsOf View.tell
  rw [List.filter_append, ObjectStore.get_put]
  by_cases same : pvName = pv.name
  · subst pvName
    simp [Notice.object, Notice.news]
  · simp [Notice.object, same, Ne.symm same]

/-- Removing a PV tells the cache. -/
theorem standing_dropPV
    (world : World)
    (pv : PersistentVolume)
    (pvName : String) :
    (world.dropPV pv).standing pvName =
      if pvName = pv.name then
        { server := none
          view := (world.standing pvName).view.tell none }
      else
        world.standing pvName := by
  unfold standing dropPV newsOf View.tell
  rw [List.filter_append, ObjectStore.get_drop]
  by_cases same : pvName = pv.name
  · subst pvName
    simp [Notice.object, Notice.news]
  · simp [Notice.object, same, Ne.symm same]

/-- The cache of a new instance has yet to be told of every PV. -/
theorem standing_newInstance (world : World) (pvName : String) :
    world.newInstance.standing pvName =
      { server := world.pvs.get pvName
        view := .fresh (world.pvs.get pvName) } := by
  unfold standing newInstance newsOf View.fresh
  have told :
      ((world.pvs.list.map Notice.updated).filter
          fun notice => notice.object.name = pvName).map Notice.news =
        ((world.pvs.get pvName).map some).toList := by
    have selected := world.pvs.filter_list_name pvName
    rw [List.filter_map, List.map_map]
    have named :
        world.pvs.list.filter
            ((fun notice => decide (notice.object.name = pvName)) ∘
              Notice.updated) =
          (world.pvs.get pvName).toList := selected
    rw [named]
    cases world.pvs.get pvName <;> rfl
  simp only [told]
  rfl

/-- The populator shows what it is told, or goes on ignoring a PV. -/
theorem getPV_handlePVNotice
    (runtime : RuntimeConfig)
    (cache : VolumeCache)
    (notice : Notice PersistentVolume) :
    VolumeCache.getPV (handlePVNotice runtime cache notice)
          notice.object.name = notice.news ∨
      VolumeCache.getPV cache notice.object.name = none ∧
        VolumeCache.getPV (handlePVNotice runtime cache notice)
          notice.object.name = none := by
  cases notice with
  | updated pv =>
      simp only [handlePVNotice, Notice.object, Notice.news,
        getPV_handlePVUpdate, true_and]
      split
      · exact .inl rfl
      · rename_i ignored
        rw [not_or, Option.not_isSome_iff_eq_none] at ignored
        exact .inr ⟨ignored.1, ignored.1⟩
  | deleted pv =>
      simp [handlePVNotice, Notice.object, Notice.news, getPV_handlePVDelete]

/-- A notice is about one PV. -/
theorem getPV_handlePVNotice_of_ne
    {pvName : String}
    (runtime : RuntimeConfig)
    (cache : VolumeCache)
    {notice : Notice PersistentVolume}
    (other : pvName ≠ notice.object.name) :
    VolumeCache.getPV (handlePVNotice runtime cache notice) pvName =
      VolumeCache.getPV cache pvName := by
  cases notice with
  | updated pv =>
      exact (getPV_handlePVUpdate runtime cache pv pvName).trans
        (if_neg fun same => other same.1)
  | deleted pv =>
      exact (getPV_handlePVDelete cache pv pvName).trans (if_neg other)

/-- Two worlds with the same PVs, at the server, shown and on their way. -/
structure SamePVs (world later : World) : Prop where
  pvs : later.pvs = world.pvs
  cache : later.cache = world.cache
  pvNotices : later.pvNotices = world.pvNotices

theorem SamePVs.standing
    (same : SamePVs world later)
    (pvName : String) :
    later.standing pvName = world.standing pvName := by
  unfold World.standing
  rw [same.pvs, same.cache, same.pvNotices]

theorem SamePVs.execSpawnCleaner (answers : Answers) (work : CleanerWork) :
    SamePVs world (world.execSpawnCleaner answers work).2 := by
  unfold World.execSpawnCleaner
  split <;> exact ⟨rfl, rfl, rfl⟩

end World

/-- Does everything that the cache shows of a PV, now or later, have a mark? -/
def Standing.marked (standing : Standing) : Bool :=
  standing.view.stream.all fun version =>
    version.all fun pv => pv.deletionTimestamp.isSome

/--
The surroundings leave the cache to the populator, move PVs forward through
their phases, and remove an object only once its deletion mark is all that the
cache has yet to be told of.
-/
def Disturbance.orderly (world : World) : Disturbance → Bool
  | .overwriteCache _ => false
  | .updatePV pv =>
      (world.pvs.get pv.name).all fun current =>
        decide (current.phase.rank ≤ pv.phase.rank)
  | .removePV pvName => (world.standing pvName).marked
  | _ => true

/-- Orderly runs of instances that clean in-process. -/
def orderlyMode : Conditions where
  configuration := fun runtime => runtime.useJobForCleaning = false
  restarts := True
  disturbance := fun disturbance world => disturbance.orderly world = true
  call := fun _ _ _ => True

instance : orderlyMode.Executable where
  configuration := fun _ => inferInstanceAs (Decidable (_ = _))
  restarts := .isTrue trivial
  disturbance := fun _ _ => inferInstanceAs (Decidable (_ = _))
  call := fun _ _ _ => .isTrue trivial

namespace Standing

/-- How the surroundings of an orderly run change where a PV stands. -/
inductive Move : Standing → Standing → Prop where
  | same (standing : Standing) :
      Move standing standing
  | delivered
      {server : Option PersistentVolume}
      {view later : View PersistentVolume} :
      View.Delivered view later →
      Move ⟨server, view⟩ ⟨server, later⟩
  | updated
      {current pv : PersistentVolume}
      {view : View PersistentVolume} :
      current.phase.rank ≤ pv.phase.rank →
      Move ⟨some current, view⟩ ⟨some pv, view.tell (some pv)⟩
  | removed {standing : Standing} :
      standing.marked = true →
      Move standing ⟨none, standing.view.tell none⟩

/-- Nobody claims the volume of the PV. -/
def Vacated (standing : Standing) : Prop :=
  ∀ pv, standing.server = some pv → pv.Relinquished

/-- The cache shows the PV until it is told of its deletion. -/
structure Held (standing : Standing) : Prop where
  vacated : standing.Vacated
  shown :
    standing.server ≠ none →
    standing.view.shown ≠ none ∧ none ∉ standing.view.coming

/-- The name is taken, or the cache does not show a reclaimable PV of it. -/
def Clear (standing : Standing) : Prop :=
  standing.server = none → Quiet Reclaimable standing.view.stream

/-- The cache is in step with the API server. -/
def Current (standing : Standing) : Prop :=
  InStep Reclaimable PersistentVolume.Relinquished standing.server
    standing.view

variable {standing later : Standing}

/-- Marked PVs are not reclaimable. -/
theorem quiet_of_marked (marked : standing.marked = true) :
    Quiet Reclaimable standing.view.stream := by
  intro pv member reclaimable
  have isMarked := List.all_eq_true.mp marked _ member
  rw [Option.all_some, reclaimable.2.1] at isMarked
  cases isMarked

/-- Phases only move forward. -/
theorem relinquished_of_rank
    {current pv : PersistentVolume}
    (forward : current.phase.rank ≤ pv.phase.rank)
    (relinquished : current.Relinquished) :
    pv.Relinquished :=
  Nat.le_trans relinquished forward

namespace Move

theorem vacated (move : Move standing later) (vacated : standing.Vacated) :
    later.Vacated := by
  cases move with
  | same => exact vacated
  | delivered _ => exact vacated
  | updated forward =>
      rintro pv ⟨⟩
      exact relinquished_of_rank forward (vacated _ rfl)
  | removed _ =>
      rintro pv ⟨⟩

theorem held (move : Move standing later) (held : standing.Held) :
    later.Held := by
  refine ⟨move.vacated held.vacated, ?_⟩
  cases move with
  | same => exact held.shown
  | delivered delivered =>
      intro stored
      obtain ⟨shows, undeleted⟩ := held.shown stored
      obtain ⟨⟨news, shape, showsNews | ⟨unseen, _⟩⟩⟩ := delivered
      · simp only [shape, List.mem_cons, not_or] at undeleted
        refine ⟨?_, undeleted.2⟩
        rw [showsNews]
        exact Ne.symm undeleted.1
      · exact (shows unseen).elim
  | updated _ =>
      intro _
      obtain ⟨shows, undeleted⟩ := held.shown (by rintro ⟨⟩)
      refine ⟨shows, ?_⟩
      simpa [View.tell] using undeleted
  | removed _ =>
      intro stored
      exact (stored rfl).elim

theorem clear (move : Move standing later) (clear : standing.Clear) :
    later.Clear := by
  cases move with
  | same => exact clear
  | delivered delivered =>
      intro absent
      exact (clear absent).suffix delivered.stream_suffix
  | updated _ =>
      rintro ⟨⟩
  | removed marked =>
      intro _ pv member
      rw [View.stream_tell] at member
      exact quiet_of_marked marked pv (by simpa using member)

theorem current (move : Move standing later) (current : standing.Current) :
    later.Current := by
  cases move with
  | same => exact current
  | delivered delivered => exact InStep.delivered current delivered
  | updated forward =>
      exact InStep.updated current (relinquished_of_rank forward)
        Reclaimable.relinquished
  | removed marked =>
      exact InStep.removed_quiet (quiet_of_marked marked)

end Move

/-- A reclaimable PV that the cache shows is held. -/
theorem Current.held
    {pv : PersistentVolume}
    (current : standing.Current)
    (shown : standing.view.shown = some pv)
    (reclaimable : Reclaimable pv) :
    standing.Held := by
  constructor
  · intro stored isStored
    refine InStep.settled_of_stale current ?_ reclaimable isStored
    simp [View.stream, shown]
  · intro stored
    obtain ⟨server, isStored⟩ := Option.ne_none_iff_exists'.mp stored
    exact ⟨by simp [shown],
      InStep.undeleted_of_shown current shown reclaimable isStored⟩

/-- A name that the cache does not show is clear. -/
theorem Current.clear
    (current : standing.Current)
    (unseen : standing.view.shown = none) :
    standing.Clear :=
  fun absent => InStep.unseen current absent unseen

end Standing

/-- The surroundings of an orderly run change where PVs stand by such moves. -/
theorem standing_of_disturb
    {world later : World}
    {runtime : RuntimeConfig}
    {disturbance : Disturbance}
    (orderly : disturbance.orderly world = true)
    (moved : world.disturb runtime disturbance = some later)
    (pvName : String) :
    Standing.Move (world.standing pvName) (later.standing pvName) := by
  have unchanged :
      world.SamePVs later →
      Standing.Move (world.standing pvName) (later.standing pvName) := by
    intro same
    rw [same.standing pvName]
    exact .same _
  cases disturbance with
  | overwriteCache cache => cases orderly
  | updatePV pv =>
      simp only [World.disturb] at moved
      split at moved
      · cases moved
      · rename_i current stored
        split at moved
        · cases moved
          rw [World.standing_putPV]
          split
          · rename_i same
            subst same
            have forward : current.phase.rank ≤ pv.phase.rank := by
              simpa [Disturbance.orderly, stored] using orderly
            have shape :
                world.standing pv.name =
                  ⟨some current, (world.standing pv.name).view⟩ := by
              simp [World.standing, stored]
            rw [shape]
            exact .updated forward
          · exact .same _
        · cases moved
  | removePV removedName =>
      obtain ⟨pv, stored, rfl⟩ := Option.map_eq_some_iff.mp moved
      rw [World.standing_dropPV]
      split
      · rename_i same
        have sameName := ObjectStore.name_of_get stored
        subst same sameName
        exact .removed orderly
      · exact .same _
  | deliverPV =>
      simp only [World.disturb] at moved
      split at moved
      · cases moved
      · rename_i notice rest pending
        cases moved
        by_cases about : pvName = notice.object.name
        · subst about
          refine .delivered ⟨notice.news, ?_, ?_⟩
          · simp [newsOf, pending]
          · exact World.getPV_handlePVNotice runtime world.cache notice
        · have same :
              World.standing
                { world with
                  pvNotices := rest
                  cache :=
                    World.handlePVNotice runtime world.cache notice } pvName =
                world.standing pvName := by
            simp [World.standing, newsOf, pending, Ne.symm about,
              World.getPV_handlePVNotice_of_ne runtime world.cache about]
          rw [same]
          exact .same _
  | cleanerFinishes index performed =>
      obtain ⟨cleaner, _, rfl⟩ := Option.map_eq_some_iff.mp moved
      exact unchanged ⟨rfl, rfl, rfl⟩
  | jobSucceeds jobName =>
      simp only [World.disturb] at moved
      split at moved
      · cases moved
      · split at moved
        · cases moved
          exact unchanged ⟨rfl, rfl, rfl⟩
        · cases moved
  | markJobDeleted jobName now =>
      obtain ⟨job, _, rfl⟩ := Option.map_eq_some_iff.mp moved
      exact unchanged ⟨rfl, rfl, rfl⟩
  | removeJob jobName =>
      obtain ⟨job, _, rfl⟩ := Option.map_eq_some_iff.mp moved
      exact unchanged ⟨rfl, rfl, rfl⟩
  | deliverJob =>
      simp only [World.disturb] at moved
      split at moved
      · cases moved
      · cases moved
        exact unchanged ⟨rfl, rfl, rfl⟩

/-- The cache is in step, and no PV with an entry is claimed. -/
structure OrderlyInvariant (world : World) : Prop where
  current : ∀ pvName, (world.standing pvName).Current
  entries :
    ∀ pvName status,
      world.procTable.status? pvName = some status →
      (world.standing pvName).Vacated

/-- What a pass relies on about the PV that it deals with. -/
def PurposeHeld (world : World) : Purpose → Prop
  | .reclaim listed pv =>
      (∀ other ∈ listed,
        Reclaimable other → (world.standing other.name).Held) ∧
        (world.standing pv.name).Held
  | .create pvName _ => (world.standing pvName).Clear

/-- Only the table of in-process cleaners is consulted. -/
def Stage.inProcess : Stage → Prop
  | .considered => True
  | .checked isJob => isJob = false
  | .found _ => False
  | .cleared isJob _ => isJob = false

/-- What a pass relies on. -/
def OrderlyKnown (world : World) : Phase → Prop
  | .idle => True
  | .scanning listed =>
      ∀ pv ∈ listed, Reclaimable pv → (world.standing pv.name).Held
  | .missing pvName => (world.standing pvName).Clear
  | .tracking purpose stage => PurposeHeld world purpose ∧ stage.inProcess

/-- The assertions that orderly runs carry through their phases. -/
structure OrderlyAssertion (phase : Phase) (world : World) : Prop where
  table : TableAssertion phase world
  invariant : OrderlyInvariant world
  known : OrderlyKnown world phase

theorem PurposeHeld.home
    {world : World}
    {purpose : Purpose}
    (held : PurposeHeld world purpose) :
    OrderlyKnown world purpose.home := by
  cases purpose with
  | reclaim listed pv => exact held.1
  | create pvName path => trivial

/-- What a pass relies on survives if it does for each name. -/
theorem OrderlyKnown.mono
    {world later : World}
    {phase : Phase}
    (known : OrderlyKnown world phase)
    (held :
      ∀ pvName,
        (world.standing pvName).Held → (later.standing pvName).Held)
    (clear :
      ∀ pvName,
        (world.standing pvName).Clear → (later.standing pvName).Clear) :
    OrderlyKnown later phase := by
  rcases phase with _ | listed | pvName | ⟨_ | _, stage⟩
  · trivial
  · intro pv member reclaimable
    exact held _ (known pv member reclaimable)
  · exact clear _ known
  · exact ⟨⟨fun pv member reclaimable =>
      held _ (known.1.1 pv member reclaimable), held _ known.1.2⟩, known.2⟩
  · exact ⟨clear _ known.1, known.2⟩

namespace OrderlyInvariant

variable {world later : World}

/-- Worlds with the same PVs and fewer entries. -/
theorem congr
    (invariant : OrderlyInvariant world)
    (same : world.SamePVs later)
    (fewer :
      ∀ pvName status,
        later.procTable.status? pvName = some status →
        ∃ earlier, world.procTable.status? pvName = some earlier) :
    OrderlyInvariant later := by
  constructor
  · intro pvName
    rw [same.standing pvName]
    exact invariant.current pvName
  · intro pvName status present
    obtain ⟨earlier, wasPresent⟩ := fewer pvName status present
    rw [same.standing pvName]
    exact invariant.entries pvName earlier wasPresent

/-- A call that leaves the PVs and the entries alone. -/
theorem unchanged
    (invariant : OrderlyInvariant world)
    (same : world.SamePVs later)
    (sameTable : later.procTable = world.procTable) :
    OrderlyInvariant later := by
  refine invariant.congr same ?_
  intro pvName status present
  rw [sameTable] at present
  exact ⟨status, present⟩

/-- A cleaner is started for a PV that nobody claims. -/
theorem spawn
    {work : CleanerWork}
    (invariant : OrderlyInvariant world)
    (absent : world.procTable.status? work.pv.name = none)
    (vacated : (world.standing work.pv.name).Vacated)
    (answers : Answers) :
    OrderlyInvariant (world.execSpawnCleaner answers work).2 := by
  have same : world.SamePVs (world.execSpawnCleaner answers work).2 :=
    .execSpawnCleaner answers work
  constructor
  · intro pvName
    rw [same.standing pvName]
    exact invariant.current pvName
  · intro pvName status present
    rw [same.standing pvName]
    rw [World.execSpawnCleaner_of_none absent answers] at present
    rw [ProcTable.status?_markRunning absent answers.now] at present
    split at present
    · rename_i sameName
      rw [sameName]
      exact vacated
    · exact invariant.entries pvName status present

/-- A PV without an entry is created under a clear name. -/
theorem admitted
    {pv : PersistentVolume}
    {uid : Nat}
    (invariant : OrderlyInvariant world)
    (absent : world.procTable.status? pv.name = none)
    (clear : (world.standing pv.name).Clear)
    (free : world.pvs.get pv.name = none) :
    OrderlyInvariant
      ((world.record (.createPVIssued pv.name)).admitPV uid pv) := by
  have standing :
      ∀ pvName,
        World.standing
            ((world.record (.createPVIssued pv.name)).admitPV uid pv) pvName =
          if pvName = pv.name then
            { server := some { pv with uid }
              view := (world.standing pvName).view.tell
                (some { pv with uid }) }
          else
            world.standing pvName :=
    fun pvName => World.standing_putPV _ { pv with uid } pvName
  constructor
  · intro pvName
    rw [standing]
    split
    · rename_i same
      subst same
      exact InStep.created (clear free) Reclaimable.relinquished
    · exact invariant.current pvName
  · intro pvName status present
    have other : pvName ≠ pv.name := by
      rintro rfl
      rw [show ((world.record (.createPVIssued pv.name)).admitPV
        uid pv).procTable = world.procTable from rfl, absent] at present
      cases present
    rw [standing, if_neg other]
    exact invariant.entries pvName status present

end OrderlyInvariant

/-- A deletion by the pass marks the PV or removes it. -/
theorem standing_of_deletePV
    {pvName : String}
    {answers : Answers}
    {world later : World}
    {reply : Except ApiError Unit}
    (executed :
      exec (.deletePV pvName) answers world = some (reply, later))
    (other : String) :
    Standing.Move (world.standing other) (later.standing other) ∨
      other = pvName ∧
        (world.standing other).server ≠ none ∧
        later.standing other =
          { server := none
            view := (world.standing other).view.tell none } := by
  cases effect_of_exec executed with
  | recorded reports ready history => exact .inl (.same _)
  | markedPV _ pv stored =>
      refine .inl ?_
      rw [World.standing_putPV]
      split
      · rename_i same
        have shape :
            World.standing (world.record (.deletePVIssued pvName)) other =
              ⟨some pv, (world.standing other).view⟩ := by
          rw [same, show pv.name = pvName from ObjectStore.name_of_get stored]
          simp [World.standing, World.record, stored]
        exact shape ▸ .updated (Nat.le_refl _)
      · exact .same _
  | removedPV _ pv stored =>
      have sameName := ObjectStore.name_of_get stored
      rw [World.standing_dropPV]
      split
      · rename_i same
        refine .inr ⟨same.trans sameName, ?_, rfl⟩
        rw [same, sameName]
        simp [World.standing, stored]
      · exact .inl (.same _)

/-- A deletion by the pass of a PV that it holds. -/
theorem OrderlyInvariant.deletePV
    {pvName : String}
    {answers : Answers}
    {world later : World}
    {reply : Except ApiError Unit}
    (invariant : OrderlyInvariant world)
    (held : (world.standing pvName).Held)
    (executed :
      exec (.deletePV pvName) answers world = some (reply, later)) :
    OrderlyInvariant later := by
  have same : SameProcesses world later := .of_exec rfl executed
  constructor
  · intro other
    rcases standing_of_deletePV executed other with
      move | ⟨rfl, stored, shape⟩
    · exact move.current (invariant.current other)
    · rw [shape]
      obtain ⟨shows, undeleted⟩ := held.shown stored
      exact InStep.removed_shown shows undeleted
  · intro other status present
    rw [same.procTable] at present
    have vacated := invariant.entries other status present
    rcases standing_of_deletePV executed other with move | ⟨_, _, shape⟩
    · exact move.vacated vacated
    · rw [shape]
      rintro pv ⟨⟩

namespace OrderlyAssertion

variable {phase : Phase} {world later : World}

/-- Silent steps of a pass. -/
theorem silent
    {next : Phase}
    (holds : OrderlyAssertion phase world)
    (moved : Phase.Silent phase next) :
    OrderlyAssertion next world := by
  refine ⟨holds.table.silent moved, holds.invariant, ?_⟩
  cases moved with
  | pick member reclaimable =>
      exact ⟨⟨holds.known, holds.known _ member reclaimable⟩, trivial⟩
  | giveUp => exact holds.known.1.home
  | finishScan => trivial

/-- No orderly move of the surroundings invalidates an assertion. -/
theorem disturbed
    {runtime : RuntimeConfig}
    {disturbance : Disturbance}
    (holds : OrderlyAssertion phase world)
    (orderly : disturbance.orderly world = true)
    (moved : world.disturb runtime disturbance = some later) :
    OrderlyAssertion phase later := by
  have moves := standing_of_disturb orderly moved
  refine ⟨holds.table.disturbed moved, ⟨?_, ?_⟩, ?_⟩
  · intro pvName
    exact (moves pvName).current (holds.invariant.current pvName)
  · -- a cleaner that ends turns its running entry into another one
    intro pvName status present
    refine (moves pvName).vacated ?_
    rcases World.processes_of_disturb moved with
      ⟨index, cleaner, performed, found, rfl⟩ | ⟨sameTable, _, _⟩
    · have table := holds.table.invariant
      rw [table.status?_finishCleaner found performed] at present
      split at present
      · rename_i same
        rw [same]
        exact holds.invariant.entries _ _
          (table.running_of_mem (List.mem_of_getElem? found))
      · exact holds.invariant.entries pvName status present
    · rw [sameTable] at present
      exact holds.invariant.entries pvName status present
  · exact holds.known.mono (fun pvName => (moves pvName).held)
      (fun pvName => (moves pvName).clear)

/-- What is known about the standing of PVs after an allowed call. -/
theorem known_after
    {op : Op}
    {answers : Answers}
    {reply : op.Reply}
    (holds : OrderlyAssertion phase world)
    (allowed : Allowed processScope phase op)
    (executed : exec op answers world = some (reply, later)) :
    OrderlyInvariant later ∧ OrderlyKnown later (phase.after op reply) := by
  cases allowed with
  | probe probing =>
      obtain ⟨reports, ready, rfl⟩ := exec_of_probing probing executed
      rw [Phase.after_of_probing probing]
      exact ⟨holds.invariant.unchanged ⟨rfl, rfl, rfl⟩ rfl,
        holds.known.mono (fun _ held => held) (fun _ clear => clear)⟩
  | list =>
      obtain ⟨listed, inOrder, same⟩ := Option.map_eq_some_iff.mp executed
      cases same
      refine ⟨holds.invariant.unchanged ⟨rfl, rfl, rfl⟩ rfl, ?_⟩
      intro pv member reclaimable
      have cached : pv ∈ VolumeCache.listPVs world.cache :=
        (perm_of_permuted inOrder).mem_iff.mp member
      exact (holds.invariant.current pv.name).held
        (ObjectStore.mem_list.mp cached) reclaimable
  | @get pvName =>
      cases executed
      refine ⟨holds.invariant, ?_⟩
      simp only [Phase.after]
      split
      · rename_i unseen
        exact (holds.invariant.current pvName).clear unseen
      · trivial
  | lookup =>
      cases executed
      refine ⟨holds.invariant, ?_⟩
      simp only [Phase.after]
      split
      · exact ⟨holds.known, trivial⟩
      · trivial
  | @askProcess purpose _ =>
      cases executed
      refine ⟨holds.invariant, ?_⟩
      simp only [Phase.after]
      split
      · exact holds.known.1.home
      · exact ⟨holds.known.1, rfl⟩
  | askJob tracked => cases tracked
  | takeEntry =>
      obtain ⟨state, startTime, procTable, removed, cleared, _⟩ :=
        holds.table.invariant.takeEntry holds.table.known
      simp only [exec, removed] at executed
      cases executed
      refine ⟨holds.invariant.congr ⟨rfl, rfl, rfl⟩ ?_, holds.known.1, rfl⟩
      intro pvName status present
      rw [cleared] at present
      split at present
      · cases present
      · exact ⟨status, present⟩
  | findJob => cases holds.known.2
  | takeJob _ => exact holds.known.2.elim
  | @deletePV listed pv isJob =>
      refine ⟨holds.invariant.deletePV holds.known.1.2 executed, ?_⟩
      intro other member reclaimable
      have held := holds.known.1.1 other member reclaimable
      rcases standing_of_deletePV executed other.name with
        move | ⟨_, _, shape⟩
      · exact move.held held
      · rw [shape]
        exact ⟨by rintro pv ⟨⟩, fun stored => (stored rfl).elim⟩
  | @spawnCleaner listed work state =>
      obtain rfl : (world.execSpawnCleaner answers work).2 = later :=
        congrArg Prod.snd (Option.some.inj executed)
      have same : world.SamePVs (world.execSpawnCleaner answers work).2 :=
        .execSpawnCleaner answers work
      refine ⟨holds.invariant.spawn holds.table.known
        holds.known.1.2.vacated answers, ?_⟩
      intro other member reclaimable
      rw [same.standing]
      exact holds.known.1.1 other member reclaimable
  | createJob _ _ => cases holds.known.2
  | @createPV pv path isJob state _ =>
      obtain ⟨clear, inProcess⟩ := holds.known
      cases inProcess
      refine ⟨?_, trivial⟩
      cases effect_of_exec executed with
      | recorded reports ready history =>
          exact holds.invariant.unchanged ⟨rfl, rfl, rfl⟩ rfl
      | createdPV _ free =>
          exact holds.invariant.admitted holds.table.known clear free

/-- A new instance starts with a cache that is in step. -/
theorem newInstance (holds : OrderlyAssertion .idle world) :
    OrderlyAssertion .idle world.newInstance := by
  refine ⟨holds.table.newInstance, ⟨?_, ?_⟩, trivial⟩
  · intro pvName
    rw [World.standing_newInstance]
    exact InStep.fresh _ fun _ => Reclaimable.relinquished
  · intro pvName status present pv stored
    rw [World.standing_newInstance] at stored
    exact holds.invariant.entries pvName status present pv stored

/-- So does a new process, which has no entries. -/
theorem newProcess : OrderlyAssertion .idle world.newProcess := by
  refine ⟨.newProcess, ⟨?_, ?_⟩, trivial⟩
  · intro pvName
    rw [show world.newProcess.standing pvName =
      world.newInstance.standing pvName from rfl,
      World.standing_newInstance]
    exact InStep.fresh _ fun _ => Reclaimable.relinquished
  · intro pvName status present
    simp [World.newProcess] at present

end OrderlyAssertion

/-- Orderly runs carry their assertions. -/
theorem orderlyMode_carried :
    Carried orderlyMode processScope OrderlyAssertion where
  flags := fun _ admitted => admitted
  outline := {
    silent := fun moved holds => holds.silent moved
    call := fun allowed holds _ executed => by
      obtain ⟨invariant, known⟩ := holds.known_after allowed executed
      exact ⟨syncProtocol_admits trivial _ _,
        holds.table.call allowed executed, invariant, known⟩
  }
  initially := {
    table := ⟨.empty, trivial⟩
    invariant := {
      current := fun _ => InStep.fresh none fun _ => Reclaimable.relinquished
      entries := by
        intro pvName status present
        simp [World.empty] at present
    }
    known := trivial
  }
  disturbed := fun holds orderly moved => holds.disturbed orderly moved
  reloaded := fun holds => holds.newInstance
  restarted := fun _ _ => .newProcess

/--
As long as a cleaner is at work on a PV, the API server has no PV of that
name, or one that its claim has given up.
-/
theorem cleaners_spare_claimed
    {state : SyncState}
    (reaches : orderlyMode.Reaches state) :
    ∀ cleaner ∈ state.world.cleaners,
      ∀ pv,
        state.world.pvs.get cleaner.pvName = some pv →
        pv.phase = .released ∨ pv.phase = .failed := by
  intro cleaner member pv stored
  obtain ⟨phase, holds⟩ := orderlyMode_carried.assertion_of_reaches reaches
  have running := holds.table.invariant.running_of_mem member
  exact pv.relinquished_iff.mp
    (holds.invariant.entries _ _ running pv stored)

/-- A PV is created, released, and taken up by the deleter. -/
def sampleReclamation : List Action :=
  sampleProvisioning 2 ++ sampleCalls 5 ++ sampleRelease 1 ++
    sampleReclaiming 3

/-- An orderly run with a cleaner at work on a released PV. -/
theorem cleaners_spare_claimed_of_sampleReclamation :
    ∃ state cleaner,
      orderlyMode.Reaches state ∧
        cleaner ∈ state.world.cleaners ∧
        ∀ pv,
          state.world.pvs.get cleaner.pvName = some pv →
          pv.phase = .released ∨ pv.phase = .failed := by
  obtain ⟨state, reaches, live⟩ :=
    orderlyMode.reaches_of_sampleRun false sampleClasses sampleReclamation
      (fun state => !state.world.cleaners.isEmpty) rfl (by decide +kernel)
  cases cleaners : state.world.cleaners with
  | nil => simp [cleaners] at live
  | cons cleaner rest =>
      have member : cleaner ∈ state.world.cleaners := by simp [cleaners]
      exact ⟨state, cleaner, reaches, member,
        cleaners_spare_claimed reaches cleaner member⟩

/--
A PV is created, released and removed before the cache is told of it, so that
the discoverer creates it again; then the cache is told of the release.
-/
def sampleUnseenRemoval : List Action :=
  sampleProvisioning 2 ++ sampleCalls 5 ++
    [.disturb (.updatePV (sampleReleasedPV 1)),
      .disturb (.removePV sampleName)] ++
    sampleProvisioning 2 ++ sampleCalls 5 ++
    [.disturb .deliverPV, .disturb .deliverPV] ++
    sampleReclaiming 3

/-- Is some live cleaner at work on a PV that is not relinquished? -/
def cleansClaimed (world : World) : Bool :=
  world.cleaners.any fun cleaner =>
    (world.pvs.get cleaner.pvName).any fun pv => decide (¬ pv.Relinquished)

/-- A removal that the cache has not been told of exposes the new PV. -/
theorem claimed_cleaned_after_unseenRemoval :
    ∃ state,
      processMode.Reaches state ∧ cleansClaimed state.world = true :=
  processMode.reaches_of_sampleRun false sampleClasses sampleUnseenRemoval
    (fun state => cleansClaimed state.world) rfl (by decide +kernel)

end LocalProvisioner
