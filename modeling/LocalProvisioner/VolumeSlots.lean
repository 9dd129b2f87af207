import LocalProvisioner.CleanerSafety
import LocalProvisioner.DeletionTurns
import LocalProvisioner.DiscoveryConvergence

namespace LocalProvisioner

open Interleaving

/-!
# What a pass does under one name

`Slot` is the part of the world that is about one PV name: what the API server
has under it, what the cache has yet to be told, and how far the cleaning of
the volume is.  A pass treats the slots of different names independently.  The
deletion half of a pass takes the turn of a cached PV in its slot, and the
discovery half creates PVs in the free slots of files.
-/

/-- What the world has about a PV name, apart from the cache. -/
structure Slot where
  server : Option PersistentVolume
  news : List (Option PersistentVolume)
  status : Option CleanupState
  works : List CleanerWork

/-- The slot of a name. -/
def World.slot (world : World) (pvName : String) : Slot where
  server := world.pvs.get pvName
  news := newsOf pvName world.pvNotices
  status := world.procTable.status? pvName
  works :=
    (world.cleaners.filter fun cleaner => cleaner.pvName = pvName).map
      Cleaner.work

/-- The API server has a new version under the name, or none any more. -/
def Slot.tell (slot : Slot) (version : Option PersistentVolume) : Slot :=
  { slot with server := version, news := slot.news ++ [version] }

/-- The slot after a request to delete the PV. -/
def Slot.deleted (slot : Slot) (answers : Answers) : Slot :=
  match answers.outcome with
  | .rejected _ => slot
  | _ =>
      match slot.server with
      | none => slot
      | some pv =>
          if answers.lingers then
            slot.tell (some { pv with deletionTimestamp := some answers.now })
          else
            slot.tell none

namespace World

variable {world : World}

@[simp] theorem slot_reporting
    (world : World)
    (reports : List Report)
    (pvName : String) :
    (world.reporting reports).slot pvName = world.slot pvName :=
  rfl

@[simp] theorem slot_record
    (world : World)
    (event : Event)
    (pvName : String) :
    (world.record event).slot pvName = world.slot pvName :=
  rfl

theorem slot_putPV (world : World) (pv : PersistentVolume) (pvName : String) :
    (world.putPV pv).slot pvName =
      if pvName = pv.name then
        (world.slot pvName).tell (some pv)
      else
        world.slot pvName := by
  have moved := world.standing_putPV pv pvName
  by_cases same : pvName = pv.name
  · rw [if_pos same] at moved ⊢
    injection moved with server view
    injection view with _ news
    simp only [slot, Slot.tell, Slot.mk.injEq]
    exact ⟨server, news, rfl, rfl⟩
  · rw [if_neg same] at moved ⊢
    injection moved with server view
    injection view with _ news
    simp only [slot, Slot.mk.injEq]
    exact ⟨server, news, rfl, rfl⟩

theorem slot_dropPV (world : World) (pv : PersistentVolume) (pvName : String) :
    (world.dropPV pv).slot pvName =
      if pvName = pv.name then
        (world.slot pvName).tell none
      else
        world.slot pvName := by
  have moved := world.standing_dropPV pv pvName
  by_cases same : pvName = pv.name
  · rw [if_pos same] at moved ⊢
    injection moved with server view
    injection view with _ news
    simp only [slot, Slot.tell, Slot.mk.injEq]
    exact ⟨server, news, rfl, rfl⟩
  · rw [if_neg same] at moved ⊢
    injection moved with server view
    injection view with _ news
    simp only [slot, Slot.mk.injEq]
    exact ⟨server, news, rfl, rfl⟩

/-- A request to delete a PV is about its slot. -/
theorem slot_execDeletePV
    (world : World)
    (answers : Answers)
    (pvName other : String) :
    (world.execDeletePV answers pvName).2.slot other =
      if other = pvName then
        (world.slot other).deleted answers
      else
        world.slot other := by
  have issued :
      ∀ name,
        (world.record (.deletePVIssued pvName)).slot name = world.slot name :=
    fun _ => rfl
  unfold execDeletePV Slot.deleted
  cases answers.outcome with
  | rejected err => exact (ite_self _).symm
  | processed | lost =>
      cases stored : world.pvs.get pvName with
      | none =>
          have server : (world.slot pvName).server = none := stored
          by_cases same : other = pvName
          · subst other
            rw [if_pos rfl, server]
            rfl
          · rw [if_neg same]
            rfl
      | some pv =>
          have server : (world.slot pvName).server = some pv := stored
          obtain rfl : pv.name = pvName := ObjectStore.name_of_get stored
          by_cases same : other = pv.name
          · subst other
            cases answers.lingers with
            | true => simp [slot_putPV, issued, server]
            | false => simp [slot_dropPV, issued, server]
          · cases answers.lingers with
            | true => simp [slot_putPV, issued, same]
            | false => simp [slot_dropPV, issued, same]

/-- Taking the outcome of a cleaner is about its slot. -/
theorem slot_removeEntry (world : World) (pvName other : String) :
    ({ world with
        procTable := (world.procTable.removeEntry pvName).2 } : World).slot
        other =
      if other = pvName ∧
          (world.procTable.status? pvName).all CleanupState.hasEnded then
        { world.slot other with status := none }
      else
        world.slot other := by
  have status := world.procTable.status?_removeEntry_eq pvName other
  by_cases taken :
      other = pvName ∧
        (world.procTable.status? pvName).all CleanupState.hasEnded
  · rw [if_pos taken] at status ⊢
    simp only [slot, status]
  · rw [if_neg taken] at status ⊢
    simp only [slot, status]

/-- Starting a cleaner is about its slot. -/
theorem slot_execSpawnCleaner
    (world : World)
    (answers : Answers)
    (work : CleanerWork)
    (other : String) :
    (world.execSpawnCleaner answers work).2.slot other =
      if other = work.pv.name ∧
          world.procTable.status? work.pv.name = none then
        { world.slot other with
          status := some .running
          works := work :: (world.slot other).works }
      else
        world.slot other := by
  cases present : world.procTable.status? work.pv.name with
  | none =>
      rw [execSpawnCleaner_of_none present]
      have status := ProcTable.status?_markRunning present answers.now other
      by_cases same : other = work.pv.name
      · subst other
        rw [if_pos rfl] at status
        simp [slot, status, Cleaner.pvName]
      · rw [if_neg same] at status
        simp [slot, status, same, Cleaner.pvName, Ne.symm same]
  | some status =>
      obtain ⟨entry, found, -⟩ := Option.map_eq_some_iff.mp present
      have kept : (world.execSpawnCleaner answers work).2 = world := by
        unfold execSpawnCleaner ProcTable.markRunning
        rw [found]
      simp [kept]

/-- Jobs are no part of a slot. -/
theorem slot_execDeleteJob
    (world : World)
    (answers : Answers)
    (jobName pvName : String) :
    (world.execDeleteJob answers jobName).2.slot pvName =
      world.slot pvName := by
  unfold execDeleteJob
  split
  · rfl
  · split <;> rfl

theorem slot_execCreateJob
    (world : World)
    (answers : Answers)
    (job : Job)
    (pvName : String) :
    (world.execCreateJob answers job).2.slot pvName = world.slot pvName := by
  unfold execCreateJob
  split
  · rfl
  · split <;> rfl

end World

/-- The slot of a PV that is cleaned in-process, after its turn. -/
def Slot.turned (slot : Slot) (deletion : Answers) (work : CleanerWork) :
    Slot :=
  match slot.status with
  | some .running => slot
  | some .succeeded => { slot with status := none }.deleted deletion
  | _ =>
      if work.volMode = .block ∧ work.config.blockCleanerCommand = [] then
        { slot with status := none }
      else
        { slot with
          status := some .running
          works := work :: slot.works }

namespace DeletionPass

section Slots

variable {pass : DeletionPass}
variable {pv : PersistentVolume}

/-- Removing the status of a PV leaves the slots of the others alone. -/
theorem slot_removed_of_ne
    {other : String}
    (apart : other ≠ pv.name)
    (runjob : Bool) :
    (pass.removed pv.name runjob).2.slot other = pass.world.slot other := by
  cases runjob with
  | false =>
      exact (pass.world.slot_removeEntry pv.name other).trans
        (if_neg fun both => apart both.1)
  | true =>
      change (pass.removedJob pv.name).2.slot other = _
      unfold removedJob
      split
      · rfl
      · rfl
      · rename_i job _
        split
        · rfl
        · have kept :
              (pass.jobDeletion job).2.slot other = pass.world.slot other :=
            pass.world.slot_execDeleteJob _ _ other
          generalize pass.jobDeletion job = made at kept
          obtain ⟨reply, later⟩ := made
          cases reply <;> exact kept

/-- The world after a request to delete a PV. -/
theorem ordered_deletes (world : World) (pvName : String) :
    (pass.ordered world (.deletes pvName)).2 =
      (world.execDeletePV (pass.oracle (.deletePV pvName)) pvName).2 := by
  simp only [DeletionPass.ordered]
  generalize world.execDeletePV (pass.oracle (.deletePV pvName)) pvName = made
  obtain ⟨reply, later⟩ := made
  rcases reply with (_ | _ | _) | _ <;> rfl

/-- The world after a request to create a job. -/
theorem ordered_submits (world : World) (job : Job) :
    (pass.ordered world (.submits job)).2 =
      (world.execCreateJob (pass.oracle (.createJob job)) job).2 := by
  simp only [DeletionPass.ordered]
  generalize world.execCreateJob (pass.oracle (.createJob job)) job = made
  obtain ⟨reply, later⟩ := made
  cases reply <;> rfl

/-- So does what a turn orders. -/
theorem slot_ordered_of_ne
    {other : String}
    {turn : Turn}
    (apart : ∀ op, turn.order? = some op → ¬ op.About other)
    (world : World) :
    (pass.ordered world turn).2.slot other = world.slot other := by
  cases turn with
  | waits => rfl
  | refuses err => rfl
  | deletes pvName =>
      have elsewhere : ¬ other = pvName := fun same =>
        apart _ rfl same.symm
      rw [ordered_deletes, world.slot_execDeletePV, if_neg elsewhere]
  | spawns work =>
      have elsewhere : ¬ other = work.pv.name := fun same =>
        apart _ rfl same.symm
      exact (world.slot_execSpawnCleaner _ work other).trans
        (if_neg fun both => elsewhere both.1)
  | submits job =>
      rw [ordered_submits]
      exact world.slot_execCreateJob _ job other

/-- A turn leaves the slots of the other PVs alone. -/
theorem slot_after_of_ne
    {other : String}
    (apart : other ≠ pv.name) :
    (pass.after pv).slot other = pass.world.slot other := by
  unfold after
  split
  · have cleared : (pass.cleared pv).slot other = pass.world.slot other := by
      unfold cleared
      split
      · rfl
      · split
        · rfl
        · exact slot_removed_of_ne apart _
    unfold deleted
    rw [slot_ordered_of_ne ?_ (pass.cleared pv), cleared]
    intro op ordered about
    exact apart (((order?_turn_eq_some_iff.mp ordered).about_iff other).mp
      about)
  · rfl

/-- A turn with an idle tracker orders something in the cleared world. -/
theorem after_of_finds
    {work : CleanerWork}
    {state : CleanupState}
    (reclaimable : Reclaimable work.pv)
    (targeted : pass.target work.pv = .ok work)
    (finds : pass.Finds work state) :
    pass.after work.pv =
      (pass.ordered (pass.removed work.pv.name (pass.runjob work)).2
        (pass.statusTurn work state)).2 := by
  rw [after, if_pos reclaimable, deleted, turn_of_finds targeted finds, cleared,
    targeted]
  simp only [finds.1, Bool.false_eq_true, if_false]

/-- The slot of a PV whose status has been removed from the table. -/
theorem slot_removed_self
    {pvName : String}
    (ended :
      (pass.world.procTable.status? pvName).all CleanupState.hasEnded = true) :
    (pass.removed pvName false).2.slot pvName =
      { pass.world.slot pvName with status := none } := by
  exact (pass.world.slot_removeEntry pvName pvName).trans (if_pos ⟨rfl, ended⟩)

/-- The slot of a PV that is cleaned in-process, after its turn. -/
theorem slot_after_self
    {work : CleanerWork}
    (reclaimable : Reclaimable work.pv)
    (targeted : pass.target work.pv = .ok work)
    (inProcess : pass.runjob work = false)
    (known : pass.world.procTable.status? work.pv.name ≠ some .unknown) :
    (pass.after work.pv).slot work.pv.name =
      (pass.world.slot work.pv.name).turned
        (pass.oracle (.deletePV work.pv.name)) work := by
  have status :
      (pass.world.slot work.pv.name).status =
        pass.world.procTable.status? work.pv.name := rfl
  have finds :
      ∀ state,
        (state = .notFound ∧
            pass.world.procTable.status? work.pv.name = none ∨
          pass.world.procTable.status? work.pv.name = some state ∧
            state ≠ .running ∧ state ≠ .unknown) →
        pass.Finds work state := by
    intro state found
    unfold Finds
    rw [inProcess]
    exact removedEntry_ok_iff.mpr found
  have starts :
      ∀ state,
        pass.statusTurn work state = pass.startTurn work →
        pass.Finds work state →
        (pass.world.procTable.status? work.pv.name).all
            CleanupState.hasEnded = true →
        (pass.after work.pv).slot work.pv.name =
          if work.volMode = .block ∧ work.config.blockCleanerCommand = [] then
            { pass.world.slot work.pv.name with status := none }
          else
            { pass.world.slot work.pv.name with
              status := some .running
              works := work :: (pass.world.slot work.pv.name).works } := by
    intro state isStart found ended
    have taken := slot_removed_self ended
    rw [after_of_finds reclaimable targeted found, isStart, startTurn, inProcess]
    split
    · exact taken
    · refine (World.slot_execSpawnCleaner _ _ work work.pv.name).trans ?_
      rw [if_pos ⟨rfl, congrArg Slot.status taken⟩, taken]
  unfold Slot.turned
  rw [status]
  cases found : pass.world.procTable.status? work.pv.name with
  | none =>
      exact starts .notFound rfl (finds _ (.inl ⟨rfl, found⟩))
        (by rw [found]; rfl)
  | some state =>
      cases state with
      | running =>
          have busy : pass.busy work.pv.name false = true :=
            ProcTable.isRunning_iff.mpr found
          rw [after, if_pos reclaimable, deleted, turn, cleared, targeted]
          simp only [inProcess, busy, if_true]
          rfl
      | unknown => exact (known found).elim
      | succeeded =>
          rw [after_of_finds reclaimable targeted
            (finds .succeeded (.inr ⟨found, by decide, by decide⟩))]
          change (pass.ordered _ (.deletes work.pv.name)).2.slot _ = _
          rw [ordered_deletes, World.slot_execDeletePV, if_pos rfl, inProcess,
            slot_removed_self (by rw [found]; rfl)]
      | failed =>
          exact starts .failed rfl (finds _ (.inr ⟨found, by decide, by decide⟩))
            (by rw [found]; rfl)
      | notFound =>
          exact starts .notFound rfl
            (finds _ (.inr ⟨found, by decide, by decide⟩)) (by rw [found]; rfl)

/-- The slot of a PV that no turn is about. -/
theorem Turned.slot_of_notMem
    {listed : List PersistentVolume}
    {before later : World}
    {pvName : String}
    (turned : pass.Turned listed before later)
    (elsewhere : ∀ pv ∈ listed, pvName ≠ pv.name) :
    later.slot pvName = before.slot pvName := by
  induction turned with
  | done world => rfl
  | @turn pv rest world _ reports _ inductionHypothesis =>
      rw [inductionHypothesis fun other member =>
        elsewhere other (List.mem_cons_of_mem _ member)]
      exact @slot_after_of_ne (pass.inWorld world) pv pvName
        (elsewhere pv List.mem_cons_self)

/-- The slot of a PV after the turns of a pass. -/
theorem Turned.exists_slot
    {listed : List PersistentVolume}
    {before later : World}
    (turned : pass.Turned listed before later)
    (different : (listed.map PersistentVolume.name).Nodup)
    (member : pv ∈ listed) :
    ∃ world,
      world.slot pv.name = before.slot pv.name ∧
        later.slot pv.name = ((pass.inWorld world).after pv).slot pv.name := by
  induction turned with
  | done world => cases member
  | @turn first rest world later reports turned inductionHypothesis =>
      rw [List.map_cons, List.nodup_cons] at different
      by_cases same : pv.name = first.name
      · have elsewhere : ∀ other ∈ rest, pv.name ≠ other.name := by
          intro other inRest sameName
          apply different.1
          rw [← same, sameName]
          exact List.mem_map_of_mem inRest
        have isFirst : pv = first := by
          rcases List.mem_cons.mp member with isFirst | inRest
          · exact isFirst
          · exact (elsewhere pv inRest rfl).elim
        subst isFirst
        exact ⟨world, rfl, turned.slot_of_notMem elsewhere⟩
      · have inRest : pv ∈ rest := by
          rcases List.mem_cons.mp member with isFirst | inRest
          · exact (same (by rw [isFirst])).elim
          · exact inRest
        obtain ⟨current, unchanged, after⟩ :=
          inductionHypothesis different.2 inRest
        refine ⟨current, unchanged.trans ?_, after⟩
        exact @slot_after_of_ne (pass.inWorld world) first pv.name same

end Slots

end DeletionPass

/-!
## Slots and the discovery of volumes
-/

/-- Does the API server carry out a request? -/
def ApiOutcome.accepts : ApiOutcome → Bool
  | .rejected _ => false
  | _ => true

/-- A request to create a PV is about its slot. -/
theorem World.slot_execCreatePV
    (world : World)
    (answers : Answers)
    (pv : PersistentVolume)
    (other : String) :
    (world.execCreatePV answers pv).2.slot other =
      if other = pv.name ∧
          answers.outcome.accepts = true ∧
          (world.slot pv.name).server = none then
        (world.slot other).tell (some { pv with uid := world.freshUID answers })
      else
        world.slot other := by
  have server : (world.slot pv.name).server = world.pvs.get pv.name := rfl
  unfold execCreatePV
  cases answers.outcome with
  | rejected err => simp [ApiOutcome.accepts]
  | processed | lost =>
      cases stored : world.pvs.get pv.name with
      | some current => simp [server, stored]
      | none =>
          refine (slot_putPV _ _ other).trans ?_
          simp only [server, stored, ApiOutcome.accepts, and_true]
          rfl

/-- Two slots with the same versions of the PV and the same cleaners. -/
structure Slot.SameVersions (before after : Slot) : Prop where
  server : after.server = before.server
  news : after.news = before.news
  works : after.works = before.works

/--
A PV is created in a free slot if there is one of those that are wanted, and
otherwise nothing is changed but the status.
-/
def Slot.Offering
    (wanted : PersistentVolume → Prop)
    (before after : Slot) : Prop :=
  before.SameVersions after ∧
      (before.server = none → ∀ pv, ¬ wanted pv) ∨
    before.server = none ∧
      ∃ pv uid,
        wanted pv ∧ (before.tell (some { pv with uid })).SameVersions after

namespace Slot

variable {before middle after : Slot}

theorem SameVersions.refl (slot : Slot) : slot.SameVersions slot :=
  ⟨rfl, rfl, rfl⟩

theorem SameVersions.trans
    (first : before.SameVersions middle)
    (second : middle.SameVersions after) :
    before.SameVersions after :=
  ⟨second.server.trans first.server, second.news.trans first.news,
    second.works.trans first.works⟩

/-- What is told on top of the same versions. -/
theorem SameVersions.tell
    (same : before.SameVersions middle)
    (version : Option PersistentVolume) :
    (before.tell version).SameVersions (middle.tell version) :=
  ⟨rfl, congrArg (· ++ [version]) same.news, same.works⟩

variable {wanted more : PersistentVolume → Prop}

/-- Nothing is wanted. -/
theorem Offering.of_unwanted
    (same : before.SameVersions after)
    (unwanted : ∀ pv, ¬ wanted pv) :
    Offering wanted before after :=
  .inl ⟨same, fun _ => unwanted⟩

/-- Two offerings in a row. -/
theorem Offering.trans
    (first : Offering wanted before middle)
    (second : Offering more middle after) :
    Offering (fun pv => wanted pv ∨ more pv) before after := by
  rcases first with ⟨same, unwanted⟩ | ⟨free, pv, uid, isWanted, told⟩
  · rcases second with ⟨still, notMore⟩ | ⟨free, pv, uid, isWanted, told⟩
    · refine .inl ⟨same.trans still, ?_⟩
      rintro free pv (isWanted | isMore)
      · exact unwanted free pv isWanted
      · exact notMore (same.server.trans free) pv isMore
    · exact .inr ⟨same.server.symm.trans free, pv, uid, .inr isWanted,
        (same.tell _).trans told⟩
  · rcases second with ⟨still, -⟩ | ⟨taken, -⟩
    · exact .inr ⟨free, pv, uid, .inl isWanted, told.trans still⟩
    · cases told.server.symm.trans taken

/-- What is wanted can be said in other words. -/
theorem Offering.congr
    (offering : Offering wanted before after)
    (same : ∀ pv, wanted pv ↔ more pv) :
    Offering more before after := by
  have equal : wanted = more := funext fun pv => propext (same pv)
  rwa [← equal]

end Slot

namespace ClassPass

variable {pass : ClassPass}
variable {file pvName : String}

/-- Removing the status of a file's name changes no version of a PV. -/
theorem slot_cleared (pass : ClassPass) (file : String) (mode : VolumeMode)
    (pvName : String) :
    (pass.world.slot pvName).SameVersions
        ((pass.cleared file mode).slot pvName) ∧
      (pvName ≠ pass.pvName file →
        (pass.cleared file mode).slot pvName = pass.world.slot pvName) := by
  unfold cleared
  split
  · split
    · exact ⟨.refl _, fun _ => rfl⟩
    · split
      · exact ⟨.refl _, fun _ => rfl⟩
      · rw [World.slot_execDeleteJob]
        exact ⟨.refl _, fun _ => rfl⟩
  · refine ⟨⟨rfl, rfl, rfl⟩, fun apart => ?_⟩
    exact (pass.world.slot_removeEntry _ pvName).trans
      (if_neg fun both => apart both.1)

/-- The loop body leaves the slots of the other names alone. -/
theorem slot_visited_of_ne (apart : pvName ≠ pass.pvName file) :
    (pass.visited file).slot pvName = pass.world.slot pvName := by
  unfold visited
  split
  · rfl
  · rfl
  · exact (pass.slot_cleared file _ pvName).2 apart
  · exact (pass.slot_cleared file _ pvName).2 apart
  · rename_i mode bytes _
    refine Eq.trans ?_ ((pass.slot_cleared file mode pvName).2 apart)
    cases requested : pass.request? file with
    | none => rfl
    | some pv =>
        have named := (identity_of_request? requested).1
        refine (World.slot_execCreatePV _ _ pv pvName).trans (if_neg ?_)
        rintro ⟨same, -⟩
        exact apart (same.trans named)

/-- The loop body does nothing about a file with a cached PV. -/
theorem visited_of_cached (cached : pass.cachedPV file ≠ none) :
    pass.visited file = pass.world := by
  obtain ⟨pv, found⟩ := Option.ne_none_iff_exists'.mp cached
  have decided :
      pass.verdict file = .reported ∨ pass.verdict file = .skipped := by
    unfold verdict
    rw [found]
    cases pass.mode? file with
    | none => exact .inl rfl
    | some mode =>
        dsimp only
        split
        · exact .inl rfl
        · exact .inr rfl
  rcases decided with reported | skipped
  · simp only [visited, reported]
  · simp only [visited, skipped]

/-- The PVs of a name that the API server creates for a file. -/
def Wanted (pass : ClassPass) (pvName file : String) (pv : PersistentVolume) :
    Prop :=
  pass.request? file = some pv ∧
    pv.name = pvName ∧
    (pass.oracle (.createPV pv)).outcome.accepts = true

/-- What the loop body does in a slot. -/
theorem offering_visited (pass : ClassPass) (file pvName : String) :
    Slot.Offering (pass.Wanted pvName file) (pass.world.slot pvName)
      ((pass.visited file).slot pvName) := by
  have unwanted :
      pass.request? file = none →
      ∀ pv, ¬ pass.Wanted pvName file pv := by
    rintro none pv ⟨requested, -⟩
    rw [none] at requested
    cases requested
  unfold visited
  cases decided : pass.verdict file with
  | skipped => exact .of_unwanted (.refl _) (unwanted (by simp [request?, decided]))
  | reported => exact .of_unwanted (.refl _) (unwanted (by simp [request?, decided]))
  | held mode =>
      exact .of_unwanted (pass.slot_cleared file mode pvName).1
        (unwanted (by simp [request?, decided]))
  | unusable mode =>
      exact .of_unwanted (pass.slot_cleared file mode pvName).1
        (unwanted (by simp [request?, decided]))
  | volume mode bytes =>
      have cleared := (pass.slot_cleared file mode pvName).1
      cases requested : pass.request? file with
      | none => exact .of_unwanted cleared (unwanted requested)
      | some pv =>
          have created :=
            (pass.cleared file mode).slot_execCreatePV
              (pass.oracle (.createPV pv)) pv pvName
          by_cases made :
              pvName = pv.name ∧
                (pass.oracle (.createPV pv)).outcome.accepts = true ∧
                ((pass.cleared file mode).slot pv.name).server = none
          · rw [if_pos made] at created
            obtain ⟨rfl, accepted, free⟩ := made
            refine .inr ⟨cleared.server.symm.trans free, pv,
              (pass.cleared file mode).freshUID (pass.oracle (.createPV pv)),
              ⟨requested, rfl, accepted⟩, ?_⟩
            change Slot.SameVersions _ (World.slot (World.execCreatePV _ _ _).2 _)
            rw [created]
            exact cleared.tell _
          · rw [if_neg made] at created
            refine .inl ⟨?_, ?_⟩
            · change Slot.SameVersions _
                (World.slot (World.execCreatePV _ _ _).2 _)
              rw [created]
              exact cleared
            · rintro free other ⟨isRequested, rfl, accepted⟩
              rw [requested] at isRequested
              cases isRequested
              exact made ⟨rfl, accepted, cleared.server.trans free⟩

/-- What is wanted is decided where the pass starts. -/
theorem wanted_inWorld
    {later : World}
    (advances : Advances pass.world later)
    (pv : PersistentVolume) :
    (pass.inWorld later).Wanted pvName file pv ↔
      pass.Wanted pvName file pv := by
  unfold Wanted
  rw [request?_inWorld advances]
  rfl

/-- What a walk does in a slot. -/
theorem Walk.offering
    {files : List String}
    {before after : World}
    {requests : Requests}
    (walk : pass.Walk files before requests after)
    (advances : Advances pass.world before)
    (pvName : String) :
    Slot.Offering
      (fun pv => ∃ file ∈ files, pass.Wanted pvName file pv)
      (before.slot pvName) (after.slot pvName) := by
  induction walk with
  | done reports => exact .of_unwanted (.refl _) (by simp)
  | @visit file rest world _ _ reports _ inductionHypothesis =>
      have visited := (pass.inWorld world).advances_visited file
      have first := (pass.inWorld world).offering_visited file pvName
      have others :=
        inductionHypothesis (advances.trans (visited.reported reports))
      refine (first.trans others).congr ?_
      intro pv
      rw [wanted_inWorld advances]
      simp

/-- A walk leaves a slot alone whose PV is cached. -/
theorem Walk.slot_of_cached
    {files : List String}
    {before after : World}
    {requests : Requests}
    (walk : pass.Walk files before requests after)
    (cached : VolumeCache.getPV before.cache pvName ≠ none) :
    after.slot pvName = before.slot pvName := by
  induction walk with
  | done reports => rfl
  | @visit file rest world _ _ reports _ inductionHypothesis =>
      have visited := (pass.inWorld world).advances_visited file
      have sameCache :
          (((pass.inWorld world).visited file).reporting reports).cache =
            world.cache :=
        visited.cache
      have others := inductionHypothesis (by rw [sameCache]; exact cached)
      refine others.trans ?_
      by_cases same : pvName = (pass.inWorld world).pvName file
      · subst same
        have unvisited := @visited_of_cached (pass.inWorld world) file cached
        rw [World.slot_reporting, unvisited]
        rfl
      · exact @slot_visited_of_ne (pass.inWorld world) file pvName same

end ClassPass

namespace DiscoveryPass

variable {pass : DiscoveryPass}
variable {current : World}
variable {pvName : String}

/-- The PVs of a name that the API server creates in a pass. -/
def Wanted
    (pass : DiscoveryPass)
    (classes : List (String × MountConfig))
    (pvName : String)
    (pv : PersistentVolume) : Prop :=
  ∃ entry ∈ classes,
  ∃ file ∈ (pass.ofClass entry).walked,
    (pass.ofClass entry).Wanted pvName file pv

/-- What a pass over some classes does in a slot. -/
theorem ends_discoverClasses_offering
    (classes : List (String × MountConfig))
    (readyz : Bool)
    (advances : Advances pass.world current)
    (pvName : String) :
    (discoverClasses pass.discoverer classes readyz).Ends exec pass.oracle
        current
      fun _ _ later =>
        Slot.Offering (pass.Wanted classes pvName) (current.slot pvName)
            (later.slot pvName) ∧
          (VolumeCache.getPV current.cache pvName ≠ none →
            later.slot pvName = current.slot pvName) := by
  induction classes generalizing current readyz with
  | nil =>
      apply Program.Ends.done
      exact ⟨.of_unwanted (.refl _) (by simp [Wanted]), fun _ => rfl⟩
  | cons entry rest inductionHypothesis =>
      obtain ⟨storageClass, config⟩ := entry
      unfold discoverClasses
      apply Program.Ends.bind
        ((pass.ofClass (storageClass, config)).inWorld
          current).ends_discoverVolumesAtPath
      intro calls result middle first
      have moved := advances.trans first.walk.advances
      have concluded :
          ∀ readyz,
            (discoverClasses pass.discoverer rest readyz).Ends exec pass.oracle
                middle
              fun _ _ later =>
                Slot.Offering
                    (pass.Wanted ((storageClass, config) :: rest) pvName)
                    (current.slot pvName) (later.slot pvName) ∧
                  (VolumeCache.getPV current.cache pvName ≠ none →
                    later.slot pvName = current.slot pvName) := by
        intro readyz
        obtain ⟨more, ready, later, traced, offering, kept⟩ :=
          inductionHypothesis readyz moved
        refine ⟨more, ready, later, traced, ?_, ?_⟩
        · have firstOffering := first.walk.offering (.refl _) pvName
          refine (firstOffering.trans offering).congr ?_
          intro pv
          have decided :
              ∀ file,
                ((pass.ofClass (storageClass, config)).inWorld current).Wanted
                    pvName file pv ↔
                  (pass.ofClass (storageClass, config)).Wanted pvName file pv :=
            fun _ => ClassPass.wanted_inWorld advances pv
          simp only [decided, Wanted, List.mem_cons, exists_eq_or_imp]
          rfl
        · intro cached
          have sameCache : middle.cache = current.cache :=
            first.walk.advances.cache
          rw [kept (by rw [sameCache]; exact cached)]
          exact first.walk.slot_of_cached cached
      cases result with
      | error err => exact concluded false
      | ok _ => exact concluded readyz

end DiscoveryPass

end LocalProvisioner
