import LocalProvisioner.FileVerdicts
import Mathlib.Algebra.Ring.Int.Defs

namespace LocalProvisioner

open Interleaving

/-!
# The walk over a discovery directory

What the loop body of `discoverVolumesAtPath` does to the world does not change
the verdicts about later files: it takes statuses of ended cleaners out of the
table, deletes finished jobs, and creates PVs, which reach the cache only after
the pass.  A pass is therefore done with every file as the verdict in its first
world says, unless it returns early: before the files are listed, or at the
first file on whose name a malformed pattern is tried.
-/

/-- Is a job being deleted?  Foreground deletion marks it. -/
def World.jobDeleted (world : World) (jobName : String) : Bool :=
  (world.jobs.get jobName).any fun job => job.deletionTimestamp.isSome

/-- What discovery may do to the world. -/
structure Advances (before after : World) : Prop where
  cache : after.cache = before.cache
  jobLister : after.jobLister = before.jobLister
  status :
    ∀ pvName,
      after.procTable.status? pvName = before.procTable.status? pvName ∨
        after.procTable.status? pvName = none ∧
          (before.procTable.status? pvName).all CleanupState.hasEnded = true
  jobs :
    ∀ jobName,
      (after.jobs.get jobName).isSome = (before.jobs.get jobName).isSome
  deleted :
    ∀ jobName,
      before.jobDeleted jobName = true →
      after.jobDeleted jobName = true
  pvs :
    ∀ pvName pv,
      before.pvs.get pvName = some pv →
      after.pvs.get pvName = some pv

namespace Advances

variable {before middle after : World}

theorem refl (world : World) : Advances world world where
  cache := rfl
  jobLister := rfl
  status := fun _ => .inl rfl
  jobs := fun _ => rfl
  deleted := fun _ deleted => deleted
  pvs := fun _ _ stored => stored

theorem trans
    (first : Advances before middle)
    (second : Advances middle after) :
    Advances before after where
  cache := second.cache.trans first.cache
  jobLister := second.jobLister.trans first.jobLister
  status := by
    intro pvName
    rcases second.status pvName with same | ⟨gone, ended⟩
    · rw [same]
      exact first.status pvName
    · rcases first.status pvName with sameToo | ⟨_, endedToo⟩
      · exact .inr ⟨gone, sameToo ▸ ended⟩
      · exact .inr ⟨gone, endedToo⟩
  jobs := fun jobName => (second.jobs jobName).trans (first.jobs jobName)
  deleted := fun jobName deleted =>
    second.deleted jobName (first.deleted jobName deleted)
  pvs := fun pvName pv stored =>
    second.pvs pvName pv (first.pvs pvName pv stored)

/-- No cleaner ends or starts. -/
theorem isRunning_eq (advances : Advances before after) (pvName : String) :
    after.procTable.isRunning pvName = before.procTable.isRunning pvName := by
  rw [Bool.eq_iff_iff, ProcTable.isRunning_iff, ProcTable.isRunning_iff]
  rcases advances.status pvName with same | ⟨gone, ended⟩
  · rw [same]
  · rw [gone]
    constructor
    · intro impossible
      cases impossible
    · intro running
      rw [running] at ended
      cases ended

/-- The same entries can be removed. -/
theorem isOk_removeEntry_eq
    (advances : Advances before after)
    (pvName : String) :
    (after.procTable.removeEntry pvName).1.isOk =
      (before.procTable.removeEntry pvName).1.isOk := by
  rw [ProcTable.isOk_removeEntry, ProcTable.isOk_removeEntry]
  rcases advances.status pvName with same | ⟨gone, ended⟩
  · rw [same]
  · rw [gone, ended]
    rfl

/-- The same jobs can be deleted. -/
theorem isOk_execDeleteJob_eq
    (advances : Advances before after)
    (answers : Answers)
    (jobName : String) :
    (after.execDeleteJob answers jobName).1.isOk =
      (before.execDeleteJob answers jobName).1.isOk := by
  have present := advances.jobs jobName
  unfold World.execDeleteJob
  cases answers.outcome with
  | rejected err => rfl
  | processed | lost =>
      cases stored : before.jobs.get jobName with
      | none =>
          rw [stored] at present
          rw [Option.isNone_iff_eq_none.mp
            (by simpa using present : (after.jobs.get jobName).isNone = true)]
      | some job =>
          rw [stored] at present
          obtain ⟨other, found⟩ := Option.isSome_iff_exists.mp present
          rw [found]

/-- The listers answer as before. -/
theorem listedJob_eq
    (advances : Advances before after)
    (answers : Answers)
    (jobName : String) :
    after.listedJob answers jobName = before.listedJob answers jobName := by
  unfold World.listedJob
  rw [advances.jobLister]

/-- The deletion of a job. -/
theorem execDeleteJob
    (world : World)
    (answers : Answers)
    (jobName : String) :
    Advances world (world.execDeleteJob answers jobName).2 := by
  unfold World.execDeleteJob
  split
  · exact refl world
  · split
    · exact refl world
    · rename_i job stored
      have sameName : job.name = jobName := ObjectStore.name_of_get stored
      have put :
          ∀ other,
            (world.jobs.put
                { job with deletionTimestamp := some answers.now }).get other =
              if other = job.name then
                some { job with deletionTimestamp := some answers.now }
              else
                world.jobs.get other := fun other =>
        ObjectStore.get_put world.jobs
          { job with deletionTimestamp := some answers.now } other
      refine ⟨rfl, rfl, fun _ => .inl rfl, ?_, ?_, fun _ _ same => same⟩
      · intro other
        change ((world.jobs.put _).get other).isSome = _
        rw [put]
        split
        · rename_i same
          rw [same, sameName, stored]
          rfl
        · rfl
      · intro other deleted
        change ((world.jobs.put _).get other).any _ = true
        rw [put]
        split
        · rfl
        · exact deleted

/-- The creation of a PV. -/
theorem execCreatePV
    (world : World)
    (answers : Answers)
    (pv : PersistentVolume) :
    Advances world (world.execCreatePV answers pv).2 := by
  unfold World.execCreatePV
  split
  · exact ⟨rfl, rfl, fun _ => .inl rfl, fun _ => rfl, fun _ same => same,
      fun _ _ same => same⟩
  · split
    · exact ⟨rfl, rfl, fun _ => .inl rfl, fun _ => rfl, fun _ same => same,
        fun _ _ same => same⟩
    · rename_i free
      refine ⟨rfl, rfl, fun _ => .inl rfl, fun _ => rfl, fun _ same => same, ?_⟩
      intro pvName stored found
      change
        (world.pvs.put { pv with uid := world.freshUID answers }).get pvName = _
      rw [ObjectStore.get_put]
      split
      · rename_i same
        rw [same] at found
        cases found.symm.trans free
      · exact found

/-- The removal of an entry. -/
theorem removeEntry (world : World) (pvName : String) :
    Advances world
      { world with procTable := (world.procTable.removeEntry pvName).2 } where
  cache := rfl
  jobLister := rfl
  status := by
    intro other
    change (world.procTable.removeEntry pvName).2.status? other = _ ∨ _
    rw [ProcTable.status?_removeEntry_eq]
    split
    · rename_i taken
      obtain ⟨rfl, ended⟩ := taken
      exact .inr ⟨rfl, ended⟩
    · exact .inl rfl
  jobs := fun _ => rfl
  deleted := fun _ same => same
  pvs := fun _ _ same => same

/-- Reports do not matter. -/
theorem reported
    (advances : Advances before after)
    (reports : List Report) :
    Advances before (after.reporting reports) :=
  ⟨advances.cache, advances.jobLister, advances.status, advances.jobs,
    advances.deleted, advances.pvs⟩

end Advances

namespace ClassPass

/-- The pass in another world. -/
def inWorld (pass : ClassPass) (world : World) : ClassPass :=
  { pass with world }

section Stability

variable {pass : ClassPass}
variable {later : World}

theorem cleaning_inWorld
    (advances : Advances pass.world later)
    (file : String)
    (mode : VolumeMode) :
    (pass.inWorld later).cleaning file mode = pass.cleaning file mode := by
  have sameJob :
      (pass.inWorld later).world.listedJob
          ((pass.inWorld later).oracle
            (.isCleaningJobRunning ((pass.inWorld later).pvName file)))
          ((pass.inWorld later).jobName file) =
        pass.world.listedJob
          (pass.oracle (.isCleaningJobRunning (pass.pvName file)))
          (pass.jobName file) :=
    advances.listedJob_eq _ _
  have sameEntry :
      (pass.inWorld later).world.procTable.isRunning
          ((pass.inWorld later).pvName file) =
        pass.world.procTable.isRunning (pass.pvName file) :=
    advances.isRunning_eq _
  unfold cleaning
  rw [sameJob, sameEntry]
  rfl

theorem removes_inWorld
    (advances : Advances pass.world later)
    (file : String)
    (mode : VolumeMode) :
    (pass.inWorld later).removes file mode = pass.removes file mode := by
  have sameJob : (pass.inWorld later).listedJob file = pass.listedJob file :=
    advances.listedJob_eq _ _
  have sameDeletion :
      ∀ job : Job,
        ((pass.inWorld later).world.execDeleteJob
            ((pass.inWorld later).deletion job) job.name).1.isOk =
          (pass.world.execDeleteJob (pass.deletion job) job.name).1.isOk :=
    fun job => advances.isOk_execDeleteJob_eq _ _
  have sameEntry :
      ((pass.inWorld later).world.procTable.removeEntry
          ((pass.inWorld later).pvName file)).1.isOk =
        (pass.world.procTable.removeEntry (pass.pvName file)).1.isOk :=
    advances.isOk_removeEntry_eq _
  have sameTracker : (pass.inWorld later).usejob mode = pass.usejob mode := rfl
  simp only [removes, sameTracker, sameJob, sameDeletion, sameEntry]

/-- The verdict about a file stays the same throughout the pass. -/
theorem verdict_inWorld
    (advances : Advances pass.world later)
    (file : String) :
    (pass.inWorld later).verdict file = pass.verdict file := by
  have sameMode : (pass.inWorld later).mode? file = pass.mode? file := rfl
  have sameCapacity :
      (pass.inWorld later).capacity? file = pass.capacity? file := rfl
  have sameCached : (pass.inWorld later).cachedPV file = pass.cachedPV file :=
    congrArg (VolumeCache.getPV · (pass.pvName file)) advances.cache
  have sameUse : (pass.inWorld later).pathInUse file = pass.pathInUse file :=
    congrArg
      (fun cache =>
        !(VolumeCache.lookupPVsByPath cache (pass.outsidePath file)).isEmpty)
      advances.cache
  simp only [verdict, sameMode, sameCached, sameUse, sameCapacity,
    cleaning_inWorld advances, removes_inWorld advances]

theorem request?_inWorld
    (advances : Advances pass.world later)
    (file : String) :
    (pass.inWorld later).request? file = pass.request? file := by
  simp only [request?, verdict_inWorld advances]
  rfl

theorem fails_inWorld
    (advances : Advances pass.world later)
    (file : String) :
    (pass.inWorld later).fails file = pass.fails file := by
  simp only [fails, verdict_inWorld advances, request?_inWorld advances]

theorem bytes_inWorld
    (advances : Advances pass.world later)
    (mode : VolumeMode)
    (file : String) :
    (pass.inWorld later).bytes mode file = pass.bytes mode file := by
  simp only [bytes, verdict_inWorld advances]

/-- `RemoveStatus` advances the world. -/
theorem advances_cleared
    (pass : ClassPass)
    (file : String)
    (mode : VolumeMode) :
    Advances pass.world (pass.cleared file mode) := by
  unfold cleared
  split
  · split
    · exact .refl _
    · split
      · exact .refl _
      · exact .execDeleteJob _ _ _
  · exact .removeEntry _ _

/-- `RemoveStatus` has nothing to do with PVs. -/
theorem pvs_cleared (pass : ClassPass) (file : String) (mode : VolumeMode) :
    (pass.cleared file mode).pvs = pass.world.pvs ∧
      (pass.cleared file mode).pvNotices = pass.world.pvNotices := by
  have deleting :
      ∀ answers jobName,
        (pass.world.execDeleteJob answers jobName).2.pvs = pass.world.pvs ∧
          (pass.world.execDeleteJob answers jobName).2.pvNotices =
            pass.world.pvNotices := by
    intro answers jobName
    unfold World.execDeleteJob
    split
    · exact ⟨rfl, rfl⟩
    · split
      · exact ⟨rfl, rfl⟩
      · exact ⟨rfl, rfl⟩
  unfold cleared
  split
  · split
    · exact ⟨rfl, rfl⟩
    · split
      · exact ⟨rfl, rfl⟩
      · exact deleting _ _
  · exact ⟨rfl, rfl⟩

/-- A request to create a PV advances the world, -/
theorem advances_requested
    (pass : ClassPass)
    (world : World)
    (request : Option PersistentVolume) :
    Advances world (pass.requested world request) := by
  cases request with
  | none => exact .refl _
  | some pv => exact .execCreatePV _ _ _

/-- and the loop body as a whole. -/
theorem advances_visited (pass : ClassPass) (file : String) :
    Advances pass.world (pass.visited file) := by
  unfold visited
  split
  · exact .refl _
  · exact .refl _
  · exact pass.advances_cleared file _
  · exact pass.advances_cleared file _
  · exact (pass.advances_cleared file _).trans (pass.advances_requested _ _)

end Stability

/-!
## The file loop
-/

/-- Is no malformed pattern tried on a file? -/
def accepts (pass : ClassPass) (file : String) : Bool :=
  (selectsFile pass.config file).isOk

/-- Does the name of a file match? -/
def takes (pass : ClassPass) (file : String) : Bool :=
  match selectsFile pass.config file with
  | .ok matched => matched
  | .error _ => false

/-- The files that the loop body is run for. -/
def taken (pass : ClassPass) (files : List String) : List String :=
  (files.takeWhile pass.accepts).filter pass.takes

/-- Requests to create PVs with their replies. -/
abbrev Requests := List (PersistentVolume × Except ApiError Unit)

/-- A walk over files from one world to another, with its requests. -/
inductive Walk (pass : ClassPass) :
    List String → World → Requests → World → Prop where
  | done
      {world : World}
      (reports : List Report) :
      Walk pass [] world [] (world.reporting reports)
  | visit
      {file : String}
      {rest : List String}
      {world later : World}
      {requests : Requests}
      (reports : List Report) :
      Walk pass rest (((pass.inWorld world).visited file).reporting reports)
        requests later →
      Walk pass (file :: rest) world
        (((pass.inWorld world).answered? file).toList ++ requests) later

section FileLoop

variable {pass : ClassPass}

/-- A walk advances the world. -/
theorem Walk.advances
    {files : List String}
    {before after : World}
    {requests : Requests}
    (walk : pass.Walk files before requests after) :
    Advances before after := by
  induction walk with
  | done reports => exact (Advances.refl _).reported reports
  | @visit file _ world _ _ reports _ inductionHypothesis =>
      have visited := (pass.inWorld world).advances_visited file
      exact (visited.reported reports).trans inductionHypothesis

/-- Further reports do not matter to a walk. -/
theorem Walk.reported
    {files : List String}
    {before after : World}
    {requests : Requests}
    (walk : pass.Walk files before requests after)
    (reports : List Report) :
    pass.Walk files before requests (after.reporting reports) := by
  induction walk with
  | done _ => exact .done reports
  | visit earlier _ inductionHypothesis =>
      exact .visit earlier inductionHypothesis

/-- The requests of a walk are decided where the pass starts. -/
theorem Walk.requested
    {files : List String}
    {before after : World}
    {requests : Requests}
    (walk : pass.Walk files before requests after)
    (advances : Advances pass.world before) :
    requests.map Prod.fst = files.filterMap pass.request? := by
  induction walk with
  | done _ => rfl
  | @visit file rest world _ requests reports _ inductionHypothesis =>
      have visited := (pass.inWorld world).advances_visited file
      have others :=
        inductionHypothesis (advances.trans (visited.reported reports))
      have first :
          ((pass.inWorld world).answered? file).toList.map Prod.fst =
            (pass.request? file).toList := by
        rw [← request?_inWorld advances, ← map_answered?]
        exact Option.toList_map.symm
      rw [List.map_append, first, others, List.filterMap_cons]
      cases pass.request? file with
      | none => rfl
      | some pv => rfl

theorem taken_cons_of_error
    {file err : String}
    (malformed : selectsFile pass.config file = .error err)
    (rest : List String) :
    pass.taken (file :: rest) = [] := by
  simp [taken, accepts, malformed, Except.isOk, Except.toBool]

theorem taken_cons_of_ok
    {file : String}
    {matched : Bool}
    (wellFormed : selectsFile pass.config file = .ok matched)
    (rest : List String) :
    pass.taken (file :: rest) =
      if matched then file :: pass.taken rest else pass.taken rest := by
  cases matched <;>
    simp [taken, accepts, takes, wellFormed, Except.isOk, Except.toBool]

/-- What the file loop has done by its end. -/
structure WalkedOver
    (pass : ClassPass)
    (files : List String)
    (before : World)
    (total : Tally)
    (requests : Requests)
    (outcome : Except String Tally)
    (later : World) : Prop where
  walk : pass.Walk (pass.taken files) before requests later
  /-- Either all files are done, -/
  completed :
    (∀ file ∈ files, pass.accepts file = true) →
      ∃ sum,
        outcome = .ok sum ∧
          sum.totalCapacityBlockBytes =
            total.totalCapacityBlockBytes +
              Int64.ofInt ((pass.taken files).map (pass.bytes .block)).sum ∧
          sum.totalCapacityFSBytes =
            total.totalCapacityFSBytes +
              Int64.ofInt
                ((pass.taken files).map (pass.bytes .filesystem)).sum ∧
          (sum.discoErrors = [] ↔
            total.discoErrors = [] ∧
              (∀ file ∈ pass.taken files, pass.fails file = false) ∧
              ∀ request ∈ requests, request.2 = .ok ())
  /-- or a malformed pattern has ended the loop. -/
  aborted :
    ¬ (∀ file ∈ files, pass.accepts file = true) →
      ∃ file ∈ files,
      ∃ err,
        selectsFile pass.config file = .error err ∧ outcome = .error err

namespace WalkedOver

variable {file : String}
variable {rest : List String}
variable {total : Tally}
variable {before : World}
variable {requests : Requests}
variable {outcome : Except String Tally}
variable {later : World}

/-- No file is left. -/
theorem nil (total : Tally) (current : World) :
    pass.WalkedOver [] current total [] (.ok total) current where
  walk := .done current.reports
  completed := fun _ =>
    ⟨total, rfl, by simp [taken], by simp [taken], by simp [taken]⟩
  aborted := fun refused => (refused (by simp)).elim

/-- A malformed pattern is tried on the next file. -/
theorem malformed
    {err : String}
    (bad : selectsFile pass.config file = .error err)
    (current : World) :
    pass.WalkedOver (file :: rest) current total [] (.error err) current where
  walk := by
    rw [taken_cons_of_error bad]
    exact .done current.reports
  completed := by
    intro accepted
    have acceptedToo := accepted file (by simp)
    simp [accepts, bad, Except.isOk, Except.toBool] at acceptedToo
  aborted := fun _ => ⟨file, by simp, err, bad, rfl⟩

/-- What ends the walk over the other files ends the whole walk. -/
theorem aborted_cons
    {matched : Bool}
    (wellFormed : selectsFile pass.config file = .ok matched)
    (walked : pass.WalkedOver rest before total requests outcome later)
    (notAll : ¬ ∀ other ∈ file :: rest, pass.accepts other = true) :
    ∃ bad ∈ file :: rest,
    ∃ err, selectsFile pass.config bad = .error err ∧ outcome = .error err := by
  have accepted : pass.accepts file = true := by
    simp [accepts, wellFormed, Except.isOk, Except.toBool]
  obtain ⟨bad, member, err, malformed, failed⟩ :=
    walked.aborted fun others => notAll (by simpa [accepted] using others)
  exact ⟨bad, by simp [member], err, malformed, failed⟩

/-- The next file does not match. -/
theorem passedOver
    (unmatched : selectsFile pass.config file = .ok false)
    (walked : pass.WalkedOver rest before total requests outcome later) :
    pass.WalkedOver (file :: rest) before total requests outcome later := by
  have same : pass.taken (file :: rest) = pass.taken rest :=
    taken_cons_of_ok unmatched rest
  refine ⟨?_, ?_, walked.aborted_cons unmatched⟩
  · rw [same]
    exact walked.walk
  · intro allAccepted
    rw [same]
    exact walked.completed fun other member =>
      allAccepted other (by simp [member])

/-- The loop body is run for the next file. -/
theorem visited
    {current : World}
    {firstRequests : Requests}
    {found : Tally}
    (matched : selectsFile pass.config file = .ok true)
    (advances : Advances pass.world current)
    (first : (pass.inWorld current).Visited file firstRequests found before)
    (walked :
      pass.WalkedOver rest before (total.add found) requests outcome later) :
    pass.WalkedOver (file :: rest) current total (firstRequests ++ requests)
      outcome later := by
  have grown : pass.taken (file :: rest) = file :: pass.taken rest :=
    taken_cons_of_ok matched rest
  refine ⟨?_, ?_, walked.aborted_cons matched⟩
  · obtain ⟨reports, rfl⟩ := first.world
    rw [grown, first.requested]
    exact .visit reports walked.walk
  · intro allAccepted
    obtain ⟨sum, rfl, blockBytes, fsBytes, clean⟩ :=
      walked.completed fun other member =>
        allAccepted other (by simp [member])
    refine ⟨sum, rfl, ?_, ?_, ?_⟩
    · rw [blockBytes, grown, List.map_cons, List.sum_cons, Int64.ofInt_add,
        ← Int64.add_assoc, ← bytes_inWorld advances, ← first.blockBytes]
      rfl
    · rw [fsBytes, grown, List.map_cons, List.sum_cons, Int64.ofInt_add,
        ← Int64.add_assoc, ← bytes_inWorld advances, ← first.fsBytes]
      rfl
    · rw [clean, grown]
      simp only [Tally.add, List.append_eq_nil_iff, first.clean,
        fails_inWorld advances, List.forall_mem_cons, List.forall_mem_append]
      tauto

end WalkedOver

/-- The file loop is done with each file as the verdict says. -/
theorem ends_discoverFiles
    {storage : StorageClass}
    (classRead : pass.class? = .ok storage)
    {mountPoints : List String}
    (mounted : pass.mountPoints? = .ok mountPoints)
    (files : List String)
    {current : World}
    (advances : Advances pass.world current)
    (total : Tally) :
    (discoverFiles pass.discoverer pass.storageClass pass.config
        (storage.reclaimPolicy.getD .delete) mountPoints files
        total).Ends exec pass.oracle current
      fun calls => pass.WalkedOver files current total (creations calls) := by
  induction files generalizing total current with
  | nil => exact .done (.nil total current)
  | cons file rest inductionHypothesis =>
      unfold discoverFiles
      cases selected : selectsFile pass.config file with
      | error err => exact .done (.malformed selected current)
      | ok matched =>
          cases matched with
          | false =>
              obtain ⟨calls, outcome, later, traced, walked⟩ :=
                inductionHypothesis advances total
              exact ⟨calls, outcome, later, traced, walked.passedOver selected⟩
          | true =>
              have sameClass :
                  (pass.inWorld current).class? = .ok storage := classRead
              have sameMounts :
                  (pass.inWorld current).mountPoints? = .ok mountPoints :=
                mounted
              apply Program.Ends.bind
                (ends_discoverFile sameClass sameMounts file)
              intro calls found middle first
              have moved : Advances current middle := by
                obtain ⟨reports, rfl⟩ := first.world
                exact ((pass.inWorld current).advances_visited file).reported
                  reports
              obtain ⟨more, outcome, later, traced, walked⟩ :=
                inductionHypothesis (advances.trans moved) (total.add found)
              refine ⟨more, outcome, later, traced, ?_⟩
              simp only [creations_append]
              exact .visited selected advances first walked

end FileLoop

/-!
## A pass over a class
-/

/-- The listing of the directory, if the loop over its files is reached. -/
def listing? (pass : ClassPass) : Option (List String) :=
  match pass.class?, pass.files?, pass.mountPoints? with
  | .ok storage, .ok files, .ok _ =>
      if storage.reclaimPolicy.getD .delete = .retain ∨
          storage.reclaimPolicy.getD .delete = .delete then
        some files
      else
        none
  | _, _, _ => none

/-- The files that the loop body is run for in the pass. -/
def walked (pass : ClassPass) : List String :=
  (pass.listing?.map pass.taken).getD []

/-- Is the class read without early return? -/
def completes (pass : ClassPass) : Bool :=
  pass.listing?.any fun files => files.all pass.accepts

/-- The capacities of the volumes of a mode that reach `createPV`, added up. -/
def capacities (pass : ClassPass) (mode : VolumeMode) : Int :=
  (pass.walked.map (pass.bytes mode)).sum

/-- The total that is kept for a mode, in 64 bits. -/
def total (pass : ClassPass) (mode : VolumeMode) : Int64 :=
  Int64.ofInt (pass.capacities mode)

/-- What a pass has done by its end. -/
structure Walked
    (pass : ClassPass)
    (requests : Requests)
    (result : Except String Unit)
    (later : World) : Prop where
  walk : pass.Walk pass.walked pass.world requests later
  clean :
    pass.completes = true →
      (result = .ok () ↔
        (∀ file ∈ pass.walked, pass.fails file = false) ∧
          ∀ request ∈ requests, request.2 = .ok ())
  gauges :
    pass.completes = true →
      ∃ older,
        later.reports =
          .capacity .filesystem (float64 (pass.total .filesystem)) ::
            .capacity .block (float64 (pass.total .block)) :: older
  aborted :
    ∀ files,
      pass.listing? = some files →
      ¬ (∀ file ∈ files, pass.accepts file = true) →
      ∃ file ∈ files,
      ∃ err,
        selectsFile pass.config file = .error err ∧ result = .error err

section Class

variable {pass : ClassPass}

/-- The requests of a pass. -/
theorem Walked.requested
    {requests : Requests}
    {result : Except String Unit}
    {later : World}
    (walked : pass.Walked requests result later) :
    requests.map Prod.fst = pass.walked.filterMap pass.request? :=
  walked.walk.requested (.refl pass.world)

/-- The pass returns before it gets to the files. -/
theorem Walked.refused
    (unread : pass.listing? = none)
    (result : Except String Unit) :
    pass.Walked [] result pass.world where
  walk := by
    simp only [walked, unread]
    exact .done pass.world.reports
  clean := by simp [completes, unread]
  gauges := by simp [completes, unread]
  aborted := by simp [unread]

/-- The end of a pass over all files. -/
theorem ends_concludeDiscovery
    (oracle : Op → Answers)
    (current : World)
    (total : Tally) :
    (concludeDiscovery total).Ends exec oracle current
      fun calls result later =>
        creations calls = [] ∧ (result = .ok () ↔ total.discoErrors = []) ∧
          later =
            current.reporting
              (.capacity .filesystem (float64 total.totalCapacityFSBytes) ::
                .capacity .block (float64 total.totalCapacityBlockBytes) ::
                current.reports) := by
  apply Program.Ends.call rfl
  apply Program.Ends.call rfl
  change Program.Ends _ _ (if total.discoErrors = [] then _ else _) _ _
  split
  · rename_i clean
    exact .done ⟨rfl, by simp [clean], rfl⟩
  · rename_i failed
    exact .done ⟨rfl, by simp [failed], rfl⟩

/-- The pass from the files on. -/
theorem Walked.of_files
    {files : List String}
    (listed : pass.listing? = some files)
    {requests : Requests}
    {outcome : Except String Tally}
    {middle : World}
    (walkedOver :
      pass.WalkedOver files pass.world {} requests outcome middle)
    {next : Except String Tally → Routine (Except String Unit)}
    (failing : ∀ err, next (.error err) = .done (.error err))
    (concluding : ∀ total, next (.ok total) = concludeDiscovery total) :
    (next outcome).Ends exec pass.oracle middle
      fun more => pass.Walked (requests ++ creations more) := by
  have walkedFiles : pass.walked = pass.taken files := by
    simp [walked, listed]
  have completesIff :
      pass.completes = true ↔ ∀ file ∈ files, pass.accepts file = true := by
    simp [completes, listed]
  by_cases accepted : ∀ file ∈ files, pass.accepts file = true
  · obtain ⟨sum, rfl, blockBytes, fsBytes, clean⟩ :=
      walkedOver.completed accepted
    rw [concluding]
    obtain ⟨more, result, later, traced, noRequest, reported, rfl⟩ :=
      ends_concludeDiscovery pass.oracle middle sum
    refine ⟨more, result, _, traced, ?_⟩
    simp only [noRequest, List.append_nil]
    refine ⟨?_, ?_, ?_, ?_⟩
    · rw [walkedFiles]
      exact walkedOver.walk.reported _
    · intro _
      rw [reported, clean, walkedFiles]
      exact ⟨And.right, fun both => ⟨rfl, both⟩⟩
    · intro _
      have fsTotal : sum.totalCapacityFSBytes = pass.total .filesystem := by
        rw [fsBytes, total, capacities, walkedFiles]
        exact Int64.zero_add _
      have blockTotal : sum.totalCapacityBlockBytes = pass.total .block := by
        rw [blockBytes, total, capacities, walkedFiles]
        exact Int64.zero_add _
      refine ⟨middle.reports, ?_⟩
      rw [← fsTotal, ← blockTotal]
      rfl
    · intro others sameListing notAll
      rw [listed] at sameListing
      cases sameListing
      exact (notAll accepted).elim
  · obtain ⟨file, member, err, malformed, rfl⟩ := walkedOver.aborted accepted
    rw [failing]
    apply Program.Ends.done
    rw [creations_nil, List.append_nil]
    refine ⟨?_, ?_, ?_, ?_⟩
    · rw [walkedFiles]
      exact walkedOver.walk
    · exact fun completes => (accepted (completesIff.mp completes)).elim
    · exact fun completes => (accepted (completesIff.mp completes)).elim
    · intro others sameListing _
      rw [listed] at sameListing
      cases sameListing
      exact ⟨file, member, err, malformed, rfl⟩

/-- The pass after the storage class has been read. -/
theorem ends_discoverWithPolicy
    {storage : StorageClass}
    (classRead : pass.class? = .ok storage) :
    (discoverWithPolicy pass.discoverer pass.storageClass pass.config
        (storage.reclaimPolicy.getD .delete)).Ends exec pass.oracle pass.world
      fun calls => pass.Walked (creations calls) := by
  have filesRead :
      exec (.readDir pass.config.mountDir)
        (pass.oracle (.readDir pass.config.mountDir)) pass.world =
        some (pass.files?, pass.world) := rfl
  have mountsRead :
      exec .listMounts (pass.oracle .listMounts) pass.world =
        some (pass.mountPoints?, pass.world) := rfl
  unfold discoverWithPolicy
  split
  · rename_i unsupported
    apply Program.Ends.done
    apply Walked.refused
    cases files : pass.files? <;> cases mounts : pass.mountPoints? <;>
      simp [listing?, classRead, files, mounts, unsupported]
  · rename_i supported
    have policy :
        storage.reclaimPolicy.getD .delete = .retain ∨
          storage.reclaimPolicy.getD .delete = .delete := by
      tauto
    cases files : pass.files? with
    | error err =>
        rw [files] at filesRead
        apply Program.Ends.call filesRead
        apply Program.Ends.done
        apply Walked.refused
        simp [listing?, classRead, files]
    | ok names =>
        rw [files] at filesRead
        apply Program.Ends.call filesRead
        cases mounts : pass.mountPoints? with
        | error err =>
            rw [mounts] at mountsRead
            apply Program.Ends.call mountsRead
            apply Program.Ends.done
            apply Walked.refused
            simp [listing?, classRead, files, mounts]
        | ok mountPoints =>
            rw [mounts] at mountsRead
            apply Program.Ends.call mountsRead
            have listed : pass.listing? = some names := by
              simp [listing?, classRead, files, mounts, policy]
            change Program.Ends _ _
              ((discoverFiles pass.discoverer pass.storageClass pass.config
                (storage.reclaimPolicy.getD .delete) mountPoints names
                {}).bind _) _ _
            apply Program.Ends.bind
              (ends_discoverFiles classRead mounts names (.refl _) {})
            intro calls outcome middle walkedOver
            change Program.Ends _ _ _ _ fun more =>
              pass.Walked (creations (calls ++ more))
            simp only [creations_append]
            apply Walked.of_files listed walkedOver
            · exact fun _ => rfl
            · exact fun _ => rfl

/-- A pass over a class is done with each of its files as the verdict says. -/
theorem ends_discoverVolumesAtPath (pass : ClassPass) :
    (discoverVolumesAtPath pass.discoverer pass.storageClass
        pass.config).Ends exec pass.oracle pass.world
      fun calls => pass.Walked (creations calls) := by
  have replied :
      exec (.getStorageClass pass.storageClass)
        (pass.oracle (.getStorageClass pass.storageClass)) pass.world =
        some (pass.class?, pass.world) := rfl
  cases classRead : pass.class? with
  | error err =>
      rw [classRead] at replied
      apply Program.Ends.call replied
      apply Program.Ends.done
      apply Walked.refused
      simp [listing?, classRead]
  | ok storage =>
      rw [classRead] at replied
      apply Program.Ends.call replied
      exact ends_discoverWithPolicy classRead

end Class

end ClassPass

end LocalProvisioner
