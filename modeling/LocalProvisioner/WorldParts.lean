import LocalProvisioner.PassCalls
import LocalProvisioner.StoreRestriction

namespace LocalProvisioner

open Interleaving

/-!
# The part of the world that is about some PVs

The API server and the watches carry the objects of the whole cluster.  The
part of a world that is about some PV names has the PVs with these names, the
jobs that clean them, and the notices about them.  Calls that are about these
names do the same in the part as in the whole world, and calls that are about
other names do nothing in the part.
-/

/-- The name of the PV that a job cleans. -/
def jobTarget (jobName : String) : String :=
  String.ofList (jobName.toList.drop "cleanup-".length)

theorem jobTarget_generateCleaningJobName (pvName : String) :
    jobTarget (generateCleaningJobName pvName) = pvName := by
  have characters :
      (generateCleaningJobName pvName).toList.drop "cleanup-".length =
        pvName.toList := by
    rw [generateCleaningJobName, String.toList_append]
    exact List.drop_left' rfl
  rw [jobTarget, characters]
  exact String.ofList_toList

/-- The part of the world that is about the PVs with these names. -/
def World.part (world : World) (keep : String → Bool) : World :=
  { world with
    jobLister := world.jobLister.restrict fun jobName => keep (jobTarget jobName)
    pvs := world.pvs.restrict keep
    jobs := world.jobs.restrict fun jobName => keep (jobTarget jobName)
    pvNotices := world.pvNotices.filter fun notice => keep notice.object.name
    jobNotices :=
      world.jobNotices.filter fun notice =>
        keep (jobTarget notice.object.name) }

/-- Calls that clean only PVs with these names, and ask for no others. -/
def Op.Within (keep : String → Bool) : Op → Prop
  | .spawnCleaner work => keep work.pv.name = true
  | .isCleaningJobRunning pvName => keep pvName = true
  | .getJob jobName => keep (jobTarget jobName) = true
  | .deleteJob jobName _ => keep (jobTarget jobName) = true
  | .createJob job => keep (jobTarget job.name) = true
  | .createPV pv => keep pv.name = true
  | .deletePV pvName => keep pvName = true
  | _ => True

/-- Moves of the surroundings that are only about these names. -/
def Disturbance.Within (keep : String → Bool) : Disturbance → Prop
  | .overwriteCache cache =>
      ∀ pv ∈ VolumeCache.listPVs cache, keep pv.name = true
  | .updatePV pv => keep pv.name = true
  | .removePV pvName => keep pvName = true
  | .jobSucceeds jobName => keep (jobTarget jobName) = true
  | .markJobDeleted jobName _ => keep (jobTarget jobName) = true
  | .removeJob jobName => keep (jobTarget jobName) = true
  | _ => True

namespace World

variable {keep : String → Bool}
variable {world : World}

@[simp] theorem part_empty : World.empty.part keep = World.empty :=
  rfl

theorem get_pvs_part {pvName : String} (kept : keep pvName = true) :
    (world.part keep).pvs.get pvName = world.pvs.get pvName :=
  (ObjectStore.get_restrict _ _ _).trans (if_pos kept)

theorem get_jobs_part
    {jobName : String}
    (kept : keep (jobTarget jobName) = true) :
    (world.part keep).jobs.get jobName = world.jobs.get jobName :=
  (ObjectStore.get_restrict _ _ _).trans (if_pos kept)

theorem listedJob_part
    {jobName : String}
    (kept : keep (jobTarget jobName) = true)
    (answers : Answers) :
    (world.part keep).listedJob answers jobName =
      world.listedJob answers jobName := by
  have listed :
      (world.part keep).jobLister.get jobName = world.jobLister.get jobName :=
    (ObjectStore.get_restrict _ _ _).trans (if_pos kept)
  unfold listedJob
  rw [listed]

theorem putPV_part {pv : PersistentVolume} (kept : keep pv.name = true) :
    (world.putPV pv).part keep = (world.part keep).putPV pv := by
  simp only [part, putPV, ObjectStore.restrict_put_of_true _ kept,
    List.filter_append, List.filter_cons, Notice.object, kept, if_true,
    List.filter_nil]

theorem dropPV_part {pv : PersistentVolume} (kept : keep pv.name = true) :
    (world.dropPV pv).part keep = (world.part keep).dropPV pv := by
  simp only [part, dropPV, ObjectStore.restrict_drop, List.filter_append,
    List.filter_cons, Notice.object, kept, if_true, List.filter_nil]

theorem putJob_part
    {job : Job}
    (kept : keep (jobTarget job.name) = true) :
    (world.putJob job).part keep = (world.part keep).putJob job := by
  have stored :
      (world.jobs.put job).restrict (fun jobName => keep (jobTarget jobName)) =
        (world.jobs.restrict fun jobName => keep (jobTarget jobName)).put job :=
    ObjectStore.restrict_put_of_true _ kept
  simp only [part, putJob, stored, List.filter_append, List.filter_cons,
    Notice.object, kept, if_true, List.filter_nil]

theorem dropJob_part
    {job : Job}
    (kept : keep (jobTarget job.name) = true) :
    (world.dropJob job).part keep = (world.part keep).dropJob job := by
  simp only [part, dropJob, ObjectStore.restrict_drop, List.filter_append,
    List.filter_cons, Notice.object, kept, if_true, List.filter_nil]

/-- A new instance sees the part of what there is. -/
theorem newInstance_part :
    world.newInstance.part keep = (world.part keep).newInstance := by
  simp only [part, newInstance, ObjectStore.list_restrict, List.filter_map,
    List.filter_nil]
  rfl

theorem newProcess_part :
    world.newProcess.part keep = (world.part keep).newProcess := by
  have same := @newInstance_part keep world
  unfold newProcess
  rw [← same]
  rfl

/-- Recording an event is no matter of names. -/
theorem record_part (world : World) (event : Event) :
    (world.record event).part keep = (world.part keep).record event :=
  rfl

theorem execCreatePV_part
    {pv : PersistentVolume}
    (kept : keep pv.name = true)
    (answers : Answers) :
    (world.part keep).execCreatePV answers pv =
      ((world.execCreatePV answers pv).1,
        (world.execCreatePV answers pv).2.part keep) := by
  have admitted :
      ((world.record (.createPVIssued pv.name)).admitPV
          (world.freshUID answers) pv).part keep =
        ((world.part keep).record (.createPVIssued pv.name)).admitPV
          (world.freshUID answers) pv :=
    congrArg (World.record · (.pvCreated pv.name (world.freshUID answers)))
      (@putPV_part keep
        { world.record (.createPVIssued pv.name) with
          nextUID := world.freshUID answers + 1 }
        { pv with uid := world.freshUID answers } kept)
  unfold execCreatePV
  rw [get_pvs_part kept]
  cases answers.outcome with
  | rejected err => rfl
  | processed | lost =>
      cases world.pvs.get pv.name with
      | some other => rfl
      | none =>
          dsimp only
          rw [admitted]
          rfl

theorem execDeletePV_part
    {pvName : String}
    (kept : keep pvName = true)
    (answers : Answers) :
    (world.part keep).execDeletePV answers pvName =
      ((world.execDeletePV answers pvName).1,
        (world.execDeletePV answers pvName).2.part keep) := by
  unfold execDeletePV
  rw [get_pvs_part kept]
  cases answers.outcome with
  | rejected err => rfl
  | processed | lost =>
      cases stored : world.pvs.get pvName with
      | none => rfl
      | some pv =>
          have named : keep pv.name = true := by
            rw [ObjectStore.name_of_get stored]
            exact kept
          dsimp only
          split
          · rw [putPV_part (by exact named), record_part]
          · rw [dropPV_part named, record_part]

theorem execCreateJob_part
    {job : Job}
    (kept : keep (jobTarget job.name) = true)
    (answers : Answers) :
    (world.part keep).execCreateJob answers job =
      ((world.execCreateJob answers job).1,
        (world.execCreateJob answers job).2.part keep) := by
  have admitted :
      (world.admitJob (world.freshUID answers) job).part keep =
        (world.part keep).admitJob (world.freshUID answers) job :=
    congrArg (World.record · (.jobCreated job.name (world.freshUID answers)))
      (@putJob_part keep { world with nextUID := world.freshUID answers + 1 }
        { job with uid := world.freshUID answers } kept)
  unfold execCreateJob
  rw [get_jobs_part kept]
  cases answers.outcome with
  | rejected err => rfl
  | processed | lost =>
      cases world.jobs.get job.name with
      | some other => rfl
      | none =>
          dsimp only
          rw [admitted]
          rfl

theorem execDeleteJob_part
    {jobName : String}
    (kept : keep (jobTarget jobName) = true)
    (answers : Answers) :
    (world.part keep).execDeleteJob answers jobName =
      ((world.execDeleteJob answers jobName).1,
        (world.execDeleteJob answers jobName).2.part keep) := by
  unfold execDeleteJob
  rw [get_jobs_part kept]
  cases answers.outcome with
  | rejected err => rfl
  | processed | lost =>
      cases stored : world.jobs.get jobName with
      | none => rfl
      | some job =>
          have named : keep (jobTarget job.name) = true := by
            rw [ObjectStore.name_of_get stored]
            exact kept
          dsimp only
          rw [putJob_part (by exact named)]

theorem execSpawnCleaner_part (answers : Answers) (work : CleanerWork) :
    (world.part keep).execSpawnCleaner answers work =
      ((world.execSpawnCleaner answers work).1,
        (world.execSpawnCleaner answers work).2.part keep) := by
  have sameTable : (world.part keep).procTable = world.procTable := rfl
  unfold execSpawnCleaner
  rw [sameTable]
  cases world.procTable.markRunning work.pv.name answers.now with
  | mk marked procTable =>
      cases marked with
      | error err => rfl
      | ok _ => rfl

end World

/-- A call about these names does the same in their part of the world. -/
theorem exec_part
    {keep : String → Bool}
    {op : Op}
    (within : op.Within keep)
    (answers : Answers)
    (world : World) :
    exec op answers (world.part keep) =
      (exec op answers world).map fun outcome =>
        (outcome.1, outcome.2.part keep) := by
  cases op with
  | listPVs =>
      have sameCache : (world.part keep).cache = world.cache := rfl
      simp only [exec, sameCache]
      cases permuted answers.order (VolumeCache.listPVs world.cache) <;> rfl
  | rangeDiscoveryMap classes =>
      simp only [exec]
      cases permuted answers.order
        (classes.entries.map fun entry => (entry.1, entry.2)) <;> rfl
  | spawnCleaner work =>
      exact congrArg some (World.execSpawnCleaner_part answers work)
  | isCleaningJobRunning pvName =>
      have named :
          keep (jobTarget (generateCleaningJobName pvName)) = true := by
        rw [jobTarget_generateCleaningJobName]
        exact within
      simp only [exec, World.listedJob_part named, Option.map_some]
  | getJob jobName =>
      exact congrArg (fun reply => some (reply, world.part keep))
        (World.listedJob_part within answers)
  | deleteJob jobName namespaceName =>
      exact congrArg some (World.execDeleteJob_part within answers)
  | createJob job =>
      exact congrArg some (World.execCreateJob_part within answers)
  | createPV pv => exact congrArg some (World.execCreatePV_part within answers)
  | deletePV pvName =>
      exact congrArg some (World.execDeletePV_part within answers)
  | getPV | lookupPVsByPath | isRunning | removeEntry | isDir | isBlock
  | readDir | listMounts | getBlockCapacityByte | getFsCapacityByte
  | getStorageClass | now | report | setReady | crash =>
      rfl

namespace World

variable {keep : String → Bool}
variable {world later : World}
variable {runtime : RuntimeConfig}
variable {disturbance : Disturbance}

/-- A move about these names, or a local one, is one of their part too. -/
theorem disturb_part
    (within : disturbance.Within keep)
    (moved : world.disturb runtime disturbance = some later)
    (foreign :
      ∀ notice rest,
        world.pvNotices = notice :: rest →
        keep notice.object.name = false →
        handlePVNotice runtime world.cache notice = world.cache) :
    later.part keep = world.part keep ∨
      (world.part keep).disturb runtime disturbance =
        some (later.part keep) := by
  cases disturbance with
  | cleanerFinishes index performed =>
      obtain ⟨cleaner, found, rfl⟩ := Option.map_eq_some_iff.mp moved
      have live : (world.part keep).cleaners[index]? = some cleaner := found
      right
      simp only [disturb, live, Option.map_some]
      rfl
  | overwriteCache cache =>
      cases moved
      exact .inr rfl
  | updatePV pv =>
      right
      simp only [disturb] at moved ⊢
      rw [get_pvs_part within]
      split at moved
      · cases moved
      · rename_i current stored
        split at moved
        · rename_i same
          cases moved
          simp only [same, and_self, if_true]
          rw [putPV_part within]
        · cases moved
  | removePV pvName =>
      obtain ⟨pv, stored, rfl⟩ := Option.map_eq_some_iff.mp moved
      have kept : keep pv.name = true := by
        rw [ObjectStore.name_of_get stored]
        exact within
      right
      simp only [disturb, get_pvs_part within, stored, Option.map_some]
      rw [dropPV_part kept]
  | jobSucceeds jobName =>
      right
      simp only [disturb] at moved ⊢
      rw [get_jobs_part within]
      split at moved
      · cases moved
      · rename_i job stored
        have kept : keep (jobTarget job.name) = true := by
          rw [ObjectStore.name_of_get stored]
          exact within
        split at moved
        · rename_i unfinished
          cases moved
          simp only [unfinished, if_true, succeedJob]
          rw [record_part, putJob_part (by exact kept)]
        · cases moved
  | markJobDeleted jobName now =>
      obtain ⟨job, stored, rfl⟩ := Option.map_eq_some_iff.mp moved
      have kept : keep (jobTarget job.name) = true := by
        rw [ObjectStore.name_of_get stored]
        exact within
      right
      simp only [disturb, get_jobs_part within, stored, Option.map_some]
      rw [putJob_part (by exact kept)]
  | removeJob jobName =>
      obtain ⟨job, stored, rfl⟩ := Option.map_eq_some_iff.mp moved
      have kept : keep (jobTarget job.name) = true := by
        rw [ObjectStore.name_of_get stored]
        exact within
      right
      simp only [disturb, get_jobs_part within, stored, Option.map_some]
      rw [dropJob_part kept]
  | deliverPV =>
      simp only [disturb] at moved
      split at moved
      · cases moved
      · rename_i notice rest pending
        cases moved
        cases kept : keep notice.object.name with
        | true =>
            right
            have first :
                (world.part keep).pvNotices =
                  notice ::
                    rest.filter fun notice => keep notice.object.name := by
              simp only [part, pending, List.filter_cons, kept, if_true]
            simp only [disturb, first]
            rfl
        | false =>
            left
            rw [foreign notice rest pending kept]
            simp only [part, pending, List.filter_cons, kept,
              Bool.false_eq_true, if_false]
  | deliverJob =>
      simp only [disturb] at moved
      split at moved
      · cases moved
      · rename_i notice rest pending
        cases moved
        cases kept : keep (jobTarget notice.object.name) with
        | true =>
            right
            have first :
                (world.part keep).jobNotices =
                  notice ::
                    rest.filter fun notice =>
                      keep (jobTarget notice.object.name) := by
              simp only [part, pending, List.filter_cons, kept, if_true]
            have listed :
                (handleJobNotice world.jobLister notice).restrict
                    (fun jobName => keep (jobTarget jobName)) =
                  handleJobNotice (world.part keep).jobLister notice := by
              cases notice with
              | updated job => exact ObjectStore.restrict_put_of_true _ kept
              | deleted job => exact ObjectStore.restrict_drop _ _ _
            simp only [disturb, first]
            rw [← listed]
            rfl
        | false =>
            left
            have unlisted :
                (handleJobNotice world.jobLister notice).restrict
                    (fun jobName => keep (jobTarget jobName)) =
                  world.jobLister.restrict
                    fun jobName => keep (jobTarget jobName) := by
              cases notice with
              | updated job => exact ObjectStore.restrict_put_of_false _ kept
              | deleted job => exact ObjectStore.restrict_drop_of_false _ kept
            simp only [part, pending, unlisted, List.filter_cons, kept,
              Bool.false_eq_true, if_false]

end World

/-!
## Changes elsewhere
-/

/-- What has been told on top of what was on its way. -/
def newsSince {Object : Type} (earlier later : List (Notice Object)) :
    List (Notice Object) :=
  later.drop earlier.length

@[simp] theorem newsSince_self {Object : Type} (notices : List (Notice Object)) :
    newsSince notices notices = [] :=
  List.drop_length

@[simp] theorem newsSince_append
    {Object : Type}
    (earlier news : List (Notice Object)) :
    newsSince earlier (earlier ++ news) = news :=
  List.drop_left

/-- Nothing about these names has changed at the API server. -/
structure World.Spares (keep : String → Bool) (world later : World) :
    Prop where
  pvs : later.pvs.restrict keep = world.pvs.restrict keep
  jobs :
    later.jobs.restrict (fun jobName => keep (jobTarget jobName)) =
      world.jobs.restrict fun jobName => keep (jobTarget jobName)
  pvNews :
    ∀ notice ∈ newsSince world.pvNotices later.pvNotices,
      keep notice.object.name = false
  jobNews :
    ∀ notice ∈ newsSince world.jobNotices later.jobNotices,
      keep (jobTarget notice.object.name) = false

namespace World

variable {keep mine yours : String → Bool}
variable {world later : World}

/-- The API server has not changed at all. -/
theorem Spares.of_same
    (pvs : later.pvs = world.pvs)
    (jobs : later.jobs = world.jobs)
    (pvNotices : later.pvNotices.length ≤ world.pvNotices.length)
    (jobNotices : later.jobNotices.length ≤ world.jobNotices.length) :
    Spares keep world later where
  pvs := by rw [pvs]
  jobs := by rw [jobs]
  pvNews := by simp [newsSince, List.drop_eq_nil_of_le pvNotices]
  jobNews := by simp [newsSince, List.drop_eq_nil_of_le jobNotices]

/-- A PV with another name is stored. -/
theorem Spares.putPV
    {pv : PersistentVolume}
    (elsewhere : keep pv.name = false) :
    Spares keep world (world.putPV pv) where
  pvs := ObjectStore.restrict_put_of_false _ elsewhere
  jobs := rfl
  pvNews := by simp [World.putPV, Notice.object, elsewhere]
  jobNews := by simp [World.putPV]

/-- A PV with another name is removed. -/
theorem Spares.dropPV
    {pv : PersistentVolume}
    (elsewhere : keep pv.name = false) :
    Spares keep world (world.dropPV pv) where
  pvs := ObjectStore.restrict_drop_of_false _ elsewhere
  jobs := rfl
  pvNews := by simp [World.dropPV, Notice.object, elsewhere]
  jobNews := by simp [World.dropPV]

/-- A job for another name is stored. -/
theorem Spares.putJob
    {job : Job}
    (elsewhere : keep (jobTarget job.name) = false) :
    Spares keep world (world.putJob job) where
  pvs := rfl
  jobs :=
    @ObjectStore.restrict_put_of_false _ _ _ _
      (fun jobName => keep (jobTarget jobName)) _ _ elsewhere
  pvNews := by simp [World.putJob]
  jobNews := by simp [World.putJob, Notice.object, elsewhere]

/-- A job for another name is removed. -/
theorem Spares.dropJob
    {job : Job}
    (elsewhere : keep (jobTarget job.name) = false) :
    Spares keep world (world.dropJob job) where
  pvs := rfl
  jobs :=
    @ObjectStore.restrict_drop_of_false _ _ _ _
      (fun jobName => keep (jobTarget jobName)) _ _ elsewhere
  pvNews := by simp [World.dropJob]
  jobNews := by simp [World.dropJob, Notice.object, elsewhere]

/-- A call about some names changes nothing about others. -/
theorem spares_of_exec
    {op : Op}
    {answers : Answers}
    {reply : op.Reply}
    (apart : ∀ pvName, mine pvName = true → yours pvName = false)
    (within : op.Within mine)
    (executed : exec op answers world = some (reply, later)) :
    Spares yours world later := by
  cases effect_of_exec executed with
  | recorded | tookEntry => exact .of_same rfl rfl le_rfl le_rfl
  | spawned work =>
      unfold World.execSpawnCleaner
      split
      · exact .of_same rfl rfl le_rfl le_rfl
      · exact .of_same rfl rfl le_rfl le_rfl
  | createdPV pv free =>
      have stored :
          Spares yours world
            (world.putPV { pv with uid := world.freshUID answers }) :=
        .putPV (apart pv.name within)
      exact ⟨stored.pvs, stored.jobs, stored.pvNews, stored.jobNews⟩
  | markedPV pvName pv found =>
      have elsewhere : yours pv.name = false := by
        rw [ObjectStore.name_of_get found]
        exact apart pvName within
      have stored :
          Spares yours world
            (world.putPV { pv with deletionTimestamp := some answers.now }) :=
        .putPV elsewhere
      exact ⟨stored.pvs, stored.jobs, stored.pvNews, stored.jobNews⟩
  | removedPV pvName pv found =>
      have elsewhere : yours pv.name = false := by
        rw [ObjectStore.name_of_get found]
        exact apart pvName within
      have removed : Spares yours world (world.dropPV pv) := .dropPV elsewhere
      exact ⟨removed.pvs, removed.jobs, removed.pvNews, removed.jobNews⟩
  | createdJob job free =>
      have stored :
          Spares yours world
            (world.putJob { job with uid := world.freshUID answers }) :=
        .putJob (apart _ within)
      exact ⟨stored.pvs, stored.jobs, stored.pvNews, stored.jobNews⟩
  | markedJob jobName namespaceName job found =>
      have elsewhere : yours (jobTarget job.name) = false := by
        rw [ObjectStore.name_of_get found]
        exact apart _ within
      exact .putJob elsewhere

/-- Nor does a move of the surroundings. -/
theorem spares_of_disturb
    {runtime : RuntimeConfig}
    {disturbance : Disturbance}
    (apart : ∀ pvName, mine pvName = true → yours pvName = false)
    (within : disturbance.Within mine)
    (moved : world.disturb runtime disturbance = some later) :
    Spares yours world later := by
  cases disturbance with
  | cleanerFinishes index performed =>
      obtain ⟨cleaner, found, rfl⟩ := Option.map_eq_some_iff.mp moved
      exact .of_same rfl rfl le_rfl le_rfl
  | overwriteCache cache =>
      cases moved
      exact .of_same rfl rfl le_rfl le_rfl
  | updatePV pv =>
      simp only [disturb] at moved
      split at moved
      · cases moved
      · split at moved
        · cases moved
          exact .putPV (apart pv.name within)
        · cases moved
  | removePV pvName =>
      obtain ⟨pv, stored, rfl⟩ := Option.map_eq_some_iff.mp moved
      refine .dropPV ?_
      rw [ObjectStore.name_of_get stored]
      exact apart pvName within
  | jobSucceeds jobName =>
      simp only [disturb] at moved
      split at moved
      · cases moved
      · rename_i job stored
        split at moved
        · cases moved
          have elsewhere : yours (jobTarget job.name) = false := by
            rw [ObjectStore.name_of_get stored]
            exact apart _ within
          have updated :
              Spares yours world (world.putJob { job with succeeded := 1 }) :=
            .putJob elsewhere
          exact ⟨updated.pvs, updated.jobs, updated.pvNews, updated.jobNews⟩
        · cases moved
  | markJobDeleted jobName now =>
      obtain ⟨job, stored, rfl⟩ := Option.map_eq_some_iff.mp moved
      refine .putJob ?_
      change yours (jobTarget job.name) = false
      rw [ObjectStore.name_of_get stored]
      exact apart _ within
  | removeJob jobName =>
      obtain ⟨job, stored, rfl⟩ := Option.map_eq_some_iff.mp moved
      refine .dropJob ?_
      rw [ObjectStore.name_of_get stored]
      exact apart _ within
  | deliverPV =>
      simp only [disturb] at moved
      split at moved
      · cases moved
      · rename_i notice rest pending
        cases moved
        refine .of_same rfl rfl ?_ le_rfl
        simp [pending]
  | deliverJob =>
      simp only [disturb] at moved
      split at moved
      · cases moved
      · rename_i notice rest pending
        cases moved
        refine .of_same rfl rfl le_rfl ?_
        simp [pending]

/-- The world sees what has been done to the API server in another one. -/
def observe (world before after : World) : World :=
  { world with
    pvs := after.pvs
    jobs := after.jobs
    pvNotices :=
      world.pvNotices ++ newsSince before.pvNotices after.pvNotices
    jobNotices :=
      world.jobNotices ++ newsSince before.jobNotices after.jobNotices }

/-- What is about other names is not seen in a part. -/
theorem part_observe
    {before after : World}
    (samePVs : world.pvs = before.pvs)
    (sameJobs : world.jobs = before.jobs)
    (spares : Spares keep before after) :
    (world.observe before after).part keep = world.part keep := by
  have pvNews :
      (newsSince before.pvNotices after.pvNotices).filter
        (fun notice => keep notice.object.name) = [] :=
    List.filter_eq_nil_iff.mpr fun notice member => by
      simp [spares.pvNews notice member]
  have jobNews :
      (newsSince before.jobNotices after.jobNotices).filter
        (fun notice => keep (jobTarget notice.object.name)) = [] :=
    List.filter_eq_nil_iff.mpr fun notice member => by
      simp [spares.jobNews notice member]
  simp only [part, observe, spares.pvs, spares.jobs, samePVs, sameJobs,
    List.filter_append, pvNews, jobNews, List.append_nil]

end World

end LocalProvisioner
