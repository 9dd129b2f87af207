import LocalProvisioner.WorldParts

namespace LocalProvisioner

open Interleaving

/-!
# Runs about one's own names

The names of the PVs that a provisioner deals with come from the files that it
finds and from its cache.  If the files it looks at have names among its own,
and the surroundings put no other PVs into its part of the world, then all its
calls are about its own names, in every run.
-/

/-- Everything in the world is about PVs with these names. -/
structure World.Within (keep : String → Bool) (world : World) : Prop where
  cache :
    ∀ pv ∈ VolumeCache.listPVs world.cache, keep pv.name = true
  pvs : ∀ pv ∈ world.pvs.list, keep pv.name = true
  pvNotices : ∀ notice ∈ world.pvNotices, keep notice.object.name = true
  cleaners : ∀ cleaner ∈ world.cleaners, keep cleaner.pvName = true

/-- A PV name is taken through the tracker for a purpose of these names. -/
def Purpose.Within (keep : String → Bool) : Purpose → Prop
  | .reclaim listed pv =>
      (∀ other ∈ listed, keep other.name = true) ∧ keep pv.name = true
  | .create pvName _ => keep pvName = true

/-- What is known of a job is about these names. -/
def Stage.Within (keep : String → Bool) : Stage → Prop
  | .found job => keep (jobTarget job.name) = true
  | _ => True

/-- The phase of a pass is about these names. -/
def Phase.Within (keep : String → Bool) : Phase → Prop
  | .idle => True
  | .scanning listed => ∀ pv ∈ listed, keep pv.name = true
  | .missing pvName => keep pvName = true
  | .tracking purpose stage => purpose.Within keep ∧ stage.Within keep

/-- The names that a file may have are these. -/
def Op.LooksAt (keep : String → Bool) (op : Op) : Prop :=
  ∀ pvName, op = .getPV pvName → keep pvName = true

/-- The runs of a provisioner that only meets these names. -/
def Conditions.within (conditions : Conditions) (keep : String → Bool) :
    Conditions where
  configuration := conditions.configuration
  restarts := conditions.restarts
  disturbance := fun disturbance world =>
    conditions.disturbance disturbance world ∧ disturbance.Within keep
  call := fun op answers world =>
    conditions.call op answers world ∧ op.LooksAt keep

section Within

variable {keep : String → Bool}

theorem Purpose.Within.pvName
    {purpose : Purpose}
    (within : purpose.Within keep) :
    keep purpose.pvName = true := by
  cases purpose with
  | reclaim listed pv => exact within.2
  | create pvName path => exact within

theorem Purpose.Within.home
    {purpose : Purpose}
    (within : purpose.Within keep) :
    purpose.home.Within keep := by
  cases purpose with
  | reclaim listed pv => exact within.1
  | create pvName path => trivial

/-- The calls of a phase about these names are about these names. -/
theorem Phase.Within.op
    {scope : Scope}
    {phase : Phase}
    {op : Op}
    (within : phase.Within keep)
    (allowed : Allowed scope phase op) :
    op.Within keep := by
  cases allowed with
  | probe probing => cases op <;> trivial
  | list => trivial
  | get => trivial
  | lookup => trivial
  | askProcess => trivial
  | askJob => exact within.1.pvName
  | takeEntry => trivial
  | findJob =>
      change keep (jobTarget (generateCleaningJobName _)) = true
      rw [jobTarget_generateCleaningJobName]
      exact within.1.pvName
  | takeJob => exact within.2
  | deletePV => exact within.1.2
  | spawnCleaner => exact within.1.2
  | createJob named _ =>
      change keep (jobTarget _) = true
      rw [named, jobTarget_generateCleaningJobName]
      exact within.1.2
  | createPV => exact within.1

namespace World.Within

variable {world later : World}

/-- The initial world is about no names at all. -/
theorem empty : World.empty.Within keep := by
  constructor <;> intro _ member <;> cases member

/-- Only the cache, the PVs, their notices and the cleaners matter. -/
theorem congr
    (within : world.Within keep)
    (cache : later.cache = world.cache)
    (pvs : later.pvs = world.pvs)
    (pvNotices : later.pvNotices = world.pvNotices)
    (cleaners : later.cleaners = world.cleaners) :
    later.Within keep where
  cache := by rw [cache]; exact within.cache
  pvs := by rw [pvs]; exact within.pvs
  pvNotices := by rw [pvNotices]; exact within.pvNotices
  cleaners := by rw [cleaners]; exact within.cleaners

theorem putPV
    {pv : PersistentVolume}
    (within : world.Within keep)
    (kept : keep pv.name = true) :
    (world.putPV pv).Within keep where
  cache := within.cache
  pvs := by
    intro other listed
    have stored := ObjectStore.mem_list.mp listed
    rw [World.putPV, ObjectStore.get_put] at stored
    split at stored
    · cases stored
      exact kept
    · exact within.pvs other (ObjectStore.mem_list.mpr stored)
  pvNotices := by
    intro notice member
    rcases List.mem_append.mp member with earlier | isNew
    · exact within.pvNotices notice earlier
    · obtain rfl := List.mem_singleton.mp isNew
      exact kept
  cleaners := within.cleaners

theorem dropPV
    {pv : PersistentVolume}
    (within : world.Within keep)
    (kept : keep pv.name = true) :
    (world.dropPV pv).Within keep where
  cache := within.cache
  pvs := by
    intro other listed
    have stored := ObjectStore.mem_list.mp listed
    exact within.pvs other
      (ObjectStore.mem_list.mpr (ObjectStore.get_of_get_drop stored))
  pvNotices := by
    intro notice member
    rcases List.mem_append.mp member with earlier | isNew
    · exact within.pvNotices notice earlier
    · obtain rfl := List.mem_singleton.mp isNew
      exact kept
  cleaners := within.cleaners

/-- Calls about these names keep to them. -/
theorem exec
    {op : Op}
    {answers : Answers}
    {reply : op.Reply}
    (within : world.Within keep)
    (about : op.Within keep)
    (executed : LocalProvisioner.exec op answers world = some (reply, later)) :
    later.Within keep := by
  cases effect_of_exec executed with
  | recorded | tookEntry | createdJob | markedJob =>
      exact within.congr rfl rfl rfl rfl
  | spawned work =>
      unfold World.execSpawnCleaner
      split
      · exact within.congr rfl rfl rfl rfl
      · refine ⟨within.cache, within.pvs, within.pvNotices, ?_⟩
        intro cleaner member
        rcases List.mem_cons.mp member with rfl | earlier
        · exact about
        · exact within.cleaners cleaner earlier
  | createdPV pv free =>
      have stored :
          (world.putPV { pv with uid := world.freshUID answers }).Within keep :=
        within.putPV about
      exact stored.congr rfl rfl rfl rfl
  | markedPV pvName pv found =>
      have kept : keep pv.name = true := by
        rw [ObjectStore.name_of_get found]
        exact about
      have stored :
          (world.putPV
            { pv with deletionTimestamp := some answers.now }).Within keep :=
        within.putPV kept
      exact stored.congr rfl rfl rfl rfl
  | removedPV pvName pv found =>
      have kept : keep pv.name = true := by
        rw [ObjectStore.name_of_get found]
        exact about
      exact (within.dropPV kept).congr rfl rfl rfl rfl

/-- The populator is told of nothing else. -/
theorem handlePVNotice
    {runtime : RuntimeConfig}
    {cache : VolumeCache}
    {notice : Notice PersistentVolume}
    (within : ∀ pv ∈ VolumeCache.listPVs cache, keep pv.name = true)
    (kept : keep notice.object.name = true) :
    ∀ pv ∈
        VolumeCache.listPVs (World.handlePVNotice runtime cache notice),
      keep pv.name = true := by
  intro pv listed
  have stored :
      VolumeCache.getPV (World.handlePVNotice runtime cache notice) pv.name =
        some pv :=
    ObjectStore.mem_list.mp listed
  have cached :
      VolumeCache.getPV cache pv.name = some pv → keep pv.name = true :=
    fun found => within pv (ObjectStore.mem_list.mpr found)
  cases notice with
  | updated other =>
      rw [World.handlePVNotice, getPV_handlePVUpdate] at stored
      split at stored
      · cases stored
        exact kept
      · exact cached stored
  | deleted other =>
      rw [World.handlePVNotice, getPV_handlePVDelete] at stored
      split at stored
      · cases stored
      · exact cached stored

/-- Moves of the surroundings about these names keep to them. -/
theorem disturb
    {runtime : RuntimeConfig}
    {disturbance : Disturbance}
    (within : world.Within keep)
    (about : disturbance.Within keep)
    (moved : world.disturb runtime disturbance = some later) :
    later.Within keep := by
  cases disturbance with
  | cleanerFinishes index performed =>
      obtain ⟨cleaner, found, rfl⟩ := Option.map_eq_some_iff.mp moved
      refine ⟨within.cache, within.pvs, within.pvNotices, ?_⟩
      intro other live
      exact within.cleaners other (List.mem_of_mem_eraseIdx live)
  | overwriteCache cache =>
      cases moved
      exact ⟨about, within.pvs, within.pvNotices, within.cleaners⟩
  | updatePV pv =>
      simp only [World.disturb] at moved
      split at moved
      · cases moved
      · split at moved
        · cases moved
          exact within.putPV about
        · cases moved
  | removePV pvName =>
      obtain ⟨pv, stored, rfl⟩ := Option.map_eq_some_iff.mp moved
      refine within.dropPV ?_
      rw [ObjectStore.name_of_get stored]
      exact about
  | jobSucceeds jobName =>
      simp only [World.disturb] at moved
      split at moved
      · cases moved
      · split at moved
        · cases moved
          exact within.congr rfl rfl rfl rfl
        · cases moved
  | markJobDeleted jobName now =>
      obtain ⟨job, stored, rfl⟩ := Option.map_eq_some_iff.mp moved
      exact within.congr rfl rfl rfl rfl
  | removeJob jobName =>
      obtain ⟨job, stored, rfl⟩ := Option.map_eq_some_iff.mp moved
      exact within.congr rfl rfl rfl rfl
  | deliverPV =>
      simp only [World.disturb] at moved
      split at moved
      · cases moved
      · rename_i notice rest pending
        cases moved
        have pendingWithin := within.pvNotices
        rw [pending] at pendingWithin
        refine ⟨?_, within.pvs, ?_, within.cleaners⟩
        · exact handlePVNotice within.cache
            (pendingWithin notice List.mem_cons_self)
        · intro other member
          exact pendingWithin other (List.mem_cons_of_mem _ member)
  | deliverJob =>
      simp only [World.disturb] at moved
      split at moved
      · cases moved
      · cases moved
        exact within.congr rfl rfl rfl rfl

/-- A new instance is told of the stored PVs. -/
theorem newInstance (within : world.Within keep) :
    world.newInstance.Within keep where
  cache := by
    intro pv member
    cases member
  pvs := within.pvs
  pvNotices := by
    intro notice member
    obtain ⟨pv, listed, rfl⟩ := List.mem_map.mp member
    exact within.pvs pv listed
  cleaners := within.cleaners

theorem newProcess (within : world.Within keep) :
    world.newProcess.Within keep where
  cache := within.newInstance.cache
  pvs := within.pvs
  pvNotices := within.newInstance.pvNotices
  cleaners := by
    intro cleaner member
    cases member

end World.Within

/-- Whatever a call returns, the next phase is about these names. -/
theorem Phase.Within.after
    {scope : Scope}
    {phase : Phase}
    {op : Op}
    {answers : Answers}
    {world later : World}
    {reply : op.Reply}
    (within : phase.Within keep)
    (inWorld : world.Within keep)
    (allowed : Allowed scope phase op)
    (looks : op.LooksAt keep)
    (executed : exec op answers world = some (reply, later)) :
    (phase.after op reply).Within keep := by
  cases allowed with
  | probe probing =>
      rw [Phase.after_of_probing probing]
      exact within
  | list =>
      obtain ⟨listed, inOrder, same⟩ := Option.map_eq_some_iff.mp executed
      cases same
      intro pv member
      exact inWorld.cache pv ((perm_of_permuted inOrder).mem_iff.mp member)
  | @get pvName =>
      change Option PersistentVolume at reply
      cases reply with
      | none => exact looks pvName rfl
      | some pv => trivial
  | lookup =>
      change List String at reply
      cases reply with
      | nil => exact ⟨within, trivial⟩
      | cons user others => trivial
  | askProcess | askJob =>
      change Bool at reply
      cases reply with
      | false => exact ⟨within.1, trivial⟩
      | true => exact within.1.home
  | takeEntry =>
      change Except String (CleanupState × Option Nat) at reply
      cases reply with
      | error err => exact within.1.home
      | ok taken => exact ⟨within.1, trivial⟩
  | @findJob purpose =>
      change Except ApiError Job at reply
      cases reply with
      | error err =>
          cases err with
          | notFound => exact ⟨within.1, trivial⟩
          | alreadyExists | other => exact within.1.home
      | ok job =>
          refine ⟨within.1, ?_⟩
          have listed :
              world.listedJob answers
                (generateCleaningJobName purpose.pvName) = .ok job :=
            congrArg Prod.fst (Option.some.inj executed)
          change keep (jobTarget job.name) = true
          rw [ObjectStore.name_of_get (World.get_of_listedJob listed),
            jobTarget_generateCleaningJobName]
          exact within.1.pvName
  | takeJob =>
      change Except ApiError Unit at reply
      cases reply with
      | error err => exact within.1.home
      | ok _ => exact ⟨within.1, trivial⟩
  | deletePV => exact within.1.home
  | spawnCleaner => exact within.1.home
  | createJob => exact within.1.home
  | createPV => exact within.1.home

/-- The world and the pass are about these names. -/
structure WithinAssertion
    (keep : String → Bool)
    (phase : Phase)
    (world : World) : Prop where
  world : world.Within keep
  phase : phase.Within keep

/-- In these runs everything is about these names. -/
theorem within_carried (conditions : Conditions) (keep : String → Bool) :
    Carried (conditions.within keep) .all (WithinAssertion keep) where
  flags := fun _ _ => trivial
  outline := {
    silent := by
      intro phase later world moved holds
      refine ⟨holds.world, ?_⟩
      cases moved with
      | pick member reclaimable =>
          exact ⟨⟨holds.phase, holds.phase _ member⟩, trivial⟩
      | giveUp => exact holds.phase.1.home
      | finishScan => trivial
    call := by
      intro phase op answers world reply after allowed holds permitted executed
      refine ⟨syncProtocol_admits trivial _ _, ?_, ?_⟩
      · exact holds.world.exec (holds.phase.op allowed) executed
      · exact holds.phase.after holds.world allowed permitted.2 executed
  }
  initially := ⟨.empty, trivial⟩
  disturbed := fun holds permitted moved =>
    ⟨holds.world.disturb permitted.2 moved, holds.phase⟩
  reloaded := fun holds => ⟨holds.world.newInstance, trivial⟩
  restarted := fun _ holds => ⟨holds.world.newProcess, trivial⟩

/-- In every state of such a run, the next call is about these names. -/
theorem within_of_reaches
    {conditions : Conditions}
    {state : SyncState}
    (reaches : (conditions.within keep).Reaches state) :
    state.world.Within keep ∧
      ∀ op next, state.rest = .call op next → op.Within keep := by
  obtain ⟨phase, holds⟩ :=
    (within_carried conditions keep).assertion_of_reaches reaches
  refine ⟨holds.world, ?_⟩
  intro op next calling
  have follows :=
    ((within_carried conditions keep).onOutline reaches).follows
  rw [calling] at follows
  obtain ⟨current, inPhase, allowed, -⟩ :=
    follows.atCall (within_carried conditions keep).outline
  exact inPhase.phase.op allowed

end Within

end LocalProvisioner
