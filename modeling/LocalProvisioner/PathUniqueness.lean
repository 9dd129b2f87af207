import LocalProvisioner.SyncLoop

namespace LocalProvisioner

open Interleaving

/-!
# One PV for each path

Before it creates a PV, the discoverer looks for cached PVs with the same path.
The cache lags behind the API server, and PV names differ from class to class:
if two classes share a host directory, the second class finds the file before
the cache has heard of the PV of the first, and two PVs share one path.

If every look-up finds all PVs of its path at the API server, but for a PV of
the very name that is to be created, no two PVs ever share a path.
-/

/-- Runs of any instances. -/
def anyMode : Conditions where
  configuration := fun _ => True
  restarts := True
  disturbance := fun disturbance _ => disturbance.faithful = true
  call := fun _ _ _ => True

instance : anyMode.Executable where
  configuration := fun _ => .isTrue trivial
  restarts := .isTrue trivial
  disturbance := fun _ _ => inferInstanceAs (Decidable (_ = _))
  call := fun _ _ _ => .isTrue trivial

/-- A path look-up finds every other PV of the path at the API server. -/
def usersCached (world : World) : Op → Bool
  | .lookupPVsByPath pvName path =>
      world.pvs.list.all fun pv =>
        decide (pv.localPath = some path →
          pv.name ≠ pvName →
          pv.name ∈ VolumeCache.lookupPVsByPath world.cache path)
  | _ => true

/-- Runs in which path look-ups find all users of a path. -/
def cachedUsersMode : Conditions where
  configuration := anyMode.configuration
  restarts := anyMode.restarts
  disturbance := anyMode.disturbance
  call := fun op _ world => usersCached world op = true

instance : cachedUsersMode.Executable where
  configuration := fun _ => .isTrue trivial
  restarts := .isTrue trivial
  disturbance := fun _ _ => inferInstanceAs (Decidable (_ = _))
  call := fun _ _ _ => inferInstanceAs (Decidable (_ = _))

/-- The PVs of the API server. -/
abbrev PVStore := ObjectStore PersistentVolume PersistentVolume.name

/-- No two PVs have the same path. -/
def PathsUnique (pvs : PVStore) : Prop :=
  ∀ first second path,
    pvs.get first.name = some first →
    pvs.get second.name = some second →
    first.localPath = some path →
    second.localPath = some path →
    first.name = second.name

/-- No PV of another name has the path. -/
def UsedOnlyBy (pvs : PVStore) (pvName path : String) : Prop :=
  ∀ pv,
    pvs.get pv.name = some pv →
    pv.localPath = some path →
    pv.name = pvName

/-- Every PV afterwards was there before, with the same path. -/
def PathsKept (before after : PVStore) : Prop :=
  ∀ later,
    after.get later.name = some later →
    ∃ earlier,
      before.get later.name = some earlier ∧
        earlier.localPath = later.localPath

namespace PathsKept

variable {before after : PVStore}

theorem refl (pvs : PVStore) : PathsKept pvs pvs :=
  fun later found => ⟨later, found, rfl⟩

/-- Replacing a PV by one with the same path. -/
theorem put
    {earlier updated : PersistentVolume}
    (found : before.get updated.name = some earlier)
    (samePath : earlier.localPath = updated.localPath) :
    PathsKept before (before.put updated) := by
  intro later present
  rw [ObjectStore.get_put] at present
  split at present
  · cases present
    exact ⟨earlier, found, samePath⟩
  · exact ⟨later, present, rfl⟩

/-- Removing a PV. -/
theorem drop (pvName : String) : PathsKept before (before.drop pvName) :=
  fun later found => ⟨later, ObjectStore.get_of_get_drop found, rfl⟩

/-- PVs that keep their paths keep them distinct. -/
theorem unique
    (kept : PathsKept before after)
    (unique : PathsUnique before) :
    PathsUnique after := by
  intro first second path firstFound secondFound firstPath secondPath
  obtain ⟨earlierFirst, firstBefore, firstKept⟩ := kept first firstFound
  obtain ⟨earlierSecond, secondBefore, secondKept⟩ := kept second secondFound
  have firstName := ObjectStore.name_of_get firstBefore
  have secondName := ObjectStore.name_of_get secondBefore
  rw [← firstName, ← secondName]
  refine unique earlierFirst earlierSecond path ?_ ?_ ?_ ?_
  · rw [firstName]
    exact firstBefore
  · rw [secondName]
    exact secondBefore
  · rw [firstKept]
    exact firstPath
  · rw [secondKept]
    exact secondPath

/-- PVs that keep their paths do not get in the way of a new one. -/
theorem usedOnlyBy
    {pvName path : String}
    (kept : PathsKept before after)
    (only : UsedOnlyBy before pvName path) :
    UsedOnlyBy after pvName path := by
  intro later found atPath
  obtain ⟨earlier, present, samePath⟩ := kept later found
  have sameName := ObjectStore.name_of_get present
  rw [← sameName]
  refine only earlier ?_ ?_
  · rw [sameName]
    exact present
  · rw [samePath]
    exact atPath

/-- The surroundings create no PVs and leave paths alone. -/
theorem disturbed
    {world later : World}
    {runtime : RuntimeConfig}
    {disturbance : Disturbance}
    (moved : world.disturb runtime disturbance = some later) :
    PathsKept world.pvs later.pvs := by
  rcases World.pvs_of_disturb moved with
    same | ⟨current, updated, stored, _, sameSource, same⟩ | ⟨pvName, same⟩
  · rw [same]
    exact refl _
  · rw [same]
    exact put stored (congrArg (Option.map LocalVolumeSource.path) sameSource)
  · rw [same]
    exact drop pvName

/-- A call keeps the paths or creates a PV. -/
theorem or_created
    {op : Op}
    {answers : Answers}
    {world later : World}
    {reply : op.Reply}
    (executed : exec op answers world = some (reply, later)) :
    PathsKept world.pvs later.pvs ∨
      ∃ pv,
        op = .createPV pv ∧
          later.pvs =
            world.pvs.put { pv with uid := world.freshUID answers } := by
  rcases pvs_of_exec executed with
    same | ⟨pv, timestamp, stored, same⟩ | ⟨pvName, same⟩ |
    ⟨pv, isCreation, _, same⟩
  · rw [same]
    exact .inl (refl _)
  · rw [same]
    exact .inl (put stored rfl)
  · rw [same]
    exact .inl (drop pvName)
  · exact .inr ⟨pv, isCreation, same⟩

/-- Apart from the creation of a PV, calls create no PVs and keep paths. -/
theorem call
    {op : Op}
    {answers : Answers}
    {world later : World}
    {reply : op.Reply}
    (creates : op.createdName = none)
    (executed : exec op answers world = some (reply, later)) :
    PathsKept world.pvs later.pvs := by
  rcases or_created executed with kept | ⟨pv, rfl, _⟩
  · exact kept
  · cases creates

end PathsKept

/-- A new PV keeps paths distinct if no PV of another name has its path. -/
theorem PathsUnique.put
    {pvs : PVStore}
    {pv : PersistentVolume}
    {path : String}
    (unique : PathsUnique pvs)
    (atPath : pv.localPath = some path)
    (only : UsedOnlyBy pvs pv.name path) :
    PathsUnique (pvs.put pv) := by
  intro first second shared firstFound secondFound firstPath secondPath
  rw [ObjectStore.get_put] at firstFound secondFound
  split at firstFound
  · rename_i firstNew
    cases firstFound
    split at secondFound
    · rename_i secondNew
      exact secondNew.symm
    · obtain rfl : path = shared :=
        Option.some.inj (atPath.symm.trans firstPath)
      exact (only second secondFound secondPath).symm
  · split at secondFound
    · cases secondFound
      obtain rfl : path = shared :=
        Option.some.inj (atPath.symm.trans secondPath)
      exact only first firstFound firstPath
    · exact unique first second shared firstFound secondFound firstPath
        secondPath

/-- From the look-up on, a pass knows that no other PV has the path. -/
def UnusedKnown (world : World) : Phase → Prop
  | .tracking (.create pvName path) _ => UsedOnlyBy world.pvs pvName path
  | _ => True

namespace UnusedKnown

variable {phase : Phase} {world later : World}

theorem home (world : World) (purpose : Purpose) :
    UnusedKnown world purpose.home := by
  cases purpose <;> trivial

/-- PVs that keep their paths keep what is known. -/
theorem mono
    (known : UnusedKnown world phase)
    (kept : PathsKept world.pvs later.pvs) :
    UnusedKnown later phase := by
  rcases phase with _ | _ | _ | ⟨_ | _, stage⟩
  · trivial
  · trivial
  · trivial
  · trivial
  · exact kept.usedOnlyBy known

/-- Silent steps of a pass. -/
theorem silent
    {next : Phase}
    (moved : Phase.Silent phase next) :
    UnusedKnown world next := by
  cases moved with
  | pick _ _ => trivial
  | giveUp => exact home world _
  | finishScan => trivial

/-- An empty look-up of a complete cache shows that the path is free. -/
theorem lookup
    {pvName path : String}
    (cached : usersCached world (.lookupPVsByPath pvName path) = true)
    (unused : VolumeCache.lookupPVsByPath world.cache path = []) :
    UsedOnlyBy world.pvs pvName path := by
  intro pv stored atPath
  by_contra otherName
  have listed : pv ∈ world.pvs.list := ObjectStore.mem_list.mpr stored
  have found := List.all_eq_true.mp cached pv listed
  rw [decide_eq_true_eq, unused] at found
  exact absurd (found atPath otherName) List.not_mem_nil

/-- What is known does not depend on the stage. -/
theorem atStage
    {purpose : Purpose}
    {stage : Stage}
    (known : UnusedKnown world (.tracking purpose stage))
    (next : Stage) :
    UnusedKnown world (.tracking purpose next) := by
  cases purpose with
  | reclaim listed pv => trivial
  | create pvName path => exact known

/-- Every allowed call of a run with a complete cache carries it along. -/
theorem call
    {scope : Scope}
    {op : Op}
    {answers : Answers}
    {reply : op.Reply}
    (known : UnusedKnown world phase)
    (allowed : Allowed scope phase op)
    (cached : usersCached world op = true)
    (executed : exec op answers world = some (reply, later)) :
    UnusedKnown later (phase.after op reply) := by
  cases allowed with
  | probe probing =>
      obtain ⟨reports, ready, rfl⟩ := exec_of_probing probing executed
      rw [Phase.after_of_probing probing]
      exact known.mono (.refl _)
  | list => trivial
  | get =>
      simp only [Phase.after]
      split <;> trivial
  | lookup =>
      cases executed
      simp only [Phase.after]
      split
      · rename_i unused
        exact lookup cached unused
      · trivial
  | @askProcess purpose _ | @askJob purpose _ =>
      cases executed
      simp only [Phase.after]
      split
      · exact home world purpose
      · exact known.atStage _
  | @takeEntry purpose =>
      have afterwards := known.mono (PathsKept.call rfl executed)
      simp only [Phase.after]
      split
      · exact afterwards.atStage _
      · exact home later purpose
  | @findJob purpose =>
      have afterwards := known.mono (PathsKept.call rfl executed)
      simp only [Phase.after]
      split
      · exact afterwards.atStage _
      · exact afterwards.atStage _
      · exact home later purpose
  | @takeJob purpose job namespaceName _ =>
      have afterwards := known.mono (PathsKept.call rfl executed)
      simp only [Phase.after]
      split
      · exact afterwards.atStage _
      · exact home later purpose
  | deletePV => trivial
  | spawnCleaner => trivial
  | createJob _ _ => trivial
  | createPV _ => trivial

end UnusedKnown

/-- Every allowed call keeps paths distinct. -/
theorem PathsUnique.call
    {scope : Scope}
    {phase : Phase}
    {op : Op}
    {answers : Answers}
    {world later : World}
    {reply : op.Reply}
    (unique : PathsUnique world.pvs)
    (known : UnusedKnown world phase)
    (allowed : Allowed scope phase op)
    (executed : exec op answers world = some (reply, later)) :
    PathsUnique later.pvs := by
  rcases PathsKept.or_created executed with kept | ⟨pv, rfl, same⟩
  · exact kept.unique unique
  · rw [same]
    cases allowed with
    | probe probing => exact probing.elim
    | createPV atPath => exact unique.put atPath known

/-- Paths are distinct, and the pass knows which path is free. -/
structure PathAssertion (phase : Phase) (world : World) : Prop where
  unique : PathsUnique world.pvs
  known : UnusedKnown world phase

/-- Runs with complete look-ups carry the distinctness of paths. -/
theorem cachedUsersMode_carried :
    Carried cachedUsersMode .all PathAssertion where
  flags := fun _ _ => trivial
  outline := {
    silent := fun moved holds => ⟨holds.unique, .silent moved⟩
    call := fun allowed holds cached executed =>
      ⟨syncProtocol_admits trivial _ _,
        holds.unique.call holds.known allowed executed,
        holds.known.call allowed cached executed⟩
  }
  initially := {
    unique := by
      intro first second path firstFound
      simp [World.empty] at firstFound
    known := trivial
  }
  disturbed := fun holds _ moved =>
    ⟨(PathsKept.disturbed moved).unique holds.unique,
      holds.known.mono (.disturbed moved)⟩
  reloaded := fun holds => ⟨holds.unique, trivial⟩
  restarted := fun _ holds => ⟨holds.unique, trivial⟩

/--
In a run in which every path look-up finds all other PVs of its path, no two
PVs at the API server ever have the same path.
-/
theorem pathsUnique_of_cachedUsers
    {state : SyncState}
    (reaches : cachedUsersMode.Reaches state) :
    PathsUnique state.world.pvs := by
  obtain ⟨phase, holds⟩ := cachedUsersMode_carried.assertion_of_reaches reaches
  exact holds.unique

/-- Two classes that share a host directory. -/
def sharedDirClasses : GoMap MountConfig :=
  AList.insert "slow" (sampleMount "/mnt/disks" "/mnt/slow") sampleClasses

/-- A pass over both classes, up to the creation of the first PV. -/
def firstClassCreation : List Action :=
  [.beginPass, .call {}, .call { order := [0, 1] }] ++ sampleDiscovery 2 ++
    sampleCalls 1

/-- The cache hears of the first PV, and the second class finds it in use. -/
def promptCacheRun : List Action :=
  firstClassCreation ++ [.disturb .deliverPV] ++ sampleCalls 3 ++
    [.call { storageClass := .ok { reclaimPolicy := none, mountOptions := [] } },
      .call { names := .ok ["volume"] }, .call {}, .call {}, .call {},
      .call { probe := .ok true }, .call {}, .call {}]

/-- A run with a prompt cache that leaves one PV for the path. -/
theorem pathsUnique_of_promptCacheRun :
    ∃ state,
      cachedUsersMode.Reaches state ∧
        state.world.pvs.list.length = 1 ∧
        PathsUnique state.world.pvs := by
  obtain ⟨state, reaches, checked⟩ :=
    cachedUsersMode.reaches_of_sampleRun false sharedDirClasses promptCacheRun
      (fun state => state.world.pvs.list.length == 1) trivial
      (by decide +kernel)
  exact ⟨state, reaches, beq_iff_eq.mp checked,
    pathsUnique_of_cachedUsers reaches⟩

/-- Do two listed PVs of different names have the same path? -/
def sharesPath (pvs : PVStore) (path : String) : Bool :=
  pvs.list.any fun first =>
    pvs.list.any fun second =>
      first.localPath == some path && second.localPath == some path &&
        first.name != second.name

/-- A shared path is not unique. -/
theorem not_pathsUnique_of_sharesPath
    {pvs : PVStore}
    {path : String}
    (shares : sharesPath pvs path = true) :
    ¬ PathsUnique pvs := by
  intro unique
  obtain ⟨first, firstListed, others⟩ := List.any_eq_true.mp shares
  obtain ⟨second, secondListed, same⟩ := List.any_eq_true.mp others
  simp only [Bool.and_eq_true, beq_iff_eq, bne_iff_ne] at same
  have firstStored := ObjectStore.mem_list.mp firstListed
  have secondStored := ObjectStore.mem_list.mp secondListed
  exact same.2 (unique first second path firstStored secondStored same.1.1
    same.1.2)

/-- Both classes create a PV before the cache hears of either. -/
def laggingCacheRun : List Action :=
  firstClassCreation ++ sampleCalls 3 ++ sampleDiscovery 2 ++ sampleCalls 1

/-- A lagging cache lets two classes create PVs for one path. -/
theorem paths_shared_after_laggingCacheRun :
    ∃ state,
      anyMode.Reaches state ∧ ¬ PathsUnique state.world.pvs := by
  obtain ⟨state, reaches, checked⟩ :=
    anyMode.reaches_of_sampleRun false sharedDirClasses laggingCacheRun
      (fun state => sharesPath state.world.pvs "/mnt/disks/volume") trivial
      (by decide +kernel)
  exact ⟨state, reaches, not_pathsUnique_of_sharesPath checked⟩

end LocalProvisioner
