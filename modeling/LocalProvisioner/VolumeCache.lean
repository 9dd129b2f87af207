import LocalProvisioner.Deleter
import LocalProvisioner.ObjectStore

namespace LocalProvisioner

/-!
# The volume cache and its populator

`VolumeCache` maps PV names to PV objects under one mutex.  The `Populator`
feeds it from the PV informer, one notification at a time, and lets in only
the PVs that this provisioner owns.
-/

/-- `VolumeCache` without its mutex. -/
abbrev VolumeCache := ObjectStore PersistentVolume PersistentVolume.name

namespace VolumeCache

/-- `NewVolumeCache`. -/
def newVolumeCache : VolumeCache :=
  .empty

/-- `GetPV`. -/
def getPV (cache : VolumeCache) (pvName : String) : Option PersistentVolume :=
  cache.get pvName

/-- `AddPV`. -/
def addPV (cache : VolumeCache) (pv : PersistentVolume) : VolumeCache :=
  cache.put pv

/-- `UpdatePV`. -/
def updatePV (cache : VolumeCache) (pv : PersistentVolume) : VolumeCache :=
  cache.put pv

/-- `DeletePV`. -/
def deletePV (cache : VolumeCache) (pvName : String) : VolumeCache :=
  cache.drop pvName

/-- `ListPVs`, in the entry order of the map. -/
def listPVs (cache : VolumeCache) : List PersistentVolume :=
  cache.list

/-- `LookupPVsByPath`, in the entry order of the map. -/
def lookupPVsByPath (cache : VolumeCache) (filePath : String) : List String :=
  (cache.list.filter fun pv => pv.localPath = some filePath).map
    PersistentVolume.name

/-- Looking a path up finds the cached PVs that have it. -/
theorem mem_lookupPVsByPath
    {cache : VolumeCache}
    {pvName filePath : String} :
    pvName ∈ lookupPVsByPath cache filePath ↔
      ∃ pv, getPV cache pvName = some pv ∧ pv.localPath = some filePath := by
  unfold lookupPVsByPath getPV
  simp only [List.mem_map, List.mem_filter, ObjectStore.mem_list,
    decide_eq_true_eq]
  constructor
  · intro listed
    obtain ⟨pv, ⟨cached, atPath⟩, rfl⟩ := listed
    exact ⟨pv, cached, atPath⟩
  · intro listed
    obtain ⟨pv, cached, atPath⟩ := listed
    have sameName : pv.name = pvName := ObjectStore.name_of_get cached
    subst pvName
    exact ⟨pv, ⟨cached, atPath⟩, rfl⟩

/-- Nothing is found exactly if no cached PV has the path. -/
theorem isEmpty_lookupPVsByPath (cache : VolumeCache) (filePath : String) :
    (lookupPVsByPath cache filePath).isEmpty =
      (listPVs cache).all fun pv => decide (pv.localPath ≠ some filePath) := by
  rw [Bool.eq_iff_iff, List.isEmpty_iff, List.eq_nil_iff_forall_not_mem,
    List.all_eq_true]
  simp only [mem_lookupPVsByPath, decide_eq_true_eq]
  constructor
  · intro unused pv listed atPath
    exact unused pv.name ⟨pv, ObjectStore.mem_list.mp listed, atPath⟩
  · rintro unused pvName ⟨pv, cached, atPath⟩
    exact unused pv (ObjectStore.mem_list.mpr (ObjectStore.get_name cached))
      atPath

end VolumeCache

/-- The ownership test of `handlePVUpdate` for a PV that is not cached. -/
def ownsPV (runtime : RuntimeConfig) (pv : PersistentVolume) : Bool :=
  match pv.annotations.lookup annProvisionedBy with
  | none => false
  | some provisioner =>
      if provisioner = runtime.name then
        true
      else if runtime.useNodeNameOnly then
        match pv.labels.lookup hostnameLabel with
        | none => false
        | some nodeLabel =>
            if nodeLabel ≠ runtime.node.name then
              false
            else
              hasPrefix provisioner (runtime.name ++ "-")
      else
        false

/-- `handlePVUpdate`. -/
def handlePVUpdate
    (runtime : RuntimeConfig)
    (cache : VolumeCache)
    (pv : PersistentVolume) :
    VolumeCache :=
  match VolumeCache.getPV cache pv.name with
  | some _ => VolumeCache.updatePV cache pv
  | none =>
      if ownsPV runtime pv then VolumeCache.addPV cache pv else cache

/-- `handlePVDelete`. -/
def handlePVDelete (cache : VolumeCache) (pv : PersistentVolume) :
    VolumeCache :=
  match VolumeCache.getPV cache pv.name with
  | some _ => VolumeCache.deletePV cache pv.name
  | none => cache

/-- An update lets a PV in if its name is cached already or it is owned. -/
theorem getPV_handlePVUpdate
    (runtime : RuntimeConfig)
    (cache : VolumeCache)
    (pv : PersistentVolume)
    (pvName : String) :
    VolumeCache.getPV (handlePVUpdate runtime cache pv) pvName =
      if pvName = pv.name ∧
          ((VolumeCache.getPV cache pv.name).isSome ∨ ownsPV runtime pv) then
        some pv
      else
        VolumeCache.getPV cache pvName := by
  unfold handlePVUpdate
  cases cached : VolumeCache.getPV cache pv.name with
  | some _ =>
      simp [VolumeCache.updatePV, VolumeCache.getPV, ObjectStore.get_put]
  | none =>
      cases owned : ownsPV runtime pv <;>
        simp [VolumeCache.addPV, VolumeCache.getPV, ObjectStore.get_put]

/-- A deletion takes the name out of the cache and nothing else. -/
theorem getPV_handlePVDelete
    (cache : VolumeCache)
    (pv : PersistentVolume)
    (pvName : String) :
    VolumeCache.getPV (handlePVDelete cache pv) pvName =
      if pvName = pv.name then none else VolumeCache.getPV cache pvName := by
  unfold handlePVDelete
  cases cached : VolumeCache.getPV cache pv.name with
  | some _ =>
      simp [VolumeCache.deletePV, VolumeCache.getPV, ObjectStore.get_drop]
  | none =>
      by_cases same : pvName = pv.name
      · subst pvName
        simp [cached]
      · simp [same]

end LocalProvisioner
