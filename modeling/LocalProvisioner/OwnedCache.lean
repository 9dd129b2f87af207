import LocalProvisioner.SyncLoop

namespace LocalProvisioner

/-!
# The cache as the owned part of the informer store

`NewPopulator` registers three handlers with the PV informer.  The informer
keeps a store of all PVs of the cluster and notifies the handlers of each
change of that store, so the cache is a view of the store, computed one
notification at a time.  This module says when the view is exact.

`handlePVUpdate` applies the ownership test only to names that are not cached.
An update that takes a cached PV out of the provisioner's ownership therefore
leaves it in the cache.
-/

/-- What the informer hands to a handler as `interface{}`. -/
inductive InformerObject where
  | pv : PersistentVolume → InformerObject
  /-- `cache.DeletedFinalStateUnknown`. -/
  | tombstone : InformerObject → InformerObject
  | unknown : InformerObject

/-- A notification of the PV informer. -/
inductive Notification where
  | added : (obj : InformerObject) → Notification
  | updated : (oldObj newObj : InformerObject) → Notification
  | deleted : (obj : InformerObject) → Notification

/-- The handlers that `NewPopulator` registers. -/
def handleNotification (runtime : RuntimeConfig) (cache : VolumeCache) :
    Notification → VolumeCache
  | .added (.pv pv) => handlePVUpdate runtime cache pv
  | .added _ => cache
  | .updated _ (.pv newPV) => handlePVUpdate runtime cache newPV
  | .updated _ _ => cache
  | .deleted (.pv pv) => handlePVDelete cache pv
  | .deleted (.tombstone (.pv pv)) => handlePVDelete cache pv
  | .deleted _ => cache

/-- A cache after some more notifications. -/
def populate
    (runtime : RuntimeConfig)
    (cache : VolumeCache)
    (notifications : List Notification) :
    VolumeCache :=
  notifications.foldl (handleNotification runtime) cache

/-- The PVs the informer knows of. -/
abbrev InformerStore := ObjectStore PersistentVolume PersistentVolume.name

/--
What a notification says happened to the informer's store: an absent name was
added, a present one was updated or deleted.  The new object of an update need
not be the same PV, and the object of a deletion need not be the stored
version.
-/
inductive Notification.Changes (store : InformerStore) :
    Notification → InformerStore → Prop where
  | add (pv : PersistentVolume) :
      store.get pv.name = none →
      Changes store (.added (.pv pv)) (store.put pv)
  | update (oldPV newPV : PersistentVolume) :
      store.get newPV.name = some oldPV →
      Changes store (.updated (.pv oldPV) (.pv newPV)) (store.put newPV)
  | delete (pv : PersistentVolume) :
      (store.get pv.name).isSome →
      Changes store (.deleted (.pv pv)) (store.drop pv.name)
  | deleteUnseen (pv : PersistentVolume) :
      (store.get pv.name).isSome →
      Changes store (.deleted (.tombstone (.pv pv))) (store.drop pv.name)

/-- A sequence of notifications leads from one store to another. -/
inductive Leads : InformerStore → List Notification → InformerStore → Prop where
  | refl (store : InformerStore) :
      Leads store [] store
  | cons
      {store middle later : InformerStore}
      {notification : Notification}
      {rest : List Notification} :
      notification.Changes store middle →
      Leads middle rest later →
      Leads store (notification :: rest) later

/--
The populator's ownership test: the PV was provisioned under this provisioner's
name, or, with `UseNodeNameOnly`, for this node and under a name that extends
it by a dash and more.
-/
def Owned (runtime : RuntimeConfig) (pv : PersistentVolume) : Prop :=
  pv.annotations.lookup annProvisionedBy = some runtime.name ∨
    runtime.useNodeNameOnly = true ∧
      pv.labels.lookup hostnameLabel = some runtime.node.name ∧
      ∃ provisioner,
        pv.annotations.lookup annProvisionedBy = some provisioner ∧
        hasPrefix provisioner (runtime.name ++ "-") = true

/-- The branches of `handlePVUpdate` compute the ownership test. -/
theorem ownsPV_iff (runtime : RuntimeConfig) (pv : PersistentVolume) :
    ownsPV runtime pv = true ↔ Owned runtime pv := by
  unfold ownsPV Owned
  cases pv.annotations.lookup annProvisionedBy with
  | none => simp
  | some provisioner =>
      by_cases named : provisioner = runtime.name
      · simp [named]
      · cases labelled : pv.labels.lookup hostnameLabel <;>
          cases runtime.useNodeNameOnly <;>
          simp [named]

/-- The cache holds the stored PVs that are owned, in their stored version. -/
def CacheExact
    (runtime : RuntimeConfig)
    (store : InformerStore)
    (cache : VolumeCache) :
    Prop :=
  ∀ pvName pv,
    VolumeCache.getPV cache pvName = some pv ↔
      store.get pvName = some pv ∧ Owned runtime pv

/-- An update does not take an owned PV out of the provisioner's ownership. -/
def Notification.KeepsOwner (runtime : RuntimeConfig) : Notification → Prop
  | .updated (.pv oldPV) (.pv newPV) => Owned runtime oldPV → Owned runtime newPV
  | _ => True

section Step

variable {runtime : RuntimeConfig} {store : InformerStore} {cache : VolumeCache}

/-- An exact cache has a name exactly if the stored PV is owned. -/
theorem CacheExact.isSome_getPV_iff
    (exact : CacheExact runtime store cache)
    {pvName : String}
    {pv : PersistentVolume}
    (stored : store.get pvName = some pv) :
    (VolumeCache.getPV cache pvName).isSome ↔ Owned runtime pv := by
  rw [Option.isSome_iff_exists]
  constructor
  · rintro ⟨cached, found⟩
    obtain ⟨same, owned⟩ := (exact pvName cached).mp found
    rw [stored] at same
    cases same
    exact owned
  · intro owned
    exact ⟨pv, (exact pvName pv).mpr ⟨stored, owned⟩⟩

/-- An exact cache lacks the names the store lacks. -/
theorem CacheExact.getPV_eq_none
    (exact : CacheExact runtime store cache)
    {pvName : String}
    (absent : store.get pvName = none) :
    VolumeCache.getPV cache pvName = none := by
  rw [Option.eq_none_iff_forall_not_mem]
  intro pv cached
  obtain ⟨stored, -⟩ := (exact pvName pv).mp cached
  rw [absent] at stored
  cases stored

/-- Handling a stored object is exact if an unowned one meets no cached name. -/
theorem CacheExact.handlePVUpdate_iff
    (exact : CacheExact runtime store cache)
    (pv : PersistentVolume) :
    CacheExact runtime (store.put pv) (handlePVUpdate runtime cache pv) ↔
      ((VolumeCache.getPV cache pv.name).isSome → Owned runtime pv) := by
  constructor
  · intro exactAfter cached
    have found :
        VolumeCache.getPV (handlePVUpdate runtime cache pv) pv.name =
          some pv := by
      simp [getPV_handlePVUpdate, cached]
    exact ((exactAfter pv.name pv).mp found).2
  · intro ownedIfCached pvName found
    rw [getPV_handlePVUpdate, ObjectStore.get_put]
    by_cases same : pvName = pv.name
    · subst pvName
      by_cases owned : Owned runtime pv
      · have owns := (ownsPV_iff runtime pv).mpr owned
        simp only [owns, or_true, and_self, if_true, Option.some.injEq]
        constructor
        · rintro rfl
          exact ⟨rfl, owned⟩
        · rintro ⟨rfl, -⟩
          rfl
      · have notCached : ¬ (VolumeCache.getPV cache pv.name).isSome = true :=
          fun cached => owned (ownedIfCached cached)
        have skipped :
            ¬ (pv.name = pv.name ∧
              ((VolumeCache.getPV cache pv.name).isSome ∨
                ownsPV runtime pv)) := by
          rintro ⟨-, cached | owns⟩
          · exact notCached cached
          · exact owned ((ownsPV_iff runtime pv).mp owns)
        rw [if_neg skipped, if_pos rfl]
        constructor
        · intro cached
          rw [cached] at notCached
          simp at notCached
        · rintro ⟨same, ownedFound⟩
          cases same
          exact (owned ownedFound).elim
    · simp only [same, false_and, if_false]
      exact exact pvName found

/-- Handling a deletion keeps the cache exact. -/
theorem CacheExact.handlePVDelete
    (exact : CacheExact runtime store cache)
    (pv : PersistentVolume) :
    CacheExact runtime (store.drop pv.name) (handlePVDelete cache pv) := by
  intro pvName found
  rw [getPV_handlePVDelete, ObjectStore.get_drop]
  by_cases same : pvName = pv.name
  · simp [same]
  · simp only [same, if_false]
    exact exact pvName found

/-- One notification keeps the cache exact if it keeps the owner. -/
theorem CacheExact.handleNotification_iff
    (exact : CacheExact runtime store cache)
    {notification : Notification}
    {later : InformerStore}
    (changes : notification.Changes store later) :
    CacheExact runtime later (handleNotification runtime cache notification) ↔
      notification.KeepsOwner runtime := by
  cases changes with
  | add pv absent =>
      have notCached := exact.getPV_eq_none absent
      have exactAfter :
          CacheExact runtime (store.put pv) (handlePVUpdate runtime cache pv) :=
        (exact.handlePVUpdate_iff pv).mpr (by simp [notCached])
      exact iff_of_true exactAfter trivial
  | update oldPV newPV stored =>
      change CacheExact runtime _ (handlePVUpdate runtime cache newPV) ↔
        (Owned runtime oldPV → Owned runtime newPV)
      rw [exact.handlePVUpdate_iff newPV, exact.isSome_getPV_iff stored]
  | delete pv _ =>
      exact iff_of_true (exact.handlePVDelete pv) trivial
  | deleteUnseen pv _ =>
      exact iff_of_true (exact.handlePVDelete pv) trivial

/-- From an exact cache on, it stays exact as long as updates keep the owner. -/
theorem CacheExact.populate_iff
    (exact : CacheExact runtime store cache)
    {notifications : List Notification}
    {last : InformerStore}
    (leads : Leads store notifications last) :
    (∀ seen later,
      seen <+: notifications →
      Leads store seen later →
      CacheExact runtime later (populate runtime cache seen)) ↔
      ∀ notification ∈ notifications, notification.KeepsOwner runtime := by
  induction leads generalizing cache with
  | refl store =>
      simp only [List.not_mem_nil, false_implies, implies_true, iff_true]
      intro seen later fromStart led
      obtain rfl := List.prefix_nil.mp fromStart
      cases led
      exact exact
  | @cons store middle later notification rest changes _ inductionHypothesis =>
      rw [List.forall_mem_cons, ← exact.handleNotification_iff changes]
      constructor
      · intro always
        have exactNext :
            CacheExact runtime middle (handleNotification runtime cache notification) :=
          always [notification] middle (by simp) (.cons changes (.refl _))
        refine ⟨exactNext, (inductionHypothesis exactNext).mp ?_⟩
        intro seen later fromStart led
        exact always (notification :: seen) later
          (List.cons_prefix_cons.mpr ⟨rfl, fromStart⟩) (.cons changes led)
      · rintro ⟨exactNext, keeps⟩ seen later fromStart led
        cases led with
        | refl => exact exact
        | @cons _ other _ _ seen changesToo led =>
            obtain ⟨rfl, fromNext⟩ := List.cons_prefix_cons.mp fromStart
            obtain rfl : middle = other := by
              cases changes <;> cases changesToo <;> rfl
            exact (inductionHypothesis exactNext).mpr keeps seen later
              fromNext led

end Step

/--
From a new populator on, the cache is the owned part of the informer's store
after every notification if and only if no update takes an owned PV out of the
provisioner's ownership.
-/
theorem cache_exact_iff_updates_keep_owner
    (runtime : RuntimeConfig)
    (notifications : List Notification)
    (last : InformerStore)
    (leads : Leads .empty notifications last) :
    (∀ seen later,
      seen <+: notifications →
      Leads .empty seen later →
      CacheExact runtime later
        (populate runtime VolumeCache.newVolumeCache seen)) ↔
      ∀ notification ∈ notifications, notification.KeepsOwner runtime := by
  have exactAtFirst : CacheExact runtime .empty VolumeCache.newVolumeCache := by
    intro pvName pv
    simp [VolumeCache.newVolumeCache, VolumeCache.getPV]
  exact exactAtFirst.populate_iff leads

/-- A PV of the sample node, as it was provisioned or with other annotations. -/
def sampleCachedPV (annotations : GoMap String) : PersistentVolume :=
  { sampleReleasedPV 1 with annotations := annotations }

/-- The annotation that `createPV` puts on a PV of the sample node. -/
def sampleOwner : GoMap String :=
  AList.insert annProvisionedBy "local-volume-provisioner-node-1" ∅

/-- A PV is added, updated and deleted by a tombstone. -/
def sampleNotifications (annotations : GoMap String) : List Notification :=
  [.added (.pv (sampleCachedPV sampleOwner)),
    .updated (.pv (sampleCachedPV sampleOwner))
      (.pv (sampleCachedPV annotations)),
    .deleted (.tombstone (.pv (sampleCachedPV annotations)))]

theorem leads_sampleNotifications (annotations : GoMap String) :
    ∃ last, Leads .empty (sampleNotifications annotations) last := by
  refine ⟨_, .cons (.add _ ?_) (.cons (.update _ _ ?_)
    (.cons (.deleteUnseen _ ?_) (.refl _)))⟩
  · simp
  · simp [sampleCachedPV]
  · simp

theorem cache_exact_of_kept_annotations :
    ∃ later,
      Leads .empty (sampleNotifications sampleOwner) later ∧
        CacheExact (sampleRuntime false sampleClasses) later
          (populate (sampleRuntime false sampleClasses)
            VolumeCache.newVolumeCache (sampleNotifications sampleOwner)) := by
  obtain ⟨last, leads⟩ := leads_sampleNotifications sampleOwner
  have owned :
      Owned (sampleRuntime false sampleClasses) (sampleCachedPV sampleOwner) :=
    (ownsPV_iff _ _).mp (by decide +kernel)
  have keeps :
      ∀ notification ∈ sampleNotifications sampleOwner,
        notification.KeepsOwner (sampleRuntime false sampleClasses) := by
    intro notification member
    simp only [sampleNotifications, List.mem_cons, List.not_mem_nil, or_false]
      at member
    rcases member with rfl | rfl | rfl
    · trivial
    · exact fun _ => owned
    · trivial
  have exactAlways :=
    (cache_exact_iff_updates_keep_owner _ _ last leads).mpr keeps
  exact ⟨last, leads, exactAlways _ last List.prefix_rfl leads⟩

/-- A PV whose annotation is taken away stays in the cache. -/
theorem cache_not_exact_after_annotation_removed :
    ¬ ∀ (runtime : RuntimeConfig)
        (notifications : List Notification)
        (last : InformerStore),
      Leads .empty notifications last →
      CacheExact runtime last
        (populate runtime VolumeCache.newVolumeCache notifications) := by
  intro always
  have exact :=
    always (sampleRuntime false sampleClasses)
      [.added (.pv (sampleCachedPV sampleOwner)),
        .updated (.pv (sampleCachedPV sampleOwner)) (.pv (sampleCachedPV ∅))]
      _ (.cons (.add _ (by simp))
        (.cons (.update _ _ (by simp [sampleCachedPV]))
          (.refl _)))
  obtain ⟨-, owned⟩ := (exact sampleName (sampleCachedPV ∅)).mp rfl
  have owns := (ownsPV_iff _ _).mpr owned
  revert owns
  decide +kernel

end LocalProvisioner
