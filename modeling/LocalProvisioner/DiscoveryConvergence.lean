import LocalProvisioner.DiscoveryPass

namespace LocalProvisioner

open Interleaving

/-!
# Discovery converges

Once the populator has been told of the PVs that a discovery pass has created,
a further pass over the same files leaves them alone.  The name under which
`createPV` creates a PV, the provisioner that it writes into the annotation, the
ownership test of the populator and the two lookups in the cache have to agree
for this.
-/

/--
The file system and the storage classes are the same in both passes.  The API
server, the clock and the order of the classes may answer differently.
-/
structure SameFiles (first second : Op → Answers) : Prop where
  classes :
    ∀ name,
      (second (.getStorageClass name)).storageClass =
        (first (.getStorageClass name)).storageClass
  listings :
    ∀ path, (second (.readDir path)).names = (first (.readDir path)).names
  mounts : (second .listMounts).names = (first .listMounts).names
  directories :
    ∀ path, (second (.isDir path)).probe = (first (.isDir path)).probe
  devices :
    ∀ path, (second (.isBlock path)).probe = (first (.isBlock path)).probe
  blockCapacities :
    ∀ path,
      (second (.getBlockCapacityByte path)).bytes =
        (first (.getBlockCapacityByte path)).bytes
  fsCapacities :
    ∀ hostPath mountPath,
      (second (.getFsCapacityByte hostPath mountPath)).bytes =
        (first (.getFsCapacityByte hostPath mountPath)).bytes

/-- The populator handles these notices in turn. -/
def deliver
    (runtime : RuntimeConfig)
    (cache : VolumeCache)
    (notices : List (Notice PersistentVolume)) :
    VolumeCache :=
  notices.foldl (World.handlePVNotice runtime) cache

section Delivery

variable {runtime : RuntimeConfig}
variable {created : List PersistentVolume}

/-- The PVs under other names stay as they are. -/
theorem getPV_deliver_of_notMem
    (owned : ∀ pv ∈ created, ownsPV runtime pv = true)
    (cache : VolumeCache)
    {pvName : String}
    (elsewhere : ∀ pv ∈ created, pv.name ≠ pvName) :
    VolumeCache.getPV (deliver runtime cache (created.map .updated)) pvName =
      VolumeCache.getPV cache pvName := by
  induction created generalizing cache with
  | nil => rfl
  | cons pv rest inductionHypothesis =>
      have others :=
        inductionHypothesis (fun other member => owned other (by simp [member]))
          (handlePVUpdate runtime cache pv)
          (fun other member => elsewhere other (by simp [member]))
      have apart : ¬ pvName = pv.name := fun same =>
        elsewhere pv (by simp) same.symm
      rw [getPV_handlePVUpdate, if_neg fun both => apart both.1] at others
      exact others

/-- Every PV that is told of is cached. -/
theorem getPV_deliver_of_mem
    (owned : ∀ pv ∈ created, ownsPV runtime pv = true)
    (agree :
      ∀ pv ∈ created, ∀ other ∈ created, pv.name = other.name → pv = other)
    (cache : VolumeCache)
    {pv : PersistentVolume}
    (told : pv ∈ created) :
    VolumeCache.getPV (deliver runtime cache (created.map .updated)) pv.name =
      some pv := by
  induction created generalizing cache with
  | nil => cases told
  | cons first rest inductionHypothesis =>
      have ownedRest : ∀ other ∈ rest, ownsPV runtime other = true :=
        fun other member => owned other (by simp [member])
      by_cases again : ∃ other ∈ rest, other.name = pv.name
      · -- a later notice has the name, and so it is the same PV
        obtain ⟨other, member, sameName⟩ := again
        obtain rfl : pv = other :=
          agree pv told other (by simp [member]) sameName.symm
        exact inductionHypothesis ownedRest
          (fun one oneMember two twoMember =>
            agree one (by simp [oneMember]) two (by simp [twoMember]))
          (handlePVUpdate runtime cache first) member
      · have elsewhere : ∀ other ∈ rest, other.name ≠ pv.name :=
          fun other member same => again ⟨other, member, same⟩
        obtain rfl : pv = first := by
          rcases List.mem_cons.mp told with same | member
          · exact same
          · exact (elsewhere pv member rfl).elim
        have kept :=
          getPV_deliver_of_notMem ownedRest (handlePVUpdate runtime cache pv)
            elsewhere
        rw [getPV_handlePVUpdate,
          if_pos ⟨rfl, .inr (owned pv (by simp))⟩] at kept
        exact kept

end Delivery

namespace ClassPass

variable {pass : ClassPass}
variable {file : String}
variable {pv : PersistentVolume}

/-- A PV is requested for a file whose name and path no cached PV has. -/
theorem free_of_request?
    (requested : pass.request? file = some pv) :
    pass.cachedPV file = none ∧ pass.pathInUse file = false := by
  unfold request? at requested
  split at requested
  · rename_i mode bytes decided
    obtain ⟨-, uncached, unused, -⟩ := verdict_eq_volume_iff.mp decided
    exact ⟨uncached, unused⟩
  · cases requested

/-- It has the name and path of the file, and is the provisioner's own. -/
theorem identity_of_request?
    (requested : pass.request? file = some pv) :
    pv.name = pass.pvName file ∧
      pv.localPath = some (pass.outsidePath file) ∧
      ownsPV pass.discoverer.toRuntimeConfig pv = true := by
  unfold request? at requested
  split at requested
  · rename_i mode bytes decided
    obtain ⟨storage, -, built⟩ := Option.bind_eq_some_iff.mp requested
    obtain ⟨text, -, rfl⟩ := Option.map_eq_some_iff.mp built
    refine ⟨rfl, rfl, ?_⟩
    have annotated :
        (localPV pass.discoverer (pass.candidate storage file)
            storage.mountOptions bytes text).annotations.lookup
          annProvisionedBy = some pass.discoverer.name := by
      have apart : annProvisionedBy ≠ alphaNodeAffinityAnnotation := by
        decide
      simp only [localPV, createLocalPVSpec]
      split
      · rw [AList.lookup_insert_ne apart, AList.lookup_insert]
      · rw [AList.lookup_insert]
    simp [ownsPV, annotated]
  · cases requested

end ClassPass

namespace DiscoveryPass

/-- A further pass of the same discoverer. -/
def again (pass : DiscoveryPass) (oracle : Op → Answers) (world : World) :
    DiscoveryPass :=
  { pass with oracle, world }

/-- Every request is for a file of some class. -/
theorem WalkedClasses.exists_file
    {pass : DiscoveryPass}
    {classes : List (String × MountConfig)}
    {before later : World}
    {requests : ClassPass.Requests}
    (walked : pass.WalkedClasses classes before requests later)
    {request : PersistentVolume × Except ApiError Unit}
    (member : request ∈ requests) :
    ∃ entry ∈ classes,
    ∃ file ∈ (pass.ofClass entry).walked,
      (pass.ofClass entry).request? file = some request.1 := by
  have listed : request.1 ∈ classes.flatMap pass.requests := by
    rw [← walked.requested]
    exact List.mem_map_of_mem member
  obtain ⟨entry, configured, inClass⟩ := List.mem_flatMap.mp listed
  obtain ⟨file, inDirectory, requested⟩ := List.mem_filterMap.mp inClass
  exact ⟨entry, configured, file, inDirectory, requested⟩

section Again

variable {pass : DiscoveryPass}
variable {oracle : Op → Answers}
variable {world : World}
variable {entry : String × MountConfig}

/-- Both passes run the loop body for the same files. -/
theorem walked_again (sameFiles : SameFiles pass.oracle oracle) :
    ((pass.again oracle world).ofClass entry).walked =
      (pass.ofClass entry).walked := by
  have sameListing :
      ((pass.again oracle world).ofClass entry).listing? =
        (pass.ofClass entry).listing? := by
    simp only [ClassPass.listing?, ClassPass.class?, ClassPass.files?,
      ClassPass.mountPoints?, ofClass, again, sameFiles.classes,
      sameFiles.listings, sameFiles.mounts]
  simp only [ClassPass.walked, sameListing]
  rfl

/-- The modes of the files are the same, -/
theorem mode?_again
    (sameFiles : SameFiles pass.oracle oracle)
    (file : String) :
    ((pass.again oracle world).ofClass entry).mode? file =
      (pass.ofClass entry).mode? file := by
  simp only [ClassPass.mode?, ClassPass.filePath, ofClass, again,
    sameFiles.directories, sameFiles.devices]

/-- and so are their capacities. -/
theorem capacity?_again
    (sameFiles : SameFiles pass.oracle oracle)
    (file : String)
    (mode : VolumeMode) :
    ((pass.again oracle world).ofClass entry).capacity? file mode =
      (pass.ofClass entry).capacity? file mode := by
  cases mode with
  | block =>
      simp only [ClassPass.capacity?, ClassPass.filePath, ofClass, again,
        sameFiles.blockCapacities]
  | filesystem =>
      simp only [ClassPass.capacity?, ClassPass.filePath,
        ClassPass.outsidePath, ClassPass.mountPoints?, ofClass, again,
        sameFiles.mounts, sameFiles.fsCapacities]
      exact if_congr Iff.rfl rfl rfl
  | other name => rfl

/-- The PVs of the first cache are in the second one. -/
def Grown (earlier later : VolumeCache) : Prop :=
  ∀ pvName pv,
    VolumeCache.getPV earlier pvName = some pv →
    VolumeCache.getPV later pvName = some pv

/-- A path that is unused in a cache is unused in a smaller one. -/
theorem Grown.lookupPVsByPath_eq_nil
    {earlier later : VolumeCache}
    (grown : Grown earlier later)
    {path : String}
    (unused : VolumeCache.lookupPVsByPath later path = []) :
    VolumeCache.lookupPVsByPath earlier path = [] := by
  apply List.eq_nil_iff_forall_not_mem.mpr
  intro pvName listed
  obtain ⟨pv, cached, atPath⟩ := VolumeCache.mem_lookupPVsByPath.mp listed
  have stillListed :=
    VolumeCache.mem_lookupPVsByPath.mpr ⟨pv, grown pvName pv cached, atPath⟩
  rw [unused] at stillListed
  cases stillListed

/-- With in-process cleaning and no cleaner running, no status is in the way. -/
theorem removes_of_idle
    (inProcess : pass.discoverer.useJobForCleaning = false)
    (tracker : pass.world.procTable.Made)
    (idle : ∀ pvName, pass.world.procTable.isRunning pvName = false)
    (file : String)
    (mode : VolumeMode) :
    (pass.ofClass entry).cleaning file mode = false ∧
      (pass.ofClass entry).removes file mode = true := by
  have byTable : (pass.ofClass entry).usejob mode = false := by
    simp [ClassPass.usejob, ofClass, inProcess]
  obtain ⟨taken, removed⟩ :=
    ProcTable.removeEntry_ok (idle ((pass.ofClass entry).pvName file))
      (tracker.known _)
  have succeeds :
      ((pass.ofClass entry).world.procTable.removeEntry
        ((pass.ofClass entry).pvName file)).1 = .ok taken := removed
  constructor
  · rw [ClassPass.cleaning, byTable]
    exact idle _
  · rw [ClassPass.removes, byTable, succeeds]
    rfl

/-- What the further pass asks for, the first one has asked for. -/
theorem request?_of_again
    (inProcess : pass.discoverer.useJobForCleaning = false)
    (tracker : pass.world.procTable.Made)
    (idle : ∀ pvName, pass.world.procTable.isRunning pvName = false)
    (sameFiles : SameFiles pass.oracle oracle)
    (grown : Grown pass.world.cache world.cache)
    {file : String}
    {pv : PersistentVolume}
    (requested :
      ((pass.again oracle world).ofClass entry).request? file = some pv) :
    (pass.ofClass entry).request? file = some pv := by
  unfold ClassPass.request? at requested
  split at requested
  · rename_i mode bytes decided
    obtain ⟨determined, uncached, unused, -, -, readable⟩ :=
      ClassPass.verdict_eq_volume_iff.mp decided
    rw [mode?_again sameFiles] at determined
    rw [capacity?_again sameFiles] at readable
    have uncachedFirst : (pass.ofClass entry).cachedPV file = none := by
      cases cached : (pass.ofClass entry).cachedPV file with
      | none => rfl
      | some other => cases (grown _ _ cached).symm.trans uncached
    have unusedFirst : (pass.ofClass entry).pathInUse file = false := by
      have nowhere :
          VolumeCache.lookupPVsByPath
            ((pass.again oracle world).ofClass entry).world.cache
            (((pass.again oracle world).ofClass entry).outsidePath file) =
          [] := by
        simpa [ClassPass.pathInUse] using unused
      have nowhereFirst :
          VolumeCache.lookupPVsByPath (pass.ofClass entry).world.cache
            ((pass.ofClass entry).outsidePath file) = [] :=
        grown.lookupPVsByPath_eq_nil nowhere
      rw [ClassPass.pathInUse, nowhereFirst]
      rfl
    obtain ⟨idleFirst, removesFirst⟩ :=
      @removes_of_idle pass entry inProcess tracker idle file mode
    have decidedFirst :
        (pass.ofClass entry).verdict file = .volume mode bytes :=
      ClassPass.verdict_eq_volume_iff.mpr
        ⟨determined, uncachedFirst, unusedFirst, idleFirst, removesFirst,
          readable⟩
    have sameClass :
        ((pass.again oracle world).ofClass entry).class? =
          (pass.ofClass entry).class? :=
      sameFiles.classes entry.1
    rw [ClassPass.request?, decidedFirst, ← sameClass]
    exact requested
  · cases requested

end Again

end DiscoveryPass

/-- The PVs that the populator is told of after a pass. -/
structure Told
    (pass : DiscoveryPass)
    (requests : ClassPass.Requests)
    (created : List PersistentVolume) : Prop where
  owned :
    ∀ pv ∈ created,
      ownsPV pass.discoverer.toRuntimeConfig pv = true
  fresh :
    ∀ pv ∈ created, VolumeCache.getPV pass.world.cache pv.name = none
  agree :
    ∀ pv ∈ created, ∀ other ∈ created, pv.name = other.name → pv = other
  answered :
    ∀ request ∈ requests,
      request.2 = .ok () →
      ∃ uid, { request.1 with uid } ∈ created

namespace Told

variable {pass : DiscoveryPass}
variable {requests : ClassPass.Requests}
variable {created others : List PersistentVolume}

/-- What a pass queues. -/
theorem of_queued
    {classes : List (String × MountConfig)}
    {later : World}
    (walked : pass.WalkedClasses classes pass.world requests later)
    (queued : Queued pass.world requests later created) :
    Told pass requests created where
  owned := by
    intro pv member
    obtain ⟨request, requested, same⟩ := queued.asked pv member
    obtain ⟨entry, -, file, -, forFile⟩ := walked.exists_file requested
    rw [same]
    exact (ClassPass.identity_of_request? forFile).2.2
  fresh := by
    intro pv member
    obtain ⟨request, requested, same⟩ := queued.asked pv member
    obtain ⟨entry, -, file, -, forFile⟩ := walked.exists_file requested
    have named : pv.name = (pass.ofClass entry).pvName file := by
      rw [same]
      exact (ClassPass.identity_of_request? forFile).1
    rw [named]
    exact (ClassPass.free_of_request? forFile).1
  agree := by
    intro pv member other otherMember sameName
    have stored := queued.stored pv member
    rw [sameName, queued.stored other otherMember] at stored
    exact (Option.some.inj stored).symm
  answered := queued.answered

/-- The order does not matter. -/
theorem perm
    (told : Told pass requests created)
    (reordered : others.Perm created) :
    Told pass requests others where
  owned := fun pv member => told.owned pv (reordered.mem_iff.mp member)
  fresh := fun pv member => told.fresh pv (reordered.mem_iff.mp member)
  agree := fun pv member other otherMember =>
    told.agree pv (reordered.mem_iff.mp member) other
      (reordered.mem_iff.mp otherMember)
  answered := by
    intro request member succeeded
    obtain ⟨uid, queued⟩ := told.answered request member succeeded
    exact ⟨uid, reordered.mem_iff.mpr queued⟩

/-- The populator's cache afterwards. -/
def cache (pass : DiscoveryPass) (created : List PersistentVolume) :
    VolumeCache :=
  deliver pass.discoverer.toRuntimeConfig pass.world.cache
    (created.map .updated)

/-- Nothing is lost from the cache. -/
theorem grown (told : Told pass requests created) :
    DiscoveryPass.Grown pass.world.cache (cache pass created) := by
  intro pvName pv cached
  have elsewhere : ∀ other ∈ created, other.name ≠ pvName := by
    rintro other member rfl
    rw [told.fresh other member] at cached
    cases cached
  rw [cache, getPV_deliver_of_notMem told.owned _ elsewhere]
  exact cached

/-- Every PV whose creation has succeeded is in the cache. -/
theorem cached
    (told : Told pass requests created)
    {request : PersistentVolume × Except ApiError Unit}
    (member : request ∈ requests)
    (succeeded : request.2 = .ok ()) :
    ∃ uid,
      VolumeCache.getPV (cache pass created) request.1.name =
        some { request.1 with uid } := by
  obtain ⟨uid, queued⟩ := told.answered request member succeeded
  exact ⟨uid, getPV_deliver_of_mem told.owned told.agree _ queued⟩

end Told

/-- A file is not asked for again once its name or its path is in the cache. -/
theorem apart_of_cached
    {pass : ClassPass}
    {file : String}
    {pv created : PersistentVolume}
    (requested : pass.request? file = some pv)
    (cached :
      VolumeCache.getPV pass.world.cache created.name = some created) :
    pv.name ≠ created.name ∧ pv.localPath ≠ created.localPath := by
  obtain ⟨named, placed, -⟩ := ClassPass.identity_of_request? requested
  obtain ⟨uncached, unused⟩ := ClassPass.free_of_request? requested
  constructor
  · intro sameName
    rw [← sameName, named] at cached
    cases cached.symm.trans uncached
  · intro samePath
    have listed :
        created.name ∈
          VolumeCache.lookupPVsByPath pass.world.cache
            (pass.outsidePath file) :=
      VolumeCache.mem_lookupPVsByPath.mpr
        ⟨created, cached, samePath.symm.trans placed⟩
    have nowhere :
        VolumeCache.lookupPVsByPath pass.world.cache (pass.outsidePath file) =
          [] := by
      simpa [ClassPass.pathInUse] using unused
    rw [nowhere] at listed
    cases listed

/-- Notices of updates in another order are about the same PVs. -/
theorem exists_of_perm_updated
    {created : List PersistentVolume}
    {notices : List (Notice PersistentVolume)}
    (reordered : notices.Perm (created.map .updated)) :
    ∃ others : List PersistentVolume,
      others.Perm created ∧ notices = others.map .updated := by
  refine ⟨notices.map Notice.object, ?_, ?_⟩
  · have moved := reordered.map Notice.object
    rw [List.map_map] at moved
    exact moved.trans (List.Perm.of_eq (List.map_id created))
  · have same :
        ∀ notice ∈ notices, notice = .updated (Notice.object notice) := by
      intro notice member
      obtain ⟨pv, -, rfl⟩ := List.mem_map.mp (reordered.mem_iff.mp member)
      rfl
    rw [List.map_map]
    exact (List.map_id notices).symm.trans (List.map_congr_left same)

/--
After a pass, and once the populator has been told of the PVs that it created,
a further pass over the same files asks for no PV with the name or the path of
one whose creation has succeeded; if all have succeeded, it asks for none.
-/
theorem discovery_converges
    {pass : DiscoveryPass}
    {oracle : Op → Answers}
    {classes others : List (String × MountConfig)}
    (inProcess : pass.discoverer.useJobForCleaning = false)
    (tracker : pass.world.procTable.Made)
    (idle : ∀ pvName, pass.world.procTable.isRunning pvName = false)
    (sameFiles : SameFiles pass.oracle oracle)
    (ordered : pass.classes? = some classes)
    (orderedAgain : (pass.again oracle pass.world).classes? = some others) :
    ∃ calls later,
      pass.run = (calls, .ok ((), later)) ∧
        ∀ notices world,
          notices.Perm (later.pvNotices.drop pass.world.pvNotices.length) →
          world.cache =
            deliver pass.discoverer.toRuntimeConfig later.cache notices →
          ∃ again last,
            (pass.again oracle world).run = (again, .ok ((), last)) ∧
              (∀ created ∈ creations calls,
                created.2 = .ok () →
                ∀ request ∈ creations again,
                  request.1.name ≠ created.1.name ∧
                    request.1.localPath ≠ created.1.localPath) ∧
              (allCreated calls → creations again = []) := by
  obtain ⟨calls, ⟨⟩, later, traced, walked⟩ :=
    DiscoveryPass.ends_discoverLocalVolumes ordered
  obtain ⟨created, queued⟩ := walked.queued
  refine ⟨calls, later, traced, ?_⟩
  intro notices world reordered delivered
  rw [queued.notices, List.drop_left] at reordered
  obtain ⟨told, permuted, rfl⟩ := exists_of_perm_updated reordered
  have knows : Told pass (creations calls) told :=
    (Told.of_queued walked queued).perm permuted
  have populated : world.cache = Told.cache pass told := by
    rw [delivered, walked.advances.cache]
    rfl
  have orderedLater : (pass.again oracle world).classes? = some others :=
    orderedAgain
  obtain ⟨again, ⟨⟩, last, tracedAgain, walkedAgain⟩ :=
    DiscoveryPass.ends_discoverLocalVolumes orderedLater
  have apart :
      ∀ created ∈ creations calls,
        created.2 = .ok () →
        ∀ request ∈ creations again,
          request.1.name ≠ created.1.name ∧
            request.1.localPath ≠ created.1.localPath := by
    intro made member succeeded request requested
    obtain ⟨entry, -, file, -, forFile⟩ := walkedAgain.exists_file requested
    obtain ⟨uid, cached⟩ := knows.cached member succeeded
    rw [← populated] at cached
    have separate :
        request.1.name ≠ ({ made.1 with uid } : PersistentVolume).name ∧
          request.1.localPath ≠
            ({ made.1 with uid } : PersistentVolume).localPath :=
      apart_of_cached forFile cached
    exact separate
  refine ⟨again, last, tracedAgain, apart, ?_⟩
  intro allMade
  apply List.eq_nil_iff_forall_not_mem.mpr
  intro request requested
  obtain ⟨entry, configured, file, inDirectory, forFile⟩ :=
    walkedAgain.exists_file requested
  have grown : DiscoveryPass.Grown pass.world.cache world.cache := by
    rw [populated]
    exact knows.grown
  have forFileFirst : (pass.ofClass entry).request? file = some request.1 :=
    DiscoveryPass.request?_of_again inProcess tracker idle sameFiles grown
      forFile
  have configuredFirst : entry ∈ classes := by
    have sameClasses : others.Perm classes :=
      (perm_of_permuted orderedAgain).trans (perm_of_permuted ordered).symm
    exact sameClasses.mem_iff.mp configured
  rw [DiscoveryPass.walked_again sameFiles] at inDirectory
  have asked : request.1 ∈ (creations calls).map Prod.fst := by
    rw [walked.requested]
    exact List.mem_flatMap.mpr
      ⟨entry, configuredFirst,
        List.mem_filterMap.mpr ⟨file, inDirectory, forFileFirst⟩⟩
  obtain ⟨made, member, same⟩ := List.mem_map.mp asked
  have different := apart made member (allMade made member) request requested
  exact different.1 (by rw [same])

/--
A volume in one of two classes, which are visited in different orders: its PV
is created in the first pass, and nothing is asked for in the second.
-/
theorem discovery_converges_of_sampleTwoClasses :
    ∃ calls later again last,
      (sampleTwoClassPass [0, 1]).run = (calls, .ok ((), later)) ∧
        (creations calls).map Prod.snd = [.ok ()] ∧
        ((sampleTwoClassPass [0, 1]).again (sampleTwoDirectories [1, 0])
            { World.empty with
              cache :=
                deliver
                  (sampleTwoClassPass [0, 1]).discoverer.toRuntimeConfig
                  later.cache later.pvNotices }).run =
          (again, .ok ((), last)) ∧
        creations again = [] := by
  have sameFiles :
      SameFiles (sampleTwoClassPass [0, 1]).oracle
        (sampleTwoDirectories [1, 0]) :=
    ⟨fun _ => rfl, fun _ => rfl, rfl, fun _ => rfl, fun _ => rfl,
      fun _ => rfl, fun _ _ => rfl⟩
  obtain ⟨calls, later, ran, converges⟩ :=
    @discovery_converges (sampleTwoClassPass [0, 1])
      (sampleTwoDirectories [1, 0]) sampleTwoClasses sampleTwoClasses.reverse
      rfl .new (fun _ => rfl) sameFiles rfl rfl
  obtain ⟨again, last, ranAgain, -, settled⟩ :=
    converges later.pvNotices
      { World.empty with
        cache :=
          deliver (sampleTwoClassPass [0, 1]).discoverer.toRuntimeConfig
            later.cache later.pvNotices }
      (.refl _) rfl
  have replies :
      (creations (sampleTwoClassPass [0, 1]).run.1).map Prod.snd =
        [.ok ()] := by
    rfl
  rw [ran] at replies
  refine ⟨calls, later, again, last, ran, replies, ranAgain, settled ?_⟩
  intro creation member
  have listed : creation.2 ∈ (creations calls).map Prod.snd :=
    List.mem_map_of_mem member
  rw [replies] at listed
  exact List.mem_singleton.mp listed

end LocalProvisioner
