import LocalProvisioner.DiscoveryWalk

namespace LocalProvisioner

open Interleaving

/-!
# A discovery pass over all classes

`DiscoverLocalVolumes` walks over one class after the other, in the order in
which Go iterates over the discovery map.  As within a class, what is done about
a file is decided in the world in which the pass starts.
-/

/--
The PVs that the API server has created for these requests, and whose notices
it has queued.
-/
structure Queued
    (before : World)
    (requests : ClassPass.Requests)
    (after : World)
    (created : List PersistentVolume) : Prop where
  notices : after.pvNotices = before.pvNotices ++ created.map .updated
  stored : ∀ pv ∈ created, after.pvs.get pv.name = some pv
  asked :
    ∀ pv ∈ created,
    ∃ request ∈ requests, pv = { request.1 with uid := pv.uid }
  answered :
    ∀ request ∈ requests,
      request.2 = .ok () →
      ∃ uid, { request.1 with uid } ∈ created

namespace Queued

variable {before middle after : World}
variable {requests more : ClassPass.Requests}
variable {created others : List PersistentVolume}

/-- Nothing is requested. -/
theorem nothing
    (sameNotices : after.pvNotices = before.pvNotices) :
    Queued before [] after [] where
  notices := by simp [sameNotices]
  stored := by simp
  asked := by simp
  answered := by simp

theorem append
    (first : Queued before requests middle created)
    (second : Queued middle more after others)
    (advances : Advances middle after) :
    Queued before (requests ++ more) after (created ++ others) where
  notices := by
    rw [second.notices, first.notices, List.map_append, List.append_assoc]
  stored := by
    intro pv member
    rcases List.mem_append.mp member with earlier | later
    · exact advances.pvs pv.name pv (first.stored pv earlier)
    · exact second.stored pv later
  asked := by
    intro pv member
    rcases List.mem_append.mp member with earlier | later
    · obtain ⟨request, requested, same⟩ := first.asked pv earlier
      exact ⟨request, by simp [requested], same⟩
    · obtain ⟨request, requested, same⟩ := second.asked pv later
      exact ⟨request, by simp [requested], same⟩
  answered := by
    intro request member succeeded
    rcases List.mem_append.mp member with earlier | later
    · obtain ⟨uid, queued⟩ := first.answered request earlier succeeded
      exact ⟨uid, by simp [queued]⟩
    · obtain ⟨uid, queued⟩ := second.answered request later succeeded
      exact ⟨uid, by simp [queued]⟩

/-- A request that the API server turns down. -/
theorem failed
    (sameNotices : after.pvNotices = before.pvNotices)
    (pv : PersistentVolume)
    (err : ApiError) :
    Queued before [(pv, .error err)] after [] where
  notices := by simp [sameNotices]
  stored := by simp
  asked := by simp
  answered := by simp

end Queued

/-- One request. -/
theorem exists_queued_execCreatePV
    (world : World)
    (answers : Answers)
    (pv : PersistentVolume) :
    ∃ created,
      Queued world [(pv, (world.execCreatePV answers pv).1)]
        (world.execCreatePV answers pv).2 created := by
  have admitted :
      ∀ outcome : Except ApiError Unit,
        Queued world [(pv, outcome)]
          ((world.record (.createPVIssued pv.name)).admitPV
            (world.freshUID answers) pv)
          [{ pv with uid := world.freshUID answers }] := fun outcome => {
    notices := rfl
    stored := by
      intro created member
      obtain rfl := List.mem_singleton.mp member
      exact ObjectStore.get_put_self world.pvs
        { pv with uid := world.freshUID answers }
    asked := by simp
    answered := by
      intro request member _
      obtain rfl := List.mem_singleton.mp member
      exact ⟨world.freshUID answers, by simp⟩
  }
  have refused :
      ∀ err,
        Queued world [(pv, .error err)]
          (world.record (.createPVIssued pv.name)) [] := by
    intro err
    apply Queued.failed
    rfl
  unfold World.execCreatePV
  cases answers.outcome with
  | rejected err => exact ⟨[], refused err⟩
  | processed | lost =>
      cases world.pvs.get pv.name with
      | some other => exact ⟨[], refused .alreadyExists⟩
      | none => exact ⟨_, admitted _⟩

namespace ClassPass

/-- The loop body queues the notice of the PV that it has created. -/
theorem exists_queued_visited (pass : ClassPass) (file : String) :
    ∃ created,
      Queued pass.world (pass.answered? file).toList (pass.visited file)
        created := by
  unfold answered? visited
  cases pass.verdict file with
  | skipped | reported => exact ⟨[], .nothing rfl⟩
  | held mode | unusable mode =>
      exact ⟨[], .nothing (pass.pvs_cleared file mode).2⟩
  | volume mode bytes =>
      have cleared :
          Queued pass.world [] (pass.cleared file mode) [] :=
        .nothing (pass.pvs_cleared file mode).2
      cases pass.request? file with
      | none => exact ⟨[], cleared⟩
      | some pv =>
          obtain ⟨created, queued⟩ :=
            exists_queued_execCreatePV (pass.cleared file mode)
              (pass.oracle (.createPV pv)) pv
          exact ⟨created, cleared.append queued (.execCreatePV _ _ pv)⟩

/-- So does a walk. -/
theorem Walk.exists_queued
    {pass : ClassPass}
    {files : List String}
    {before after : World}
    {requests : Requests}
    (walk : pass.Walk files before requests after) :
    ∃ created, Queued before requests after created := by
  induction walk with
  | done reports => exact ⟨[], .nothing rfl⟩
  | @visit file _ world _ _ reports walk inductionHypothesis =>
      obtain ⟨created, queued⟩ := (pass.inWorld world).exists_queued_visited file
      obtain ⟨others, queuedLater⟩ := inductionHypothesis
      have first :
          Queued world ((pass.inWorld world).answered? file).toList
            (((pass.inWorld world).visited file).reporting reports) created :=
        ⟨queued.notices, queued.stored, queued.asked, queued.answered⟩
      exact ⟨created ++ others, first.append queuedLater walk.advances⟩

end ClassPass

/-- A pass of `DiscoverLocalVolumes`. -/
structure DiscoveryPass where
  discoverer : Discoverer
  oracle : Op → Answers
  world : World

namespace DiscoveryPass

/-- The pass over one class. -/
def ofClass (pass : DiscoveryPass) (entry : String × MountConfig) :
    ClassPass where
  discoverer := pass.discoverer
  storageClass := entry.1
  config := entry.2
  oracle := pass.oracle
  world := pass.world

/-- The classes in the order of the iteration, if it is one. -/
def classes? (pass : DiscoveryPass) : Option (List (String × MountConfig)) :=
  permuted
    (pass.oracle (.rangeDiscoveryMap pass.discoverer.discoveryMap)).order
    (pass.discoverer.discoveryMap.entries.map fun entry => (entry.1, entry.2))

/-- The answered calls of the pass, and its result. -/
def run (pass : DiscoveryPass) :
    List (Answered syncSignature) × Except Op (Unit × World) :=
  (discoverLocalVolumes pass.discoverer).trace exec pass.oracle pass.world

/-- The PVs that are requested for the files of a class. -/
def requests (pass : DiscoveryPass) (entry : String × MountConfig) :
    List PersistentVolume :=
  (pass.ofClass entry).walked.filterMap (pass.ofClass entry).request?

/-- What the walk over some classes has done by its end. -/
structure WalkedClasses
    (pass : DiscoveryPass)
    (classes : List (String × MountConfig))
    (before : World)
    (requests : ClassPass.Requests)
    (later : World) : Prop where
  advances : Advances before later
  requested : requests.map Prod.fst = classes.flatMap pass.requests
  queued : ∃ created, Queued before requests later created
  /-- Without classes, nothing is published; -/
  unpublished : classes = [] → later.reports = before.reports
  /-- the totals of the last class are published last. -/
  published :
    ∀ earlier entry,
      classes = earlier ++ [entry] →
      (pass.ofClass entry).completes = true →
      ∃ older,
        later.reports =
          .capacity .filesystem
              (float64 ((pass.ofClass entry).total .filesystem)) ::
            .capacity .block (float64 ((pass.ofClass entry).total .block)) ::
            older

section Classes

variable {pass : DiscoveryPass}
variable {current : World}

/-- The totals of a class are decided where the pass starts. -/
theorem total_inWorld
    (advances : Advances pass.world current)
    (entry : String × MountConfig)
    (mode : VolumeMode) :
    ((pass.ofClass entry).inWorld current).total mode =
      (pass.ofClass entry).total mode := by
  have same :
      ((pass.ofClass entry).inWorld current).bytes mode =
        (pass.ofClass entry).bytes mode := by
    funext file
    exact ClassPass.bytes_inWorld advances mode file
  simp only [ClassPass.total, ClassPass.capacities, same]
  rfl

/-- So are its requests. -/
theorem requests_inWorld
    (advances : Advances pass.world current)
    (entry : String × MountConfig) :
    ((pass.ofClass entry).inWorld current).walked.filterMap
        ((pass.ofClass entry).inWorld current).request? =
      pass.requests entry := by
  have same :
      ((pass.ofClass entry).inWorld current).request? =
        (pass.ofClass entry).request? := by
    funext file
    exact ClassPass.request?_inWorld advances file
  rw [same]
  rfl

/-- One more class in front. -/
theorem WalkedClasses.cons
    {entry : String × MountConfig}
    {rest : List (String × MountConfig)}
    {firstRequests requests : ClassPass.Requests}
    {result : Except String Unit}
    {middle later : World}
    (advances : Advances pass.world current)
    (first :
      ((pass.ofClass entry).inWorld current).Walked firstRequests result
        middle)
    (walked : pass.WalkedClasses rest middle requests later) :
    pass.WalkedClasses (entry :: rest) current (firstRequests ++ requests)
      later where
  advances := first.walk.advances.trans walked.advances
  requested := by
    rw [List.map_append, first.requested, walked.requested,
      List.flatMap_cons, requests_inWorld advances]
  queued := by
    obtain ⟨created, queued⟩ := first.walk.exists_queued
    obtain ⟨others, queuedLater⟩ := walked.queued
    exact ⟨created ++ others, queued.append queuedLater walked.advances⟩
  unpublished := by simp
  published := by
    intro earlier last split completes
    cases earlier with
    | nil =>
        -- the class in front is the last one
        obtain ⟨rfl, rfl⟩ := List.cons.inj split
        obtain ⟨older, published⟩ := first.gauges completes
        refine ⟨older, ?_⟩
        rw [walked.unpublished rfl, published, total_inWorld advances,
          total_inWorld advances]
    | cons _ others =>
        have rest : rest = others ++ [last] := (List.cons.inj split).2
        exact walked.published others last rest completes

/-- The class loop walks over every class. -/
theorem ends_discoverClasses
    (classes : List (String × MountConfig))
    (readyz : Bool)
    (advances : Advances pass.world current) :
    (discoverClasses pass.discoverer classes readyz).Ends exec pass.oracle
        current
      fun calls _ => pass.WalkedClasses classes current (creations calls) := by
  induction classes generalizing current readyz with
  | nil =>
      apply Program.Ends.done
      exact ⟨.refl current, rfl, ⟨[], .nothing rfl⟩, fun _ => rfl, by simp⟩
  | cons entry rest inductionHypothesis =>
      obtain ⟨storageClass, config⟩ := entry
      unfold discoverClasses
      apply Program.Ends.bind
        ((pass.ofClass (storageClass, config)).inWorld
          current).ends_discoverVolumesAtPath
      intro calls result middle first
      have moved := advances.trans first.walk.advances
      simp only [creations_append]
      cases result with
      | error err =>
          obtain ⟨more, ready, later, traced, walked⟩ :=
            inductionHypothesis false moved
          exact ⟨more, ready, later, traced, .cons advances first walked⟩
      | ok _ =>
          obtain ⟨more, ready, later, traced, walked⟩ :=
            inductionHypothesis readyz moved
          exact ⟨more, ready, later, traced, .cons advances first walked⟩

/-- A discovery pass walks over all classes in the order of the iteration. -/
theorem ends_discoverLocalVolumes
    {classes : List (String × MountConfig)}
    (ordered : pass.classes? = some classes) :
    (discoverLocalVolumes pass.discoverer).Ends exec pass.oracle pass.world
      fun calls _ =>
        pass.WalkedClasses classes pass.world (creations calls) := by
  have replied :
      exec (.rangeDiscoveryMap pass.discoverer.discoveryMap)
        (pass.oracle (.rangeDiscoveryMap pass.discoverer.discoveryMap))
        pass.world = some (classes, pass.world) :=
    congrArg (Option.map fun listed => (listed, pass.world)) ordered
  apply Program.Ends.call replied
  apply Program.Ends.bind (ends_discoverClasses classes true (.refl _))
  intro calls readyz later walked
  apply Program.Ends.call rfl
  apply Program.Ends.done
  have sameRequests :
      creations
          (⟨.rangeDiscoveryMap pass.discoverer.discoveryMap, classes⟩ ::
            (calls ++ [⟨.setReady readyz, ()⟩])) =
        creations calls := by
    change creations (calls ++ [⟨.setReady readyz, ()⟩]) = creations calls
    rw [creations_append]
    exact List.append_nil _
  have advanced := walked.advances
  obtain ⟨created, queued⟩ := walked.queued
  rw [sameRequests]
  exact
    ⟨⟨advanced.cache, advanced.jobLister, advanced.status, advanced.jobs,
        advanced.deleted, advanced.pvs⟩,
      walked.requested,
      ⟨created, queued.notices, queued.stored, queued.asked, queued.answered⟩,
      walked.unpublished, walked.published⟩

end Classes

end DiscoveryPass

/-- Two classes, of which only the first has a volume. -/
def sampleTwoClasses : List (String × MountConfig) :=
  [("fast", sampleMount "/mnt/disks" "/mnt/fast"),
    ("slow", sampleMount "/mnt/archive" "/mnt/slow")]

/-- The volume has a thousand bytes. -/
def sampleTwoDirectories (order : List Nat) : Op → Answers
  | .rangeDiscoveryMap _ => { order }
  | .getStorageClass _ =>
      { storageClass := .ok { reclaimPolicy := none, mountOptions := [] } }
  | .readDir path =>
      { names := .ok (if path = "/mnt/fast" then ["volume"] else []) }
  | .listMounts => { names := .ok ["/mnt/fast/volume"] }
  | .isDir _ => { probe := .ok true }
  | .getFsCapacityByte _ _ => { bytes := .ok 1000 }
  | _ => {}

/-- A pass over both classes in one of the two orders. -/
def sampleTwoClassPass (order : List Nat) : DiscoveryPass where
  discoverer :=
    sampleDiscoverer false
      (AList.insert "fast" (sampleMount "/mnt/disks" "/mnt/fast")
        (AList.insert "slow" (sampleMount "/mnt/archive" "/mnt/slow") ∅))
  oracle := sampleTwoDirectories order
  world := World.empty

end LocalProvisioner
