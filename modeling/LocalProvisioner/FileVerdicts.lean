import LocalProvisioner.SyncLoop

namespace LocalProvisioner

open Interleaving

/-!
# The verdict about a file

What the loop body of `discoverVolumesAtPath` does about a file is decided by
the answers of the surroundings about it, by the cached PVs, and by the cleanup
status of its name, with either way of cleaning.  `FileVerdict` names the exits
of the loop body, and `ClassPass.verdict` says which one a file takes.

The surroundings answer each call in one way throughout the pass.
-/

/-- A pass of `discoverVolumesAtPath` over one class. -/
structure ClassPass where
  discoverer : Discoverer
  storageClass : String
  config : MountConfig
  oracle : Op → Answers
  world : World

/-- The ways in which the loop body can be done with a file. -/
inductive FileVerdict where
  /-- It goes on with the next file, -/
  | skipped : FileVerdict
  /-- or it adds an error first. -/
  | reported : FileVerdict
  /-- The cleanup status of the file's name cannot be removed. -/
  | held : VolumeMode → FileVerdict
  /-- It can, but the file has no capacity to make a PV of. -/
  | unusable : VolumeMode → FileVerdict
  /-- It can, and `createPV` is called. -/
  | volume : VolumeMode → (bytes : Int) → FileVerdict
  deriving Repr, DecidableEq

/-- The verdict about a file without PV or status, by its capacity. -/
def FileVerdict.ofCapacity (mode : VolumeMode) : Option Int → FileVerdict
  | none => .unusable mode
  | some bytes => .volume mode bytes

namespace ClassPass

/-- The path of a file inside the container. -/
def filePath (pass : ClassPass) (file : String) : String :=
  UnixPath.join [pass.config.mountDir, file]

/-- The path of a file on the host. -/
def outsidePath (pass : ClassPass) (file : String) : String :=
  UnixPath.join [pass.config.hostDir, file]

/-- The name of the PV for a file. -/
def pvName (pass : ClassPass) (file : String) : String :=
  generatePVName file pass.discoverer.node.name pass.storageClass

/-- The answer of the lister of storage classes. -/
def class? (pass : ClassPass) : Except String StorageClass :=
  (pass.oracle (.getStorageClass pass.storageClass)).storageClass

/-- The listing of the discovery directory. -/
def files? (pass : ClassPass) : Except String (List String) :=
  (pass.oracle (.readDir pass.config.mountDir)).names

/-- The mount table. -/
def mountPoints? (pass : ClassPass) : Except String (List String) :=
  (pass.oracle .listMounts).names

/-- The volume mode of a file, if it can be determined. -/
def mode? (pass : ClassPass) (file : String) : Option VolumeMode :=
  match (pass.oracle (.isDir (pass.filePath file))).probe with
  | .ok true => some .filesystem
  | _ =>
      match (pass.oracle (.isBlock (pass.filePath file))).probe with
      | .ok true => some .block
      | _ => none

/-- The cached PV with the name of a file. -/
def cachedPV (pass : ClassPass) (file : String) : Option PersistentVolume :=
  VolumeCache.getPV pass.world.cache (pass.pvName file)

/--
The capacity of a file in a mode: of a block device, or of a mount point if the
class does not ask for block volumes.
-/
def capacity? (pass : ClassPass) (file : String) : VolumeMode → Option Int
  | .block =>
      (pass.oracle (.getBlockCapacityByte (pass.filePath file))).bytes.toOption
  | .filesystem =>
      if VolumeMode.ofString pass.config.volumeMode ≠ .block ∧
          pass.filePath file ∈ pass.mountPoints?.toOption.getD [] then
        (pass.oracle (.getFsCapacityByte (pass.outsidePath file)
          (pass.filePath file))).bytes.toOption
      else
        none
  | .other _ => none

/-- What the pass knows about a file. -/
def candidate (pass : ClassPass) (storage : StorageClass) (file : String) :
    Candidate where
  file
  storageClass := pass.storageClass
  config := pass.config
  reclaimPolicy := storage.reclaimPolicy.getD .delete
  startTime := (pass.oracle .now).now

/-- The answered calls of the pass, and its result. -/
def run (pass : ClassPass) :
    List (Answered syncSignature) × Except Op (Except String Unit × World) :=
  (discoverVolumesAtPath pass.discoverer pass.storageClass pass.config).trace
    exec pass.oracle pass.world

/-- Does a cached PV have the path of a file? -/
def pathInUse (pass : ClassPass) (file : String) : Bool :=
  !(VolumeCache.lookupPVsByPath pass.world.cache
    (pass.outsidePath file)).isEmpty

/-- Is a volume of this mode cleaned by a job? -/
def usejob (pass : ClassPass) (mode : VolumeMode) : Bool :=
  if mode = .block then pass.discoverer.useJobForCleaning else false

/-- The name of the job that cleans the volume of a file. -/
def jobName (pass : ClassPass) (file : String) : String :=
  generateCleaningJobName (pass.pvName file)

/-- The answer of `InProgress`. -/
def cleaning (pass : ClassPass) (file : String) (mode : VolumeMode) : Bool :=
  if pass.usejob mode then
    isCleaningJobRunning
      (pass.world.listedJob
        (pass.oracle (.isCleaningJobRunning (pass.pvName file)))
        (pass.jobName file))
  else
    pass.world.procTable.isRunning (pass.pvName file)

/-- The job that `RemoveJob` finds in its lister. -/
def listedJob (pass : ClassPass) (file : String) : Except ApiError Job :=
  pass.world.listedJob (pass.oracle (.getJob (pass.jobName file)))
    (pass.jobName file)

/-- The answers about the deletion of a job. -/
def deletion (pass : ClassPass) (job : Job) : Answers :=
  pass.oracle (.deleteJob job.name pass.discoverer.namespaceName)

/-- Does `RemoveStatus` succeed? -/
def removes (pass : ClassPass) (file : String) (mode : VolumeMode) : Bool :=
  if pass.usejob mode then
    match pass.listedJob file with
    | .error .notFound => true
    | .error _ => false
    | .ok job =>
        decide (job.succeeded ≠ 0) &&
          (pass.world.execDeleteJob (pass.deletion job) job.name).1.isOk
  else
    (pass.world.procTable.removeEntry (pass.pvName file)).1.isOk

/-- The world after `RemoveStatus`. -/
def cleared (pass : ClassPass) (file : String) (mode : VolumeMode) : World :=
  if pass.usejob mode then
    match pass.listedJob file with
    | .error _ => pass.world
    | .ok job =>
        if job.succeeded = 0 then
          pass.world
        else
          (pass.world.execDeleteJob (pass.deletion job) job.name).2
  else
    { pass.world with
      procTable := (pass.world.procTable.removeEntry (pass.pvName file)).2 }

/-- How the loop body is done with a file. -/
def verdict (pass : ClassPass) (file : String) : FileVerdict :=
  match pass.mode? file with
  | none => .reported
  | some mode =>
      match pass.cachedPV file with
      | some pv =>
          if pv.volumeMode = some .block ∧ mode = .filesystem then
            .reported
          else
            .skipped
      | none =>
          if pass.pathInUse file || pass.cleaning file mode then
            .skipped
          else if pass.removes file mode then
            .ofCapacity mode (pass.capacity? file mode)
          else
            .held mode

/-- The PV that `createPV` sends to the API server, if it sends one. -/
def pvOf (pass : ClassPass) (storage : StorageClass) (file : String)
    (bytes : Int) : Option PersistentVolume :=
  (generateAffinityAnn pass.discoverer pass.config).toOption.map
    (localPV pass.discoverer (pass.candidate storage file)
      storage.mountOptions bytes)

/-- The PV that is requested for a file, if any. -/
def request? (pass : ClassPass) (file : String) : Option PersistentVolume :=
  match pass.verdict file with
  | .volume _ bytes =>
      pass.class?.toOption.bind fun storage => pass.pvOf storage file bytes
  | _ => none

/-- Is an error added for a file, whatever becomes of its request? -/
def fails (pass : ClassPass) (file : String) : Bool :=
  match pass.verdict file with
  | .reported => true
  | .unusable _ => true
  | .volume _ _ => (pass.request? file).isNone
  | _ => false

/-- What a file adds to the total capacity of a mode. -/
def bytes (pass : ClassPass) (mode : VolumeMode) (file : String) : Int :=
  match pass.verdict file with
  | .volume found bytes => if found = mode then bytes else 0
  | _ => 0

/-- A request to create a PV with its reply. -/
def reply (pass : ClassPass) (world : World) (pv : PersistentVolume) :
    PersistentVolume × Except ApiError Unit :=
  (pv, (world.execCreatePV (pass.oracle (.createPV pv)) pv).1)

/-- The world after a request to create a PV. -/
def requested (pass : ClassPass) (world : World) :
    Option PersistentVolume → World
  | none => world
  | some pv => (world.execCreatePV (pass.oracle (.createPV pv)) pv).2

/-- The request for a file with the reply of the API server, if any. -/
def answered? (pass : ClassPass) (file : String) :
    Option (PersistentVolume × Except ApiError Unit) :=
  match pass.verdict file with
  | .volume mode _ =>
      (pass.request? file).map (pass.reply (pass.cleared file mode))
  | _ => none

/-- The world after the loop body, up to reports. -/
def visited (pass : ClassPass) (file : String) : World :=
  match pass.verdict file with
  | .skipped => pass.world
  | .reported => pass.world
  | .held mode => pass.cleared file mode
  | .unusable mode => pass.cleared file mode
  | .volume mode _ =>
      pass.requested (pass.cleared file mode) (pass.request? file)

end ClassPass

/-- The world with these reports. -/
def World.reporting (world : World) (reports : List Report) : World :=
  { world with reports }

/-- A request to create a PV, with its outcome. -/
def creation? :
    Answered syncSignature → Option (PersistentVolume × Except ApiError Unit)
  | ⟨.createPV pv, (reply : Except ApiError Unit)⟩ => some (pv, reply)
  | _ => none

/-- The requests to create PVs among the calls of a run, with their outcomes. -/
def creations (calls : List (Answered syncSignature)) :
    List (PersistentVolume × Except ApiError Unit) :=
  calls.filterMap creation?

/-- Every request to create a PV has succeeded. -/
def allCreated (calls : List (Answered syncSignature)) : Prop :=
  ∀ creation ∈ creations calls, creation.2 = .ok ()

@[simp] theorem creations_nil : creations [] = [] :=
  rfl

theorem creations_append (earlier later : List (Answered syncSignature)) :
    creations (earlier ++ later) = creations earlier ++ creations later :=
  List.filterMap_append

namespace ClassPass

section LoopBody

variable {pass : ClassPass}
variable {storage : StorageClass}
variable {file : String}
variable {mode : VolumeMode}

/-- What the loop body has done by its end. -/
structure Visited
    (pass : ClassPass)
    (file : String)
    (requests : List (PersistentVolume × Except ApiError Unit))
    (found : Tally)
    (later : World) : Prop where
  requested : requests = (pass.answered? file).toList
  clean :
    found.discoErrors = [] ↔
      pass.fails file = false ∧ ∀ request ∈ requests, request.2 = .ok ()
  blockBytes :
    found.totalCapacityBlockBytes = Int64.ofInt (pass.bytes .block file)
  fsBytes :
    found.totalCapacityFSBytes = Int64.ofInt (pass.bytes .filesystem file)
  world : ∃ reports, later = (pass.visited file).reporting reports

namespace Visited

theorem skipped (decided : pass.verdict file = .skipped) :
    pass.Visited file [] {} pass.world where
  requested := by simp [answered?, decided]
  clean := by simp [fails, decided]
  blockBytes := by simp [bytes, decided]
  fsBytes := by simp [bytes, decided]
  world := ⟨pass.world.reports, by simp only [visited, decided]; rfl⟩

theorem reported
    (decided : pass.verdict file = .reported)
    (err : String)
    (reports : List Report) :
    pass.Visited file [] (.failed err) (pass.world.reporting reports) where
  requested := by simp [answered?, decided]
  clean := by simp [fails, decided, Tally.failed]
  blockBytes := by simp [bytes, decided, Tally.failed]
  fsBytes := by simp [bytes, decided, Tally.failed]
  world := ⟨reports, by simp [visited, decided]⟩

theorem held (decided : pass.verdict file = .held mode) :
    pass.Visited file [] {} (pass.cleared file mode) where
  requested := by simp [answered?, decided]
  clean := by simp [fails, decided]
  blockBytes := by simp [bytes, decided]
  fsBytes := by simp [bytes, decided]
  world :=
    ⟨(pass.cleared file mode).reports, by simp only [visited, decided]; rfl⟩

theorem unusable
    (decided : pass.verdict file = .unusable mode)
    (err : String) :
    pass.Visited file [] (.failed err) (pass.cleared file mode) where
  requested := by simp [answered?, decided]
  clean := by simp [fails, decided, Tally.failed]
  blockBytes := by simp [bytes, decided, Tally.failed]
  fsBytes := by simp [bytes, decided, Tally.failed]
  world :=
    ⟨(pass.cleared file mode).reports, by simp only [visited, decided]; rfl⟩

end Visited

/-- The requests are those that `request?` describes. -/
theorem map_answered? (pass : ClassPass) (file : String) :
    (pass.answered? file).map Prod.fst = pass.request? file := by
  unfold answered?
  cases decided : pass.verdict file with
  | volume mode bytes =>
      rw [Option.map_map]
      exact Option.map_id'
  | skipped | reported | held | unusable => simp [request?, decided]

/-- What it takes for `createPV` to be called. -/
theorem verdict_eq_volume_iff {bytes : Int} :
    pass.verdict file = .volume mode bytes ↔
      pass.mode? file = some mode ∧
        pass.cachedPV file = none ∧
        pass.pathInUse file = false ∧
        pass.cleaning file mode = false ∧
        pass.removes file mode = true ∧
        pass.capacity? file mode = some bytes := by
  constructor
  · intro decided
    unfold verdict at decided
    split at decided
    · cases decided
    · rename_i found determined
      split at decided
      · split at decided
        · cases decided
        · cases decided
      · rename_i uncached
        split at decided
        · cases decided
        · rename_i free
          have unused : pass.pathInUse file = false ∧
              pass.cleaning file found = false := by
            simpa using free
          split at decided
          · rename_i removed
            cases readable : pass.capacity? file found with
            | none =>
                rw [readable] at decided
                cases decided
            | some read =>
                rw [readable] at decided
                cases decided
                exact ⟨determined, uncached, unused.1, unused.2, removed,
                  readable⟩
          · cases decided
  · rintro ⟨determined, uncached, unused, idle, removed, readable⟩
    simp [verdict, determined, uncached, unused, idle, removed, readable,
      FileVerdict.ofCapacity]

/-- The mode of a file is what the file system says. -/
theorem ends_getVolumeMode
    (pass : ClassPass)
    (current : World)
    (file : String) :
    (getVolumeMode (pass.filePath file)).Ends exec pass.oracle current
      fun calls found later =>
        creations calls = [] ∧ later = current ∧
          found.toOption = pass.mode? file := by
  apply Program.Ends.call rfl
  unfold mode?
  cases isdir : (pass.oracle (.isDir (pass.filePath file))).probe with
  | error errdir =>
      apply Program.Ends.call rfl
      cases isblk : (pass.oracle (.isBlock (pass.filePath file))).probe with
      | error errblk => exact .done ⟨rfl, rfl, rfl⟩
      | ok isBlock =>
          cases isBlock with
          | false => exact .done ⟨rfl, rfl, rfl⟩
          | true => exact .done ⟨rfl, rfl, rfl⟩
  | ok isDir =>
      cases isDir with
      | true => exact .done ⟨rfl, rfl, rfl⟩
      | false =>
          apply Program.Ends.call rfl
          cases isblk : (pass.oracle (.isBlock (pass.filePath file))).probe with
          | error errblk => exact .done ⟨rfl, rfl, rfl⟩
          | ok isBlock =>
              cases isBlock with
              | false => exact .done ⟨rfl, rfl, rfl⟩
              | true => exact .done ⟨rfl, rfl, rfl⟩

/-- The mode of a file is one of the two known ones. -/
theorem mode?_ne_other
    (pass : ClassPass)
    (file mode : String) :
    pass.mode? file ≠ some (.other mode) := by
  unfold mode?
  split
  · simp
  · split
    · simp
    · simp

/-- `createPV` makes at most one request, and returns its outcome. -/
theorem ends_createPV
    (pass : ClassPass)
    (storage : StorageClass)
    (file : String)
    (bytes : Int)
    (current : World) :
    (createPV pass.discoverer (pass.candidate storage file)
        storage.mountOptions bytes).Ends exec pass.oracle current
      fun calls outcome later =>
        creations calls =
            ((pass.pvOf storage file bytes).map
              (pass.reply current)).toList ∧
          (Tally.errorsOf outcome = [] ↔
            (pass.pvOf storage file bytes).isNone = false ∧
              ∀ request ∈ creations calls, request.2 = .ok ()) ∧
          ∃ reports,
            later =
              (pass.requested current
                (pass.pvOf storage file bytes)).reporting reports := by
  cases annotated : generateAffinityAnn pass.discoverer pass.config with
  | error err =>
      have noPV : pass.pvOf storage file bytes = none := by
        simp [pvOf, annotated, Except.toOption]
      have annotatedFile :
          generateAffinityAnn pass.discoverer
            (pass.candidate storage file).config = .error err := annotated
      unfold createPV
      rw [annotatedFile, noPV]
      exact .done ⟨rfl, by simp [Tally.errorsOf], current.reports, rfl⟩
  | ok text =>
      have somePV :
          pass.pvOf storage file bytes =
            some (localPV pass.discoverer (pass.candidate storage file)
              storage.mountOptions bytes text) := by
        simp [pvOf, annotated, Except.toOption]
      have annotatedFile :
          generateAffinityAnn pass.discoverer
            (pass.candidate storage file).config = .ok text := annotated
      unfold createPV
      rw [annotatedFile, somePV]
      dsimp only
      generalize
        localPV pass.discoverer (pass.candidate storage file)
          storage.mountOptions bytes text = pv
      have replied :
          exec (.createPV pv) (pass.oracle (.createPV pv)) current =
            some (current.execCreatePV (pass.oracle (.createPV pv)) pv) := rfl
      have after :
          pass.requested current (some pv) =
            (current.execCreatePV (pass.oracle (.createPV pv)) pv).2 := rfl
      have answered :
          pass.reply current pv =
            (pv, (current.execCreatePV (pass.oracle (.createPV pv)) pv).1) :=
        rfl
      rw [after, Option.map_some, answered]
      generalize current.execCreatePV (pass.oracle (.createPV pv)) pv = made
        at replied
      obtain ⟨reply, later⟩ := made
      apply Program.Ends.call replied
      cases reply with
      | error err =>
          exact .done
            ⟨rfl, by simp [Tally.errorsOf, creations, creation?],
              later.reports, rfl⟩
      | ok _ =>
          apply Program.Ends.call rfl
          exact .done
            ⟨rfl, by simp [Tally.errorsOf, creations, creation?], _, rfl⟩

/-- The end of both branches of the capacity switch. -/
theorem ends_volume
    (classRead : pass.class? = .ok storage)
    {bytes : Int}
    (decided : pass.verdict file = .volume mode bytes)
    {tally : Except String Unit → Tally}
    (adds :
      ∀ outcome, (tally outcome).discoErrors = Tally.errorsOf outcome)
    (blockBytes :
      ∀ outcome,
        (tally outcome).totalCapacityBlockBytes =
          Int64.ofInt (pass.bytes .block file))
    (fsBytes :
      ∀ outcome,
        (tally outcome).totalCapacityFSBytes =
          Int64.ofInt (pass.bytes .filesystem file)) :
    ((createPV pass.discoverer (pass.candidate storage file)
        storage.mountOptions bytes).bind fun outcome =>
          .done (tally outcome)).Ends exec pass.oracle
        (pass.cleared file mode)
      fun calls => pass.Visited file (creations calls) := by
  have requests : pass.request? file = pass.pvOf storage file bytes := by
    simp [request?, decided, classRead, Except.toOption]
  apply Program.Ends.bind (pass.ends_createPV storage file bytes _)
  rintro calls outcome later ⟨requested, clean, reports, rfl⟩
  apply Program.Ends.done
  rw [List.append_nil]
  refine ⟨?_, ?_, blockBytes outcome, fsBytes outcome, reports, ?_⟩
  · rw [requested, answered?, decided, requests]
  · rw [adds, clean, fails, decided, requests]
  · simp only [visited, decided, requests]

/-- Both branches of the capacity switch, once the capacity has been asked for. -/
theorem ends_measured
    (classRead : pass.class? = .ok storage)
    {reply : Except String Int}
    (measured : pass.capacity? file mode = reply.toOption)
    (decided :
      pass.verdict file = .ofCapacity mode (pass.capacity? file mode))
    {next : Except String Int → Routine Tally}
    {failure : String → String}
    {tally : Int → Except String Unit → Tally}
    (givesUp : ∀ err, next (.error err) = .done (.failed (failure err)))
    (creates :
      ∀ bytes,
        next (.ok bytes) =
          (createPV pass.discoverer (pass.candidate storage file)
            storage.mountOptions bytes).bind fun outcome =>
              .done (tally bytes outcome))
    (adds :
      ∀ bytes outcome,
        (tally bytes outcome).discoErrors = Tally.errorsOf outcome)
    (counts :
      ∀ bytes outcome,
        pass.verdict file = .volume mode bytes →
        (tally bytes outcome).totalCapacityBlockBytes =
            Int64.ofInt (pass.bytes .block file) ∧
          (tally bytes outcome).totalCapacityFSBytes =
            Int64.ofInt (pass.bytes .filesystem file)) :
    ((Program.done reply).bind next).Ends exec pass.oracle
        (pass.cleared file mode)
      fun calls => pass.Visited file (creations calls) := by
  rw [measured] at decided
  rw [Program.done_bind]
  cases reply with
  | error err =>
      rw [givesUp]
      exact .done (.unusable decided _)
  | ok bytes =>
      have isVolume : pass.verdict file = .volume mode bytes := decided
      rw [creates]
      apply ends_volume classRead isVolume
      · exact adds bytes
      · exact fun outcome => (counts bytes outcome isVolume).1
      · exact fun outcome => (counts bytes outcome isVolume).2

/-- The block branch. -/
theorem ends_provisionBlock
    (classRead : pass.class? = .ok storage)
    (decided :
      pass.verdict file = .ofCapacity .block (pass.capacity? file .block)) :
    (provisionBlock pass.discoverer (pass.candidate storage file)
        storage.mountOptions).Ends exec pass.oracle
        (pass.cleared file .block)
      fun calls => pass.Visited file (creations calls) := by
  have replied :
      ∀ current,
        exec (.getBlockCapacityByte (pass.filePath file))
          (pass.oracle (.getBlockCapacityByte (pass.filePath file))) current =
          some ((pass.oracle (.getBlockCapacityByte
            (pass.filePath file))).bytes, current) := fun _ => rfl
  apply Program.Ends.call (replied _)
  apply ends_measured classRead rfl decided
  · exact fun _ => rfl
  · exact fun _ => rfl
  · exact fun _ _ => rfl
  · intro bytes outcome isVolume
    simp [ClassPass.bytes, isVolume]

/-- The filesystem branch. -/
theorem ends_provisionFilesystem
    (classRead : pass.class? = .ok storage)
    {mountPoints : List String}
    (mounted : pass.mountPoints? = .ok mountPoints)
    (decided :
      pass.verdict file =
        .ofCapacity .filesystem (pass.capacity? file .filesystem)) :
    (provisionFilesystem pass.discoverer (pass.candidate storage file)
        mountPoints storage.mountOptions).Ends exec pass.oracle
        (pass.cleared file .filesystem)
      fun calls => pass.Visited file (creations calls) := by
  have capacity :
      pass.capacity? file .filesystem =
        if VolumeMode.ofString pass.config.volumeMode ≠ .block ∧
            pass.filePath file ∈ mountPoints then
          (pass.oracle (.getFsCapacityByte (pass.outsidePath file)
            (pass.filePath file))).bytes.toOption
        else
          none := by
    unfold capacity?
    rw [mounted]
    rfl
  unfold provisionFilesystem
  split
  · rename_i asksForBlock
    rw [capacity, if_neg fun both => both.1 asksForBlock] at decided
    exact .done (.unusable decided _)
  · rename_i asksForFiles
    split
    · rename_i unmounted
      rw [capacity, if_neg fun both => unmounted both.2] at decided
      exact .done (.unusable decided _)
    · rename_i isMountPoint
      rw [if_pos ⟨asksForFiles, Decidable.not_not.mp isMountPoint⟩] at capacity
      have replied :
          ∀ current,
            exec
              (.getFsCapacityByte (pass.outsidePath file) (pass.filePath file))
              (pass.oracle (.getFsCapacityByte (pass.outsidePath file)
                (pass.filePath file))) current =
              some ((pass.oracle (.getFsCapacityByte (pass.outsidePath file)
                (pass.filePath file))).bytes, current) := fun _ => rfl
      apply Program.Ends.call (replied _)
      apply ends_measured classRead capacity decided
      · exact fun _ => rfl
      · exact fun _ => rfl
      · exact fun _ _ => rfl
      · intro bytes outcome isVolume
        simp [ClassPass.bytes, isVolume]

/-- The loop body after the cleanup status has been removed. -/
theorem ends_provision
    (classRead : pass.class? = .ok storage)
    {mountPoints : List String}
    (mounted : pass.mountPoints? = .ok mountPoints)
    (determined : pass.mode? file = some mode)
    (decided :
      pass.verdict file = .ofCapacity mode (pass.capacity? file mode)) :
    (provision pass.discoverer (pass.candidate storage file) mountPoints
        mode).Ends exec pass.oracle (pass.cleared file mode)
      fun calls => pass.Visited file (creations calls) := by
  have replied :
      ∀ current,
        exec (.getStorageClass pass.storageClass)
          (pass.oracle (.getStorageClass pass.storageClass)) current =
          some (.ok storage, current) := fun current =>
    congrArg (fun reply => some (reply, current)) classRead
  apply Program.Ends.call (replied _)
  cases mode with
  | block => exact ends_provisionBlock classRead decided
  | filesystem => exact ends_provisionFilesystem classRead mounted decided
  | other name => exact (pass.mode?_ne_other file name determined).elim

/-- `InProgress` asks the lister of jobs or the table. -/
theorem ends_inProgress
    (pass : ClassPass)
    (file : String)
    (mode : VolumeMode) :
    (inProgress (pass.pvName file) (pass.usejob mode)).Ends exec pass.oracle
        pass.world
      fun calls busy later =>
        creations calls = [] ∧ busy = pass.cleaning file mode ∧
          later = pass.world := by
  unfold inProgress cleaning
  cases pass.usejob mode with
  | true => exact .call rfl (.done ⟨rfl, rfl, rfl⟩)
  | false => exact .call rfl (.done ⟨rfl, rfl, rfl⟩)

/-- `RemoveJob` asks for the deletion of a listed job that has succeeded. -/
theorem ends_removeJob
    (pass : ClassPass)
    (file : String)
    (mode : VolumeMode)
    (byJob : pass.usejob mode = true) :
    (removeJob pass.discoverer.toRuntimeConfig (pass.pvName file)).Ends exec
        pass.oracle pass.world
      fun calls result later =>
        creations calls = [] ∧ result.isOk = pass.removes file mode ∧
          later = pass.cleared file mode := by
  have replied :
      exec (.getJob (pass.jobName file))
        (pass.oracle (.getJob (pass.jobName file))) pass.world =
        some (pass.listedJob file, pass.world) := rfl
  unfold removes cleared
  rw [if_pos byJob, if_pos byJob]
  cases listed : pass.listedJob file with
  | error err =>
      rw [listed] at replied
      apply Program.Ends.call replied
      cases err with
      | notFound => exact .done ⟨rfl, rfl, rfl⟩
      | alreadyExists => exact .done ⟨rfl, rfl, rfl⟩
      | other message => exact .done ⟨rfl, rfl, rfl⟩
  | ok job =>
      rw [listed] at replied
      apply Program.Ends.call replied
      change Program.Ends _ _
        (removeListedJob pass.discoverer.toRuntimeConfig job) _ _
      unfold removeListedJob
      by_cases unfinished : job.succeeded = 0
      · rw [if_pos unfinished]
        apply Program.Ends.done
        simp [unfinished, creations, creation?, Except.isOk, Except.toBool]
      · rw [if_neg unfinished]
        have deleted :
            exec (.deleteJob job.name pass.discoverer.namespaceName)
              (pass.deletion job) pass.world =
              some (pass.world.execDeleteJob (pass.deletion job) job.name) :=
          rfl
        simp only [unfinished, ne_eq, not_false_eq_true, decide_true,
          Bool.true_and, if_false]
        generalize pass.world.execDeleteJob (pass.deletion job) job.name = made
          at deleted
        obtain ⟨reply, later⟩ := made
        apply Program.Ends.call deleted
        cases reply with
        | error err => exact .done ⟨rfl, rfl, rfl⟩
        | ok _ => exact .done ⟨rfl, rfl, rfl⟩

/-- `RemoveStatus` deletes a finished job or takes an entry out of the table. -/
theorem ends_removeStatus
    (pass : ClassPass)
    (file : String)
    (mode : VolumeMode) :
    (removeStatus pass.discoverer.toRuntimeConfig (pass.pvName file)
        (pass.usejob mode)).Ends exec pass.oracle pass.world
      fun calls result later =>
        creations calls = [] ∧ result.isOk = pass.removes file mode ∧
          later = pass.cleared file mode := by
  cases byJob : pass.usejob mode with
  | true => exact pass.ends_removeJob file mode byJob
  | false =>
      unfold removes cleared
      rw [byJob]
      exact .call rfl (.done ⟨rfl, rfl, rfl⟩)

/-- The loop body for a file whose name and path are unused. -/
theorem ends_provisionUnlessCleaning
    (classRead : pass.class? = .ok storage)
    {mountPoints : List String}
    (mounted : pass.mountPoints? = .ok mountPoints)
    (determined : pass.mode? file = some mode)
    (uncached : pass.cachedPV file = none)
    (unused : pass.pathInUse file = false) :
    (provisionUnlessCleaning pass.discoverer (pass.candidate storage file)
        mountPoints mode).Ends exec pass.oracle pass.world
      fun calls => pass.Visited file (creations calls) := by
  unfold provisionUnlessCleaning
  apply Program.Ends.bind (pass.ends_inProgress file mode)
  rintro asked busy later ⟨askedOnly, rfl, rfl⟩
  simp only [creations_append, askedOnly, List.nil_append]
  cases busy : pass.cleaning file mode with
  | true =>
      apply Program.Ends.done
      apply Visited.skipped
      simp [verdict, determined, uncached, busy]
  | false =>
      apply Program.Ends.bind (pass.ends_removeStatus file mode)
      rintro taken result later ⟨takenOnly, succeeded, rfl⟩
      simp only [creations_append, takenOnly, List.nil_append]
      cases result with
      | error err =>
          have refused : pass.removes file mode = false := succeeded.symm
          apply Program.Ends.done
          apply Visited.held
          simp [verdict, determined, uncached, unused, busy, refused]
      | ok status =>
          have removed : pass.removes file mode = true := succeeded.symm
          apply ends_provision classRead mounted determined
          simp [verdict, determined, uncached, unused, busy, removed]

/-- The loop body for a file with a cached PV. -/
theorem ends_skipExisting
    (determined : pass.mode? file = some mode)
    {pv : PersistentVolume}
    (cached : pass.cachedPV file = some pv) :
    (skipExisting pv (pass.pvName file) (pass.filePath file)
        mode).Ends exec pass.oracle pass.world
      fun calls => pass.Visited file (creations calls) := by
  unfold skipExisting
  split
  · rename_i conflict
    apply Program.Ends.call rfl
    apply Program.Ends.done
    apply Visited.reported
    simp [verdict, determined, cached, conflict.1, conflict.2]
  · rename_i noConflict
    apply Program.Ends.done
    apply Visited.skipped
    simp [verdict, determined, cached, noConflict]

/-- The loop body does what the verdict says. -/
theorem ends_discoverFile
    (classRead : pass.class? = .ok storage)
    {mountPoints : List String}
    (mounted : pass.mountPoints? = .ok mountPoints)
    (file : String) :
    (discoverFile pass.discoverer pass.storageClass pass.config
        (storage.reclaimPolicy.getD .delete) mountPoints
        file).Ends exec pass.oracle pass.world
      fun calls => pass.Visited file (creations calls) := by
  apply Program.Ends.call rfl
  change Program.Ends _ _ ((getVolumeMode (pass.filePath file)).bind _) _ _
  apply Program.Ends.bind (pass.ends_getVolumeMode pass.world file)
  intro probes found later probed
  obtain ⟨noRequest, rfl, modeFound⟩ := probed
  change Program.Ends _ _ _ _ fun calls =>
    pass.Visited file (creations (probes ++ calls))
  simp only [creations_append, noRequest, List.nil_append]
  cases found with
  | error err =>
      have undetermined : pass.mode? file = none := modeFound.symm
      apply Program.Ends.done
      apply Visited.reported
      simp [verdict, undetermined]
  | ok mode =>
      have determined : pass.mode? file = some mode := modeFound.symm
      have looked :
          exec (.getPV (pass.pvName file))
            (pass.oracle (.getPV (pass.pvName file))) pass.world =
            some (pass.cachedPV file, pass.world) := rfl
      cases cached : pass.cachedPV file with
      | some pv =>
          rw [cached] at looked
          apply Program.Ends.call looked
          exact ends_skipExisting determined cached
      | none =>
          rw [cached] at looked
          apply Program.Ends.call looked
          have lookedByPath :
              exec
                (.lookupPVsByPath (pass.pvName file) (pass.outsidePath file))
                (pass.oracle (.lookupPVsByPath (pass.pvName file)
                  (pass.outsidePath file))) pass.world =
                some (VolumeCache.lookupPVsByPath pass.world.cache
                  (pass.outsidePath file), pass.world) := rfl
          cases used :
              VolumeCache.lookupPVsByPath pass.world.cache
                (pass.outsidePath file) with
          | cons other others =>
              rw [used] at lookedByPath
              apply Program.Ends.call lookedByPath
              apply Program.Ends.done
              apply Visited.skipped
              simp [verdict, determined, cached, pathInUse, used]
          | nil =>
              rw [used] at lookedByPath
              apply Program.Ends.call lookedByPath
              apply ends_provisionUnlessCleaning classRead mounted determined
                cached
              simp [pathInUse, used]

end LoopBody

end ClassPass

end LocalProvisioner
