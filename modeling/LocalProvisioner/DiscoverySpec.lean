import LocalProvisioner.DiscoveryWalk
import Mathlib.Data.List.TakeWhile

namespace LocalProvisioner

open Interleaving

/-!
# What a discovery pass of one class does

With in-process cleaning, a pass over the files of a discovery directory is
the same as judging each file by itself: by the answers of the file system
about its path, by the cached PVs, and by whether a cleaner for its name is
running.  The files that a pass makes PVs for, and those it reports an error
for, do not depend on their order or on the other files, although each file
may take an entry out of the table of cleaners.
-/

namespace ClassPass

/-- The nonempty components of the name pattern. -/
def patterns (pass : ClassPass) : List String :=
  ((pass.config.namePattern.toList.splitOn ',').map String.ofList).filter
    fun pattern => decide (pattern ≠ "")

/-- The name pattern is empty, or one of its components matches the file. -/
def selects (pass : ClassPass) (file : String) : Bool :=
  decide (pass.config.namePattern = "") ||
    pass.patterns.any fun pattern =>
      match GlobPattern.fileMatch pattern file with
      | .ok matched => matched
      | .error _ => false

/-- No cached PV has the path of a file, and no cleaner for its name runs. -/
def isFree (pass : ClassPass) (file : String) : Bool :=
  ((VolumeCache.listPVs pass.world.cache).all fun pv =>
      decide (pv.localPath ≠ some (pass.outsidePath file))) &&
    !pass.world.procTable.isRunning (pass.pvName file)

/-- The files for which a PV is to be created. -/
def creates (pass : ClassPass) (file : String) : Bool :=
  pass.selects file && (pass.cachedPV file).isNone && pass.isFree file &&
    (pass.mode? file).any fun mode => (pass.capacity? file mode).isSome

/--
The files that are reported: of undetermined mode; with a cached block PV but
a directory at the path; or without a capacity to make a PV of.
-/
def reports (pass : ClassPass) (file : String) : Bool :=
  pass.selects file &&
    (pass.mode? file).all fun mode =>
      match pass.cachedPV file with
      | some pv =>
          decide (pv.volumeMode = some .block) && decide (mode = .filesystem)
      | none => pass.isFree file && (pass.capacity? file mode).isNone

/-- The PV that is created for a file. -/
def pvFor (pass : ClassPass) (storage : StorageClass) (file : String) :
    PersistentVolume :=
  localPV pass.discoverer (pass.candidate storage file) storage.mountOptions
    (((pass.mode? file).bind (pass.capacity? file)).getD 0)
    ((generateAffinityAnn pass.discoverer pass.config).toOption.getD "")

end ClassPass

/-- The assumptions under which a pass walks over all files. -/
structure ClassPass.Undisturbed
    (pass : ClassPass)
    (storage : StorageClass)
    (files : List String) : Prop where
  /-- The storage class exists, -/
  storageClass : pass.class? = .ok storage
  /-- with policy Retain or Delete. -/
  policy :
    storage.reclaimPolicy.getD .delete = .retain ∨
      storage.reclaimPolicy.getD .delete = .delete
  /-- `ReadDir` and `Mounter.List` succeed, -/
  listing : pass.files? = .ok files
  mounts : ∃ mountPoints, pass.mountPoints? = .ok mountPoints
  /-- and every name pattern is well formed. -/
  wellFormed :
    ∀ pattern ∈ pass.patterns,
    ∀ file ∈ files,
      ∃ matched, GlobPattern.fileMatch pattern file = .ok matched
  /-- Cleaning is in-process, -/
  inProcess : pass.discoverer.useJobForCleaning = false
  /-- in whatever state the tracker is. -/
  tracker : pass.world.procTable.Made
  /-- Node affinities can be marshalled, as `json.Marshal` does. -/
  marshals :
    ∀ selector,
      ∃ text, pass.discoverer.marshalAffinity selector = .ok text

namespace ClassPass

section Files

variable {pass : ClassPass}
variable {storage : StorageClass}
variable {files : List String}

/-- The pattern loop with well-formed patterns. -/
theorem matchesSome_eq
    {components : List String}
    {file : String}
    (wellFormed :
      ∀ pattern ∈ components.filter fun pattern => decide (pattern ≠ ""),
        ∃ matched, GlobPattern.fileMatch pattern file = .ok matched) :
    matchesSome file components =
      .ok ((components.filter fun pattern => decide (pattern ≠ "")).any
        fun pattern =>
          match GlobPattern.fileMatch pattern file with
          | .ok matched => matched
          | .error _ => false) := by
  induction components with
  | nil => rfl
  | cons pattern rest inductionHypothesis =>
      by_cases blank : pattern = ""
      · subst blank
        exact inductionHypothesis wellFormed
      · rw [List.filter_cons_of_pos (by simpa using blank)] at wellFormed ⊢
        obtain ⟨matched, fits⟩ := wellFormed pattern List.mem_cons_self
        rw [matchesSome, if_neg blank, fits, List.any_cons, fits]
        cases matched with
        | true => rfl
        | false =>
            exact inductionHypothesis fun other member =>
              wellFormed other (List.mem_cons_of_mem _ member)

/-- Which files are selected. -/
theorem selectsFile_eq
    (undisturbed : pass.Undisturbed storage files)
    {file : String}
    (listed : file ∈ files) :
    selectsFile pass.config file = .ok (pass.selects file) := by
  unfold selectsFile selects
  by_cases unnamed : pass.config.namePattern = ""
  · simp [unnamed]
  · rw [if_neg unnamed, decide_eq_false unnamed, Bool.false_or]
    exact matchesSome_eq fun pattern member =>
      undisturbed.wellFormed pattern member file listed

/-- Whether a file is free, by what the loop body looks up. -/
theorem isFree_eq_lookup (pass : ClassPass) (file : String) :
    pass.isFree file =
      ((VolumeCache.lookupPVsByPath pass.world.cache
          (pass.outsidePath file)).isEmpty &&
        !pass.world.procTable.isRunning (pass.pvName file)) := by
  rw [VolumeCache.isEmpty_lookupPVsByPath]
  rfl

/-- The loop over the files is reached, -/
theorem listing?_eq (undisturbed : pass.Undisturbed storage files) :
    pass.listing? = some files := by
  obtain ⟨mountPoints, mounted⟩ := undisturbed.mounts
  simp [listing?, undisturbed.storageClass, undisturbed.listing, mounted,
    undisturbed.policy]

/-- no malformed pattern ends it, -/
theorem accepts_eq
    (undisturbed : pass.Undisturbed storage files)
    {file : String}
    (listed : file ∈ files) :
    pass.accepts file = true := by
  simp [accepts, selectsFile_eq undisturbed listed, Except.isOk,
    Except.toBool]

/-- and its body is run for the selected files. -/
theorem walked_eq (undisturbed : pass.Undisturbed storage files) :
    pass.walked = files.filter pass.selects := by
  have all : files.takeWhile pass.accepts = files :=
    List.takeWhile_eq_self_iff.mpr fun file listed =>
      accepts_eq undisturbed listed
  simp only [walked, listing?_eq undisturbed, Option.map_some,
    Option.getD_some, taken, all]
  apply List.filter_congr
  intro file listed
  simp [takes, selectsFile_eq undisturbed listed]

/-- With in-process cleaning, no status of an idle volume is in the way. -/
theorem removes_eq
    (undisturbed : pass.Undisturbed storage files)
    {file : String}
    {mode : VolumeMode}
    (idle : pass.world.procTable.isRunning (pass.pvName file) = false) :
    pass.removes file mode = true := by
  obtain ⟨status, removed⟩ :=
    ProcTable.removeEntry_ok idle (undisturbed.tracker.known _)
  simp [removes, usejob, undisturbed.inProcess, removed, Except.isOk,
    Except.toBool]

/-- The verdict about a file without PV. -/
theorem verdict_of_uncached
    (undisturbed : pass.Undisturbed storage files)
    {file : String}
    {mode : VolumeMode}
    (determined : pass.mode? file = some mode)
    (uncached : pass.cachedPV file = none) :
    pass.verdict file =
      if pass.isFree file then
        .ofCapacity mode (pass.capacity? file mode)
      else
        .skipped := by
  have tracked :
      pass.cleaning file mode =
        pass.world.procTable.isRunning (pass.pvName file) := by
    simp [cleaning, usejob, undisturbed.inProcess]
  simp only [verdict, determined, uncached, tracked, isFree_eq_lookup,
    pathInUse]
  cases idle : pass.world.procTable.isRunning (pass.pvName file) with
  | true => simp
  | false =>
      rw [removes_eq undisturbed idle]
      cases (VolumeCache.lookupPVsByPath pass.world.cache
        (pass.outsidePath file)).isEmpty <;> rfl

/-- The affinity annotation can be made. -/
theorem exists_generateAffinityAnn
    (undisturbed : pass.Undisturbed storage files) :
    ∃ text, generateAffinityAnn pass.discoverer pass.config = .ok text := by
  unfold generateAffinityAnn
  split
  · obtain ⟨text, marshalled⟩ :=
      undisturbed.marshals {
        nodeSelectorTerms :=
          pass.discoverer.nodeSelector.nodeSelectorTerms ++
            pass.config.selector }
    exact ⟨text, by rw [marshalled]⟩
  · exact ⟨"", rfl⟩

/-- The request of a volume is for the PV that `pvFor` describes. -/
theorem request?_of_volume
    (undisturbed : pass.Undisturbed storage files)
    {file : String}
    {mode : VolumeMode}
    {bytes : Int}
    (determined : pass.mode? file = some mode)
    (readable : pass.capacity? file mode = some bytes)
    (decided : pass.verdict file = .volume mode bytes) :
    pass.request? file = some (pass.pvFor storage file) := by
  obtain ⟨text, annotated⟩ := exists_generateAffinityAnn undisturbed
  simp [request?, decided, undisturbed.storageClass, Except.toOption, pvOf,
    annotated, pvFor, determined, readable]

/-- A selected file is requested and reported as `creates` and `reports` say. -/
theorem judged
    (undisturbed : pass.Undisturbed storage files)
    {file : String}
    (selected : pass.selects file = true) :
    pass.request? file =
        (if pass.creates file then some (pass.pvFor storage file) else none) ∧
      pass.fails file = pass.reports file := by
  cases determined : pass.mode? file with
  | none =>
      have decided : pass.verdict file = .reported := by
        simp [verdict, determined]
      simp [request?, fails, decided, creates, reports, selected, determined]
  | some mode =>
      cases cached : pass.cachedPV file with
      | some pv =>
          by_cases conflict : pv.volumeMode = some .block ∧ mode = .filesystem
          · have decided : pass.verdict file = .reported := by
              simp [verdict, determined, cached, conflict]
            simp [request?, fails, decided, creates, reports, selected,
              determined, cached, conflict]
          · have decided : pass.verdict file = .skipped := by
              simp [verdict, determined, cached, conflict]
            simp [request?, fails, decided, creates, reports, selected,
              determined, cached]
            simpa using conflict
      | none =>
          have decided := verdict_of_uncached undisturbed determined cached
          cases free : pass.isFree file with
          | false =>
              rw [free, if_neg (by simp)] at decided
              simp [request?, fails, decided, creates, reports, selected,
                determined, cached, free]
          | true =>
              rw [free, if_pos rfl] at decided
              cases readable : pass.capacity? file mode with
              | none =>
                  rw [readable] at decided
                  have unusable : pass.verdict file = .unusable mode := decided
                  simp [request?, fails, unusable, creates, reports, selected,
                    determined, cached, free, readable]
              | some bytes =>
                  rw [readable] at decided
                  have volume : pass.verdict file = .volume mode bytes :=
                    decided
                  have requested :=
                    request?_of_volume undisturbed determined readable volume
                  simp [fails, volume, requested, creates, reports, selected,
                    determined, cached, free, readable]

/-- The requests of the selected files, in the order of the listing. -/
theorem filterMap_request?
    (undisturbed : pass.Undisturbed storage files)
    (listed : List String) :
    (listed.filter pass.selects).filterMap pass.request? =
      (listed.filter pass.creates).map (pass.pvFor storage) := by
  induction listed with
  | nil => rfl
  | cons file rest inductionHypothesis =>
      cases selected : pass.selects file with
      | false =>
          have refused : pass.creates file = false := by
            simp [creates, selected]
          simpa [selected, refused] using inductionHypothesis
      | true =>
          obtain ⟨requested, -⟩ := judged undisturbed selected
          cases decision : pass.creates file with
          | false => simpa [selected, decision, requested] using inductionHypothesis
          | true => simpa [selected, decision, requested] using inductionHypothesis

/-- An undisturbed pass, file by file. -/
theorem ends_undisturbed
    (undisturbed : pass.Undisturbed storage files) :
    (discoverVolumesAtPath pass.discoverer pass.storageClass
        pass.config).Ends exec pass.oracle pass.world
      fun calls result _ =>
        (creations calls).map Prod.fst =
            (files.filter pass.creates).map (pass.pvFor storage) ∧
          (result = .ok () ↔
            (∀ file ∈ files, pass.reports file = false) ∧
              allCreated calls) := by
  obtain ⟨calls, result, later, traced, walked⟩ :=
    pass.ends_discoverVolumesAtPath
  have completes : pass.completes = true := by
    simp only [completes, listing?_eq undisturbed, Option.any_some,
      List.all_eq_true]
    exact fun file listed => accepts_eq undisturbed listed
  refine ⟨calls, result, later, traced, ?_, ?_⟩
  · rw [walked.requested, walked_eq undisturbed,
      filterMap_request? undisturbed]
  · have clean :
        (∀ file ∈ pass.walked, pass.fails file = false) ↔
          ∀ file ∈ files, pass.reports file = false := by
      rw [walked_eq undisturbed]
      simp only [List.mem_filter, and_imp]
      constructor
      · intro clean file listed
        cases selected : pass.selects file with
        | false => simp [reports, selected]
        | true =>
            rw [← (judged undisturbed selected).2]
            exact clean file listed selected
      · intro clean file listed selected
        rw [(judged undisturbed selected).2]
        exact clean file listed
    rw [walked.clean completes, clean]
    rfl

end Files

/--
Two passes of one class with the same answers about a file: the order of the
listing, the other files, the rest of the mount table and the other entries of
the table may differ.
-/
structure AgreesAbout (pass other : ClassPass) (file : String) : Prop where
  discoverer : other.discoverer = pass.discoverer
  storageClass : other.storageClass = pass.storageClass
  config : other.config = pass.config
  cache : other.world.cache = pass.world.cache
  cleaning :
    other.world.procTable.isRunning (pass.pvName file) =
      pass.world.procTable.isRunning (pass.pvName file)
  isDir :
    (other.oracle (.isDir (pass.filePath file))).probe =
      (pass.oracle (.isDir (pass.filePath file))).probe
  isBlock :
    (other.oracle (.isBlock (pass.filePath file))).probe =
      (pass.oracle (.isBlock (pass.filePath file))).probe
  isMountPoint :
    pass.filePath file ∈ other.mountPoints?.toOption.getD [] ↔
      pass.filePath file ∈ pass.mountPoints?.toOption.getD []
  blockCapacity :
    (other.oracle (.getBlockCapacityByte (pass.filePath file))).bytes =
      (pass.oracle (.getBlockCapacityByte (pass.filePath file))).bytes
  fsCapacity :
    (other.oracle (.getFsCapacityByte (pass.outsidePath file)
        (pass.filePath file))).bytes =
      (pass.oracle (.getFsCapacityByte (pass.outsidePath file)
        (pass.filePath file))).bytes

namespace AgreesAbout

variable {pass other : ClassPass}
variable {file : String}

theorem selects_eq (agrees : pass.AgreesAbout other file) :
    other.selects file = pass.selects file := by
  simp only [selects, patterns, agrees.config]

theorem pvName_eq (agrees : pass.AgreesAbout other file) :
    other.pvName file = pass.pvName file := by
  simp only [pvName, agrees.discoverer, agrees.storageClass]

theorem filePath_eq (agrees : pass.AgreesAbout other file) :
    other.filePath file = pass.filePath file := by
  simp only [filePath, agrees.config]

theorem outsidePath_eq (agrees : pass.AgreesAbout other file) :
    other.outsidePath file = pass.outsidePath file := by
  simp only [outsidePath, agrees.config]

theorem cachedPV_eq (agrees : pass.AgreesAbout other file) :
    other.cachedPV file = pass.cachedPV file := by
  simp only [cachedPV, agrees.cache, agrees.pvName_eq]

theorem isFree_eq (agrees : pass.AgreesAbout other file) :
    other.isFree file = pass.isFree file := by
  simp only [isFree, agrees.cache, agrees.outsidePath_eq, agrees.pvName_eq,
    agrees.cleaning]

theorem mode?_eq (agrees : pass.AgreesAbout other file) :
    other.mode? file = pass.mode? file := by
  simp only [mode?, agrees.filePath_eq, agrees.isDir, agrees.isBlock]

theorem capacity?_eq
    (agrees : pass.AgreesAbout other file)
    (mode : VolumeMode) :
    other.capacity? file mode = pass.capacity? file mode := by
  cases mode with
  | block =>
      simp only [capacity?, agrees.filePath_eq, agrees.blockCapacity]
  | filesystem =>
      simp only [capacity?, agrees.config, agrees.filePath_eq,
        agrees.outsidePath_eq, agrees.isMountPoint, agrees.fsCapacity]
  | other _ => rfl

/-- Both passes create a PV for the file, or none does. -/
theorem creates_eq (agrees : pass.AgreesAbout other file) :
    other.creates file = pass.creates file := by
  simp only [creates, agrees.selects_eq, agrees.cachedPV_eq, agrees.isFree_eq,
    agrees.mode?_eq, agrees.capacity?_eq]

/-- Both passes report the file, or none does. -/
theorem reports_eq (agrees : pass.AgreesAbout other file) :
    other.reports file = pass.reports file := by
  simp only [reports, agrees.selects_eq, agrees.cachedPV_eq, agrees.isFree_eq,
    agrees.mode?_eq, agrees.capacity?_eq]

end AgreesAbout

end ClassPass

/--
A discovery pass of a class requests PVs for exactly the files that `creates`
describes, in the order of the listing, and it returns nil exactly if no file
is one that `reports` describes and every request has succeeded.  Both depend
on what the surroundings say about the file alone.
-/
theorem discoverVolumesAtPath_exact
    {pass : ClassPass}
    {storage : StorageClass}
    {files : List String}
    (undisturbed : pass.Undisturbed storage files) :
    (∃ calls result later,
      pass.run = (calls, .ok (result, later)) ∧
        (creations calls).map Prod.fst =
          (files.filter pass.creates).map (pass.pvFor storage) ∧
        (result = .ok () ↔
          (∀ file ∈ files, pass.reports file = false) ∧ allCreated calls)) ∧
      ∀ other file,
        pass.AgreesAbout other file →
        other.creates file = pass.creates file ∧
          other.reports file = pass.reports file :=
  ⟨ClassPass.ends_undisturbed undisturbed,
    fun _ _ agrees => ⟨agrees.creates_eq, agrees.reports_eq⟩⟩

/--
A directory with a volume that is being cleaned, a volume that is not, and a
text file.
-/
def sampleDirectory : Op → Answers
  | .getStorageClass _ =>
      { storageClass := .ok { reclaimPolicy := none, mountOptions := [] } }
  | .readDir _ => { names := .ok ["cleaned", "volume", "README"] }
  | .listMounts => { names := .ok ["/mnt/fast/cleaned", "/mnt/fast/volume"] }
  | .isDir path => { probe := .ok (decide (path ≠ "/mnt/fast/README")) }
  | _ => {}

/-- A pass over that directory. -/
def samplePass : ClassPass where
  discoverer := sampleDiscoverer false sampleClasses
  storageClass := "fast"
  config := sampleMount "/mnt/disks" "/mnt/fast"
  oracle := sampleDirectory
  world :=
    { World.empty with
      procTable :=
        (ProcTable.newProcTable.markRunning
          (generatePVName "cleaned" "node" "fast") 0).2 }

/-- It creates one PV, and fails because of the text file. -/
theorem discoverVolumesAtPath_sampleDirectory :
    ∃ calls result later,
      samplePass.run = (calls, .ok (result, later)) ∧
        (creations calls).map Prod.fst =
          [samplePass.pvFor { reclaimPolicy := none, mountOptions := [] }
            "volume"] ∧
        result ≠ .ok () := by
  have undisturbed :
      samplePass.Undisturbed { reclaimPolicy := none, mountOptions := [] }
        ["cleaned", "volume", "README"] := {
    storageClass := rfl
    policy := .inr rfl
    listing := rfl
    mounts := ⟨_, rfl⟩
    wellFormed := by
      intro pattern member file _
      have isStar : pattern = "*" := by
        have onlyStar : samplePass.patterns = ["*"] := by decide
        simpa [onlyStar] using member
      subst isStar
      exact ⟨_, rfl⟩
    inProcess := rfl
    tracker := .markRunning _ 0 .new
    marshals := fun _ => ⟨"", rfl⟩
  }
  obtain ⟨⟨calls, result, later, ran, requested, clean⟩, _⟩ :=
    discoverVolumesAtPath_exact undisturbed
  have wanted :
      ["cleaned", "volume", "README"].filter samplePass.creates = ["volume"] := by
    decide +kernel
  have reported : samplePass.reports "README" = true := by decide +kernel
  refine ⟨calls, result, later, ran, ?_, ?_⟩
  · rw [requested, wanted]
    rfl
  · intro returnsNil
    have unreported := (clean.mp returnsNil).1 "README" (by simp)
    rw [reported] at unreported
    cases unreported

end LocalProvisioner
