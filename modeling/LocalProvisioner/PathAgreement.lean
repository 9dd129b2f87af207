import LocalProvisioner.Confinement
import LocalProvisioner.UnixPathNames

namespace LocalProvisioner

open Interleaving UnixPath

/-!
# Discovery and cleaning agree on paths

Discovery probes a file at `Join(MountDir, file)` and publishes a PV with the
local path `Join(HostDir, file)`.  The deleter has only the PV: it computes
the container path by `Rel` and `Join`, and `cleanPV` compares it with the
mount directory as a string.  The paths agree however the two directories are
spelled; the comparison does not accept every spelling of the mount directory.
-/

section Built

variable {discoverer : Discoverer} {candidate : Candidate}
variable {mountOptions : List String} {capacityByte : Int}
variable {answer : (op : Op) → Option op.Reply} {pv : PersistentVolume}

/-- What `createPV` builds for a file lies at the file's path on the host. -/
theorem localSource_of_mem_calls_createPV
    (built :
      .createPV pv ∈
        Program.calls answer
          (createPV discoverer candidate mountOptions capacityByte)) :
    ∃ source,
      pv.localSource = some source ∧
        source.path = candidate.outsidePath ∧
        pv.storageClassName = candidate.storageClass := by
  obtain ⟨affinityAnn, -, rfl⟩ := localPV_of_mem_calls_createPV built
  exact ⟨_, rfl, rfl, rfl⟩

/-- The container path of a file's path on the host is the probed path. -/
theorem containerPath_outsidePath
    (pvName : String)
    (entry : EntryName candidate.file) :
    containerPath pvName candidate.outsidePath candidate.config =
      .ok candidate.filePath := by
  rw [containerPath, Candidate.outsidePath, rel_join_name _ entry]
  rfl

/--
The path that the deleter computes for a PV is the path at which discovery
probed the file the PV was built for, whatever the spelling of the host and
mount directories.
-/
theorem getContainerPath_of_created
    (entry : EntryName candidate.file)
    (built :
      .createPV pv ∈
        Program.calls answer
          (createPV discoverer candidate mountOptions capacityByte)) :
    pv.localPath =
        some (join [candidate.config.hostDir, candidate.file]) ∧
      getContainerPath pv candidate.config =
        pure (.ok (join [candidate.config.mountDir, candidate.file])) := by
  obtain ⟨source, isLocal, atPath, -⟩ :=
    localSource_of_mem_calls_createPV built
  constructor
  · rw [PersistentVolume.localPath, isLocal, Option.map_some, atPath]
    rfl
  · rw [getContainerPath, isLocal]
    simp only
    rw [atPath, containerPath_outsidePath pv.name entry]
    rfl

end Built

/-- A discoverer on the sample node with one class. -/
def discovererFor (hostDir mountDir : String) : Discoverer :=
  sampleDiscoverer false (AList.insert "fast" (sampleMount hostDir mountDir) ∅)

/-- A file of that class. -/
def sampleCandidate (hostDir mountDir : String) : Candidate where
  file := "volume"
  storageClass := "fast"
  config := sampleMount hostDir mountDir
  reclaimPolicy := .delete
  startTime := 0

/-- The PV that `createPV` builds for the file. -/
def sampleBuiltPV (hostDir mountDir : String) : PersistentVolume :=
  localPV (discovererFor hostDir mountDir) (sampleCandidate hostDir mountDir)
    [] 0 ""

theorem mem_calls_createPV_sampleBuiltPV (hostDir mountDir : String) :
    .createPV (sampleBuiltPV hostDir mountDir) ∈
      Program.calls (fun _ => none)
        (createPV (discovererFor hostDir mountDir)
          (sampleCandidate hostDir mountDir) [] 0) :=
  .head _

theorem getContainerPath_of_unclean_directories :
    (sampleBuiltPV "/mnt//disks/." "..//fast/").localPath =
        some (join ["/mnt//disks/.", "volume"]) ∧
      getContainerPath (sampleBuiltPV "/mnt//disks/." "..//fast/")
          (sampleMount "/mnt//disks/." "..//fast/") =
        pure (.ok (join ["..//fast/", "volume"])) :=
  getContainerPath_of_created
    ⟨by decide, by decide, by decide, by decide⟩
    (mem_calls_createPV_sampleBuiltPV "/mnt//disks/." "..//fast/")

example : join ["..//fast/", "volume"] = "../fast/volume" := by
  decide

/-!
## The check of the mount directory

`cleanPV` refuses to clean a path that does not start with the text of the
mount directory.  `Join` cleans the path, but nothing cleans the configured
mount directory.
-/

/--
Whatever the surroundings answer, the cleaners that are started for a PV work
on a path that passes the check of `cleanPV`.
-/
def CleaningAccepted (runtime : RuntimeConfig) (pv : PersistentVolume) : Prop :=
  ∀ (answer : (op : Op) → Option op.Reply) (work : CleanerWork),
    .spawnCleaner work ∈ Program.calls answer (reclaimPV runtime pv) →
    hasPrefix work.mountPath work.config.mountDir = true

/--
The spellings of the mount directory that pass the check for a file: the clean
one, except `.`; what `Join` writes in front of the file, which adds a slash
unless there is one; the same with a dot, for a file that starts with a dot;
and `/..`, for a file that starts with two.
-/
def AcceptedSpelling (mountDir file : String) : Prop :=
  clean mountDir = mountDir ∧ mountDir ≠ "." ∨
    mountDir.toList = stem mountDir ∨
    mountDir.toList = stem mountDir ++ ['.'] ∧ hasPrefix file "." = true ∨
    mountDir = "/.." ∧ hasPrefix file ".." = true

/-- The check compares the texts of the two paths. -/
theorem hasPrefix_join_name_iff
    {mountDir file : String}
    (nonempty : mountDir ≠ "")
    (entry : EntryName file) :
    hasPrefix (join [mountDir, file]) mountDir = true ↔
      AcceptedSpelling mountDir file := by
  have cleaned :
      mountDir.toList = (lexical mountDir).render ↔
        clean mountDir = mountDir := by
    rw [clean, ← String.toList_inj, String.toList_ofList, eq_comm]
  have current : mountDir.toList ≠ dot ↔ mountDir ≠ "." :=
    not_congr (@String.toList_inj mountDir ".")
  have upAtRoot : mountDir.toList = '/' :: dotDot ↔ mountDir = "/.." :=
    @String.toList_inj mountDir "/.."
  have textual :
      ∀ text leading : String,
        hasPrefix text leading = true ↔ leading.toList <+: text.toList := by
    intro text leading
    rw [hasPrefix, List.isPrefixOf_iff_prefix]
  rw [AcceptedSpelling, textual, textual, textual,
    prefix_join_name_iff nonempty entry, cleaned, current, upAtRoot]
  rfl

section Reclaimed

variable {runtime : RuntimeConfig} {config : MountConfig}
variable {pv : PersistentVolume} {source : LocalVolumeSource}
variable {mountPath : String}

/-- Reporting a failed deletion starts no cleaning. -/
theorem only_reportFailedDelete
    {allowed : Op → Prop}
    (harmless : ∀ op : Op, op.startsCleaning = false → allowed op)
    (runtime : RuntimeConfig)
    (pv : PersistentVolume)
    (err : String) :
    Program.Only allowed (reportFailedDelete runtime pv err) := by
  refine (only_getVolMode harmless runtime pv).bind ?_
  rintro (errMode | mode) <;>
    exact .call (harmless _ rfl) fun _ => .call (harmless _ rfl) fun _ => .done

/-- For a PV that is to be reclaimed, `deletePV` is called. -/
theorem reclaimPV_of_reclaimable (reclaimable : Reclaimable pv) :
    ∃ next : Except String Unit → Routine Unit,
      reclaimPV runtime pv = (deletePV runtime pv).bind next ∧
        next (.ok ()) = pure () ∧
        ∀ err, next (.error err) = reportFailedDelete runtime pv err := by
  obtain ⟨released, notDeleted, policy⟩ := reclaimable
  simp only [reclaimPV, released, notDeleted, policy, ne_eq, not_true_eq_false,
    if_false]
  exact ⟨_, rfl, rfl, fun _ => rfl⟩

/-- The check is passed if and only if the container path passes it. -/
theorem cleaningAccepted_iff
    (reclaimable : Reclaimable pv)
    (isLocal : pv.localSource = some source)
    (ofClass : runtime.discoveryMap.lookup pv.storageClassName = some config)
    (container : containerPath pv.name source.path config = .ok mountPath) :
    CleaningAccepted runtime pv ↔
      hasPrefix mountPath config.mountDir = true := by
  obtain ⟨next, reclaims, onSuccess, onError⟩ :=
    @reclaimPV_of_reclaimable runtime pv reclaimable
  rw [CleaningAccepted, reclaims]
  constructor
  · intro accepted
    have spawned := spawns_directory isLocal ofClass container
    refine accepted directoryAnswers
      { pv, volMode := .filesystem, mountPath, config } ?_
    rw [Program.calls_bind]
    exact List.mem_append_left _ spawned
  · intro inside answer work spawned
    have harmless :
        ∀ op : Op,
          op.startsCleaning = false →
          ∀ work,
            op = .spawnCleaner work →
            hasPrefix work.mountPath work.config.mountDir = true := by
      rintro op starts work rfl
      cases starts
    have only :
        Program.Only
          (fun op : Op =>
            ∀ work,
              op = .spawnCleaner work →
              hasPrefix work.mountPath work.config.mountDir = true)
          (deletePV runtime pv) := by
      refine only_deletePV harmless isLocal ofClass ?_ ?_
      · intro volMode otherPath sameContainer work same
        rw [container] at sameContainer
        cases sameContainer
        cases same
        exact inside
      · intro _ _ _ job _ work impossible
        cases impossible
    refine (only.bind ?_).of_mem_calls spawned work rfl
    rintro (err | _)
    · rw [onError]
      exact only_reportFailedDelete harmless runtime pv err
    · rw [onSuccess]
      exact .done

end Reclaimed

/--
A PV that `createPV` built for a file of an accepted class can be reclaimed
under the same configuration, as far as the check is concerned, exactly if the
mount directory has an accepted spelling.
-/
theorem cleaningAccepted_iff_acceptedSpelling
    {discoverer : Discoverer}
    {candidate : Candidate}
    {settings configured : MountSettings}
    {mountOptions : List String}
    {capacityByte : Int}
    {answer : (op : Op) → Option op.Reply}
    {pv released : PersistentVolume}
    (accepted : configureClass candidate.storageClass settings = .ok configured)
    (ofClass :
      discoverer.discoveryMap.lookup candidate.storageClass =
        some configured.toMountConfig)
    (sameConfig : candidate.config = configured.toMountConfig)
    (entry : EntryName candidate.file)
    (built :
      .createPV pv ∈
        Program.calls answer
          (createPV discoverer candidate mountOptions capacityByte))
    (sameSource : released.localSource = pv.localSource)
    (sameClass : released.storageClassName = pv.storageClassName)
    (reclaimable : Reclaimable released) :
    CleaningAccepted discoverer.toRuntimeConfig released ↔
      AcceptedSpelling settings.mountDir candidate.file := by
  obtain ⟨source, isLocal, atPath, inClass⟩ :=
    localSource_of_mem_calls_createPV built
  have container := containerPath_outsidePath released.name entry
  rw [← atPath] at container
  have ofClassToo :
      discoverer.discoveryMap.lookup released.storageClassName =
        some candidate.config := by
    rw [sameClass, inClass, ofClass, sameConfig]
  have mountDir : candidate.config.mountDir = settings.mountDir := by
    obtain ⟨-, rfl⟩ := configureClass_ok_iff.mp accepted
    rw [sameConfig]
    rfl
  obtain ⟨nonempty, -⟩ := directories_of_configureClass accepted
  have sameMountDir : configured.mountDir = settings.mountDir := by
    rw [← mountDir, sameConfig]
    rfl
  rw [cleaningAccepted_iff reclaimable (sameSource.trans isLocal) ofClassToo
    container, mountDir, Candidate.filePath, mountDir]
  exact hasPrefix_join_name_iff (sameMountDir ▸ nonempty) entry

/-- The PV of the sample file after its claim is gone. -/
def sampleReclaimablePV (hostDir mountDir : String) : PersistentVolume :=
  { sampleBuiltPV hostDir mountDir with phase := .released }

theorem cleaningAccepted_of_clean_mountDir :
    CleaningAccepted (discovererFor "/mnt/disks" "/mnt/fast").toRuntimeConfig
      (sampleReclaimablePV "/mnt/disks" "/mnt/fast") := by
  have accepted :
      configureClass "fast" sampleSettings =
        .ok sampleSettings.withDefaults :=
    configureClass_ok_iff.mpr ⟨by decide, rfl⟩
  have sameSource :
      (sampleReclaimablePV "/mnt/disks" "/mnt/fast").localSource =
        (sampleBuiltPV "/mnt/disks" "/mnt/fast").localSource := rfl
  have spelled : AcceptedSpelling sampleSettings.mountDir "volume" :=
    .inl ⟨by decide, by decide⟩
  exact (cleaningAccepted_iff_acceptedSpelling accepted (by decide) rfl
    ⟨by decide, by decide, by decide, by decide⟩
    (mem_calls_createPV_sampleBuiltPV "/mnt/disks" "/mnt/fast") sameSource rfl
    ⟨rfl, rfl, rfl⟩).mpr spelled

/-- Two slashes in an accepted mount directory: the PV cannot be reclaimed. -/
theorem cleaning_refused_of_double_slash :
    ∃ (settings configured : MountSettings)
        (answer : (op : Op) → Option op.Reply)
        (work : CleanerWork),
      configureClass "fast" settings = .ok configured ∧
        (discovererFor "/mnt/disks" "/mnt//fast").discoveryMap.lookup "fast" =
          some configured.toMountConfig ∧
        Reclaimable (sampleReclaimablePV "/mnt/disks" "/mnt//fast") ∧
        .spawnCleaner work ∈
          Program.calls answer
            (reclaimPV (discovererFor "/mnt/disks" "/mnt//fast").toRuntimeConfig
              (sampleReclaimablePV "/mnt/disks" "/mnt//fast")) ∧
        work.mountPath = "/mnt/fast/volume" ∧
        ∀ action, cleanPV work ≠ .ok action := by
  have reclaimable :
      Reclaimable (sampleReclaimablePV "/mnt/disks" "/mnt//fast") :=
    ⟨rfl, rfl, rfl⟩
  obtain ⟨next, reclaims, -⟩ :=
    @reclaimPV_of_reclaimable
      (discovererFor "/mnt/disks" "/mnt//fast").toRuntimeConfig _ reclaimable
  have spawned :=
    @spawns_directory
      (discovererFor "/mnt/disks" "/mnt//fast").toRuntimeConfig
      (sampleMount "/mnt/disks" "/mnt//fast")
      (sampleReclaimablePV "/mnt/disks" "/mnt//fast") _ "/mnt/fast/volume"
      rfl (by decide) (by decide +kernel)
  refine ⟨{ sampleSettings with mountDir := "/mnt//fast" }, _,
    directoryAnswers,
    { pv := sampleReclaimablePV "/mnt/disks" "/mnt//fast"
      volMode := .filesystem
      mountPath := "/mnt/fast/volume"
      config := sampleMount "/mnt/disks" "/mnt//fast" },
    configureClass_ok_iff.mpr ⟨by decide, rfl⟩,
    by decide, reclaimable, ?_, rfl, ?_⟩
  · rw [reclaims, Program.calls_bind]
    exact List.mem_append_left _ spawned
  · intro action cleaned
    have refused :
        hasPrefix "/mnt/fast/volume"
            (sampleMount "/mnt/disks" "/mnt//fast").mountDir = false := by
      decide
    simp [cleanPV, refused] at cleaned

end LocalProvisioner
