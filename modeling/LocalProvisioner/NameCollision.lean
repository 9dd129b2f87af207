import LocalProvisioner.PathUniqueness
import LocalProvisioner.DiscoverySpec

namespace LocalProvisioner

open Interleaving

/-!
# Volumes that share a name

A file is skipped if a cached PV has its name, and the name is a hash of the
file, the node and the class, written one after the other without separators.
A volume of one class is therefore taken for a volume of another if the end of
its file name can be moved across the name of the node to the start of the
class.  It is also taken for the volume that had its place before if the host
directory of the class has changed, since the directory is no part of the name.

FNV-1a is assumed to tell the byte strings of the volumes at hand apart.
-/

/-- A file in the directory of a class. -/
structure Volume where
  file : String
  storageClass : String
  hostDir : String
  deriving Repr, DecidableEq

namespace Volume

/-- The local path of a PV for the volume. -/
def path (volume : Volume) : String :=
  UnixPath.join [volume.hostDir, volume.file]

/-- The name of a PV for the volume. -/
def pvName (volume : Volume) (node : String) : String :=
  generatePVName volume.file node volume.storageClass

/-- The bytes that the name is a hash of. -/
def key (volume : Volume) (node : String) : List UInt8 :=
  utf8Bytes volume.file ++ utf8Bytes node ++ utf8Bytes volume.storageClass

/--
The second file name is longer, and what it has in addition can be moved across
the node's name to the class, which gives the first volume.
-/
def Shifted (node : String) (first second : Volume) : Prop :=
  ∃ moved arrived,
    moved ≠ "" ∧
      second.file = first.file ++ moved ∧
      first.storageClass = arrived ++ second.storageClass ∧
      moved ++ node = node ++ arrived

end Volume

/-- The volume that a PV is made for. -/
def Candidate.volume (candidate : Candidate) : Volume where
  file := candidate.file
  storageClass := candidate.storageClass
  hostDir := candidate.config.hostDir

/-- The volume behind a file of a pass. -/
def ClassPass.volume (pass : ClassPass) (file : String) : Volume where
  file
  storageClass := pass.storageClass
  hostDir := pass.config.hostDir

/--
A PV that the provisioner on a node has created for a volume.  The API server,
users and controllers may have changed it since, but not its class and source.
-/
def CreatedFor
    (node : String)
    (volume : Volume)
    (pv : PersistentVolume) : Prop :=
  ∃ discoverer candidate mountOptions capacityByte answer built,
    discoverer.node.name = node ∧
      candidate.volume = volume ∧
      .createPV built ∈
        (createPV discoverer candidate mountOptions capacityByte).calls
          answer ∧
      pv.name = built.name ∧
      pv.storageClassName = built.storageClassName ∧
      pv.localSource = built.localSource

/--
A pass looks the name of a listed file up, finds a PV in the cache, and skips
the file for it.
-/
structure ClassPass.SkipsFor
    (pass : ClassPass)
    (file : String)
    (pv : PersistentVolume) : Prop where
  listed : ∃ files, pass.files? = .ok files ∧ file ∈ files
  found :
    (⟨.getPV (pass.pvName file), some pv⟩ : Answered syncSignature) ∈
      pass.run.1

/--
On this node, with PVs created for these volumes in the cache, no pass over one
of the volumes skips it for the PV of another.
-/
def SkipsOwn (node : String) (volumes : Set Volume) : Prop :=
  ∀ (pass : ClassPass) (file : String) (pv : PersistentVolume),
    pass.discoverer.node.name = node →
    pass.volume file ∈ volumes →
    (∀ cached ∈ VolumeCache.listPVs pass.world.cache,
      ∃ volume ∈ volumes, CreatedFor node volume cached) →
    pass.SkipsFor file pv →
    pv.storageClassName = pass.storageClass ∧
      pv.localPath = some (pass.outsidePath file)

/-- Different files or classes have different names. -/
def NamesApart (node : String) (volumes : Set Volume) : Prop :=
  ∀ first ∈ volumes,
  ∀ second ∈ volumes,
    (first.file, first.storageClass) ≠ (second.file, second.storageClass) →
    first.pvName node ≠ second.pvName node

/-- The hash has no collision on these volumes. -/
def HashedApart (node : String) (volumes : Set Volume) : Prop :=
  ∀ first ∈ volumes,
  ∀ second ∈ volumes,
    fnv32a (first.key node) = fnv32a (second.key node) →
    first.key node = second.key node

/-- No volume is another one with a part of its file name moved. -/
def Unshifted (node : String) (volumes : Set Volume) : Prop :=
  ∀ first ∈ volumes,
  ∀ second ∈ volumes,
    ¬ Volume.Shifted node first second

/-- Each file of a class stays at its path. -/
def PathsSettled (volumes : Set Volume) : Prop :=
  ∀ first ∈ volumes,
  ∀ second ∈ volumes,
    first.file = second.file →
    first.storageClass = second.storageClass →
    first.path = second.path

/-!
## Equal names
-/

section Texts

/-- Hexadecimal digits are told apart. -/
theorem digitChar_injective :
    ∀ first second : Fin 16,
      Nat.digitChar first = Nat.digitChar second →
      first = second := by
  decide

/-- A number of several digits has more than one. -/
theorem toDigits_append_ne_singleton
    (value : Nat)
    (last digit : Char) :
    Nat.toDigits 16 value ++ [last] ≠ [digit] := by
  intro same
  rcases List.append_eq_singleton_iff.mp same with ⟨empty, _⟩ | ⟨_, empty⟩
  · exact Nat.toDigits_ne_nil empty
  · cases empty

/-- The hexadecimal digits of a number determine it. -/
theorem toDigits_injective
    {first second : Nat}
    (same : Nat.toDigits 16 first = Nat.toDigits 16 second) :
    first = second := by
  induction first using Nat.strong_induction_on generalizing second with
  | _ first inductionHypothesis =>
      have sixteen : 1 < 16 := by decide
      have sameLast :
          Nat.digitChar (first % 16) = Nat.digitChar (second % 16) →
          first % 16 = second % 16 := by
        intro sameDigit
        exact congrArg Fin.val
          (digitChar_injective ⟨first % 16, by omega⟩ ⟨second % 16, by omega⟩
            sameDigit)
      rw [Nat.toDigits_eq_if sixteen, @Nat.toDigits_eq_if 16 second sixteen]
        at same
      by_cases firstSmall : first < 16
      · rw [if_pos firstSmall] at same
        by_cases secondSmall : second < 16
        · rw [if_pos secondSmall] at same
          rw [Nat.mod_eq_of_lt firstSmall, Nat.mod_eq_of_lt secondSmall]
            at sameLast
          exact sameLast (List.singleton_inj.mp same)
        · rw [if_neg secondSmall] at same
          exact (toDigits_append_ne_singleton _ _ _ same.symm).elim
      · rw [if_neg firstSmall] at same
        by_cases secondSmall : second < 16
        · rw [if_pos secondSmall] at same
          exact (toDigits_append_ne_singleton _ _ _ same).elim
        · rw [if_neg secondSmall] at same
          obtain ⟨sameInit, sameDigit⟩ := List.append_inj' same rfl
          have sameQuotient : first / 16 = second / 16 :=
            inductionHypothesis (first / 16) (by omega) sameInit
          have sameRest := sameLast (List.singleton_inj.mp sameDigit)
          omega

/-- The UTF-8 bytes of a text determine it. -/
theorem utf8Bytes_injective
    {first second : String}
    (same : utf8Bytes first = utf8Bytes second) :
    first = second := by
  have sameArray : first.toByteArray = second.toByteArray := by
    rw [← String.utf8Encode_toList, ← String.utf8Encode_toList]
    exact congrArg List.toByteArray same
  exact String.toByteArray_inj.mp sameArray

/-- The bytes of a text that is written after another one. -/
theorem utf8Bytes_append (first second : String) :
    utf8Bytes (first ++ second) = utf8Bytes first ++ utf8Bytes second := by
  simp [utf8Bytes]

/-- A part that is found at two places of a list, the later one given second. -/
theorem exists_moved_of_append_eq
    {α : Type}
    {before after longer rest middle : List α}
    (same : before ++ middle ++ after = longer ++ middle ++ rest)
    (earlier : before.length ≤ longer.length) :
    ∃ moved arrived,
      longer = before ++ moved ∧
        after = arrived ++ rest ∧
        moved ++ middle = middle ++ arrived := by
  have startsWith : before <+: longer := by
    have first : before <+: before ++ middle ++ after :=
      ⟨middle ++ after, by simp⟩
    have second : longer <+: before ++ middle ++ after :=
      ⟨middle ++ rest, by simp [same]⟩
    exact List.prefix_of_prefix_length_le first second earlier
  obtain ⟨moved, rfl⟩ := startsWith
  have cancelled : middle ++ after = moved ++ middle ++ rest := by
    simpa using same
  have middleFirst : middle <+: moved ++ middle := by
    have first : middle <+: middle ++ after := ⟨after, rfl⟩
    have second : moved ++ middle <+: middle ++ after :=
      ⟨rest, cancelled.symm⟩
    exact List.prefix_of_prefix_length_le first second (by simp)
  obtain ⟨arrived, shifted⟩ := middleFirst
  refine ⟨moved, arrived, rfl, ?_, shifted.symm⟩
  rw [← shifted, List.append_assoc] at cancelled
  exact List.append_cancel_left cancelled

/-- The same for texts. -/
theorem exists_movedText_of_append_eq
    {before after longer rest middle : String}
    (same : before ++ middle ++ after = longer ++ middle ++ rest)
    (earlier : before.toList.length ≤ longer.toList.length) :
    ∃ moved arrived,
      longer = before ++ moved ∧
        after = arrived ++ rest ∧
        moved ++ middle = middle ++ arrived := by
  have sameCharacters := congrArg String.toList same
  simp only [String.toList_append] at sameCharacters
  obtain ⟨moved, arrived, longerEq, afterEq, shifted⟩ :=
    exists_moved_of_append_eq sameCharacters earlier
  refine ⟨.ofList moved, .ofList arrived, ?_, ?_, ?_⟩
  · exact String.toList_inj.mp (by simpa using longerEq)
  · exact String.toList_inj.mp (by simpa using afterEq)
  · exact String.toList_inj.mp (by simpa using shifted)

end Texts

namespace Volume

variable {node : String}
variable {first second : Volume}

theorem key_eq (volume : Volume) (node : String) :
    volume.key node =
      utf8Bytes (volume.file ++ node ++ volume.storageClass) := by
  rw [utf8Bytes_append, utf8Bytes_append]
  rfl

/-- Equal hashes give equal names, and no others do. -/
theorem pvName_eq_iff :
    first.pvName node = second.pvName node ↔
      fnv32a (first.key node) = fnv32a (second.key node) := by
  constructor
  · intro sameName
    have sameDigits :
        hexadecimal (fnv32a (first.key node)) =
          hexadecimal (fnv32a (second.key node)) :=
      (String.append_right_inj _).mp sameName
    exact toDigits_injective (String.ofList_inj.mp sameDigits)
  · intro sameHash
    exact congrArg (fun hash => "local-pv-" ++ hexadecimal hash) sameHash

/-- Moving a part of the file name does not change the hashed bytes. -/
theorem Shifted.key_eq (shifted : Shifted node first second) :
    first.key node = second.key node := by
  obtain ⟨moved, arrived, _, longer, sameClass, across⟩ := shifted
  rw [Volume.key_eq, Volume.key_eq, longer, sameClass]
  congr 1
  calc
    first.file ++ node ++ (arrived ++ second.storageClass) =
        first.file ++ (node ++ arrived) ++ second.storageClass := by
      simp only [String.append_assoc]
    _ = first.file ++ (moved ++ node) ++ second.storageClass := by
      rw [across]
    _ = first.file ++ moved ++ node ++ second.storageClass := by
      simp only [String.append_assoc]

/-- Within a class no part of a file name can be moved. -/
theorem Shifted.storageClass_ne (shifted : Shifted node first second) :
    first.storageClass ≠ second.storageClass := by
  obtain ⟨moved, arrived, nonempty, _, sameClass, across⟩ := shifted
  intro same
  rw [same] at sameClass
  have nothingArrived : arrived = "" :=
    String.append_eq_right_iff.mp sameClass.symm
  subst nothingArrived
  rw [String.append_empty] at across
  exact nonempty (String.append_eq_right_iff.mp across)

/-- Equal bytes of a shorter and a longer file name. -/
theorem same_or_shifted
    (sameKey : first.key node = second.key node)
    (shorter : first.file.toList.length ≤ second.file.toList.length) :
    (first.file = second.file ∧ first.storageClass = second.storageClass) ∨
      Shifted node first second := by
  rw [key_eq, key_eq] at sameKey
  obtain ⟨moved, arrived, longer, sameClass, across⟩ :=
    exists_movedText_of_append_eq (utf8Bytes_injective sameKey) shorter
  by_cases nothingMoved : moved = ""
  · subst nothingMoved
    rw [String.empty_append] at across
    have nothingArrived : arrived = "" :=
      String.append_eq_left_iff.mp across.symm
    subst nothingArrived
    rw [String.append_empty] at longer
    rw [String.empty_append] at sameClass
    exact .inl ⟨longer.symm, sameClass⟩
  · exact .inr ⟨moved, arrived, nothingMoved, longer, sameClass, across⟩

/-- The bytes of two volumes are equal in these cases. -/
theorem key_eq_cases (sameKey : first.key node = second.key node) :
    (first.file = second.file ∧ first.storageClass = second.storageClass) ∨
      Shifted node first second ∨ Shifted node second first := by
  rcases Nat.le_total first.file.toList.length second.file.toList.length with
    shorter | longer
  · rcases same_or_shifted sameKey shorter with same | shifted
    · exact .inl same
    · exact .inr (.inl shifted)
  · rcases same_or_shifted sameKey.symm longer with same | shifted
    · exact .inl ⟨same.1.symm, same.2.symm⟩
    · exact .inr (.inr shifted)

end Volume

/-- Unless a part of a file name can be moved, a name has one file and class. -/
theorem same_of_pvName_eq
    {node : String}
    {volumes : Set Volume}
    {first second : Volume}
    (hashedApart : HashedApart node volumes)
    (unshifted : Unshifted node volumes)
    (firstIn : first ∈ volumes)
    (secondIn : second ∈ volumes)
    (sameName : first.pvName node = second.pvName node) :
    first.file = second.file ∧ first.storageClass = second.storageClass := by
  have sameKey :=
    hashedApart first firstIn second secondIn (Volume.pvName_eq_iff.mp sameName)
  rcases Volume.key_eq_cases sameKey with same | shifted | shifted
  · exact same
  · exact (unshifted first firstIn second secondIn shifted).elim
  · exact (unshifted second secondIn first firstIn shifted).elim

/-- Names are apart exactly if no part of a file name can be moved. -/
theorem namesApart_iff_unshifted
    {node : String}
    {volumes : Set Volume}
    (hashedApart : HashedApart node volumes) :
    NamesApart node volumes ↔ Unshifted node volumes := by
  constructor
  · intro apart first firstIn second secondIn shifted
    refine apart first firstIn second secondIn ?_ ?_
    · intro same
      exact shifted.storageClass_ne (Prod.mk.inj same).2
    · exact Volume.pvName_eq_iff.mpr (congrArg fnv32a shifted.key_eq)
  · intro unshifted first firstIn second secondIn different sameName
    obtain ⟨sameFile, sameClass⟩ :=
      same_of_pvName_eq hashedApart unshifted firstIn secondIn sameName
    exact different (Prod.ext sameFile sameClass)

/-!
## Cached PVs
-/

/-- What a PV tells about the volume it was created for. -/
theorem CreatedFor.identity
    {node : String}
    {volume : Volume}
    {pv : PersistentVolume}
    (created : CreatedFor node volume pv) :
    pv.name = volume.pvName node ∧
      pv.storageClassName = volume.storageClass ∧
      pv.localPath = some volume.path := by
  obtain ⟨discoverer, candidate, mountOptions, capacityByte, answer, built,
    rfl, rfl, requested, sameName, sameClass, sameSource⟩ := created
  obtain ⟨affinityAnn, -, rfl⟩ := localPV_of_mem_calls_createPV requested
  refine ⟨sameName, sameClass, ?_⟩
  rw [PersistentVolume.localPath, sameSource]
  rfl

/-- The provisioner on a node, as far as the names of PVs matter. -/
def provisionerOn (node : String) : Discoverer :=
  { sampleDiscoverer false ∅ with node := { sampleNode with name := node } }

/-- The class of a volume. -/
def mountOf (volume : Volume) : MountConfig :=
  { sampleMount volume.hostDir "/mnt" with namePattern := "" }

/-- What the provisioner knows of a volume when it creates the PV. -/
def candidateFor (volume : Volume) : Candidate where
  file := volume.file
  storageClass := volume.storageClass
  config := mountOf volume
  reclaimPolicy := .delete
  startTime := 0

/-- A PV that this provisioner creates for a volume. -/
def firstPV (node : String) (volume : Volume) : PersistentVolume :=
  localPV (provisionerOn node) (candidateFor volume) [] 0 ""

theorem createdFor_firstPV (node : String) (volume : Volume) :
    CreatedFor node volume (firstPV node volume) :=
  ⟨provisionerOn node, candidateFor volume, [], 0, fun _ => none,
    firstPV node volume, rfl, rfl, List.mem_cons_self, rfl, rfl, rfl⟩

/-- What a pass finds is in the cache. -/
theorem ClassPass.SkipsFor.cached
    {pass : ClassPass}
    {file : String}
    {pv : PersistentVolume}
    (skips : pass.SkipsFor file pv) :
    VolumeCache.getPV pass.world.cache (pass.pvName file) = some pv := by
  obtain ⟨current, later, sameCache, executed⟩ :=
    Program.exists_exec_of_mem_trace
      (fun current => current.cache = pass.world.cache)
      (fun _ _ _ _ same executed => (cache_of_exec executed).trans same)
      rfl skips.found
  rw [← sameCache]
  exact congrArg Prod.fst (Option.some.inj executed)

/-- A directory with one volume. -/
def oneFile (file : String) : Op → Answers
  | .getStorageClass _ =>
      { storageClass := .ok { reclaimPolicy := none, mountOptions := [] } }
  | .readDir _ => { names := .ok [file] }
  | _ => { probe := .ok true }

/-- A pass over the class of one volume with the PV of another in the cache. -/
def passWith (node : String) (volume other : Volume) : ClassPass where
  discoverer := provisionerOn node
  storageClass := volume.storageClass
  config := mountOf volume
  oracle := oneFile volume.file
  world :=
    { World.empty with cache := ObjectStore.empty.put (firstPV node other) }

/-- It finds that PV if the names are equal. -/
theorem ends_passWith
    {node : String}
    {volume other : Volume}
    (sameName : other.pvName node = volume.pvName node) :
    (discoverVolumesAtPath (provisionerOn node) volume.storageClass
        (mountOf volume)).Ends exec (oneFile volume.file)
        (passWith node volume other).world
      fun calls _ _ =>
        (⟨.getPV (volume.pvName node), some (firstPV node other)⟩ :
          Answered syncSignature) ∈ calls := by
  have found :
      VolumeCache.getPV (ObjectStore.empty.put (firstPV node other))
        (other.pvName node) = some (firstPV node other) :=
    ObjectStore.get_put_self _ (firstPV node other)
  rw [sameName] at found
  have looked :
      exec (.getPV (volume.pvName node))
        (oneFile volume.file (.getPV (volume.pvName node)))
        (passWith node volume other).world =
        some (some (firstPV node other), (passWith node volume other).world) :=
    congrArg (fun reply => some (reply, (passWith node volume other).world))
      found
  -- the class, the listing and the mounts, then the clock and the mode
  refine .call rfl (.call rfl (.call rfl (.call rfl (.call rfl ?_))))
  refine .call looked ?_
  refine .call rfl (.call rfl (.done ?_))
  exact .tail _ (.tail _ (.tail _ (.tail _ (.tail _ (.head _)))))

/-- So it skips the volume. -/
theorem skipsFor_passWith
    {node : String}
    {volume other : Volume}
    (sameName : other.pvName node = volume.pvName node) :
    (passWith node volume other).SkipsFor volume.file (firstPV node other) where
  listed := ⟨[volume.file], rfl, List.mem_singleton_self volume.file⟩
  found := by
    obtain ⟨calls, result, later, traced, found⟩ := ends_passWith sameName
    have ran : (passWith node volume other).run.1 = calls :=
      congrArg Prod.fst traced
    rw [ran]
    exact found

/-- The PV of one volume is found under the name of another. -/
theorem same_of_skipsOwn
    {node : String}
    {volumes : Set Volume}
    {first second : Volume}
    (skipsOwn : SkipsOwn node volumes)
    (firstIn : first ∈ volumes)
    (secondIn : second ∈ volumes)
    (sameName : first.pvName node = second.pvName node) :
    first.storageClass = second.storageClass ∧ first.path = second.path := by
  have provisioned :
      ∀ cached ∈
        VolumeCache.listPVs (passWith node second first).world.cache,
        ∃ volume ∈ volumes, CreatedFor node volume cached := by
    intro cached listed
    have stored :
        (ObjectStore.empty.put (firstPV node first)).get cached.name =
          some cached :=
      ObjectStore.mem_list.mp listed
    rw [ObjectStore.get_put] at stored
    have isFirst : cached = firstPV node first := by
      split at stored
      · exact (Option.some.inj stored).symm
      · simp at stored
    subst isFirst
    exact ⟨first, firstIn, createdFor_firstPV node first⟩
  obtain ⟨sameClass, samePath⟩ :=
    skipsOwn (passWith node second first) second.file (firstPV node first) rfl
      secondIn provisioned (skipsFor_passWith sameName)
  exact ⟨sameClass, Option.some.inj samePath⟩

/-- A cached PV of the right name is the file's own. -/
theorem skipsOwn_of_unshifted
    {node : String}
    {volumes : Set Volume}
    (hashedApart : HashedApart node volumes)
    (unshifted : Unshifted node volumes)
    (settled : PathsSettled volumes) :
    SkipsOwn node volumes := by
  intro pass file pv onNode configured provisioned skips
  have stored :
      VolumeCache.getPV pass.world.cache (pass.pvName file) = some pv :=
    skips.cached
  have named : pv.name = pass.pvName file := ObjectStore.name_of_get stored
  obtain ⟨volume, volumeIn, created⟩ :=
    provisioned pv (ObjectStore.mem_list.mpr (ObjectStore.get_name stored))
  obtain ⟨sameName, sameClass, samePath⟩ := created.identity
  have sameNames : volume.pvName node = (pass.volume file).pvName node := by
    rw [← sameName, named, ← onNode]
    rfl
  obtain ⟨fileEq, classEq⟩ :=
    same_of_pvName_eq hashedApart unshifted volumeIn configured sameNames
  constructor
  · exact sameClass.trans classEq
  · rw [samePath, settled volume volumeIn _ configured fileEq classEq]
    rfl

/--
No pass skips a volume for the PV of another one exactly if no part of a file
name can be moved across the node's name to the class, and the host directory
of no class changes.  Names are apart exactly under the first condition.
-/
theorem skips_own_iff_unshifted
    {node : String}
    {volumes : Set Volume}
    (hashedApart : HashedApart node volumes) :
    (SkipsOwn node volumes ↔ Unshifted node volumes ∧ PathsSettled volumes) ∧
      (NamesApart node volumes ↔ Unshifted node volumes) := by
  refine ⟨⟨?_, ?_⟩, namesApart_iff_unshifted hashedApart⟩
  · intro skipsOwn
    constructor
    · intro first firstIn second secondIn shifted
      have sameName : first.pvName node = second.pvName node :=
        Volume.pvName_eq_iff.mpr (congrArg fnv32a shifted.key_eq)
      exact shifted.storageClass_ne
        (same_of_skipsOwn skipsOwn firstIn secondIn sameName).1
    · intro first firstIn second secondIn sameFile sameClass
      have sameName : first.pvName node = second.pvName node := by
        rw [Volume.pvName, Volume.pvName, sameFile, sameClass]
      exact (same_of_skipsOwn skipsOwn firstIn secondIn sameName).2
  · rintro ⟨unshifted, settled⟩
    exact skipsOwn_of_unshifted hashedApart unshifted settled

/-- Two files of one class. -/
def oneClass : Set Volume :=
  {⟨"volume", "fast", "/mnt/disks"⟩, ⟨"spare", "fast", "/mnt/disks"⟩}

/-- The PVs of one class are never mistaken for each other. -/
theorem skips_own_oneClass :
    HashedApart "node" oneClass ∧ SkipsOwn "node" oneClass := by
  have hashedApart : HashedApart "node" oneClass := by
    rintro first (rfl | rfl) second (rfl | rfl) sameHash
    · rfl
    · exact absurd sameHash (by decide)
    · exact absurd sameHash (by decide)
    · rfl
  refine ⟨hashedApart, (skips_own_iff_unshifted hashedApart).1.mpr ⟨?_, ?_⟩⟩
  · rintro first (rfl | rfl) second (rfl | rfl) shifted
    all_goals exact shifted.storageClass_ne rfl
  · rintro first (rfl | rfl) second (rfl | rfl) sameFile sameClass
    · rfl
    · exact absurd sameFile (by decide)
    · exact absurd sameFile (by decide)
    · rfl

/-- Two classes whose volumes share a name on the sample node. -/
def overlappingClasses : GoMap MountConfig :=
  AList.insert "b" (sampleMount "/mnt/two" "/mnt/b")
    (AList.insert "nodeb" (sampleMount "/mnt/one" "/mnt/nodeb") ∅)

/-- A file of each class. -/
def overlapping : Set Volume :=
  {⟨"a", "nodeb", "/mnt/one"⟩, ⟨"anode", "b", "/mnt/two"⟩}

/-- A class with a block device, up to the look-up of its name. -/
def findsDevice (file : String) : List Action :=
  [.call { storageClass := .ok { reclaimPolicy := none, mountOptions := [] } },
    .call { names := .ok [file] }, .call {}, .call {}, .call {},
    .call { probe := .ok true }, .call {}]

/--
A pass over both classes: the first one creates a PV, the cache hears of it,
and the second one takes it for its own.
-/
def sharedNameRun : List Action :=
  [.beginPass, .call {}, .call { order := [1, 0] }] ++ findsDevice "a" ++
    sampleCalls 3 ++
    [.call { storageClass := .ok { reclaimPolicy := none, mountOptions := [] } }] ++
    sampleCalls 2 ++ [.disturb .deliverPV] ++ sampleCalls 3 ++
    findsDevice "anode" ++ sampleCalls 3

/-- The node is ready, and the one PV is cached under the second name. -/
def tookForOther (state : SyncState) : Bool :=
  state.rest.isDone && state.world.ready &&
    state.world.pvs.list.length == 1 &&
    (VolumeCache.getPV state.world.cache
      (generatePVName "anode" "node" "b")).any fun pv =>
        pv.storageClassName == "nodeb" && pv.localPath == some "/mnt/one/a"

/-- A volume of one class is taken for a volume of another. -/
theorem skipped_for_other_after_sharedNameRun :
    HashedApart "node" overlapping ∧
      ¬ SkipsOwn "node" overlapping ∧
      ¬ NamesApart "node" overlapping ∧
      ∃ state,
        anyMode.Reaches state ∧
          state.rest.isDone = true ∧
          state.world.ready = true ∧
          state.world.pvs.list.length = 1 ∧
          ∃ pv,
            VolumeCache.getPV state.world.cache
                (generatePVName "anode" "node" "b") = some pv ∧
              pv.storageClassName = "nodeb" ∧
              pv.localPath = some "/mnt/one/a" := by
  have shifted :
      Volume.Shifted "node" ⟨"a", "nodeb", "/mnt/one"⟩
        ⟨"anode", "b", "/mnt/two"⟩ :=
    ⟨"node", "node", by decide, rfl, rfl, rfl⟩
  have sameName :
      Volume.pvName ⟨"a", "nodeb", "/mnt/one"⟩ "node" =
        Volume.pvName ⟨"anode", "b", "/mnt/two"⟩ "node" :=
    Volume.pvName_eq_iff.mpr (congrArg fnv32a shifted.key_eq)
  refine ⟨?_, ?_, ?_, ?_⟩
  · rintro first (rfl | rfl) second (rfl | rfl) _
    · rfl
    · exact shifted.key_eq
    · exact shifted.key_eq.symm
    · rfl
  · intro skipsOwn
    exact shifted.storageClass_ne
      (same_of_skipsOwn skipsOwn (.inl rfl) (.inr rfl) sameName).1
  · intro apart
    exact apart _ (.inl rfl) _ (.inr rfl) (by decide) sameName
  · obtain ⟨state, reaches, checked⟩ :=
      anyMode.reaches_of_sampleRun false overlappingClasses sharedNameRun
        tookForOther trivial (by decide +kernel)
    simp only [tookForOther, Bool.and_eq_true, beq_iff_eq,
      Option.any_eq_true] at checked
    obtain ⟨⟨⟨ended, ready⟩, onePV⟩, pv, cached, ofOther⟩ := checked
    exact ⟨state, reaches, ended, ready, onePV, pv, cached, ofOther⟩

end LocalProvisioner
