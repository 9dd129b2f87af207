import LocalProvisioner.CleanerScripts
import LocalProvisioner.Deleter
import LocalProvisioner.FileTree
import LocalProvisioner.UnixPathNames

namespace LocalProvisioner

/-!
# Cleaning a filesystem volume

`DeleteContents` removes the entries of a volume one after the other and goes
on when one of them cannot be removed; the errors are collected.
`fsclean.sh`, which a cleaning job for a filesystem volume would run, pipes the
entries into `rm` instead.  Both are described on the same tree of files.
`os.RemoveAll`, `find` and `xargs` are parameters.  It is assumed that what is
told to remove an entry removes all that can be removed of it, and fails if
something is left.
-/

open FileTree (Hierarchy)
open UnixPath (Component EntryName)
open ShellScript

/-- Where a path leads, without links on the way. -/
def location (path : String) : List Component :=
  (UnixPath.lexical path).parts

theorem location_join
    (directory : String)
    {name : String}
    (entry : EntryName name) :
    location (UnixPath.join [directory, name]) =
      location directory ++ [name.toList] := by
  rw [location, UnixPath.lexical_join_name directory entry]
  rfl

/-- What a function like `os.RemoveAll` leaves of the files, and its error. -/
abbrev RemoveAll : Type :=
  Hierarchy Component → String → Hierarchy Component × Option String

/--
What is assumed of `os.RemoveAll` for the entries of a directory: it removes
what can be removed, and fails if something is left.
-/
structure RemovesEntries (removeAll : RemoveAll) (directory : String) :
    Prop where
  leaves :
    ∀ files name,
      EntryName name →
      (removeAll files (UnixPath.join [directory, name])).1 =
        files.removeAll (location (UnixPath.join [directory, name]))
  succeeds_iff :
    ∀ files name,
      EntryName name →
      ((removeAll files (UnixPath.join [directory, name])).2 = none ↔
        files.held (location (UnixPath.join [directory, name])) = false)

/-- The loop of `DeleteContents`: what is left, and the errors. -/
def removeFiles (removeAll : RemoveAll) (mountPath : String) :
    List String → Hierarchy Component → Hierarchy Component × List String
  | [], files => (files, [])
  | file :: rest, files =>
      let removed := removeAll files (UnixPath.join [mountPath, file])
      let (left, errList) := removeFiles removeAll mountPath rest removed.1
      (left, removed.2.toList ++ errList)

/-- `utilerrors.NewAggregate` and the text of its result. -/
def newAggregate : List String → Except String Unit
  | [] => .ok ()
  | [err] => .error err
  | errList => .error ("[" ++ ", ".intercalate errList ++ "]")

theorem newAggregate_eq_ok_iff (errList : List String) :
    newAggregate errList = .ok () ↔ errList = [] := by
  match errList with
  | [] => simp [newAggregate]
  | [_] => simp [newAggregate]
  | _ :: _ :: _ => simp [newAggregate]

/-- `DeleteContents`, given what opening and reading the directory returns. -/
def deleteContents
    (removeAll : RemoveAll)
    (files : Hierarchy Component)
    (mountPath : String)
    (readdirnames : Except String (List String)) :
    Hierarchy Component × Except String Unit :=
  match readdirnames with
  | .error err => (files, .error err)
  | .ok names =>
      let (left, errList) := removeFiles removeAll mountPath names files
      (left, newAggregate errList)

/-- The entries of a volume as a listing of it returns them. -/
structure ListsVolume
    (files : Hierarchy Component)
    (path : String)
    (names : List String) : Prop where
  entryNames : ∀ name ∈ names, EntryName name
  lists : files.Lists (location path) (names.map String.toList)

section Removal

variable {removeAll : RemoveAll}
variable {files : Hierarchy Component}
variable {mountPath : String}
variable {names : List String}

theorem removeFiles_fst
    (removes : RemovesEntries removeAll mountPath)
    (entryNames : ∀ name ∈ names, EntryName name) :
    (removeFiles removeAll mountPath names files).1 =
      files.removeEach
        ((names.map String.toList).map fun name =>
          location mountPath ++ [name]) := by
  induction names generalizing files with
  | nil => rfl
  | cons name rest ih =>
      have entry := entryNames name List.mem_cons_self
      rw [removeFiles, ih fun other member =>
        entryNames other (List.mem_cons_of_mem _ member),
        removes.leaves files name entry, location_join _ entry]
      rfl

theorem removeFiles_snd_eq_nil_iff
    (removes : RemovesEntries removeAll mountPath)
    (entryNames : ∀ name ∈ names, EntryName name) :
    (removeFiles removeAll mountPath names files).2 = [] ↔
      ∀ name ∈ names.map String.toList,
        files.held (location mountPath ++ [name]) = false := by
  induction names generalizing files with
  | nil => simp [removeFiles]
  | cons name rest ih =>
      have entry := entryNames name List.mem_cons_self
      have later := @ih (files.removeAll (location mountPath ++ [name.toList]))
        fun other member => entryNames other (List.mem_cons_of_mem _ member)
      have first := removes.succeeds_iff files name entry
      rw [location_join _ entry] at first
      simp only [Hierarchy.held_removeAll] at later
      rw [removeFiles, removes.leaves files name entry, location_join _ entry,
        List.append_eq_nil_iff, later, List.map_cons, List.forall_mem_cons,
        ← first, Option.toList_eq_nil_iff]

/-- What `DeleteContents` leaves, and when it reports success. -/
theorem deleteContents_spec
    (removes : RemovesEntries removeAll mountPath)
    (listed : ListsVolume files mountPath names) :
    (deleteContents removeAll files mountPath (.ok names)).1 =
        files.removeEach
          ((names.map String.toList).map fun name =>
            location mountPath ++ [name]) ∧
      ((deleteContents removeAll files mountPath (.ok names)).2 = .ok () ↔
        ∀ name ∈ names.map String.toList,
          files.held (location mountPath ++ [name]) = false) := by
  refine ⟨removeFiles_fst removes listed.entryNames, ?_⟩
  rw [← removeFiles_snd_eq_nil_iff removes listed.entryNames]
  exact newAggregate_eq_ok_iff _

end Removal

/-- Filesystem cleaners are recorded by what `DeleteContents` returns. -/
theorem cleaningOutcome_filesystem
    {work : CleanerWork}
    (isFilesystem : work.volMode = .filesystem)
    (guarded : hasPrefix work.mountPath work.config.mountDir = true)
    (result : Except String Unit) :
    cleaningOutcome work result = .succeeded ↔ result = .ok () := by
  have cleans :
      cleanPV work =
        .ok (.deleteContents (work.pv.localPath.getD "") work.mountPath) := by
    simp [cleanPV, guarded, isFilesystem]
  cases result <;> simp [cleaningOutcome, cleans]

/--
A filesystem volume is recorded as cleaned exactly if its directory could be
read and is empty afterwards.  If it cannot be read, nothing is removed.
Otherwise every entry that can be removed is gone, whatever is recorded.
Nothing outside the volume is touched, the directory itself included.
-/
theorem fileCleaning_recorded_iff_emptied
    {work : CleanerWork}
    {removeAll : RemoveAll}
    {files : Hierarchy Component}
    {readdirnames : Except String (List String)}
    (isFilesystem : work.volMode = .filesystem)
    (guarded : hasPrefix work.mountPath work.config.mountDir = true)
    (removes : RemovesEntries removeAll work.mountPath)
    (listed :
      ∀ names,
        readdirnames = .ok names →
        ListsVolume files work.mountPath names) :
    let cleaned := deleteContents removeAll files work.mountPath readdirnames
    (cleaningOutcome work cleaned.2 = .succeeded ↔
        readdirnames.isOk = true ∧
          ∀ entry ∈ cleaned.1.entries,
            ¬ Hierarchy.Below (location work.mountPath) entry) ∧
      ∀ entry,
        entry ∈ cleaned.1.entries ↔
          entry ∈ files.entries ∧
            (Hierarchy.Below (location work.mountPath) entry →
              readdirnames.isOk = true →
              ∃ obstacle ∈ files.entries,
                files.stuck obstacle = true ∧ entry <+: obstacle) := by
  intro cleaned
  rw [cleaningOutcome_filesystem isFilesystem guarded]
  cases readdirnames with
  | error err =>
      refine ⟨?_, ?_⟩
      · simp [cleaned, deleteContents, Except.isOk, Except.toBool]
      · simp [cleaned, deleteContents, Except.isOk, Except.toBool]
  | ok names =>
      have inVolume := listed names rfl
      obtain ⟨left, ok_iff⟩ := deleteContents_spec removes inVolume
      have readable :
          (Except.ok names : Except String (List String)).isOk = true := rfl
      refine ⟨?_, ?_⟩
      · rw [ok_iff, left, and_iff_right readable]
        exact (Hierarchy.emptied_iff inVolume.lists).symm
      · intro entry
        rw [left, Hierarchy.mem_removeEntries_iff inVolume.lists,
          Hierarchy.held_iff, forall_prop_of_true readable]

/-- The volume `/mnt/a` with one file. -/
def sampleFiles : Hierarchy Component :=
  Hierarchy.ofEntries
    [[], ["mnt".toList], ["mnt".toList, "a".toList],
      ["mnt".toList, "a".toList, "x".toList]]
    (fun _ => false) (by decide)

theorem listsVolume_sampleFiles : ListsVolume sampleFiles "/mnt/a" ["x"] where
  entryNames := by
    intro name member
    obtain rfl := List.mem_singleton.mp member
    exact ⟨by decide, by decide, by decide, by decide⟩
  lists := by
    intro name
    have here : location "/mnt/a" = ["mnt".toList, "a".toList] := by decide
    simp [here, sampleFiles, Hierarchy.ofEntries]

/-- Work on that volume. -/
def sampleFileWork : CleanerWork where
  pv :=
    { samplePV with
      localSource := some { path := "/mnt/a", fsType := none }
      volumeMode := some .filesystem
      phase := .released }
  volMode := .filesystem
  mountPath := "/mnt/a"
  config :=
    { hostDir := "/mnt"
      mountDir := "/mnt"
      blockCleanerCommand := []
      volumeMode := "Filesystem"
      accessMode := "ReadWriteOnce"
      fsType := ""
      namePattern := "*"
      selector := [] }

/-- A function that removes what can be removed. -/
def sampleRemoveAll : RemoveAll := fun files path =>
  (files.removeAll (location path),
    if files.held (location path) then some "operation not permitted" else none)

theorem removesEntries_sampleRemoveAll (directory : String) :
    RemovesEntries sampleRemoveAll directory where
  leaves := fun _ _ _ => rfl
  succeeds_iff := by
    intro files name _
    simp [sampleRemoveAll]

theorem fileCleaning_recorded_iff_emptied_of_sampleFileWork :
    let cleaned :=
      deleteContents sampleRemoveAll sampleFiles "/mnt/a" (.ok ["x"])
    cleaningOutcome sampleFileWork cleaned.2 = .succeeded ∧
      ∀ entry ∈ cleaned.1.entries,
        ¬ Hierarchy.Below (location "/mnt/a") entry := by
  have recorded :
      cleaningOutcome sampleFileWork
          (deleteContents sampleRemoveAll sampleFiles "/mnt/a"
            (.ok ["x"])).2 =
        .succeeded := by
    decide
  have listed :
      ∀ names,
        (.ok ["x"] : Except String (List String)) = .ok names →
        ListsVolume sampleFiles "/mnt/a" names := by
    rintro names ⟨⟩
    exact listsVolume_sampleFiles
  exact ⟨recorded,
    ((@fileCleaning_recorded_iff_emptied sampleFileWork sampleRemoveAll
      sampleFiles (.ok ["x"]) rfl (by decide)
      (removesEntries_sampleRemoveAll _) listed).1.mp recorded).2⟩

/-! ## The script -/

namespace CleanerScripts

/-- `LOCAL_PV_FILESYSTEM`. -/
def filesystem : Parameter :=
  .named localFilesystemEnv

/-- `validateFilesystem` of `common.sh`. -/
def validateFilesystem : Statement :=
  .call
    (.both
      (.branch (.unset localFilesystemEnv)
        (errorExit
          (plain "Environment variable LOCAL_PV_FILESYSTEM has not been set")))
      (.branch (.negated (.directory [.quoted filesystem]))
        (errorExit
          [.quoted filesystem, .text " is not a filesystem directory."])))
    []

def findWords : List Word :=
  [plain "ionice", plain "-c", plain "3", plain "find", [.quoted filesystem],
    plain "-mindepth", plain "1", plain "-maxdepth", plain "1",
    plain "-print0"]

def xargsWords : List Word :=
  [plain "xargs", plain "-0", plain "ionice", plain "-c", plain "3",
    plain "rm", plain "-rf"]

/-- `fsclean.sh`. -/
def fsclean : Script where
  errexit := true
  body :=
    .block
      (help [[.text "Usage: ", .quoted .scriptName],
        plain ("Invokes fsclean on the filesystem directory specified by " ++
          "environment variable LOCAL_PV_FILESYSTEM")])
      [validateFilesystem, .run [findWords, xargsWords]]

end CleanerScripts

open CleanerScripts

/-- The character behind every path that `find -print0` prints. -/
def nul : Char :=
  '\x00'

/-- An entry of a directory as `find` prints it. -/
def childPath (path name : String) : String :=
  path ++ "/" ++ name

/-- The output of `find -print0`. -/
def print0 (paths : List String) : String :=
  String.ofList (paths.flatMap fun path => path.toList ++ [nul])

/-- The arguments that `xargs -0` reads. -/
def readArguments0 (input : String) : List String :=
  ((input.toList.splitOn nul).dropLast).map String.ofList

/-- Arguments without the terminator are read back as they were printed. -/
theorem readArguments0_print0
    {paths : List String}
    (noNul : ∀ path ∈ paths, nul ∉ path.toList) :
    readArguments0 (print0 paths) = paths := by
  have split :
      (paths.flatMap fun path => path.toList ++ [nul]).splitOn nul =
        paths.map String.toList ++ [[]] := by
    induction paths with
    | nil => rfl
    | cons path rest ih =>
        have unbroken :
            ∀ character ∈ path.toList, (character == nul) = false := by
          intro character member
          simp only [beq_eq_false_iff_ne, ne_eq]
          rintro rfl
          exact noNul path List.mem_cons_self member
        have later := ih fun other member =>
          noNul other (List.mem_cons_of_mem _ member)
        rw [List.splitOn_eq_splitOnP] at later ⊢
        rw [List.flatMap_cons, List.append_assoc, List.singleton_append,
          List.splitOnP_append_cons_of_forall_mem unbroken nul (by simp),
          later]
        rfl
  rw [readArguments0, print0, String.toList_ofList, split,
    List.dropLast_concat, List.map_map]
  simp [Function.comp_def]

theorem location_childPath
    {path name : String}
    (filled : path ≠ "")
    (entry : EntryName name) :
    location (childPath path name) = location path ++ [name.toList] := by
  have nonempty : path.toList ≠ [] := by simpa using filled
  have text :
      childPath path name =
        String.ofList (path.toList ++ '/' :: name.toList) := by
    simp [childPath, String.ofList_append, String.append_assoc]
  have pushed := UnixPath.lexical_append_slash nonempty entry.noSlash
  rw [String.ofList_toList] at pushed
  rw [location, text, pushed]
  simp [UnixPath.push, entry.nonempty, entry.proper.notDot,
    entry.toList_ne_dotDot, location]

/--
A path that no command takes for an option, and to which `find` adds a slash
and the name of each entry.
-/
structure VolumePath (path : String) : Prop where
  absolute : path.toList.head? = some '/'
  noSlash : path.toList.getLast? ≠ some '/'
  noNul : nul ∉ path.toList

theorem VolumePath.ne_empty {path : String} (volumePath : VolumePath path) :
    path ≠ "" := by
  rintro rfl
  cases volumePath.absolute

def findCommand (path : String) : List String :=
  ["ionice", "-c", "3", "find", path, "-mindepth", "1", "-maxdepth", "1",
    "-print0"]

def removeCommand : List String :=
  ["xargs", "-0", "ionice", "-c", "3", "rm", "-rf"]

/--
`find` prints the entries that it gets to see of a directory, and changes
nothing.  It sees none of a directory that it cannot open.
-/
structure Finds
    (surroundings : Surroundings (Hierarchy Component))
    (path : String)
    (files : Hierarchy Component)
    (seen : List String) : Prop where
  entryNames : ∀ name ∈ seen, EntryName name
  noNul : ∀ name ∈ seen, nul ∉ name.toList
  output :
    (surroundings.perform (findCommand path) "" files).output =
      print0 (seen.map (childPath path))
  host : (surroundings.perform (findCommand path) "" files).host = files

/--
What is assumed of `xargs` and `rm` for entries of a volume: of each argument
that is read, what can be removed is removed, and the commands fail if
something is left.
-/
structure RemovesArguments
    (surroundings : Surroundings (Hierarchy Component))
    (path : String) : Prop where
  leaves :
    ∀ files input,
      (∀ argument ∈ readArguments0 input,
        ∃ name, EntryName name ∧ argument = childPath path name) →
      (surroundings.perform removeCommand input files).host =
        files.removeEach ((readArguments0 input).map location)
  succeeds_iff :
    ∀ files input,
      (∀ argument ∈ readArguments0 input,
        ∃ name, EntryName name ∧ argument = childPath path name) →
      ((surroundings.perform removeCommand input files).status = 0 ↔
        ∀ argument ∈ readArguments0 input,
          files.held (location argument) = false)

section Script

variable {surroundings : Surroundings (Hierarchy Component)}
variable {shell : Shell (Hierarchy Component)}
variable {path : String}
variable {seen : List String}

theorem expand_filesystem
    (named : shell.settings localFilesystemEnv = some path) :
    surroundings.expand shell [.quoted filesystem] = [path] := by
  have value : shell.value filesystem = path := by
    simp [Shell.value, filesystem, named]
  have expanded :
      surroundings.expand shell [.quoted filesystem] =
        [shell.single [.quoted filesystem]] := by
    rw [Surroundings.expand_eq_single_iff] <;> simp [Shell.glyphs]
  simpa [Shell.text, value] using expanded

theorem ends_validateFilesystem
    {errexit : Bool}
    {post : Outcome → Shell (Hierarchy Component) → Prop}
    (named : shell.settings localFilesystemEnv = some path)
    (isDirectory : surroundings.isDirectory shell.host path = true)
    (accepted : post (.goes 0) shell) :
    surroundings.Ends errexit validateFilesystem shell post := by
  apply Surroundings.ends_call
  apply Surroundings.ends_both
  apply Surroundings.ends_branch
  · intro unset
    simp [Surroundings.test, named] at unset
  intro _
  apply Surroundings.ends_branch
  · intro notDirectory
    simp [Surroundings.test, Shell.text, Shell.value, filesystem, named,
      isDirectory, negatedStatus, statusOf] at notDirectory
  intro _
  exact accepted

/-- What the second command of `fsclean.sh` makes of the first one's output. -/
def removed
    (surroundings : Surroundings (Hierarchy Component))
    (path : String)
    (files : Hierarchy Component) :
    Reply (Hierarchy Component) :=
  let found := surroundings.perform (findCommand path) "" files
  surroundings.perform removeCommand found.output found.host

theorem runPipeline_fsclean
    (named : shell.settings localFilesystemEnv = some path) :
    let ran := surroundings.runPipeline "" 0 shell [findWords, xargsWords]
    ran.1 = (removed surroundings path shell.host).status ∧
      ran.2.2.host = (removed surroundings path shell.host).host := by
  intro ran
  have words :
      findWords.flatMap (surroundings.expand shell) = findCommand path := by
    simp [findWords, findCommand, expand_plain, expand_filesystem named]
  have others :
      ∀ current : Shell (Hierarchy Component),
        xargsWords.flatMap (surroundings.expand current) = removeCommand := by
    intro current
    simp [xargsWords, removeCommand, expand_plain]
  simp only [ran, Surroundings.runPipeline, words, others]
  exact ⟨rfl, rfl⟩

/-- `fsclean.sh` on a directory ends as its pipeline does. -/
theorem ends_fsclean
    {post : (status : Nat) → Shell (Hierarchy Component) → Prop}
    (notAsked : ¬ HelpAsked shell)
    (named : shell.settings localFilesystemEnv = some path)
    (isDirectory : surroundings.isDirectory shell.host path = true)
    (holds :
      ∀ later : Shell (Hierarchy Component),
        later.host = (removed surroundings path shell.host).host →
        post (removed surroundings path shell.host).status later) :
    fsclean.Ends surroundings shell post := by
  apply Surroundings.ends_both
  apply ends_help
  · intro asked
    exact (notAsked asked).elim
  intro _
  apply Surroundings.ends_both
  apply ends_validateFilesystem named isDirectory
  apply Surroundings.ends_runExactly
  obtain ⟨sameStatus, sameHost⟩ :=
    @runPipeline_fsclean surroundings shell path named
  generalize surroundings.runPipeline "" 0 shell [findWords, xargsWords] = ran
    at sameStatus sameHost ⊢
  simp only [status_afterCommand, sameStatus]
  exact holds _ sameHost

/-- The arguments that `xargs` reads are the paths that `find` prints. -/
theorem readArguments0_found
    {files : Hierarchy Component}
    (volumePath : VolumePath path)
    (finds : Finds surroundings path files seen) :
    readArguments0 (print0 (seen.map (childPath path))) =
      seen.map (childPath path) := by
  apply readArguments0_print0
  intro child member
  obtain ⟨name, isName, rfl⟩ := List.mem_map.mp member
  have slash : nul ∉ "/".toList := by decide
  simp only [childPath, String.toList_append, List.mem_append, not_or]
  exact ⟨⟨volumePath.noNul, slash⟩, finds.noNul name isName⟩

/-- What the pipeline leaves, and when it succeeds. -/
theorem removed_spec
    {files : Hierarchy Component}
    (volumePath : VolumePath path)
    (removes : RemovesArguments surroundings path)
    (finds : Finds surroundings path files seen) :
    (removed surroundings path files).host =
        files.removeEach
          ((seen.map String.toList).map fun name =>
            location path ++ [name]) ∧
      ((removed surroundings path files).status = 0 ↔
        ∀ name ∈ seen.map String.toList,
          files.held (location path ++ [name]) = false) := by
  have arguments := readArguments0_found volumePath finds
  have entries :
      ∀ argument ∈ readArguments0 (print0 (seen.map (childPath path))),
        ∃ name, EntryName name ∧ argument = childPath path name := by
    rw [arguments]
    intro argument member
    obtain ⟨name, isName, rfl⟩ := List.mem_map.mp member
    exact ⟨name, finds.entryNames name isName, rfl⟩
  have locations :
      ∀ name ∈ seen,
        location (childPath path name) = location path ++ [name.toList] :=
    fun name isName =>
      location_childPath volumePath.ne_empty (finds.entryNames name isName)
  unfold removed
  simp only [finds.output, finds.host]
  refine ⟨?_, ?_⟩
  · rw [removes.leaves files _ entries, arguments, List.map_map, List.map_map]
    exact congrArg files.removeEach (List.map_congr_left locations)
  · rw [removes.succeeds_iff files _ entries, arguments, List.forall_mem_map,
      List.forall_mem_map]
    refine forall₂_congr fun name isName => ?_
    rw [locations name isName]

/-- Two listings of a volume have the same names. -/
theorem ListsVolume.same
    {files : Hierarchy Component}
    {names others : List String}
    (listed : ListsVolume files path names)
    (again : ListsVolume files path others)
    (name : Component) :
    name ∈ names.map String.toList ↔ name ∈ others.map String.toList :=
  (listed.lists name).trans (again.lists name).symm

/--
Where `find` gets to see all entries of the directory, `fsclean.sh` leaves the
files that `DeleteContents` leaves, and succeeds exactly if `DeleteContents`
does.  Where it sees none, the script removes nothing and succeeds all the
same, because the status of a pipeline is the status of its last command.
-/
theorem fsclean_agrees
    {removeAll : RemoveAll}
    {names : List String}
    (notAsked : ¬ HelpAsked shell)
    (named : shell.settings localFilesystemEnv = some path)
    (volumePath : VolumePath path)
    (isDirectory : surroundings.isDirectory shell.host path = true)
    (finds : Finds surroundings path shell.host seen)
    (removes : RemovesArguments surroundings path)
    (removesToo : RemovesEntries removeAll path)
    (listed : ListsVolume shell.host path names) :
    fsclean.Ends surroundings shell fun status later =>
      (ListsVolume shell.host path seen →
        let cleaned := deleteContents removeAll shell.host path (.ok names)
        later.host = cleaned.1 ∧ (status = 0 ↔ cleaned.2 = .ok ())) ∧
      (seen = [] → later.host = shell.host ∧ status = 0) := by
  obtain ⟨left, ok_iff⟩ := deleteContents_spec removesToo listed
  obtain ⟨remains, succeeds_iff⟩ := removed_spec volumePath removes finds
  apply ends_fsclean notAsked named isDirectory
  intro later sameHost
  refine ⟨?_, ?_⟩
  · intro seesAll
    have same := seesAll.same listed
    refine ⟨?_, ?_⟩
    · rw [sameHost, remains, left]
      apply Hierarchy.removeEach_congr
      intro target
      simp only [List.mem_map (f := fun name => location path ++ [name]), same]
    · rw [succeeds_iff, ok_iff]
      simp only [same]
  · rintro rfl
    exact ⟨sameHost.trans remains, succeeds_iff.mpr (by simp)⟩

end Script

/-- Commands like those of the image; `find` may be unable to open directories. -/
def sampleFileTools (canOpen : Bool) :
    Surroundings (Hierarchy Component) where
  perform := fun command input files =>
    if command = findCommand "/mnt/a" then
      { status := if canOpen then 0 else 1
        output := if canOpen then print0 [childPath "/mnt/a" "x"] else ""
        host := files }
    else
      let targets := (readArguments0 input).map location
      { status := if targets.any files.held then 123 else 0
        output := ""
        host := files.removeEach targets }
  isBlockDevice := fun _ _ => false
  isDirectory := fun _ _ => true
  pathnames := fun _ _ => []

theorem removesArguments_sampleFileTools (canOpen : Bool) (path : String) :
    RemovesArguments (sampleFileTools canOpen) path where
  leaves := fun _ _ _ => rfl
  succeeds_iff := by
    intro files input _
    simp [sampleFileTools, findCommand, removeCommand]

theorem finds_sampleFileTools (canOpen : Bool) :
    Finds (sampleFileTools canOpen) "/mnt/a" sampleFiles
      (if canOpen then ["x"] else []) where
  entryNames := by
    cases canOpen with
    | false => simp
    | true => exact listsVolume_sampleFiles.entryNames
  noNul := by
    cases canOpen <;> decide
  output := by
    cases canOpen <;> decide
  host := rfl

/-- The shell of a job that cleans the sample volume. -/
def sampleFileShell : Shell (Hierarchy Component) where
  name := "fsclean.sh"
  settings := fun name =>
    if name = localFilesystemEnv then some "/mnt/a" else none
  arguments := []
  host := sampleFiles
  performed := []
  printed := []

/-- The sample volume is emptied, and left as it is if it cannot be opened. -/
theorem fsclean_agrees_of_sampleFileShell :
    (fsclean.Ends (sampleFileTools true) sampleFileShell fun status later =>
        status = 0 ∧
          later.host =
            (deleteContents sampleRemoveAll sampleFiles "/mnt/a"
              (.ok ["x"])).1 ∧
          ["mnt".toList, "a".toList, "x".toList] ∉ later.host.entries) ∧
      fsclean.Ends (sampleFileTools false) sampleFileShell fun status later =>
        status = 0 ∧ later.host = sampleFiles := by
  have volumePath : VolumePath "/mnt/a" :=
    ⟨by decide, by decide, by decide⟩
  have agrees := fun canOpen =>
    @fsclean_agrees (sampleFileTools canOpen) sampleFileShell "/mnt/a"
      (if canOpen then ["x"] else []) sampleRemoveAll ["x"] (by rintro ⟨⟩) rfl
      volumePath rfl (finds_sampleFileTools canOpen)
      (removesArguments_sampleFileTools canOpen _)
      (removesEntries_sampleRemoveAll _) listsVolume_sampleFiles
  refine ⟨(agrees true).mono ?_, (agrees false).mono ?_⟩
  · rintro status later ⟨seesAll, _⟩
    obtain ⟨left, ok_iff⟩ := seesAll listsVolume_sampleFiles
    refine ⟨ok_iff.mpr (by decide), left, ?_⟩
    rw [left]
    decide
  · rintro status later ⟨_, seesNothing⟩
    obtain ⟨left, ok⟩ := seesNothing rfl
    exact ⟨ok, left⟩

end LocalProvisioner
