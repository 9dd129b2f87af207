import LocalProvisioner.ChartDecoding

namespace LocalProvisioner

/-!
# The migration of chart values

`upgrade` of `update-helm-values-pre-v2.2.0` turns the values of an old chart
into values of the chart since version 2.2.0.  Its result is the map that it was
given: it changes the tree in place, at maps that it looks up by dotted paths,
and goes on reading from the tree that it has changed.
-/

/-- The errors of `upgrade`. -/
inductive UpgradeError where
  | chart : ChartError → UpgradeError
  /-- `fmt.Errorf("invalid values")`. -/
  | invalidValues : UpgradeError
  deriving Repr, DecidableEq

/--
`isNoValueError`.  The type `ErrNoValue` is an interface that every error
implements, so that the assertion holds of every error.
-/
def isNoValueError (err : Option ChartError) : Bool :=
  err.isSome

/-- `isNoTableError`, where `ErrNoTable` is such an interface too. -/
def isNoTableError (err : Option ChartError) : Bool :=
  err.isSome

/--
The statements by which the first and the last step set a key in a table of
`out`, which is created if it is missing.
-/
def setInTable
    (out : Nat)
    (name key : String)
    (value : AnyValue)
    (tables : Tables) :
    Option ChartError × Tables :=
  match tables.table out name with
  | .ok table => (none, tables.assign table key value)
  | .error err =>
      if isNoTableError (some err) then
        let created : Nat × Tables := tables.alloc ∅
        let tables := created.2.assign out name (.values created.1)
        (none, tables.assign created.1 key value)
      else
        (some err, tables)

/-- Step 1: move `configmap.configMapName` to `common.configMapName`. -/
def moveConfigMapName (out : Nat) (tables : Tables) :
    Option ChartError × Tables :=
  match tables.pathValue out "configmap.configMapName" with
  | .ok configMapName =>
      setInTable out "common" "configMapName" configMapName tables
  | .error err =>
      if isNoValueError (some err) then (none, tables) else (some err, tables)

/-- The `classValue` of a class: its name, and its settings if it is a table. -/
def classValue (tables : Tables) (name : String) (val : AnyValue) :
    GoMap AnyValue :=
  let classValue : GoMap AnyValue := (∅ : GoMap AnyValue).insert "name" (.string name)
  match val with
  | .table kvs =>
      (tables.read kvs).entries.foldl
        (fun classValue kv => classValue.insert kv.1 kv.2) classValue
  | _ => classValue

/-- One round of the inner loop of step 2. -/
def addClass
    (classes : List Nat × Tables)
    (entry : Sigma fun _ : String => AnyValue) :
    List Nat × Tables :=
  let added := classes.2.alloc (classValue classes.2 entry.1 entry.2)
  (classes.1 ++ [added.1], added.2)

/-- The outer loop of step 2. -/
def collectClasses :
    List AnyValue → List Nat × Tables → Except UpgradeError (List Nat × Tables)
  | [], classes => .ok classes
  | .table classMap :: rest, classes =>
      collectClasses rest
        ((classes.2.read classMap).entries.foldl addClass classes)
  | _ :: _, _ => .error .invalidValues

/-- Step 2: replace `configmap` with `classes`. -/
def replaceConfigMap (engine : String) (out : Nat) (tables : Tables) :
    Option UpgradeError × Tables :=
  match tables.pathValue out ("configmap." ++ engine ++ ".storageClass") with
  | .error err => (some (.chart err), tables)
  | .ok (.list storageClassList) =>
      match collectClasses storageClassList ([], tables) with
      | .error err => (some err, tables)
      | .ok (classes, tables) =>
          (none,
            (tables.assign out "classes" (.valuesList classes)).delete out
              "configmap")
  | .ok _ => (some .invalidValues, tables)

/-- Step 3: set `daemonset.imagePullPolicy` if needed. -/
def setImagePullPolicy (out : Nat) (tables : Tables) :
    Option ChartError × Tables :=
  let set :=
    setInTable out "daemonset" "imagePullPolicy" (.string "Always") tables
  match tables.pathValue out "daemonset.imagePullPolicy" with
  | .ok (.string v) => if v = "" then set else (none, tables)
  | .ok _ => (none, tables)
  | .error err => if isNoValueError (some err) then set else (some err, tables)

/-- `upgrade`, with the map `val` as its first result. -/
def upgrade (val : Nat) (engine : String) (tables : Tables) :
    Option UpgradeError × Tables :=
  match moveConfigMapName val tables with
  | (some err, tables) => (some (.chart err), tables)
  | (none, tables) =>
      match replaceConfigMap engine val tables with
      | (some err, tables) => (some err, tables)
      | (none, tables) =>
          match setImagePullPolicy val tables with
          | (some err, tables) => (some (.chart err), tables)
          | (none, tables) => (none, tables)

/-!
## What the steps do
-/

/-- Where the values for an engine have their storage classes. -/
def storageClassPath (engine : String) : List PathStep :=
  .key "configmap" :: (splitDots engine).map .key ++ [.key "storageClass"]

section Steps

open Tables

variable {tree tables : Tables}
variable {root : Nat}

/-- Setting a key in a table of the root that is as it was. -/
theorem exists_setInTable
    {name : String}
    (isTree : tree.IsTree root)
    (keeps : tree.KeepsKey root name tables)
    (started : tree.next ≤ tables.next)
    (simple : splitDots name = [name])
    (key : String)
    (value : AnyValue) :
    ∃ after,
      setInTable root name key value tables = (none, after) ∧
        ChangesKeys tree root [name] tables after ∧
          tree.SetsKeyIf root name key (some value) after := by
  have found : ∀ table,
      tables.table root name = .ok table ↔
        tree.mapAt? (.values root) [.key name] = some table := by
    intro table
    rw [table_eq_ok_iff, simple, List.map_singleton, mapAt?_singleton_key,
      mapAt?_singleton_key, keeps.lookup_eq]
  have rootOld : root < tables.next :=
    Nat.lt_of_lt_of_le (isTree.allocated mapAt?_nil) started
  cases looked : tables.table root name with
  | ok table =>
      have isMap := (found table).mp looked
      refine ⟨tables.assign table key value, ?_, ?_, table, ?_⟩
      · rw [setInTable, looked]
      · exact .assign_table isTree isMap tables key value
      · exact .of_table isTree keeps started isMap
  | error err =>
      have noMap : tree.mapAt? (.values root) [.key name] = none := by
        refine Option.eq_none_iff_forall_ne_some.mpr fun table isMap => ?_
        rw [(found table).mpr isMap] at looked
        cases looked
      refine ⟨_, ?_, ?_, tables.next, .of_created isTree started noMap rfl⟩
      · rw [setInTable, looked]
        rfl
      · refine ChangesKeys.assign_new ?_ (Nat.le_refl _) rootOld key value
        exact (ChangesKeys.alloc rootOld ∅).trans (.assign_root _ _)

/-- Step 1 never fails. -/
theorem exists_moveConfigMapName (isTree : tree.IsTree root) :
    ∃ after,
      moveConfigMapName root tree = (none, after) ∧
        ChangesKeys tree root ["common"] tree after ∧
          tree.SetsKeyIf root "common" "configMapName"
            (tree.scalarAt? root [.key "configmap", .key "configMapName"])
            after := by
  have split :
      splitDots "configmap.configMapName" = ["configmap", "configMapName"] :=
    rfl
  rcases pathValue_cases split root with
    ⟨value, found, present⟩ | ⟨err, found, absent⟩
  · rw [moveConfigMapName, found, present]
    exact exists_setInTable isTree .refl (Nat.le_refl _) rfl _ value
  · rw [moveConfigMapName, found, absent]
    exact ⟨tree, rfl, .refl, .refl⟩

/-- The classes of an item of the list of classes. -/
def classEntries (tables : Tables) :
    AnyValue → List (Sigma fun _ : String => AnyValue)
  | .table classMap => (tables.read classMap).entries
  | _ => []

/-- New maps have been allocated for some classes. -/
structure Collected
    (tree : Tables)
    (root : Nat)
    (start : Tables)
    (entries : List (Sigma fun _ : String => AnyValue))
    (classes : List Nat × Tables) : Prop where
  changes : ChangesKeys tree root [] start classes.2
  new : ∀ reference ∈ classes.1,
    tree.next ≤ reference ∧ reference < classes.2.next
  contents :
    classes.1.map classes.2.read =
      entries.map fun entry => classValue tree entry.1 entry.2

section Classes

variable {names : List String}
variable {start : Tables}
variable {classes : List Nat × Tables}
variable {entries : List (Sigma fun _ : String => AnyValue)}

/-- The settings of a class are further down than what has changed. -/
theorem classValue_eq
    (isTree : tree.IsTree root)
    (changes : ChangesKeys tree root names tree tables)
    {value : AnyValue}
    (deep : tree.IsDeep root value)
    (name : String) :
    classValue tables name value = classValue tree name value := by
  cases value with
  | table kvs => rw [classValue, classValue, deep.read_eq isTree changes rfl]
  | _ => rfl

namespace Collected

theorem add
    (isTree : tree.IsTree root)
    (begun : ChangesKeys tree root names tree start)
    (collected : Collected tree root start entries classes)
    {entry : Sigma fun _ : String => AnyValue}
    (deep : tree.IsDeep root entry.2) :
    Collected tree root start (entries ++ [entry])
      (addClass classes entry) := by
  have changes := begun.trans collected.changes
  have rootOld : root < classes.2.next :=
    Nat.lt_of_lt_of_le (isTree.allocated mapAt?_nil) changes.grows
  have same := classValue_eq isTree changes deep entry.1
  refine ⟨collected.changes.trans (.alloc rootOld _), ?_, ?_⟩
  · intro reference member
    rcases List.mem_append.mp member with member | member
    · obtain ⟨new, old⟩ := collected.new reference member
      exact ⟨new, Nat.lt_succ_of_lt old⟩
    · cases List.mem_singleton.mp member
      exact ⟨changes.grows, Nat.lt_succ_self _⟩
  · have kept :
        ∀ reference ∈ classes.1,
          (addClass classes entry).2.read reference =
            classes.2.read reference := by
      intro reference member
      have apart := Nat.ne_of_lt (collected.new reference member).2
      rw [addClass, SharedCells.read_alloc, if_neg apart]
    have added :
        (addClass classes entry).2.read classes.2.next =
          classValue tree entry.1 entry.2 := by
      rw [addClass, SharedCells.read_alloc, if_pos rfl, same]
    calc (classes.1 ++ [classes.2.next]).map (addClass classes entry).2.read
        = classes.1.map classes.2.read ++
            [classValue tree entry.1 entry.2] := by
          rw [List.map_append, List.map_congr_left kept, List.map_singleton,
            added]
      _ = (entries ++ [entry]).map fun entry =>
            classValue tree entry.1 entry.2 := by
          rw [collected.contents, List.map_append, List.map_singleton]

theorem foldl
    (isTree : tree.IsTree root)
    (begun : ChangesKeys tree root names tree start)
    (collected : Collected tree root start entries classes)
    {more : List (Sigma fun _ : String => AnyValue)}
    (deep : ∀ entry ∈ more, tree.IsDeep root entry.2) :
    Collected tree root start (entries ++ more)
      (more.foldl addClass classes) := by
  induction more generalizing entries classes with
  | nil => simpa using collected
  | cons entry rest inductionHypothesis =>
      have added :=
        collected.add isTree begun (deep entry List.mem_cons_self)
      have rest := inductionHypothesis added fun other member =>
        deep other (List.mem_cons_of_mem entry member)
      simpa using rest

/-- The classes of an item are further down than the item. -/
theorem isDeep_of_mem_classEntries
    {item : AnyValue}
    (deep : tree.IsDeep root item)
    {entry : Sigma fun _ : String => AnyValue}
    (member : entry ∈ classEntries tree item) :
    tree.IsDeep root entry.2 := by
  cases item with
  | table classMap =>
      have isChild :
          tree.child (.table classMap) (.key entry.1) = some entry.2 :=
        AList.mem_lookup_iff.mpr member
      exact deep.child isChild
  | _ => cases member

theorem collectClasses
    (isTree : tree.IsTree root)
    (begun : ChangesKeys tree root names tree start)
    (collected : Collected tree root start entries classes)
    {items : List AnyValue}
    (deep : ∀ item ∈ items, tree.IsDeep root item)
    {after : List Nat × Tables}
    (succeeded : collectClasses items classes = .ok after) :
    Collected tree root start (entries ++ items.flatMap (classEntries tree))
        after ∧
      ∀ item ∈ items, ∃ classMap, item = .table classMap := by
  induction items generalizing entries classes with
  | nil =>
      cases succeeded
      exact ⟨by simpa using collected, by simp⟩
  | cons item rest inductionHypothesis =>
      cases item with
      | table classMap =>
          have here := deep (.table classMap) List.mem_cons_self
          have same : classes.2.read classMap = tree.read classMap :=
            here.read_eq isTree (begun.trans collected.changes) rfl
          rw [LocalProvisioner.collectClasses, same] at succeeded
          have added :=
            collected.foldl isTree begun fun entry member =>
              isDeep_of_mem_classEntries here member
          obtain ⟨collected, tablesOnly⟩ :=
            inductionHypothesis added
              (fun other member => deep other (List.mem_cons_of_mem _ member))
              succeeded
          refine ⟨?_, ?_⟩
          · rw [List.flatMap_cons, ← List.append_assoc]
            exact collected
          · intro other member
            rcases List.mem_cons.mp member with rfl | member
            · exact ⟨classMap, rfl⟩
            · exact tablesOnly other member
      | _ => cases succeeded

end Collected

end Classes

/-- The root has the classes of some items instead of the old `configmap`. -/
structure HoldsClasses
    (tree : Tables)
    (root : Nat)
    (items : List AnyValue)
    (tables : Tables)
    (classes : List Nat) : Prop where
  configmap : (tables.read root).lookup "configmap" = none
  lookup_eq : (tables.read root).lookup "classes" = some (.valuesList classes)
  new : ∀ reference ∈ classes,
    tree.next ≤ reference ∧ reference < tables.next
  contents :
    classes.map tables.read =
      (items.flatMap (classEntries tree)).map fun entry =>
        classValue tree entry.1 entry.2

/-- Changes of other keys keep the classes. -/
theorem HoldsClasses.of_changesKeys
    {items : List AnyValue}
    {classes : List Nat}
    {names : List String}
    {after : Tables}
    (isTree : tree.IsTree root)
    (holds : HoldsClasses tree root items tables classes)
    (changes : ChangesKeys tree root names tables after)
    (otherThanConfigmap : "configmap" ∉ names)
    (otherThanClasses : "classes" ∉ names) :
    HoldsClasses tree root items after classes where
  configmap := (changes.lookup_eq otherThanConfigmap).trans holds.configmap
  lookup_eq := (changes.lookup_eq otherThanClasses).trans holds.lookup_eq
  new := by
    intro reference member
    obtain ⟨new, old⟩ := holds.new reference member
    exact ⟨new, Nat.lt_of_lt_of_le old changes.grows⟩
  contents := by
    rw [← holds.contents]
    refine List.map_congr_left fun reference member => ?_
    obtain ⟨new, old⟩ := holds.new reference member
    exact changes.read_of_new isTree new old

/-- The dotted path of the storage classes of an engine. -/
theorem splitDots_storageClass (engine : String) :
    splitDots ("configmap." ++ engine ++ ".storageClass") =
      ("configmap" :: splitDots engine) ++ ["storageClass"] := by
  have first : "configmap." = "configmap" ++ "." := rfl
  have last : ".storageClass" = "." ++ "storageClass" := rfl
  rw [first, last, ← String.append_assoc, splitDots_append_dot,
    splitDots_append_dot]
  rfl

/-- How step 2 succeeds. -/
theorem replaceConfigMap_cases
    {engine : String}
    {after : Tables}
    (succeeded : replaceConfigMap engine root tables = (none, after)) :
    ∃ items classes,
      tables.pathValue root ("configmap." ++ engine ++ ".storageClass") =
          .ok (.list items) ∧
        collectClasses items ([], tables) = .ok classes ∧
          after =
            (assign classes.2 root "classes" (.valuesList classes.1)).delete
              root "configmap" := by
  rw [replaceConfigMap] at succeeded
  split at succeeded
  · cases succeeded
  · rename_i items found
    split at succeeded
    · cases succeeded
    · rename_i classes collected collects
      cases succeeded
      exact ⟨items, (classes, collected), found, collects, rfl⟩
  · cases succeeded

/-- Step 2, if it succeeds. -/
theorem exists_of_replaceConfigMap
    {engine : String}
    {names : List String}
    {after : Tables}
    (isTree : tree.IsTree root)
    (begun : ChangesKeys tree root names tree tables)
    (keeps : tree.KeepsKey root "configmap" tables)
    (succeeded : replaceConfigMap engine root tables = (none, after)) :
    ∃ items classes,
      tree.resolve (.values root) (storageClassPath engine) =
          some (.list items) ∧
        (∀ item ∈ items, ∃ classMap, item = .table classMap) ∧
          ChangesKeys tree root ["classes", "configmap"] tables after ∧
            HoldsClasses tree root items after classes := by
  obtain ⟨items, classes, found, collects, rfl⟩ :=
    replaceConfigMap_cases succeeded
  have here :
      tree.resolve (.values root) (storageClassPath engine) =
        some (.list items) := by
    have present :=
      (pathValue_eq_ok_iff (splitDots_storageClass engine)
        (List.cons_ne_nil _ _)).mp found
    rw [List.map_cons, List.cons_append, scalarAt?, keeps.resolve_eq] at present
    exact (Option.filter_eq_some_iff.mp present).1
  have deep : ∀ item ∈ items, tree.IsDeep root item := by
    intro item member
    obtain ⟨position, isItem⟩ := List.getElem?_of_mem member
    have listDeep : tree.IsDeep root (.list items) :=
      ⟨storageClassPath engine, by simp [storageClassPath], here⟩
    have isChild : tree.child (.list items) (.item position) = some item :=
      isItem
    exact listDeep.child isChild
  have nothing : Collected tree root tables [] ([], tables) :=
    ⟨.refl, by simp, rfl⟩
  obtain ⟨collected, tablesOnly⟩ :=
    nothing.collectClasses isTree begun deep collects
  rw [List.nil_append] at collected
  have replaces :
      ChangesKeys tree root ["classes", "configmap"] classes.2
        ((assign classes.2 root "classes" (.valuesList classes.1)).delete root
          "configmap") :=
    (ChangesKeys.assign_root _ _).trans (.delete_root _)
  refine ⟨items, classes.1, here, tablesOnly,
    collected.changes.trans replaces, ?_, ?_, collected.new, ?_⟩
  · rw [read_delete, if_pos rfl, lookup_delete, if_pos rfl]
  · rw [read_delete, if_pos rfl, lookup_delete, if_neg (by decide),
      read_assign, if_pos rfl, lookup_assign, if_pos rfl]
  · rw [← collected.contents]
    refine List.map_congr_left fun reference member => ?_
    obtain ⟨new, old⟩ := collected.new reference member
    exact replaces.read_of_new isTree new old

/-- The image pull policy that step 3 sets, from the one that it finds. -/
def policyToSet : Option AnyValue → Option AnyValue
  | none => some (.string "Always")
  | some (.string v) => if v = "" then some (.string "Always") else none
  | some _ => none

/-- Step 3 never fails. -/
theorem exists_setImagePullPolicy
    (isTree : tree.IsTree root)
    (keeps : tree.KeepsKey root "daemonset" tables)
    (started : tree.next ≤ tables.next) :
    ∃ after,
      setImagePullPolicy root tables = (none, after) ∧
        ChangesKeys tree root ["daemonset"] tables after ∧
          tree.SetsKeyIf root "daemonset" "imagePullPolicy"
            (policyToSet
              (tree.scalarAt? root [.key "daemonset", .key "imagePullPolicy"]))
            after := by
  have split :
      splitDots "daemonset.imagePullPolicy" = ["daemonset", "imagePullPolicy"] :=
    rfl
  have same :
      tables.scalarAt? root [.key "daemonset", .key "imagePullPolicy"] =
        tree.scalarAt? root [.key "daemonset", .key "imagePullPolicy"] := by
    rw [scalarAt?, scalarAt?, keeps.resolve_eq]
  have sets :=
    exists_setInTable isTree keeps started rfl "imagePullPolicy"
      (.string "Always")
  have left :
      ∃ after,
        ((none : Option ChartError), tables) = (none, after) ∧
          ChangesKeys tree root ["daemonset"] tables after ∧
            tree.SetsKeyIf root "daemonset" "imagePullPolicy" none after :=
    ⟨tables, rfl, .refl, keeps⟩
  rw [setImagePullPolicy, ← same]
  rcases pathValue_cases split root with
    ⟨value, found, present⟩ | ⟨err, found, absent⟩
  · rw [found, present]
    cases value with
    | string v =>
        by_cases blank : v = ""
        · simp only [policyToSet, if_pos blank]
          exact sets
        · simp only [policyToSet, if_neg blank]
          exact left
    | _ => exact left
  · rw [found, absent]
    exact sets

/-- How the migration succeeds. -/
theorem upgrade_cases
    {engine : String}
    (succeeded : (upgrade root engine tables).1 = none) :
    ∃ moved replaced,
      moveConfigMapName root tables = (none, moved) ∧
        replaceConfigMap engine root moved = (none, replaced) ∧
          setImagePullPolicy root replaced =
            (none, (upgrade root engine tables).2) := by
  unfold upgrade at succeeded ⊢
  rcases moves : moveConfigMapName root tables with ⟨_ | err, moved⟩
  · rcases replaces : replaceConfigMap engine root moved with ⟨_ | err, replaced⟩
    · rcases sets : setImagePullPolicy root replaced with ⟨_ | err, after⟩
      · simp [replaces, sets]
      · simp [moves, replaces, sets] at succeeded
    · simp [moves, replaces] at succeeded
  · simp [moves] at succeeded

/-- What the three steps have done together. -/
structure Upgraded
    (tree : Tables)
    (root : Nat)
    (engine : String)
    (items : List AnyValue)
    (after : Tables) : Prop where
  storageClass :
    tree.resolve (.values root) (storageClassPath engine) = some (.list items)
  tablesOnly : ∀ item ∈ items, ∃ classMap, item = .table classMap
  changes :
    ChangesKeys tree root ["common", "classes", "configmap", "daemonset"] tree
      after
  common :
    tree.SetsKeyIf root "common" "configMapName"
      (tree.scalarAt? root [.key "configmap", .key "configMapName"]) after
  classes : ∃ classes, HoldsClasses tree root items after classes
  daemonset :
    tree.SetsKeyIf root "daemonset" "imagePullPolicy"
      (policyToSet
        (tree.scalarAt? root [.key "daemonset", .key "imagePullPolicy"]))
      after

/-- Each step changes other keys of the root than the steps before it. -/
theorem upgraded_of_succeeded
    {engine : String}
    (isTree : tree.IsTree root)
    (succeeded : (upgrade root engine tree).1 = none) :
    ∃ items, Upgraded tree root engine items (upgrade root engine tree).2 := by
  obtain ⟨moved, replaced, moves, replaces, sets⟩ := upgrade_cases succeeded
  obtain ⟨_, same, changesCommon, common⟩ := exists_moveConfigMapName isTree
  cases (Prod.mk.inj (moves.symm.trans same)).2
  have keepsConfigmap : tree.KeepsKey root "configmap" moved :=
    .of_tree isTree changesCommon (by decide)
  obtain ⟨items, classes, storageClass, tablesOnly, changesClasses, holds⟩ :=
    exists_of_replaceConfigMap isTree changesCommon keepsConfigmap replaces
  have changesBoth := changesCommon.trans changesClasses
  have keepsDaemonset : tree.KeepsKey root "daemonset" replaced :=
    .of_tree isTree changesBoth (by decide)
  obtain ⟨_, same, changesDaemonset, daemonset⟩ :=
    exists_setImagePullPolicy isTree keepsDaemonset changesBoth.grows
  cases (Prod.mk.inj (sets.symm.trans same)).2
  refine ⟨items, storageClass, tablesOnly, changesBoth.trans changesDaemonset,
    ?_, ⟨classes, ?_⟩, daemonset⟩
  · exact common.of_changesKeys isTree (changesClasses.trans changesDaemonset)
      changesCommon.grows (by decide)
  · exact holds.of_changesKeys isTree changesDaemonset (by decide) (by decide)

/-- The outer loop of step 2 fails only at an item that is no table. -/
theorem exists_collectClasses
    {items : List AnyValue}
    (tablesOnly : ∀ item ∈ items, ∃ classMap, item = .table classMap)
    (classes : List Nat × Tables) :
    ∃ after, collectClasses items classes = .ok after := by
  induction items generalizing classes with
  | nil => exact ⟨classes, rfl⟩
  | cons item rest inductionHypothesis =>
      obtain ⟨classMap, rfl⟩ := tablesOnly item List.mem_cons_self
      rw [collectClasses]
      exact inductionHypothesis
        (fun other member => tablesOnly other (List.mem_cons_of_mem _ member)) _

/-- Step 2 succeeds on a list of tables. -/
theorem exists_replaceConfigMap
    {engine : String}
    {items : List AnyValue}
    (keeps : tree.KeepsKey root "configmap" tables)
    (storageClass :
      tree.resolve (.values root) (storageClassPath engine) =
        some (.list items))
    (tablesOnly : ∀ item ∈ items, ∃ classMap, item = .table classMap) :
    ∃ after, replaceConfigMap engine root tables = (none, after) := by
  have found :
      tables.pathValue root ("configmap." ++ engine ++ ".storageClass") =
        .ok (.list items) := by
    refine (pathValue_eq_ok_iff (splitDots_storageClass engine)
      (List.cons_ne_nil _ _)).mpr ?_
    rw [List.map_cons, List.cons_append, scalarAt?, keeps.resolve_eq]
    exact Option.filter_eq_some_iff.mpr ⟨storageClass, rfl⟩
  obtain ⟨classes, collects⟩ := exists_collectClasses tablesOnly ([], tables)
  refine ⟨(assign classes.2 root "classes" (.valuesList classes.1)).delete root
    "configmap", ?_⟩
  simp only [replaceConfigMap, found, collects]

/-- The migration succeeds just if the storage classes are a list of tables. -/
theorem succeeded_iff_storageClass
    {engine : String}
    (isTree : tree.IsTree root) :
    (upgrade root engine tree).1 = none ↔
      ∃ items,
        tree.resolve (.values root) (storageClassPath engine) =
            some (.list items) ∧
          ∀ item ∈ items, ∃ classMap, item = .table classMap := by
  constructor
  · intro succeeded
    obtain ⟨items, upgraded⟩ := upgraded_of_succeeded isTree succeeded
    exact ⟨items, upgraded.storageClass, upgraded.tablesOnly⟩
  · rintro ⟨items, storageClass, tablesOnly⟩
    obtain ⟨moved, moves, changesCommon, _⟩ := exists_moveConfigMapName isTree
    have keepsConfigmap : tree.KeepsKey root "configmap" moved :=
      .of_tree isTree changesCommon (by decide)
    obtain ⟨replaced, replaces⟩ :=
      exists_replaceConfigMap keepsConfigmap storageClass tablesOnly
    obtain ⟨_, _, _, _, changesClasses, _⟩ :=
      exists_of_replaceConfigMap isTree changesCommon keepsConfigmap replaces
    have changesBoth := changesCommon.trans changesClasses
    have keepsDaemonset : tree.KeepsKey root "daemonset" replaced :=
      .of_tree isTree changesBoth (by decide)
    obtain ⟨after, sets, _⟩ :=
      exists_setImagePullPolicy isTree keepsDaemonset changesBoth.grows
    simp only [upgrade, moves, replaces, sets]

end Steps

end LocalProvisioner
