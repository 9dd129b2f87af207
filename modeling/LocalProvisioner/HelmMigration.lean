import LocalProvisioner.HelmUpgrade

namespace LocalProvisioner

/-!
# What the migration of chart values preserves

The values of the new chart, as a function of what the values of the old chart
mean, and that `upgrade` computes values which mean just that: every class,
setting and other key is found where the new chart expects it, and as it was.
-/

/-- The class of some name in some item of the list of classes. -/
def classPath (engine : String) (position : Nat) (name : String) :
    List PathStep :=
  storageClassPath engine ++ [.item position, .key name]

namespace Meaning

/-- Something is at a path that is no table. -/
def HasScalar (meaning : Meaning) (path : List PathStep) : Prop :=
  meaning path ≠ none ∧ meaning path ≠ some .table

instance (meaning : Meaning) (path : List PathStep) :
    Decidable (meaning.HasScalar path) :=
  inferInstanceAs (Decidable (_ ∧ _))

/-- The image pull policy has to be set. -/
def LacksPolicy (meaning : Meaning) : Prop :=
  meaning [.key "daemonset", .key "imagePullPolicy"] ∈
    [none, some .table, some (.string "")]

instance (meaning : Meaning) : Decidable meaning.LacksPolicy :=
  inferInstanceAs (Decidable (_ ∈ _))

/-- The entry of the new chart for a class of the old one. -/
def classEntry
    (meaning : Meaning)
    (engine : String)
    (position : Nat)
    (name : String) :
    Meaning :=
  .tableOf fun setting =>
    if setting = "name" then .leaf (.string name)
    else meaning.below (classPath engine position name ++ [.key setting])

/-- Values for the new chart that mean what the values for the old one meant. -/
def migrated
    (meaning : Meaning)
    (engine : String)
    (classes : List (Nat × String)) :
    Meaning :=
  .tableOf fun key =>
    if key = "configmap" then .absent
    else if key = "classes" then
      .listOf (classes.map fun c => meaning.classEntry engine c.1 c.2)
    else if key = "common" then
      if meaning.HasScalar [.key "configmap", .key "configMapName"] then
        meaning.withKey "common" "configMapName"
          (meaning.below [.key "configmap", .key "configMapName"])
      else meaning.below [.key "common"]
    else if key = "daemonset" then
      if meaning.LacksPolicy then
        meaning.withKey "daemonset" "imagePullPolicy" (.leaf (.string "Always"))
      else meaning.below [.key "daemonset"]
    else meaning.below [.key key]

/--
Every class of every item, once, in the order of the items.  The order of the
classes of one item is that of a Go map.
-/
structure ListsClasses
    (meaning : Meaning)
    (engine : String)
    (classes : List (Nat × String)) : Prop where
  nodup : classes.Nodup
  ordered : classes.Pairwise fun first second => first.1 ≤ second.1
  mem_iff :
    ∀ position name,
      (position, name) ∈ classes ↔
        meaning (classPath engine position name) ≠ none

end Meaning

section Meanings

open Tables

variable {tree tables : Tables}
variable {root : Nat}
variable {engine : String}
variable {items : List AnyValue}

/-- The classes of all items with the positions of the items. -/
def listedClasses (tables : Tables) (items : List AnyValue) :
    List (Nat × Sigma fun _ : String => AnyValue) :=
  items.zipIdx.flatMap fun item =>
    (classEntries tables item.1).map fun entry => (item.2, entry)

theorem map_snd_listedClasses (items : List AnyValue) :
    (listedClasses tree items).map Prod.snd =
      items.flatMap (classEntries tree) := by
  have classesOnly :
      (listedClasses tree items).map Prod.snd =
        (items.zipIdx.map Prod.fst).flatMap (classEntries tree) := by
    rw [listedClasses, List.map_flatMap, List.flatMap_map]
    simp only [List.map_map, Function.comp_def, List.map_id']
  rw [classesOnly, List.zipIdx_map_fst]

theorem mem_listedClasses
    {items : List AnyValue}
    {position : Nat}
    {entry : Sigma fun _ : String => AnyValue} :
    (position, entry) ∈ listedClasses tree items ↔
      ∃ item,
        items[position]? = some item ∧ entry ∈ classEntries tree item := by
  simp only [listedClasses, List.mem_flatMap, List.mem_map, Prod.mk.injEq]
  constructor
  · rintro ⟨⟨item, _⟩, member, _, isEntry, rfl, rfl⟩
    exact ⟨item, List.mem_zipIdx_iff_getElem?.mp member, isEntry⟩
  · rintro ⟨item, isItem, isEntry⟩
    exact ⟨(item, position), List.mem_zipIdx_iff_getElem?.mpr isItem, entry,
      isEntry, rfl, rfl⟩

/-- The classes come in the order of the items, and those of an item once. -/
theorem pairwise_listedClasses (items : List AnyValue) :
    (listedClasses tree items).Pairwise fun first second =>
      first.1 < second.1 ∨ first.1 = second.1 ∧ first.2.1 ≠ second.2.1 := by
  refine List.pairwise_flatMap.mpr ⟨?_, ?_⟩
  · intro item member
    refine List.pairwise_map.mpr ?_
    have distinct :
        (classEntries tree item.1).Pairwise fun first second =>
          first.1 ≠ second.1 := by
      cases item.1 with
      | table classMap =>
          exact List.pairwise_map.mp (tree.read classMap).nodupKeys
      | _ => exact .nil
    exact distinct.imp fun apart => .inr ⟨rfl, apart⟩
  · have increasing :
        items.zipIdx.Pairwise fun first second => first.2 < second.2 := by
      refine List.pairwise_map.mp ?_
      rw [List.zipIdx_map_snd]
      exact List.pairwise_lt_range' 1
    refine increasing.imp ?_
    intro first second before entry inFirst other inSecond
    obtain ⟨_, _, rfl⟩ := List.mem_map.mp inFirst
    obtain ⟨_, _, rfl⟩ := List.mem_map.mp inSecond
    exact .inl before

/-- The classes that are listed are those of the tree. -/
theorem mem_listedClasses_iff_resolve
    (here :
      tree.resolve (.values root) (storageClassPath engine) =
        some (.list items))
    (tablesOnly : ∀ item ∈ items, ∃ classMap, item = .table classMap)
    {position : Nat}
    {name : String}
    {value : AnyValue} :
    (position, ⟨name, value⟩) ∈ listedClasses tree items ↔
      tree.resolve (.values root) (classPath engine position name) =
        some value := by
  have below :
      tree.resolve (.values root) (classPath engine position name) =
        items[position]?.bind fun item => tree.resolve item [.key name] := by
    rw [classPath, resolve_append, here]
    rfl
  rw [mem_listedClasses, below, Option.bind_eq_some_iff]
  refine exists_congr fun item => and_congr_right fun isItem => ?_
  obtain ⟨classMap, rfl⟩ := tablesOnly item (List.mem_of_getElem? isItem)
  have settings :
      tree.resolve (.table classMap) [.key name] =
        (tree.read classMap).lookup name :=
    resolve_singleton_key classMap name
  rw [settings, classEntries, ← AList.mem_lookup_iff]
  rfl

/-- The classes that are collected are those of the tree. -/
theorem listsClasses_of_resolve
    (here :
      tree.resolve (.values root) (storageClassPath engine) =
        some (.list items))
    (tablesOnly : ∀ item ∈ items, ∃ classMap, item = .table classMap) :
    (tree.meaning (.values root)).ListsClasses engine
      ((listedClasses tree items).map fun c => (c.1, c.2.1)) where
  nodup := by
    refine List.pairwise_map.mpr ((pairwise_listedClasses items).imp ?_)
    rintro first second (before | ⟨_, apart⟩) same
    · exact Nat.ne_of_lt before (Prod.mk.inj same).1
    · exact apart (Prod.mk.inj same).2
  ordered := by
    refine List.pairwise_map.mpr ((pairwise_listedClasses items).imp ?_)
    rintro first second (before | ⟨same, _⟩)
    · exact Nat.le_of_lt before
    · exact Nat.le_of_eq same
  mem_iff := by
    intro position name
    rw [meaning, Ne, Option.map_eq_none_iff, ← Ne, Option.ne_none_iff_exists']
    constructor
    · intro member
      obtain ⟨⟨_, _, value⟩, listed, same⟩ := List.mem_map.mp member
      cases same
      exact ⟨value, (mem_listedClasses_iff_resolve here tablesOnly).mp listed⟩
    · rintro ⟨value, found⟩
      have listed := (mem_listedClasses_iff_resolve here tablesOnly).mpr found
      exact List.mem_map.mpr ⟨_, listed, rfl⟩

/-- The entries of a class: its settings, and its name unless they hide it. -/
theorem lookup_classValue
    {value : AnyValue}
    (decoded : value.decoded = true)
    (name key : String) :
    (classValue tree name value).lookup key =
      (tree.resolve value [.key key]).or
        (if key = "name" then some (.string name) else none) := by
  have base :
      ((∅ : GoMap AnyValue).insert "name" (.string name)).lookup key =
        if key = "name" then some (.string name) else none := by
    rw [lookup_assign]
    rfl
  cases value with
  | table kvs =>
      have settings :
          tree.resolve (.table kvs) [.key key] = (tree.read kvs).lookup key :=
        resolve_singleton_key kvs key
      rw [classValue, lookup_foldl_assign, base, settings]
  | values _ => cases decoded
  | valuesList _ => cases decoded
  | _ => exact base

/-- What the new map of a class means. -/
theorem tableOf_classValue
    {position : Nat}
    {name : String}
    {value : AnyValue}
    {names : List String}
    (isTree : tree.IsTree root)
    (changes : ChangesKeys tree root names tree tables)
    (here :
      tree.resolve (.values root) (classPath engine position name) = some value)
    (unnamed :
      tree.meaning (.values root)
        (classPath engine position name ++ [.key "name"]) = none) :
    (.tableOf fun key =>
        tables.meaning? ((classValue tree name value).lookup key)) =
      (tree.meaning (.values root)).classEntry engine position name := by
  have decoded : value.decoded = true :=
    isTree.decoded (by simp [classPath]) here
  have below : ∀ key,
      tree.resolve value [.key key] =
        tree.resolve (.values root)
          (classPath engine position name ++ [.key key]) := by
    intro key
    rw [resolve_append, here, Option.bind_some]
  rw [Meaning.classEntry]
  congr 1
  funext key
  rw [lookup_classValue decoded, below]
  split
  · rename_i isName
    subst isName
    rw [Option.map_eq_none_iff.mp unnamed]
    exact meaning_string name
  · have deep :
        2 ≤ (classPath engine position name ++ [PathStep.key key]).length := by
      simp [classPath]
    rw [Option.or_none]
    exact (changes.keepsBelow isTree deep).meaning?_eq

/-- What the list of classes means. -/
theorem HoldsClasses.meaning?_eq
    {classes : List Nat}
    {names : List String}
    (isTree : tree.IsTree root)
    (changes : ChangesKeys tree root names tree tables)
    (here :
      tree.resolve (.values root) (storageClassPath engine) =
        some (.list items))
    (tablesOnly : ∀ item ∈ items, ∃ classMap, item = .table classMap)
    (unnamed :
      ∀ position name,
        tree.meaning (.values root)
          (classPath engine position name ++ [.key "name"]) = none)
    (holds : HoldsClasses tree root items tables classes) :
    tables.meaning? ((tables.read root).lookup "classes") =
      .listOf
        (((listedClasses tree items).map fun c => (c.1, c.2.1)).map fun c =>
          (tree.meaning (.values root)).classEntry engine c.1 c.2) := by
  have entries :
      classes.map (fun reference => tables.meaning (.values reference)) =
        (classes.map tables.read).map fun content =>
          .tableOf fun key => tables.meaning? (content.lookup key) := by
    rw [List.map_map]
    exact List.map_congr_left fun reference _ => meaning_of_map rfl
  rw [holds.lookup_eq, meaning?, meaning_valuesList, entries, holds.contents,
    ← map_snd_listedClasses, List.map_map, List.map_map, List.map_map]
  congr 1
  refine List.map_congr_left ?_
  rintro ⟨position, name, value⟩ listed
  have found := (mem_listedClasses_iff_resolve here tablesOnly).mp listed
  exact tableOf_classValue isTree changes found (unnamed position name)

/-- A value that `PathValue` finds is one that is seen to be no table. -/
theorem scalarAt?_cases
    (isTree : tree.IsTree root)
    {path : List PathStep}
    (notRoot : path ≠ []) :
    (∃ value,
      tree.scalarAt? root path = some value ∧
        tree.resolve (.values root) path = some value ∧
          (tree.meaning (.values root)).HasScalar path) ∨
      tree.scalarAt? root path = none ∧
        ¬ (tree.meaning (.values root)).HasScalar path := by
  rw [scalarAt?, Meaning.HasScalar, meaning]
  cases found : tree.resolve (.values root) path with
  | none => simp
  | some value =>
      have seen := AnyValue.shape_eq_table_iff (isTree.decoded notRoot found)
      cases isTable : value.istable with
      | true => simp [isTable, seen]
      | false => simp [isTable, seen]

/-- Step 3 sets the policy just if it is seen to be lacking. -/
theorem policyToSet_scalarAt? (isTree : tree.IsTree root) :
    policyToSet
        (tree.scalarAt? root [.key "daemonset", .key "imagePullPolicy"]) =
      if (tree.meaning (.values root)).LacksPolicy then
        some (.string "Always")
      else none := by
  have lacks :
      (tree.meaning (.values root)).LacksPolicy ↔
        (tree.resolve (.values root)
          [.key "daemonset", .key "imagePullPolicy"]).map AnyValue.shape ∈
          [none, some .table, some (.string "")] :=
    Iff.rfl
  rw [if_congr lacks rfl rfl, scalarAt?]
  cases found :
      tree.resolve (.values root)
        [.key "daemonset", .key "imagePullPolicy"] with
  | none => rfl
  | some value =>
      have decoded := isTree.decoded (List.cons_ne_nil _ _) found
      cases value with
      | values _ => cases decoded
      | valuesList _ => cases decoded
      | string v =>
          have blank :
              some (Shape.string v) ∈ [none, some .table, some (.string "")] ↔
                v = "" := by
            simp
          rw [Option.map_some, AnyValue.shape, if_congr blank rfl rfl]
          rfl
      | _ => rfl

namespace Upgraded

variable {after : Tables}

/-- What `common` means after the migration. -/
theorem meaning?_common
    (isTree : tree.IsTree root)
    (upgraded : Upgraded tree root engine items after) :
    after.meaning? ((after.read root).lookup "common") =
      if (tree.meaning (.values root)).HasScalar
          [.key "configmap", .key "configMapName"] then
        (tree.meaning (.values root)).withKey "common" "configMapName"
          ((tree.meaning (.values root)).below
            [.key "configmap", .key "configMapName"])
      else (tree.meaning (.values root)).below [.key "common"] := by
  rw [upgraded.common.meaning?_eq fun other =>
    upgraded.changes.keepsBelow isTree (Nat.le_refl 2)]
  rcases scalarAt?_cases isTree (List.cons_ne_nil _ _) with
    ⟨value, moved, here, scalar⟩ | ⟨nothing, noScalar⟩
  · have kept :
        tree.KeepsBelow root [.key "configmap", .key "configMapName"] after :=
      upgraded.changes.keepsBelow isTree (Nat.le_refl 2)
    rw [if_pos scalar, moved, ← kept.meaning?_eq, here]
    rfl
  · rw [if_neg noScalar, nothing]
    rfl

/-- What `daemonset` means after the migration. -/
theorem meaning?_daemonset
    (isTree : tree.IsTree root)
    (upgraded : Upgraded tree root engine items after) :
    after.meaning? ((after.read root).lookup "daemonset") =
      if (tree.meaning (.values root)).LacksPolicy then
        (tree.meaning (.values root)).withKey "daemonset" "imagePullPolicy"
          (.leaf (.string "Always"))
      else (tree.meaning (.values root)).below [.key "daemonset"] := by
  rw [upgraded.daemonset.meaning?_eq fun other =>
    upgraded.changes.keepsBelow isTree (Nat.le_refl 2)]
  rw [policyToSet_scalarAt? isTree]
  split
  · rw [Option.elim_some, meaning_string]
  · rfl

/-- What the other keys mean after the migration. -/
theorem meaning?_other
    (isTree : tree.IsTree root)
    (upgraded : Upgraded tree root engine items after)
    {key : String}
    (other : key ∉ ["common", "classes", "configmap", "daemonset"]) :
    after.meaning? ((after.read root).lookup key) =
      (tree.meaning (.values root)).below [.key key] := by
  have keeps : tree.KeepsKey root key after :=
    .of_tree isTree upgraded.changes other
  exact keeps.meaning?_eq

end Upgraded

end Meanings

section Migration

open Tables

/--
The migration preserves what the values mean.  If it succeeds on a tree of
values, and no class has a setting that would hide its name, the new values mean
the migrated old ones.
-/
theorem upgrade_migrates
    {tables : Tables}
    {root : Nat}
    {engine : String}
    (isTree : tables.IsTree root)
    (succeeded : (upgrade root engine tables).1 = none)
    (unnamed :
      ∀ position name,
        tables.meaning (.values root)
          (classPath engine position name ++ [.key "name"]) = none) :
    ∃ classes,
      (tables.meaning (.values root)).ListsClasses engine classes ∧
        (upgrade root engine tables).2.meaning (.values root) =
          (tables.meaning (.values root)).migrated engine classes := by
  obtain ⟨items, upgraded⟩ := upgraded_of_succeeded isTree succeeded
  obtain ⟨classes, holds⟩ := upgraded.classes
  refine ⟨_, listsClasses_of_resolve upgraded.storageClass upgraded.tablesOnly,
    ?_⟩
  rw [meaning_of_map rfl, Meaning.migrated]
  congr 1
  funext key
  by_cases isConfigmap : key = "configmap"
  · subst isConfigmap
    rw [holds.configmap, if_pos rfl, meaning?]
  by_cases isClasses : key = "classes"
  · subst isClasses
    rw [if_neg isConfigmap, if_pos rfl]
    exact holds.meaning?_eq isTree upgraded.changes upgraded.storageClass
      upgraded.tablesOnly unnamed
  by_cases isCommon : key = "common"
  · subst isCommon
    rw [if_neg isConfigmap, if_neg isClasses, if_pos rfl]
    exact upgraded.meaning?_common isTree
  by_cases isDaemonset : key = "daemonset"
  · subst isDaemonset
    rw [if_neg isConfigmap, if_neg isClasses, if_neg isCommon, if_pos rfl]
    exact upgraded.meaning?_daemonset isTree
  rw [if_neg isConfigmap, if_neg isClasses, if_neg isCommon, if_neg isDaemonset]
  exact upgraded.meaning?_other isTree
    (by simp [isConfigmap, isClasses, isCommon, isDaemonset])

/-- Values of an old chart with one class. -/
def sampleValues : List (String × YamlNode) :=
  [("configmap", .mapping
    [("baremetal", .mapping
      [("storageClass", .sequence
        [.mapping
          [("fast-disks", .mapping
            [("blockCleanerCommand", .sequence
              [.string "/scripts/shred.sh", .string "2"]),
             ("hostDir", .string "/mnt/fast-disks")])]])]),
     ("configMapName", .string "local-provisioner-test")])]

/-- The tables of the sample, with its root. -/
def sampleTables : Nat × Tables :=
  readValues sampleValues (SharedCells.blank ∅)

theorem succeeded_sampleTables :
    (upgrade sampleTables.1 "baremetal" sampleTables.2).1 = none := by
  rfl

theorem unnamed_sampleTables (position : Nat) (name : String) :
    sampleTables.2.meaning (.values sampleTables.1)
      (classPath "baremetal" position name ++ [.key "name"]) = none := by
  have items :
      sampleTables.2.resolve (.values sampleTables.1)
        (storageClassPath "baremetal") = some (.list [.table 1]) :=
    rfl
  have item :
      sampleTables.2.read 1 =
        (∅ : GoMap AnyValue).insert "fast-disks" (.table 0) :=
    rfl
  rw [meaning, classPath, List.append_assoc, resolve_append, items,
    Option.bind_some]
  cases position with
  | succ position => rfl
  | zero =>
      change (((sampleTables.2.read 1).lookup name).bind _).map _ = none
      rw [item, lookup_assign]
      split
      · rfl
      · rfl

theorem upgrade_migrates_sampleTables :
    (upgrade sampleTables.1 "baremetal" sampleTables.2).1 = none ∧
      ∃ classes,
        (sampleTables.2.meaning (.values sampleTables.1)).ListsClasses
            "baremetal" classes ∧
          (upgrade sampleTables.1 "baremetal" sampleTables.2).2.meaning
              (.values sampleTables.1) =
            (sampleTables.2.meaning (.values sampleTables.1)).migrated
              "baremetal" classes :=
  ⟨succeeded_sampleTables,
    upgrade_migrates (isTree_readValues sampleValues _) succeeded_sampleTables
      unnamed_sampleTables⟩

end Migration

end LocalProvisioner
