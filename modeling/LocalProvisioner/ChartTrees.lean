import LocalProvisioner.ChartValues

namespace LocalProvisioner

/-!
# Trees of values under writes

A tree that was decoded from YAML has each of its maps at one place only, and
below its root only the types that the decoder uses.  A program that changes
some keys of the root, the maps at those keys and maps that it has allocated
itself keeps everything else, also while it reads on in the same tree.
-/

/-- A value of a type that the decoder uses below the root. -/
def AnyValue.decoded : AnyValue → Bool
  | .values _ => false
  | .valuesList _ => false
  | _ => true

/-- In a decoded tree, what is no table for `istable` does not look like one. -/
theorem AnyValue.shape_eq_table_iff
    {value : AnyValue}
    (decoded : value.decoded = true) :
    value.shape = .table ↔ value.istable = true := by
  cases value <;> simp_all [AnyValue.decoded, AnyValue.shape, AnyValue.istable]

namespace Meaning

/-- The meaning of what is not there. -/
def absent : Meaning := fun _ => none

/-- The meaning of a value without parts. -/
def leaf (shape : Shape) : Meaning
  | [] => some shape
  | _ :: _ => none

/-- The meaning of a table, from those of its keys. -/
def tableOf (keys : String → Meaning) : Meaning
  | [] => some .table
  | .key key :: rest => keys key rest
  | .item _ :: _ => none

/-- The meaning of a list, from those of its items. -/
def listOf (items : List Meaning) : Meaning
  | [] => some (.list items.length)
  | .key _ :: _ => none
  | .item position :: rest => items[position]?.bind fun item => item rest

/-- The part of a meaning below a path. -/
def below (meaning : Meaning) (path : List PathStep) : Meaning :=
  fun rest => meaning (path ++ rest)

/-- The table at a key, or an empty one, with one of its keys set. -/
def withKey (meaning : Meaning) (name key : String) (value : Meaning) : Meaning :=
  .tableOf fun other =>
    if other = key then value else meaning.below [.key name, .key other]

end Meaning

namespace Tables

/-- The meaning of a value that may be absent. -/
def meaning? (tables : Tables) : Option AnyValue → Meaning
  | none => .absent
  | some value => tables.meaning value

section Meanings

variable {tables : Tables}
variable {value : AnyValue}

/-- A map means a table of what its keys mean. -/
theorem meaning_of_map
    {reference : Nat}
    (isMap : value.reference? = some reference) :
    tables.meaning value =
      .tableOf fun key =>
        tables.meaning? ((tables.read reference).lookup key) := by
  funext path
  match path with
  | [] => cases value <;> cases isMap <;> rfl
  | .item position :: rest => cases value <;> cases isMap <;> rfl
  | .key key :: rest =>
      rw [meaning, resolve_key isMap, Meaning.tableOf]
      cases (tables.read reference).lookup key <;> rfl

/-- A list of values means the list of what they mean. -/
theorem meaning_valuesList (references : List Nat) :
    tables.meaning (.valuesList references) =
      .listOf (references.map fun reference =>
        tables.meaning (.values reference)) := by
  funext path
  match path with
  | [] => simp [meaning, resolve, AnyValue.shape, Meaning.listOf]
  | .key key :: rest => rfl
  | .item position :: rest =>
      simp only [meaning, resolve, child, Meaning.listOf, List.getElem?_map]
      cases references[position]? <;> rfl

/-- A string means just itself. -/
theorem meaning_string (text : String) :
    tables.meaning (.string text) = .leaf (.string text) := by
  funext path
  cases path <;> rfl

/-- What a tree means below a path is what the value there means. -/
theorem below_meaning (value : AnyValue) (path : List PathStep) :
    (tables.meaning value).below path =
      tables.meaning? (tables.resolve value path) := by
  funext rest
  rw [Meaning.below, meaning, resolve_append]
  cases tables.resolve value path <;> rfl

end Meanings

/-- The tables hold a tree at a root, as the decoder builds it. -/
structure IsTree (tables : Tables) (root : Nat) : Prop where
  allocated :
    ∀ {path reference},
      tables.mapAt? (.values root) path = some reference →
        reference < tables.next
  unshared :
    ∀ {path other reference},
      tables.mapAt? (.values root) path = some reference →
        tables.mapAt? (.values root) other = some reference →
          path = other
  decoded :
    ∀ {path found},
      path ≠ [] →
        tables.resolve (.values root) path = some found →
          found.decoded = true

/--
From some tables to others, nothing has changed of a tree but some keys of its
root and the maps at these keys.
-/
structure ChangesKeys
    (tree : Tables)
    (root : Nat)
    (names : List String)
    (before after : Tables) : Prop where
  grows : before.next ≤ after.next
  kept :
    ∀ {reference},
      reference < before.next →
        reference ≠ root →
          (∀ name ∈ names,
            tree.mapAt? (.values root) [.key name] ≠ some reference) →
            after.read reference = before.read reference
  lookup_eq :
    ∀ {other},
      other ∉ names →
        (after.read root).lookup other = (before.read root).lookup other

/-- The maps below a path of a tree are as they were. -/
def KeepsBelow
    (tree : Tables)
    (root : Nat)
    (path : List PathStep)
    (tables : Tables) : Prop :=
  ∀ rest reference,
    tree.mapAt? (.values root) (path ++ rest) = some reference →
      tables.read reference = tree.read reference

/-- A value of the tree that is further down than the keys of the root. -/
def IsDeep (tree : Tables) (root : Nat) (value : AnyValue) : Prop :=
  ∃ path,
    2 ≤ path.length ∧ tree.resolve (.values root) path = some value

/-- A key of the root and everything below it are as they were. -/
structure KeepsKey
    (tree : Tables)
    (root : Nat)
    (name : String)
    (tables : Tables) : Prop where
  lookup_eq : (tables.read root).lookup name = (tree.read root).lookup name
  keepsBelow : tree.KeepsBelow root [.key name] tables

/--
The root has a table at a key that is the table of the tree, or an empty one,
with one key set.
-/
structure SetsKey
    (tree : Tables)
    (root : Nat)
    (name key : String)
    (value : AnyValue)
    (tables : Tables)
    (table : Nat) : Prop where
  isMap : tables.mapAt? (.values root) [.key name] = some table
  allocated : table < tables.next
  unshared :
    ∀ path, tree.mapAt? (.values root) path = some table → path = [.key name]
  lookup_eq :
    ∀ other,
      (tables.read table).lookup other =
        if other = key then some value
        else tree.resolve (.values root) [.key name, .key other]

/-- A key of a table is set if there is a value for it. -/
def SetsKeyIf
    (tree : Tables)
    (root : Nat)
    (name key : String) :
    Option AnyValue → Tables → Prop
  | some value, tables => ∃ table, tree.SetsKey root name key value tables table
  | none, tables => tree.KeepsKey root name tables

section Frames

variable {tree before after tables : Tables}
variable {root : Nat}
variable {names : List String}
variable {name : String}

/-- The root is at the empty path. -/
theorem mapAt?_nil : tree.mapAt? (.values root) [] = some root :=
  rfl

namespace ChangesKeys

theorem refl : ChangesKeys tree root names tables tables where
  grows := Nat.le_refl _
  kept := fun _ _ _ => rfl
  lookup_eq := fun _ => rfl

theorem mono
    {more : List String}
    (included : names ⊆ more)
    (changes : ChangesKeys tree root names before after) :
    ChangesKeys tree root more before after where
  grows := changes.grows
  kept := fun old notRoot elsewhere =>
    changes.kept old notRoot fun name member => elsewhere name (included member)
  lookup_eq := fun other => changes.lookup_eq fun member => other (included member)

theorem trans
    {more : List String}
    (first : ChangesKeys tree root names before tables)
    (second : ChangesKeys tree root more tables after) :
    ChangesKeys tree root (names ++ more) before after := by
  have first := first.mono (List.subset_append_left names more)
  have second := second.mono (List.subset_append_right names more)
  refine ⟨Nat.le_trans first.grows second.grows, ?_, ?_⟩
  · intro reference old notRoot elsewhere
    have stillOld := Nat.lt_of_lt_of_le old first.grows
    rw [second.kept stillOld notRoot elsewhere,
      first.kept old notRoot elsewhere]
  · intro other unnamed
    rw [second.lookup_eq unnamed, first.lookup_eq unnamed]

/-- Allocation changes no key. -/
theorem alloc
    (rootOld : root < tables.next)
    (content : GoMap AnyValue) :
    ChangesKeys tree root [] tables (tables.alloc content).2 where
  grows := Nat.le_succ _
  kept := by
    intro reference old notRoot elsewhere
    rw [SharedCells.read_alloc, if_neg (Nat.ne_of_lt old)]
  lookup_eq := by
    intro other unnamed
    rw [SharedCells.read_alloc, if_neg (Nat.ne_of_lt rootOld)]

/-- An assignment to a key of the root. -/
theorem assign_root (tables : Tables) (value : AnyValue) :
    ChangesKeys tree root [name] tables (tables.assign root name value) where
  grows := Nat.le_refl _
  kept := by
    intro reference old notRoot elsewhere
    rw [read_assign, if_neg notRoot]
  lookup_eq := by
    intro other unnamed
    rw [read_assign, if_pos rfl, lookup_assign,
      if_neg (List.ne_of_not_mem_cons unnamed)]

/-- The deletion of a key of the root. -/
theorem delete_root (tables : Tables) :
    ChangesKeys tree root [name] tables (tables.delete root name) where
  grows := Nat.le_refl _
  kept := by
    intro reference old notRoot elsewhere
    rw [read_delete, if_neg notRoot]
  lookup_eq := by
    intro other unnamed
    rw [read_delete, if_pos rfl, lookup_delete,
      if_neg (List.ne_of_not_mem_cons unnamed)]

/-- An assignment to the table at a key of the root. -/
theorem assign_table
    (isTree : tree.IsTree root)
    {table : Nat}
    (isMap : tree.mapAt? (.values root) [.key name] = some table)
    (tables : Tables)
    (key : String)
    (value : AnyValue) :
    ChangesKeys tree root [name] tables (tables.assign table key value) where
  grows := Nat.le_refl _
  kept := by
    intro reference old notRoot elsewhere
    have apart : reference ≠ table := by
      rintro rfl
      exact elsewhere name (List.mem_singleton_self name) isMap
    rw [read_assign, if_neg apart]
  lookup_eq := by
    intro other unnamed
    have apart : root ≠ table := by
      rintro rfl
      cases isTree.unshared isMap mapAt?_nil
    rw [read_assign, if_neg apart]

/-- An assignment to a table that was new. -/
theorem assign_new
    (changes : ChangesKeys tree root names before tables)
    {table : Nat}
    (new : before.next ≤ table)
    (rootOld : root < before.next)
    (key : String)
    (value : AnyValue) :
    ChangesKeys tree root names before (tables.assign table key value) where
  grows := changes.grows
  kept := by
    intro reference old notRoot elsewhere
    have apart : reference ≠ table := Nat.ne_of_lt (Nat.lt_of_lt_of_le old new)
    rw [read_assign, if_neg apart, changes.kept old notRoot elsewhere]
  lookup_eq := by
    intro other unnamed
    have apart : root ≠ table := Nat.ne_of_lt (Nat.lt_of_lt_of_le rootOld new)
    rw [read_assign, if_neg apart, changes.lookup_eq unnamed]

/-- Maps that are not part of the tree are kept once they are allocated. -/
theorem read_of_new
    (isTree : tree.IsTree root)
    (changes : ChangesKeys tree root names before after)
    {reference : Nat}
    (new : tree.next ≤ reference)
    (old : reference < before.next) :
    after.read reference = before.read reference := by
  have outside : ∀ path, tree.mapAt? (.values root) path ≠ some reference :=
    fun path isMap => absurd (isTree.allocated isMap) (Nat.not_lt.mpr new)
  refine changes.kept old ?_ fun name _ => outside [.key name]
  rintro rfl
  exact outside [] mapAt?_nil

/-- The other maps of the tree are kept. -/
theorem read_of_elsewhere
    (isTree : tree.IsTree root)
    (changes : ChangesKeys tree root names before after)
    (started : tree.next ≤ before.next)
    {path : List PathStep}
    {reference : Nat}
    (isMap : tree.mapAt? (.values root) path = some reference)
    (notRoot : path ≠ [])
    (elsewhere : ∀ name ∈ names, path ≠ [.key name]) :
    after.read reference = before.read reference := by
  refine changes.kept (Nat.lt_of_lt_of_le (isTree.allocated isMap) started) ?_ ?_
  · rintro rfl
    exact notRoot (isTree.unshared isMap mapAt?_nil)
  · intro name member same
    exact elsewhere name member (isTree.unshared isMap same)

/-- What is further down than the changed keys is kept. -/
theorem keepsBelow
    (isTree : tree.IsTree root)
    (changes : ChangesKeys tree root names tree tables)
    {path : List PathStep}
    (deep : 2 ≤ path.length) :
    tree.KeepsBelow root path tables := by
  intro rest reference isMap
  have long : 2 ≤ (path ++ rest).length := by
    rw [List.length_append]
    omega
  refine changes.read_of_elsewhere isTree (Nat.le_refl _) isMap ?_ ?_
  · intro isRoot
    rw [isRoot] at long
    cases long
  · intro name member isKey
    rw [isKey] at long
    exact absurd long (by simp)

end ChangesKeys

namespace KeepsBelow

variable {path : List PathStep}

/-- Where the maps are kept, the values are found as before. -/
theorem resolve_eq
    {value : AnyValue}
    (keeps : tree.KeepsBelow root path tables)
    (here : tree.resolve (.values root) path = some value)
    (rest : List PathStep) :
    tables.resolve value rest = tree.resolve value rest := by
  refine resolve_congr (fun further reference isMap => ?_) rest
  refine keeps further reference ?_
  rw [mapAt?_append, here]
  exact isMap

/-- Where the maps are kept, the meaning is kept. -/
theorem meaning?_eq (keeps : tree.KeepsBelow root path tables) :
    tables.meaning? (tree.resolve (.values root) path) =
      (tree.meaning (.values root)).below path := by
  rw [below_meaning]
  cases here : tree.resolve (.values root) path with
  | none => rfl
  | some value =>
      funext rest
      exact congrArg (Option.map AnyValue.shape) (keeps.resolve_eq here rest)

end KeepsBelow

namespace IsDeep

variable {value : AnyValue}

theorem child
    {next : AnyValue}
    {step : PathStep}
    (deep : tree.IsDeep root value)
    (isChild : tree.child value step = some next) :
    tree.IsDeep root next := by
  obtain ⟨path, long, here⟩ := deep
  refine ⟨path ++ [step], ?_, ?_⟩
  · rw [List.length_append]
    exact Nat.le_add_right_of_le long
  · rw [resolve_append, here, Option.bind_some, resolve, isChild]
    rfl

/-- Maps that are further down are kept. -/
theorem read_eq
    (isTree : tree.IsTree root)
    (deep : tree.IsDeep root value)
    (changes : ChangesKeys tree root names tree tables)
    {reference : Nat}
    (isMap : value.reference? = some reference) :
    tables.read reference = tree.read reference := by
  obtain ⟨path, long, here⟩ := deep
  refine changes.keepsBelow isTree long [] reference ?_
  rw [List.append_nil, mapAt?, here]
  exact isMap

end IsDeep

namespace KeepsKey

theorem refl : tree.KeepsKey root name tree where
  lookup_eq := rfl
  keepsBelow := fun _ _ _ => rfl

/-- Changes of other keys keep a key. -/
theorem of_changesKeys
    (isTree : tree.IsTree root)
    (keeps : tree.KeepsKey root name before)
    (changes : ChangesKeys tree root names before after)
    (started : tree.next ≤ before.next)
    (unnamed : name ∉ names) :
    tree.KeepsKey root name after where
  lookup_eq := (changes.lookup_eq unnamed).trans keeps.lookup_eq
  keepsBelow := by
    intro rest reference isMap
    rw [← keeps.keepsBelow rest reference isMap]
    refine changes.read_of_elsewhere isTree started isMap (by simp) ?_
    rintro other member ⟨⟩
    exact unnamed member

/-- Keys that are not changed are kept. -/
theorem of_tree
    (isTree : tree.IsTree root)
    (changes : ChangesKeys tree root names tree tables)
    (unnamed : name ∉ names) :
    tree.KeepsKey root name tables :=
  refl.of_changesKeys isTree changes (Nat.le_refl _) unnamed

/-- Below a key that is kept, the values are found as before. -/
theorem resolve_eq
    (keeps : tree.KeepsKey root name tables)
    (rest : List PathStep) :
    tables.resolve (.values root) (.key name :: rest) =
      tree.resolve (.values root) (.key name :: rest) := by
  rw [resolve_key rfl, resolve_key rfl, keeps.lookup_eq]
  refine Option.bind_congr fun value here => ?_
  refine keeps.keepsBelow.resolve_eq ?_ rest
  rw [resolve_singleton_key, here]

/-- A key that is kept means the same. -/
theorem meaning?_eq (keeps : tree.KeepsKey root name tables) :
    tables.meaning? ((tables.read root).lookup name) =
      (tree.meaning (.values root)).below [.key name] := by
  rw [keeps.lookup_eq, ← resolve_singleton_key, keeps.keepsBelow.meaning?_eq]

end KeepsKey

section Setting

variable {key : String}
variable {value : AnyValue}
variable {value? : Option AnyValue}
variable {table : Nat}

/-- Setting a key in a table of the tree that is as it was. -/
theorem SetsKey.of_table
    (isTree : tree.IsTree root)
    (keeps : tree.KeepsKey root name tables)
    (started : tree.next ≤ tables.next)
    (isMap : tree.mapAt? (.values root) [.key name] = some table) :
    tree.SetsKey root name key value (tables.assign table key value) table where
  isMap := by
    have apart : root ≠ table := by
      rintro rfl
      cases isTree.unshared isMap mapAt?_nil
    rw [mapAt?_singleton_key, read_assign, if_neg apart, keeps.lookup_eq,
      ← mapAt?_singleton_key, isMap]
  allocated := Nat.lt_of_lt_of_le (isTree.allocated isMap) started
  unshared := fun _ same => isTree.unshared same isMap
  lookup_eq := by
    intro other
    have here :
        tree.resolve (.values root) [.key name, .key other] =
          (tree.read table).lookup other :=
      resolve_concat_key isMap other
    rw [read_assign, if_pos rfl, lookup_assign, here,
      keeps.keepsBelow [] table isMap]

/-- Setting a key in a table that is created for it. -/
theorem SetsKey.of_created
    (isTree : tree.IsTree root)
    (started : tree.next ≤ tables.next)
    (noMap : tree.mapAt? (.values root) [.key name] = none)
    {created : Tables}
    (isCreated : created = (tables.alloc ∅).2) :
    tree.SetsKey root name key value
      ((created.assign root name (.values tables.next)).assign tables.next key
        value)
      tables.next where
  isMap := by
    have apart : root ≠ tables.next :=
      Nat.ne_of_lt (Nat.lt_of_lt_of_le (isTree.allocated mapAt?_nil) started)
    rw [mapAt?_singleton_key, read_assign, if_neg apart, read_assign,
      if_pos rfl, lookup_assign, if_pos rfl]
    rfl
  allocated := by
    subst isCreated
    exact Nat.lt_succ_self _
  unshared := fun _ isMap =>
    absurd (isTree.allocated isMap) (Nat.not_lt.mpr started)
  lookup_eq := by
    intro other
    have apart : tables.next ≠ root :=
      Nat.ne_of_gt (Nat.lt_of_lt_of_le (isTree.allocated mapAt?_nil) started)
    have empty : created.read tables.next = ∅ := by
      rw [isCreated, SharedCells.read_alloc, if_pos rfl]
    have absent :
        tree.resolve (.values root) [.key name, .key other] = none :=
      resolve_concat_key_of_none noMap other
    rw [read_assign, if_pos rfl, lookup_assign, read_assign, if_neg apart,
      empty, absent]
    rfl

/-- Changes of other keys keep a table that was set. -/
theorem SetsKey.of_changesKeys
    (sets : tree.SetsKey root name key value before table)
    (changes : ChangesKeys tree root names before after)
    (unnamed : name ∉ names) :
    tree.SetsKey root name key value after table where
  isMap := by
    rw [← sets.isMap, mapAt?_singleton_key, mapAt?_singleton_key,
      changes.lookup_eq unnamed]
  allocated := Nat.lt_of_lt_of_le sets.allocated changes.grows
  unshared := sets.unshared
  lookup_eq := by
    have kept : after.read table = before.read table := by
      refine changes.kept sets.allocated ?_ ?_
      · rintro rfl
        cases sets.unshared [] mapAt?_nil
      · intro other member isMap
        cases sets.unshared _ isMap
        exact unnamed member
    rw [kept]
    exact sets.lookup_eq

/-- What a table means in which a key was set. -/
theorem SetsKey.meaning?_eq
    (sets : tree.SetsKey root name key value tables table)
    (keeps : ∀ other, tree.KeepsBelow root [.key name, .key other] tables) :
    tables.meaning? ((tables.read root).lookup name) =
      (tree.meaning (.values root)).withKey name key (tables.meaning value) := by
  have isMap := sets.isMap
  rw [mapAt?_singleton_key] at isMap
  obtain ⟨found, here, isMap⟩ := Option.bind_eq_some_iff.mp isMap
  rw [here, meaning?, meaning_of_map isMap, Meaning.withKey]
  congr 1
  funext other
  rw [sets.lookup_eq other]
  split
  · rfl
  · exact (keeps other).meaning?_eq

/-- Changes of other keys keep what was set, and what was not. -/
theorem SetsKeyIf.of_changesKeys
    (isTree : tree.IsTree root)
    (sets : tree.SetsKeyIf root name key value? before)
    (changes : ChangesKeys tree root names before after)
    (started : tree.next ≤ before.next)
    (unnamed : name ∉ names) :
    tree.SetsKeyIf root name key value? after := by
  cases value? with
  | none => exact KeepsKey.of_changesKeys isTree sets changes started unnamed
  | some value =>
      obtain ⟨table, sets⟩ := sets
      exact ⟨table, sets.of_changesKeys changes unnamed⟩

/-- What a key of the root means that was set if there was a value for it. -/
theorem SetsKeyIf.meaning?_eq
    (sets : tree.SetsKeyIf root name key value? tables)
    (keeps : ∀ other, tree.KeepsBelow root [.key name, .key other] tables) :
    tables.meaning? ((tables.read root).lookup name) =
      value?.elim ((tree.meaning (.values root)).below [.key name]) fun value =>
        (tree.meaning (.values root)).withKey name key
          (tables.meaning value) := by
  cases value? with
  | none => exact KeepsKey.meaning?_eq sets
  | some value =>
      obtain ⟨table, sets⟩ := sets
      exact sets.meaning?_eq keeps

end Setting

end Frames

end Tables

end LocalProvisioner
