import Mathlib.Data.List.Infix

namespace FileTree

/-!
# Removing files

A tree of files as the locations of its entries; with an entry it has the
directories that lead to it.  Some entries are stuck: they cannot be unlinked,
be it for their attributes or because something is mounted there.

Removing a location removes everything at it and below it that can be removed.
What is left are the stuck entries and the directories that lead to them.
Links are entries like others: nothing is followed.
-/

variable {Name : Type}

/-- Files at locations, closed under the directories that lead to them. -/
@[ext] structure Hierarchy (Name : Type) where
  entries : List (List Name)
  stuck : List Name → Bool
  closed :
    ∀ parent name, parent ++ [name] ∈ entries → parent ∈ entries

namespace Hierarchy

/-- A tree of listed entries. -/
def ofEntries
    (entries : List (List Name))
    (stuck : List Name → Bool)
    (closed : ∀ entry ∈ entries, entry.dropLast ∈ entries) :
    Hierarchy Name where
  entries := entries
  stuck := stuck
  closed := by
    intro parent name member
    simpa using closed _ member

/-- A location strictly below a directory. -/
def Below (directory location : List Name) : Prop :=
  directory <+: location ∧ location ≠ directory

/-- The names in a directory, in the order of some listing. -/
def Lists (tree : Hierarchy Name) (directory names : List Name) : Prop :=
  ∀ name, name ∈ names ↔ directory ++ [name] ∈ tree.entries

/-- What lies below a directory lies at or below one of its entries. -/
theorem Lists.exists_entry
    {tree : Hierarchy Name}
    {directory names location : List Name}
    (lists : tree.Lists directory names)
    (present : location ∈ tree.entries)
    (below : Below directory location) :
    ∃ name ∈ names, directory ++ [name] <+: location := by
  obtain ⟨⟨rest, rfl⟩, notSame⟩ := below
  cases rest with
  | nil => exact (notSame (List.append_nil _)).elim
  | cons name deeper =>
      have inside : directory ++ [name] <+: directory ++ name :: deeper :=
        ⟨deeper, by simp⟩
      refine ⟨name, (lists name).mpr ?_, inside⟩
      -- the directories on the way down, from the bottom up
      have closed :
          ∀ more, directory ++ name :: more ∈ tree.entries →
            directory ++ [name] ∈ tree.entries := by
        intro more
        induction more using List.reverseRecOn with
        | nil => exact id
        | append_singleton more last ih =>
            intro member
            refine ih (tree.closed _ last ?_)
            simpa using member
      exact closed deeper present

end Hierarchy

section Removal

variable [DecidableEq Name]

namespace Hierarchy

/-- Something at the location or below it is stuck. -/
def held (tree : Hierarchy Name) (location : List Name) : Bool :=
  tree.entries.any fun entry =>
    tree.stuck entry && location.isPrefixOf entry

theorem held_iff (tree : Hierarchy Name) (location : List Name) :
    tree.held location = true ↔
      ∃ entry ∈ tree.entries,
        tree.stuck entry = true ∧ location <+: entry := by
  simp [held]

/-- What is held at a location is held at every location above it. -/
theorem held_of_ancestor
    {tree : Hierarchy Name}
    {above location : List Name}
    (isAbove : above <+: location)
    (isHeld : tree.held location = true) :
    tree.held above = true := by
  rw [held_iff] at isHeld ⊢
  obtain ⟨entry, member, isStuck, below⟩ := isHeld
  exact ⟨entry, member, isStuck, isAbove.trans below⟩

/-- Whether an entry outlives the removal of a location. -/
def outlives (tree : Hierarchy Name) (target location : List Name) : Bool :=
  !target.isPrefixOf location || tree.held location

/-- Remove what can be removed at a location and below it. -/
def removeAll (tree : Hierarchy Name) (target : List Name) : Hierarchy Name where
  entries := tree.entries.filter (tree.outlives target)
  stuck := tree.stuck
  closed := by
    intro parent name member
    obtain ⟨present, survives⟩ := List.mem_filter.mp member
    refine List.mem_filter.mpr ⟨tree.closed parent name present, ?_⟩
    have above : parent <+: parent ++ [name] := List.prefix_append _ _
    simp only [outlives, Bool.or_eq_true, Bool.not_eq_true'] at survives ⊢
    rcases survives with elsewhere | isHeld
    · refine .inl ?_
      by_contra inside
      have isInside : target <+: parent := by simpa using inside
      have contradiction : target.isPrefixOf (parent ++ [name]) = true := by
        simpa using isInside.trans above
      rw [elsewhere] at contradiction
      cases contradiction
    · exact .inr (held_of_ancestor above isHeld)

theorem mem_removeAll_iff
    (tree : Hierarchy Name)
    (target location : List Name) :
    location ∈ (tree.removeAll target).entries ↔
      location ∈ tree.entries ∧
        (target <+: location → tree.held location = true) := by
  simp only [removeAll, List.mem_filter, outlives, Bool.or_eq_true,
    Bool.not_eq_true']
  refine and_congr_right fun _ => ?_
  rw [← List.isPrefixOf_iff_prefix]
  cases target.isPrefixOf location <;> simp

/-- Stuck entries stay, so removals do not change what is held. -/
@[simp] theorem held_removeAll
    (tree : Hierarchy Name)
    (target location : List Name) :
    (tree.removeAll target).held location = tree.held location := by
  rw [Bool.eq_iff_iff, held_iff, held_iff]
  constructor
  · rintro ⟨entry, member, isStuck, below⟩
    exact ⟨entry, ((tree.mem_removeAll_iff target entry).mp member).1,
      isStuck, below⟩
  · rintro ⟨entry, member, isStuck, below⟩
    refine ⟨entry, (tree.mem_removeAll_iff target entry).mpr
      ⟨member, fun _ => ?_⟩, isStuck, below⟩
    exact (tree.held_iff entry).mpr
      ⟨entry, member, isStuck, List.prefix_rfl⟩

/-- Remove one location after the other. -/
def removeEach
    (tree : Hierarchy Name)
    (targets : List (List Name)) :
    Hierarchy Name :=
  targets.foldl removeAll tree

@[simp] theorem held_removeEach
    (tree : Hierarchy Name)
    (targets : List (List Name))
    (location : List Name) :
    (tree.removeEach targets).held location = tree.held location := by
  induction targets generalizing tree with
  | nil => rfl
  | cons target rest ih =>
      exact (ih (tree.removeAll target)).trans
        (tree.held_removeAll target location)

theorem mem_removeEach_iff
    (tree : Hierarchy Name)
    (targets : List (List Name))
    (location : List Name) :
    location ∈ (tree.removeEach targets).entries ↔
      location ∈ tree.entries ∧
        ((∃ target ∈ targets, target <+: location) →
          tree.held location = true) := by
  induction targets generalizing tree with
  | nil => simp [removeEach]
  | cons target rest ih =>
      have first := tree.mem_removeAll_iff target location
      have later := ih (tree.removeAll target)
      rw [removeEach, List.foldl_cons, ← removeEach, later, first,
        held_removeAll]
      constructor
      · rintro ⟨⟨present, here⟩, behind⟩
        refine ⟨present, ?_⟩
        rintro ⟨other, member, inside⟩
        rcases List.mem_cons.mp member with rfl | isLater
        · exact here inside
        · exact behind ⟨other, isLater, inside⟩
      · rintro ⟨present, all⟩
        refine ⟨⟨present, fun inside => ?_⟩, ?_⟩
        · exact all ⟨target, List.mem_cons_self, inside⟩
        · rintro ⟨other, isLater, inside⟩
          exact all ⟨other, List.mem_cons_of_mem _ isLater, inside⟩

/-- The removals as one pass over the entries. -/
theorem entries_removeEach
    (tree : Hierarchy Name)
    (targets : List (List Name)) :
    (tree.removeEach targets).entries =
      tree.entries.filter fun location =>
        targets.all fun target => tree.outlives target location := by
  induction targets generalizing tree with
  | nil => simp [removeEach]
  | cons target rest ih =>
      have later := ih (tree.removeAll target)
      have same :
          ∀ other location,
            (tree.removeAll target).outlives other location =
              tree.outlives other location := by
        intro other location
        rw [outlives, outlives, held_removeAll]
      simp only [same] at later
      rw [removeEach, List.foldl_cons, ← removeEach, later, removeAll,
        List.filter_filter]
      refine List.filter_congr fun location _ => ?_
      rw [List.all_cons, Bool.and_comm]

theorem stuck_removeEach
    (tree : Hierarchy Name)
    (targets : List (List Name)) :
    (tree.removeEach targets).stuck = tree.stuck := by
  induction targets generalizing tree with
  | nil => rfl
  | cons target rest ih => exact ih (tree.removeAll target)

/-- The order of the removals does not matter. -/
theorem removeEach_congr
    {tree : Hierarchy Name}
    {targets others : List (List Name)}
    (same : ∀ target, target ∈ targets ↔ target ∈ others) :
    tree.removeEach targets = tree.removeEach others := by
  ext1
  · rw [entries_removeEach, entries_removeEach]
    refine List.filter_congr fun location _ => ?_
    rw [Bool.eq_iff_iff, List.all_eq_true, List.all_eq_true]
    simp only [same]
  · rw [stuck_removeEach, stuck_removeEach]

/-- What is left when every entry of a directory has been removed. -/
theorem mem_removeEntries_iff
    {tree : Hierarchy Name}
    {directory names location : List Name}
    (lists : tree.Lists directory names) :
    location ∈
        (tree.removeEach (names.map fun name => directory ++ [name])).entries ↔
      location ∈ tree.entries ∧
        (Below directory location → tree.held location = true) := by
  rw [mem_removeEach_iff]
  refine and_congr_right fun present => imp_congr_left ?_
  constructor
  · rintro ⟨target, member, inside⟩
    obtain ⟨name, _, rfl⟩ := List.mem_map.mp member
    refine ⟨(List.prefix_append _ _).trans inside, ?_⟩
    rintro rfl
    have short := inside.length_le
    rw [List.length_append] at short
    exact Nat.not_succ_le_self _ short
  · intro below
    obtain ⟨name, member, inside⟩ := lists.exists_entry present below
    exact ⟨_, List.mem_map.mpr ⟨name, member, rfl⟩, inside⟩

/-- The directory is empty afterwards exactly if no entry of it was held. -/
theorem emptied_iff
    {tree : Hierarchy Name}
    {directory names : List Name}
    (lists : tree.Lists directory names) :
    (∀ location ∈
        (tree.removeEach (names.map fun name => directory ++ [name])).entries,
        ¬ Below directory location) ↔
      ∀ name ∈ names, tree.held (directory ++ [name]) = false := by
  constructor
  · intro emptied name member
    by_contra isHeld
    have below : Below directory (directory ++ [name]) :=
      ⟨List.prefix_append _ _, by simp⟩
    refine emptied (directory ++ [name]) ?_ below
    exact (mem_removeEntries_iff lists).mpr
      ⟨(lists name).mp member, fun _ => by simpa using isHeld⟩
  · intro free location member below
    obtain ⟨present, kept⟩ := (mem_removeEntries_iff lists).mp member
    obtain ⟨name, isName, inside⟩ := lists.exists_entry present below
    have isHeld := held_of_ancestor inside (kept below)
    rw [free name isName] at isHeld
    cases isHeld

end Hierarchy

end Removal

end FileTree
