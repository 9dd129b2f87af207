import LocalProvisioner.ObjectStore

/-!
# Parts of a store

The part of a store that has the names one cares about.  Storing and removing
objects commute with taking a part, and leave the part alone if they are about
other names.
-/

namespace List

variable {Name : Type} [DecidableEq Name] {Value : Name → Type}

/-- A key that is not selected is not among the selected entries. -/
theorem kerase_filter_of_false
    {keep : Name → Bool}
    {key : Name}
    (entries : List (Sigma Value))
    (left : keep key = false) :
    (entries.filter fun entry => keep entry.1).kerase key =
      entries.filter fun entry => keep entry.1 := by
  refine kerase_of_notMem_keys ?_
  intro member
  obtain ⟨value, inside⟩ := exists_of_mem_keys member
  have kept : keep key = true := (mem_filter.mp inside).2
  rw [left] at kept
  cases kept

/-- Erasing a key commutes with a selection of keys. -/
theorem filter_kerase
    (entries : List (Sigma Value))
    (keep : Name → Bool)
    (key : Name) :
    (entries.kerase key).filter (fun entry => keep entry.1) =
      (entries.filter fun entry => keep entry.1).kerase key := by
  induction entries with
  | nil => rfl
  | cons entry rest ih =>
      by_cases same : key = entry.1
      · rw [kerase_cons_eq same, filter_cons]
        split
        · rw [kerase_cons_eq same]
        · rename_i left
          rw [← same, Bool.not_eq_true] at left
          exact (kerase_filter_of_false rest left).symm
      · rw [kerase_cons_ne same, filter_cons, filter_cons]
        split
        · rw [kerase_cons_ne same, ih]
        · exact ih

end List

namespace ObjectStore

variable {Name Object : Type} [DecidableEq Name] {name : Object → Name}
variable {keep : Name → Bool}

/-- The objects with these names. -/
def restrict (store : ObjectStore Object name) (keep : Name → Bool) :
    ObjectStore Object name where
  objects :=
    { entries := store.objects.entries.filter fun entry => keep entry.1
      nodupKeys := store.objects.nodupKeys.sublist List.filter_sublist }
  named := by
    intro key object found
    refine store.named key object (AList.mem_lookup_iff.mpr ?_)
    exact (List.mem_filter.mp (AList.mem_lookup_iff.mp found)).1

/-- Stores with the same entries are the same. -/
theorem ext_entries
    {first second : ObjectStore Object name}
    (same : first.objects.entries = second.objects.entries) :
    first = second := by
  obtain ⟨firstObjects, _⟩ := first
  obtain ⟨secondObjects, _⟩ := second
  obtain rfl : firstObjects = secondObjects := AList.ext same
  rfl

theorem get_restrict
    (store : ObjectStore Object name)
    (keep : Name → Bool)
    (key : Name) :
    (store.restrict keep).get key =
      if keep key then store.get key else none := by
  ext object
  have selected :
      (store.restrict keep).get key = some object ↔
        store.get key = some object ∧ keep key = true :=
    AList.mem_lookup_iff.trans (List.mem_filter.trans
      (and_congr_left' AList.mem_lookup_iff.symm))
  rw [selected]
  by_cases kept : keep key = true
  · simp [kept]
  · simp [kept]

@[simp] theorem restrict_empty :
    (empty : ObjectStore Object name).restrict keep = empty :=
  rfl

/-- Storing an object whose name is kept. -/
theorem restrict_put_of_true
    (store : ObjectStore Object name)
    {object : Object}
    (kept : keep (name object) = true) :
    (store.put object).restrict keep = (store.restrict keep).put object := by
  apply ext_entries
  simp only [put, restrict, AList.entries_insert, List.filter_cons, kept,
    if_true, List.filter_kerase]

/-- Storing an object whose name is not. -/
theorem restrict_put_of_false
    (store : ObjectStore Object name)
    {object : Object}
    (left : keep (name object) = false) :
    (store.put object).restrict keep = store.restrict keep := by
  apply ext_entries
  simp only [put, restrict, AList.entries_insert, List.filter_cons, left,
    Bool.false_eq_true, if_false, List.filter_kerase]
  exact List.kerase_filter_of_false _ left

/-- Removing a name. -/
theorem restrict_drop
    (store : ObjectStore Object name)
    (keep : Name → Bool)
    (key : Name) :
    (store.drop key).restrict keep = (store.restrict keep).drop key := by
  apply ext_entries
  exact List.filter_kerase _ keep key

/-- Removing a name that is not kept. -/
theorem restrict_drop_of_false
    (store : ObjectStore Object name)
    {key : Name}
    (left : keep key = false) :
    (store.drop key).restrict keep = store.restrict keep := by
  rw [restrict_drop]
  apply ext_entries
  exact List.kerase_filter_of_false _ left

/-- The listed objects with these names. -/
theorem list_restrict (store : ObjectStore Object name) (keep : Name → Bool) :
    (store.restrict keep).list =
      store.list.filter fun object => keep (name object) := by
  unfold list restrict
  rw [List.filter_map]
  congr 1
  refine List.filter_congr ?_
  intro entry member
  have filed :=
    store.named entry.1 entry.2 (AList.mem_lookup_iff.mpr member)
  simp only [Function.comp_apply, filed]

end ObjectStore
