import Mathlib.Data.List.AList

/-!
# Stores of named objects

A store files every object under the name the object itself carries.  The
invariant is a field, so a store in which a key and a name differ cannot be
built.
-/

/-- A finite map from names to objects that carry those names. -/
structure ObjectStore
    {Name : Type}
    [DecidableEq Name]
    (Object : Type)
    (name : Object → Name) where
  objects : AList fun _ : Name => Object
  named :
    ∀ key object, objects.lookup key = some object → name object = key

namespace ObjectStore

variable {Name Object : Type} [DecidableEq Name] {name : Object → Name}

/-- The store without objects. -/
def empty : ObjectStore Object name where
  objects := ∅
  named := by simp

/-- The object with a given name. -/
def get (store : ObjectStore Object name) (key : Name) : Option Object :=
  store.objects.lookup key

/-- Add an object, replacing the one with the same name. -/
def put (store : ObjectStore Object name) (object : Object) :
    ObjectStore Object name where
  objects := store.objects.insert (name object) object
  named := by
    intro key found lookup
    by_cases same : key = name object
    · subst key
      simp only [AList.lookup_insert, Option.some.injEq] at lookup
      rw [lookup]
    · rw [AList.lookup_insert_ne same] at lookup
      exact store.named key found lookup

/-- Remove the object with a given name. -/
def drop (store : ObjectStore Object name) (key : Name) :
    ObjectStore Object name where
  objects := store.objects.erase key
  named := by
    intro other found lookup
    by_cases same : other = key
    · subst other
      simp at lookup
    · rw [AList.lookup_erase_ne same] at lookup
      exact store.named other found lookup

/-- The objects, in the order of the underlying map. -/
def list (store : ObjectStore Object name) : List Object :=
  store.objects.entries.map fun entry => entry.2

@[simp] theorem get_empty (key : Name) :
    (empty : ObjectStore Object name).get key = none := by
  simp [empty, get]

/-- A stored object is filed under its own name. -/
theorem name_of_get
    {store : ObjectStore Object name}
    {key : Name}
    {object : Object}
    (found : store.get key = some object) :
    name object = key :=
  store.named key object found

/-- A stored object is found under its own name. -/
theorem get_name
    {store : ObjectStore Object name}
    {key : Name}
    {object : Object}
    (found : store.get key = some object) :
    store.get (name object) = some object := by
  rw [name_of_get found]
  exact found

theorem get_put
    (store : ObjectStore Object name)
    (object : Object)
    (key : Name) :
    (store.put object).get key =
      if key = name object then some object else store.get key := by
  by_cases same : key = name object
  · subst key
    simp [put, get]
  · simp [put, get, same]

@[simp] theorem get_put_self
    (store : ObjectStore Object name)
    (object : Object) :
    (store.put object).get (name object) = some object := by
  simp [get_put]

theorem get_drop
    (store : ObjectStore Object name)
    (key other : Name) :
    (store.drop key).get other =
      if other = key then none else store.get other := by
  by_cases same : other = key
  · subst other
    simp [drop, get]
  · simp [drop, get, same]

/-- Whatever is left after a removal was there before. -/
theorem get_of_get_drop
    {store : ObjectStore Object name}
    {key other : Name}
    {object : Object}
    (found : (store.drop key).get other = some object) :
    store.get other = some object := by
  rw [get_drop] at found
  split at found
  · cases found
  · exact found

/-- The listed objects are the stored ones. -/
theorem mem_list
    {store : ObjectStore Object name}
    {object : Object} :
    object ∈ store.list ↔ store.get (name object) = some object := by
  unfold list get
  rw [List.mem_map]
  constructor
  · intro listed
    obtain ⟨entry, member, rfl⟩ := listed
    have found : store.objects.lookup entry.1 = some entry.2 :=
      AList.mem_lookup_iff.mpr member
    rwa [store.named entry.1 entry.2 found]
  · intro found
    exact ⟨⟨name object, object⟩, AList.mem_lookup_iff.mp found, rfl⟩

/-- No two listed objects have the same name. -/
theorem nodup_names (store : ObjectStore Object name) :
    (store.list.map name).Nodup := by
  have keys : store.list.map name = store.objects.keys := by
    unfold list AList.keys List.keys
    rw [List.map_map]
    refine List.map_congr_left ?_
    intro entry member
    exact store.named entry.1 entry.2 (AList.mem_lookup_iff.mpr member)
  rw [keys]
  exact AList.keys_nodup store.objects

/-- Of the objects of a list with distinct names, a name selects its own. -/
theorem filter_name_of_nodup
    {objects : List Object}
    {object : Object}
    (distinct : (objects.map name).Nodup)
    (member : object ∈ objects) :
    objects.filter (fun other => name other = name object) = [object] := by
  induction objects with
  | nil => cases member
  | cons head tail inductionHypothesis =>
      obtain ⟨apart, distinctTail⟩ := List.nodup_cons.mp distinct
      rcases List.mem_cons.mp member with rfl | inTail
      · rw [List.filter_cons_of_pos (by simp), List.filter_eq_nil_iff.mpr]
        intro other otherMember sameName
        apply apart
        rw [← of_decide_eq_true sameName]
        exact List.mem_map_of_mem otherMember
      · rw [List.filter_cons_of_neg]
        · exact inductionHypothesis distinctTail inTail
        · intro sameName
          apply apart
          rw [of_decide_eq_true sameName]
          exact List.mem_map_of_mem inTail

/-- Selecting the listed objects of a name is looking it up. -/
theorem filter_list_name (store : ObjectStore Object name) (key : Name) :
    store.list.filter (fun object => name object = key) =
      (store.get key).toList := by
  cases found : store.get key with
  | none =>
      refine List.filter_eq_nil_iff.mpr ?_
      intro object listed sameName
      have stored := mem_list.mp listed
      rw [of_decide_eq_true sameName, found] at stored
      cases stored
  | some object =>
      have sameName := name_of_get found
      subst key
      exact filter_name_of_nodup store.nodup_names (mem_list.mpr found)

end ObjectStore
