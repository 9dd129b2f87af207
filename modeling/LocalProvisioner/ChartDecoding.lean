import LocalProvisioner.ChartTrees

namespace LocalProvisioner

/-!
# Reading chart values

`ReadValues` fills maps and lists from a YAML document.  Every mapping of the
document gets a map of its own, so that what is read is a tree.
-/

/-- A YAML document once its text has been parsed. -/
inductive YamlNode where
  | null : YamlNode
  | bool : Bool → YamlNode
  | number : (literal : String) → YamlNode
  | string : String → YamlNode
  | sequence : List YamlNode → YamlNode
  | mapping : List (String × YamlNode) → YamlNode

mutual

/-- What `yaml.Unmarshal` puts into an `interface{}`. -/
def decode : YamlNode → Tables → AnyValue × Tables
  | .null, tables => (.null, tables)
  | .bool value, tables => (.bool value, tables)
  | .number literal, tables => (.number literal, tables)
  | .string value, tables => (.string value, tables)
  | .sequence nodes, tables =>
      let decoded := decodeItems nodes [] tables
      (.list decoded.1, decoded.2)
  | .mapping fields, tables =>
      let decoded := decodeFields fields ∅ tables
      let allocated : Nat × Tables := decoded.2.alloc decoded.1
      (.table allocated.1, allocated.2)

/-- The items of a sequence are appended one by one. -/
def decodeItems :
    List YamlNode → List AnyValue → Tables → List AnyValue × Tables
  | [], items, tables => (items, tables)
  | node :: rest, items, tables =>
      let decoded := decode node tables
      decodeItems rest (items ++ [decoded.1]) decoded.2

/-- The fields of a mapping are assigned one by one, a repeated one again. -/
def decodeFields :
    List (String × YamlNode) → GoMap AnyValue → Tables → GoMap AnyValue × Tables
  | [], content, tables => (content, tables)
  | (key, node) :: rest, content, tables =>
      let decoded := decode node tables
      decodeFields rest (content.insert key decoded.1) decoded.2

end

/-- `ReadValues` of a document with some fields, which may be none. -/
def readValues (fields : List (String × YamlNode)) (tables : Tables) :
    Nat × Tables :=
  let decoded := decodeFields fields ∅ tables
  decoded.2.alloc decoded.1

namespace Tables

/-- The maps of a value lie in cells from some reference on, each at one place. -/
structure Owns (tables : Tables) (low : Nat) (value : AnyValue) : Prop where
  allocated :
    ∀ {path reference},
      tables.mapAt? value path = some reference →
        low ≤ reference ∧ reference < tables.next
  unshared :
    ∀ {path other reference},
      tables.mapAt? value path = some reference →
        tables.mapAt? value other = some reference →
          path = other
  decoded :
    ∀ {path found},
      path ≠ [] → tables.resolve value path = some found → found.decoded = true

/-- The parts of a map or a list own their cells, and no two parts the same. -/
structure OwnsParts
    (tables : Tables)
    (low : Nat)
    (parts : PathStep → Option AnyValue) : Prop where
  owns : ∀ {step part}, parts step = some part → tables.Owns low part
  decoded : ∀ {step part}, parts step = some part → part.decoded = true
  disjoint :
    ∀ {step other part otherPart path otherPath reference},
      parts step = some part →
        parts other = some otherPart →
          tables.mapAt? part path = some reference →
            tables.mapAt? otherPart otherPath = some reference →
              step = other

section Owners

variable {tables before after : Tables}
variable {low : Nat}
variable {value : AnyValue}
variable {parts : PathStep → Option AnyValue}

namespace Owns

/-- The root of a tree owns its cells. -/
theorem isTree {root : Nat} (owns : tables.Owns low (.values root)) :
    tables.IsTree root where
  allocated := fun isMap => (owns.allocated isMap).2
  unshared := owns.unshared
  decoded := owns.decoded

theorem mono
    {lower : Nat}
    (below : lower ≤ low)
    (owns : tables.Owns low value) :
    tables.Owns lower value where
  allocated := fun isMap =>
    ⟨Nat.le_trans below (owns.allocated isMap).1, (owns.allocated isMap).2⟩
  unshared := owns.unshared
  decoded := owns.decoded

/-- Further allocations do not change what is found below a value. -/
theorem resolve_eq
    (owns : before.Owns low value)
    (extension : before.Extends after)
    (path : List PathStep) :
    after.resolve value path = before.resolve value path :=
  resolve_congr
    (fun _ _ isMap => extension.kept (owns.allocated isMap).2) path

theorem mapAt?_eq
    (owns : before.Owns low value)
    (extension : before.Extends after)
    (path : List PathStep) :
    after.mapAt? value path = before.mapAt? value path := by
  rw [mapAt?, mapAt?, owns.resolve_eq extension]

theorem of_extends
    (owns : before.Owns low value)
    (extension : before.Extends after) :
    after.Owns low value where
  allocated := by
    intro path reference isMap
    rw [owns.mapAt?_eq extension] at isMap
    obtain ⟨above, old⟩ := owns.allocated isMap
    exact ⟨above, Nat.lt_of_lt_of_le old extension.grows⟩
  unshared := by
    intro path other reference isMap isOther
    rw [owns.mapAt?_eq extension] at isMap isOther
    exact owns.unshared isMap isOther
  decoded := by
    intro path found notRoot here
    rw [owns.resolve_eq extension] at here
    exact owns.decoded notRoot here

/-- A value owns its cells if its parts do and its own map is not one of theirs. -/
theorem of_parts
    (ownsParts : tables.OwnsParts low (tables.child value))
    (own :
      ∀ reference, value.reference? = some reference →
        low ≤ reference ∧ reference < tables.next)
    (outside :
      ∀ {reference step part path},
        value.reference? = some reference →
          tables.child value step = some part →
            tables.mapAt? part path ≠ some reference) :
    tables.Owns low value where
  allocated := by
    intro path reference isMap
    cases path with
    | nil => exact own reference isMap
    | cons step rest =>
        rw [mapAt?_cons] at isMap
        obtain ⟨part, isPart, isMap⟩ := Option.bind_eq_some_iff.mp isMap
        exact (ownsParts.owns isPart).allocated isMap
  unshared := by
    intro path other reference isMap isOther
    cases path with
    | nil =>
        cases other with
        | nil => rfl
        | cons step rest =>
            rw [mapAt?_cons] at isOther
            obtain ⟨part, isPart, isOther⟩ := Option.bind_eq_some_iff.mp isOther
            exact absurd isOther (outside isMap isPart)
    | cons step rest =>
        rw [mapAt?_cons] at isMap
        obtain ⟨part, isPart, isMap⟩ := Option.bind_eq_some_iff.mp isMap
        cases other with
        | nil => exact absurd isMap (outside isOther isPart)
        | cons otherStep otherRest =>
            rw [mapAt?_cons] at isOther
            obtain ⟨otherPart, isOtherPart, isOther⟩ :=
              Option.bind_eq_some_iff.mp isOther
            cases ownsParts.disjoint isPart isOtherPart isMap isOther
            cases isPart.symm.trans isOtherPart
            rw [(ownsParts.owns isPart).unshared isMap isOther]
  decoded := by
    intro path found notRoot here
    cases path with
    | nil => exact absurd rfl notRoot
    | cons step rest =>
        rw [resolve] at here
        obtain ⟨part, isPart, here⟩ := Option.bind_eq_some_iff.mp here
        cases rest with
        | nil =>
            cases here
            exact ownsParts.decoded isPart
        | cons next further =>
            exact (ownsParts.owns isPart).decoded (List.cons_ne_nil _ _) here

end Owns

namespace OwnsParts

theorem none : tables.OwnsParts low fun _ => none where
  owns := by rintro _ _ ⟨⟩
  decoded := by rintro _ _ ⟨⟩
  disjoint := by rintro _ _ _ _ _ _ _ ⟨⟩

theorem of_extends
    (ownsParts : before.OwnsParts low parts)
    (extension : before.Extends after) :
    after.OwnsParts low parts where
  owns := fun isPart => (ownsParts.owns isPart).of_extends extension
  decoded := ownsParts.decoded
  disjoint := by
    intro step other part otherPart path otherPath reference isPart isOther
    rw [(ownsParts.owns isPart).mapAt?_eq extension,
      (ownsParts.owns isOther).mapAt?_eq extension]
    exact ownsParts.disjoint isPart isOther

/-- A part in new cells, in the place of another one or beside the others. -/
theorem update
    (ownsParts : before.OwnsParts low parts)
    (extension : before.Extends after)
    (below : low ≤ before.next)
    (owns : after.Owns before.next value)
    (decoded : value.decoded = true)
    (step : PathStep) :
    after.OwnsParts low (Function.update parts step (some value)) := by
  have oldParts := ownsParts.of_extends extension
  have old :
      ∀ {other part path reference},
        parts other = some part →
          after.mapAt? part path = some reference →
            reference < before.next := by
    intro other part path reference isPart isMap
    rw [(ownsParts.owns isPart).mapAt?_eq extension] at isMap
    exact ((ownsParts.owns isPart).allocated isMap).2
  have new :
      ∀ {path reference},
        after.mapAt? value path = some reference →
          ¬ reference < before.next :=
    fun isMap => Nat.not_lt.mpr (owns.allocated isMap).1
  have newOrOld :
      ∀ {other part},
        Function.update parts step (some value) other = some part →
          other = step ∧ part = value ∨ parts other = some part := by
    intro other part isPart
    rw [Function.update_apply] at isPart
    split at isPart
    · rename_i same
      exact .inl ⟨same, (Option.some.inj isPart).symm⟩
    · exact .inr isPart
  refine ⟨?_, ?_, ?_⟩
  · intro other part isPart
    rcases newOrOld isPart with ⟨_, rfl⟩ | isPart
    · exact owns.mono below
    · exact oldParts.owns isPart
  · intro other part isPart
    rcases newOrOld isPart with ⟨_, rfl⟩ | isPart
    · exact decoded
    · exact oldParts.decoded isPart
  · intro first second part otherPart path otherPath reference isPart isOther
      isMap isOtherMap
    rcases newOrOld isPart with ⟨rfl, rfl⟩ | isOld
    · rcases newOrOld isOther with ⟨rfl, _⟩ | isOtherOld
      · rfl
      · exact absurd (old isOtherOld isOtherMap) (new isMap)
    · rcases newOrOld isOther with ⟨rfl, rfl⟩ | isOtherOld
      · exact absurd (old isOld isMap) (new isOtherMap)
      · exact oldParts.disjoint isOld isOtherOld isMap isOtherMap

end OwnsParts

end Owners

/-- The parts of a list. -/
def itemParts (items : List AnyValue) : PathStep → Option AnyValue
  | .item position => items[position]?
  | .key _ => none

/-- The parts of a map. -/
def fieldParts (content : GoMap AnyValue) : PathStep → Option AnyValue
  | .item _ => none
  | .key key => content.lookup key

theorem itemParts_nil : itemParts [] = fun _ => none := by
  funext step
  cases step <;> rfl

theorem fieldParts_empty : fieldParts ∅ = fun _ => none := by
  funext step
  cases step <;> rfl

theorem itemParts_concat (items : List AnyValue) (value : AnyValue) :
    itemParts (items ++ [value]) =
      Function.update (itemParts items) (.item items.length) (some value) := by
  funext step
  rw [Function.update_apply]
  cases step with
  | key key => rw [if_neg (by rintro ⟨⟩), itemParts, itemParts]
  | item position =>
      by_cases isLast : position = items.length
      · rw [isLast, if_pos rfl, itemParts, List.getElem?_concat_length]
      · have notLast : PathStep.item position ≠ .item items.length :=
          fun same => isLast (PathStep.item.inj same)
        rw [if_neg notLast, itemParts, itemParts]
        rcases Nat.lt_or_gt_of_ne isLast with inside | outside
        · rw [List.getElem?_append_left inside]
        · rw [List.getElem?_eq_none (by simp; omega),
            List.getElem?_eq_none (Nat.le_of_lt outside)]

theorem fieldParts_insert
    (content : GoMap AnyValue)
    (key : String)
    (value : AnyValue) :
    fieldParts (content.insert key value) =
      Function.update (fieldParts content) (.key key) (some value) := by
  funext step
  rw [Function.update_apply]
  cases step with
  | item position => rw [if_neg (by rintro ⟨⟩), fieldParts, fieldParts]
  | key other =>
      rw [fieldParts, lookup_assign]
      exact if_congr (by rw [PathStep.key.injEq]) rfl rfl

section Decoding

variable {tables : Tables}
variable {low : Nat}

/-- A value without parts owns nothing. -/
theorem owns_of_leaf
    {value : AnyValue}
    (noMap : value.reference? = none)
    (noParts : tables.child value = fun _ => none) :
    tables.Owns low value := by
  refine .of_parts ?_ ?_ ?_
  · rw [noParts]
    exact .none
  · intro reference isMap
    cases noMap.symm.trans isMap
  · intro reference step part path isMap
    cases noMap.symm.trans isMap

/-- A list owns the cells of its items. -/
theorem owns_list
    {items : List AnyValue}
    (ownsParts : tables.OwnsParts low (itemParts items)) :
    tables.Owns low (.list items) := by
  have parts : tables.child (.list items) = itemParts items := by
    funext step
    cases step <;> rfl
  refine .of_parts ?_ ?_ ?_
  · rw [parts]
    exact ownsParts
  · rintro reference ⟨⟩
  · rintro reference step part path ⟨⟩

/-- A new map owns its cell and those of its fields. -/
theorem owns_alloc
    {content : GoMap AnyValue}
    (below : low ≤ tables.next)
    (ownsParts : tables.OwnsParts low (fieldParts content))
    {value : AnyValue}
    (isMap : value.reference? = some tables.next) :
    Owns (tables.alloc content).2 low value := by
  have extension : tables.Extends (tables.alloc content).2 := .alloc tables content
  have parts : child (tables.alloc content).2 value = fieldParts content := by
    funext step
    cases step with
    | key key => rw [child_key isMap, SharedCells.read_alloc, if_pos rfl]; rfl
    | item position => cases value <;> cases isMap <;> rfl
  refine .of_parts ?_ ?_ ?_
  · rw [parts]
    exact ownsParts.of_extends extension
  · intro reference isOwn
    cases isMap.symm.trans isOwn
    exact ⟨below, Nat.lt_succ_self _⟩
  · intro reference step part path isOwn isPart isInside
    cases isMap.symm.trans isOwn
    rw [parts] at isPart
    have owns := ownsParts.owns isPart
    rw [owns.mapAt?_eq extension] at isInside
    exact Nat.lt_irrefl _ (owns.allocated isInside).2

end Decoding

/-- What decoding does: it fills new cells, and only those. -/
structure Decodes (before : Tables) (decoded : AnyValue × Tables) : Prop where
  extension : before.Extends decoded.2
  owns : Owns decoded.2 before.next decoded.1
  isDecoded : decoded.1.decoded = true

mutual

theorem decodes_decode :
    ∀ (node : YamlNode) (tables : Tables), Decodes tables (decode node tables)
  | .null, tables => ⟨.refl tables, owns_of_leaf rfl rfl, rfl⟩
  | .bool value, tables => ⟨.refl tables, owns_of_leaf rfl rfl, rfl⟩
  | .number literal, tables => ⟨.refl tables, owns_of_leaf rfl rfl, rfl⟩
  | .string value, tables => ⟨.refl tables, owns_of_leaf rfl rfl, rfl⟩
  | .sequence nodes, tables => by
      obtain ⟨extension, ownsParts⟩ :=
        ownsParts_decodeItems nodes [] tables (Nat.le_refl _)
          (itemParts_nil ▸ .none)
      exact ⟨extension, owns_list ownsParts, rfl⟩
  | .mapping fields, tables => by
      obtain ⟨extension, ownsParts⟩ :=
        ownsParts_decodeFields fields ∅ tables (Nat.le_refl _)
          (fieldParts_empty ▸ .none)
      exact ⟨extension.trans (.alloc _ _),
        owns_alloc extension.grows ownsParts rfl, rfl⟩

theorem ownsParts_decodeItems :
    ∀ (nodes : List YamlNode) (items : List AnyValue) (tables : Tables)
      {low : Nat},
      low ≤ tables.next →
        tables.OwnsParts low (itemParts items) →
          tables.Extends (decodeItems nodes items tables).2 ∧
            OwnsParts (decodeItems nodes items tables).2 low
              (itemParts (decodeItems nodes items tables).1)
  | [], items, tables, low, below, ownsParts => ⟨.refl tables, ownsParts⟩
  | node :: rest, items, tables, low, below, ownsParts => by
      have decodes := decodes_decode node tables
      have added :=
        ownsParts.update decodes.extension below decodes.owns
          decodes.isDecoded (.item items.length)
      rw [← itemParts_concat] at added
      obtain ⟨extension, ownsRest⟩ :=
        ownsParts_decodeItems rest _ _
          (Nat.le_trans below decodes.extension.grows) added
      exact ⟨decodes.extension.trans extension, ownsRest⟩

theorem ownsParts_decodeFields :
    ∀ (fields : List (String × YamlNode)) (content : GoMap AnyValue)
      (tables : Tables) {low : Nat},
      low ≤ tables.next →
        tables.OwnsParts low (fieldParts content) →
          tables.Extends (decodeFields fields content tables).2 ∧
            OwnsParts (decodeFields fields content tables).2 low
              (fieldParts (decodeFields fields content tables).1)
  | [], content, tables, low, below, ownsParts => ⟨.refl tables, ownsParts⟩
  | (key, node) :: rest, content, tables, low, below, ownsParts => by
      have decodes := decodes_decode node tables
      have added :=
        ownsParts.update decodes.extension below decodes.owns
          decodes.isDecoded (.key key)
      rw [← fieldParts_insert] at added
      obtain ⟨extension, ownsRest⟩ :=
        ownsParts_decodeFields rest _ _
          (Nat.le_trans below decodes.extension.grows) added
      exact ⟨decodes.extension.trans extension, ownsRest⟩

end

/-- What `ReadValues` reads is a tree. -/
theorem isTree_readValues
    (fields : List (String × YamlNode))
    (tables : Tables) :
    IsTree (readValues fields tables).2 (readValues fields tables).1 := by
  obtain ⟨extension, ownsParts⟩ :=
    ownsParts_decodeFields fields ∅ tables (Nat.le_refl _)
      (fieldParts_empty ▸ .none)
  exact (owns_alloc extension.grows ownsParts rfl).isTree

end Tables

end LocalProvisioner
