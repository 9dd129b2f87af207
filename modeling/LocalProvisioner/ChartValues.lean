import LocalProvisioner.Objects
import LocalProvisioner.SharedCells
import LocalProvisioner.UnixPath

namespace LocalProvisioner

/-!
# Values of a chart

The tables of Helm's `chartutil`, as `update-helm-values` uses them.  A table
is a Go map and is held by reference: a program that assigns to a table it has
looked up changes the tree it was found in.  Lookups depend on the dynamic type
of what they find, which is part of `AnyValue`.

What a tree of values means is what is seen along its paths, from the root
down; neither references nor Go types are part of it.
-/

/-- What an `interface{}` of a values tree holds, by its dynamic type. -/
inductive AnyValue where
  | null : AnyValue
  | bool : Bool → AnyValue
  | number : (literal : String) → AnyValue
  | string : String → AnyValue
  /-- A `[]interface{}`. -/
  | list : List AnyValue → AnyValue
  /-- A `map[string]interface{}`. -/
  | table : (reference : Nat) → AnyValue
  /-- A `chartutil.Values`. -/
  | values : (reference : Nat) → AnyValue
  /-- A `[]chartutil.Values`. -/
  | valuesList : (references : List Nat) → AnyValue

/-- The maps that the values refer to. -/
abbrev Tables := SharedCells (GoMap AnyValue)

/-- The map behind a value, for the two types that are maps. -/
def AnyValue.reference? : AnyValue → Option Nat
  | .table reference => some reference
  | .values reference => some reference
  | _ => none

/-- `istable`. -/
def AnyValue.istable : AnyValue → Bool
  | .table _ => true
  | _ => false

/-- The errors of `chartutil`. -/
inductive ChartError where
  | emptyPath : ChartError
  /-- An `ErrNoTable`; its text may print the table that was searched. -/
  | noTable : (name : String) → (printed : Option Nat) → ChartError
  /-- An `ErrNoValue` with its text. -/
  | noValue : (text : String) → ChartError
  deriving Repr, DecidableEq

/-- `strings.Split(text, ".")`. -/
def splitDots (text : String) : List String :=
  (text.toList.splitOn '.').map String.ofList

/-- `strings.Join(parts, ".")`. -/
def joinDots (parts : List String) : String :=
  String.ofList (['.'].intercalate (parts.map String.toList))

/-- The parts of a split text have no dots. -/
theorem dot_notMem_of_mem_splitDots
    {text part : String}
    (member : part ∈ splitDots text) :
    '.' ∉ part.toList := by
  obtain ⟨letters, piece, rfl⟩ := List.mem_map.mp member
  rw [String.toList_ofList]
  exact UnixPath.notMem_of_mem_splitOn piece

/-- Splitting undoes joining. -/
theorem splitDots_joinDots
    {parts : List String}
    (nonempty : parts ≠ [])
    (noDots : ∀ part ∈ parts, '.' ∉ part.toList) :
    splitDots (joinDots parts) = parts := by
  have apart :
      (['.'].intercalate (parts.map String.toList)).splitOn '.' =
        parts.map String.toList := by
    refine List.splitOn_intercalate '.' ?_ (by simpa using nonempty)
    intro letters member
    obtain ⟨part, isPart, rfl⟩ := List.mem_map.mp member
    exact noDots part isPart
  simp [splitDots, joinDots, String.toList_ofList, apart]

/-- Splitting at a dot between two texts. -/
theorem splitDots_append_dot (first second : String) :
    splitDots (first ++ "." ++ second) =
      splitDots first ++ splitDots second := by
  have letters :
      (first ++ "." ++ second).toList =
        first.toList ++ '.' :: second.toList := by
    simp
  rw [splitDots, letters, List.splitOn_append_cons_self, List.map_append]
  rfl

namespace Tables

/-- The assignment `table[key] = value`. -/
def assign (tables : Tables) (table : Nat) (key : String) (value : AnyValue) :
    Tables :=
  tables.write table ((tables.read table).insert key value)

/-- The statement `delete(table, key)`. -/
def delete (tables : Tables) (table : Nat) (key : String) : Tables :=
  tables.write table ((tables.read table).erase key)

theorem read_assign
    (tables : Tables)
    (table other : Nat)
    (key : String)
    (value : AnyValue) :
    (tables.assign table key value).read other =
      if other = table then (tables.read table).insert key value
      else tables.read other :=
  tables.read_write table other _

theorem read_delete
    (tables : Tables)
    (table other : Nat)
    (key : String) :
    (tables.delete table key).read other =
      if other = table then (tables.read table).erase key
      else tables.read other :=
  tables.read_write table other _

/-- `tableLookup`.  No caller uses the table that comes with an error. -/
def tableLookup (tables : Tables) (v : Nat) (simple : String) :
    Except ChartError Nat :=
  match (tables.read v).lookup simple with
  | none => .error (.noTable simple (some v))
  | some (.table vv) => .ok vv
  | some (.values vv) => .ok vv
  | some _ => .error (.noTable simple none)

/-- `Table`. -/
def table (tables : Tables) (v : Nat) (name : String) : Except ChartError Nat :=
  (splitDots name).foldlM (fun table n => tables.tableLookup table n) v

/-- The value of a key, if there is one and it is not a table. -/
def scalar? (tables : Tables) (v : Nat) (key : String) : Option AnyValue :=
  ((tables.read v).lookup key).filter fun value => !value.istable

/-- `PathValue`. -/
def pathValue (tables : Tables) (v : Nat) (ypath : String) :
    Except ChartError AnyValue :=
  if ypath = "" then
    .error .emptyPath
  else
    match (splitDots ypath).reverse with
    | [] => .error .emptyPath
    | [k] =>
        match tables.scalar? v k with
        | some value => .ok value
        | none => .error (.noValue (k ++ " is not a value"))
    | sk :: table =>
        match tables.table v (joinDots table.reverse) with
        | .error _ => .error (.noValue (sk ++ " is not a value"))
        | .ok t =>
            match tables.scalar? t sk with
            | some value => .ok value
            | none => .error (.noValue ("key not found: " ++ sk))

end Tables

/-!
## What a tree of values means
-/

/-- A step down a tree: to the value of a key, or to an item of a list. -/
inductive PathStep where
  | key : String → PathStep
  | item : Nat → PathStep
  deriving Repr, DecidableEq

/-- What is seen of a value without going further down. -/
inductive Shape where
  | null : Shape
  | bool : Bool → Shape
  | number : (literal : String) → Shape
  | string : String → Shape
  | list : (length : Nat) → Shape
  | table : Shape
  deriving Repr, DecidableEq

/-- The shape of a value. -/
def AnyValue.shape : AnyValue → Shape
  | .null => .null
  | .bool value => .bool value
  | .number literal => .number literal
  | .string value => .string value
  | .list items => .list items.length
  | .table _ => .table
  | .values _ => .table
  | .valuesList references => .list references.length

/-- What a tree means: what is seen at the end of each path. -/
abbrev Meaning := List PathStep → Option Shape

namespace Tables

/-- One step down from a value. -/
def child (tables : Tables) : AnyValue → PathStep → Option AnyValue
  | .table reference, .key key => (tables.read reference).lookup key
  | .values reference, .key key => (tables.read reference).lookup key
  | .list items, .item position => items[position]?
  | .valuesList references, .item position =>
      references[position]?.map AnyValue.values
  | _, _ => none

/-- The value at the end of a path. -/
def resolve (tables : Tables) : AnyValue → List PathStep → Option AnyValue
  | value, [] => some value
  | value, step :: rest =>
      (tables.child value step).bind fun next => tables.resolve next rest

/-- The meaning of a value. -/
def meaning (tables : Tables) (value : AnyValue) : Meaning :=
  fun path => (tables.resolve value path).map AnyValue.shape

/-- The map at the end of a path. -/
def mapAt? (tables : Tables) (value : AnyValue) (path : List PathStep) :
    Option Nat :=
  (tables.resolve value path).bind AnyValue.reference?

/-- The value at the end of a path, if there is one and it is not a table. -/
def scalarAt? (tables : Tables) (v : Nat) (path : List PathStep) :
    Option AnyValue :=
  (tables.resolve (.values v) path).filter fun value => !value.istable

section Lookups

variable {tables : Tables}
variable {value : AnyValue}

/-- The keys of a value are those of the map behind it. -/
theorem child_key
    {reference : Nat}
    (isMap : value.reference? = some reference)
    (key : String) :
    tables.child value (.key key) = (tables.read reference).lookup key := by
  cases value <;> cases isMap <;> rfl

/-- A step down reads no other map than the one behind the value. -/
theorem child_congr
    {other : Tables}
    (same : ∀ reference, value.reference? = some reference →
      other.read reference = tables.read reference)
    (step : PathStep) :
    other.child value step = tables.child value step := by
  cases step with
  | item position => cases value <;> rfl
  | key key =>
      cases isMap : value.reference? with
      | some reference =>
          rw [child_key isMap, child_key isMap, same reference isMap]
      | none => cases value <;> first | rfl | cases isMap

/-- A path in two parts. -/
theorem resolve_append (value : AnyValue) (first second : List PathStep) :
    tables.resolve value (first ++ second) =
      (tables.resolve value first).bind fun next =>
        tables.resolve next second := by
  induction first generalizing value with
  | nil => rfl
  | cons step rest inductionHypothesis =>
      simp only [List.cons_append, resolve, Option.bind_assoc,
        inductionHypothesis]

/-- The map at the end of a path that starts with a step. -/
theorem mapAt?_cons (value : AnyValue) (step : PathStep) (rest : List PathStep) :
    tables.mapAt? value (step :: rest) =
      (tables.child value step).bind fun next => tables.mapAt? next rest := by
  rw [mapAt?, resolve, Option.bind_assoc]
  rfl

/-- The map at the end of a path in two parts. -/
theorem mapAt?_append (value : AnyValue) (first second : List PathStep) :
    tables.mapAt? value (first ++ second) =
      (tables.resolve value first).bind fun next =>
        tables.mapAt? next second := by
  rw [mapAt?, resolve_append, Option.bind_assoc]
  rfl

/-- A value means the same wherever the maps below it are the same. -/
theorem resolve_congr
    {other : Tables}
    (same : ∀ path reference, tables.mapAt? value path = some reference →
      other.read reference = tables.read reference)
    (path : List PathStep) :
    other.resolve value path = tables.resolve value path := by
  induction path generalizing value with
  | nil => rfl
  | cons step rest inductionHypothesis =>
      rw [resolve, resolve, child_congr (same []) step]
      refine Option.bind_congr fun next isChild => ?_
      refine inductionHypothesis fun further reference isMap => ?_
      refine same (step :: further) reference ?_
      rw [mapAt?_cons, isChild]
      exact isMap

/-- The values below a map, whatever its Go type. -/
theorem resolve_key
    {reference : Nat}
    (isMap : value.reference? = some reference)
    (key : String)
    (rest : List PathStep) :
    tables.resolve value (.key key :: rest) =
      ((tables.read reference).lookup key).bind fun next =>
        tables.resolve next rest := by
  rw [resolve, child_key isMap]

/-- The value of a key. -/
theorem resolve_singleton_key (root : Nat) (key : String) :
    tables.resolve (.values root) [.key key] = (tables.read root).lookup key := by
  rw [resolve_key rfl]
  exact Option.bind_fun_some _

/-- The map at a key. -/
theorem mapAt?_singleton_key (root : Nat) (key : String) :
    tables.mapAt? (.values root) [.key key] =
      ((tables.read root).lookup key).bind AnyValue.reference? := by
  rw [mapAt?, resolve_singleton_key]

/-- A value that is no map has no keys. -/
theorem resolve_key_of_none
    (noMap : value.reference? = none)
    (key : String)
    (rest : List PathStep) :
    tables.resolve value (.key key :: rest) = none := by
  cases value <;> first | rfl | cases noMap

/-- Going on from the map at the end of a path by one of its keys. -/
theorem resolve_concat_key
    {path : List PathStep}
    {reference : Nat}
    (isMap : tables.mapAt? value path = some reference)
    (key : String) :
    tables.resolve value (path ++ [.key key]) =
      (tables.read reference).lookup key := by
  obtain ⟨found, here, isMap⟩ := Option.bind_eq_some_iff.mp isMap
  rw [resolve_append, here, Option.bind_some, resolve_key isMap]
  exact Option.bind_fun_some _

/-- The value of a key is found only below a map. -/
theorem resolve_concat_key_of_none
    {path : List PathStep}
    (noMap : tables.mapAt? value path = none)
    (key : String) :
    tables.resolve value (path ++ [.key key]) = none := by
  rw [resolve_append]
  refine Option.bind_eq_none_iff.mpr fun found here => ?_
  exact resolve_key_of_none
    (Option.bind_eq_none_iff.mp noMap found here) key []

/-- A lookup finds the maps of both Go types. -/
theorem tableLookup_eq_ok_iff {v t : Nat} {simple : String} :
    tables.tableLookup v simple = .ok t ↔
      ((tables.read v).lookup simple).bind AnyValue.reference? = some t := by
  unfold tableLookup
  cases (tables.read v).lookup simple with
  | none => simp
  | some found => cases found <;> simp [AnyValue.reference?]

/-- Below a map it makes no difference through which value it is reached. -/
theorem mapAt?_keys_eq_some_iff {t : Nat} {names : List String} :
    tables.mapAt? value (names.map .key) = some t ↔
      ∃ reference,
        value.reference? = some reference ∧
          tables.mapAt? (.values reference) (names.map .key) = some t := by
  cases names with
  | nil => simp [mapAt?, resolve, AnyValue.reference?]
  | cons name rest =>
      cases isMap : value.reference? with
      | none => simp [mapAt?, resolve_key_of_none isMap]
      | some reference =>
          have through : (AnyValue.values reference).reference? = some reference :=
            rfl
          simp [mapAt?, resolve_key isMap, resolve_key through]

/-- A chain of lookups ends in the map at the end of its path. -/
theorem foldlM_tableLookup_eq_ok_iff {v t : Nat} {names : List String} :
    names.foldlM (fun table n => tables.tableLookup table n) v = .ok t ↔
      tables.mapAt? (.values v) (names.map .key) = some t := by
  induction names generalizing v with
  | nil =>
      rw [List.foldlM_nil, List.map_nil]
      exact (Except.ok.injEq v t ▸ Option.some.injEq v t ▸ Iff.rfl)
  | cons name rest inductionHypothesis =>
      have below :
          tables.mapAt? (.values v) ((name :: rest).map .key) =
            ((tables.read v).lookup name).bind fun next =>
              tables.mapAt? next (rest.map .key) := by
        rw [List.map_cons, mapAt?, resolve_key rfl, Option.bind_assoc]
        rfl
      have bound :
          (name :: rest).foldlM (fun table n => tables.tableLookup table n) v =
              .ok t ↔
            ∃ next,
              tables.tableLookup v name = .ok next ∧
                rest.foldlM (fun table n => tables.tableLookup table n) next =
                  .ok t := by
        rw [List.foldlM_cons]
        cases tables.tableLookup v name with
        | error err => simp [bind, Except.bind]
        | ok next => simp [bind, Except.bind]
      rw [bound, below, Option.bind_eq_some_iff]
      constructor
      · rintro ⟨next, looked, found⟩
        obtain ⟨value, present, isMap⟩ :=
          Option.bind_eq_some_iff.mp (tableLookup_eq_ok_iff.mp looked)
        exact ⟨value, present, mapAt?_keys_eq_some_iff.mpr
          ⟨next, isMap, inductionHypothesis.mp found⟩⟩
      · rintro ⟨value, present, found⟩
        obtain ⟨next, isMap, found⟩ := mapAt?_keys_eq_some_iff.mp found
        exact ⟨next,
          tableLookup_eq_ok_iff.mpr
            (Option.bind_eq_some_iff.mpr ⟨value, present, isMap⟩),
          inductionHypothesis.mpr found⟩

/-- `Table` finds the map at the end of a dotted path. -/
theorem table_eq_ok_iff {v t : Nat} {name : String} :
    tables.table v name = .ok t ↔
      tables.mapAt? (.values v) ((splitDots name).map .key) = some t :=
  foldlM_tableLookup_eq_ok_iff

/--
`PathValue` finds the value at the end of a dotted path of more than one name,
if it is no table.
-/
theorem pathValue_eq_ok_iff
    {v : Nat}
    {ypath last : String}
    {names : List String}
    (split : splitDots ypath = names ++ [last])
    (several : names ≠ []) :
    tables.pathValue v ypath = .ok value ↔
      tables.scalarAt? v (names.map .key ++ [.key last]) = some value := by
  have rejoined : splitDots (joinDots names) = names :=
    splitDots_joinDots several fun part member =>
      dot_notMem_of_mem_splitDots (split ▸ List.mem_append_left _ member)
  have nonempty : ypath ≠ "" := by
    rintro rfl
    have short := congrArg List.length split
    simp [splitDots] at short
    exact several short
  obtain ⟨first, rest, reversed⟩ :=
    List.exists_cons_of_ne_nil (List.reverse_ne_nil_iff.mpr several)
  have joined : (first :: rest).reverse = names := by
    rw [← reversed, List.reverse_reverse]
  rw [pathValue, if_neg nonempty, split, List.reverse_append, reversed]
  simp only [List.reverse_singleton, List.singleton_append, joined]
  cases found : tables.table v (joinDots names) with
  | error err =>
      have noMap : tables.mapAt? (.values v) (names.map .key) = none := by
        rw [← rejoined, Option.eq_none_iff_forall_ne_some]
        intro t isMap
        rw [table_eq_ok_iff.mpr isMap] at found
        cases found
      simp [scalarAt?, resolve_concat_key_of_none noMap]
  | ok t =>
      have isMap : tables.mapAt? (.values v) (names.map .key) = some t := by
        rw [← rejoined]
        exact table_eq_ok_iff.mp found
      have same :
          tables.scalarAt? v (names.map .key ++ [.key last]) =
            tables.scalar? t last := by
        rw [scalarAt?, resolve_concat_key isMap, scalar?]
      rw [same]
      cases present : tables.scalar? t last <;> simp [present]

/-- `PathValue` for a key of a table of the root. -/
theorem pathValue_cases
    {ypath name key : String}
    (split : splitDots ypath = [name, key])
    (v : Nat) :
    (∃ value,
      tables.pathValue v ypath = .ok value ∧
        tables.scalarAt? v [.key name, .key key] = some value) ∨
      ∃ err,
        tables.pathValue v ypath = .error err ∧
          tables.scalarAt? v [.key name, .key key] = none := by
  have found_iff : ∀ value,
      tables.pathValue v ypath = .ok value ↔
        tables.scalarAt? v [.key name, .key key] = some value :=
    fun _ => @pathValue_eq_ok_iff _ _ v ypath key [name] split (by simp)
  cases found : tables.pathValue v ypath with
  | ok value => exact .inl ⟨value, rfl, (found_iff value).mp found⟩
  | error err =>
      refine .inr ⟨err, rfl, ?_⟩
      refine Option.eq_none_iff_forall_ne_some.mpr fun value present => ?_
      rw [(found_iff value).mpr present] at found
      cases found

end Lookups

end Tables

end LocalProvisioner
