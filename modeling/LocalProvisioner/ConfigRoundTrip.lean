import LocalProvisioner.ConfigWatcher
import Mathlib.Data.List.Permutation

namespace LocalProvisioner

/-!
# Writing a configuration and reading it back

`VolumeConfigToConfigMapData` writes a configuration as the data of a config
map, one key for each field that it knows of, and
`ConfigMapDataToVolumeConfig` reads such data into a whole configuration.  The
two are compared over any YAML library that reads back what it has written
when the texts are indented under their keys.

Of the fields of a configuration only three are written.  The others do not
survive unless they have their zero values.  `insertSpaces` puts a blank line
after each text.  That line belongs to the last string of the text if the
library has written the string so that the line breaks after it count.
-/

/--
A value that is marshalled or found in a document.  A map is given by its
contents, not by an order, and a null string is `none`.
-/
inductive FieldValue where
  | classes : Option (String → Option MountSettings) → FieldValue
  | strings : Option (List (Option String)) → FieldValue
  | boolean : Bool → FieldValue
  | tolerations : Option (List TolerationDocument) → FieldValue
  | duration : Int → FieldValue
  | labels : Option (String → Option String) → FieldValue
  | string : String → FieldValue

/--
`yaml.Marshal`, and `yaml.Unmarshal` into a `ProvisionerConfiguration`.  The
strings that `keepsBreaks` are the ones that are written as block scalars with
the line breaks after them kept.
-/
structure YamlLibrary where
  marshal : FieldValue → Except String String
  unmarshal : String → Except String ConfigDocument
  keepsBreaks : String → Bool

/-- `ProvisonerStorageClassConfig`. -/
def provisonerStorageClassConfig : String :=
  "storageClassMap"

/-- `ProvisionerNodeLabelsForPV`. -/
def provisionerNodeLabelsForPV : String :=
  "nodeLabelsForPV"

/-- `ProvisionerUseAlphaAPI`. -/
def provisionerUseAlphaAPI : String :=
  "useAlphaAPI"

/-- The step of `VolumeConfigToConfigMapData` for the node labels. -/
def addNodeLabels
    (yaml : YamlLibrary)
    (nodeLabelsForPV : Option (List String))
    (configMapData : GoMap String) :
    Except String (GoMap String) :=
  if (nodeLabelsForPV.getD []).length > 0 then
    match yaml.marshal (.strings (nodeLabelsForPV.map (List.map some))) with
    | .error err => .error ("unable to Marshal node label: " ++ err)
    | .ok nodeLabels =>
        .ok (configMapData.insert provisionerNodeLabelsForPV nodeLabels)
  else
    .ok configMapData

/-- `VolumeConfigToConfigMapData`. -/
def volumeConfigToConfigMapData
    (yaml : YamlLibrary)
    (memory : SharedMemory)
    (config : ProvisionerConfiguration) :
    Except String (GoMap String) :=
  match yaml.marshal (.classes (config.contents memory).storageClassConfig) with
  | .error err => .error ("unable to Marshal volume config: " ++ err)
  | .ok val =>
      match
        addNodeLabels yaml (config.contents memory).values.nodeLabelsForPV
          (AList.insert provisonerStorageClassConfig val ∅) with
      | .error err => .error err
      | .ok configMapData =>
          match yaml.marshal (.boolean config.flags.useAlphaAPI) with
          | .error err =>
              .error ("unable to Marshal API version config: " ++ err)
          | .ok ver =>
              .ok (configMapData.insert provisionerUseAlphaAPI ver)

/-- `insertSpaces`. -/
def insertSpaces (original : String) : String :=
  (original.toList.splitOn '\n').foldl
    (fun spaced line => spaced ++ "   " ++ String.ofList line ++ "\n")
    ""

/-- The document that `ConfigMapDataToVolumeConfig` puts together. -/
def rawYaml (entries : List ((_ : String) × String)) : String :=
  entries.foldl
    (fun raw entry => raw ++ entry.1 ++ ": \n" ++ insertSpaces entry.2)
    ""

/-- `ConfigMapDataToVolumeConfig`, from the data of a config map on. -/
def dataToVolumeConfig
    (yaml : YamlLibrary)
    (data : GoMap String)
    (memory : SharedMemory)
    (provisionerConfig : ProvisionerConfiguration) :
    Except String (SharedMemory × ProvisionerConfiguration) :=
  match yaml.unmarshal (rawYaml data.entries) with
  | .error err => .error ("fail to Unmarshal yaml due to: " ++ err)
  | .ok document => configMapDataToVolumeConfig document memory provisionerConfig

/-- The value that a document has under a key, by the tags of the fields. -/
def ConfigDocument.field
    (document : ConfigDocument)
    (key : String) :
    Option FieldValue :=
  match key with
  | "storageClassMap" =>
      document.storageClassMap.map fun classes =>
        .classes (classes.map fun entries className => entries.lookup className)
  | "nodeLabelsForPV" => document.nodeLabelsForPV.map .strings
  | "useAlphaAPI" => document.useAlphaAPI.map .boolean
  | "useJobForCleaning" => document.useJobForCleaning.map .boolean
  | "jobTolerations" => document.jobTolerations.map .tolerations
  | "minResyncPeriod" => document.minResyncPeriod.map .duration
  | "useNodeNameOnly" => document.useNodeNameOnly.map .boolean
  | "labelsForPV" =>
      document.labelsForPV.map fun labels =>
        .labels (labels.map fun entries label => entries.lookup label)
  | "setPVOwnerRef" => document.setPVOwnerRef.map .boolean
  | "removeNodeNotReadyTaint" => document.removeNodeNotReadyTaint.map .boolean
  | "provisionerNotReadyNodeTaintKey" =>
      document.provisionerNotReadyNodeTaintKey.map .string
  | _ => none

namespace YamlLibrary

/-- Data that holds the marshalled texts of some values. -/
def Marshals
    (yaml : YamlLibrary)
    (values : GoMap FieldValue)
    (data : GoMap String) : Prop :=
  ∀ key,
    (values.lookup key = none → data.lookup key = none) ∧
      ∀ value,
        values.lookup key = some value →
        ∃ text, data.lookup key = some text ∧ yaml.marshal value = .ok text

theorem Marshals.empty (yaml : YamlLibrary) : yaml.Marshals ∅ ∅ := by
  intro key
  simp

/-- One more value and its text. -/
theorem Marshals.assign
    {yaml : YamlLibrary}
    {values : GoMap FieldValue}
    {data : GoMap String}
    {value : FieldValue}
    {text : String}
    (marshals : yaml.Marshals values data)
    (marshalled : yaml.marshal value = .ok text)
    (key : String) :
    yaml.Marshals (values.insert key value) (data.insert key text) := by
  intro other
  rw [lookup_assign, lookup_assign]
  split
  · simpa using marshalled
  · exact marshals other

/-- The texts of some values are determined. -/
theorem Marshals.lookup_eq
    {yaml : YamlLibrary}
    {values : GoMap FieldValue}
    {data other : GoMap String}
    (marshals : yaml.Marshals values data)
    (marshalsToo : yaml.Marshals values other)
    (key : String) :
    data.lookup key = other.lookup key := by
  obtain ⟨absent, present⟩ := marshals key
  obtain ⟨absentToo, presentToo⟩ := marshalsToo key
  cases found : values.lookup key with
  | none => rw [absent found, absentToo found]
  | some value =>
      obtain ⟨text, read, marshalled⟩ := present value found
      obtain ⟨otherText, readToo, marshalledToo⟩ := presentToo value found
      rw [marshalled] at marshalledToo
      cases marshalledToo
      rw [read, readToo]

/-- The lines of a text, indented by three spaces. -/
def indent (text : String) : String :=
  String.join
    (((text.toList.splitOn '\n').dropLast).map fun line =>
      "   " ++ String.ofList line ++ "\n")

/-- A text indented under a key, with a blank line after it. -/
def block (key text : String) : String :=
  key ++ ": \n" ++ indent text ++ "   \n"

/-- A line break after the last string of a list, if it counts. -/
def lengthenLast (yaml : YamlLibrary) :
    List (Option String) → List (Option String)
  | [] => []
  | [some text] =>
      [some (if yaml.keepsBreaks text then text ++ "\n" else text)]
  | text :: rest => text :: yaml.lengthenLast rest

/-- A value that is read with a blank line after it. -/
def beforeBlank (yaml : YamlLibrary) : FieldValue → FieldValue
  | .strings texts => .strings (texts.map yaml.lengthenLast)
  | value => value

/-- Data that holds marshalled texts which end in a line break. -/
theorem Marshals.getLast?_of_mem
    {yaml : YamlLibrary}
    {values : GoMap FieldValue}
    {data : GoMap String}
    (marshals : yaml.Marshals values data)
    (ends :
      ∀ key value,
        values.lookup key = some value →
        ∃ text,
          yaml.marshal value = .ok text ∧ text.toList.getLast? = some '\n') :
    ∀ entry ∈ data.entries, entry.2.toList.getLast? = some '\n' := by
  intro entry member
  have written : data.lookup entry.1 = some entry.2 :=
    AList.mem_lookup_iff.mpr member
  obtain ⟨absent, present⟩ := marshals entry.1
  cases found : values.lookup entry.1 with
  | none =>
      rw [absent found] at written
      cases written
  | some value =>
      obtain ⟨text, read, marshalled⟩ := present value found
      obtain ⟨sameText, marshalledToo, textEnds⟩ := ends entry.1 value found
      rw [written] at read
      rw [marshalled] at marshalledToo
      cases read
      cases marshalledToo
      exact textEnds

/--
What is assumed of the library for some values: marshalling them gives texts
that end in a line break, and a document with these texts indented under their
keys, in any order and with a blank line after each, has these values and no
others, up to what a blank line adds to them.
-/
structure Undoes (yaml : YamlLibrary) (values : GoMap FieldValue) : Prop where
  marshals :
    ∀ key value,
      values.lookup key = some value →
      ∃ text,
        yaml.marshal value = .ok text ∧ text.toList.getLast? = some '\n'
  nests :
    ∀ data,
      yaml.Marshals values data →
      ∃ document,
        yaml.unmarshal
            (String.join
              (data.entries.map fun entry => block entry.1 entry.2)) =
          .ok document ∧
          ∀ key,
            document.field key = (values.lookup key).map yaml.beforeBlank

end YamlLibrary

/-- A text that ends in a line break is indented, and a blank line is added. -/
theorem insertSpaces_eq_indent
    {text : String}
    (ends : text.toList.getLast? = some '\n') :
    insertSpaces text = YamlLibrary.indent text ++ "   \n" := by
  obtain ⟨front, shape⟩ := List.getLast?_eq_some_iff.mp ends
  have pieces :
      text.toList.splitOn '\n' = front.splitOn '\n' ++ [[]] := by
    rw [shape, List.splitOn_append_cons_self]
    rfl
  have spaced :
      ∀ (lines : List (List Char)) (start : String),
        lines.foldl
            (fun spaced line => spaced ++ "   " ++ String.ofList line ++ "\n")
            start =
          start ++
            String.join
              (lines.map fun line => "   " ++ String.ofList line ++ "\n") := by
    intro lines
    induction lines with
    | nil => simp
    | cons line rest inductionHypothesis =>
        intro start
        rw [List.foldl_cons, inductionHypothesis, List.map_cons,
          String.join_cons]
        simp only [String.append_assoc]
  rw [insertSpaces, YamlLibrary.indent, pieces, List.dropLast_concat, spaced,
    List.map_append, String.join_append]
  simp

/-- The document that is put together of texts that end in a line break. -/
theorem rawYaml_eq_join
    {entries : List ((_ : String) × String)}
    (ends : ∀ entry ∈ entries, entry.2.toList.getLast? = some '\n') :
    rawYaml entries =
      String.join
        (entries.map fun entry => YamlLibrary.block entry.1 entry.2) := by
  have joined :
      ∀ start,
        entries.foldl
            (fun raw entry => raw ++ entry.1 ++ ": \n" ++ insertSpaces entry.2)
            start =
          start ++
            String.join
              (entries.map fun entry =>
                YamlLibrary.block entry.1 entry.2) := by
    induction entries with
    | nil => simp
    | cons entry rest inductionHypothesis =>
        intro start
        have later :=
          inductionHypothesis fun other member => ends other (by simp [member])
        rw [List.foldl_cons, later, List.map_cons, String.join_cons,
          insertSpaces_eq_indent (ends entry (by simp)), YamlLibrary.block]
        simp only [String.append_assoc]
  rw [rawYaml, joined, String.empty_append]

/-- A zero `ProvisionerConfiguration`. -/
def ProvisionerConfiguration.zero : ProvisionerConfiguration where
  storageClassConfig := none
  labelsForPV := none
  nodeLabelsForPV := none
  jobTolerations := none
  flags := {
    useAlphaAPI := false
    useJobForCleaning := false
    minResyncPeriod := 0
    useNodeNameOnly := false
    setPVOwnerRef := false
    removeNodeNotReadyTaint := false
    provisionerNotReadyNodeTaintKey := ""
  }

namespace ConfigContents

/-- Every class passes the checks and has its defaults. -/
def Normalised (contents : ConfigContents) : Prop :=
  ∀ classes className settings,
    contents.storageClassConfig = some classes →
    classes className = some settings →
    settings.Accepted ∧ settings.withDefaults = settings

/-- The values that `VolumeConfigToConfigMapData` marshals, by their keys. -/
def marshalled (contents : ConfigContents) : GoMap FieldValue :=
  let classes : GoMap FieldValue :=
    AList.insert provisonerStorageClassConfig
      (.classes contents.storageClassConfig) ∅
  let labelled :=
    if (contents.values.nodeLabelsForPV.getD []).length > 0 then
      classes.insert provisionerNodeLabelsForPV
        (.strings (contents.values.nodeLabelsForPV.map (List.map some)))
    else
      classes
  labelled.insert provisionerUseAlphaAPI
    (.boolean contents.values.useAlphaAPI)

/--
Only fields that are marshalled differ from their zero values, and the blank
line after the node labels is no part of the last one.
-/
structure OnlyMarshalledFields
    (yaml : YamlLibrary)
    (contents : ConfigContents) : Prop where
  nodeLabelsForPV : contents.values.nodeLabelsForPV ≠ some []
  lastLabel :
    ∀ labels label,
      contents.values.nodeLabelsForPV = some labels →
      labels.getLast? = some label →
      yaml.keepsBreaks label = false
  useJobForCleaning : contents.values.useJobForCleaning = false
  jobTolerations : contents.values.jobTolerations = none
  minResyncPeriod : contents.values.minResyncPeriod = 0
  useNodeNameOnly : contents.values.useNodeNameOnly = false
  labelsForPV : contents.labelsForPV = none
  setPVOwnerRef : contents.values.setPVOwnerRef = false
  removeNodeNotReadyTaint : contents.values.removeNodeNotReadyTaint = false
  provisionerNotReadyNodeTaintKey :
    contents.values.provisionerNotReadyNodeTaintKey = ""

/-- The node labels as they are read back. -/
def survivingLabels
    (yaml : YamlLibrary)
    (nodeLabelsForPV : Option (List String)) :
    Option (List String) :=
  if (nodeLabelsForPV.getD []).length > 0 then
    nodeLabelsForPV.map fun labels =>
      (yaml.lengthenLast (labels.map some)).map (Option.getD · "")
  else
    none

/-- What is left of a configuration that is written and read back. -/
def surviving
    (yaml : YamlLibrary)
    (contents : ConfigContents) :
    ConfigContents where
  storageClassConfig := contents.storageClassConfig
  labelsForPV := none
  values := {
    nodeLabelsForPV := survivingLabels yaml contents.values.nodeLabelsForPV
    useAlphaAPI := contents.values.useAlphaAPI
    useJobForCleaning := false
    jobTolerations := none
    minResyncPeriod := 0
    useNodeNameOnly := false
    setPVOwnerRef := false
    removeNodeNotReadyTaint := false
    provisionerNotReadyNodeTaintKey := ""
  }

/-- A list of labels is read back if no line break is added to the last one. -/
theorem lengthenLast_eq_iff (yaml : YamlLibrary) (labels : List String) :
    (yaml.lengthenLast (labels.map some)).map (Option.getD · "") = labels ↔
      ∀ label,
        labels.getLast? = some label → yaml.keepsBreaks label = false := by
  induction labels with
  | nil => simp [YamlLibrary.lengthenLast]
  | cons label rest inductionHypothesis =>
      cases rest with
      | nil =>
          have longer : label ++ "\n" ≠ label := by
            intro same
            have lengths := congrArg String.length same
            simp at lengths
          cases kept : yaml.keepsBreaks label <;>
            simp [YamlLibrary.lengthenLast, kept, longer]
      | cons next rest =>
          simpa [YamlLibrary.lengthenLast] using inductionHypothesis

/-- The node labels that are read back as they were. -/
theorem survivingLabels_eq_iff
    (yaml : YamlLibrary)
    (nodeLabelsForPV : Option (List String)) :
    survivingLabels yaml nodeLabelsForPV = nodeLabelsForPV ↔
      nodeLabelsForPV ≠ some [] ∧
        ∀ labels label,
          nodeLabelsForPV = some labels →
          labels.getLast? = some label →
          yaml.keepsBreaks label = false := by
  rcases nodeLabelsForPV with _ | _ | ⟨label, rest⟩
  · simp [survivingLabels]
  · simp [survivingLabels]
  · have last := lengthenLast_eq_iff yaml (label :: rest)
    simp only [survivingLabels, Option.getD_some, List.length_cons,
      Nat.succ_pos, gt_iff_lt, if_true, Option.map_some, Option.some.injEq,
      last]
    constructor
    · intro unkept
      refine ⟨by simp, ?_⟩
      rintro _ lastLabel rfl isLast
      exact unkept lastLabel isLast
    · rintro ⟨_, unkept⟩ lastLabel isLast
      exact unkept _ lastLabel rfl isLast

/-- All of a configuration is left if nothing but marshalled fields is set. -/
theorem surviving_eq_iff (yaml : YamlLibrary) (contents : ConfigContents) :
    contents.surviving yaml = contents ↔
      contents.OnlyMarshalledFields yaml := by
  have labels := survivingLabels_eq_iff yaml contents.values.nodeLabelsForPV
  constructor
  · intro same
    have values := congrArg ConfigContents.values same
    have flags := congrArg ConfigValues.toConfigFlags values
    have readBack :=
      labels.mp (congrArg ConfigValues.nodeLabelsForPV values)
    exact {
      nodeLabelsForPV := readBack.1
      lastLabel := readBack.2
      useJobForCleaning := (congrArg ConfigFlags.useJobForCleaning flags).symm
      jobTolerations := (congrArg ConfigValues.jobTolerations values).symm
      minResyncPeriod := (congrArg ConfigFlags.minResyncPeriod flags).symm
      useNodeNameOnly := (congrArg ConfigFlags.useNodeNameOnly flags).symm
      labelsForPV := (congrArg ConfigContents.labelsForPV same).symm
      setPVOwnerRef := (congrArg ConfigFlags.setPVOwnerRef flags).symm
      removeNodeNotReadyTaint :=
        (congrArg ConfigFlags.removeNodeNotReadyTaint flags).symm
      provisionerNotReadyNodeTaintKey :=
        (congrArg ConfigFlags.provisionerNotReadyNodeTaintKey flags).symm
    }
  · intro only
    have kept := labels.mpr ⟨only.nodeLabelsForPV, only.lastLabel⟩
    rw [surviving, kept]
    clear kept labels
    rcases contents with ⟨_, _, ⟨⟨_, _, _, _, _, _, _⟩, _, _⟩⟩
    rcases only with ⟨_, _, ⟨⟩, ⟨⟩, ⟨⟩, ⟨⟩, ⟨⟩, ⟨⟩, ⟨⟩, ⟨⟩⟩
    rfl

/-- The values that are marshalled. -/
theorem lookup_marshalled (contents : ConfigContents) (key : String) :
    contents.marshalled.lookup key =
      if key = "useAlphaAPI" then
        some (.boolean contents.values.useAlphaAPI)
      else if
          key = "nodeLabelsForPV" ∧
            (contents.values.nodeLabelsForPV.getD []).length > 0 then
        some (.strings (contents.values.nodeLabelsForPV.map (List.map some)))
      else if key = "storageClassMap" then
        some (.classes contents.storageClassConfig)
      else
        none := by
  unfold marshalled provisionerUseAlphaAPI provisionerNodeLabelsForPV
    provisonerStorageClassConfig
  split <;> rename_i labelled <;>
    simp [lookup_assign, labelled, -AList.insert_empty]

end ConfigContents

/--
A configuration is read back as it was: its data can be written, and reading
it into a zero configuration, in any order of its keys and whatever else is in
memory, yields every field.
-/
def RoundTrips
    (yaml : YamlLibrary)
    (memory : SharedMemory)
    (config : ProvisionerConfiguration) : Prop :=
  ∃ data,
    volumeConfigToConfigMapData yaml memory config = .ok data ∧
      ∀ (ordered : GoMap String) (otherMemory : SharedMemory),
        otherMemory.SlicesSound →
        ordered.entries.Perm data.entries →
        ∃ loadedMemory loaded,
          dataToVolumeConfig yaml ordered otherMemory .zero =
              .ok (loadedMemory, loaded) ∧
            loaded.contents loadedMemory = config.contents memory

/-- The classes of a document and those of a configuration with a value for them. -/
theorem storageClassMap_of_field
    {document : ConfigDocument}
    {classes : Option (String → Option MountSettings)}
    (found : document.field "storageClassMap" = some (.classes classes)) :
    ∃ entries : Option (GoMap MountSettings),
      document.storageClassMap = some entries ∧
        (entries.map fun found className => found.lookup className) =
          classes := by
  obtain ⟨entries, mentioned, same⟩ := Option.map_eq_some_iff.mp found
  exact ⟨entries, mentioned, FieldValue.classes.inj same⟩

section Documents

variable {yaml : YamlLibrary}
variable {document : ConfigDocument}
variable {contents : ConfigContents}

/-- A document with the marshalled values has no other keys. -/
theorem field_eq_none_of_marshalled
    (fields :
      ∀ key,
        document.field key =
          (contents.marshalled.lookup key).map yaml.beforeBlank)
    (key : String)
    (other : key ∉ ["storageClassMap", "nodeLabelsForPV", "useAlphaAPI"]) :
    document.field key = none := by
  simp only [List.mem_cons, List.not_mem_nil, or_false, not_or] at other
  obtain ⟨noClasses, noLabels, noAlpha⟩ := other
  rw [fields, ConfigContents.lookup_marshalled, if_neg noAlpha,
    if_neg fun labelled => noLabels labelled.1, if_neg noClasses,
    Option.map_none]

/-- The classes of a document that says what a normalised configuration says. -/
theorem overMap_storageClassMap
    (normalised : contents.Normalised)
    {entries : Option (GoMap MountSettings)}
    (mentioned : document.storageClassMap = some entries)
    (same :
      (entries.map fun found className => found.lookup className) =
        contents.storageClassConfig) :
    (overMap document.storageClassMap none).map
        (fun classes className =>
          (classes className).map MountSettings.withDefaults) =
      contents.storageClassConfig := by
  rw [mentioned, ← same]
  cases entries with
  | none => rfl
  | some entries =>
      simp only [overMap, Option.bind_none, Option.or_none, Option.map_some,
        Option.some.injEq]
      funext className
      cases found : entries.lookup className with
      | none => rfl
      | some settings =>
          have defaults :=
            (normalised _ className settings same.symm found).2
          simp [defaults]

/-- The flags that are read back from the marshalled values. -/
theorem decodeFlags_of_marshalled
    (fields :
      ∀ key,
        document.field key =
          (contents.marshalled.lookup key).map yaml.beforeBlank) :
    document.decodeFlags ProvisionerConfiguration.zero.flags =
      (contents.surviving yaml).values.toConfigFlags := by
  have absent := field_eq_none_of_marshalled fields
  have alpha : document.useAlphaAPI = some contents.values.useAlphaAPI := by
    have found := fields "useAlphaAPI"
    rw [ConfigContents.lookup_marshalled, if_pos rfl] at found
    obtain ⟨useAlphaAPI, mentioned, same⟩ := Option.map_eq_some_iff.mp found
    rw [mentioned, FieldValue.boolean.inj same]
  have job : document.useJobForCleaning = none :=
    Option.map_eq_none_iff.mp (absent "useJobForCleaning" (by decide))
  have resync : document.minResyncPeriod = none :=
    Option.map_eq_none_iff.mp (absent "minResyncPeriod" (by decide))
  have nameOnly : document.useNodeNameOnly = none :=
    Option.map_eq_none_iff.mp (absent "useNodeNameOnly" (by decide))
  have owner : document.setPVOwnerRef = none :=
    Option.map_eq_none_iff.mp (absent "setPVOwnerRef" (by decide))
  have taint : document.removeNodeNotReadyTaint = none :=
    Option.map_eq_none_iff.mp (absent "removeNodeNotReadyTaint" (by decide))
  have taintKey : document.provisionerNotReadyNodeTaintKey = none :=
    Option.map_eq_none_iff.mp
      (absent "provisionerNotReadyNodeTaintKey" (by decide))
  rw [ConfigDocument.decodeFlags, alpha, job, resync, nameOnly, owner, taint,
    taintKey]
  rfl

/-- The node labels that are read back from the marshalled values. -/
theorem overSlice_nodeLabels_of_marshalled
    (fields :
      ∀ key,
        document.field key =
          (contents.marshalled.lookup key).map yaml.beforeBlank) :
    overSlice Option.getD blankLabel document.nodeLabelsForPV none [] =
      (contents.surviving yaml).values.nodeLabelsForPV := by
  have found := fields "nodeLabelsForPV"
  rw [ConfigContents.lookup_marshalled, if_neg (by decide)] at found
  simp only [ConfigContents.surviving, ConfigContents.survivingLabels]
  split <;> rename_i labelled
  · rw [if_pos ⟨rfl, labelled⟩] at found
    obtain ⟨nodeLabels, mentioned, same⟩ := Option.map_eq_some_iff.mp found
    rw [mentioned, FieldValue.strings.inj same]
    cases contents.values.nodeLabelsForPV with
    | none => rfl
    | some labels => exact congrArg some (overElements_nil _ _ _)
  · rw [if_neg fun labels => labelled labels.2, if_neg (by decide)] at found
    rw [Option.map_eq_none_iff.mp found]
    rfl

/-- A document with the marshalled values of a normalised configuration. -/
theorem over_of_marshalled
    (normalised : contents.Normalised)
    (fields :
      ∀ key,
        document.field key =
          (contents.marshalled.lookup key).map yaml.beforeBlank)
    (memory : SharedMemory) :
    document.Accepted ∧
      document.over (ProvisionerConfiguration.zero.target memory) =
        contents.surviving yaml := by
  have found : document.field "storageClassMap" =
      some (.classes contents.storageClassConfig) := by
    simp [fields, ConfigContents.lookup_marshalled, YamlLibrary.beforeBlank]
  obtain ⟨entries, mentioned, sameClasses⟩ := storageClassMap_of_field found
  constructor
  · intro found className settings read present
    rw [mentioned, Option.some.injEq] at read
    subst read
    exact (normalised _ className settings sameClasses.symm present).1
  · have labelsForPV : document.labelsForPV = none :=
      Option.map_eq_none_iff.mp
        (field_eq_none_of_marshalled fields "labelsForPV" (by decide))
    have tolerations : document.jobTolerations = none :=
      Option.map_eq_none_iff.mp
        (field_eq_none_of_marshalled fields "jobTolerations" (by decide))
    have values :
        (document.over (ProvisionerConfiguration.zero.target memory)).values =
          (contents.surviving yaml).values :=
      (ConfigValues.mk.injEq ..).mpr
        ⟨decodeFlags_of_marshalled fields,
          overSlice_nodeLabels_of_marshalled fields, by rw [tolerations]; rfl⟩
    exact (ConfigContents.mk.injEq ..).mpr
      ⟨overMap_storageClassMap normalised mentioned sameClasses,
        by rw [labelsForPV]; rfl, values⟩

end Documents

/-- The step for the node labels adds their text, if there are any. -/
theorem exists_addNodeLabels
    {yaml : YamlLibrary}
    {nodeLabelsForPV : Option (List String)}
    {values : GoMap FieldValue}
    {data : GoMap String}
    (marshals : yaml.Marshals values data)
    (marshalled :
      (nodeLabelsForPV.getD []).length > 0 →
      ∃ text,
        yaml.marshal (.strings (nodeLabelsForPV.map (List.map some))) =
          .ok text) :
    ∃ labelled,
      addNodeLabels yaml nodeLabelsForPV data = .ok labelled ∧
        yaml.Marshals
          (if (nodeLabelsForPV.getD []).length > 0 then
            values.insert provisionerNodeLabelsForPV
              (.strings (nodeLabelsForPV.map (List.map some)))
          else
            values)
          labelled := by
  unfold addNodeLabels
  by_cases present : (nodeLabelsForPV.getD []).length > 0
  · obtain ⟨text, read⟩ := marshalled present
    simp only [present, if_true, read]
    exact ⟨_, rfl, marshals.assign read provisionerNodeLabelsForPV⟩
  · simp only [present, if_false]
    exact ⟨data, rfl, marshals⟩

/-- The data that is written holds the marshalled values. -/
theorem exists_volumeConfigToConfigMapData
    {yaml : YamlLibrary}
    {memory : SharedMemory}
    {config : ProvisionerConfiguration}
    (undoes : yaml.Undoes (config.contents memory).marshalled) :
    ∃ data,
      volumeConfigToConfigMapData yaml memory config = .ok data ∧
        yaml.Marshals (config.contents memory).marshalled data := by
  have marshals := undoes.marshals
  simp only [ConfigContents.lookup_marshalled] at marshals
  obtain ⟨val, classes, _⟩ :=
    marshals "storageClassMap"
      (.classes (config.contents memory).storageClassConfig) (by simp)
  obtain ⟨ver, alpha, _⟩ :=
    marshals "useAlphaAPI" (.boolean config.flags.useAlphaAPI)
      (by simp [ProvisionerConfiguration.contents])
  obtain ⟨labelled, added, labelledMarshals⟩ :=
    exists_addNodeLabels
      ((YamlLibrary.Marshals.empty yaml).assign classes
        provisonerStorageClassConfig)
      fun present => by
        obtain ⟨text, labels, _⟩ :=
          marshals "nodeLabelsForPV"
            (.strings
              ((config.contents memory).values.nodeLabelsForPV.map
                (List.map some)))
            (by rw [if_neg (by simp), if_pos ⟨rfl, present⟩])
        exact ⟨text, labels⟩
  refine ⟨labelled.insert provisionerUseAlphaAPI ver, ?_, ?_⟩
  · simp only [volumeConfigToConfigMapData, classes, added, alpha]
  · exact labelledMarshals.assign alpha provisionerUseAlphaAPI

/-- What is read back of a normalised configuration is what survives. -/
theorem dataToVolumeConfig_of_marshals
    {yaml : YamlLibrary}
    {contents : ConfigContents}
    {data : GoMap String}
    (undoes : yaml.Undoes contents.marshalled)
    (normalised : contents.Normalised)
    (marshals : yaml.Marshals contents.marshalled data)
    {memory : SharedMemory}
    (sound : memory.SlicesSound) :
    ∃ loadedMemory loaded,
      dataToVolumeConfig yaml data memory .zero = .ok (loadedMemory, loaded) ∧
        loaded.contents loadedMemory = contents.surviving yaml := by
  obtain ⟨document, parsed, fields⟩ := undoes.nests data marshals
  obtain ⟨accepted, read⟩ := over_of_marshalled normalised fields memory
  have allocated :
      ∀ reference className settings,
        (decodeMap memory.classes none document.storageClassMap).2 =
          some reference →
        ((decodeMap memory.classes none document.storageClassMap).1.read
            reference).lookup className = some settings →
        settings.Accepted := by
    intro reference className settings decoded found
    rcases mentioned : document.storageClassMap with _ | _ | entries
    · simp [mentioned, decodeMap] at decoded
    · simp [mentioned, decodeMap] at decoded
    · simp only [mentioned, decodeMap, Option.some.injEq] at decoded found
      rw [← decoded, SharedCells.read_alloc_self] at found
      exact accepted entries className settings mentioned found
  have holds : ProvisionerConfiguration.zero.HoldsSlices memory := by
    constructor <;> rintro slice ⟨⟩
  obtain ⟨loadedMemory, loaded, load, sameContents, _⟩ :=
    load_of_decoded sound holds allocated
  refine ⟨loadedMemory, loaded, ?_, sameContents.trans read⟩
  rw [← rawYaml_eq_join (marshals.getLast?_of_mem undoes.marshals)] at parsed
  simp only [dataToVolumeConfig, parsed, load]

/-- A configuration is read back as it was just if all of it survives. -/
theorem roundTrips_iff_surviving
    {yaml : YamlLibrary}
    {memory : SharedMemory}
    {config : ProvisionerConfiguration}
    (sound : memory.SlicesSound)
    (undoes : yaml.Undoes (config.contents memory).marshalled)
    (normalised : (config.contents memory).Normalised) :
    RoundTrips yaml memory config ↔
      (config.contents memory).surviving yaml = config.contents memory := by
  obtain ⟨data, written, marshals⟩ := exists_volumeConfigToConfigMapData undoes
  constructor
  · rintro ⟨_, writtenToo, readBack⟩
    rw [written] at writtenToo
    cases writtenToo
    obtain ⟨_, _, load, same⟩ := readBack data memory sound (.refl _)
    obtain ⟨_, _, loadToo, surviving⟩ :=
      dataToVolumeConfig_of_marshals undoes normalised marshals sound
    rw [load] at loadToo
    cases loadToo
    exact surviving.symm.trans same
  · intro survives
    refine ⟨data, written, ?_⟩
    intro ordered otherMemory otherSound permuted
    have orderedMarshals :
        yaml.Marshals (config.contents memory).marshalled ordered := by
      intro key
      rw [AList.perm_lookup permuted]
      exact marshals key
    obtain ⟨loadedMemory, loaded, load, surviving⟩ :=
      dataToVolumeConfig_of_marshals undoes normalised orderedMarshals
        otherSound
    exact ⟨loadedMemory, loaded, load, surviving.trans survives⟩

/--
A normalised configuration is read back as it was just if none of the fields
that are not written is set, its node labels are not an empty list, and the last
of them is not written so that the line breaks after it count.
-/
theorem roundTrips_iff_onlyMarshalledFields
    {yaml : YamlLibrary}
    {memory : SharedMemory}
    {config : ProvisionerConfiguration}
    (sound : memory.SlicesSound)
    (undoes : yaml.Undoes (config.contents memory).marshalled)
    (normalised : (config.contents memory).Normalised) :
    RoundTrips yaml memory config ↔
      (config.contents memory).OnlyMarshalledFields yaml :=
  (roundTrips_iff_surviving sound undoes normalised).trans
    (ConfigContents.surviving_eq_iff yaml _)

/-!
## One configuration

A class, node labels, and a library that reads the data of this configuration
in all orders of its keys.
-/

/-- A class with all of its defaults. -/
def sampleClassSettings : MountSettings where
  hostDir := "/mnt/disks"
  mountDir := "/mnt/fast"
  blockCleanerCommand := some [defaultBlockCleanerCommand]
  volumeMode := defaultVolumeMode
  namePattern := defaultNamePattern

/-- The map and the array of the configuration. -/
def sampleSharedMemory : SharedMemory where
  classes :=
    ((SharedCells.blank ∅).alloc
      (AList.singleton "fast" sampleClassSettings)).2
  labels := .blank ∅
  nodeLabels :=
    ((SharedMemory.blank doublingGrowth).nodeLabels.allocArray
      [{ plain := "zone", pointer := none }]).1
  jobTolerations := (SharedMemory.blank doublingGrowth).jobTolerations

/-- The configuration, with jobs for cleaning or without. -/
def sampleConfiguration (useJobForCleaning : Bool) :
    ProvisionerConfiguration where
  storageClassConfig := some 0
  labelsForPV := none
  nodeLabelsForPV := some { array := 0, length := 1 }
  jobTolerations := none
  flags := {
    useAlphaAPI := false
    useJobForCleaning := useJobForCleaning
    minResyncPeriod := 0
    useNodeNameOnly := false
    setPVOwnerRef := false
    removeNodeNotReadyTaint := false
    provisionerNotReadyNodeTaintKey := ""
  }

/-- What its marshalled values are written as. -/
def sampleText : FieldValue → String
  | .classes _ =>
      "fast:\n  accessMode: \"\"\n  blockCleanerCommand:\n" ++
        "  - /scripts/quick_reset.sh\n  fsType: \"\"\n" ++
        "  hostDir: /mnt/disks\n  mountDir: /mnt/fast\n" ++
        "  namePattern: '*'\n  selector: null\n  volumeMode: Filesystem\n"
  | .strings _ => "- zone\n"
  | _ => "false\n"

/-- Its data. -/
def sampleConfigMapData : GoMap String :=
  ((AList.insert provisonerStorageClassConfig
      (sampleText (.classes none)) ∅).insert provisionerNodeLabelsForPV
      (sampleText (.strings none))).insert provisionerUseAlphaAPI
      (sampleText (.boolean false))

/-- What is found in its data. -/
def sampleDocument : ConfigDocument where
  storageClassMap := some (some (AList.singleton "fast" sampleClassSettings))
  nodeLabelsForPV := some (some [some "zone"])
  useAlphaAPI := some false

/-- A library that reads its data. -/
def sampleYaml : YamlLibrary where
  marshal := fun value => .ok (sampleText value)
  unmarshal := fun raw =>
    if raw ∈ sampleConfigMapData.entries.permutations.map rawYaml then
      .ok sampleDocument
    else
      .error "unknown text"
  keepsBreaks := fun text => text.toList.reverse.take 2 == ['\n', '\n']

theorem slicesSound_sampleSharedMemory : sampleSharedMemory.SlicesSound := by
  have blank := SharedMemory.SlicesSound.blank doublingGrowth
  refine ⟨blank.nodeLabels.allocArray ?_, blank.jobTolerations⟩
  intro index pointer held
  cases index <;> cases held

theorem normalised_sampleConfiguration (useJobForCleaning : Bool) :
    ((sampleConfiguration useJobForCleaning).contents
      sampleSharedMemory).Normalised := by
  intro classes className settings same found
  cases same
  have stored :
      (AList.singleton "fast" sampleClassSettings : GoMap MountSettings).lookup
        className = some settings := found
  rw [← AList.insert_empty, lookup_assign] at stored
  split at stored
  · cases stored
    decide
  · cases stored

/-- The fields of the document are the values that are marshalled. -/
theorem field_sampleDocument (useJobForCleaning : Bool) (key : String) :
    sampleDocument.field key =
      (((sampleConfiguration useJobForCleaning).contents
        sampleSharedMemory).marshalled.lookup key).map
          sampleYaml.beforeBlank := by
  rw [ConfigContents.lookup_marshalled]
  unfold ConfigDocument.field
  split
  case h_12 => simp_all
  all_goals rfl

theorem undoes_sampleConfiguration (useJobForCleaning : Bool) :
    sampleYaml.Undoes
      ((sampleConfiguration useJobForCleaning).contents
        sampleSharedMemory).marshalled := by
  have ends :
      ∀ key value,
        ((sampleConfiguration useJobForCleaning).contents
          sampleSharedMemory).marshalled.lookup key = some value →
        ∃ text,
          sampleYaml.marshal value = .ok text ∧
            text.toList.getLast? = some '\n' := by
    intro _ value _
    refine ⟨sampleText value, rfl, ?_⟩
    unfold sampleText
    split <;> decide +kernel
  refine ⟨ends, ?_⟩
  intro data marshals
  have written :
      sampleYaml.Marshals
        ((sampleConfiguration useJobForCleaning).contents
          sampleSharedMemory).marshalled sampleConfigMapData :=
    (((YamlLibrary.Marshals.empty sampleYaml).assign rfl _).assign rfl _).assign
      rfl _
  have permuted : data.entries.Perm sampleConfigMapData.entries := by
    apply List.lookup_ext data.nodupKeys sampleConfigMapData.nodupKeys
    intro key text
    exact iff_of_eq (congrArg (text ∈ ·) (marshals.lookup_eq written key))
  refine ⟨sampleDocument, ?_, field_sampleDocument useJobForCleaning⟩
  rw [← rawYaml_eq_join (marshals.getLast?_of_mem ends)]
  exact if_pos (List.mem_map_of_mem (List.mem_permutations.mpr permuted))

/-- Without jobs for cleaning the configuration is read back. -/
theorem roundTrips_of_sampleConfiguration :
    RoundTrips sampleYaml sampleSharedMemory (sampleConfiguration false) := by
  apply (roundTrips_iff_onlyMarshalledFields slicesSound_sampleSharedMemory
    (undoes_sampleConfiguration false)
    (normalised_sampleConfiguration false)).mpr
  refine ⟨by decide, ?_, rfl, rfl, rfl, rfl, rfl, rfl, rfl, rfl⟩
  rintro labels label ⟨⟩ isLast
  cases isLast
  decide

/-- The flag for cleaning with jobs gets lost. -/
theorem not_roundTrips_of_useJobForCleaning :
    ¬ RoundTrips sampleYaml sampleSharedMemory (sampleConfiguration true) := by
  intro readBack
  have survives :=
    (roundTrips_iff_surviving slicesSound_sampleSharedMemory
      (undoes_sampleConfiguration true)
      (normalised_sampleConfiguration true)).mp readBack
  have lost :=
    congrArg (fun contents => contents.values.useJobForCleaning) survives
  cases lost

end LocalProvisioner
