import Mathlib.Data.List.Infix
import Mathlib.Data.List.DropRight
import Mathlib.Data.List.Forall2

namespace ShellScript

/-!
# Shell scripts

The part of the Bourne-again shell that small scripts are written in: words
with parameters, tests, pipelines, assignments, functions, branches and loops,
with or without `-e`.

Commands that are not built in are the surroundings'.  A pipeline runs its
commands in order, each on the output of the one before; its status is the
status of the last one.  `performed` records every command with its outcome.
`Ends` says that a statement comes to an end, and how; it is proved with one
rule for each kind of statement.
-/

/-! ## Words -/

/-- Parameters; `scriptName` stands for `$(basename $0)`. -/
inductive Parameter where
  | named : String → Parameter
  | positional : Nat → Parameter
  | all : Parameter
  | scriptName : Parameter
  deriving Repr, DecidableEq

/-- A part of a word: text, a parameter in double quotes, or a bare one. -/
inductive Part where
  | text : String → Part
  | quoted : Parameter → Part
  | bare : Parameter → Part
  deriving Repr, DecidableEq

abbrev Word : Type := List Part

/--
A character of an expanded word, and whether it comes from a bare parameter;
`edge` stands at the beginning of every quoted part.
-/
inductive Glyph where
  | bare : Char → Glyph
  | quoted : Char → Glyph
  | edge : Glyph
  deriving Repr, DecidableEq

/-- The characters of `IFS`. -/
def isBlank (character : Char) : Bool :=
  character == ' ' || character == '\t' || character == '\n'

/-- The characters that make a field a pattern of pathnames. -/
def isWildcard (character : Char) : Bool :=
  character == '*' || character == '?' || character == '['

namespace Glyph

def separates : Glyph → Bool
  | .bare character => isBlank character
  | _ => false

def matchesPathnames : Glyph → Bool
  | .bare character => isWildcard character
  | _ => false

@[simp] theorem separates_bare (character : Char) :
    (bare character).separates = isBlank character := rfl

@[simp] theorem separates_quoted (character : Char) :
    (quoted character).separates = false := rfl

@[simp] theorem separates_edge : edge.separates = false := rfl

@[simp] theorem matchesPathnames_bare (character : Char) :
    (bare character).matchesPathnames = isWildcard character := rfl

@[simp] theorem matchesPathnames_quoted (character : Char) :
    (quoted character).matchesPathnames = false := rfl

@[simp] theorem matchesPathnames_edge : edge.matchesPathnames = false := rfl

def character : Glyph → Option Char
  | .bare character => some character
  | .quoted character => some character
  | .edge => none

/-- The text of a field. -/
def spell (field : List Glyph) : String :=
  String.ofList (field.filterMap character)

theorem filterMap_character_bare (characters : List Char) :
    (characters.map Glyph.bare).filterMap character = characters := by
  rw [List.filterMap_map]
  exact List.filterMap_some

theorem filterMap_character_quoted (characters : List Char) :
    (Glyph.edge :: characters.map Glyph.quoted).filterMap character =
      characters := by
  rw [List.filterMap_cons_none rfl, List.filterMap_map]
  exact List.filterMap_some

end Glyph

/-! ## States and surroundings -/

/-- A command that has been run. -/
structure Execution where
  command : List String
  status : Nat
  output : String
  deriving Repr, DecidableEq

/-- What a command that is not built in does. -/
structure Reply (Host : Type) where
  status : Nat
  output : String
  host : Host

/-- What a script finds on its host. -/
structure Surroundings (Host : Type) where
  perform : (command : List String) → (input : String) → Host → Reply Host
  isBlockDevice : Host → String → Bool
  isDirectory : Host → String → Bool
  pathnames : Host → (pattern : String) → List String

/-- The state of a shell. -/
structure Shell (Host : Type) where
  name : String
  settings : String → Option String
  arguments : List String
  host : Host
  performed : List Execution
  printed : List String

variable {Host : Type}

namespace Shell

def assign (shell : Shell Host) (name value : String) : Shell Host :=
  { shell with
    settings := fun other =>
      if other = name then some value else shell.settings other }

@[simp] theorem assign_arguments (shell : Shell Host) (name value : String) :
    (shell.assign name value).arguments = shell.arguments := rfl

@[simp] theorem assign_host (shell : Shell Host) (name value : String) :
    (shell.assign name value).host = shell.host := rfl

@[simp] theorem assign_performed (shell : Shell Host) (name value : String) :
    (shell.assign name value).performed = shell.performed := rfl

@[simp] theorem assign_same (shell : Shell Host) (name value : String) :
    (shell.assign name value).settings name = some value := by
  simp [assign]

theorem assign_other
    {name other : String}
    (shell : Shell Host)
    (value : String)
    (different : other ≠ name) :
    (shell.assign name value).settings other = shell.settings other := by
  simp [assign, different]

def print (shell : Shell Host) (line : String) : Shell Host :=
  { shell with printed := shell.printed ++ [line] }

@[simp] theorem print_settings (shell : Shell Host) (line : String) :
    (shell.print line).settings = shell.settings := rfl

@[simp] theorem print_arguments (shell : Shell Host) (line : String) :
    (shell.print line).arguments = shell.arguments := rfl

@[simp] theorem print_host (shell : Shell Host) (line : String) :
    (shell.print line).host = shell.host := rfl

@[simp] theorem print_performed (shell : Shell Host) (line : String) :
    (shell.print line).performed = shell.performed := rfl

/-- The value of a parameter; one that is not set is empty. -/
def value (shell : Shell Host) : Parameter → String
  | .named name => (shell.settings name).getD ""
  | .positional 0 => shell.name
  | .positional (index + 1) => shell.arguments.getD index ""
  | .all => " ".intercalate shell.arguments
  | .scriptName => shell.name

/-- The characters that a part stands for. -/
def glyphs (shell : Shell Host) : Part → List Glyph
  | .text text => .edge :: text.toList.map .quoted
  | .quoted parameter =>
      .edge :: (shell.value parameter).toList.map .quoted
  | .bare parameter => (shell.value parameter).toList.map .bare

/-- The value of a word where it is neither split nor matched. -/
def single (shell : Shell Host) (word : Word) : String :=
  Glyph.spell (word.flatMap shell.glyphs)

/-- The value of a part. -/
def text (shell : Shell Host) : Part → String
  | .text text => text
  | .quoted parameter => shell.value parameter
  | .bare parameter => shell.value parameter

@[simp] theorem single_nil (shell : Shell Host) : shell.single [] = "" := rfl

@[simp] theorem single_cons (shell : Shell Host) (part : Part) (word : Word) :
    shell.single (part :: word) = shell.text part ++ shell.single word := by
  have characters :
      (shell.glyphs part).filterMap Glyph.character =
        (shell.text part).toList := by
    cases part with
    | text => exact Glyph.filterMap_character_quoted _
    | quoted => exact Glyph.filterMap_character_quoted _
    | bare => exact Glyph.filterMap_character_bare _
  rw [single, List.flatMap_cons, Glyph.spell, List.filterMap_append,
    characters, String.ofList_append, String.ofList_toList]
  rfl

/-- The fields that a word is split into. -/
def fields (shell : Shell Host) (word : Word) : List (List Glyph) :=
  ((word.flatMap shell.glyphs).splitOnP Glyph.separates).filter (· ≠ [])

end Shell

namespace Surroundings

variable (surroundings : Surroundings Host)

/-- Pathname expansion; a pattern without matches stands for itself. -/
def expandField (host : Host) (field : List Glyph) : List String :=
  if field.any Glyph.matchesPathnames then
    match surroundings.pathnames host (Glyph.spell field) with
    | [] => [Glyph.spell field]
    | found => found
  else
    [Glyph.spell field]

/-- The arguments that a word expands to. -/
def expand (shell : Shell Host) (word : Word) : List String :=
  (shell.fields word).flatMap (surroundings.expandField shell.host)

end Surroundings

/-! ## Words that expand to themselves -/

/-- Splitting loses the separators and nothing else. -/
theorem flatten_splitOnP
    {Item : Type}
    (separates : Item → Bool)
    (items : List Item) :
    (items.splitOnP separates).flatten =
      items.filter (fun item => !separates item) := by
  induction items with
  | nil => rfl
  | cons item rest ih =>
      rw [List.splitOnP_cons_eq_if_modifyHead]
      cases isSeparator : separates item with
      | true => simp [isSeparator, ih]
      | false =>
          cases shape : rest.splitOnP separates with
          | nil => exact (List.splitOnP_ne_nil _ _ shape).elim
          | cons first others =>
              rw [shape, List.flatten_cons] at ih
              simp [isSeparator, ← ih]

/-- Fields without pattern characters are spelled as they are. -/
theorem Surroundings.expandField_of_noWildcard
    {field : List Glyph}
    (surroundings : Surroundings Host)
    (host : Host)
    (noWildcard : ∀ glyph ∈ field, glyph.matchesPathnames = false) :
    surroundings.expandField host field = [Glyph.spell field] := by
  have plain : field.any Glyph.matchesPathnames = false := by
    simpa using noWildcard
  simp [expandField, plain]

/-- What is left of a word after splitting. -/
theorem Shell.flatten_fields (shell : Shell Host) (word : Word) :
    (shell.fields word).flatten =
      (word.flatMap shell.glyphs).filter (fun glyph => !glyph.separates) := by
  rw [← flatten_splitOnP, Shell.fields]
  exact List.flatten_filter_ne_nil

/-- Every separator is a character that splitting loses. -/
theorem Glyph.length_characters_filter_lt
    {glyphs : List Glyph}
    {glyph : Glyph}
    (member : glyph ∈ glyphs)
    (separator : glyph.separates = true) :
    ((glyphs.filter (fun glyph => !glyph.separates)).filterMap
        character).length <
      (glyphs.filterMap character).length := by
  have shorter :
      ∀ part : List Glyph,
        ((part.filter (fun glyph => !glyph.separates)).filterMap
          character).length ≤
          (part.filterMap character).length :=
    fun part => (List.filter_sublist.filterMap character).length_le
  obtain ⟨before, later, rfl⟩ := List.append_of_mem member
  have isCharacter : ∃ blank, glyph.character = some blank := by
    cases glyph with
    | bare blank => exact ⟨blank, rfl⟩
    | quoted _ => cases separator
    | edge => cases separator
  obtain ⟨blank, isBlank⟩ := isCharacter
  have front := shorter before
  have back := shorter later
  simp only [List.filter_append, List.filter_cons, separator, Bool.not_true,
    Bool.false_eq_true, if_false, List.filterMap_append,
    List.filterMap_cons_some isBlank, List.length_append, List.length_cons]
  omega

/-- The arguments that a word without pattern characters expands to. -/
theorem Surroundings.expand_of_noWildcard
    {shell : Shell Host}
    {word : Word}
    (surroundings : Surroundings Host)
    (noWildcard :
      ∀ glyph ∈ word.flatMap shell.glyphs, glyph.matchesPathnames = false) :
    surroundings.expand shell word =
      (shell.fields word).map Glyph.spell := by
  have spelled :
      ∀ field ∈ shell.fields word,
        surroundings.expandField shell.host field = [Glyph.spell field] := by
    intro field member
    apply surroundings.expandField_of_noWildcard
    intro glyph inside
    have kept : glyph ∈ (shell.fields word).flatten :=
      List.mem_flatten.mpr ⟨field, member, inside⟩
    rw [shell.flatten_fields] at kept
    exact noWildcard glyph (List.mem_of_mem_filter kept)
  unfold expand
  rw [List.flatMap_congr spelled]
  exact List.flatMap_pure_eq_map _ _

/--
A word without pattern characters expands to its own value exactly if it has
something in it and no bare parameter of it has a blank.
-/
theorem Surroundings.expand_eq_single_iff
    {shell : Shell Host}
    {word : Word}
    (surroundings : Surroundings Host)
    (noWildcard :
      ∀ glyph ∈ word.flatMap shell.glyphs, glyph.matchesPathnames = false) :
    surroundings.expand shell word = [shell.single word] ↔
      word.flatMap shell.glyphs ≠ [] ∧
        ∀ glyph ∈ word.flatMap shell.glyphs, glyph.separates = false := by
  rw [surroundings.expand_of_noWildcard noWildcard]
  constructor
  · intro same
    obtain ⟨field, shape, value⟩ := List.map_eq_singleton_iff.mp same
    have whole := shell.flatten_fields word
    rw [shape, List.flatten_singleton] at whole
    have characters :
        field.filterMap Glyph.character =
          (word.flatMap shell.glyphs).filterMap Glyph.character :=
      String.ofList_injective value
    refine ⟨?_, ?_⟩
    · intro empty
      have member : field ∈ shell.fields word := by simp [shape]
      have filled : field ≠ [] := by
        simpa using List.of_mem_filter member
      rw [whole, empty] at filled
      exact filled rfl
    · intro glyph member
      by_contra separator
      have fewer := Glyph.length_characters_filter_lt member
        (by simpa using separator)
      rw [← whole, characters] at fewer
      exact Nat.lt_irrefl _ fewer
  · rintro ⟨filled, unsplit⟩
    have only : shell.fields word = [word.flatMap shell.glyphs] := by
      unfold Shell.fields
      rw [List.splitOnP_eq_singleton unsplit]
      simp [filled]
    rw [only]
    rfl

/-! ## Words that are split -/

/--
The arguments that the value of a bare parameter becomes behind some text: it
is cut at its blanks.
-/
def pieces (lead value : String) : List String :=
  (((value.toList.splitOnP isBlank).modifyHead (lead.toList ++ ·)).filter
    (· ≠ [])).map String.ofList

/-- A value is one piece exactly if it has no blanks. -/
theorem pieces_eq_single_iff
    {lead value : String}
    (filled : value ≠ "") :
    pieces lead value = [lead ++ value] ↔
      ∀ character ∈ value.toList, isBlank character = false := by
  constructor
  · intro single
    have nonempty := List.splitOnP_ne_nil isBlank value.toList
    have rejoined := flatten_splitOnP isBlank value.toList
    rw [pieces, ← String.ofList_toList (s := lead ++ value)] at single
    obtain ⟨part, shape, whole⟩ := List.map_eq_singleton_iff.mp single
    have joined := congrArg List.flatten shape
    rw [List.flatten_filter_ne_nil, List.flatten_singleton,
      String.ofList_injective whole, String.toList_append] at joined
    cases parts : value.toList.splitOnP isBlank with
    | nil => exact (nonempty parts).elim
    | cons first others =>
        rw [parts] at joined rejoined
        rw [List.modifyHead_cons, List.flatten_cons, List.append_assoc,
          List.append_cancel_left_eq, ← List.flatten_cons, rejoined] at joined
        simpa using List.filter_eq_self.mp joined
  · intro unsplit
    rw [pieces, List.splitOnP_eq_singleton unsplit]
    simp [filled, String.ofList_append]

/-- Splitting commutes with a translation of the items. -/
theorem splitOnP_map
    {Item Other : Type}
    (translate : Item → Other)
    (separates : Other → Bool)
    (items : List Item) :
    (items.map translate).splitOnP separates =
      (items.splitOnP fun item => separates (translate item)).map
        (List.map translate) := by
  induction items with
  | nil => rfl
  | cons item rest ih =>
      rw [List.map_cons, List.splitOnP_cons_eq_if_modifyHead,
        List.splitOnP_cons_eq_if_modifyHead, ih]
      cases isSeparator : separates (translate item) with
      | true => rfl
      | false =>
          cases rest.splitOnP fun item => separates (translate item) with
          | nil => rfl
          | cons first others => rfl

/-- What does not separate stays in front of the first part. -/
theorem splitOnP_append_of_unsplit
    {Item : Type}
    {separates : Item → Bool}
    {front : List Item}
    (unsplit : ∀ item ∈ front, separates item = false)
    (items : List Item) :
    (front ++ items).splitOnP separates =
      (items.splitOnP separates).modifyHead (front ++ ·) := by
  induction front with
  | nil => exact (congrFun List.modifyHead_id _).symm
  | cons item rest ih =>
      have later := ih fun other member =>
        unsplit other (List.mem_cons_of_mem _ member)
      rw [List.cons_append, List.splitOnP_cons_eq_if_modifyHead, later,
        unsplit item List.mem_cons_self, if_neg (by simp),
        List.modifyHead_modifyHead]
      rfl

/-- The spelling of text in front of a part of a bare value. -/
theorem Glyph.spell_append_bare
    {front : List Glyph}
    {lead : String}
    (spelled : front.filterMap Glyph.character = lead.toList)
    (part : List Char) :
    Glyph.spell (front ++ part.map Glyph.bare) =
      String.ofList (lead.toList ++ part) := by
  rw [Glyph.spell, List.filterMap_append, spelled,
    Glyph.filterMap_character_bare]

/-- A word that ends in a bare parameter expands to the pieces of its value. -/
theorem Surroundings.expand_of_glyphs
    {shell : Shell Host}
    {word : Word}
    {front : List Glyph}
    {lead value : String}
    (surroundings : Surroundings Host)
    (isGlyphs :
      word.flatMap shell.glyphs = front ++ value.toList.map Glyph.bare)
    (spelled : front.filterMap Glyph.character = lead.toList)
    (filled : front ≠ [] → lead.toList ≠ [])
    (quoted :
      ∀ glyph ∈ front,
        glyph.separates = false ∧ glyph.matchesPathnames = false)
    (noWildcard :
      ∀ character ∈ value.toList, isWildcard character = false) :
    surroundings.expand shell word = pieces lead value := by
  rw [surroundings.expand_of_noWildcard, Shell.fields, isGlyphs,
    splitOnP_append_of_unsplit (fun glyph member => (quoted glyph member).1),
    splitOnP_map, pieces]
  · simp only [Glyph.separates_bare]
    have spelledPart := @Glyph.spell_append_bare front lead spelled
    have alone : ∀ part : List Char,
        Glyph.spell (part.map Glyph.bare) = String.ofList part :=
      @Glyph.spell_append_bare [] "" rfl
    have both : front = [] ↔ lead = "" := by
      constructor
      · rintro rfl
        exact String.toList_eq_nil_iff.mp spelled.symm
      · intro empty
        by_contra nonempty
        exact filled nonempty (String.toList_eq_nil_iff.mpr empty)
    cases value.toList.splitOnP isBlank with
    | nil => rfl
    | cons first others =>
        simp only [List.map_cons, List.modifyHead_cons, List.filter_cons,
          List.filter_map, Function.comp_def]
        by_cases vanishes : front = [] ∧ first = []
        · obtain ⟨noFront, rfl⟩ := vanishes
          simp [noFront, both.mp noFront, alone]
        · have left : ¬ (lead.toList ++ first = []) := by
            simpa [both] using vanishes
          have kept : ¬ (front ++ first.map Glyph.bare = []) := by
            simpa using vanishes
          simp [left, kept, spelledPart, alone]
  · intro glyph member
    rw [isGlyphs] at member
    rcases List.mem_append.mp member with inFront | isBare
    · exact (quoted glyph inFront).2
    · obtain ⟨character, inValue, rfl⟩ := List.mem_map.mp isBare
      exact noWildcard character inValue

/-- A bare parameter is cut into pieces. -/
theorem Surroundings.expand_bare
    {shell : Shell Host}
    {parameter : Parameter}
    {value : String}
    (surroundings : Surroundings Host)
    (isValue : shell.value parameter = value)
    (noWildcard :
      ∀ character ∈ value.toList, isWildcard character = false) :
    surroundings.expand shell [.bare parameter] = pieces "" value :=
  @Surroundings.expand_of_glyphs _ _ _ [] "" _ surroundings
    (by simp [Shell.glyphs, isValue]) rfl (by simp) (by simp) noWildcard

/-- Text stays in front of the first piece of a bare parameter. -/
theorem Surroundings.expand_text_bare
    {shell : Shell Host}
    {parameter : Parameter}
    {text value : String}
    (surroundings : Surroundings Host)
    (isValue : shell.value parameter = value)
    (filled : text ≠ "")
    (noWildcard :
      ∀ character ∈ value.toList, isWildcard character = false) :
    surroundings.expand shell [.text text, .bare parameter] =
      pieces text value :=
  @Surroundings.expand_of_glyphs _ _ _ (.edge :: text.toList.map Glyph.quoted)
    _ _ surroundings (by simp [Shell.glyphs, isValue])
    (Glyph.filterMap_character_quoted _)
    (fun _ => by simpa using filled)
    (by simp) noWildcard

/-! ## Tests -/

/--
The tests of `[` and `[[`.  `unset` is `-z ${name+x}`, `given` is `"$#" -gt 0`,
and `numeric` and `contains` are the matches of a value against `^[0-9]+$` and
against a text between two asterisks.
-/
inductive Test where
  | equal : Word → Word → Test
  | unset : String → Test
  | blockDevice : Word → Test
  | directory : Word → Test
  | given : Test
  | less : Word → Word → Test
  | numeric : Word → Test
  | contains : Word → String → Test
  | negated : Test → Test
  deriving Repr, DecidableEq

/-- The status of a test that holds or not. -/
def statusOf (holds : Bool) : Nat :=
  if holds then 0 else 1

@[simp] theorem statusOf_eq_zero_iff (holds : Bool) :
    statusOf holds = 0 ↔ holds = true := by
  cases holds <;> simp [statusOf]

/-- The text `^[0-9]+$`. -/
def isNumeric (text : String) : Bool :=
  text != "" && text.toList.all Char.isDigit

/-- The number that a text of digits stands for. -/
def decimal (text : String) : Nat :=
  Nat.ofDigitChars 10 text.toList 0

/--
The integers that `-lt` reads; beyond 64 bits it complains.  Texts with a sign
or blanks do not occur as its operands here.
-/
def integer (text : String) : Option Nat :=
  if isNumeric text ∧ decimal text < 9223372036854775808 then
    some (decimal text)
  else
    none

/-- The status of `-lt`. -/
def less (left right : String) : Nat :=
  match integer left, integer right with
  | some first, some second => statusOf (decide (first < second))
  | _, _ => 2

@[simp] theorem decimal_repr (number : Nat) :
    decimal number.repr = number := by
  rw [decimal, Nat.repr_eq_ofList_toDigits, String.toList_ofList]
  exact Nat.ofDigitChars_ten_toDigits

@[simp] theorem isNumeric_repr (number : Nat) :
    isNumeric number.repr = true := by
  have digits :
      ∀ digit ∈ Nat.toDigits 10 number, digit.isDigit = true :=
    fun digit member =>
      Nat.isDigit_of_mem_toDigits (by decide) (by decide) member
  simpa [isNumeric, Nat.repr_ne_empty] using digits

theorem integer_lt
    {text : String}
    {number : Nat}
    (isInteger : integer text = some number) :
    number < 9223372036854775808 := by
  unfold integer at isInteger
  split at isInteger
  · case isTrue fits =>
      cases isInteger
      exact fits.2
  · cases isInteger

theorem integer_repr
    {number : Nat}
    (small : number < 9223372036854775808) :
    integer number.repr = some number := by
  simp [integer, small]

/-- `! command`. -/
def negatedStatus (status : Nat) : Nat :=
  if status = 0 then 1 else 0

/-- The status of a test. -/
def Surroundings.test
    (surroundings : Surroundings Host)
    (shell : Shell Host) :
    Test → Nat
  | .equal left right =>
      statusOf (shell.single left == shell.single right)
  | .unset name => statusOf (shell.settings name).isNone
  | .blockDevice word =>
      statusOf (surroundings.isBlockDevice shell.host (shell.single word))
  | .directory word =>
      statusOf (surroundings.isDirectory shell.host (shell.single word))
  | .given => statusOf (!shell.arguments.isEmpty)
  | .less left right => less (shell.single left) (shell.single right)
  | .numeric word => statusOf (isNumeric (shell.single word))
  | .contains word text =>
      statusOf (decide (text.toList <:+: (shell.single word).toList))
  | .negated test => negatedStatus (surroundings.test shell test)

/-! ## Statements -/

/--
Statements.  `call` calls a function with its body, `increment` is an
assignment of the output of `expr $name + 1`.
-/
inductive Statement where
  | echo : List Word → Statement
  | run : (pipeline : List (List Word)) → Statement
  | capture : String → (pipeline : List (List Word)) → Statement
  | assign : String → Word → Statement
  | increment : String → Statement
  | exit : Nat → Statement
  | branch : Test → Statement → Statement
  | loop : Test → Statement → Statement
  | call : (body : Statement) → List Word → Statement
  | both : Statement → Statement → Statement
  deriving Repr

/-- How a statement ends: the script goes on after it, or has come to an end. -/
inductive Outcome where
  | goes : (status : Nat) → Outcome
  | exits : (status : Nat) → Outcome
  deriving Repr, DecidableEq

/-- The status of a script that ends so. -/
def Outcome.status : Outcome → Nat
  | .goes status => status
  | .exits status => status

/-- With `-e`, a command that fails ends the script. -/
def afterCommand (errexit : Bool) (status : Nat) : Outcome :=
  if errexit && status != 0 then .exits status else .goes status

@[simp] theorem status_afterCommand (errexit : Bool) (status : Nat) :
    (afterCommand errexit status).status = status := by
  unfold afterCommand
  split <;> rfl

@[simp] theorem afterCommand_zero (errexit : Bool) :
    afterCommand errexit 0 = .goes 0 := by
  simp [afterCommand]

@[simp] theorem afterCommand_false (status : Nat) :
    afterCommand false status = .goes status := by
  simp [afterCommand]

theorem afterCommand_of_failed
    {status : Nat}
    (failed : status ≠ 0) :
    afterCommand true status = .exits status := by
  simp [afterCommand, failed]

/-- A command substitution drops the newlines at the end. -/
def captured (output : String) : String :=
  String.ofList (output.toList.rdropWhile (· == '\n'))

namespace Surroundings

variable (surroundings : Surroundings Host)

/-- The commands of a pipeline, each on the output of the one before. -/
def runPipeline
    (input : String)
    (status : Nat)
    (shell : Shell Host) :
    List (List Word) → Nat × String × Shell Host
  | [] => (status, input, shell)
  | words :: later =>
      let command := words.flatMap (surroundings.expand shell)
      let reply := surroundings.perform command input shell.host
      runPipeline reply.output reply.status
        { shell with
          host := reply.host
          performed := shell.performed ++
            [{ command, status := reply.status, output := reply.output }] }
        later

/-- The rounds of a loop; `last` is the status of the round before. -/
def rounds
    (test : Test)
    (body : Shell Host → Option (Outcome × Shell Host)) :
    (fuel : Nat) →
    (last : Nat) →
    Shell Host →
    Option (Outcome × Shell Host)
  | 0, _, _ => none
  | fuel + 1, last, shell =>
      if surroundings.test shell test = 0 then
        match body shell with
        | none => none
        | some (.exits status, later) => some (.exits status, later)
        | some (.goes status, later) => rounds test body fuel status later
      else
        some (.goes last, shell)

/-- A statement run with so many rounds for each loop. -/
def eval (errexit : Bool) (fuel : Nat) :
    Statement → Shell Host → Option (Outcome × Shell Host)
  | .echo words, shell =>
      some (.goes 0, shell.print (" ".intercalate
        (words.flatMap (surroundings.expand shell))))
  | .run pipeline, shell =>
      let (status, output, later) :=
        surroundings.runPipeline "" 0 shell pipeline
      some (afterCommand errexit status, later.print output)
  | .capture name pipeline, shell =>
      let (status, output, later) :=
        surroundings.runPipeline "" 0 shell pipeline
      some (afterCommand errexit status, later.assign name (captured output))
  | .assign name word, shell =>
      some (.goes 0, shell.assign name (shell.single word))
  | .increment name, shell =>
      some (.goes 0, shell.assign name
        (Nat.repr (decimal (shell.value (.named name)) + 1)))
  | .exit status, shell => some (.exits status, shell)
  | .branch test body, shell =>
      if surroundings.test shell test = 0 then
        eval errexit fuel body shell
      else
        some (.goes 0, shell)
  | .loop test body, shell =>
      surroundings.rounds test (eval errexit fuel body) fuel 0 shell
  | .call body words, shell =>
      match eval errexit fuel body
          { shell with
            arguments := words.flatMap (surroundings.expand shell) } with
      | none => none
      | some (outcome, later) =>
          some (outcome, { later with arguments := shell.arguments })
  | .both first second, shell =>
      match eval errexit fuel first shell with
      | none => none
      | some (.exits status, later) => some (.exits status, later)
      | some (.goes _, later) => eval errexit fuel second later

/-! ## Rules -/

/-- A statement comes to an end, and the condition holds then. -/
def Ends
    (errexit : Bool)
    (statement : Statement)
    (shell : Shell Host)
    (post : Outcome → Shell Host → Prop) : Prop :=
  ∃ fuel outcome later,
    surroundings.eval errexit fuel statement shell = some (outcome, later) ∧
      post outcome later

variable {surroundings}
variable {errexit : Bool}

/-- More rounds do not change the end of a loop. -/
theorem rounds_of_le
    {test : Test}
    {body longerBody : Shell Host → Option (Outcome × Shell Host)}
    (agrees :
      ∀ shell result, body shell = some result →
        longerBody shell = some result)
    {fuel longer last : Nat}
    {shell : Shell Host}
    {result : Outcome × Shell Host}
    (enough : fuel ≤ longer)
    (ended : surroundings.rounds test body fuel last shell = some result) :
    surroundings.rounds test longerBody longer last shell = some result := by
  induction fuel generalizing longer last shell with
  | zero => cases ended
  | succ fuel ih =>
      obtain ⟨more, rfl⟩ : ∃ more, longer = more + 1 :=
        ⟨longer - 1, by omega⟩
      rw [rounds] at ended ⊢
      split at ended
      · case isTrue holds =>
          rw [if_pos holds]
          split at ended
          · cases ended
          · case h_2 exited =>
              rw [agrees _ _ exited]
              exact ended
          · case h_3 went =>
              rw [agrees _ _ went]
              exact ih (by omega) ended
      · case isFalse fails =>
          rw [if_neg fails]
          exact ended

/-- More rounds do not change how a statement ends. -/
theorem eval_of_le
    {statement : Statement}
    {fuel longer : Nat}
    {shell : Shell Host}
    {result : Outcome × Shell Host}
    (enough : fuel ≤ longer)
    (ended :
      surroundings.eval errexit fuel statement shell = some result) :
    surroundings.eval errexit longer statement shell = some result := by
  induction statement generalizing shell result with
  | echo | run | capture | assign | increment | exit => exact ended
  | branch test body ih =>
      rw [eval] at ended ⊢
      split at ended
      · case isTrue holds =>
          rw [if_pos holds]
          exact ih ended
      · case isFalse fails =>
          rw [if_neg fails]
          exact ended
  | loop test body ih =>
      exact rounds_of_le (fun _ _ finished => ih finished) enough ended
  | call body words ih =>
      rw [eval] at ended ⊢
      split at ended
      · cases ended
      · case h_2 finished =>
          rw [ih finished]
          exact ended
  | both first second firstIh secondIh =>
      rw [eval] at ended ⊢
      split at ended
      · cases ended
      · case h_2 exited =>
          rw [firstIh exited]
          exact ended
      · case h_3 went =>
          rw [firstIh went]
          exact secondIh ended

/-- A command that a shell with these settings has been made to run. -/
def Issued
    (surroundings : Surroundings Host)
    (settings : String → Option String)
    (words : List Word)
    (execution : Execution) : Prop :=
  ∃ current : Shell Host,
    current.settings = settings ∧
      execution.command = words.flatMap (surroundings.expand current)

/-- What a pipeline has done in the end. -/
structure Piped
    (surroundings : Surroundings Host)
    (shell : Shell Host)
    (pipeline : List (List Word))
    (executions : List Execution)
    (later : Shell Host) : Prop where
  performed : later.performed = shell.performed ++ executions
  settings : later.settings = shell.settings
  arguments : later.arguments = shell.arguments
  issued :
    List.Forall₂ (surroundings.Issued shell.settings) pipeline executions

theorem Piped.print
    {pipeline : List (List Word)}
    {executions : List Execution}
    {shell later : Shell Host}
    (piped : surroundings.Piped shell pipeline executions later)
    (line : String) :
    surroundings.Piped shell pipeline executions (later.print line) :=
  ⟨piped.performed, piped.settings, piped.arguments, piped.issued⟩

/-- A pipeline with a command has a last command. -/
theorem Piped.exists_last
    {pipeline : List (List Word)}
    {executions : List Execution}
    {shell later : Shell Host}
    (piped : surroundings.Piped shell pipeline executions later)
    (filled : pipeline ≠ []) :
    ∃ last, executions.getLast? = some last := by
  have sameLength := piped.issued.length_eq
  cases executions with
  | nil => exact (filled (List.length_eq_zero_iff.mp sameLength)).elim
  | cons first others => exact ⟨_, List.getLast?_eq_some_getLast (by simp)⟩

/-- The status and the output of a pipeline are those of its last command. -/
theorem runPipeline_spec
    {pipeline : List (List Word)}
    {input output : String}
    {before status : Nat}
    {shell later : Shell Host}
    (ran :
      surroundings.runPipeline input before shell pipeline =
        (status, output, later)) :
    ∃ executions,
      surroundings.Piped shell pipeline executions later ∧
        ∀ last, executions.getLast? = some last →
          status = last.status ∧ output = last.output := by
  induction pipeline generalizing input before shell with
  | nil =>
      cases ran
      exact ⟨[], ⟨by simp, rfl, rfl, .nil⟩, by simp⟩
  | cons words pipeline ih =>
      obtain ⟨executions, piped, ends⟩ := ih ran
      let command := words.flatMap (surroundings.expand shell)
      let reply := surroundings.perform command input shell.host
      let execution : Execution :=
        { command, status := reply.status, output := reply.output }
      refine ⟨execution :: executions,
        ⟨?_, piped.settings, piped.arguments, ?_⟩, ?_⟩
      · rw [piped.performed, List.append_assoc]
        rfl
      · exact .cons ⟨shell, rfl, rfl⟩ piped.issued
      · intro last isLast
        cases executions with
        | nil =>
            obtain rfl : pipeline = [] :=
              List.forall₂_nil_right_iff.mp piped.issued
            cases ran
            cases isLast
            exact ⟨rfl, rfl⟩
        | cons first others =>
            exact ends last (by simpa using isLast)

section Rules

variable {shell : Shell Host}
variable {post : Outcome → Shell Host → Prop}

theorem ends_echo
    {words : List Word}
    (holds :
      ∀ line, post (.goes 0) (shell.print line)) :
    surroundings.Ends errexit (.echo words) shell post :=
  ⟨0, _, _, rfl, holds _⟩

theorem ends_run
    {pipeline : List (List Word)}
    (holds :
      ∀ executions last later,
        surroundings.Piped shell pipeline executions later →
        executions.getLast? = some last →
        post (afterCommand errexit last.status) later)
    (filled : pipeline ≠ []) :
    surroundings.Ends errexit (.run pipeline) shell post := by
  cases ran : surroundings.runPipeline "" 0 shell pipeline with
  | mk status rest =>
      obtain ⟨executions, piped, ends⟩ := runPipeline_spec ran
      obtain ⟨last, isLast⟩ := piped.exists_last filled
      obtain ⟨rfl, _⟩ := ends last isLast
      refine ⟨0, afterCommand errexit last.status, rest.2.print rest.1, ?_, ?_⟩
      · rw [eval, ran]
      · exact holds executions last _ (piped.print rest.1) isLast

/-- The same rule for surroundings whose commands are known. -/
theorem ends_runExactly
    {pipeline : List (List Word)}
    (holds :
      let ran := surroundings.runPipeline "" 0 shell pipeline
      post (afterCommand errexit ran.1) (ran.2.2.print ran.2.1)) :
    surroundings.Ends errexit (.run pipeline) shell post :=
  ⟨0, _, _, rfl, holds⟩

theorem ends_capture
    {name : String}
    {pipeline : List (List Word)}
    (holds :
      ∀ executions last later,
        surroundings.Piped shell pipeline executions later →
        executions.getLast? = some last →
        post (afterCommand errexit last.status)
          (later.assign name (captured last.output)))
    (filled : pipeline ≠ []) :
    surroundings.Ends errexit (.capture name pipeline) shell post := by
  cases ran : surroundings.runPipeline "" 0 shell pipeline with
  | mk status rest =>
      obtain ⟨executions, piped, ends⟩ := runPipeline_spec ran
      obtain ⟨last, isLast⟩ := piped.exists_last filled
      obtain ⟨rfl, sameOutput⟩ := ends last isLast
      refine ⟨0, afterCommand errexit last.status,
        rest.2.assign name (captured rest.1), ?_, ?_⟩
      · rw [eval, ran]
      · rw [sameOutput]
        exact holds executions last _ piped isLast

theorem ends_assign
    {name : String}
    {word : Word}
    (holds : post (.goes 0) (shell.assign name (shell.single word))) :
    surroundings.Ends errexit (.assign name word) shell post :=
  ⟨0, _, _, rfl, holds⟩

theorem ends_increment
    {name : String}
    (holds :
      post (.goes 0) (shell.assign name
        (Nat.repr (decimal (shell.value (.named name)) + 1)))) :
    surroundings.Ends errexit (.increment name) shell post :=
  ⟨0, _, _, rfl, holds⟩

theorem ends_exit
    {status : Nat}
    (holds : post (.exits status) shell) :
    surroundings.Ends errexit (.exit status) shell post :=
  ⟨0, _, _, rfl, holds⟩

theorem ends_branch
    {test : Test}
    {body : Statement}
    (taken :
      surroundings.test shell test = 0 →
      surroundings.Ends errexit body shell post)
    (passed :
      surroundings.test shell test ≠ 0 → post (.goes 0) shell) :
    surroundings.Ends errexit (.branch test body) shell post := by
  by_cases holds : surroundings.test shell test = 0
  · obtain ⟨fuel, outcome, later, ended, isPost⟩ := taken holds
    exact ⟨fuel, outcome, later, (if_pos holds).trans ended, isPost⟩
  · exact ⟨0, _, _, if_neg holds, passed holds⟩

theorem ends_call
    {body : Statement}
    {words : List Word}
    (ends :
      surroundings.Ends errexit body
        { shell with arguments := words.flatMap (surroundings.expand shell) }
        fun outcome later =>
          post outcome { later with arguments := shell.arguments }) :
    surroundings.Ends errexit (.call body words) shell post := by
  obtain ⟨fuel, outcome, later, ended, isPost⟩ := ends
  refine ⟨fuel, outcome, _, ?_, isPost⟩
  rw [eval, ended]

theorem ends_both
    {first second : Statement}
    (ends :
      surroundings.Ends errexit first shell fun outcome later =>
        match outcome with
        | .exits status => post (.exits status) later
        | .goes _ => surroundings.Ends errexit second later post) :
    surroundings.Ends errexit (.both first second) shell post := by
  obtain ⟨fuel, outcome, later, ended, next⟩ := ends
  cases outcome with
  | exits status =>
      refine ⟨fuel, _, _, ?_, next⟩
      rw [eval, ended]
  | goes status =>
      obtain ⟨more, final, last, finished, isPost⟩ := next
      refine ⟨max fuel more, final, last, ?_, isPost⟩
      rw [eval, eval_of_le (Nat.le_max_left fuel more) ended]
      exact eval_of_le (Nat.le_max_right fuel more) finished

/-- With `-e`, what follows a pipeline is reached if the pipeline succeeds. -/
theorem ends_runThen
    {pipeline : List (List Word)}
    {second : Statement}
    (failed :
      ∀ executions last later,
        surroundings.Piped shell pipeline executions later →
        executions.getLast? = some last →
        last.status ≠ 0 →
        post (.exits last.status) later)
    (succeeded :
      ∀ executions last later,
        surroundings.Piped shell pipeline executions later →
        executions.getLast? = some last →
        last.status = 0 →
        surroundings.Ends true second later post)
    (filled : pipeline ≠ []) :
    surroundings.Ends true (.both (.run pipeline) second) shell post := by
  apply ends_both
  refine ends_run ?_ filled
  intro executions last later piped isLast
  by_cases ok : last.status = 0
  · rw [ok, afterCommand_zero]
    exact succeeded executions last later piped isLast ok
  · rw [afterCommand_of_failed ok]
    exact failed executions last later piped isLast ok

/--
A loop comes to an end if every round keeps an invariant with a bound that
gets smaller.
-/
theorem ends_loop
    {test : Test}
    {body : Statement}
    (invariant : (bound last : Nat) → Shell Host → Prop)
    (round :
      ∀ bound last current,
        invariant bound last current →
        surroundings.test current test = 0 →
        surroundings.Ends errexit body current fun outcome later =>
          match outcome with
          | .exits status => post (.exits status) later
          | .goes status =>
              ∃ smaller, smaller < bound ∧ invariant smaller status later)
    (leaves :
      ∀ bound last current,
        invariant bound last current →
        surroundings.test current test ≠ 0 →
        post (.goes last) current)
    {bound : Nat}
    (initially : invariant bound 0 shell) :
    surroundings.Ends errexit (.loop test body) shell post := by
  suffices runs :
      ∀ bound last current,
        invariant bound last current →
        ∃ fuel outcome later,
          surroundings.rounds test (surroundings.eval errexit fuel body)
              fuel last current = some (outcome, later) ∧
            post outcome later by
    obtain ⟨fuel, outcome, later, ended, isPost⟩ :=
      runs bound 0 shell initially
    exact ⟨fuel, outcome, later, ended, isPost⟩
  intro bound
  -- on the bound: a round that goes on leaves fewer rounds
  induction bound using Nat.strong_induction_on with
  | _ bound ih =>
      intro last current holds
      by_cases again : surroundings.test current test = 0
      · obtain ⟨fuel, outcome, later, ended, next⟩ :=
          round bound last current holds again
        cases outcome with
        | exits status =>
            refine ⟨fuel + 1, .exits status, later, ?_, next⟩
            rw [rounds, if_pos again,
              eval_of_le (Nat.le_succ fuel) ended]
        | goes status =>
            obtain ⟨smaller, less, still⟩ := next
            obtain ⟨more, final, end_, finished, isPost⟩ :=
              ih smaller less status later still
            refine ⟨max fuel more + 1, final, end_, ?_, isPost⟩
            rw [rounds, if_pos again,
              eval_of_le (by omega : fuel ≤ max fuel more + 1) ended]
            refine rounds_of_le ?_ (Nat.le_max_right fuel more) finished
            intro _ _ evaluated
            exact eval_of_le (by omega) evaluated
      · refine ⟨1, .goes last, current, ?_, leaves bound last current holds again⟩
        rw [rounds, if_neg again]

end Rules

end Surroundings

/-! ## Scripts -/

/-- Statements one after the other. -/
def Statement.block : Statement → List Statement → Statement
  | first, [] => first
  | first, next :: later => .both first (block next later)

/-- A script, run with `-e` or without. -/
structure Script where
  errexit : Bool
  body : Statement

/-- A script comes to an end, and the condition holds of its status then. -/
def Script.Ends
    (script : Script)
    (surroundings : Surroundings Host)
    (shell : Shell Host)
    (post : (status : Nat) → Shell Host → Prop) : Prop :=
  surroundings.Ends script.errexit script.body shell
    fun outcome later => post outcome.status later

theorem Script.Ends.mono
    {script : Script}
    {surroundings : Surroundings Host}
    {shell : Shell Host}
    {post weaker : (status : Nat) → Shell Host → Prop}
    (ends : script.Ends surroundings shell post)
    (implies : ∀ status later, post status later → weaker status later) :
    script.Ends surroundings shell weaker := by
  obtain ⟨fuel, outcome, later, ended, holds⟩ := ends
  exact ⟨fuel, outcome, later, ended, implies _ _ holds⟩

end ShellScript
