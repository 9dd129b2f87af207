import Mathlib.Data.List.Basic

namespace UnixPath

/-!
# Lexical Unix paths

The lexical path operations of Go's `path/filepath` on Unix.  A path is split
at its slashes into components; `resolve` drops the empty and `.` components
and lets `..` cancel the component before it; `render` writes the outcome back
as a string.  `clean`, `join`, and `rel` are stated on that component form, so
that containment of one path in another is a statement about component lists
and never about string prefixes.
-/

/-- One slash-free piece of a path. -/
abbrev Component := List Char

/-- The component `.`. -/
def dot : Component := ['.']

/-- The component `..`. -/
def dotDot : Component := ['.', '.']

/-- A path in component form: whether it starts at the root, and its parts. -/
structure Lexical where
  rooted : Bool
  parts : List Component
  deriving Repr, DecidableEq

/--
Add one component to the resolved components before it, newest first.  A `..`
cancels a named component, is dropped at the root, and is kept otherwise.
-/
def push
    (rooted : Bool)
    (stack : List Component)
    (part : Component) :
    List Component :=
  if part = [] ∨ part = dot then
    stack
  else if part = dotDot then
    match stack with
    | [] => if rooted then [] else [dotDot]
    | top :: rest => if top = dotDot then dotDot :: top :: rest else rest
  else
    part :: stack

/-- Resolve the `.` and `..` components of a split path. -/
def resolve (rooted : Bool) (parts : List Component) : List Component :=
  (parts.foldl (push rooted) []).reverse

/-- The component form of a path. -/
def lexical (path : String) : Lexical where
  rooted := path.toList.head? == some '/'
  parts :=
    resolve (path.toList.head? == some '/') (path.toList.splitOn '/')

/-- Join components with single slashes. -/
def joinParts (parts : List Component) : List Char :=
  ['/'].intercalate parts

/-- Write a component form as a path; the empty relative path is `.`. -/
def Lexical.render (form : Lexical) : List Char :=
  if form.rooted then
    '/' :: joinParts form.parts
  else if form.parts = [] then
    dot
  else
    joinParts form.parts

/-- `filepath.Clean`: the shortest path lexically equal to the given one. -/
def clean (path : String) : String :=
  String.ofList (lexical path).render

/--
`filepath.Join`: leading empty elements are skipped, the others are joined
with slashes and cleaned.
-/
def join : List String → String
  | [] => ""
  | element :: rest =>
      if element = "" then
        join rest
      else
        clean (String.ofList
          (joinParts ((element :: rest).map String.toList)))

/-- Drop the common leading components of two lists. -/
def stripCommon :
    List Component → List Component → List Component × List Component
  | base :: bases, target :: targets =>
      if base = target then
        stripCommon bases targets
      else
        (base :: bases, target :: targets)
  | bases, targets => (bases, targets)

/--
`filepath.Rel`: the path that leads from the base to the target.  There is
none between a rooted and a relative path, nor when the way up would have to
leave a base that itself starts with `..`.
-/
def rel (base target : String) : Except String String :=
  let baseForm := lexical base
  let targetForm := lexical target
  if baseForm = targetForm then
    .ok "."
  else if baseForm.rooted ≠ targetForm.rooted then
    .error ("Rel: can't make " ++ target ++ " relative to " ++ base)
  else
    match stripCommon baseForm.parts targetForm.parts with
    | (above, below) =>
        if above.head? = some dotDot then
          .error ("Rel: can't make " ++ target ++ " relative to " ++ base)
        else
          .ok (String.ofList
            (joinParts (List.replicate above.length dotDot ++ below)))

/--
The path lies strictly below the directory: its components continue those of
the directory by at least one component, none of which leads up.
-/
def StrictlyBelow (directory path : String) : Prop :=
  (lexical path).rooted = (lexical directory).rooted ∧
    (lexical directory).parts <+: (lexical path).parts ∧
    (lexical path).parts.drop (lexical directory).parts.length ≠ [] ∧
    dotDot ∉ (lexical path).parts.drop (lexical directory).parts.length

instance (directory path : String) :
    Decidable (StrictlyBelow directory path) :=
  inferInstanceAs (Decidable (_ ∧ _ ∧ _ ∧ _))

/-- A component that survives resolution: nonempty, not `.`, and slash-free. -/
structure Proper (part : Component) : Prop where
  nonempty : part ≠ []
  notDot : part ≠ dot
  noSlash : '/' ∉ part

/-- Resolved components, newest first: all proper, with every `..` at the bottom. -/
inductive Resolved (rooted : Bool) : List Component → Prop where
  | nil :
      Resolved rooted []
  | up {stack : List Component} :
      rooted = false →
      Resolved rooted stack →
      (∀ part ∈ stack, part = dotDot) →
      Resolved rooted (dotDot :: stack)
  | name {part : Component} {stack : List Component} :
      Proper part →
      part ≠ dotDot →
      Resolved rooted stack →
      Resolved rooted (part :: stack)

theorem dotDot_proper : Proper dotDot where
  nonempty := by decide
  notDot := by decide
  noSlash := by decide

namespace Resolved

/-- Every resolved component is proper. -/
theorem proper
    {rooted : Bool}
    {stack : List Component}
    (resolved : Resolved rooted stack) :
    ∀ part ∈ stack, Proper part := by
  induction resolved with
  | nil =>
      simp
  | up _ _ _ inductionHypothesis =>
      intro part member
      rcases List.mem_cons.mp member with isHead | inRest
      · subst part
        exact dotDot_proper
      · exact inductionHypothesis part inRest
  | name headProper _ _ inductionHypothesis =>
      intro part member
      rcases List.mem_cons.mp member with isHead | inRest
      · subst part
        exact headProper
      · exact inductionHypothesis part inRest

/-- Pushing a slash-free component keeps the stack resolved. -/
theorem push
    {rooted : Bool}
    {stack : List Component}
    {part : Component}
    (resolved : Resolved rooted stack)
    (noSlash : '/' ∉ part) :
    Resolved rooted (push rooted stack part) := by
  unfold UnixPath.push
  by_cases skipped : part = [] ∨ part = dot
  · simpa [skipped] using resolved
  · rw [if_neg skipped]
    by_cases isUp : part = dotDot
    · rw [if_pos isUp]
      cases resolved with
      | nil =>
          cases rooted with
          | true =>
              exact .nil
          | false =>
              exact .up rfl .nil (by simp)
      | up relative restResolved allUp =>
          simp only [↓reduceIte]
          refine .up relative (.up relative restResolved allUp) ?_
          intro item member
          rcases List.mem_cons.mp member with isHead | inRest
          · exact isHead
          · exact allUp item inRest
      | name _ notUp restResolved =>
          simpa [notUp] using restResolved
    · rw [if_neg isUp]
      push Not at skipped
      exact .name ⟨skipped.1, skipped.2, noSlash⟩ isUp resolved

/-- Pushing many slash-free components keeps the stack resolved. -/
theorem foldl
    {rooted : Bool}
    {parts stack : List Component}
    (resolved : Resolved rooted stack)
    (noSlash : ∀ part ∈ parts, '/' ∉ part) :
    Resolved rooted (parts.foldl (UnixPath.push rooted) stack) := by
  induction parts generalizing stack with
  | nil =>
      exact resolved
  | cons part rest inductionHypothesis =>
      exact inductionHypothesis
        (resolved.push (noSlash part (by simp)))
        fun later member => noSlash later (by simp [member])

/-- Resolving resolved components again changes nothing. -/
theorem foldl_reverse
    {rooted : Bool}
    {stack : List Component}
    (resolved : Resolved rooted stack) :
    stack.reverse.foldl (UnixPath.push rooted) [] = stack := by
  induction resolved with
  | nil =>
      rfl
  | @up stack relative restResolved allUp inductionHypothesis =>
      rw [List.reverse_cons, List.foldl_append, inductionHypothesis]
      cases stack with
      | nil =>
          simp [UnixPath.push, relative, dotDot, dot]
      | cons top rest =>
          have topUp : top = dotDot := allUp top (by simp)
          subst top
          simp [UnixPath.push, dotDot, dot]
  | name headProper notUp _ inductionHypothesis =>
      rw [List.reverse_cons, List.foldl_append, inductionHypothesis]
      simp [UnixPath.push, headProper.nonempty, headProper.notDot, notUp]

end Resolved

/-- Pushing proper names only stacks them. -/
theorem foldl_push_names
    {rooted : Bool}
    {parts stack : List Component}
    (proper : ∀ part ∈ parts, Proper part)
    (noUp : dotDot ∉ parts) :
    parts.foldl (push rooted) stack = parts.reverse ++ stack := by
  induction parts generalizing stack with
  | nil =>
      rfl
  | cons part rest inductionHypothesis =>
      have headProper : Proper part := proper part (by simp)
      have headNotUp : part ≠ dotDot := by
        intro isUp
        exact noUp (by simp [isUp])
      have pushed : push rooted stack part = part :: stack := by
        simp [push, headProper.nonempty, headProper.notDot, headNotUp]
      rw [List.foldl_cons, pushed,
        inductionHypothesis
          (fun later member => proper later (by simp [member]))
          (fun member => noUp (by simp [member]))]
      simp

/-- The pieces of a text that is split at a separator do not contain it. -/
theorem notMem_of_mem_splitOn
    {separator : Char}
    {text part : List Char}
    (member : part ∈ text.splitOn separator) :
    separator ∉ part := by
  induction text generalizing part with
  | nil =>
      simp only [List.splitOn_nil, List.mem_singleton] at member
      simp [member]
  | cons head rest inductionHypothesis =>
      rw [List.splitOn_cons_eq_if_modifyHead] at member
      split at member
      · rcases List.mem_cons.mp member with isHead | inRest
        · simp [isHead]
        · exact inductionHypothesis inRest
      · rename_i notSeparator
        cases split : rest.splitOn separator with
        | nil =>
            simp [split] at member
        | cons first others =>
            rw [split, List.modifyHead_cons] at member
            rcases List.mem_cons.mp member with isHead | inRest
            · subst part
              have firstClear : separator ∉ first :=
                inductionHypothesis (by simp [split])
              simp only [beq_iff_eq] at notSeparator
              simp only [List.mem_cons, not_or]
              exact ⟨fun same => notSeparator same.symm, firstClear⟩
            · exact inductionHypothesis (by simp [split, inRest])

/-- The component form of a path is resolved. -/
theorem lexical_resolved (path : String) :
    Resolved (lexical path).rooted (lexical path).parts.reverse := by
  simp only [lexical, resolve, List.reverse_reverse]
  exact Resolved.nil.foldl fun _ member =>
    notMem_of_mem_splitOn member

/-- Every component of a component form is proper. -/
theorem lexical_proper
    {path : String}
    {part : Component}
    (member : part ∈ (lexical path).parts) :
    Proper part :=
  (lexical_resolved path).proper part (by simpa using member)

/-- Splitting joined proper components gives them back. -/
theorem splitOn_joinParts
    {parts : List Component}
    (proper : ∀ part ∈ parts, Proper part)
    (nonempty : parts ≠ []) :
    (joinParts parts).splitOn '/' = parts :=
  List.splitOn_intercalate '/'
    (fun part member => (proper part member).noSlash) nonempty

/-- A nonempty join of proper components starts with a non-slash. -/
theorem head?_joinParts
    {parts : List Component}
    (proper : ∀ part ∈ parts, Proper part) :
    (joinParts parts).head? ≠ some '/' := by
  cases parts with
  | nil =>
      simp [joinParts]
  | cons first rest =>
      have firstProper : Proper first := proper first (by simp)
      cases first with
      | nil =>
          exact (firstProper.nonempty rfl).elim
      | cons character tail =>
          have notSlash : character ≠ '/' := by
            intro same
            exact firstProper.noSlash (by simp [same])
          cases rest <;> simpa [joinParts, List.intercalate] using notSlash

/-- Resolution ignores a leading empty component. -/
theorem resolve_nil_cons (rooted : Bool) (parts : List Component) :
    resolve rooted ([] :: parts) = resolve rooted parts := by
  simp [resolve, push]

/-- Resolving the components of a component form changes nothing. -/
theorem resolve_lexical (path : String) :
    resolve (lexical path).rooted (lexical path).parts =
      (lexical path).parts := by
  have fixed := (lexical_resolved path).foldl_reverse
  rw [List.reverse_reverse] at fixed
  rw [resolve, fixed, List.reverse_reverse]

/-- Cleaning a path keeps its component form. -/
theorem lexical_clean (path : String) :
    lexical (clean path) = lexical path := by
  have proper : ∀ part ∈ (lexical path).parts, Proper part :=
    fun _ member => lexical_proper member
  have fixed := resolve_lexical path
  simp only [clean]
  generalize lexical path = form at proper fixed
  rcases form with ⟨rooted, parts⟩
  simp only at proper fixed
  cases rooted with
  | true =>
      by_cases empty : parts = []
      · subst parts
        decide
      · simp [lexical, Lexical.render, List.splitOn_cons_eq_if_modifyHead,
          resolve_nil_cons, splitOn_joinParts proper empty, fixed]
  | false =>
      by_cases empty : parts = []
      · subst parts
        decide
      · have notRooted :
            ((joinParts parts).head? == some '/') = false := by
          simpa using head?_joinParts proper
        simp [lexical, Lexical.render, empty, notRooted,
          splitOn_joinParts proper empty, fixed]

/-- Joining names to a nonempty directory appends them to its components. -/
theorem lexical_join_names
    {directory : String}
    {names : List Component}
    (directoryNonempty : directory ≠ "")
    (namesNonempty : names ≠ [])
    (proper : ∀ part ∈ names, Proper part)
    (noUp : dotDot ∉ names) :
    lexical (join [directory, String.ofList (joinParts names)]) =
      { rooted := (lexical directory).rooted
        parts := (lexical directory).parts ++ names } := by
  have charsNonempty : directory.toList ≠ [] := by
    intro empty
    exact directoryNonempty (String.toList_eq_nil_iff.mp empty)
  have sameHead :
      (directory.toList ++ '/' :: joinParts names).head? =
        directory.toList.head? := by
    cases directoryChars : directory.toList with
    | nil =>
        exact (charsNonempty directoryChars).elim
    | cons character rest =>
        simp
  rw [join, if_neg directoryNonempty, lexical_clean]
  simp only [lexical, String.toList_ofList, List.map_cons, List.map_nil,
    joinParts, List.intercalate_cons_cons, List.intercalate_singleton,
    List.append_assoc, List.singleton_append]
  rw [show ['/'].intercalate names = joinParts names from rfl, sameHead,
    List.splitOn_append_cons_self,
    splitOn_joinParts proper namesNonempty]
  simp only [resolve, List.foldl_append, foldl_push_names proper noUp,
    List.reverse_append, List.reverse_reverse]

/-- A list and its own continuation share exactly the list. -/
theorem stripCommon_append (parts rest : List Component) :
    stripCommon parts (parts ++ rest) = ([], rest) := by
  induction parts with
  | nil =>
      cases rest <;> rfl
  | cons part others inductionHypothesis =>
      simpa [stripCommon] using inductionHypothesis

/-- The components by which a path continues a directory above it. -/
theorem StrictlyBelow.parts_eq
    {directory path : String}
    (below : StrictlyBelow directory path) :
    (lexical path).parts =
      (lexical directory).parts ++
        (lexical path).parts.drop (lexical directory).parts.length := by
  obtain ⟨rest, shape⟩ := below.2.1
  rw [← shape, List.drop_left]

/-- Below a directory, `rel` is the slash-joined continuation. -/
theorem rel_of_strictlyBelow
    {directory path : String}
    (below : StrictlyBelow directory path) :
    rel directory path =
      .ok (String.ofList (joinParts
        ((lexical path).parts.drop
          (lexical directory).parts.length))) := by
  have different : lexical directory ≠ lexical path := by
    intro same
    exact below.2.2.1 (by simp [same])
  have sameRoot : ¬ (lexical directory).rooted ≠ (lexical path).rooted := by
    simp [below.1]
  have stripped :
      stripCommon (lexical directory).parts (lexical path).parts =
        ([], (lexical path).parts.drop
          (lexical directory).parts.length) := by
    conv_lhs => rw [below.parts_eq]
    exact stripCommon_append _ _
  simp only [rel]
  rw [if_neg different, if_neg sameRoot, stripped]
  simp

/--
Re-rooting a path from one directory to another keeps it strictly below: the
path reached from `target` by the way from `source` down to `path` is a proper
descendant of the cleaned target directory.
-/
theorem strictlyBelow_join_rel
    {source target path : String}
    (targetNonempty : target ≠ "")
    (below : StrictlyBelow source path) :
    ∃ relative,
      rel source path = .ok relative ∧
        StrictlyBelow (clean target) (join [target, relative]) := by
  refine ⟨_, rel_of_strictlyBelow below, ?_⟩
  obtain ⟨_, _, nonempty, noUp⟩ := below
  have shape :=
    lexical_join_names targetNonempty nonempty
      (fun _ member => lexical_proper (List.mem_of_mem_drop member)) noUp
  refine ⟨?_, ?_, ?_, ?_⟩
  · rw [shape, lexical_clean]
  · rw [shape, lexical_clean]
    exact List.prefix_append _ _
  · rw [shape, lexical_clean, List.drop_left]
    exact nonempty
  · rw [shape, lexical_clean, List.drop_left]
    exact noUp

end UnixPath
