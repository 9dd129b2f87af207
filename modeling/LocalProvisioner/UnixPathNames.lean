import LocalProvisioner.UnixPath
import Mathlib.Algebra.GroupWithZero.Nat

namespace UnixPath

/-!
# Directory entries and the spelling of directories

What `join` makes of a directory and the name of one of its entries: the
component form, the way back by `rel`, and the text.  The text starts with the
cleaned directory, so a directory that is not spelled the way `clean` spells
it need not be a textual prefix of the paths of its own entries.
-/

/-- The name of a directory entry. -/
structure EntryName (name : String) : Prop where
  nonempty : name ≠ ""
  notDot : name ≠ "."
  notUp : name ≠ ".."
  noSlash : '/' ∉ name.toList

/-- A text without a slash is one component. -/
theorem splitOn_of_noSlash
    {text : List Char}
    (noSlash : '/' ∉ text) :
    text.splitOn '/' = [text] := by
  have joined : (['/'].intercalate [text]).splitOn '/' = [text] :=
    List.splitOn_intercalate '/' (by simpa using noSlash) (by simp)
  simpa using joined

/-- A text without a slash does not start at the root. -/
theorem head?_of_noSlash
    {text : List Char}
    (noSlash : '/' ∉ text) :
    (text.head? == some '/') = false := by
  cases text with
  | nil => rfl
  | cons first rest =>
      have notSlash : first ≠ '/' := by
        rintro rfl
        exact noSlash (by simp)
      simpa using notSlash

namespace EntryName

variable {name : String}

/-- The name of an entry is a component that survives resolution. -/
theorem proper (entry : EntryName name) : Proper name.toList where
  nonempty := by
    intro empty
    exact entry.nonempty (String.toList_eq_nil_iff.mp empty)
  notDot := by
    intro isDot
    exact entry.notDot (String.toList_inj.mp isDot)
  noSlash := entry.noSlash

/-- The name of an entry does not lead up. -/
theorem toList_ne_dotDot (entry : EntryName name) : name.toList ≠ dotDot := by
  intro isUp
  exact entry.notUp (String.toList_inj.mp isUp)

/-- The name of an entry is a relative path of one component. -/
theorem lexical_eq (entry : EntryName name) :
    lexical name = { rooted := false, parts := [name.toList] } := by
  rw [lexical, head?_of_noSlash entry.noSlash,
    splitOn_of_noSlash entry.noSlash]
  simp [resolve, push, entry.proper.nonempty, entry.proper.notDot,
    entry.toList_ne_dotDot]

end EntryName

/-- Joining an entry to a directory, be it empty, appends one component. -/
theorem lexical_join_name
    (directory : String)
    {name : String}
    (entry : EntryName name) :
    lexical (join [directory, name]) =
      { rooted := (lexical directory).rooted
        parts := (lexical directory).parts ++ [name.toList] } := by
  by_cases empty : directory = ""
  · subst directory
    have joined : join ["", name] = clean name := by
      simp [join, entry.nonempty, joinParts]
    rw [joined, lexical_clean, entry.lexical_eq]
    rfl
  · have joined :=
      @lexical_join_names directory [name.toList] empty (by simp)
        (by simpa using entry.proper)
        (by simpa using Ne.symm entry.toList_ne_dotDot)
    have single : String.ofList (joinParts [name.toList]) = name := by
      simp [joinParts]
    rwa [single] at joined

/-- The way from a directory to one of its entries is the entry's name. -/
theorem rel_join_name
    (directory : String)
    {name : String}
    (entry : EntryName name) :
    rel directory (join [directory, name]) = .ok name := by
  have below : StrictlyBelow directory (join [directory, name]) := by
    rw [StrictlyBelow, lexical_join_name directory entry]
    simpa using Ne.symm entry.toList_ne_dotDot
  rw [rel_of_strictlyBelow below, lexical_join_name directory entry]
  simp [joinParts]

section Length

/-- The length of some components, each with a slash. -/
def weight (parts : List Component) : Nat :=
  (parts.map fun part => part.length + 1).sum

/-- Pushing a component adds at most its own length. -/
theorem weight_push_le
    (rooted : Bool)
    (stack : List Component)
    (part : Component) :
    weight (push rooted stack part) ≤ weight stack + (part.length + 1) := by
  unfold push
  by_cases skipped : part = [] ∨ part = dot
  · simp [skipped]
  · rw [if_neg skipped]
    by_cases isUp : part = dotDot
    · subst part
      rw [if_pos rfl]
      cases stack with
      | nil => cases rooted <;> simp [weight]
      | cons top rest =>
          by_cases topUp : top = dotDot
          · simp [topUp, weight]
            omega
          · simp [topUp, weight]
            omega
    · simp [isUp, weight]
      omega

/-- Resolving components does not make them longer. -/
theorem weight_foldl_push_le
    (rooted : Bool)
    (parts stack : List Component) :
    weight (parts.foldl (push rooted) stack) ≤ weight stack + weight parts := by
  induction parts generalizing stack with
  | nil => simp [weight]
  | cons part rest inductionHypothesis =>
      have first := weight_push_le rooted stack part
      have others := inductionHypothesis (push rooted stack part)
      simp only [List.foldl_cons]
      simp only [weight, List.map_cons, List.sum_cons] at first others ⊢
      omega

/-- Resolving components does not make them longer. -/
theorem weight_resolve_le (rooted : Bool) (parts : List Component) :
    weight (resolve rooted parts) ≤ weight parts := by
  have bound := weight_foldl_push_le rooted parts []
  simpa [resolve, weight, List.sum_reverse] using bound

/-- Joined components have a slash less than components. -/
theorem length_joinParts
    {parts : List Component}
    (nonempty : parts ≠ []) :
    (joinParts parts).length + 1 = weight parts := by
  induction parts with
  | nil => exact (nonempty rfl).elim
  | cons part rest inductionHypothesis =>
      cases rest with
      | nil => simp [joinParts, weight]
      | cons next others =>
          have tail := inductionHypothesis (by simp)
          simp only [joinParts, List.intercalate_cons_cons, weight,
            List.map_cons, List.sum_cons, List.length_append,
            List.length_singleton] at tail ⊢
          omega

/-- The pieces of a split path are as long as the path. -/
theorem weight_splitOn (path : List Char) :
    weight (path.splitOn '/') = path.length + 1 := by
  rw [← length_joinParts (List.splitOn_ne_nil '/' path), joinParts,
    List.intercalate_splitOn]

/-- Rendering writes a slash less than components, and one for the root. -/
theorem length_render
    (form : Lexical)
    (nonempty : form.parts ≠ []) :
    form.render.length + 1 = weight form.parts + form.rooted.toNat := by
  rw [← length_joinParts nonempty]
  cases rooted : form.rooted <;> simp [Lexical.render, rooted, nonempty]

/-- The component form of a path is not longer than the path. -/
theorem weight_lexical_le (path : String) :
    weight (lexical path).parts + (lexical path).rooted.toNat ≤
      path.toList.length + 1 := by
  simp only [lexical]
  cases rooted : path.toList.head? == some '/' with
  | false =>
      have bound := weight_resolve_le false (path.toList.splitOn '/')
      rwa [weight_splitOn] at bound
  | true =>
      obtain ⟨rest, shape⟩ : ∃ rest, path.toList = '/' :: rest := by
        simpa [List.head?_eq_some_iff] using rooted
      -- The slash at the front splits off an empty component.
      have bound := weight_resolve_le true (rest.splitOn '/')
      rw [weight_splitOn] at bound
      simpa [shape, List.splitOn_cons_eq_if_modifyHead, resolve_nil_cons]
        using bound

/-- Cleaning a path does not make it longer. -/
theorem length_render_lexical_le
    {path : String}
    (nonempty : path ≠ "") :
    (lexical path).render.length ≤ path.toList.length := by
  have charsNonempty : 0 < path.toList.length :=
    List.length_pos_iff.mpr fun empty =>
      nonempty (String.toList_eq_nil_iff.mp empty)
  by_cases empty : (lexical path).parts = []
  · have short : (lexical path).render.length = 1 := by
      cases rooted : (lexical path).rooted <;>
        simp [Lexical.render, rooted, empty, joinParts, dot]
    omega
  · have rendered := length_render (lexical path) empty
    have bound := weight_lexical_le path
    omega

end Length

section Spelling

/-- What `join` writes in front of the name of an entry. -/
def stem (directory : String) : List Char :=
  if (lexical directory).parts = [] then
    if (lexical directory).rooted then ['/'] else []
  else
    (lexical directory).render ++ ['/']

/-- One more component is joined by one more slash. -/
theorem joinParts_concat
    {parts : List Component}
    (nonempty : parts ≠ [])
    (part : Component) :
    joinParts (parts ++ [part]) = joinParts parts ++ '/' :: part := by
  induction parts with
  | nil => exact (nonempty rfl).elim
  | cons first rest inductionHypothesis =>
      cases rest with
      | nil => simp [joinParts, List.intercalate]
      | cons next others =>
          have tail := inductionHypothesis (by simp)
          simp only [joinParts, List.cons_append,
            List.intercalate_cons_cons] at tail ⊢
          rw [tail]
          simp

/-- The text of the path of an entry. -/
theorem toList_join_name
    (directory : String)
    {name : String}
    (entry : EntryName name) :
    (join [directory, name]).toList = stem directory ++ name.toList := by
  have cleaned :
      (join [directory, name]).toList =
        (lexical (join [directory, name])).render := by
    have isClean : ∃ path, join [directory, name] = clean path := by
      by_cases empty : directory = ""
      · exact ⟨String.ofList (joinParts [name.toList]),
          by simp [join, empty, entry.nonempty]⟩
      · exact ⟨String.ofList (joinParts [directory.toList, name.toList]),
          by simp [join, empty]⟩
    obtain ⟨path, joined⟩ := isClean
    rw [joined, lexical_clean]
    simp [clean]
  rw [cleaned, lexical_join_name directory entry, stem]
  by_cases empty : (lexical directory).parts = []
  · cases rooted : (lexical directory).rooted <;>
      simp [Lexical.render, empty, joinParts]
  · cases rooted : (lexical directory).rooted <;>
      simp [Lexical.render, rooted, empty, joinParts_concat empty]

/-- Pushing leaves resolved components alone only for `.` or at the root. -/
theorem push_eq_self_iff
    (rooted : Bool)
    (stack : List Component)
    (part : Component) :
    push rooted stack part = stack ↔
      part = [] ∨ part = dot ∨
        part = dotDot ∧ rooted = true ∧ stack = [] := by
  unfold push
  by_cases skipped : part = [] ∨ part = dot
  · rw [if_pos skipped]
    tauto
  · rw [if_neg skipped]
    by_cases isUp : part = dotDot
    · subst part
      cases stack with
      | nil => cases rooted <;> simp [dotDot, dot]
      | cons top rest =>
          by_cases topUp : top = dotDot
          · simp [topUp, dotDot, dot]
          · simp only [if_neg topUp]
            simp [dotDot, dot]
    · simp [isUp]
      tauto

/-- The component form of a text. -/
theorem lexical_ofList (text : List Char) :
    lexical (String.ofList text) =
      { rooted := text.head? == some '/'
        parts := resolve (text.head? == some '/') (text.splitOn '/') } := by
  simp [lexical]

/-- Behind a text and a slash, a component is pushed. -/
theorem lexical_append_slash
    {leading text : List Char}
    (nonempty : leading ≠ [])
    (noSlash : '/' ∉ text) :
    lexical (String.ofList (leading ++ '/' :: text)) =
      { rooted := (lexical (String.ofList leading)).rooted
        parts :=
          (push (lexical (String.ofList leading)).rooted
            (lexical (String.ofList leading)).parts.reverse text).reverse } := by
  have sameHead : (leading ++ '/' :: text).head? = leading.head? := by
    cases leading with
    | nil => exact (nonempty rfl).elim
    | cons first rest => rfl
  rw [lexical_ofList, lexical_ofList, sameHead,
    List.splitOn_append_cons_self, splitOn_of_noSlash noSlash]
  simp [resolve]

/-- The cleaned spelling has the component form it was rendered from. -/
theorem lexical_render (directory : String) :
    lexical (String.ofList (lexical directory).render) = lexical directory :=
  lexical_clean directory

/-- Writing a slash-free text behind the stem pushes it. -/
theorem lexical_stem_append
    (directory : String)
    {text : List Char}
    (noSlash : '/' ∉ text) :
    lexical (String.ofList (stem directory ++ text)) =
      { rooted := (lexical directory).rooted
        parts :=
          (push (lexical directory).rooted (lexical directory).parts.reverse
            text).reverse } := by
  have split := splitOn_of_noSlash noSlash
  have rendered := lexical_render directory
  by_cases empty : (lexical directory).parts = []
  · rw [stem, if_pos empty, lexical_ofList, empty]
    cases (lexical directory).rooted with
    | true =>
        simp [resolve, push, split, List.splitOn_cons_eq_if_modifyHead]
    | false => simp [resolve, split, head?_of_noSlash noSlash]
  · have nonempty : (lexical directory).render ≠ [] := by
      intro nothing
      rw [nothing] at rendered
      exact empty (congrArg Lexical.parts rendered.symm)
    rw [stem, if_neg empty, List.append_assoc, List.singleton_append,
      lexical_append_slash nonempty noSlash, rendered]

/-- A directory that continues its own stem does so by dots. -/
theorem continues_stem
    {directory : String}
    {text : List Char}
    (noSlash : '/' ∉ text)
    (shape : directory.toList = stem directory ++ text) :
    text = [] ∨ text = dot ∨ text = dotDot ∧ stem directory = ['/'] := by
  have pushed := lexical_stem_append directory noSlash
  rw [← shape, String.ofList_toList] at pushed
  have unchanged := congrArg (fun form => form.parts.reverse) pushed
  simp only [List.reverse_reverse] at unchanged
  rcases (push_eq_self_iff _ _ _).mp unchanged.symm with
    isEmpty | isDot | ⟨isUp, rooted, noParts⟩
  · exact .inl isEmpty
  · exact .inr (.inl isDot)
  · have empty : (lexical directory).parts = [] := by
      simpa using noParts
    exact .inr (.inr ⟨isUp, by simp [stem, empty, rooted]⟩)

/-- A directory that is part of its own stem is cleaned already. -/
theorem part_of_stem
    {directory : String}
    (nonempty : directory ≠ "")
    (leads : directory.toList <+: stem directory) :
    directory.toList = stem directory ∨
      directory.toList = (lexical directory).render ∧
        directory.toList ≠ dot := by
  by_cases empty : (lexical directory).parts = []
  · left
    have short : (stem directory).length ≤ directory.toList.length := by
      have charsNonempty : 0 < directory.toList.length :=
        List.length_pos_iff.mpr fun noChars =>
          nonempty (String.toList_eq_nil_iff.mp noChars)
      have atMostOne : (stem directory).length ≤ 1 := by
        cases rooted : (lexical directory).rooted <;>
          simp [stem, empty, rooted]
      omega
    exact leads.eq_of_length_le short
  · rw [stem, if_neg empty, List.prefix_concat_iff] at leads
    rcases leads with whole | shorter
    · left
      rw [stem, if_neg empty]
      exact whole
    · right
      refine ⟨shorter.eq_of_length_le (length_render_lexical_le nonempty), ?_⟩
      intro isDot
      have current : directory = "." := String.toList_inj.mp isDot
      subst directory
      exact empty (by decide)

/--
A directory is a textual prefix of the path of an entry exactly if it is
spelled the way `clean` spells it, up to one slash at the end, or the entry's
name makes up for a dot or for two dots at the root.
-/
theorem prefix_join_name_iff
    {directory name : String}
    (nonempty : directory ≠ "")
    (entry : EntryName name) :
    directory.toList <+: (join [directory, name]).toList ↔
      directory.toList = (lexical directory).render ∧
          directory.toList ≠ dot ∨
        directory.toList = stem directory ∨
        directory.toList = stem directory ++ dot ∧ dot <+: name.toList ∨
        directory.toList = '/' :: dotDot ∧ dotDot <+: name.toList := by
  rw [toList_join_name directory entry]
  constructor
  · intro leads
    have comparable :=
      List.prefix_or_prefix_of_prefix leads (List.prefix_append _ name.toList)
    rcases comparable with inside | ⟨text, shape⟩
    · rcases part_of_stem nonempty inside with whole | cleaned
      · exact .inr (.inl whole)
      · exact .inl cleaned
    · rw [← shape, List.prefix_append_right_inj] at leads
      have noSlash : '/' ∉ text := fun member =>
        entry.noSlash (leads.subset member)
      rcases continues_stem noSlash shape.symm with
        rfl | rfl | ⟨rfl, atRoot⟩
      · exact .inr (.inl (by simpa using shape.symm))
      · exact .inr (.inr (.inl ⟨shape.symm, leads⟩))
      · rw [atRoot] at shape
        exact .inr (.inr (.inr ⟨shape.symm, leads⟩))
  · rintro (⟨cleaned, notDot⟩ | whole | ⟨dotted, leads⟩ | ⟨upAtRoot, leads⟩)
    · have inside : directory.toList <+: stem directory := by
        by_cases empty : (lexical directory).parts = []
        · cases rooted : (lexical directory).rooted with
          | true =>
              rw [cleaned]
              simp [Lexical.render, stem, empty, rooted, joinParts]
          | false =>
              rw [cleaned] at notDot
              simp [Lexical.render, empty, rooted] at notDot
        · rw [stem, if_neg empty, ← cleaned]
          exact List.prefix_append _ _
      exact inside.trans (List.prefix_append _ _)
    · rw [← whole]
      exact List.prefix_append _ _
    · rw [dotted]
      exact (List.prefix_append_right_inj _).mpr leads
    · have root : directory = "/.." := String.toList_inj.mp upAtRoot
      subst directory
      have atRoot : stem "/.." = ['/'] := by
        decide
      rw [atRoot]
      exact List.cons_prefix_cons.mpr ⟨rfl, leads⟩

end Spelling

end UnixPath
