import Mathlib.Data.List.Infix

namespace WatchStream

/-!
# Followers of a watched object

A server keeps at most one version of an object and tells its followers of
every change, in order.  A follower shows the last version it has been told
of; the rest is on its way.

Some versions are stale: whoever sees one acts on it.  `InStep` says what a
stale version in the stream of a follower means for the server.  It is either
followed by a deletion, and then the server has no version, or it is not, and
then the version of the server is settled.  While the server has none, a stale
version can only be the one that is shown, or one before the first deletion.
-/

variable {Version : Type}

/-- A stream without stale versions; `none` stands for a deletion. -/
def Quiet (stale : Version → Prop) (stream : List (Option Version)) : Prop :=
  ∀ version, some version ∈ stream → ¬ stale version

/-- Parts of a quiet stream are quiet. -/
theorem Quiet.suffix
    {stale : Version → Prop}
    {stream later : List (Option Version)}
    (quiet : Quiet stale stream)
    (suffix : later <:+ stream) :
    Quiet stale later :=
  fun version member => quiet version (suffix.subset member)

/-- What a follower shows, and what it has yet to be told. -/
structure View (Version : Type) where
  shown : Option Version
  coming : List (Option Version)

namespace View

/-- All that a follower shows, now and later. -/
def stream (view : View Version) : List (Option Version) :=
  match view.shown with
  | none => view.coming
  | some version => some version :: view.coming

/-- The server reports a change. -/
def tell (view : View Version) (news : Option Version) : View Version :=
  { view with coming := view.coming ++ [news] }

/-- A follower that starts from the version of the server. -/
def fresh (server : Option Version) : View Version where
  shown := none
  coming := (server.map some).toList

theorem stream_tell (view : View Version) (news : Option Version) :
    (view.tell news).stream = view.stream ++ [news] := by
  obtain ⟨shown, coming⟩ := view
  cases shown <;> rfl

/--
A follower takes the first news in.  It may ignore a version of an object that
it does not show.
-/
structure Delivered (view later : View Version) : Prop where
  taken : ∃ news, view.coming = news :: later.coming ∧
    (later.shown = news ∨ view.shown = none ∧ later.shown = none)

/-- Taking news in leaves the rest of the stream. -/
theorem Delivered.stream_suffix
    {view later : View Version}
    (delivered : Delivered view later) :
    later.stream <:+ view.stream := by
  obtain ⟨⟨news, shape, shows | ⟨unseen, ignored⟩⟩⟩ := delivered
  · have passed : news :: later.coming <:+ view.stream := by
      unfold stream
      rw [shape]
      split
      · exact List.suffix_rfl
      · exact List.suffix_cons _ _
    refine List.IsSuffix.trans ?_ passed
    unfold stream
    rw [shows]
    cases news with
    | none => exact List.suffix_cons _ _
    | some version => exact List.suffix_rfl
  · unfold stream
    rw [unseen, ignored, shape]
    exact List.suffix_cons _ _

end View

/-- Where an element of an extended stream stands. -/
theorem suffix_concat_cases
    {stream later : List (Option Version)}
    {element news : Option Version}
    (suffix : element :: later <:+ stream ++ [news]) :
    (element = news ∧ later = []) ∨
      ∃ before, later = before ++ [news] ∧ element :: before <:+ stream := by
  rcases List.suffix_concat_iff.mp suffix with empty | ⟨front, shape, inside⟩
  · cases empty
  · cases front with
    | nil =>
        cases shape
        exact .inl ⟨rfl, rfl⟩
    | cons first before =>
        cases shape
        exact .inr ⟨before, rfl, inside⟩

/-- What stale versions in the stream of a follower mean for the server. -/
structure InStep
    (stale settled : Version → Prop)
    (server : Option Version)
    (view : View Version) : Prop where
  deleted :
    ∀ version later,
      some version :: later <:+ view.stream →
      stale version →
      none ∈ later →
      server = none
  kept :
    ∀ version later,
      some version :: later <:+ view.stream →
      stale version →
      none ∉ later →
      ∃ current, server = some current ∧ settled current
  unseen :
    server = none →
    view.shown = none →
    Quiet stale view.stream
  beyond :
    server = none →
    ∀ later, none :: later <:+ view.stream → Quiet stale later

namespace InStep

variable {stale settled : Version → Prop}
variable {server : Option Version}
variable {view later : View Version}

/-- Taking news in. -/
theorem delivered
    (inStep : InStep stale settled server view)
    (delivered : View.Delivered view later) :
    InStep stale settled server later := by
  have suffix := delivered.stream_suffix
  refine ⟨?_, ?_, ?_, ?_⟩
  · intro version rest inside
    exact inStep.deleted version rest (inside.trans suffix)
  · intro version rest inside
    exact inStep.kept version rest (inside.trans suffix)
  · intro absent unseen
    cases shown : view.shown with
    | none => exact (inStep.unseen absent shown).suffix suffix
    | some version =>
        -- the shown version has gone, so the news was a deletion
        obtain ⟨⟨news, shape, shows | ⟨unshown, _⟩⟩⟩ := delivered
        · have isDeletion : news = none := shows.symm.trans unseen
          have rest : later.stream = later.coming := by
            simp [View.stream, unseen]
          rw [rest]
          refine inStep.beyond absent _ ?_
          simp only [View.stream, shown, shape, isDeletion]
          exact List.suffix_cons _ _
        · rw [shown] at unshown
          cases unshown
  · intro absent rest inside
    exact inStep.beyond absent rest (inside.trans suffix)

/-- The server replaces its version. -/
theorem updated
    {current version : Version}
    (inStep : InStep stale settled (some current) view)
    (stays : settled current → settled version)
    (fresh : stale version → settled version) :
    InStep stale settled (some version) (view.tell (some version)) := by
  refine ⟨?_, ?_, by rintro ⟨⟩, by rintro ⟨⟩⟩
  · intro old rest inside isStale removed
    rw [View.stream_tell] at inside
    rcases suffix_concat_cases inside with ⟨_, rfl⟩ | ⟨before, rfl, within⟩
    · cases removed
    · have earlier : none ∈ before := by simpa using removed
      cases inStep.deleted old before within isStale earlier
  · intro old rest inside isStale notRemoved
    rw [View.stream_tell] at inside
    refine ⟨version, rfl, ?_⟩
    rcases suffix_concat_cases inside with ⟨same, rfl⟩ | ⟨before, rfl, within⟩
    · cases same
      exact fresh isStale
    · have notEarlier : none ∉ before := by simpa using notRemoved
      obtain ⟨_, same, isSettled⟩ :=
        inStep.kept old before within isStale notEarlier
      cases same
      exact stays isSettled

/-- The server takes a first version in while nobody sees a stale one. -/
theorem created
    {version : Version}
    (quiet : Quiet stale view.stream)
    (fresh : stale version → settled version) :
    InStep stale settled (some version) (view.tell (some version)) := by
  have isLast :
      ∀ old rest,
        some old :: rest <:+ (view.tell (some version)).stream →
        stale old →
        old = version ∧ rest = [] := by
    intro old rest inside isStale
    rw [View.stream_tell] at inside
    rcases suffix_concat_cases inside with ⟨same, rfl⟩ | ⟨before, rfl, within⟩
    · cases same
      exact ⟨rfl, rfl⟩
    · exact (quiet old (within.subset List.mem_cons_self) isStale).elim
  refine ⟨?_, ?_, by rintro ⟨⟩, by rintro ⟨⟩⟩
  · intro old rest inside isStale removed
    obtain ⟨_, rfl⟩ := isLast old rest inside isStale
    cases removed
  · intro old rest inside isStale _
    obtain ⟨rfl, _⟩ := isLast old rest inside isStale
    exact ⟨old, rfl, fresh isStale⟩

/-- Every version of a stream that ends in a deletion precedes one. -/
theorem none_mem_of_tell
    {version : Version}
    {rest : List (Option Version)}
    (inside : some version :: rest <:+ (view.tell none).stream) :
    none ∈ rest := by
  rw [View.stream_tell] at inside
  rcases suffix_concat_cases inside with ⟨same, _⟩ | ⟨before, rfl, _⟩
  · cases same
  · simp

/-- The server removes a version of which nobody sees a stale one. -/
theorem removed_quiet (quiet : Quiet stale view.stream) :
    InStep stale settled none (view.tell none) := by
  have stillQuiet : Quiet stale (view.tell none).stream := by
    intro version member
    rw [View.stream_tell] at member
    exact quiet version (by simpa using member)
  refine ⟨?_, ?_, ?_, ?_⟩
  · intro _ _ _ _ _
    rfl
  · intro version rest inside _ notRemoved
    exact (notRemoved (none_mem_of_tell inside)).elim
  · intro _ _
    exact stillQuiet
  · intro _ rest inside
    exact stillQuiet.suffix ((List.suffix_cons _ _).trans inside)

/-- The server removes the version that is shown, or a later one of it. -/
theorem removed_shown
    (shows : view.shown ≠ none)
    (undeleted : none ∉ view.coming) :
    InStep stale settled none (view.tell none) := by
  have inStream : none ∉ view.stream := by
    unfold View.stream
    split
    · exact undeleted
    · simpa using undeleted
  refine ⟨?_, ?_, ?_, ?_⟩
  · intro _ _ _ _ _
    rfl
  · intro version rest inside _ notRemoved
    exact (notRemoved (none_mem_of_tell inside)).elim
  · intro _ unseen
    exact (shows unseen).elim
  · intro _ rest inside
    rw [View.stream_tell] at inside
    rcases suffix_concat_cases inside with ⟨_, rfl⟩ | ⟨before, rfl, within⟩
    · intro version member
      cases member
    · exact (inStream (within.subset List.mem_cons_self)).elim

/-- A follower that starts from the version of the server. -/
theorem fresh
    (server : Option Version)
    (settles : ∀ version, stale version → settled version) :
    InStep stale settled server (.fresh server) := by
  cases server with
  | none =>
      refine ⟨?_, ?_, ?_, ?_⟩
      · intro version rest inside
        cases List.suffix_nil.mp inside
      · intro version rest inside
        cases List.suffix_nil.mp inside
      · intro _ _ version member
        cases member
      · intro _ rest inside
        cases List.suffix_nil.mp inside
  | some current =>
      have quiet : Quiet stale (⟨none, []⟩ : View Version).stream :=
        fun version member => by cases member
      exact created quiet (settles current)

/-- The version of the server is settled while somebody sees a stale one. -/
theorem settled_of_stale
    {version current : Version}
    (inStep : InStep stale settled server view)
    (member : some version ∈ view.stream)
    (isStale : stale version)
    (stored : server = some current) :
    settled current := by
  obtain ⟨before, later, shape⟩ := List.append_of_mem member
  have inside : some version :: later <:+ view.stream := ⟨before, shape.symm⟩
  by_cases removed : none ∈ later
  · have absent := inStep.deleted version later inside isStale removed
    rw [stored] at absent
    cases absent
  · obtain ⟨_, same, isSettled⟩ :=
      inStep.kept version later inside isStale removed
    rw [stored] at same
    cases same
    exact isSettled

/-- No deletion is on its way after a stale version that the server keeps. -/
theorem undeleted_of_shown
    {version current : Version}
    (inStep : InStep stale settled server view)
    (shown : view.shown = some version)
    (isStale : stale version)
    (stored : server = some current) :
    none ∉ view.coming := by
  intro removed
  have inside : some version :: view.coming <:+ view.stream := by
    simp [View.stream, shown]
  have absent := inStep.deleted version _ inside isStale removed
  rw [stored] at absent
  cases absent

end InStep

end WatchStream
