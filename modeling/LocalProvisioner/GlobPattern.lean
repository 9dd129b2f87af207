import Mathlib.Data.List.Basic

namespace GlobPattern

/-!
# Shell file name patterns

`filepath.Match` of Go on Unix: `*` matches any run of bytes other than `/`,
`?` one character other than `/`, `[...]` a character class, and a backslash
quotes the byte after it.  A pattern is cut into chunks at its stars, and the
chunks are tried one after the other.  A chunk that is tried is read to its end,
whether it matches or not, so that its syntax errors are found.  Chunks after
one that does not match are not read.

Names and patterns are lists of bytes.  A star may leave off in the middle of a
character, and what follows is then no text but is matched all the same.
-/

/-- A byte of an ASCII character. -/
def byte (character : Char) : UInt8 :=
  character.toNat.toUInt8

/-- The UTF-8 bytes of a text. -/
def bytes (text : String) : List UInt8 :=
  text.toList.flatMap String.utf8EncodeChar

/-- `utf8.RuneError`. -/
def runeError : Nat :=
  0xFFFD

/-- A byte after the first one of a character. -/
def follows (low high : Nat) (later : UInt8) : Bool :=
  decide (low ≤ later.toNat) && decide (later.toNat ≤ high)

/--
`utf8.DecodeRuneInString`: the first character and its width.  Bytes that are no
text are taken one at a time.
-/
def decodeRune : List UInt8 → Nat × Nat
  | [] => (runeError, 0)
  | first :: rest =>
      let lead := first.toNat
      if lead < 0x80 then
        (lead, 1)
      else if 0xC2 ≤ lead ∧ lead ≤ 0xDF then
        match rest with
        | second :: _ =>
            if follows 0x80 0xBF second then
              (lead % 0x20 * 0x40 + second.toNat % 0x40, 2)
            else
              (runeError, 1)
        | [] => (runeError, 1)
      else if 0xE0 ≤ lead ∧ lead ≤ 0xEF then
        match rest with
        | second :: third :: _ =>
            if follows (if lead = 0xE0 then 0xA0 else 0x80)
                  (if lead = 0xED then 0x9F else 0xBF) second &&
                follows 0x80 0xBF third then
              ((lead % 0x10 * 0x40 + second.toNat % 0x40) * 0x40 +
                third.toNat % 0x40, 3)
            else
              (runeError, 1)
        | _ => (runeError, 1)
      else if 0xF0 ≤ lead ∧ lead ≤ 0xF4 then
        match rest with
        | second :: third :: fourth :: _ =>
            if follows (if lead = 0xF0 then 0x90 else 0x80)
                  (if lead = 0xF4 then 0x8F else 0xBF) second &&
                follows 0x80 0xBF third && follows 0x80 0xBF fourth then
              (((lead % 8 * 0x40 + second.toNat % 0x40) * 0x40 +
                third.toNat % 0x40) * 0x40 + fourth.toNat % 0x40, 4)
            else
              (runeError, 1)
        | _ => (runeError, 1)
      else
        (runeError, 1)

/-- `scanChunk` after the stars: the bytes up to the next star, and the rest. -/
def scanRest : Bool → List UInt8 → List UInt8 × List UInt8
  | _, [] => ([], [])
  | inrange, [last] =>
      if last = byte '*' && !inrange then ([], [last]) else ([last], [])
  | inrange, first :: second :: rest =>
      if first = byte '\\' then
        let (chunk, later) := scanRest inrange rest
        (first :: second :: chunk, later)
      else if first = byte '*' && !inrange then
        ([], first :: second :: rest)
      else
        let inside :=
          if first = byte '[' then
            true
          else if first = byte ']' then
            false
          else
            inrange
        let (chunk, later) := scanRest inside (second :: rest)
        (first :: chunk, later)

/-- `scanChunk`: is there a star, the chunk after it, and the rest. -/
def scanChunk (pattern : List UInt8) : Bool × List UInt8 × List UInt8 :=
  (pattern.head? == some (byte '*'),
    scanRest false (pattern.dropWhile (· == byte '*')))

/-- `getEsc`: a possibly quoted class character; `none` is `ErrBadPattern`. -/
def getEsc (chunk : List UInt8) : Option (Nat × List UInt8) :=
  match chunk with
  | [] => none
  | first :: rest =>
      if first = byte '-' ∨ first = byte ']' then
        none
      else
        let quoted := if first = byte '\\' then rest else chunk
        let (rune, width) := decodeRune quoted
        let later := quoted.drop width
        if (rune = runeError ∧ width ≤ 1) ∨ later = [] then
          none
        else
          some (rune, later)

/--
The ranges of a character class: does one of them have the character, and the
chunk after the class.
-/
def classRanges :
    Nat → Bool → Nat → Bool → List UInt8 → Option (Bool × List UInt8)
  | 0, _, _, _, _ => none
  | fuel + 1, started, rune, found, chunk =>
      if started && chunk.head? == some (byte ']') then
        some (found, chunk.tail)
      else
        match getEsc chunk with
        | none => none
        | some (low, later) =>
            if later.head? = some (byte '-') then
              match getEsc later.tail with
              | none => none
              | some (high, last) =>
                  classRanges fuel true rune
                    (found || (decide (low ≤ rune) && decide (rune ≤ high)))
                    last
            else
              classRanges fuel true rune (found || decide (rune = low)) later

/--
`matchChunk`: what is left of the name after the chunk, `some none` if it does
not match, and `none` if the chunk is malformed.  A name that is `none` has
failed to match, and the chunk is only read.
-/
def matchChunk :
    Nat → List UInt8 → Option (List UInt8) → Option (Option (List UInt8))
  | 0, _, _ => none
  | _ + 1, [], name => some name
  | fuel + 1, first :: chunk, name =>
      let name := name.filter fun left => !left.isEmpty
      if first = byte '[' then
        let (rune, width) := (name.map decodeRune).getD (0, 0)
        let negated := chunk.head? == some (byte '^')
        let ranges := if negated then chunk.tail else chunk
        match classRanges fuel false rune false ranges with
        | none => none
        | some (found, later) =>
            matchChunk fuel later
              (if found == negated then none else name.map (List.drop width))
      else if first = byte '?' then
        matchChunk fuel chunk
          ((name.filter fun left => left.head? != some (byte '/')).map
            fun left => left.drop (decodeRune left).2)
      else if first = byte '\\' then
        match chunk with
        | [] => none
        | quoted :: rest =>
            matchChunk fuel rest
              ((name.filter fun left => left.head? == some quoted).map List.tail)
      else
        matchChunk fuel chunk
          ((name.filter fun left => left.head? == some first).map List.tail)

/-- `matchChunk` with all the steps that it can take. -/
def tryChunk (chunk name : List UInt8) : Option (Option (List UInt8)) :=
  matchChunk (chunk.length + 1) chunk (some name)

/--
The loop after a star: the chunk is tried after one byte more each time, up to a
slash.  The last chunk has to match up to the end of the name.
-/
def skipTo (chunk : List UInt8) (last : Bool) :
    List UInt8 → Option (Option (List UInt8))
  | [] => some none
  | first :: rest =>
      if first = byte '/' then
        some none
      else
        match tryChunk chunk rest with
        | none => none
        | some none => skipTo chunk last rest
        | some (some left) =>
            if last && !left.isEmpty then
              skipTo chunk last rest
            else
              some (some left)

/-- The loop of `Match` over the chunks of a pattern. -/
def matchFrom : Nat → List UInt8 → List UInt8 → Option Bool
  | 0, _, _ => none
  | _ + 1, [], name => some name.isEmpty
  | fuel + 1, first :: rest, name =>
      let (star, chunk, pattern) := scanChunk (first :: rest)
      if star && chunk.isEmpty then
        some (!name.contains (byte '/'))
      else
        match tryChunk chunk name with
        | none => none
        | some matched =>
            let left :=
              match matched with
              | some left =>
                  if left.isEmpty || !pattern.isEmpty then
                    some (some left)
                  else if star then
                    skipTo chunk pattern.isEmpty name
                  else
                    some none
              | none =>
                  if star then skipTo chunk pattern.isEmpty name else some none
            match left with
            | none => none
            | some none => some false
            | some (some left) => matchFrom fuel pattern left

/-- `filepath.Match`: does the pattern match the name, unless it is malformed. -/
def fileMatch (pattern name : String) : Except String Bool :=
  let pattern := bytes pattern
  match matchFrom (pattern.length + 1) pattern (bytes name) with
  | none => .error "syntax error in pattern"
  | some matched => .ok matched

example : fileMatch "disk-[0-9]*" "disk-7a" = .ok true := by decide +kernel

-- The chunk after the first star is not read unless the first one matches.
example :
    fileMatch "a*[" "c1" = .ok false ∧
      fileMatch "a*[" "a1" = .error "syntax error in pattern" := by
  decide +kernel

-- The star takes the first byte of the character, and the rest is no text.
example : fileMatch "*?" "é" = .ok true := by decide +kernel

/-!
## The steps suffice

Every step reads a part of the pattern, so that it is read to its end before the
steps run out, and an error is always one of the pattern.
-/

/-- Every character takes at least one byte. -/
theorem one_le_decodeRune
    {text : List UInt8}
    (nonempty : text ≠ []) :
    1 ≤ (decodeRune text).2 := by
  cases text with
  | nil => exact (nonempty rfl).elim
  | cons first rest =>
      simp only [decodeRune]
      repeat' split
      all_goals simp

theorem length_of_getEsc
    {chunk later : List UInt8}
    {rune : Nat}
    (read : getEsc chunk = some (rune, later)) :
    later.length < chunk.length := by
  cases chunk with
  | nil => cases read
  | cons first rest =>
      simp only [getEsc] at read
      split at read
      · cases read
      · generalize quotedIs :
          (if first = byte '\\' then rest else first :: rest) = quoted at read
        have shorter : quoted.length ≤ rest.length + 1 := by
          subst quotedIs
          split <;> simp
        split at read
        · cases read
        · rename_i proper
          cases read
          have nonempty : quoted ≠ [] := by
            rintro rfl
            exact proper (.inl (by decide))
          have width := one_le_decodeRune nonempty
          have filled := List.length_pos_of_ne_nil nonempty
          rw [List.length_drop, List.length_cons]
          omega

/-- What is left after a class is shorter. -/
theorem length_of_classRanges
    {fuel rune : Nat}
    {started found matched : Bool}
    {chunk later : List UInt8}
    (read : classRanges fuel started rune found chunk = some (matched, later)) :
    later.length < chunk.length := by
  induction fuel generalizing started found chunk with
  | zero => cases read
  | succ fuel inductionHypothesis =>
      simp only [classRanges] at read
      split at read
      · rename_i closed
        cases read
        cases chunk with
        | nil => simp at closed
        | cons first rest => simp
      · split at read
        · cases read
        · rename_i low first readFirst
          have shorter := length_of_getEsc readFirst
          split at read
          · split at read
            · cases read
            · rename_i high second readSecond
              have shorterToo := length_of_getEsc readSecond
              have rest := inductionHypothesis read
              rw [List.length_tail] at shorterToo
              omega
          · have rest := inductionHypothesis read
            omega

/-- One step more changes nothing for a class. -/
theorem classRanges_succ
    {fuel rune : Nat}
    {started found : Bool}
    {chunk : List UInt8}
    (enough : chunk.length < fuel) :
    classRanges (fuel + 1) started rune found chunk =
      classRanges fuel started rune found chunk := by
  induction fuel generalizing started found chunk with
  | zero => omega
  | succ fuel inductionHypothesis =>
      rw [classRanges, classRanges]
      split
      · rfl
      · cases readFirst : getEsc chunk with
        | none => rfl
        | some read =>
            obtain ⟨low, first⟩ := read
            have shorter := length_of_getEsc readFirst
            simp only
            split
            · cases readSecond : getEsc first.tail with
              | none => rfl
              | some readToo =>
                  obtain ⟨high, second⟩ := readToo
                  have shorterToo := length_of_getEsc readSecond
                  rw [List.length_tail] at shorterToo
                  exact inductionHypothesis (by omega)
            · exact inductionHypothesis (by omega)

/-- One step more changes nothing for a chunk. -/
theorem matchChunk_succ
    {fuel : Nat}
    {chunk : List UInt8}
    {name : Option (List UInt8)}
    (enough : chunk.length < fuel) :
    matchChunk (fuel + 1) chunk name = matchChunk fuel chunk name := by
  induction fuel generalizing chunk name with
  | zero => omega
  | succ fuel inductionHypothesis =>
      cases chunk with
      | nil => rfl
      | cons first rest =>
          rw [List.length_cons] at enough
          simp only [matchChunk]
          split
          · have ranges :
                (if rest.head? == some (byte '^') then
                  rest.tail
                else
                  rest).length ≤ rest.length := by
              split <;> simp
            rw [classRanges_succ (by omega)]
            split
            · rfl
            · rename_i readClass
              have shorter := length_of_classRanges readClass
              exact inductionHypothesis (by omega)
          · split
            · exact inductionHypothesis (by omega)
            · split
              · cases rest with
                | nil => rfl
                | cons quoted rest =>
                    rw [List.length_cons] at enough
                    exact inductionHypothesis (by omega)
              · exact inductionHypothesis (by omega)

/-- Any number of steps that exceeds the length of the chunk will do. -/
theorem matchChunk_of_lt
    {fuel : Nat}
    {chunk : List UInt8}
    {name : Option (List UInt8)}
    (enough : chunk.length < fuel) :
    matchChunk fuel chunk name = matchChunk (chunk.length + 1) chunk name := by
  obtain ⟨more, rfl⟩ := Nat.exists_eq_add_of_le enough
  induction more with
  | zero => rfl
  | succ more inductionHypothesis =>
      rw [← inductionHypothesis (by omega), ← Nat.add_assoc,
        matchChunk_succ (by omega)]

/-- A chunk and the rest make up what is scanned. -/
theorem scanRest_append (inrange : Bool) (pattern : List UInt8) :
    (scanRest inrange pattern).1 ++ (scanRest inrange pattern).2 = pattern := by
  induction inrange, pattern using scanRest.induct with
  | case1 inrange => simp [scanRest]
  | case2 inrange last isStar => simp [scanRest, isStar]
  | case3 inrange last noStar => simp [scanRest, noStar]
  | case4 inrange second rest chunk later scanned inductionHypothesis =>
      simpa [scanRest] using inductionHypothesis
  | case5 inrange first second rest noQuote isStar =>
      simp [scanRest, noQuote, isStar]
  | case6 inrange first second rest noQuote noStar inside chunk later scanned
      inductionHypothesis =>
      simpa [scanRest, noQuote, noStar, inside] using inductionHypothesis

/-- A chunk has the first byte that is no star. -/
theorem scanRest_ne_nil
    {first : UInt8}
    (noStar : first ≠ byte '*')
    (rest : List UInt8) :
    (scanRest false (first :: rest)).1 ≠ [] := by
  cases rest with
  | nil => simp [scanRest, noStar]
  | cons second rest =>
      simp only [scanRest, noStar]
      split <;> simp

/-- The rest of a pattern after its first chunk is shorter. -/
theorem length_scanChunk (first : UInt8) (rest : List UInt8) :
    (scanChunk (first :: rest)).2.2.length < (first :: rest).length := by
  have parts :
      ∀ pattern,
        (scanRest false pattern).1.length + (scanRest false pattern).2.length =
          pattern.length := by
    intro pattern
    rw [← List.length_append, scanRest_append]
  by_cases isStar : first = byte '*'
  · have dropped :
        (first :: rest).dropWhile (· == byte '*') =
          rest.dropWhile (· == byte '*') := by
      simp [isStar]
    have shorter : (rest.dropWhile (· == byte '*')).length ≤ rest.length :=
      (List.dropWhile_sublist _).length_le
    have whole := parts (rest.dropWhile (· == byte '*'))
    simp only [scanChunk, dropped, List.length_cons]
    omega
  · have kept :
        (first :: rest).dropWhile (· == byte '*') = first :: rest := by
      simp [isStar]
    have filled := List.length_pos_of_ne_nil (scanRest_ne_nil isStar rest)
    have whole := parts (first :: rest)
    simp only [scanChunk, kept]
    omega

/-- One step more changes nothing for a pattern. -/
theorem matchFrom_succ
    {fuel : Nat}
    {pattern name : List UInt8}
    (enough : pattern.length < fuel) :
    matchFrom (fuel + 1) pattern name = matchFrom fuel pattern name := by
  induction fuel generalizing pattern name with
  | zero => omega
  | succ fuel inductionHypothesis =>
      cases pattern with
      | nil => rfl
      | cons first rest =>
          have shorter := length_scanChunk first rest
          have later :
              ∀ left,
                matchFrom (fuel + 1) (scanChunk (first :: rest)).2.2 left =
                  matchFrom fuel (scanChunk (first :: rest)).2.2 left :=
            fun left => inductionHypothesis (by omega)
          simp only [matchFrom, later]

/-- Any number of steps that exceeds the length of the pattern will do. -/
theorem fileMatch_eq_matchFrom
    {fuel : Nat}
    (pattern name : String)
    (enough : (bytes pattern).length < fuel) :
    fileMatch pattern name =
      match matchFrom fuel (bytes pattern) (bytes name) with
      | none => .error "syntax error in pattern"
      | some matched => .ok matched := by
  obtain ⟨more, rfl⟩ := Nat.exists_eq_add_of_le enough
  induction more with
  | zero => rfl
  | succ more inductionHypothesis =>
      rw [inductionHypothesis (by omega), ← Nat.add_assoc,
        matchFrom_succ (by omega)]

end GlobPattern
