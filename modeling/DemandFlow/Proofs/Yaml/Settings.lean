import DemandFlow.Proofs.Yaml.Words

/-!
A text with a setting in each line is read as a mapping of the names to the values.
-/

set_option autoImplicit false

namespace DemandFlow.Yaml

def settingsText : List (String × String) → String
  | [] => ""
  | setting :: rest => setting.1 ++ ": " ++ setting.2 ++ "\n" ++ settingsText rest

/-- Name and value are words, and the name is short enough to be told by its colon. -/
def isSetting (setting : String × String) : Bool :=
  isWord setting.1.toList && isWord setting.2.toList && decide (setting.1.toList.length ≤ 1024)

def wordNode (word : String) : Node :=
  .scalar {} .plain word

def settingNode (setting : String × String) : Node × Node :=
  (wordNode setting.1, wordNode setting.2)

def settingTokens (setting : String × String) : List Token :=
  [.key, .scalar .plain setting.1, .value, .scalar .plain setting.2]

namespace Layout

/-- The layout before a line. The mapping, once it is open, stands in the first column. -/
def atLine (read : List Token) (opened : Bool) : Layout :=
  { tokens := read, indents := if opened then [0] else [] }

def behindName (read : List Token) (opened : Bool) (mark : Mark) (name : String) : Layout :=
  { tokens := .scalar .plain name :: read
    indents := if opened then [0] else []
    keyAllowed := false
    candidate := some { place := read.length, mark := mark, required := opened } }

def behindColon (read : List Token) : Layout :=
  { tokens := read, indents := [0], keyAllowed := false }

section

variable {layout next : Layout} {cursor after : Cursor} {mark : Mark} {keyAllowed : Bool}
  {char : Char} {rest : List Char}

private theorem refreshKeys_of_fresh (alone : layout.outer = [])
    (fresh : ∀ candidate ∈ layout.candidate, candidate.isStale mark = false) :
    layout.refreshKeys mark = some layout := by
  have kept : refresh mark layout.candidate = some layout.candidate := by
    cases held : layout.candidate with
    | none => rfl
    | some candidate =>
        have stale := fresh candidate held
        simp only [refresh, stale, Bool.false_eq_true, ↓reduceIte]
  unfold refreshKeys
  rw [kept, alone, List.mapM_nil]
  cases layout
  cases alone
  rfl

private theorem dedentTo_of_le (inside : ∀ indent ∈ layout.indents, indent ≤ mark.column) :
    layout.dedentTo mark.column = layout := by
  have closed : layout.indents.takeWhile (fun indent => decide (mark.column < indent)) = [] := by
    cases held : layout.indents with
    | nil => rfl
    | cons indent _ =>
        have innermost := inside indent (by simp only [held, List.mem_cons, true_or])
        have fits : ¬ decide (mark.column < indent) = true := by
          rw [decide_eq_true_eq]
          exact Nat.not_lt.mpr innermost
        rw [List.takeWhile_cons, if_neg fits]
  unfold dedentTo
  split
  next => rfl
  next => simp only [closed, List.length_nil, List.replicate_zero, List.nil_append, List.drop_zero]

/-- Outside of brackets, one token is read where no candidate for a key goes stale and no
collection ends. -/
theorem readTokens_step (fuel : Nat) (alone : layout.outer = [])
    (skips : skipFrom false false layout.keyAllowed cursor.rest cursor.mark =
      (keyAllowed, { rest := char :: rest, mark := mark }))
    (fresh : ∀ candidate ∈ layout.candidate, candidate.isStale mark = false)
    (inside : ∀ indent ∈ layout.indents, indent ≤ mark.column)
    (reads : { layout with keyAllowed := keyAllowed }.readToken
      { rest := char :: rest, mark := mark } char rest = some (next, after)) :
    readTokens (fuel + 1) layout cursor = readTokens fuel next after := by
  have refreshed : { layout with keyAllowed := keyAllowed }.refreshKeys mark =
      some { layout with keyAllowed := keyAllowed } := refreshKeys_of_fresh alone fresh
  have stays : { layout with keyAllowed := keyAllowed }.dedentTo mark.column =
      { layout with keyAllowed := keyAllowed } := dedentTo_of_le inside
  have outside : layout.inFlow = false := by
    simp only [inFlow, alone, List.isEmpty_nil, Bool.not_true]
  rw [readTokens, outside, skips]
  dsimp only
  rw [refreshed]
  dsimp only
  rw [stays, reads]

theorem skipFrom_word (wordChar : isWordChar char = true) (flow keyAllowed : Bool) :
    skipFrom flow false keyAllowed (char :: rest) mark =
      (keyAllowed, { rest := char :: rest, mark := mark }) := by
  have unbroken := isBreak_of_isWordChar wordChar
  simp (disch := decide) [skipFrom, unbroken, ne_of_isWordChar wordChar]

/-- Nothing but a plain scalar begins with a character of a word. -/
theorem readToken_word (wordChar : isWordChar char = true) (layout : Layout) (cursor : Cursor) :
    layout.readToken cursor char rest = layout.readPlain cursor := by
  have marker := atMarker_of_isWordChar wordChar rest
  have starts := startsPlain_of_isWordChar wordChar layout.inFlow rest
  simp (disch := decide) [readToken, marker, starts, ne_of_isWordChar wordChar]

end

section

variable {word rest : List Char} {mark : Mark} {fuel : Nat} {read : List Token} {opened : Bool}

theorem le_of_mem_indents (column indent : Nat)
    (member : indent ∈ if opened then [0] else []) : indent ≤ column := by
  cases opened <;> simp_all

private theorem readTokens_name (name : isWord word = true) (column : mark.column = 0) :
    readTokens (fuel + 1) (atLine read opened)
        { rest := word ++ ':' :: ' ' :: rest, mark := mark } =
      readTokens fuel (behindName read opened mark (String.ofList word))
        { rest := ':' :: ' ' :: rest, mark := mark.along word.length } := by
  have plain := plainFrom_name (all_of_isWord name) (atLine read opened).base rest mark
  have reads : (atLine read opened).readPlain
      { rest := word ++ ':' :: ' ' :: rest, mark := mark } =
        some (behindName read opened mark (String.ofList word),
          { rest := ':' :: ' ' :: rest, mark := mark.along word.length }) := by
    change (plainFrom false (atLine read opened).base [] .none _ mark).bind _ = _
    rw [plain]
    cases opened <;>
      simp [atLine, behindName, inFlow, pushKeyPart, saveKey, releaseKey, release, push, column]
  rcases exists_cons_of_isWord name with ⟨char, more, rfl, wordChar⟩
  apply readTokens_step fuel rfl (skipFrom_word wordChar false true)
  · intro candidate impossible
    cases impossible
  · exact fun indent member => le_of_mem_indents _ indent member
  · exact (readToken_word wordChar _ _).trans reads

/-- The first colon opens the mapping, and every colon makes the name before it a key. -/
theorem readTokens_colon (near : word.length ≤ 1024) (column : mark.column = 0) :
    readTokens (fuel + 1) (behindName read opened mark (String.ofList word))
        { rest := ':' :: ' ' :: rest, mark := mark.along word.length } =
      readTokens fuel
        (behindColon (.value :: .scalar .plain (String.ofList word) :: .key ::
          if opened then read else .blockMapStart :: read))
        { rest := ' ' :: rest, mark := (mark.along word.length).past ':' } := by
  have skips : skipFrom false false false (':' :: ' ' :: rest) (mark.along word.length) =
      (false, { rest := ':' :: ' ' :: rest, mark := mark.along word.length }) := by
    simp [skipFrom, isBreak]
  apply readTokens_step fuel rfl skips
  · intro candidate held
    cases held
    simp [KeyCandidate.isStale, Mark.along]
    omega
  · exact fun indent member => le_of_mem_indents _ indent member
  · cases opened <;>
      simp [readToken, atMarker, atGap, isBlank, isBreak, inFlow, startValue, acceptKey, base,
        insert, push, behindName, behindColon, Cursor.skip, column]

private theorem readTokens_value (value : isWord word = true)
    (next : ∀ char ∈ rest.head?, isWordChar char = true) :
    readTokens (fuel + 1) (behindColon read)
        { rest := ' ' :: (word ++ '\n' :: rest), mark := mark } =
      readTokens fuel (atLine (.scalar .plain (String.ofList word) :: read) true)
        { rest := rest, mark := ((mark.past ' ').along word.length).past '\n' } := by
  have plain := plainFrom_value (all_of_isWord value) Nat.one_pos next (mark.past ' ')
  have reads : (behindColon read).readPlain
      { rest := word ++ '\n' :: rest, mark := mark.past ' ' } =
        some (atLine (.scalar .plain (String.ofList word) :: read) true,
          { rest := rest, mark := ((mark.past ' ').along word.length).past '\n' }) := by
    simp [readPlain, behindColon, inFlow, base, plain, pushKeyPart, saveKey, push, atLine]
  rcases exists_cons_of_isWord value with ⟨char, more, rfl, wordChar⟩
  have skips : skipFrom false false false (' ' :: (char :: more ++ '\n' :: rest)) mark =
      (false, { rest := char :: more ++ '\n' :: rest, mark := mark.past ' ' }) := by
    rw [skipFrom]
    simp [isBreak, skipFrom_word wordChar]
  apply readTokens_step fuel rfl skips
  · intro candidate impossible
    cases impossible
  · simp [behindColon]
  · exact (readToken_word wordChar _ _).trans reads

private theorem readTokens_end :
    readTokens (fuel + 1) (atLine read true) { rest := [], mark := mark } =
      some (Token.blockEnd :: read).reverse := by
  simp [readTokens, skipFrom, atLine, refreshKeys, refresh, dedentTo, inFlow, dedentAll,
    releaseKey, release]

theorem readTokens_line (fuel : Nat) (read : List Token) (opened : Bool)
    {setting : String × String} (valid : isSetting setting = true) (column : mark.column = 0)
    (next : ∀ char ∈ rest.head?, isWordChar char = true) :
    ∃ after : Mark, after.column = 0 ∧
      readTokens (fuel + 3) (atLine read opened)
          { rest := setting.1.toList ++ ':' :: ' ' :: (setting.2.toList ++ '\n' :: rest)
            mark := mark } =
        readTokens fuel
          (atLine ((settingTokens setting).reverse ++
            if opened then read else .blockMapStart :: read) true)
          { rest := rest, mark := after } := by
  simp only [isSetting, Bool.and_eq_true, decide_eq_true_eq] at valid
  rcases valid with ⟨⟨name, value⟩, near⟩
  refine ⟨((((mark.along setting.1.toList.length).past ':').past ' ').along
    setting.2.toList.length).past '\n', rfl, ?_⟩
  rw [readTokens_name name column, readTokens_colon near column, readTokens_value value next,
    String.ofList_toList, String.ofList_toList]
  rfl

end

end Layout

section

variable {settings : List (String × String)}

theorem toList_settingsText_cons (setting : String × String) (rest : List (String × String)) :
    (settingsText (setting :: rest)).toList =
      setting.1.toList ++
        ':' :: ' ' :: (setting.2.toList ++ '\n' :: (settingsText rest).toList) := by
  simp [settingsText, String.toList_append]

theorem head?_settingsText (valid : settings.all isSetting = true) :
    ∀ char ∈ (settingsText settings).toList.head?, isWordChar char = true := by
  cases settings with
  | nil => simp [settingsText]
  | cons setting rest =>
      simp only [List.all_cons, isSetting, Bool.and_eq_true] at valid
      rcases exists_cons_of_isWord valid.1.1.1 with ⟨char, more, named, wordChar⟩
      rw [toList_settingsText_cons, named]
      simp [wordChar]

private theorem mem_settingsText (valid : settings.all isSetting = true) {char : Char}
    (member : char ∈ (settingsText settings).toList) :
    isWordChar char = true ∨ char ∈ [':', ' ', '\n'] := by
  induction settings with
  | nil => simp only [settingsText, String.toList_empty, List.not_mem_nil] at member
  | cons setting rest inductionHypothesis =>
      simp only [List.all_cons, isSetting, Bool.and_eq_true] at valid
      have nameChars := List.all_eq_true.mp (all_of_isWord valid.1.1.1)
      have valueChars := List.all_eq_true.mp (all_of_isWord valid.1.1.2)
      rw [toList_settingsText_cons] at member
      simp only [List.mem_append, List.mem_cons] at member
      rcases member with inName | rfl | rfl | inValue | rfl | later
      · exact .inl (nameChars char inName)
      · exact .inr (by decide)
      · exact .inr (by decide)
      · exact .inl (valueChars char inValue)
      · exact .inr (by decide)
      · exact inductionHypothesis valid.2 later

private theorem length_settingsText (settings : List (String × String)) :
    3 * settings.length ≤ (settingsText settings).toList.length := by
  induction settings with
  | nil => exact Nat.zero_le _
  | cons setting rest inductionHypothesis =>
      rw [toList_settingsText_cons]
      simp only [List.length_append, List.length_cons]
      omega

private theorem readTokens_settings (valid : settings.all isSetting = true) {fuel : Nat}
    (enough : 3 * settings.length < fuel) (read : List Token) {mark : Mark}
    (column : mark.column = 0) :
    Layout.readTokens fuel (Layout.atLine read true)
        { rest := (settingsText settings).toList, mark := mark } =
      some (read.reverse ++ settings.flatMap settingTokens ++ [.blockEnd]) := by
  induction settings generalizing fuel read mark with
  | nil =>
      rcases Nat.exists_eq_add_one_of_ne_zero (Nat.ne_of_gt enough) with ⟨steps, rfl⟩
      simpa only [settingsText, String.toList_empty, List.flatMap_nil, List.append_nil,
        List.reverse_cons] using Layout.readTokens_end
  | cons setting rest inductionHypothesis =>
      rw [List.all_cons, Bool.and_eq_true] at valid
      rw [List.length_cons] at enough
      rcases Nat.exists_eq_add_of_le' (show 3 ≤ fuel by omega) with ⟨steps, rfl⟩
      rcases Layout.readTokens_line steps read true valid.1 column
        (head?_settingsText valid.2) with ⟨after, atStart, line⟩
      rw [toList_settingsText_cons, line, if_pos rfl,
        inductionHypothesis valid.2 (by omega) _ atStart]
      simp only [List.reverse_append, List.reverse_reverse, List.append_assoc, List.flatMap_cons]

/-- A text with a setting in each line gives the tokens of a block mapping. -/
theorem tokens_settingsText {setting : String × String} {rest : List (String × String)}
    (valid : (setting :: rest).all isSetting = true) :
    tokens (settingsText (setting :: rest)) =
      some (.blockMapStart :: (setting :: rest).flatMap settingTokens ++ [.blockEnd]) := by
  have signs : [':', ' ', '\n'].all
      (fun sign => isReadable sign && sign != '\r' && sign != '\x85') = true := by
    decide
  simp only [List.all_eq_true, Bool.and_eq_true, bne_iff_ne] at signs
  have readable : (settingsText (setting :: rest)).toList.all isReadable = true := by
    rw [List.all_eq_true]
    intro char member
    rcases mem_settingsText valid member with wordChar | sign
    · exact isReadable_of_isWordChar wordChar
    · exact (signs char sign).1.1
  have even : evenBreaks (settingsText (setting :: rest)).toList =
      (settingsText (setting :: rest)).toList := by
    apply evenBreaks_eq_self
    intro char member
    rcases mem_settingsText valid member with wordChar | sign
    · exact ⟨ne_of_isWordChar wordChar (by decide), ne_of_isWordChar wordChar (by decide)⟩
    · exact ⟨(signs char sign).1.2, (signs char sign).2⟩
  have room := length_settingsText (setting :: rest)
  rw [List.length_cons] at room
  rcases Nat.exists_eq_add_of_le' (show 3 ≤ (settingsText (setting :: rest)).toList.length + 1
    by omega) with ⟨steps, fuel⟩
  rw [List.all_cons, Bool.and_eq_true] at valid
  -- The first line opens the mapping.
  rcases Layout.readTokens_line steps [] false valid.1
    (show ({} : Mark).column = 0 from rfl) (head?_settingsText valid.2) with ⟨after, atStart, line⟩
  have others := readTokens_settings valid.2 (show 3 * rest.length < steps by omega)
    ((settingTokens setting).reverse ++ [.blockMapStart]) atStart
  unfold tokens
  rw [if_pos readable, even]
  dsimp only
  rw [fuel, toList_settingsText_cons]
  refine line.trans (others.trans ?_)
  simp

private theorem readUnless_word (fuel : Nat) (word : String) (left : List Token)
    (handles : List (String × String)) (anchors : List (String × Nat)) :
    readUnless (fuel + 2) true true [.key, .value, .blockEnd]
        { tokens := .scalar .plain word :: left, handles := handles, anchors := anchors } =
      some (wordNode word, { tokens := left, handles := handles, anchors := anchors }) := by
  rw [readUnless, readNode]
  simp [Source.at?, Source.properties, Source.drop, Node.ofScalar, wordNode]

private theorem readEntries_settings {fuel : Nat} (enough : settings.length + 3 ≤ fuel)
    (left : List Token) (handles : List (String × String)) (anchors : List (String × Nat)) :
    readEntries fuel
        { tokens := settings.flatMap settingTokens ++ .blockEnd :: left
          handles := handles
          anchors := anchors } =
      some (settings.map settingNode,
        { tokens := left, handles := handles, anchors := anchors }) := by
  induction settings generalizing fuel with
  | nil =>
      rcases Nat.exists_eq_add_of_le' enough with ⟨steps, rfl⟩
      simp [readEntries, Source.at?, Source.drop]
  | cons setting rest inductionHypothesis =>
      rw [List.length_cons] at enough
      rcases Nat.exists_eq_add_of_le' (show 3 ≤ fuel by omega) with ⟨steps, rfl⟩
      have others := inductionHypothesis (show rest.length + 3 ≤ steps + 2 by omega)
      rw [readEntries]
      simp [Source.at?, Source.drop, settingTokens, readUnless_word, others, settingNode]

private theorem length_settingTokens (settings : List (String × String)) :
    (settings.flatMap settingTokens).length = 4 * settings.length := by
  induction settings with
  | nil => rfl
  | cons setting rest inductionHypothesis =>
      rw [List.flatMap_cons, List.length_append, inductionHypothesis, List.length_cons]
      change 4 + 4 * rest.length = 4 * (rest.length + 1)
      omega

private theorem readBare_settings (settings : List (String × String)) :
    readBare (.blockMapStart :: settings.flatMap settingTokens ++ [.blockEnd]) =
      some (.map {} (settings.map settingNode), { tokens := [], handles := commonHandles }) := by
  have fuel : nodeFuel (.blockMapStart :: settings.flatMap settingTokens ++ [.blockEnd]) =
      16 * settings.length + 11 + 1 := by
    simp only [nodeFuel, List.cons_append, List.length_cons, List.length_append, List.length_nil,
      length_settingTokens]
    omega
  have enough : settings.length + 3 ≤ 16 * settings.length + 11 := by omega
  have entries := readEntries_settings enough [] commonHandles []
  rw [readBare, fuel, List.cons_append, readNode]
  simp [Source.properties, Source.drop, entries]

/-- A text with a setting in each line is the mapping of the names to the values. -/
theorem parse_settingsText {setting : String × String} {rest : List (String × String)}
    (valid : (setting :: rest).all isSetting = true) :
    parse (settingsText (setting :: rest)) =
      some (some (.map {} ((setting :: rest).map settingNode))) := by
  have bare := readBare_settings (setting :: rest)
  rw [List.cons_append] at bare
  unfold parse readDocument
  rw [tokens_settingsText valid, Option.bind_some, List.cons_append]
  dsimp only
  rw [if_neg (by decide), bare]
  rfl

end

end DemandFlow.Yaml
