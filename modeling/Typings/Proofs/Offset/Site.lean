import Typings.Proofs.Offset.Lexeme

/-!
# `Site` — sites by byte offsets

Where a text is ahead at an offset, the site that is found there byte by byte is the one that is read from
that text, with the ranges it has in the whole.

* `Mark.of`: a site as the ranges of its parts.
* `clauseRound_cons`, `readClause_eq`, `typeModifier_eq`: the parts of a static site.
* `parseAfter_eq`: the site after a keyword.

Every reader gives the offset behind what it has read, and the text that is ahead there is the one
that the other reader leaves. So the readers are put in sequence without counting, and a site that is
not found by one is not found by the other.
-/

namespace Typings.Offset

open Import (Range Site Located ClauseRead Keyword isIdent isQuote word trivia quoted? readClause?)

/-- A located site as the ranges of its parts. -/
def Mark.of (l : Located) : Mark where
  kind := l.site.kind
  keyword := l.site.keyword
  span := l.span
  specifier := l.specifier
  clause := l.clause
  typeOnly := l.site.typeOnly

variable {t u head : Text} {start offset : Nat}

theorem utf8Size_of_isQuote {q : Char} (hq : isQuote q = true) : q.utf8Size = 1 :=
  utf8Size_ascii (toNat_lt_of_isQuote hq)

/-- A dynamic import behind its opening parenthesis. -/
theorem parseDynamic_eq (h : At t offset u) (hhead : start + head.byteSize = offset) :
    parseDynamic t start offset
      = some ((Import.dynamicSite? head u).map fun r => .of (r.1.locate start)) := by
  rw [parseDynamic, skipTrivia_eq h]
  simp only [Option.bind_eq_bind, Option.bind_some]
  cases hquoted : quoted? (trivia u).2 with
  | none =>
      obtain ⟨stop, hstop⟩ := parseQuoted_of_none h.trivia hquoted
      simp [hstop, Import.dynamicSite?, hquoted]
  | some r =>
      obtain ⟨q, specifier, rest⟩ := r
      obtain ⟨hq, hstop⟩ := parseQuoted_of_some h.trivia hquoted
      have hrest := h.trivia.quoted hquoted
      rw [hstop]
      simp only [Option.bind_some, skipTrivia_eq hrest, isAt_eq hrest.trivia (d := ')') (by decide)]
      rw [Import.dynamicSite?]
      simp only [hquoted, Option.bind_eq_bind, Option.bind_some]
      cases hafter : (trivia rest).2 with
      | nil => rfl
      | cons c after =>
          by_cases hc : c = ')'
          · subst hc
            have hclose : (')' : Char).utf8Size = 1 := rfl
            simp [Mark.of, Site.locate, Site.text, Range.at, utf8Size_of_isQuote hq, hclose]
            omega
          · simp [hc]

theorem semicolon_stop (h : At t offset u) :
    At t (offset + (Import.semicolon u).1.byteSize) (Import.semicolon u).2 ∧
      (if isAt t offset ';' then offset + 1 else offset) = offset + (Import.semicolon u).1.byteSize := by
  rw [isAt_eq h (by decide)]
  cases u with
  | nil => exact ⟨h, rfl⟩
  | cons c u =>
      by_cases hc : c = ';'
      · subst hc
        exact ⟨h.next_ascii (by decide), rfl⟩
      · simp [Import.semicolon, hc, h]

theorem lineBreak_stop (h : At t offset u) :
    (if isAt t offset '\r' && isAt t (offset + 1) '\n' then offset + 2
      else if isAt t offset '\n' then offset + 1 else offset)
      = offset + (Import.lineBreak u).1.byteSize := by
  rw [isAt_eq h (by decide), isAt_eq h (by decide)]
  cases u with
  | nil => rfl
  | cons c u =>
      by_cases hr : c = '\r'
      · subst hr
        rw [isAt_eq (h.next_ascii (by decide)) (by decide)]
        cases u with
        | nil => rfl
        | cons d u =>
            by_cases hd : d = '\n'
            · subst hd
              rfl
            · simp [Import.lineBreak, hd]
      · by_cases hn : c = '\n'
        · subst hn
          rfl
        · simp [Import.lineBreak, hr, hn]

theorem statementStop_eq (h : At t offset u) :
    statementStop t offset = offset + (Import.statementEnd u).1.byteSize := by
  obtain ⟨hmark, hstop⟩ := semicolon_stop h
  rw [statementStop]
  simp only [hstop, lineBreak_stop hmark]
  rw [Import.statementEnd, Text.byteSize_append, Nat.add_assoc]

/-- An import for its effects alone. -/
theorem parseSideEffect_eq (h : At t offset u) (hhead : start + head.byteSize = offset) :
    parseSideEffect t start offset
      = some ((Import.sideEffectSite? head u).map fun r => .of (r.1.locate start)) := by
  rw [parseSideEffect]
  cases hquoted : quoted? u with
  | none =>
      obtain ⟨stop, hstop⟩ := parseQuoted_of_none h hquoted
      simp [hstop, Import.sideEffectSite?, hquoted]
  | some r =>
      obtain ⟨q, specifier, rest⟩ := r
      obtain ⟨hq, hstop⟩ := parseQuoted_of_some h hquoted
      rw [hstop]
      simp [Import.sideEffectSite?, hquoted, statementStop_eq (h.quoted hquoted), Mark.of, Site.locate,
        Site.text, Range.at, utf8Size_of_isQuote hq]
      omega

/-! ## Static sites -/

theorem bindingFollows_eq (h : At t offset u) (hfrom : (word u).1 = "from") :
    bindingFollows t offset = some (!Import.bindsType u) := by
  have hafter : At t (offset + 4) (word u).2 := by
    have hword := h.word
    rwa [hfrom] at hword
  have hblanks : At t (offset + 4 + Text.byteSize ((word u).2.takeWhile Text.isAsciiBlank))
      ((word u).2.dropWhile Text.isAsciiBlank) :=
    At.pass (by rwa [List.takeWhile_append_dropWhile])
  rw [bindingFollows, skipBlanks_eq hafter]
  simp only [Option.bind_eq_bind, Option.bind_some, isAt_eq hblanks (d := '\'') (by decide),
    isAt_eq hblanks (d := '"') (by decide)]
  rw [Import.bindsType, hfrom, beq_self_eq_true, Bool.true_and]
  cases (word u).2.dropWhile Text.isAsciiBlank with
  | nil => rfl
  | cons c v => simp [isQuote]

/-- The `type` modifier, and where it stops. -/
theorem typeModifier_eq (h : At t offset u) :
    typeModifier t offset = some ((Import.typeModifier u).1.isSome,
      offset + Text.byteSize ((Import.typeModifier u).1.getD [])) := by
  rw [typeModifier, wordAt_eq h, Import.typeModifier]
  simp only [Option.bind_eq_bind, Option.bind_some]
  by_cases htype : (word u).1 = "type"
  · have hword : At t (offset + 4) (word u).2 := by
      have hword := h.word
      rwa [htype] at hword
    -- With the modifier, the offset behind it is the one behind its blanks.
    have hmodified : some (true, offset + 4 + (trivia (word u).2).1.byteSize)
        = some (true, offset + Text.byteSize (("type" : Text) ++ (trivia (word u).2).1)) := by
      rw [Text.byteSize_append, show Text.byteSize ("type" : Text) = 4 from rfl, Nat.add_assoc]
    simp only [htype, beq_self_eq_true, if_true, skipTrivia_eq hword, Option.bind_some,
      wordAt_eq hword.trivia]
    by_cases hfrom : (word (trivia (word u).2).2).1 = "from"
    · rw [hfrom, beq_self_eq_true, if_pos rfl, bindingFollows_eq hword.trivia hfrom]
      cases Import.bindsType (trivia (word u).2).2 with
      | true => rfl
      | false => exact hmodified
    · rw [beq_eq_false_iff_ne.mpr hfrom, Import.bindsType, beq_eq_false_iff_ne.mpr hfrom]
      exact hmodified
  · rw [beq_eq_false_iff_ne.mpr htype]
    rfl

/-! ## Clauses -/

/-- The offset where a clause stops that is read at `offset`, and the offset behind its `from`. -/
def stops (stop offset : Nat) (r : ClauseRead) : Nat × Nat :=
  (if r.clause.isEmpty then stop else offset + r.clause.byteSize,
    offset + r.clause.byteSize + r.link.byteSize)

theorem stops_hold (stop offset : Nat) (text : Text) (r : ClauseRead) :
    stops stop offset (r.hold text) = stops stop (offset + text.byteSize) r := by
  cases hclause : r.clause with
  | nil => simp [stops, ClauseRead.hold, hclause, Nat.add_assoc]
  | cons c v => simp [stops, ClauseRead.hold, ClauseRead.join, hclause, Nat.add_assoc]

theorem stops_join (stop offset : Nat) {text : Text} (hne : text ≠ []) (r : ClauseRead) :
    stops stop offset (r.join text) = stops (offset + text.byteSize) (offset + text.byteSize) r := by
  cases hclause : r.clause with
  | nil => simp [stops, ClauseRead.join, hclause, hne]
  | cons c v => simp [stops, ClauseRead.join, hclause, Nat.add_assoc]

/-- One round of reading a clause, by the character behind trivia. -/
theorem clauseRound_cons {c : Char} {rest : Text} (depth : Nat) (seen : Bool) (stop : Nat)
    (h : At t offset u) (hnext : (trivia u).2 = c :: rest) :
    clauseRound t ⟨depth, seen, stop, offset⟩ =
      let here := offset + (trivia u).1.byteSize
      if c == '\x7b' then some (.again ⟨depth + 1, seen, stop, here + 1⟩)
      else if c == '\x7d' then
        match depth with
        | 0 => some (.stop none)
        | depth + 1 => some (.again ⟨depth, true, here + 1, here + 1⟩)
      else if c == ',' || c == '*' then some (.again ⟨depth, seen || c == '*', here + 1, here + 1⟩)
      else if isIdent c then
        let name := c :: (word rest).1
        if name == "from" && depth == 0 && seen then some (.stop (some (stop, here + 4)))
        else some (.again ⟨depth, true, here + Text.byteSize name, here + Text.byteSize name⟩)
      else some (.stop none) := by
  have hhere := h.trivia
  rw [hnext] at hhere
  obtain ⟨b, hb, hbyte⟩ := hhere.byte?_first
  rw [clauseRound]
  simp only [skipTrivia_eq h, Option.bind_eq_bind, Option.bind_some, hbyte,
    beq_byteOf (d := '\x7b') (by decide) hb, beq_byteOf (d := '\x7d') (by decide) hb,
    beq_byteOf (d := ',') (by decide) hb, beq_byteOf (d := '*') (by decide) hb, tests_isIdentByte c b hb]
  by_cases hident : isIdent c = true
  · have hword : word (c :: rest) = (c :: (word rest).1, (word rest).2) := by simp [word, hident]
    rw [wordAt_eq hhere, hword]
    rfl
  · simp only [hident]
    rfl

/-- A round that goes on, behind the trivia it starts with, is followed by the next one. -/
theorem readClause_again {c : Char} {rest : Text} {s s' : ClauseState} (h : At t s.offset u)
    (hnext : (trivia u).2 = c :: rest) (hround : clauseRound t s = some (.again s'))
    (hforward : s.offset + (trivia u).1.byteSize < s'.offset) : readClause t s = readClause t s' := by
  have hhere := h.trivia
  rw [hnext] at hhere
  obtain ⟨b, -, hbyte⟩ := hhere.byte?_first
  exact loop_again hround (by omega) (Nat.lt_of_le_of_lt (Nat.le_add_right _ _) (lt_of_byte? hbyte))

theorem map_stops_hold (stop offset : Nat) (text : Text) (o : Option ClauseRead) :
    (o.map (.hold text)).map (stops stop offset) = o.map (stops stop (offset + text.byteSize)) := by
  rw [Option.map_map]
  exact congrArg (Option.map · o) (funext (stops_hold stop offset text))

theorem map_stops_join (stop offset : Nat) {text : Text} (hne : text ≠ []) (o : Option ClauseRead) :
    (o.map (.join text)).map (stops stop offset)
      = o.map (stops (offset + text.byteSize) (offset + text.byteSize)) := by
  rw [Option.map_map]
  exact congrArg (Option.map · o) (funext (stops_join stop offset hne))

/-- A character of ASCII behind trivia. -/
theorem at_mark {c : Char} {rest : Text} (h : At t offset u) (hnext : (trivia u).2 = c :: rest)
    (hc : c.toNat < 0x80) :
    offset + (trivia u).1.byteSize + 1 = offset + Text.byteSize ((trivia u).1 ++ [c]) ∧
      At t (offset + Text.byteSize ((trivia u).1 ++ [c])) rest := by
  have hsize : offset + (trivia u).1.byteSize + 1 = offset + Text.byteSize ((trivia u).1 ++ [c]) := by
    rw [Text.byteSize_append, Text.byteSize_cons, utf8Size_ascii hc, Text.byteSize_nil, Nat.add_assoc]
  refine ⟨hsize, ?_⟩
  rw [← hsize]
  exact (hnext ▸ h.trivia).next_ascii hc

/-- A word behind trivia. -/
theorem at_ident {c : Char} {rest : Text} (h : At t offset u) (hnext : (trivia u).2 = c :: rest) :
    offset + (trivia u).1.byteSize + Text.byteSize (c :: (word rest).1)
        = offset + Text.byteSize ((trivia u).1 ++ c :: (word rest).1) ∧
      At t (offset + Text.byteSize ((trivia u).1 ++ c :: (word rest).1)) (word rest).2 := by
  have hsize : offset + (trivia u).1.byteSize + Text.byteSize (c :: (word rest).1)
      = offset + Text.byteSize ((trivia u).1 ++ c :: (word rest).1) := by
    rw [Text.byteSize_append, Nat.add_assoc]
  refine ⟨hsize, ?_⟩
  rw [← hsize]
  refine At.pass ?_
  rw [List.cons_append, Import.word_append]
  exact hnext ▸ h.trivia

/-- The clause of a static site. -/
theorem readClause_eq {depth : Nat} {seen : Bool} (stop : Nat) (h : At t offset u) :
    readClause t ⟨depth, seen, stop, offset⟩
      = some ((readClause? depth seen u).map (stops stop offset)) := by
  -- One round of the loop for each step of the recursion: a case stops the loop or goes on behind a token.
  fun_induction readClause? depth seen u generalizing offset stop
  case case1 depth seen u hnil =>
    have hend := h.trivia
    rw [hnil] at hend
    refine loop_stop ?_
    rw [clauseRound]
    simp only [skipTrivia_eq h, Option.bind_eq_bind, Option.bind_some, hend.byte?_nil]
    rfl
  case case2 depth seen u c rest hnext blanks hopen ih =>
    obtain ⟨hsize, hrest⟩ := at_mark h hnext (by rw [beq_iff_eq.mp hopen]; decide)
    have hround := clauseRound_cons depth seen stop h hnext
    simp only [hopen, if_true] at hround
    rw [readClause_again h hnext hround (Nat.lt_succ_self _), map_stops_hold, hsize, ih stop hrest]
  case case3 seen u c rest hnext hopen hclose =>
    refine loop_stop ?_
    simp [clauseRound_cons 0 seen stop h hnext, hopen, hclose]
  case case4 seen u c rest hnext blanks hopen hclose depth ih =>
    obtain ⟨hsize, hrest⟩ := at_mark h hnext (by rw [beq_iff_eq.mp hclose]; decide)
    have hround := clauseRound_cons (depth + 1) seen stop h hnext
    simp only [hopen, hclose, if_true] at hround
    rw [readClause_again h hnext hround (Nat.lt_succ_self _), map_stops_join _ _ (by simp), ← ih _ hrest,
      ← hsize]
  case case5 depth seen u c rest hnext blanks hopen hclose hmark ih =>
    have hascii : c.toNat < 0x80 := by
      rw [Bool.or_eq_true, beq_iff_eq, beq_iff_eq] at hmark
      rcases hmark with rfl | rfl <;> decide
    obtain ⟨hsize, hrest⟩ := at_mark h hnext hascii
    have hround := clauseRound_cons depth seen stop h hnext
    simp only [hopen, hclose, hmark, if_true] at hround
    rw [readClause_again h hnext hround (Nat.lt_succ_self _), map_stops_join _ _ (by simp), ← ih _ hrest,
      ← hsize]
  case case6 depth seen u c rest hnext blanks hopen hclose hmark hident name hfrom =>
    have hname : Text.byteSize name = 4 := by
      simp only [Bool.and_eq_true, beq_iff_eq] at hfrom
      rw [hfrom.1.1]
      rfl
    refine loop_stop ?_
    simp only [clauseRound_cons depth seen stop h hnext, hopen, hclose, hmark, hident, if_true]
    rw [if_pos hfrom]
    simp [stops, blanks, hname, Nat.add_assoc]
  case case7 depth seen u c rest hnext blanks hopen hclose hmark hident name hfrom ih =>
    obtain ⟨hsize, hrest⟩ := at_ident h hnext
    have hround := clauseRound_cons depth seen stop h hnext
    simp only [hopen, hclose, hmark, hident, if_true] at hround
    rw [if_neg hfrom] at hround
    rw [readClause_again h hnext hround (Nat.lt_add_of_pos_right (Text.byteSize_pos (List.cons_ne_nil _ _))),
      map_stops_join _ _ (by simp [name]), ← ih _ hrest, hsize]
  case case8 depth seen u c rest hnext hopen hclose hmark hident =>
    refine loop_stop ?_
    simp [clauseRound_cons depth seen stop h hnext, hopen, hclose, hmark, hident]

/-- A static site behind its keyword. -/
theorem parseFromClause_eq {keyword : Keyword} (h : At t offset u) (hhead : start + head.byteSize = offset) :
    parseFromClause t start keyword offset
      = some ((Import.staticSite? keyword head u).map fun r => .of (r.1.locate start)) := by
  have hclause : At t (offset + Text.byteSize ((Import.typeModifier u).1.getD [])) (Import.typeModifier u).2 :=
    At.pass (by rwa [Import.typeModifier_append])
  rw [parseFromClause, typeModifier_eq h]
  simp only [Option.bind_eq_bind, Option.bind_some, readClause_eq _ hclause]
  cases hread : readClause? 0 false (Import.typeModifier u).2 with
  | none => simp [Import.staticSite?, hread]
  | some r =>
      have hafter : At t (offset + Text.byteSize ((Import.typeModifier u).1.getD []) + r.clause.byteSize
          + r.link.byteSize) r.rest := by
        rw [Import.readClause?_append hread, ClauseRead.text, List.append_assoc] at hclause
        exact hclause.pass.pass
      simp only [Option.map_some, stops, skipTrivia_eq hafter]
      cases hquoted : quoted? (trivia r.rest).2 with
      | none =>
          obtain ⟨stop, hstop⟩ := parseQuoted_of_none hafter.trivia hquoted
          simp [hstop, Import.staticSite?, hread, hquoted]
      | some r' =>
          obtain ⟨q, specifier, rest⟩ := r'
          obtain ⟨hq, hstop⟩ := parseQuoted_of_some hafter.trivia hquoted
          simp only [Option.bind_some, hstop]
          simp [Import.staticSite?, hread, hquoted, Mark.of, Site.locate, Site.text, Range.at,
            utf8Size_of_isQuote hq]
          have hempty : r.clause = [] → r.clause.byteSize = 0 := fun h => h ▸ rfl
          refine ⟨by omega, by omega, by omega, ?_⟩
          split
          next hnil => rw [hempty hnil]; omega
          next => omega

/-! ## The site after a keyword -/

/-- The site behind an `import`. -/
theorem parseImport_eq (h : At t (start + 6) u) :
    parseImport t start = some ((Import.importSite? u).map fun r => .of (r.1.locate start)) := by
  rw [parseImport, skipTrivia_eq h, Import.importSite?]
  simp only [Option.bind_eq_bind, Option.bind_some]
  have hnext := h.trivia
  have hhead : start + Text.byteSize (Keyword.importing.text ++ (trivia u).1)
      = start + 6 + (trivia u).1.byteSize := by
    rw [Text.byteSize_append, show Keyword.importing.text.byteSize = 6 from rfl, Nat.add_assoc]
  cases hrest : (trivia u).2 with
  | nil =>
      rw [hrest] at hnext
      simp only [hnext.byte?_nil]
      rfl
  | cons c after =>
      rw [hrest] at hnext
      obtain ⟨b, hb, hbyte⟩ := hnext.byte?_first
      simp only [hbyte, beq_byteOf (d := '(') (by decide) hb, tests_isQuoteByte c b hb,
        tests_isIdentByte c b hb, beq_byteOf (d := '\x7b') (by decide) hb,
        beq_byteOf (d := '*') (by decide) hb]
      by_cases hopen : (c == '(') = true
      · have hascii : c.toNat < 0x80 := by
          rw [beq_iff_eq.mp hopen]
          decide
        rw [if_pos hopen, if_pos hopen]
        refine parseDynamic_eq (hnext.next_ascii hascii) ?_
        rw [Text.byteSize_append, ← Nat.add_assoc, hhead, Text.byteSize_cons, utf8Size_ascii hascii]
        rfl
      rw [if_neg hopen, if_neg hopen]
      by_cases hq : isQuote c = true
      · rw [if_pos hq, if_pos hq]
        exact parseSideEffect_eq hnext hhead
      rw [if_neg hq, if_neg hq]
      by_cases hclause : (isIdent c || c == '\x7b' || c == '*') = true
      · rw [if_pos hclause, if_pos hclause]
        exact parseFromClause_eq hnext hhead
      · rw [if_neg hclause, if_neg hclause]
        rfl

theorem clauseStart_eq (h : At t offset u) :
    ∃ ahead, clauseStart t offset = some ahead ∧
      At t ahead (if (word u).1 == "type" then (word u).2.dropWhile Text.isAsciiBlank else u) := by
  rw [clauseStart, wordAt_eq h]
  simp only [Option.bind_eq_bind, Option.bind_some]
  by_cases htype : (word u).1 = "type"
  · have hword : At t (offset + 4) (word u).2 := by
      have hword := h.word
      rwa [htype] at hword
    rw [htype, beq_self_eq_true, if_pos rfl, if_pos rfl, skipBlanks_eq hword]
    exact ⟨_, rfl, At.pass (by rwa [List.takeWhile_append_dropWhile])⟩
  · rw [beq_eq_false_iff_ne.mpr htype]
    exact ⟨offset, rfl, h⟩

/-- The site behind an `export`. -/
theorem parseExport_eq (h : At t (start + 6) u) :
    parseExport t start = some ((Import.exportSite? u).map fun r => .of (r.1.locate start)) := by
  have hnext := h.trivia
  have hhead : start + Text.byteSize (Keyword.exporting.text ++ (trivia u).1)
      = start + 6 + (trivia u).1.byteSize := by
    rw [Text.byteSize_append, show Keyword.exporting.text.byteSize = 6 from rfl, Nat.add_assoc]
  obtain ⟨ahead, hskip, hahead⟩ := clauseStart_eq hnext
  have hreexports : (isAt t ahead '\x7b' || isAt t ahead '*') = Import.reexports (trivia u).2 := by
    rw [isAt_eq hahead (by decide), isAt_eq hahead (by decide), Import.reexports]
    cases (if (word (trivia u).2).1 == "type" then (word (trivia u).2).2.dropWhile Text.isAsciiBlank
      else (trivia u).2) with
    | nil => rfl
    | cons c v => rfl
  rw [parseExport, skipTrivia_eq h, Import.exportSite?]
  simp only [Option.bind_eq_bind, Option.bind_some, hskip, hreexports]
  split
  · exact parseFromClause_eq hnext hhead
  · rfl

theorem parseAfter_eq {k : Keyword} (h : At t (start + k.text.byteSize) u) :
    parseAfter t k start = some ((Import.siteAfter? k u).map fun r => .of (r.1.locate start)) := by
  cases k with
  | importing => exact parseImport_eq h
  | exporting => exact parseExport_eq h

end Typings.Offset
