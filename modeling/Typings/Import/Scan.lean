import Typings.Import.Lexeme
import Typings.Import.Site

/-!
# Finding import sites

A keyword outside comments and literals, and not a property, may start a site.  What does not read as
a site is left in the text, and scanning goes on after the keyword.

* `importSite?`, `exportSite?`: the site after a keyword and the text after the site.
* `SiteRead`: how a site was read from the text behind its keyword.
* `scan`: a text cut at its sites; `text_scan` says that putting it together gives the text back.

How a site was read is kept as a relation, so that what is shown about sites is shown once for each
kind and not along the branches of the reader.  `Proofs.Import.Soundness` and
`Proofs.Import.Completeness` say which sites are found.
-/

namespace Typings.Import

/-! ## The clause of a static site -/

/-- A clause that has been read: its text, the text after it up to and with `from`, and the rest. -/
structure ClauseRead where
  clause : Text
  link : Text
  rest : Text

/-- The clause with a text in front. -/
def ClauseRead.join (text : Text) (r : ClauseRead) : ClauseRead :=
  { r with clause := text ++ r.clause }

/-- A text in front that only joins the clause when something after it does. -/
def ClauseRead.hold (text : Text) (r : ClauseRead) : ClauseRead :=
  if r.clause.isEmpty then { r with link := text ++ r.link } else r.join text

/-- Reads bindings up to a `from` outside braces that has a binding before it.  An opening brace only
    joins the clause when something else does; `seen` tells that there was a binding. -/
def readClause? (depth : Nat) (seen : Bool) (t : Text) : Option ClauseRead :=
  match _h : (trivia t).2 with
  | [] => none
  | c :: rest =>
    let blanks := (trivia t).1
    if c == '\x7b' then (readClause? (depth + 1) seen rest).map (.hold (blanks ++ [c]))
    else if c == '\x7d' then
      match depth with
      | 0 => none
      | d + 1 => (readClause? d true rest).map (.join (blanks ++ [c]))
    else if c == ',' || c == '*' then
      (readClause? depth (seen || c == '*') rest).map (.join (blanks ++ [c]))
    else if isIdent c then
      let name := c :: (word rest).1
      if name == "from" && depth == 0 && seen then some ⟨[], blanks ++ name, (word rest).2⟩
      else (readClause? depth true (word rest).2).map (.join (blanks ++ name))
    else none
termination_by t.length
decreasing_by
  all_goals
    have h1 := trivia_rest_le t
    have h2 := congrArg List.length (word_append rest)
    have h3 := congrArg List.length _h
    simp at h2 h3
    omega

/-- After `type`, a `from` directly before a string is the default binding's end: `type` itself is
    bound. -/
def bindsType (t : Text) : Bool :=
  (word t).1 == "from" &&
    match ((word t).2.dropWhile Text.isAsciiBlank) with
    | c :: _ => isQuote c
    | [] => false

/-- The `type` modifier with the blanks after it, if there is one, and the rest. -/
def typeModifier (t : Text) : Option Text × Text :=
  if (word t).1 == "type" then
    let (blanks, rest) := trivia (word t).2
    if bindsType rest then (none, t) else (some ((word t).1 ++ blanks), rest)
  else (none, t)

/-- A static site after its keyword, with what stands between them, and the text after it. -/
def staticSite? (keyword : Keyword) (head t : Text) : Option (Site × Text) := do
  let (modifier, rest) := typeModifier t
  let read ← readClause? 0 false rest
  let (blanks, rest) := trivia read.rest
  let (q, specifier, rest) ← quoted? rest
  let site : Site :=
    { kind := .static
      keyword := keyword
      typeOnly := modifier.isSome
      head := head ++ modifier.getD []
      clause := read.clause
      link := read.link ++ blanks ++ [q]
      specifier := specifier
      tail := [q] }
  pure (site, rest)

/-! ## Sites by keyword -/

/-- A semicolon in front of a text, and the rest. -/
def semicolon : Text → Text × Text
  | ';' :: t => ([';'], t)
  | t => ([], t)

/-- A line ending in front of a text, and the rest. -/
def lineBreak : Text → Text × Text
  | '\r' :: '\n' :: t => (['\r', '\n'], t)
  | '\n' :: t => (['\n'], t)
  | t => ([], t)

/-- A semicolon and a line ending directly after a side-effect import, and the rest. -/
def statementEnd (t : Text) : Text × Text :=
  let (mark, rest) := semicolon t
  let (ending, rest) := lineBreak rest
  (mark ++ ending, rest)

/-- A dynamic import after its opening parenthesis. -/
def dynamicSite? (head t : Text) : Option (Site × Text) := do
  let (blanks, rest) := trivia t
  let (q, specifier, rest) ← quoted? rest
  let (after, rest) := trivia rest
  match rest with
  | ')' :: rest =>
    let site : Site :=
      { kind := .dynamic
        keyword := .importing
        typeOnly := false
        head := head ++ blanks ++ [q]
        clause := []
        link := []
        specifier := specifier
        tail := q :: after ++ [')'] }
    pure (site, rest)
  | _ => none

/-- An import of a module for its effects alone. -/
def sideEffectSite? (head t : Text) : Option (Site × Text) := do
  let (q, specifier, rest) ← quoted? t
  let (ending, rest) := statementEnd rest
  let site : Site :=
    { kind := .sideEffect
      keyword := .importing
      typeOnly := false
      head := head ++ [q]
      clause := []
      link := []
      specifier := specifier
      tail := q :: ending }
  pure (site, rest)

/-- The site that starts with `import`, given the text after the keyword. -/
def importSite? (t : Text) : Option (Site × Text) :=
  let (blanks, rest) := trivia t
  let head := Keyword.importing.text ++ blanks
  match rest with
  | [] => none
  | c :: after =>
    if c == '(' then dynamicSite? (head ++ [c]) after
    else if isQuote c then sideEffectSite? head rest
    else if isIdent c || c == '\x7b' || c == '*' then staticSite? .importing head rest
    else none

/-- After `export`, braces or a star follow, perhaps after `type`. -/
def reexports (t : Text) : Bool :=
  let ahead := if (word t).1 == "type" then (word t).2.dropWhile Text.isAsciiBlank else t
  match ahead with
  | c :: _ => c == '\x7b' || c == '*'
  | [] => false

/-- The site that starts with `export`, given the text after the keyword: only a re-export is one. -/
def exportSite? (t : Text) : Option (Site × Text) :=
  let (blanks, rest) := trivia t
  if reexports rest then staticSite? .exporting (Keyword.exporting.text ++ blanks) rest else none

/-- The keyword a lexeme is, if any. -/
def keyword? (lexeme : Text) : Option Keyword :=
  if lexeme == Keyword.importing.text then some .importing
  else if lexeme == Keyword.exporting.text then some .exporting
  else none

/-- The site after a keyword. -/
def siteAfter? : Keyword → Text → Option (Site × Text)
  | .importing, t => importSite? t
  | .exporting, t => exportSite? t

/-! ## How a site was read -/

/-- A static site is a modifier or none, a clause that was read and the string behind it. -/
theorem exists_of_staticSite? {keyword : Keyword} {head t rest : Text} {s : Site}
    (h : staticSite? keyword head t = some (s, rest)) :
    ∃ read q specifier, readClause? 0 false (typeModifier t).2 = some read ∧
      quoted? (trivia read.rest).2 = some (q, specifier, rest) ∧
      s =
        { kind := .static
          keyword := keyword
          typeOnly := (typeModifier t).1.isSome
          head := head ++ (typeModifier t).1.getD []
          clause := read.clause
          link := read.link ++ (trivia read.rest).1 ++ [q]
          specifier := specifier
          tail := [q] } := by
  simp only [staticSite?, Option.pure_def, Option.bind_eq_bind, Option.bind_eq_some_iff] at h
  obtain ⟨read, hread, ⟨q, specifier, rest⟩, hq, hs⟩ := h
  simp only [Option.some.injEq, Prod.mk.injEq] at hs
  obtain ⟨rfl, rfl⟩ := hs
  exact ⟨read, q, specifier, hread, hq, rfl⟩

/-- A dynamic import is a string and a closing parenthesis. -/
theorem exists_of_dynamicSite? {head t rest : Text} {s : Site}
    (h : dynamicSite? head t = some (s, rest)) :
    ∃ q specifier after, quoted? (trivia t).2 = some (q, specifier, after) ∧
      (trivia after).2 = ')' :: rest ∧
      s =
        { kind := .dynamic
          keyword := .importing
          typeOnly := false
          head := head ++ (trivia t).1 ++ [q]
          clause := []
          link := []
          specifier := specifier
          tail := q :: (trivia after).1 ++ [')'] } := by
  simp only [dynamicSite?, Option.pure_def, Option.bind_eq_bind, Option.bind_eq_some_iff] at h
  obtain ⟨⟨q, specifier, after⟩, hq, hs⟩ := h
  split at hs
  · next hclose =>
      simp only [Option.some.injEq, Prod.mk.injEq] at hs
      obtain ⟨rfl, rfl⟩ := hs
      exact ⟨q, specifier, after, hq, hclose, rfl⟩
  · cases hs

/-- An import for its effects is a string and the end of its statement. -/
theorem exists_of_sideEffectSite? {head t rest : Text} {s : Site}
    (h : sideEffectSite? head t = some (s, rest)) :
    ∃ q specifier after, quoted? t = some (q, specifier, after) ∧ (statementEnd after).2 = rest ∧
      s =
        { kind := .sideEffect
          keyword := .importing
          typeOnly := false
          head := head ++ [q]
          clause := []
          link := []
          specifier := specifier
          tail := q :: (statementEnd after).1 } := by
  simp only [sideEffectSite?, Option.pure_def, Option.bind_eq_bind, Option.bind_eq_some_iff] at h
  obtain ⟨⟨q, specifier, after⟩, hq, hs⟩ := h
  simp only [Option.some.injEq, Prod.mk.injEq] at hs
  obtain ⟨rfl, rfl⟩ := hs
  exact ⟨q, specifier, after, hq, rfl, rfl⟩

/-- A site and the text after it, read from the text behind a keyword: what comes first there tells how. -/
inductive SiteRead (t : Text) (s : Site) (rest : Text) : Keyword → Prop where
  | dynamic {after : Text} (hnext : (trivia t).2 = '(' :: after)
      (h : dynamicSite? (Keyword.importing.text ++ (trivia t).1 ++ ['(']) after = some (s, rest)) :
      SiteRead t s rest .importing
  | sideEffect {c : Char} {after : Text} (hnext : (trivia t).2 = c :: after) (hquote : isQuote c = true)
      (h : sideEffectSite? (Keyword.importing.text ++ (trivia t).1) (trivia t).2 = some (s, rest)) :
      SiteRead t s rest .importing
  | imported {c : Char} {after : Text} (hnext : (trivia t).2 = c :: after)
      (hstarts : (isIdent c || c == '\x7b' || c == '*') = true)
      (h : staticSite? .importing (Keyword.importing.text ++ (trivia t).1) (trivia t).2 = some (s, rest)) :
      SiteRead t s rest .importing
  | reexported (hstarts : reexports (trivia t).2 = true)
      (h : staticSite? .exporting (Keyword.exporting.text ++ (trivia t).1) (trivia t).2 = some (s, rest)) :
      SiteRead t s rest .exporting

/-- Whatever site is found behind a keyword, one of the readers of sites has read it there. -/
theorem siteRead_of_siteAfter? {k : Keyword} {t rest : Text} {s : Site}
    (h : siteAfter? k t = some (s, rest)) : SiteRead t s rest k := by
  cases k with
  | exporting =>
      simp only [siteAfter?, exportSite?] at h
      split at h
      · next hstarts => exact .reexported hstarts h
      · cases h
  | importing =>
      simp only [siteAfter?, importSite?] at h
      split at h
      · cases h
      next c after hnext =>
      split at h
      · next hopen =>
          obtain rfl := beq_iff_eq.mp hopen
          exact .dynamic hnext h
      split at h
      · next hquote => exact .sideEffect hnext hquote h
      split at h
      · next hstarts => exact .imported hnext hstarts h
      · cases h

/-! ## Nothing is lost -/

/-- The text of a clause that has been read. -/
def ClauseRead.text (r : ClauseRead) : Text := r.clause ++ r.link ++ r.rest

theorem ClauseRead.text_join (text : Text) (r : ClauseRead) : (r.join text).text = text ++ r.text := by
  simp [join, ClauseRead.text]

theorem ClauseRead.text_hold (text : Text) (r : ClauseRead) : (r.hold text).text = text ++ r.text := by
  unfold hold
  split
  · rename_i hc
    have hc : r.clause = [] := List.isEmpty_iff.mp hc
    simp [ClauseRead.text, hc]
  · exact text_join text r

/-- Reading a clause loses no character. -/
theorem readClause?_append {t : Text} {depth : Nat} {seen : Bool} {r : ClauseRead}
    (h : readClause? depth seen t = some r) : t = r.text := by
  revert r
  fun_induction readClause? depth seen t
  case case1 => intro r h; simp at h
  case case2 t c rest heq blanks hc ih =>
    intro r h
    obtain ⟨r', hr, rfl⟩ := Option.map_eq_some_iff.mp h
    rw [ClauseRead.text_hold, ← ih hr, List.append_assoc, List.singleton_append, ← heq]
    exact (trivia_append t).symm
  case case3 => intro r h; simp at h
  case case4 t c rest heq blanks _ hc d ih =>
    intro r h
    obtain ⟨r', hr, rfl⟩ := Option.map_eq_some_iff.mp h
    rw [ClauseRead.text_join, ← ih hr, List.append_assoc, List.singleton_append, ← heq]
    exact (trivia_append t).symm
  case case5 t c rest heq blanks _ _ hc ih =>
    intro r h
    obtain ⟨r', hr, rfl⟩ := Option.map_eq_some_iff.mp h
    rw [ClauseRead.text_join, ← ih hr, List.append_assoc, List.singleton_append, ← heq]
    exact (trivia_append t).symm
  case case6 t c rest heq blanks _ _ _ hc name hn =>
    intro r h
    obtain rfl := Option.some.inj h
    simp only [ClauseRead.text, List.nil_append, name, List.append_assoc, List.cons_append,
      word_append]
    rw [← heq]
    exact (trivia_append t).symm
  case case7 t c rest heq blanks _ _ _ hc name hn ih =>
    intro r h
    obtain ⟨r', hr, rfl⟩ := Option.map_eq_some_iff.mp h
    rw [ClauseRead.text_join, ← ih hr]
    simp only [name, List.append_assoc, List.cons_append, word_append]
    rw [← heq]
    exact (trivia_append t).symm
  case case8 => intro r h; simp at h

/-- Reading the modifier loses no character. -/
theorem typeModifier_append (t : Text) :
    (typeModifier t).1.getD [] ++ (typeModifier t).2 = t := by
  unfold typeModifier
  have hw := word_append t
  have ht := trivia_append (word t).2
  split
  · dsimp only
    split
    · rfl
    · simp [ht, hw]
  · rfl

/-- Reading a static site loses no character. -/
theorem staticSite?_append {keyword : Keyword} {head t rest : Text} {s : Site}
    (h : staticSite? keyword head t = some (s, rest)) : head ++ t = s.text ++ rest := by
  obtain ⟨read, q, specifier, hread, hq, rfl⟩ := exists_of_staticSite? h
  have hm := typeModifier_append t
  have hc := readClause?_append hread
  have hb := trivia_append read.rest
  rw [quoted?_append hq] at hb
  conv => lhs; rw [← hm, hc, ClauseRead.text, ← hb]
  simp [Site.text]

/-- Reading the end of a statement loses no character. -/
theorem statementEnd_append (t : Text) : (statementEnd t).1 ++ (statementEnd t).2 = t := by
  have hs : (semicolon t).1 ++ (semicolon t).2 = t := by unfold semicolon; split <;> rfl
  have hl (u : Text) : (lineBreak u).1 ++ (lineBreak u).2 = u := by
    unfold lineBreak; split <;> rfl
  simp [statementEnd, hl, hs]

/-- Reading a dynamic import loses no character. -/
theorem dynamicSite?_append {head t rest : Text} {s : Site}
    (h : dynamicSite? head t = some (s, rest)) : head ++ t = s.text ++ rest := by
  obtain ⟨q, specifier, after, hq, hclose, rfl⟩ := exists_of_dynamicSite? h
  have hb := trivia_append t
  have ha := trivia_append after
  rw [hclose] at ha
  rw [quoted?_append hq] at hb
  conv => lhs; rw [← hb, ← ha]
  simp [Site.text]

/-- Reading an import for its effects loses no character. -/
theorem sideEffectSite?_append {head t rest : Text} {s : Site}
    (h : sideEffectSite? head t = some (s, rest)) : head ++ t = s.text ++ rest := by
  obtain ⟨q, specifier, after, hq, rfl, rfl⟩ := exists_of_sideEffectSite? h
  have he := statementEnd_append after
  have hq := quoted?_append hq
  simp [Site.text, hq, he]

/-- Reading a site behind its keyword loses no character. -/
theorem siteAfter?_append {k : Keyword} {t rest : Text} {s : Site}
    (h : siteAfter? k t = some (s, rest)) : k.text ++ t = s.text ++ rest := by
  conv => lhs; rw [← trivia_append t, ← List.append_assoc]
  cases siteRead_of_siteAfter? h with
  | dynamic hnext hsite =>
      rw [← dynamicSite?_append hsite, hnext]
      simp only [List.append_assoc, List.singleton_append]
  | sideEffect _ _ hsite => exact sideEffectSite?_append hsite
  | imported _ _ hsite => exact staticSite?_append hsite
  | reexported _ hsite => exact staticSite?_append hsite

theorem text_of_keyword? {l : Text} {k : Keyword} (h : keyword? l = some k) : k.text = l := by
  unfold keyword? at h
  split at h
  · simp_all
  · split at h
    · simp_all
    · simp at h

/-! ## A site starts with its keyword -/

/-- A site starts with its keyword. -/
theorem siteAfter?_head {k : Keyword} {t rest : Text} {s : Site}
    (h : siteAfter? k t = some (s, rest)) : k.text <+: s.head := by
  cases siteRead_of_siteAfter? h with
  | dynamic _ hsite =>
      obtain ⟨q, specifier, after, -, -, rfl⟩ := exists_of_dynamicSite? hsite
      simp only [List.append_assoc, List.prefix_append]
  | sideEffect _ _ hsite =>
      obtain ⟨q, specifier, after, -, -, rfl⟩ := exists_of_sideEffectSite? hsite
      simp only [List.append_assoc, List.prefix_append]
  | imported _ _ hsite =>
      obtain ⟨read, q, specifier, -, -, rfl⟩ := exists_of_staticSite? hsite
      simp only [List.append_assoc, List.prefix_append]
  | reexported _ hsite =>
      obtain ⟨read, q, specifier, -, -, rfl⟩ := exists_of_staticSite? hsite
      simp only [List.append_assoc, List.prefix_append]

/-- The text after a site is no longer than the text after its keyword. -/
theorem siteAfter?_rest_le {k : Keyword} {t rest : Text} {s : Site}
    (h : siteAfter? k t = some (s, rest)) : rest.length ≤ t.length := by
  have ha := congrArg List.length (siteAfter?_append h)
  have hh := (siteAfter?_head h).length_le
  simp [Site.text] at ha
  omega

/-! ## Scanning -/

/-- The site at the front of a text and the text after it; `property` says that a dot stands directly
    before the text, so that an identifier there is a property. -/
def siteAt? (property : Bool) (t : Text) : Option (Site × Text) :=
  if property then none else (keyword? (lexeme t).1).bind fun k => siteAfter? k (lexeme t).2

/-- A site starts with a keyword that is no property. -/
theorem exists_of_siteAt? {property : Bool} {t rest : Text} {s : Site}
    (h : siteAt? property t = some (s, rest)) :
    property = false ∧ ∃ k, keyword? (lexeme t).1 = some k ∧ siteAfter? k (lexeme t).2 = some (s, rest) := by
  cases property with
  | true => cases h
  | false => exact ⟨rfl, Option.bind_eq_some_iff.mp h⟩

/-- A site takes characters from the text, so scanning ends. -/
theorem siteAt?_rest_lt {property : Bool} {t rest : Text} {s : Site}
    (h : siteAt? property t = some (s, rest)) : rest.length < t.length := by
  obtain ⟨-, k, hk, hs⟩ := exists_of_siteAt? h
  have hne : t ≠ [] := by
    rintro rfl
    have hn : keyword? (lexeme []).1 = none := rfl
    simp [hn] at hk
  exact Nat.lt_of_le_of_lt (siteAfter?_rest_le hs) (lexeme_rest_lt hne)

/-- A site and what follows it are the text. -/
theorem siteAt?_append {property : Bool} {t rest : Text} {s : Site}
    (h : siteAt? property t = some (s, rest)) : t = s.text ++ rest := by
  obtain ⟨-, k, hk, hs⟩ := exists_of_siteAt? h
  rw [← siteAfter?_append hs, text_of_keyword? hk, lexeme_append]

/-- A text cut at its sites, given whether a dot stands directly before it. -/
def scanFrom (property : Bool) (t : Text) : Segments :=
  if hne : t = [] then ⟨[], []⟩
  else
    match hs : siteAt? property t with
    | some (site, rest) =>
      have := siteAt?_rest_lt hs
      (scanFrom false rest).consSite site
    | none =>
      have := lexeme_rest_lt hne
      (scanFrom ((lexeme t).1 == ".") (lexeme t).2).prepend (lexeme t).1
termination_by t.length

/-- A text cut at its sites. -/
def scan (t : Text) : Segments := scanFrom false t

/-- The segments of a text, put together again, are the text. -/
theorem text_scanFrom (property : Bool) (t : Text) : (scanFrom property t).text = t := by
  fun_induction scanFrom property t with
  | case1 => rfl
  | case2 property t hne site rest hs hlt ih =>
      rw [Segments.text_consSite, ih, siteAt?_append hs]
  | case3 property t hne hs hlt ih =>
      rw [Segments.text_prepend, ih, lexeme_append]

/-- Putting the segments together gives the text back. -/
theorem text_scan (t : Text) : (scan t).text = t := text_scanFrom false t

end Typings.Import
