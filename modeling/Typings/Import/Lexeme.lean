import Typings.Text

/-!
# Lexemes of declaration text

What stands in comments, strings and template literals is never a statement, so the text is cut
into lexemes first: comments, literals, identifier runs and single characters.

* `isIdent`: the characters of identifiers; every character beyond ASCII counts.
* `lexeme`: the first lexeme of a text and the rest.
* `trivia`: the blanks and comments in front of a text and the rest.
* `quoted?`: a terminated string at the front of a text.

Each of these cuts its text in two, which the lemmas `*_append` say.

A literal or a comment that is not closed goes up to the end of the text, or of the line for a string.
-/

namespace Typings.Import

/-- The characters of an identifier. -/
def isIdent (c : Char) : Bool := c.isAlphanum || c == '_' || c == '$' || 0x80 ≤ c.toNat

/-- The identifier run in front of a text, and the rest. -/
def word (t : Text) : Text × Text := (t.takeWhile isIdent, t.dropWhile isIdent)

/-- The text of a line comment up to its line feed, and the rest. -/
def lineComment (t : Text) : Text × Text := (t.takeWhile (· != '\n'), t.dropWhile (· != '\n'))

/-- The rest of a block comment with its closing mark, and the text after it. -/
def blockComment : Text → Text × Text
  | '*' :: '/' :: t => (['*', '/'], t)
  | c :: t => let (a, b) := blockComment t; (c :: a, b)
  | [] => ([], [])

/-- The body of a string, and the rest from its closing quote or the line feed that ends it; a
    backslash takes the next character along. -/
def stringBody (quote : Char) : Text → Text × Text
  | '\\' :: c :: t => let (a, b) := stringBody quote t; ('\\' :: c :: a, b)
  | c :: t =>
    if c == quote || c == '\n' then ([], c :: t)
    else let (a, b) := stringBody quote t; (c :: a, b)
  | [] => ([], [])

/-- The mark around template literals. -/
def templateMark : Char := '\x60'

/-- The body of a template literal with its closing mark, and the rest. -/
def templateBody : Text → Text × Text
  | '\\' :: c :: t => let (a, b) := templateBody t; ('\\' :: c :: a, b)
  | c :: t =>
    if c == templateMark then ([c], t)
    else let (a, b) := templateBody t; (c :: a, b)
  | [] => ([], [])

/-- Single and double quotes. -/
def isQuote (c : Char) : Bool := c == '\'' || c == '"'

/-- A string with its closing quote, if it has one, and the rest. -/
def stringRest (quote : Char) (t : Text) : Text × Text :=
  match stringBody quote t with
  | (body, c :: rest) => if c == quote then (body ++ [c], rest) else (body, c :: rest)
  | (body, []) => (body, [])

/-- The first lexeme of a text, and the rest. -/
def lexeme : Text → Text × Text
  | [] => ([], [])
  | '/' :: '/' :: t => let (a, b) := lineComment t; ('/' :: '/' :: a, b)
  | '/' :: '*' :: t => let (a, b) := blockComment t; ('/' :: '*' :: a, b)
  | c :: t =>
    if isQuote c then let (a, b) := stringRest c t; (c :: a, b)
    else if c == templateMark then let (a, b) := templateBody t; (c :: a, b)
    else if isIdent c then let (a, b) := word t; (c :: a, b)
    else ([c], t)

/-- Where the characters between two tokens stand. -/
inductive TriviaState where
  | code
  | line
  | block

/-- The blanks and comments in front of a text, and the rest. -/
def triviaFrom : TriviaState → Text → Text × Text
  | _, [] => ([], [])
  | .code, '/' :: '/' :: t => let (a, b) := triviaFrom .line t; ('/' :: '/' :: a, b)
  | .code, '/' :: '*' :: t => let (a, b) := triviaFrom .block t; ('/' :: '*' :: a, b)
  | .code, c :: t =>
    if Text.isAsciiBlank c then let (a, b) := triviaFrom .code t; (c :: a, b) else ([], c :: t)
  | .line, '\n' :: t => let (a, b) := triviaFrom .code t; ('\n' :: a, b)
  | .line, c :: t => let (a, b) := triviaFrom .line t; (c :: a, b)
  | .block, '*' :: '/' :: t => let (a, b) := triviaFrom .code t; ('*' :: '/' :: a, b)
  | .block, c :: t => let (a, b) := triviaFrom .block t; (c :: a, b)

/-- The blanks and comments in front of a text, and the rest. -/
def trivia (t : Text) : Text × Text := triviaFrom .code t

/-- A terminated string at the front of a text: its quote, its body and the rest. -/
def quoted? : Text → Option (Char × Text × Text)
  | [] => none
  | q :: t =>
    if isQuote q then
      match stringBody q t with
      | (body, c :: rest) => if c == q then some (q, body, rest) else none
      | (_, []) => none
    else none

/-! ## Nothing is lost -/

theorem word_append (t : Text) : (word t).1 ++ (word t).2 = t := List.takeWhile_append_dropWhile

theorem lineComment_append (t : Text) : (lineComment t).1 ++ (lineComment t).2 = t :=
  List.takeWhile_append_dropWhile

theorem blockComment_append (t : Text) : (blockComment t).1 ++ (blockComment t).2 = t := by
  fun_induction blockComment t <;> simp_all

theorem stringBody_append (q : Char) (t : Text) : (stringBody q t).1 ++ (stringBody q t).2 = t := by
  fun_induction stringBody q t <;> simp_all

theorem templateBody_append (t : Text) : (templateBody t).1 ++ (templateBody t).2 = t := by
  fun_induction templateBody t <;> simp_all

theorem stringRest_append (q : Char) (t : Text) : (stringRest q t).1 ++ (stringRest q t).2 = t := by
  have h := stringBody_append q t
  unfold stringRest
  split
  · rename_i body c rest heq
    rw [heq] at h
    split <;> simpa using h
  · rename_i body heq
    rw [heq] at h
    simpa using h

/-- A lexeme and the rest are the text. -/
theorem lexeme_append (t : Text) : (lexeme t).1 ++ (lexeme t).2 = t := by
  unfold lexeme
  split
  · rfl
  · simp [lineComment_append]
  · simp [blockComment_append]
  · rename_i c t _ _
    split
    · simp [stringRest_append]
    · split
      · simp [templateBody_append]
      · split
        · simp [word_append]
        · rfl

/-- What is passed over and the rest are the text, whatever the state it starts in. -/
theorem triviaFrom_append (s : TriviaState) (t : Text) :
    (triviaFrom s t).1 ++ (triviaFrom s t).2 = t := by
  fun_induction triviaFrom s t <;> simp_all

/-- What is passed over and the rest are the text. -/
theorem trivia_append (t : Text) : (trivia t).1 ++ (trivia t).2 = t := triviaFrom_append .code t

/-- A string that is read and the rest are the text. -/
theorem quoted?_append {t body rest : Text} {q : Char} (h : quoted? t = some (q, body, rest)) :
    t = q :: body ++ q :: rest := by
  unfold quoted? at h
  split at h
  · simp at h
  · rename_i c t
    have hs := stringBody_append c t
    split at h
    · split at h
      · rename_i b d r heq
        rw [heq] at hs
        split at h
        · rename_i hd
          simp at hd h
          obtain ⟨rfl, rfl, rfl⟩ := h
          subst hd
          simp [← hs]
        · simp at h
      · simp at h
    · simp at h

/-- A lexeme takes at least one character. -/
theorem lexeme_rest_lt {t : Text} (h : t ≠ []) : (lexeme t).2.length < t.length := by
  have ha := congrArg List.length (lexeme_append t)
  have hne : (lexeme t).1 ≠ [] := by
    unfold lexeme
    split
    · contradiction
    · simp
    · simp
    · split
      · simp
      · split
        · simp
        · split <;> simp
  have hpos := List.length_pos_iff.mpr hne
  simp at ha
  omega

/-- Trivia leave no more than they are given. -/
theorem trivia_rest_le (t : Text) : (trivia t).2.length ≤ t.length := by
  have h := congrArg List.length (trivia_append t)
  simp at h
  omega

end Typings.Import
