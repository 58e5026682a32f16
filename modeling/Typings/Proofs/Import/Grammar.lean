import Typings.Import.Scan

/-!
# `Grammar` — declaration text written item by item

The texts that a compiler writes are lists of lines: imports, re-exports, references, exports of
names, plain declarations and comments.  This module says how each is written and which site is to be
found in it, without a word about scanning.

* `Word`, `Name`, `Literal`, `Binding`, `Token`, `PlainDeclaration`: the parts; each carries what makes
  it one.
* `Item`, `Item.text`, `Item.line`: one line, without and with its end; `render` writes a list of them.
* `Item.found?`, `foundFrom`: the site of an item, and the sites of a list in order, as `Found`s.
-/

namespace Typings.Import

/-! ## The parts of a line -/

theorem import_append (t : Text) : ("import " ++ t : Text) = Keyword.importing.text ++ ' ' :: t := rfl

theorem export_append (t : Text) : ("export " ++ t : Text) = Keyword.exporting.text ++ ' ' :: t := rfl

/-- An identifier run other than the words that start a site. -/
structure Word where
  text : Text
  nonempty : text ≠ []
  ident : ∀ c ∈ text, isIdent c = true
  not_import : text ≠ "import"
  not_export : text ≠ "export"

/-- A word that can be bound: `from` and `type` have a meaning of their own in a clause. -/
structure Name extends Word where
  not_from : text ≠ "from"
  not_type : text ≠ "type"

/-- The two kinds of quotes. -/
inductive Quote where
  | single
  | double
deriving DecidableEq, Repr

/-- The character of a quote. -/
def Quote.char : Quote → Char
  | .single => '\''
  | .double => '"'

/-- The characters that may stand between two quotes: all but the quote itself, the backslash and the
    line feed. -/
def Quote.admits (q : Quote) (c : Char) : Prop := c ≠ q.char ∧ c ≠ '\\' ∧ c ≠ '\n'

instance (q : Quote) (c : Char) : Decidable (q.admits c) := inferInstanceAs (Decidable (_ ∧ _ ∧ _))

/-- A quoted string without escapes. -/
structure Literal where
  quote : Quote
  body : Text
  plain : ∀ c ∈ body, quote.admits c

/-- The literal with its quotes. -/
def Literal.text (l : Literal) : Text := l.quote.char :: l.body ++ [l.quote.char]

/-- One binding between braces: `a`, `a as b`, `type A` or `type A as B`. -/
structure Binding where
  typed : Bool
  name : Name
  renamed : Option Name

/-- The `type` modifier in front of a clause or a binding. -/
def modifier (typed : Bool) : Text := if typed then "type " else ""

/-- The spelling of a binding. -/
def Binding.text (b : Binding) : Text :=
  modifier b.typed ++ b.name.text ++ match b.renamed with
    | some n => " as " ++ n.text
    | none => ""

/-- A binding that keeps its name is that name, behind its modifier. -/
theorem Binding.text_kept (ty : Bool) (n : Name) :
    (⟨ty, n, none⟩ : Binding).text = modifier ty ++ n.text ++ "" := rfl

/-- A binding that is renamed has both names. -/
theorem Binding.text_renamed (ty : Bool) (n m : Name) :
    (⟨ty, n, some m⟩ : Binding).text = modifier ty ++ n.text ++ (" as " ++ m.text) := rfl

/-- Bindings between braces, with commas between them. -/
def braces (bs : List Binding) : Text :=
  "\x7b " ++ List.intercalate ", " (bs.map Binding.text) ++ " \x7d"

/-- What an import binds. -/
inductive ImportClause where
  /-- A default name. -/
  | default (n : Name)
  /-- Everything under one name: `* as n`. -/
  | all (n : Name)
  /-- The bindings between braces. -/
  | named (bs : List Binding)
  /-- A default name, a comma and the bindings between braces. -/
  | both (n : Name) (bs : List Binding)

/-- The spelling of an import's clause. -/
def ImportClause.text : ImportClause → Text
  | .default n => n.text
  | .all n => "* as " ++ n.text
  | .named bs => braces bs
  | .both n bs => n.text ++ ", " ++ braces bs

/-- A default name stands in front of the braces. -/
theorem ImportClause.text_both (n : Name) (bs : List Binding) :
    (ImportClause.both n bs).text = n.text ++ ", " ++ braces bs := rfl

/-- What a re-export passes on. -/
inductive ExportClause where
  /-- Everything: `*`. -/
  | all
  /-- Everything under one name: `* as n`. -/
  | allAs (n : Name)
  /-- The bindings between braces. -/
  | named (bs : List Binding)

/-- The spelling of a re-export's clause. -/
def ExportClause.text : ExportClause → Text
  | .all => "*"
  | .allAs n => "* as " ++ n.text
  | .named bs => braces bs

/-- The single characters that are lexemes whatever follows them. -/
def isMark (c : Char) : Bool := !isQuote c && c != templateMark && !isIdent c && c != '/'

/-- A piece of a declaration. -/
inductive Token where
  | word (w : Word)
  /-- A blank or a punctuation mark. -/
  | mark (c : Char) (single : isMark c = true)
  | literal (l : Literal)

/-- The spelling of a token. -/
def Token.text : Token → Text
  | .word w => w.text
  | .mark c _ => [c]
  | .literal l => l.text

/-- The spelling of tokens in a row. -/
def tokensText (ts : List Token) : Text := ts.flatMap Token.text

/-- No word stands directly behind another, so each ends where it was meant to. -/
def apart : List Token → Bool
  | .word _ :: .word _ :: _ => false
  | _ :: ts => apart ts
  | [] => true

/-- Nothing that a clause could start with follows the blanks of the text. -/
def NoClause (t : Text) : Prop :=
  ∀ c ∈ (t.dropWhile Text.isAsciiBlank).head?, (c == '\x7b' || c == '*') = false

/-- A declaration without imports: words, marks and literals in any order behind a first word, such as
    `declare const n: 'a' | 'b'` and `export type T = { kind: "a" }`. -/
structure PlainDeclaration where
  exported : Bool
  first : Word
  tokens : List Token
  words_apart : apart (.word first :: tokens) = true
  /-- Braces or a star behind `export type` would be a re-export. -/
  named : exported = true → first.text = "type" → NoClause (tokensText tokens)

/-! ## Lines -/

/-- One line of declaration text. -/
inductive Item where
  /-- An import of bindings: `import [type ]C from Q`. -/
  | importFrom (typed : Bool) (clause : ImportClause) (source : Literal)
  /-- A re-export: `export [type ]C from Q`. -/
  | exportFrom (typed : Bool) (clause : ExportClause) (source : Literal)
  /-- An import for its effects alone: `import Q`. -/
  | sideEffect (source : Literal)
  /-- A type named in place: `export declare const n: import(Q).m`. -/
  | reference (name : Name) (source : Literal) (member : Name)
  /-- The bindings between braces after `export`, without a `from`. -/
  | exportNames (bs : List Binding)
  /-- A declaration that names no module. -/
  | declaration (d : PlainDeclaration)
  /-- A comment up to the end of the line. -/
  | lineComment (text : Text) (oneLine : '\n' ∉ text)
  /-- A comment that ends before the end of the line, and not earlier. -/
  | blockComment (text : Text) (unclosed : ¬ ['*', '/'] <:+: text)

namespace Item

/-- What a reference has in front of its `import`. -/
def referenceHead (name : Name) : Text := "export declare const " ++ name.text ++ ": "

theorem referenceHead_eq (n : Name) :
    referenceHead n = "export declare const " ++ n.text ++ ": " := rfl

/-- The spelling of an item without what ends its line. -/
def text : Item → Text
  | .importFrom ty c q => "import " ++ modifier ty ++ c.text ++ " from " ++ q.text
  | .exportFrom ty c q => "export " ++ modifier ty ++ c.text ++ " from " ++ q.text
  | .sideEffect q => "import " ++ q.text
  | .reference n q m => referenceHead n ++ "import(" ++ q.text ++ ")." ++ m.text
  | .exportNames bs => "export " ++ braces bs
  | .declaration d => (if d.exported then "export " else "") ++ (d.first.text ++ tokensText d.tokens)
  | .lineComment t _ => "//" ++ t
  | .blockComment t _ => "/*" ++ t ++ "*/"

/-- What ends the line of an item: a comment needs no semicolon. -/
def ending : Item → Text
  | .lineComment _ _ | .blockComment _ _ => "\n"
  | _ => ";\n"

/-- The whole line of an item. -/
def line (i : Item) : Text := i.text ++ i.ending

theorem text_importFrom (ty : Bool) (c : ImportClause) (q : Literal) :
    (importFrom ty c q).text = "import " ++ modifier ty ++ c.text ++ " from " ++ q.text := rfl

theorem text_exportFrom (ty : Bool) (c : ExportClause) (q : Literal) :
    (exportFrom ty c q).text = "export " ++ modifier ty ++ c.text ++ " from " ++ q.text := rfl

theorem line_importFrom (ty : Bool) (c : ImportClause) (q : Literal) :
    (importFrom ty c q).line = "import " ++ modifier ty ++ c.text ++ " from " ++ q.text ++ ";\n" := rfl

theorem line_exportFrom (ty : Bool) (c : ExportClause) (q : Literal) :
    (exportFrom ty c q).line = "export " ++ modifier ty ++ c.text ++ " from " ++ q.text ++ ";\n" := rfl

theorem line_sideEffect (q : Literal) : (sideEffect q).line = "import " ++ q.text ++ ";\n" := rfl

/-- The line of a reference ends in the type that is named in place. -/
theorem line_reference (n : Name) (q : Literal) (m : Name) :
    (reference n q m).line
      = referenceHead n ++ "import(" ++ q.text ++ ")." ++ m.text ++ ";\n" := rfl

theorem line_exportNames (bs : List Binding) :
    (exportNames bs).line = "export " ++ braces bs ++ ";\n" := rfl

/-- The line of a plain declaration is its tokens, behind `export` if it is exported. -/
theorem line_declaration (d : PlainDeclaration) :
    (declaration d).line
      = (if d.exported then "export " else "") ++ (d.first.text ++ tokensText d.tokens) ++ ";\n" := rfl

theorem line_lineComment (t : Text) (h : '\n' ∉ t) : (lineComment t h).line = "//" ++ t ++ "\n" := rfl

theorem line_blockComment (t : Text) (h : ¬ ['*', '/'] <:+: t) :
    (blockComment t h).line = "/*" ++ t ++ "*/" ++ "\n" := rfl

end Item

/-- The text of a list of items. -/
def render (items : List Item) : Text := items.flatMap Item.line

/-! ## What is to be found -/

/-- A site as a reader of the text sees it. -/
structure Found where
  kind : SiteKind
  keyword : Keyword
  typeOnly : Bool
  clause : Text
  specifier : Text
  /-- The bytes of the site. -/
  span : Range
deriving DecidableEq, Repr

/-- The site in the line of an item that starts at an offset.  An import for its effects alone goes up
    to the end of its line, every other site stops before the semicolon. -/
def Item.found? (offset : Nat) : Item → Option Found
  | i@(.importFrom ty c q) =>
    some ⟨.static, .importing, ty, c.text, q.body, .at offset i.text⟩
  | i@(.exportFrom ty c q) =>
    some ⟨.static, .exporting, ty, c.text, q.body, .at offset i.text⟩
  | i@(.sideEffect q) => some ⟨.sideEffect, .importing, false, "", q.body, .at offset i.line⟩
  | .reference n q _ =>
    some ⟨.dynamic, .importing, false, "", q.body,
      .at (offset + (referenceHead n).byteSize) ("import(" ++ q.text ++ ")")⟩
  | _ => none

/-- The sites of the items of a text that starts at an offset, in order. -/
def foundFrom (offset : Nat) : List Item → List Found
  | [] => []
  | i :: items => (i.found? offset).toList ++ foundFrom (offset + i.line.byteSize) items

/-- What a reader sees of a site with its ranges. -/
def Located.found (l : Located) : Found :=
  ⟨l.site.kind, l.site.keyword, l.site.typeOnly, l.site.clause, l.site.specifier, l.span⟩

end Typings.Import
