import Typings.Text

/-!
# Library names

The default export of a library is re-exported under a name made from the configured one: blanks
become hyphens, a hyphen capitalizes the word character after it, and what is no word character
disappears.

* `capitalize`: the conversion.
* `libraryName`: the name of a library, with a stand-in for a blank one.

Only the word characters of ASCII are kept; a letter beyond ASCII leaves something only where it is
capitalized and its upper case has letters of ASCII. What comes out need not be an identifier:
`Proofs.Library.Names` says for which names it is.
-/

namespace Typings.LibraryName

/-- Letters and digits of ASCII and the underscore. -/
def isWord (c : Char) : Bool := c.isAlphanum || c == '_'

/-- The letters beyond ASCII whose upper case has letters of ASCII, with those letters. -/
def expandingUpper : List (Nat × Text) :=
  [(0xDF, "SS"), (0x131, "I"), (0x149, "N"), (0x17F, "S"), (0x1F0, "J"), (0x1E96, "H"),
   (0x1E97, "T"), (0x1E98, "W"), (0x1E99, "Y"), (0x1E9A, "A"), (0xFB00, "FF"), (0xFB01, "FI"),
   (0xFB02, "FL"), (0xFB03, "FFI"), (0xFB04, "FFL"), (0xFB05, "ST"), (0xFB06, "ST")]

/-- The word characters in the upper case of a character. -/
def upperWord (c : Char) : Text :=
  if isWord c then [c.toUpper] else (expandingUpper.lookup c.toNat).getD []

/-- Turns a run of hyphens and the word character after it into that character's upper case; a run
    before anything else is one hyphen. -/
def foldHyphens : Text → Text
  | [] => []
  | '-' :: [] => ['-']
  | '-' :: '-' :: t => foldHyphens ('-' :: t)
  | '-' :: c :: t => if isWord c then c.toUpper :: foldHyphens t else '-' :: c :: foldHyphens t
  | c :: t => c :: foldHyphens t

/-- The name in capitals: only word characters, the first one in upper case. -/
def capitalize (name : Text) : Text :=
  match foldHyphens (List.intercalate "-" name.words) with
  | [] => []
  | c :: t => upperWord c ++ t.filter isWord

/-- The name a library has when none is configured. -/
def fallback : Text := "_default"

/-- The name under which a library's default export is bound. -/
def libraryName (raw : Text) : Text :=
  capitalize (if raw.trim.isEmpty then fallback else raw)

end Typings.LibraryName
