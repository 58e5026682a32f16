import Typings.Unicode.BinaryProperty
import Typings.Unicode.Category

/-!
# Derived properties

The properties that follow from categories and from listed properties.

* `BinaryProperty.set`: the characters with a property.
* `wordSet`, `isWord`: the characters of words.
* `isAlphabetic`, `isAlphanumeric`: letters, and letters or numbers.

They are unions, intersections and differences of sets that are given, as the standard defines them,
so nothing is listed here that is listed elsewhere, but for a few characters that the standard singles
out.
-/

namespace Typings.Unicode

open BinaryProperty (listed)

/-- Lowercase letters, and what counts as such. -/
def lowercaseSet : CodeSet := Category.ll.set.union (listed .otherLowercase)

/-- Uppercase letters, and what counts as such. -/
def uppercaseSet : CodeSet := Category.lu.set.union (listed .otherUppercase)

/-- The characters of either case, and those of title case. -/
def casedSet : CodeSet := CodeSet.unions [lowercaseSet, uppercaseSet, Category.lt.set]

/-- Letters, numbers that are letters, and what counts as a letter. -/
def alphabeticSet : CodeSet :=
  CodeSet.unions [casedSet, categories [.lm, .lo, .nl], listed .otherAlphabetic]

/-- Marks that belong to the character before them. -/
def graphemeExtendSet : CodeSet := (categories [.me, .mn]).union (listed .otherGraphemeExtend)

/-- The characters reserved for patterns. -/
def patternSet : CodeSet := (listed .patternSyntax).union (listed .patternWhiteSpace)

/-- The characters that may start an identifier. -/
def idStartSet : CodeSet :=
  ((categories (letterCategories ++ [.nl])).union (listed .otherIdStart)).diff patternSet

/-- The characters that may stand in an identifier. -/
def idContinueSet : CodeSet :=
  (CodeSet.unions [idStartSet, categories [.mn, .mc, .nd, .pc], listed .otherIdContinue]).diff
    patternSet

/-- The characters of identifiers that lose that role when a text is normalized, at the start and
    elsewhere. -/
def unstableIdSet : CodeSet :=
  CodeSet.ofRows ["37A 309B-309C FC5E-FC63 FDFA-FDFB FE70-FE7E/2"]

/-- The characters of identifiers that lose only the role of a start. -/
def unstableIdStartSet : CodeSet := CodeSet.ofRows ["E33 EB3 FF9E-FF9F"]

/-- The characters inside a word that are no letters: apostrophes, full stops, colons and the like. -/
def midWordSet : CodeSet :=
  CodeSet.ofRows ["27 2E 3A B7 387 55F 5F4 2018-2019 2024 2027 FE13 FE52 FE55 FF07 FF0E FF1A"]

/-- The characters that are not shown where there is no support for them. -/
def defaultIgnorableSet : CodeSet :=
  (CodeSet.unions [listed .otherDefaultIgnorableCodePoint, Category.cf.set,
      listed .variationSelector]).diff
    (CodeSet.unions [listed .whiteSpace, CodeSet.ofRows ["FFF9-FFFB 13430-13440"],
      listed .prependedConcatenationMark])

/-- The characters that a mark can belong to. -/
def graphemeBaseSet : CodeSet :=
  assigned.diff ((categories [.cc, .cf, .co, .zl, .zp]).union graphemeExtendSet)

/-- The characters with a property. -/
def BinaryProperty.set : BinaryProperty → CodeSet
  | .alphabetic => alphabeticSet
  | .lowercase => lowercaseSet
  | .uppercase => uppercaseSet
  | .cased => casedSet
  | .caseIgnorable => (categories [.mn, .me, .cf, .lm, .sk]).union midWordSet
  | .changesWhenCasemapped =>
    CodeSet.unions [listed .changesWhenLowercased, listed .changesWhenUppercased,
      listed .changesWhenTitlecased]
  | .math => Category.sm.set.union (listed .otherMath)
  | .idStart => idStartSet
  | .idContinue => idContinueSet
  | .xidStart => idStartSet.diff (unstableIdSet.union unstableIdStartSet)
  | .xidContinue => idContinueSet.diff unstableIdSet
  | .defaultIgnorableCodePoint => defaultIgnorableSet
  | .graphemeExtend => graphemeExtendSet
  | .graphemeBase => graphemeBaseSet
  | p => listed p

/-! ## Words -/

/-- The characters of words: alphabetic ones, marks, decimal digits, connectors and the joiners. -/
def wordSet : CodeSet :=
  CodeSet.unions [alphabeticSet, categories (markCategories ++ [.nd, .pc]), listed .joinControl]

/-- A word character. -/
def isWord (c : Char) : Bool :=
  if c.toNat < 0x80 then c.isAlphanum || c == '_' else wordSet.has c

/-- Numbers of all kinds. -/
def numberSet : CodeSet := categories numberCategories

/-- An alphabetic character. -/
def isAlphabetic (c : Char) : Bool := alphabeticSet.has c

/-- An alphabetic character or a number. -/
def isAlphanumeric (c : Char) : Bool := alphabeticSet.has c || numberSet.has c

end Typings.Unicode
