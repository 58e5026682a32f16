import Typings.Unicode.Derived
import Typings.Unicode.Script

/-!
# Where text breaks

Characters fall into classes that tell where a text may be broken into what a reader takes for single
characters, into words and into sentences.

* `graphemeBreakSet?`, `wordBreakSet?`, `sentenceBreakSet?`: the characters of a class, by the class's
  name in lower case without separators.

Most of them are unions and differences of categories and listed properties, as the standard defines
them; only what the standard lists character by character is written out.
-/

namespace Typings.Unicode

open BinaryProperty (listed)

/-- The carriage return. -/
def returnSet : CodeSet := .range 0x0D 0x0D

/-- The line feed. -/
def lineFeedSet : CodeSet := .range 0x0A 0x0A

/-- The zero width joiner. -/
def joinerSet : CodeSet := .range 0x200D 0x200D

/-- The zero width characters that join or keep apart. -/
def joinControlSet : CodeSet := .range 0x200C 0x200D

/-- The syllables of Hangul: every 28th has two letters, the others three. -/
def hangulPairSet : CodeSet := CodeSet.ofRows ["AC00-D788/28"]

/-- The characters used as digits or with them. -/
def numericSet : CodeSet :=
  CodeSet.unions [Category.nd.set, CodeSet.ofRows ["66B-66C"],
    (listed .prependedConcatenationMark).diff (CodeSet.ofRows ["70F"])]

/-! ## Characters -/

/-- The characters that the next one belongs to. -/
def prependSet : CodeSet :=
  (listed .prependedConcatenationMark).union
    (CodeSet.ofRows ["D4E 111C2-111C3 113D1 1193F 11941 11A3A 11A84-11A89 11D46 11F02"])

/-- The characters that extend the one before. -/
def extendSet : CodeSet := (graphemeExtendSet.union (listed .emojiModifier)).diff joinerSet

/-- Controls, formats and what is kept for them. -/
def controlSet : CodeSet :=
  (CodeSet.unions [categories [.zl, .zp, .cc, .cf], unassigned.inter defaultIgnorableSet]).diff
    (CodeSet.unions [returnSet, lineFeedSet, joinControlSet, listed .prependedConcatenationMark,
      graphemeExtendSet])

/-- Spacing marks that stand apart from the character before. -/
def looseMarkSet : CodeSet :=
  CodeSet.ofRows ["102B-102C 1038 1062-1064 1067-106D 1083 1087-108C 108F 109A-109C 1A61 1A63-1A64",
    "AA7B AA7D 11720-11721"]

/-- The characters of a class of grapheme cluster breaks. -/
def graphemeBreakSet? (name : String) : Option CodeSet :=
  match name with
  | "cr" => some returnSet
  | "lf" => some lineFeedSet
  | "cn" | "control" => some controlSet
  | "ex" | "extend" => some extendSet
  | "zwj" => some joinerSet
  | "ri" | "regionalindicator" => some (listed .regionalIndicator)
  | "pp" | "prepend" => some prependSet
  | "sm" | "spacingmark" =>
    some ((Category.mc.set.diff (extendSet.union looseMarkSet)).union (CodeSet.ofRows ["E33 EB3"]))
  | "l" => some (CodeSet.ofRows ["1100-115F A960-A97C"])
  | "v" => some (CodeSet.ofRows ["1160-11A7 D7B0-D7C6 16D63 16D67-16D6A"])
  | "t" => some (CodeSet.ofRows ["11A8-11FF D7CB-D7FB"])
  | "lv" => some hangulPairSet
  | "lvt" => some ((CodeSet.ofRows ["AC00-D7A3"]).diff hangulPairSet)
  | _ => none

/-! ## Words -/

/-- The characters that break words as marks do. -/
def wordExtendSet : CodeSet := extendSet.union Category.mc.set

/-- The letters of Katakana and the marks used with them. -/
def katakanaSet : CodeSet :=
  ((scriptSet? "kana").getD .none).union
    (CodeSet.ofRows ["3031-3035 309B-309C 30A0 30FC FF70"])

/-- The letters of Hebrew. -/
def hebrewLetterSet : CodeSet := ((scriptSet? "hebr").getD .none).inter Category.lo.set

/-- The letters of scripts that are written without spaces between words. -/
def unspacedSet : CodeSet :=
  CodeSet.ofRows ["E01-E3A E40-E4E E81-E82 E84 E86-E8A E8C-EA3 EA5 EA7-EBD EC0-EC4 EC6 EC8-ECE",
    "EDC-EDF 1000-103F 1050-108F 109A-109F 1780-17D3 17D7 17DC-17DD 1950-196D 1970-1974 1980-19AB",
    "19B0-19C9 19DA 19DE-19DF 1A20-1A5E 1A60-1A7C 1AA0-1AAD A9E0-A9EF A9FA-A9FE AA60-AAC2",
    "AADB-AADF 11700-1171A 1171D-1172B 1173A-1173B 1173F-11746"]

/-- The letters of words. -/
def wordLetterSet : CodeSet :=
  (alphabeticSet.union
    (CodeSet.ofRows ["2C2-2C5 2D2-2D7 2DE-2DF 2E5-2EB 2ED 2EF-2FF 55A-55C 55E 58A 5F3 70F A708-A716",
      "A720-A721 A789-A78A AB5B"])).diff
    (CodeSet.unions [listed .ideographic, katakanaSet, unspacedSet,
      (scriptSet? "hira").getD .none, wordExtendSet, hebrewLetterSet])

/-- The characters of a class of word breaks. -/
def wordBreakSet? (name : String) : Option CodeSet :=
  match name with
  | "cr" => some returnSet
  | "lf" => some lineFeedSet
  | "nl" | "newline" => some (CodeSet.ofRows ["B-C 85 2028-2029"])
  | "extend" => some wordExtendSet
  | "zwj" => some joinerSet
  | "ri" | "regionalindicator" => some (listed .regionalIndicator)
  | "fo" | "format" =>
    some (Category.cf.set.diff
      (CodeSet.unions [CodeSet.ofRows ["200B-200D"], graphemeExtendSet, prependSet]))
  | "ka" | "katakana" => some katakanaSet
  | "hl" | "hebrewletter" => some hebrewLetterSet
  | "le" | "aletter" => some wordLetterSet
  | "sq" | "singlequote" => some (CodeSet.ofRows ["27"])
  | "dq" | "doublequote" => some (CodeSet.ofRows ["22"])
  | "mb" | "midnumlet" => some (CodeSet.ofRows ["2E 2018-2019 2024 FE52 FF07 FF0E"])
  | "ml" | "midletter" => some (CodeSet.ofRows ["3A B7 387 55F 5F4 2027 FE13 FE55 FF1A"])
  | "mn" | "midnum" =>
    some (CodeSet.ofRows ["2C 3B 37E 589 60C-60D 66C 7F8 2044 FE10 FE14 FE50 FE54 FF0C FF1B"])
  | "nu" | "numeric" => some (numericSet.diff (CodeSet.ofRows ["66C"]))
  | "ex" | "extendnumlet" => some (Category.pc.set.union (CodeSet.ofRows ["202F"]))
  | "wsegspace" => some (CodeSet.ofRows ["20 1680 2000-2006 2008-200A 205F 3000"])
  | _ => none

/-! ## Sentences -/

/-- The full stops. -/
def fullStopSet : CodeSet := CodeSet.ofRows ["2E 2024 FE52 FF0E"]

/-- The characters that end a paragraph. -/
def paragraphSet : CodeSet := CodeSet.ofRows ["85 2028-2029"]

/-- The characters that end a sentence for sure. -/
def sentenceEndSet : CodeSet := (listed .sentenceTerminal).diff fullStopSet

/-- The characters that break sentences as marks do. -/
def sentenceExtendSet : CodeSet := CodeSet.unions [graphemeExtendSet, Category.mc.set, joinerSet]

/-- Lowercase letters that are no marks; the letters of Georgian have no case here. -/
def sentenceLowerSet : CodeSet :=
  lowercaseSet.diff (graphemeExtendSet.union (CodeSet.ofRows ["10D0-10FA 10FD-10FF"]))

/-- Uppercase and titlecase letters; the letters of Georgian have no case here. -/
def sentenceUpperSet : CodeSet :=
  (Category.lt.set.union uppercaseSet).diff (CodeSet.ofRows ["1C90-1CBA 1CBD-1CBF"])

/-- Quotation marks that are no punctuation that opens or closes. -/
def plainQuoteSet : CodeSet := CodeSet.ofRows ["22 27 275B-2760 2E00-2E01 2E06-2E08 2E0B 1F676-1F678"]

/-- The characters of a class of sentence breaks. -/
def sentenceBreakSet? (name : String) : Option CodeSet :=
  match name with
  | "cr" => some returnSet
  | "lf" => some lineFeedSet
  | "se" | "sep" => some paragraphSet
  | "ex" | "extend" => some sentenceExtendSet
  | "fo" | "format" =>
    some (Category.cf.set.diff (CodeSet.unions [joinControlSet, graphemeExtendSet, numericSet]))
  | "sp" =>
    some ((listed .whiteSpace).diff (CodeSet.unions [paragraphSet, returnSet, lineFeedSet]))
  | "lo" | "lower" => some sentenceLowerSet
  | "up" | "upper" => some sentenceUpperSet
  | "le" | "oletter" =>
    some ((alphabeticSet.union (CodeSet.ofRows ["5F3"])).diff
      (CodeSet.unions [sentenceLowerSet, sentenceUpperSet, sentenceExtendSet]))
  | "nu" | "numeric" => some numericSet
  | "at" | "aterm" => some fullStopSet
  | "sc" | "scontinue" =>
    some (CodeSet.ofRows ["2C-2D 3A-3B 37E 55D 60C-60D 7F8 1802 1808 2013-2014 3001 FE10-FE11",
      "FE13-FE14 FE31-FE32 FE50-FE51 FE54-FE55 FE58 FE63 FF0C-FF0D FF1A-FF1B FF64"])
  | "st" | "sterm" => some sentenceEndSet
  | "cl" | "close" =>
    some (((categories [.ps, .pe, .pi, .pf]).union plainQuoteSet).diff
      (fullStopSet.union sentenceEndSet))
  | _ => none

end Typings.Unicode
