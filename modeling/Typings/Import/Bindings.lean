import Typings.Import.Scan

/-!
# Bindings and references

* `Site.bindings?`: the default and named bindings of a static import.
* `Segments.references`: the types named through a dynamic import, `import('…').Name`.

Bindings are read off the text of a clause. Where the braces do not match, where a namespace is bound,
and where what stands in front of the braces is not one word, there are none, so such an import is
never changed. A reference counts only where the member follows its import directly.
-/

namespace Typings.Import

/-- The names a static import binds. -/
structure Bindings where
  default : Option Text
  /-- None when the clause has no braces. -/
  named : Option (List Text)
deriving DecidableEq, Repr

/-- A binding with single spaces between its words. -/
def tidyBinding (binding : Text) : Text := List.intercalate " " binding.words

/-- The bindings between braces; none when the braces are not one matching pair. -/
def namedBindings? (braces : Text) : Option (List Text) := do
  let opened ← List.isPrefixOf? "\x7b" braces
  let inner ← List.isSuffixOf? "\x7d" opened
  if inner.any fun c => c == '\x7b' || c == '\x7d' then none
  else some (((List.splitOn ',' inner).map tidyBinding).filter fun b => !b.isEmpty)

/-- A default binding is one word without a comma. -/
def isDefaultName (name : Text) : Bool := !name.isEmpty && !name.any fun c => c == ',' || c == ' '

/-- The bindings of a clause; none for namespace imports and for what cannot be read. -/
def clauseBindings? (clause : Text) : Option Bindings :=
  let clause := clause.trim
  if clause.isEmpty || clause.contains '*' then none
  else match clause.span (· != '\x7b') with
    | (_, []) => if isDefaultName clause then some ⟨some clause, none⟩ else none
    | ([], braces) => (namedBindings? braces).map fun named => ⟨none, some named⟩
    | (before, braces) => do
      let default ← List.isSuffixOf? "," (Text.trim before)
      let default := Text.trim default
      if isDefaultName default then
        (namedBindings? braces).map fun named => ⟨some default, some named⟩
      else none

/-- The bindings of a site; only static imports have any. -/
def Site.bindings? (s : Site) : Option Bindings :=
  if s.kind == .static && s.keyword == .importing then clauseBindings? s.clause else none

/-- The member named directly after a dynamic import: a dot and an identifier. -/
def member? : Text → Option (Text × Text)
  | '.' :: t =>
    match word t with
    | ([], _) => none
    | (name, rest) => some (name, rest)
  | _ => none

/-- A type named through a dynamic import. -/
structure Reference where
  span : Range
  specifier : Range
  member : Range
  /-- The module. -/
  module : Text
  /-- The type. -/
  name : Text
deriving DecidableEq, Repr

/-- The text after each site: the next gap, or the rest. -/
def gapsAfter : List (Text × Site) → Text → List Text
  | [], _ => []
  | [_], rest => [rest]
  | _ :: (gap, site) :: more, rest => gap :: gapsAfter ((gap, site) :: more) rest

/-- The reference a site makes with the text after it. -/
def Located.reference? (l : Located) (after : Text) : Option Reference :=
  if l.site.kind == .dynamic then
    (member? after).map fun (name, _) =>
      let member := Range.at (l.span.stop + 1) name
      { span := ⟨l.span.start, member.stop⟩
        specifier := l.specifier
        member := member
        module := l.site.specifier
        name := name }
  else none

/-- The types named through dynamic imports, in order. -/
def Segments.references (s : Segments) : List Reference :=
  (s.located.zip (gapsAfter s.sites s.rest)).filterMap fun (l, after) => l.reference? after

end Typings.Import
