import Typings.Import.Bindings

/-!
# Consolidation of inline type references

A type named through `import('…').Name` becomes the plain name, bound by an import at the top: one
that is there already and can take it, or a new one.  The default export of a module is bound to a
name that is made up, one for each module.

* `localName`, `binding`: how a referenced type is called and bound.
* `inlineReferences`: a text with its references replaced by their names.
* `mergeImport?`: a text whose first suitable import of a module binds more names.
* `consolidate`: all of it.

Directives in front of a text stay in front, and new imports come right behind them.  A reference
whose module has no suitable import gets one of its own, with all names of that module in one clause.
-/

namespace Typings.Declaration

open Import

/-- A list without its repetitions, each element at its first place. -/
def firstSeen {α : Type} [BEq α] (xs : List α) : List α :=
  xs.foldl (fun acc x => if acc.contains x then acc else acc ++ [x]) []

/-- The name of a default export. -/
def defaultMember : Text := "default"

/-- The modules whose default export is referenced, in order of first reference. -/
def defaultModules (refs : List Reference) : List Text :=
  firstSeen ((refs.filter (·.name == defaultMember)).map (·.module))

/-- The name a referenced type has in the text. -/
def localName (refs : List Reference) (module name : Text) : Text :=
  if name == defaultMember then
    "__DTS_" ++ Text.ofNat ((defaultModules refs).idxOf module + 1) ++ "__"
  else name

/-- The binding that brings a referenced type in. -/
def binding (refs : List Reference) (r : Reference) : Text :=
  if r.name == defaultMember then "default as " ++ localName refs r.module r.name else r.name

/-- The modules referenced, in order of first reference. -/
def referencedModules (refs : List Reference) : List Text := firstSeen (refs.map (·.module))

/-- The bindings needed of a module, in order of first reference. -/
def neededBindings (refs : List Reference) (module : Text) : List Text :=
  firstSeen ((refs.filter (·.module == module)).map (binding refs))

/-- The text directly after the first site. -/
def afterSite (more : List (Text × Site)) (rest : Text) : Text :=
  match more with
  | [] => rest
  | (gap, _) :: _ => gap

/-- The text of segments in which `skip` characters after the site before them are left out and each
    reference is its name. -/
def inlineFrom (refs : List Reference) (skip : Nat) : List (Text × Site) → Text → Text
  | [], rest => rest.drop skip
  | (gap, site) :: more, rest =>
    let front := gap.drop skip
    match if site.kind == .dynamic then member? (afterSite more rest) else none with
    | some (name, _) =>
      front ++ localName refs site.specifier name ++ inlineFrom refs (name.length + 1) more rest
    | none => front ++ site.text ++ inlineFrom refs 0 more rest

/-- A text with each reference replaced by its name. -/
def inlineReferences (refs : List Reference) (s : Segments) : Text :=
  inlineFrom refs 0 s.sites s.rest

/-! ## Imports -/

/-- A binding without its `type` modifier. -/
def bindingKey (b : Text) : Text := (List.isPrefixOf? "type " b).getD b

/-- The bindings with those added that are not there yet. -/
def addBindings (old new : List Text) : List Text :=
  new.foldl (fun acc b => if acc.any (bindingKey · == bindingKey b) then acc else acc ++ [b]) old

/-- Bindings in braces. -/
def braced (bindings : List Text) : Text :=
  "\x7b " ++ List.intercalate ", " bindings ++ " \x7d"

/-- The bindings of an import of the module that can take named ones; a type-only default import
    cannot. -/
def suitable? (module : Text) (s : Site) : Option Bindings :=
  if s.kind == .static && s.keyword == .importing && s.specifier == module then
    match s.bindings? with
    | some b => if b.named.isNone && s.typeOnly then none else some b
    | none => none
  else none

/-- The clause with more named bindings. -/
def extendClause (b : Bindings) (new : List Text) : Text :=
  let default := match b.default with
    | some name => name ++ ", "
    | none => []
  default ++ braced (addBindings (b.named.getD []) new)

/-- The sites with the first suitable one extended. -/
def mergeSites? (module : Text) (new : List Text) :
    List (Text × Site) → Option (List (Text × Site))
  | [] => none
  | (gap, site) :: more =>
    match suitable? module site with
    | some b => some ((gap, { site with clause := extendClause b new }) :: more)
    | none => (mergeSites? module new more).map ((gap, site) :: ·)

/-- The text whose first suitable import of the module binds more names. -/
def mergeImport? (module : Text) (new : List Text) (content : Text) : Option Text :=
  let s := scan content
  (mergeSites? module new s.sites).map fun sites => Segments.text { s with sites := sites }

/-- A new import. -/
def importLine (module : Text) (bindings : List Text) : Text :=
  "import " ++ braced bindings ++ " from '" ++ module ++ "';\n"

/-- The line at the front of a text with its line feed, and the rest. -/
def firstLine (t : Text) : Text × Text :=
  match t.span (· != '\n') with
  | (line, c :: rest) => (line ++ [c], rest)
  | (line, []) => (line, [])

/-- The directive lines at the front of a text, and the rest.  Each line takes up fuel, so the length
    of the text is enough. -/
def splitDirectives : Nat → Text → Text × Text
  | 0, t => ([], t)
  | fuel + 1, t =>
    let (line, rest) := firstLine t
    if (Text.trimStart line).startsWith "///" then
      let (more, rest) := splitDirectives fuel rest
      (line ++ more, rest)
    else ([], t)

/-- Brings the bindings of a module in: merged into the text, or as a new import to be put at the
    top. -/
def bringIn (refs : List Reference) (state : Text × Text) (module : Text) : Text × Text :=
  let (content, hoisted) := state
  let new := neededBindings refs module
  match mergeImport? module new content with
  | some merged => (merged, hoisted)
  | none => (content, hoisted ++ importLine module new)

/-- A text whose inline type references are plain names. -/
def consolidate (content : Text) : Text :=
  let s := scan content
  let refs := s.references
  if refs.isEmpty then content
  else
    let (content, hoisted) :=
      (referencedModules refs).foldl (bringIn refs) (inlineReferences refs s, [])
    if hoisted.isEmpty then content
    else
      let (directives, rest) := splitDirectives content.length content
      directives ++ hoisted ++ rest

end Typings.Declaration
