import Typings.Alias
import Typings.Declaration.Consolidation
import Typings.Import.Lexeme
import Typings.Import.Scan
import Typings.Path.Normal

/-!
# Declaration text

The text of a declaration file goes through up to three steps before it is written: imports for
effects alone are dropped, aliases are resolved, and inline type references are consolidated.  An aliased
specifier means nothing to the users of a package, so it becomes the path of its target as seen from the
file.  And a component's declaration may drop the component's extension, and then so must the references
to it.

* `removeSideEffects`: the first step.
* `seenFrom`, `aliasTarget`: a target as a specifier in a directory, and the specifier an alias gives.
* `resolveAliases`: every aliased specifier of a text resolved.
* `Declaration.Steps`: which steps are taken, and with which aliases.
* `Declaration.Steps.run`: all of them in order.
* `cleanPath`: `Button.vue.d.ts` is called `Button.d.ts`.
* `cleanReferences`: `'./Button.vue'` is called `"./Button"`.
-/

namespace Typings.Declaration

open Import (isQuote)

/-! ## Aliases -/

/-- A target as a specifier in the directory `dir`: an absolute one is made relative to it. -/
def seenFrom (dir : Path) (target : Text) : Text :=
  let p : Path := ⟨target⟩
  dotRelative (if p.isAbsolute then dir.relative p else p.normalize).toSlash

/-- The specifier that a rule gives in the directory `dir`.  The groups of a pattern are filled in
    before the target is made relative. -/
def aliasTarget (dir : Path) (rule : Alias.Rule) (specifier : Text) : Text :=
  match rule.find with
  | .pattern _ => seenFrom dir (rule.apply specifier rule.replacement)
  | .literal _ => rule.apply specifier (seenFrom dir rule.replacement)

/-- The specifier as it is written in the directory `dir`. -/
def resolveSpecifier (dir : Path) (aliases : Alias.Set) (specifier : Text) : Text :=
  match aliases.resolve? specifier with
  | some rule => aliasTarget dir rule specifier
  | none => specifier

/-- The text of `file` with every aliased specifier resolved. -/
def resolveAliases (file : Path) (aliases : Alias.Set) (content : Text) : Text :=
  ((Import.scan content).mapSites fun s =>
    { s with specifier := resolveSpecifier file.parentDir aliases s.specifier }).text

/-! ## Steps -/

/-- A text without its imports for effects alone. -/
def removeSideEffects (content : Text) : Text :=
  (Import.scan content).dropSites (·.kind == .sideEffect)

/-- The steps that declaration texts go through. -/
structure Steps where
  aliases : Alias.Set := {}
  clearSideEffects : Bool := true
  consolidate : Bool := false
deriving Inhabited

/-- The text of the declaration recorded at `file` after all steps. -/
def Steps.run (s : Steps) (file : Path) (content : Text) : Text :=
  let content := if s.clearSideEffects then removeSideEffects content else content
  let content := resolveAliases file s.aliases content
  if s.consolidate then Declaration.consolidate content else content

/-! ## Names of component files -/

/-- A path without the component extension of a declaration. -/
def cleanPath (p : Text) : Text := Text.replaceFirst ".vue.d.ts" ".d.ts" p

/-- The characters between two quotes of a line. -/
def isPlain (c : Char) : Bool := !isQuote c && c != '\n'

/-- A reference to a component after its opening quote: the name without the extension, and the text
    after the closing quote. -/
def componentReference? (t : Text) : Option (Text × Text) :=
  match t.span isPlain with
  | (body, c :: rest) =>
    if isQuote c then
      match List.isSuffixOf? ".vue" body with
      | some name => if name.isEmpty then none else some (name, rest)
      | none => none
    else none
  | (_, []) => none

/-- A text whose references to components drop the extension.  Each step takes at least one
    character, so the length of the text is fuel enough. -/
def cleanFrom : Nat → Text → Text
  | 0, t => t
  | _ + 1, [] => []
  | fuel + 1, c :: t =>
    if isQuote c then
      match componentReference? t with
      | some (name, rest) => '"' :: name ++ '"' :: cleanFrom fuel rest
      | none => c :: cleanFrom fuel t
    else c :: cleanFrom fuel t

/-- A text whose references to components drop the extension. -/
def cleanReferences (t : Text) : Text := cleanFrom t.length t

end Typings.Declaration
