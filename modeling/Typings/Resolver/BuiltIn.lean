import Typings.Resolver
import Typings.SourceMap

/-!
# The resolvers that are always there

The compiler sees a single-file component through a script that stands for it (`App.vue.ts`).  Declarations
are made for that script; maps are pointed back at the component, and shifted by the lines that stand in
front of its script block.

* `Component.linesBeforeScript?`: how many lines those are.
* `Component.remap?`: a map of the stand-in as one of the component.
* `Component.resolver`: the rule for single-file components.
* `jsonResolver`: a document is declared with its own text as its type.
* `svelteResolver`: a component has the type that its library gives all components.
* `builtInResolvers`: all of them.
-/

/-! ## Single-file components -/

namespace Typings.Component

/-- The text in front of the first opening tag of a script that is closed on its line. -/
def beforeScript? (code : Text) : Option Text :=
  match code with
  | [] => none
  | c :: rest =>
    match List.isPrefixOf? "<script" (c :: rest) with
    | some tail =>
      if (tail.takeWhile (· != '\n')).contains '>' then some []
      else (beforeScript? rest).map (c :: ·)
    | none => (beforeScript? rest).map (c :: ·)

/-- The lines in front of the script block and the blanks before it; none when there is nothing
    there, or no script. -/
def linesBeforeScript? (code : Text) : Option Nat := do
  let before := Text.trimEnd (← beforeScript? code)
  if before.isEmpty then none else some (List.splitOn '\n' before).length

/-- A source of a map, named as the component. -/
def componentSource (source : Text) : Text :=
  match List.isSuffixOf? ".vue.ts" source with
  | some stem => stem ++ ".vue"
  | none => source

/-- Mappings moved down by some lines of the component. -/
def shift (lines : Nat) (mappings : Text) : Text :=
  SourceMap.Vlq.segment [0, 0, Int64.ofNat lines, 0] ++ ";" ++ mappings

/-- A map of the stand-in as one of the component; a text that is no map has none. -/
def remap? (lines : Option Nat) (content : Text) : Option Text := do
  let m ← SourceMap.parse? content
  let m := m.mapSources componentSource
  let m := match lines with
    | some n => { m with mappings := shift n m.mappings }
    | none => m
  return m.render

/-- What can follow a component's name in the name of its stand-in. -/
def standInSuffixes : List Text := ["", ".ts", ".js", ".tsx", ".jsx"]

/-- The source that the compiler has for a component. -/
def standIn? {σ π : Type} (c : Compiler σ π) (p : π) (component : Path) : Option SourceFile :=
  standInSuffixes.findSome? fun s => c.source? p (component.append s)

/-- An output whose map points at the component, if it is a map. -/
def pointBack (lines : Option Nat) (o : OutputFile) : OutputFile :=
  if o.path.isSourceMap then { o with content := (remap? lines o.content).getD o.content } else o

/-- The rule for components. -/
def resolver {σ π : Type} : Resolver σ π where
  name := "vue"
  supports := hasExtension "vue"
  outputs c world source := fun p =>
    match standIn? c p source.path with
    | none => .ok [] p
    | some file =>
      let (emitted, p) := c.emit world file.path p
      let dir := c.currentDir p
      let outputs := emitted.map fun e => ⟨dir.relative (dir.resolve e.name), e.text⟩
      if (c.options p).declarationMap then
        .ok (outputs.map (pointBack (linesBeforeScript? source.text))) p
      else .ok outputs p

end Typings.Component

/-! ## The others -/

namespace Typings

variable {σ π : Type}

/-- The declaration that lies beside a source, seen from the root. -/
def Loaded.besideIt (l : Loaded) : Path := l.root.relative (l.path.append ".d.ts")

/-- A document's declaration: its text is its type. -/
def documentDeclaration (text : Text) : Text :=
  "declare const _default: " ++ text ++ ";\n\nexport default _default;\n"

/-- Documents that the program knows are declared with their text as their type. -/
def jsonResolver : Resolver σ π where
  name := "json"
  supports := hasExtension "json"
  outputs c _ source := do
    match c.source? (← get) source.path with
    | some file => return [⟨source.besideIt, documentDeclaration file.text⟩]
    | none => return []

/-- Components of this kind all have one declaration. -/
def svelteDeclaration : Text := "export \x7b SvelteComponentTyped as default \x7d from 'svelte';\n"

/-- Components have the type that their library gives all components. -/
def svelteResolver : Resolver σ π where
  name := "svelte"
  supports := hasExtension "svelte"
  outputs _ _ source := return [⟨source.besideIt, svelteDeclaration⟩]

/-- The resolvers that are always there, in the order they are asked. -/
def builtInResolvers : List (Resolver σ π) := [jsonResolver, Component.resolver, svelteResolver]

/-- The extensions of the sources they are for. -/
def resolvedExtensions : List Text := ["json", "vue", "svelte"]

end Typings
