import Typings.Declaration
import Typings.Event
import Typings.Output.Accumulator
import Typings.SourceMap

/-!
# From records to files

A recorded output is written below the output directory as it lies below the entry root.

* `Layout.finalPath`: where a recorded output is written.
* `Layout.prepare`: its path and content, and the warnings on the way.

Declarations go through the steps for their text and, where components drop their extension, get a
name without it. A source map has its sources moved along with it, and nothing else in it changes; one
that cannot be read is written as it is, with a warning.
-/

namespace Typings

/-- Where recorded outputs are anchored and where they go. -/
structure Layout where
  steps : Declaration.Steps
  /-- Declarations of components drop the component's extension. -/
  cleanComponents : Bool
  /-- The directory emitted names are relative to. -/
  currentDir : Path
  publicRoot : Path
  entryRoot : Path
  outDir : Path

namespace Layout

/-- The place a record is written for, before it moves to the output directory. -/
def sourcePath (l : Layout) (recorded : Path) : Path :=
  if l.cleanComponents then ⟨Declaration.cleanPath recorded.text⟩ else recorded

/-- Where a recorded output is written. -/
def finalPath (l : Layout) (recorded : Path) : Path :=
  l.outDir.resolve (l.entryRoot.relative (l.sourcePath recorded))

/-- The text of a recorded declaration as it is written. -/
def declarationText (l : Layout) (recorded : Path) (content : Text) : Text :=
  let content := if content.isEmpty then content else l.steps.run recorded content
  if l.cleanComponents then Declaration.cleanReferences content else content

/-- The move of a recorded source map. -/
def relocation (l : Layout) (recorded : Path) : Relocation :=
  ⟨l.currentDir, l.publicRoot, recorded.parentDir, (l.finalPath recorded).parentDir⟩

/-- The words for a text that is no source map. -/
def unreadableMap : Text := (BuildError.json "not a source map").message

/-- The file a recorded output becomes, and the warnings on the way. -/
def prepare (l : Layout) (recorded : Path) (content : Text) : OutputFile × List Event :=
  let path := l.finalPath recorded
  if recorded.isSourceMap then
    match relocateSources? content (l.relocation recorded) with
    | some moved => (⟨path, moved⟩, [])
    | none => (⟨path, content⟩, [.sourceMapFailed path unreadableMap])
  else (⟨path, l.declarationText recorded content⟩, [])

end Layout

end Typings
