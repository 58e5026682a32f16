import Typings.Compiler.Options
import Typings.Files.Store
import Typings.Json.Reader
import Typings.Path.Normal

/-!
# Compiler configuration files

A configuration file is JSON with comments and with commas before closing brackets.

* `stripComments`: the plain JSON of such a text.
* `TsConfig.parse`: a configuration, its paths seen from its directory.
* `TsConfig.load`, `TsConfig.find?`: the configuration in a file, and the file nearest to a directory.

Comments are taken out by one pass over the text that knows where it stands: in code, in a comment or
in a string. The ends of their lines stay. What a string holds is never a comment, and a comma is only
dropped where a bracket closes next.
-/

namespace Typings

/-! ## Comments -/

/-- Where a character of a commented text stands. -/
inductive CommentState where
  | code
  | line
  | block

/-- The text after blanks and comments. -/
def afterTrivia : CommentState → Text → Text
  | _, [] => []
  | .code, '/' :: '/' :: t => afterTrivia .line t
  | .code, '/' :: '*' :: t => afterTrivia .block t
  | .code, c :: t => if Text.isBlank c then afterTrivia .code t else c :: t
  | .line, c :: t => afterTrivia (if c == '\n' then .code else .line) t
  | .block, '*' :: '/' :: t => afterTrivia .code t
  | .block, _ :: t => afterTrivia .block t

/-- After blanks and comments a bracket or a brace closes. -/
def closes (t : Text) : Bool :=
  match afterTrivia .code t with
  | c :: _ => c == '\x7d' || c == ']'
  | [] => false

mutual

/-- Outside of strings: comments go, but not the ends of their lines, and a comma goes that only
    blanks and comments part from a closing bracket. -/
def stripFrom : CommentState → Text → Text
  | _, [] => []
  | .code, '"' :: t => '"' :: stripString t
  | .code, '/' :: '/' :: t => stripFrom .line t
  | .code, '/' :: '*' :: t => stripFrom .block t
  | .code, ',' :: t => if closes t then stripFrom .code t else ',' :: stripFrom .code t
  | .code, c :: t => c :: stripFrom .code t
  | .line, '\n' :: t => '\n' :: stripFrom .code t
  | .line, _ :: t => stripFrom .line t
  | .block, '*' :: '/' :: t => stripFrom .code t
  | .block, _ :: t => stripFrom .block t

/-- Inside of a string nothing changes. -/
def stripString : Text → Text
  | [] => []
  | '\\' :: c :: t => '\\' :: c :: stripString t
  | '"' :: t => '"' :: stripFrom .code t
  | c :: t => c :: stripString t

end

/-- The plain JSON of a commented text. -/
def stripComments (t : Text) : Text := stripFrom .code t

/-! ## Configurations -/

/-- A compiler configuration. -/
structure TsConfig where
  path : Path
  options : CompilerOptions
  included : Option (List Text)
  excluded : Option (List Text)
  files : List Path
deriving Inhabited

namespace TsConfig

open Json (fieldOr?)
open Json.Written

/-- The name of a configuration file. -/
def fileName : Text := "tsconfig.json"

/-- The directory of a configuration. -/
def dir (c : TsConfig) : Path := c.path.parentDir

/-- The fields of a configuration file. -/
def names : List Text := ["compilerOptions", "include", "exclude", "files"]

/-- The configuration in a document at `path`. -/
def ofWritten? (path : Path) (w : Json.Written) : Option TsConfig := do
  let fields ← record? names w
  let raw ← fieldOr? fields "compilerOptions" none (nullable? (value? (maxDepth - 1)))
  let included ← fieldOr? fields "include" none (nullable? (list? text?))
  let excluded ← fieldOr? fields "exclude" none (nullable? (list? text?))
  let files ← fieldOr? fields "files" none (nullable? (list? text?))
  let options ← CompilerOptions.ofJson? (raw.getD (.object []))
  let dir := path.parentDir
  let options := { options with
    rootDir := options.rootDir.map dir.resolve
    outDir := options.outDir.map dir.resolve
    configFile := some path }
  pure ⟨path, options, included, excluded, (files.getD []).map fun f => dir.resolve ⟨f⟩⟩

/-- A configuration from its text. -/
def parse (path : Path) (content : Text) : Except BuildError TsConfig :=
  match (Json.readWritten? (stripComments content)).bind (ofWritten? path) with
  | some c => .ok c
  | none => .error (.config path "not a compiler configuration")

/-- The configuration in a file. -/
def load {σ : Type} (files : Files.FileStore σ) (world : σ) (path : Path) :
    Except BuildError TsConfig :=
  match files.read world path with
  | .ok content => parse path content
  | .error e => .error (.files e.unplaced)

/-- The configuration file nearest to a directory, in it or above it. -/
def find? {σ : Type} (files : Files.FileStore σ) (world : σ) (dir : Path) : Option Path :=
  (dir.ancestors.map fun d => d.join ⟨fileName⟩).find? (files.isFile world)

end TsConfig

end Typings
