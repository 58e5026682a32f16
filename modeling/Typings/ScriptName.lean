import Typings.Text

/-!
# Script names

Which files are scripts and which are declarations is read off their names.  An extension is one of
two flavours, TypeScript or JavaScript, plain or with `x`, and may carry an `m` (ES module) or `c`
(CommonJS) in front.

* `isTypeScript`, `isJavaScript`, `isScript`, `isDeclaration`, `isEmitted`: the classes.
* `stripTypeScript`, `stripScript`, `stripDeclaration`: names without their endings.
* `modulePrefix`, `declarationName`: how the declaration of a script is called.

Only the last segment of a name counts, and only the part behind its last dot.  `Proofs.ScriptName`
says that the name of a declaration and the test for declarations agree.
-/

namespace Typings.ScriptName

/-- The extensions of TypeScript sources. -/
def typeScriptExtensions : List Text := ["ts", "tsx", "mts", "mtsx", "cts", "ctsx"]

/-- The extensions of JavaScript sources. -/
def javaScriptExtensions : List Text := ["js", "jsx", "mjs", "mjsx", "cjs", "cjsx"]

/-- The last segment of a name; both slashes separate. -/
def lastSegment (name : Text) : Text :=
  (name.reverse.takeWhile fun c => !(c == '/' || c == '\\')).reverse

/-- What follows the last dot of the last segment. -/
def extension? (name : Text) : Option Text :=
  ((lastSegment name).cutLast? '.').map (·.2)

/-- The extension of the name is one of `allowed`. -/
def hasExtension (allowed : List Text) (name : Text) : Bool :=
  match extension? name with
  | some ext => allowed.contains ext
  | none => false

/-- The name without an extension of `allowed` and its dot. -/
def stripExtension (allowed : List Text) (name : Text) : Text :=
  match extension? name with
  | some ext => if allowed.contains ext then name.take (name.length - ext.length - 1) else name
  | none => name

/-- A TypeScript name. -/
def isTypeScript (name : Text) : Bool := hasExtension typeScriptExtensions name

/-- A JavaScript name. -/
def isJavaScript (name : Text) : Bool := hasExtension javaScriptExtensions name

/-- A script of either flavour. -/
def isScript (name : Text) : Bool := isTypeScript name || isJavaScript name

/-- The name without a TypeScript extension. -/
def stripTypeScript (name : Text) : Text := stripExtension typeScriptExtensions name

/-- The name without a script extension. -/
def stripScript (name : Text) : Text :=
  stripExtension (typeScriptExtensions ++ javaScriptExtensions) name

/-- A declaration is a TypeScript name whose stem ends in `.d`. -/
def isDeclaration (name : Text) : Bool := isTypeScript name && (stripTypeScript name).endsWith ".d"

/-- A script the compiler writes a declaration for. -/
def isEmitted (name : Text) (skipJavaScript : Bool) : Bool :=
  isScript name && !isDeclaration name && !(skipJavaScript && isJavaScript name)

/-- The name without a declaration ending; other names are unchanged. -/
def stripDeclaration (name : Text) : Text :=
  if isDeclaration name then
    let stem := stripTypeScript name
    stem.take (stem.length - 2)
  else name

/-- The module kind a script's extension carries: `m`, `c` or nothing. -/
def modulePrefix (name : Text) : Text :=
  match extension? name with
  | some ('m' :: _) => if isScript name then "m" else []
  | some ('c' :: _) => if isScript name then "c" else []
  | _ => []

/-- The name of the declaration file for a name; declarations name themselves. -/
def declarationName (name : Text) : Text :=
  if isDeclaration name then name
  else stripScript name ++ ".d." ++ modulePrefix name ++ "ts"

end Typings.ScriptName
