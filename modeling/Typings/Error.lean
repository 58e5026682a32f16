import Typings.Files.Error

/-!
# Errors of a build

* `BuildError`: why a step of a build failed.
* `BuildError.message`: the error in words.

An error keeps what was being done and what it was done to; the words are made only when it is
reported. An error of the store of files is carried inside of it, so that the report of the system can
be told apart from what the build made of it.
-/

namespace Typings

/-- Why a step of a build failed. -/
inductive BuildError where
  /-- A file could not be used. -/
  | files (cause : Files.StoreError)
  /-- A text is not the JSON it should be. -/
  | json (detail : Text)
  /-- A configuration file cannot be understood. -/
  | config (file : Path) (detail : Text)
  /-- An alias or a glob cannot be understood. -/
  | pattern (source : Text) (detail : Text)
  /-- The compiler could not do its work. -/
  | compiler (detail : Text)
  /-- The declarations of an entry could not be prepared for rolling up. -/
  | rollupPrepare (entry : Path) (detail : Text)
  /-- The declarations of an entry were not rolled up. -/
  | rollupFailed (entry : Path)
  /-- Work was asked of a session that has not started. -/
  | notStarted
deriving DecidableEq, Repr

/-- The error in words. -/
def BuildError.message : BuildError → Text
  | .files (.system f) => "IO error: " ++ f.message
  | .files e => "IO error: " ++ e.message
  | .json detail => "JSON error: " ++ detail
  | .config file detail => "invalid configuration in " ++ file.text ++ ": " ++ detail
  | .pattern source detail => "invalid pattern '" ++ source ++ "': " ++ detail
  | .compiler detail => "compiler failed: " ++ detail
  | .rollupPrepare entry detail =>
    "failed to prepare declaration rollup for " ++ entry.text ++ ": " ++ detail
  | .rollupFailed entry => "declaration rollup failed for " ++ entry.text
  | .notStarted => "build session has not been started"

end Typings
