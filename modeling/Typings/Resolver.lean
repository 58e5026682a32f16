import Typings.Compiler.Program
import Typings.Output.Accumulator

/-!
# Resolvers

A resolver makes declarations for sources that the compiler does not understand by itself.

* `Resolver`: a named rule for some sources.
* `Registry`: the resolvers of a build, at most one of each name.
* `Registry.register`, `Registry.dispatch?`: adding a resolver and finding one.

A resolver is asked with the source's text and gives outputs with their paths, in the order in which
they are recorded. A new one takes the place of the one with its name, so it is asked when that one
would have been; one without a name is never asked. `Proofs.Resolver` says what a registry holds after
any registrations.
-/

namespace Typings

/-- A source on its way through a resolver. -/
structure Loaded where
  path : Path
  text : Text
  /-- The directory that the places of outputs are seen from. -/
  root : Path
  outDir : Path
deriving Inhabited

/-- A named rule that makes declarations for some sources. -/
structure Resolver (σ π : Type) where
  name : Text
  supports : Path → Bool
  /-- The outputs for a source; their paths are seen from the root or lie in the output directory. -/
  outputs : Compiler σ π → σ → Loaded → EStateM BuildError π (List OutputFile)

/-- The sources with an extension. -/
def hasExtension (ext : Text) (p : Path) : Bool := p.extension? == some ext

/-- The resolvers of a build in the order they are asked. -/
structure Registry (σ π : Type) where
  resolvers : List (Resolver σ π) := []

namespace Registry

variable {σ π : Type}

/-- Puts a resolver in the place of the one with its name, or at the end. -/
def place (r : Resolver σ π) : List (Resolver σ π) → List (Resolver σ π)
  | [] => [r]
  | q :: rest => if q.name == r.name then r :: rest else q :: place r rest

/-- A resolver without a name is not taken. -/
def takes (r : Resolver σ π) : Bool := !r.name.isEmpty

/-- The registry with one more resolver. -/
def register (g : Registry σ π) (r : Resolver σ π) : Registry σ π :=
  if takes r then ⟨place r g.resolvers⟩ else g

/-- The registry of some resolvers, registered one after the other. -/
def ofResolvers (rs : List (Resolver σ π)) : Registry σ π := rs.foldl register {}

/-- The first resolver for a source. -/
def dispatch? (g : Registry σ π) (p : Path) : Option (Resolver σ π) :=
  g.resolvers.find? (·.supports p)

/-- Some resolver is for the source. -/
def supports (g : Registry σ π) (p : Path) : Bool := (g.dispatch? p).isSome

/-- The names in the order the resolvers are asked. -/
def names (g : Registry σ π) : List Text := g.resolvers.map (·.name)

end Registry

end Typings
