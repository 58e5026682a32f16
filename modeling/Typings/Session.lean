import Typings.Resolver.BuiltIn
import Typings.Session.Flush
import Typings.Session.Start

/-!
# Declaration builds

A session is started, fed with sources and flushed; a changed source makes the next flush work again.

* `Session.create`: a session that has not started.
* `Host.start`, `Host.transform`, `Host.transformSources`, `Host.invalidate`, `Host.writeBundle`: its
  steps.

The steps are given in modules of their own: starting, recording the declarations of a source, taking
a change, flushing. The modules below `Proofs.Session` say what holds after any sequence of them:
which outputs stand where, what a flush asks of the compiler, and what a failure leaves behind.
-/

namespace Typings

variable {σ π : Type}

/-- A session that has not started. -/
def Session.create (world : σ) (program : π) : Session σ π where
  bench := { world }
  program := program

/-- The registry of the built-in resolvers and some more. -/
def Registry.withBuiltIns (more : List (Resolver σ π)) : Registry σ π :=
  .ofResolvers (builtInResolvers ++ more)

end Typings
