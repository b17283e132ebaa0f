import ZDecl.Failure

/-!
# Diagnostics

What a session has to say about its files: the first failure, and all warnings in order.

## Main definitions

* `Diagnostics`, with `Diagnostics.report`, `Diagnostics.warn` and `Diagnostics.takeWarnings`.
-/

namespace ZDecl

/-- The first failure and the warnings of a session. -/
structure Diagnostics where
  /-- The first failure. -/
  failure : Option Failure := none
  /-- The warnings, in the order of their appearance. -/
  warnings : List String := []
  deriving DecidableEq, Repr

namespace Diagnostics

/-- Nothing has been reported. -/
def empty : Diagnostics := {}

/-- Has a failure been reported? -/
def hasFailure (d : Diagnostics) : Bool := d.failure.isSome

/-- Reports a failure. The first one stays. -/
def report (d : Diagnostics) (f : Failure) : Diagnostics :=
  { d with failure := d.failure.or (some f) }

/-- Adds a warning. -/
def warn (d : Diagnostics) (message : String) : Diagnostics :=
  { d with warnings := d.warnings ++ [message] }

/-- Adds several warnings. -/
def warnAll (d : Diagnostics) (messages : List String) : Diagnostics :=
  { d with warnings := d.warnings ++ messages }

/-- Takes the warnings out. -/
def takeWarnings (d : Diagnostics) : List String × Diagnostics :=
  (d.warnings, { d with warnings := [] })

/-- The failure in one line. -/
def failureMessage (d : Diagnostics) : Option String := d.failure.map Failure.located

end Diagnostics

end ZDecl
