import ZDecl.Session.Parse

/-!
# Reports

What a finished session leaves behind, and the two ways to get a report at once: from a single file
that includes nothing, and from a file of an archive together with all that it includes.

## Main definitions

* `Report`, `Report.ofSession`: the results of a session.
* `parseSource`: the report on a single file.
* `parseArchive`: the report on a file of an archive.
-/

namespace ZDecl

/-- What a finished session leaves behind. -/
structure Report where
  /-- The failure that ended the session. -/
  failure : Option Failure := none
  /-- The warnings, in the order of their appearance. -/
  warnings : List String := []
  /-- The declarations, in the order of their appearance, those before a failure included. -/
  declarations : List Declaration := []
  /-- The version that the last version directive asked for. -/
  languageVersion : Option String := none
  /-- The included paths as written, in the order of inclusion. -/
  included : List String := []
  deriving DecidableEq, Repr

namespace Report

/-- The report on a session. -/
def ofSession (s : Session) : Report where
  failure := s.diagnostics.failure
  warnings := s.diagnostics.warnings
  declarations := s.declarations
  languageVersion := s.languageVersion
  included := s.visited.paths

/-- Did the session end without a failure? -/
def success (r : Report) : Bool := r.failure.isNone

/-- The failure in one line. -/
def failureMessage (r : Report) : Option String := r.failure.map Failure.located

/-- The index of the first declaration of a name, up to case. -/
def declarationIndex? (r : Report) (name : String) : Option Nat :=
  r.declarations.findIdx? fun d => sameIgnoringCase d.name name

/-- The first declaration of a name, up to case. -/
def declaration? (r : Report) (name : String) : Option Declaration :=
  (r.declarationIndex? name).bind (r.declarations[·]?)

end Report

/-! ## Whole sessions -/

/-- The session in which something has run. -/
def sessionAfter {μ α : Type} : EStateM.Result Failure (Session × μ) α → Session
  | .ok _ st => st.1
  | .error _ st => st.1

/-- The report on a single file. Includes are refused. -/
def parseSource (name : String) (contents : Bytes) (options : Options := {}) : Report :=
  let handlers : Handlers Unit Unit := fun _ path => .refuse path
  .ofSession (sessionAfter (Parse.root handlers () { name, contents } (Session.new options, ())))

/-- The report on a file of an archive. Includes are answered from the archive. -/
def parseArchive {α : Type} [Archive α] (archive : α) (path : String) (options : Options := {}) :
    Report :=
  match Archive.openFile archive path with
  | .error error =>
    let failure := { cause := .cannotOpenRoot error, span := Span.unknown }
    { failure := some (Failure.inSource failure path) }
  | .ok file =>
    let handlers : Handlers Unit Unit := fun _ path => .fromArchive archive () path
    .ofSession (sessionAfter (Parse.archiveRoot handlers () file (Session.new options, ())))

end ZDecl
