import ZDecl.Diagnostics
import ZDecl.Include.Visited
import ZDecl.Item

/-!
# Sessions

A session reads a root file and all that it includes. It holds the file that is being read and where
the reading stands in it, the visited paths, what was found so far, and the diagnostics.

## Main definitions

* `Options`: what can be chosen for a session.
* `Context`: a file that is being read.
* `Session`: the state of a session.
* `Session.fail`, `Session.scan`, `Session.record`: a failure, a reader and a declaration in a
  session.
-/

namespace ZDecl

/-- What can be chosen for a session. -/
structure Options where
  /-- Is a header with anything after the mark for native types refused? -/
  strictHeader : Bool := false
  /-- Is every declaration logged among the warnings? -/
  reportDeclarations : Bool := true
  /-- How deep includes may be nested. -/
  maxIncludeDepth : Nat := 64
  deriving DecidableEq, Repr

/-- A file that is being read. -/
structure Context where
  /-- Where the reading stands. -/
  cursor : Cursor
  /-- The name of the file in messages. -/
  name : String
  /-- Where the file comes from. -/
  location : Location
  deriving DecidableEq, Repr

namespace Context

/-- A file of which nothing has been read. -/
def ofFile (file : SourceFile) : Context :=
  ⟨Cursor.ofBytes file.contents, file.name, file.location⟩

/-- No file: an empty stream without a name. -/
def empty : Context := ofFile { name := "", contents := [] }

/-- Where the reading stands. -/
def position (c : Context) : Position := c.cursor.position

end Context

/-- The state of a session. -/
structure Session where
  /-- What was chosen for the session. -/
  options : Options
  /-- The file that is being read. -/
  context : Context := Context.empty
  /-- The visited paths. -/
  visited : Visited := {}
  /-- The first failure and the warnings. -/
  diagnostics : Diagnostics := {}
  /-- The declarations, in the order of their appearance. -/
  declarations : List Declaration := []
  /-- The version that the last version directive asked for. -/
  languageVersion : Option String := none
  /-- How many includes the file that is being read is nested in. -/
  depth : Nat := 0
  deriving DecidableEq, Repr

namespace Session

variable {α : Type}

/-- A session that has read nothing. -/
def new (options : Options := {}) : Session := { options }

/-- The session as if it had read nothing. -/
def reset (s : Session) : Session := new s.options

/-- Marks the path of the root file as visited. -/
def visitRoot (s : Session) (path : String) : Session :=
  { s with visited := s.visited.insertRoot path }

/-- Takes another file up where its reading stands. -/
def resume (s : Session) (context : Context) : Session := { s with context }

/-- Goes to another place in the file that is being read. -/
def seek (s : Session) (place : Position) : Session :=
  s.resume { s.context with cursor := s.context.cursor.seek place }

/-- Reports a failure. The first one of a session stays. -/
def report (s : Session) (f : Failure) : Session :=
  { s with diagnostics := s.diagnostics.report f }

/-- Adds a warning. -/
def warn (s : Session) (message : String) : Session :=
  { s with diagnostics := s.diagnostics.warn message }

/-- Stops with a failure in the file that is being read. -/
def fail (f : Failure) : EStateM Failure Session α := fun s =>
  let named := f.inSource s.context.name
  .error named (s.report named)

/-- Moves on to where a reader stopped, and warns of the stray tokens that it met. -/
def advance (s : Session) (r : Scan.State) : Session :=
  { s with
    context := { s.context with cursor := r.cursor }
    diagnostics := s.diagnostics.warnAll (r.strays.map fun t => t.warning s.context.name) }

/-- Reads on in the file that is being read. -/
def scan (p : Scan α) : EStateM Failure Session α := fun s =>
  match p ⟨s.context.cursor, []⟩ with
  | .ok a r => .ok a (s.advance r)
  | .error f r => fail f (s.advance r)

/-- Reads a header where the session stands. -/
def header (kind : TypeKind) : EStateM Failure Session Header := fun s =>
  scan (Scan.header s.options.strictHeader kind) s

/-- Reads a block where the session stands; with `single` it may be one statement instead. -/
def block (single : Bool) : EStateM Failure Session (List Token) :=
  scan (if single then Scan.blockOrStatement else Scan.block)

/-- Reads an expression where the session stands. -/
def expression : EStateM Failure Session (List Token) := scan Scan.expression

/-- Reads the next significant token. -/
def next (s : Session) : Option Token × Session :=
  let (token, cursor) := s.context.cursor.significant
  (token, s.resume { s.context with cursor })

/-- Reads all tokens that are left and gives those that are no white space and no comment. -/
def rest (s : Session) : List Token × Session :=
  let (tokens, cursor) := s.context.cursor.readAll
  (tokens.filter (!·.isTrivia), s.resume { s.context with cursor })

/-- Records a declaration, and logs it if declarations are reported. -/
def record (s : Session) (d : Declaration) : Session :=
  let logged := if s.options.reportDeclarations then s.warn d.summary else s
  { logged with declarations := logged.declarations ++ [d] }

/-- What recording a declaration changes: the declarations, and the warnings if it is logged. -/
theorem record_eq (s : Session) (d : Declaration) :
    s.record d = { s with
      diagnostics := s.diagnostics.warnAll
        (if s.options.reportDeclarations then [d.summary] else [])
      declarations := s.declarations ++ [d] } := by
  unfold record
  split
  · rfl
  · simp [Diagnostics.warnAll]

/-- Notes the version that a directive asks for. -/
def setVersion (s : Session) (version : String) : Session :=
  { s with languageVersion := some version }

/-- Takes the declarations out. -/
def takeDeclarations (s : Session) : List Declaration × Session :=
  (s.declarations, { s with declarations := [] })

end Session

end ZDecl
