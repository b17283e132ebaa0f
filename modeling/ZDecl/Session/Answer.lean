import ZDecl.Session

/-!
# How includes are answered

When a session meets an include directive, somebody has to supply the file. The answer is a
conversation with the session: every step is a request, and what follows may depend on what came of
it. An answer is a finite tree, so it always comes to an end, and to speak about every possible
answer is to speak about all such trees.

## Main definitions

* `Answer`: the conversations.
* `Handlers`: who answers which include.
* `Answer.refuse`, `Answer.fromArchive`: the two answers a project is usually read with.
* `Answer.perform`: what an answer does in a session.
-/

namespace ZDecl

/-- The answer to an include directive. Included files may be parsed in different roles `ρ`, which
decide how their own includes are answered, and something of type `μ` may be remembered from one
answer to the next. -/
inductive Answer (ρ μ : Type) where
  /-- Nothing more: the include succeeded or failed. -/
  | finish (result : Except Failure Unit)
  /-- Parse a file as part of the session. -/
  | parse (role : ρ) (file : SourceFile) (next : Except Failure Unit → Answer ρ μ)
  /-- Read an expression where the session stands. -/
  | expression (next : Except Failure (List Token) → Answer ρ μ)
  /-- Read a block, or with `single` one statement, where the session stands. -/
  | block (single : Bool) (next : Except Failure (List Token) → Answer ρ μ)
  /-- Read a header where the session stands. -/
  | header (kind : TypeKind) (next : Except Failure Header → Answer ρ μ)
  /-- Look at the session. -/
  | inspect (next : Session → Answer ρ μ)
  /-- Take up a file where its reading stands. -/
  | resume (context : Context) (next : Answer ρ μ)
  /-- Take the declarations out. -/
  | takeDeclarations (next : List Declaration → Answer ρ μ)
  /-- Recall what is remembered. -/
  | memory (next : μ → Answer ρ μ)
  /-- Remember something else. -/
  | remember (m : μ) (next : Answer ρ μ)

/-- Who answers which include: in each role, the answer to the include of a path. -/
abbrev Handlers (ρ μ : Type) := ρ → String → Answer ρ μ

/-- What runs in a session while answers remember something of type `μ`. -/
abbrev Parse (μ α : Type) := EStateM Failure (Session × μ) α

namespace Parse

variable {μ α : Type}

/-- What runs in a session leaves alone what is remembered. -/
def inSession (p : EStateM Failure Session α) : Parse μ α := fun (s, memory) =>
  match p s with
  | .ok a s' => .ok a (s', memory)
  | .error f s' => .error f (s', memory)

/-- Gives a failure as a result. -/
def attempt (p : Parse μ α) : Parse μ (Except Failure α) := fun st =>
  match p st with
  | .ok a st' => .ok (.ok a) st'
  | .error f st' => .ok (.error f) st'

/-- Changes the session. -/
def update (f : Session → α × Session) : Parse μ α := fun (s, memory) =>
  let (a, s') := f s
  .ok a (s', memory)

end Parse

namespace Answer

variable {ρ μ α : Type}

/-! ## Common answers -/

/-- Includes nothing. -/
def refuse (path : String) : Answer ρ μ :=
  .finish (.error { cause := .includesRefused path, span := Span.unknown })

/-- Includes the file of an archive, in the given role. -/
def fromArchive [Archive α] (archive : α) (role : ρ) (path : String) : Answer ρ μ :=
  match Archive.openFile archive path with
  | .ok file => .parse role file .finish
  | .error error =>
    .finish (.error { cause := .cannotInclude path error, span := Span.unknown })

/-- Reads the next significant token where the session stands. -/
def next (k : Option Token → Answer ρ μ) : Answer ρ μ :=
  .inspect fun s => .resume s.next.2.context (k s.next.1)

/-- Goes on with the answer `after` where the first one succeeds. -/
def andThen : Answer ρ μ → (after : Answer ρ μ) → Answer ρ μ
  | finish (.ok _), after => after
  | finish (.error f), _ => .finish (.error f)
  | parse role file k, after => .parse role file fun r => (k r).andThen after
  | expression k, after => .expression fun r => (k r).andThen after
  | block single k, after => .block single fun r => (k r).andThen after
  | header kind k, after => .header kind fun r => (k r).andThen after
  | inspect k, after => .inspect fun s => (k s).andThen after
  | resume context k, after => .resume context (k.andThen after)
  | takeDeclarations k, after => .takeDeclarations fun ds => (k ds).andThen after
  | memory k, after => .memory fun m => (k m).andThen after
  | remember m k, after => .remember m (k.andThen after)

/-! ## What an answer does -/

/-- Holds the conversation, where `parseFile` parses a file in a role. -/
def perform (parseFile : ρ → SourceFile → Parse μ Unit) : Answer ρ μ → Parse μ Unit
  | finish (.ok _) => pure ()
  | finish (.error f) => throw f
  | parse role file k =>
    (parseFile role file).attempt >>= fun r => (k r).perform parseFile
  | expression k =>
    (Parse.inSession Session.expression).attempt >>= fun r => (k r).perform parseFile
  | block single k =>
    (Parse.inSession (Session.block single)).attempt >>= fun r => (k r).perform parseFile
  | header kind k =>
    (Parse.inSession (Session.header kind)).attempt >>= fun r => (k r).perform parseFile
  | inspect k => fun st => (k st.1).perform parseFile st
  | resume context k => fun st => k.perform parseFile (st.1.resume context, st.2)
  | takeDeclarations k =>
    Parse.update Session.takeDeclarations >>= fun ds => (k ds).perform parseFile
  | memory k => fun st => (k st.2).perform parseFile st
  | remember m k => fun st => k.perform parseFile (st.1, m)

end Answer

end ZDecl
