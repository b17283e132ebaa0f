import ZDecl.Scan

/-!
# Headers

The header of a class or structure: its name, and up to four clauses before the body. The clauses
come in a fixed order, a parent first, then a replaced class, then the mark for native types, and
each at most once. Other tokens are tolerated among them, after the mark for native types only if
headers are not read strictly.

## Main definitions

* `Clause`, `Token.clause?`: the clauses, and the token that starts each.
* `Header.objection?`: what speaks against one more clause.
* `Scan.header`: the reader of headers.
-/

namespace ZDecl

/-- The clauses of a header. -/
inductive Clause where
  /-- A colon and the name of the parent. -/
  | parent
  /-- The word for replacing and the name of a class. -/
  | replaces
  /-- The mark for native types. -/
  | native
  deriving DecidableEq, Repr

/-- The clause that the token starts. -/
def Token.clause? (t : Token) : Option Clause :=
  if t.kind = .colon then some .parent
  else
    match t.keyword? with
    | some .replacesWord => some .replaces
    | some .nativeWord => some .native
    | _ => none

namespace Header

/-- The header that has a name and no clause yet. -/
def ofName (kind : TypeKind) (name : Token) : Header := { kind, name }

/-- The role of the name of a type, in messages. -/
def nameRole (kind : TypeKind) : String := s!"{kind.word} name"

/-- What speaks against one more clause: that the header has it, or a later one. -/
def objection? (h : Header) : Clause → Option HeaderFault
  | .parent =>
    if h.parent.isSome then some .parentAgain
    else if h.replaces.isSome || h.native.isSome then some .parentTooLate
    else none
  | .replaces =>
    if h.replaces.isSome then some .replacesAgain
    else if h.native.isSome then some .replacesTooLate
    else none
  | .native => if h.native.isSome then some .nativeAgain else none

end Header

namespace Scan

/-- Stops at a token that the header cannot have. -/
def failHeader (h : Header) (t : Token) (fault : HeaderFault) : Scan Header :=
  fail (.invalidHeader h.subject fault) t.span

/-- Reads the rest of the clause that `t` starts. -/
def clause (h : Header) (t : Token) : Clause → Scan Header
  | .parent => return { h with parent := some (← expectIdentifier "parent class name") }
  | .replaces => return { h with replaces := some (← expectIdentifier "replaced class name") }
  | .native => return { h with native := some t }

/-- Keeps a token that starts no clause, unless headers are strict about what follows the mark for
native types. -/
def tolerate (strict : Bool) (h : Header) (t : Token) : Scan Header :=
  if strict && h.native.isSome then failHeader h t (.afterNative t.describe)
  else do
    keepStray ⟨h.subject, t⟩
    return h

/-- Reads what `t` starts in a header. -/
def headerPart (strict : Bool) (h : Header) (t : Token) : Scan Header :=
  match t.clause? with
  | some c =>
    match h.objection? c with
    | some fault => failHeader h t fault
    | none => clause h t c
  | none => tolerate strict h t

/-- Reads at most the given number of clauses, up to an opening brace, which is left to be read, or
the end of the stream. -/
def clauses (strict : Bool) : Nat → Header → Scan Header
  | 0, h => return h
  | n + 1, h => do
    match ← peek with
    | none => return h
    | some t =>
      if t.valid && t.kind = .openCurly then return h
      else
        let _ ← next
        if t.valid then clauses strict n (← headerPart strict h t) else failAt t

/-- How many clauses and tolerated tokens a header may have. -/
def maxClauses : Nat := 4

/-- Reads a header of the given kind up to the body. -/
def header (strict : Bool) (kind : TypeKind) : Scan Header := do
  let name ← expectIdentifier (Header.nameRole kind)
  clauses strict maxClauses (Header.ofName kind name)

/-! ## The reader of headers only goes forward -/

/-- A clause goes forward. -/
theorem advances_clause (h : Header) (t : Token) (c : Clause) : Advances (clause h t c) := by
  cases c with
  | parent => exact (advances_expectIdentifier _).bind fun _ => advances_pure _
  | replaces => exact (advances_expectIdentifier _).bind fun _ => advances_pure _
  | native => exact advances_pure _

/-- Whatever a token starts in a header goes forward. -/
theorem advances_headerPart (strict : Bool) (h : Header) (t : Token) :
    Advances (headerPart strict h t) := by
  unfold headerPart
  split
  · split
    · exact advances_fail _ _
    · exact advances_clause h t _
  · unfold tolerate
    split
    · exact advances_fail _ _
    · exact (advances_keepStray _).bind fun _ => advances_pure _

/-- Any number of clauses go forward. -/
theorem advances_clauses (strict : Bool) (n : Nat) (h : Header) :
    Advances (clauses strict n h) := by
  induction n generalizing h with
  | zero => exact advances_pure h
  | succ n ih =>
      refine advances_peek.bind fun token => ?_
      cases token with
      | none => exact advances_pure h
      | some t =>
          dsimp only
          split
          · exact advances_pure h
          · refine advances_next.bind fun _ => ?_
            split
            · exact (advances_headerPart strict h t).bind fun h' => ih h'
            · exact advances_failAt t

/-- A whole header goes forward. -/
theorem advances_header (strict : Bool) (kind : TypeKind) : Advances (header strict kind) :=
  (advances_expectIdentifier _).bind fun _ => advances_clauses _ _ _

end Scan

end ZDecl
