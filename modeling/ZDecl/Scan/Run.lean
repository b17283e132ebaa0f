import ZDecl.Scan

/-!
# Runs of tokens

The bodies of declarations are not analysed but kept as runs of tokens. A block runs to the brace
that closes it, an expression to the first token that cannot belong to it. White space and comments
are left out of a run.

## Main definitions

* `Interruption`: why a run does not end as it should.
* `takeBlock`, `takeExpression`: the two runs, as functions of the tokens to be read.
* `Scan.block`, `Scan.blockOrStatement`, `Scan.expression`: the readers of runs.
-/

namespace ZDecl

/-! ## The runs -/

/-- Why a run does not end as it should. -/
inductive Interruption where
  /-- A token is ill-formed. -/
  | illFormed (t : Token)
  /-- The stream ends first. -/
  | endOfStream
  deriving DecidableEq, Repr

/-- Puts a token in front of the run that follows it. -/
def consRun (t : Token) (result : Except Interruption (List Token) × List Token) :
    Except Interruption (List Token) × List Token :=
  (result.1.map (t :: ·), result.2)

/-- Reads on in a block whose inner braces are open to the given depth, up to the brace that closes
the block itself. Gives the run before that brace, and what is to be read after it. -/
def takeBlock (depth : Nat) : List Token → Except Interruption (List Token) × List Token
  | [] => (.error .endOfStream, [])
  | t :: rest =>
    if t.isSkipped then takeBlock depth rest
    else if !t.valid then (.error (.illFormed t), rest)
    else if t.kind = .openCurly then consRun t (takeBlock (depth + 1) rest)
    else if t.kind = .closeCurly then
      match depth with
      | 0 => (.ok [], rest)
      | outer + 1 => consRun t (takeBlock outer rest)
    else consRun t (takeBlock depth rest)

/-- Does a token of this kind end an expression whose parentheses are open to the given depth? A
closing brace ends it everywhere, a semicolon, a comma or a closing parenthesis outside of
parentheses only. -/
def endsExpression (depth : Nat) (kind : Token.Kind) : Bool :=
  kind = .closeCurly ||
    (depth = 0 && (kind = .semicolon || kind = .comma || kind = .closeParen))

/-- The depth of parentheses after a token of this kind. -/
def parenDepth (depth : Nat) : Token.Kind → Nat
  | .openParen => depth + 1
  | .closeParen => depth - 1
  | _ => depth

/-- Reads on in an expression whose parentheses are open to the given depth. Gives the run before
the token that ends the expression, and what is to be read from that token on. -/
def takeExpression (depth : Nat) : List Token → Except Interruption (List Token) × List Token
  | [] => (.error .endOfStream, [])
  | t :: rest =>
    if t.isSkipped then takeExpression depth rest
    else if !t.valid then (.error (.illFormed t), rest)
    else if endsExpression depth t.kind then (.ok [], t :: rest)
    else consRun t (takeExpression (parenDepth depth t.kind) rest)

/-- What is to be read behind a block is at the end of the tokens. -/
theorem takeBlock_suffix (depth : Nat) (tokens : List Token) :
    (takeBlock depth tokens).2 <:+ tokens := by
  induction tokens generalizing depth with
  | nil => exact List.suffix_refl _
  | cons t rest ih =>
      have hcons : rest <:+ t :: rest := List.suffix_cons _ _
      unfold takeBlock
      split
      · exact (ih depth).trans hcons
      · split
        · exact hcons
        · split
          · exact (ih (depth + 1)).trans hcons
          · split
            · cases depth with
              | zero => exact hcons
              | succ outer => exact (ih outer).trans hcons
            · exact (ih depth).trans hcons

/-- What is to be read behind an expression is at the end of the tokens. -/
theorem takeExpression_suffix (depth : Nat) (tokens : List Token) :
    (takeExpression depth tokens).2 <:+ tokens := by
  induction tokens generalizing depth with
  | nil => exact List.suffix_refl _
  | cons t rest ih =>
      have hcons : rest <:+ t :: rest := List.suffix_cons _ _
      unfold takeExpression
      split
      · exact (ih depth).trans hcons
      · split
        · exact hcons
        · split
          · exact List.suffix_refl _
          · exact (ih _).trans hcons

/-! ## The readers -/

namespace Scan

/-- Reads a run. -/
def run (take : List Token → Except Interruption (List Token) × List Token) :
    Scan (List Token) := fun s =>
  let after : State := { s with cursor := { s.cursor with tokens := (take s.cursor.tokens).2 } }
  match (take s.cursor.tokens).1 with
  | .ok tokens => .ok tokens after
  | .error (.illFormed t) => failAt t after
  | .error .endOfStream => fail .endOfStream (Span.point after.cursor.position) after

/-- Reads an expression. The token that ends it is left to be read. -/
def expression : Scan (List Token) := run (takeExpression 0)

/-- Reads the rest of a block after its opening brace, and a semicolon if one follows. -/
def blockBody : Scan (List Token) := do
  let body ← run (takeBlock 0)
  accept .semicolon
  return body

/-- Stops where a block was expected. -/
def failNoBlock (token : Option Token) : Scan (List Token) := do
  fail (.expectedBlock (Token.describeFound token)) (← spanOf token)

/-- Reads a block in braces. The result is without the outer braces. -/
def block : Scan (List Token) := do
  match ← next with
  | some t =>
    if !t.valid then failAt t
    else if t.kind = .openCurly then blockBody
    else failNoBlock (some t)
  | none => failNoBlock none

/-- Reads a block in braces, or an expression and the semicolon that ends it. The semicolon is part
of the result. -/
def blockOrStatement : Scan (List Token) := do
  match ← peek with
  | some t =>
    if t.valid && t.kind != .openCurly then
      let body ← expression
      let semicolon ← expect .semicolon "';'"
      return body ++ [semicolon]
    else block
  | none => block

/-! ## Readers of runs only go forward -/

/-- A run goes forward if it leaves an end of the tokens to be read. -/
theorem advances_run {take : List Token → Except Interruption (List Token) × List Token}
    (h : ∀ tokens, (take tokens).2 <:+ tokens) : Advances (run take) := by
  intro s
  have hs : s.cursor.Reaches { s.cursor with tokens := (take s.cursor.tokens).2 } :=
    ⟨rfl, rfl, h _⟩
  unfold run
  dsimp only
  split <;> exact hs

/-- An expression goes forward. -/
theorem advances_expression : Advances expression := advances_run (takeExpression_suffix 0)

/-- The rest of a block goes forward. -/
theorem advances_blockBody : Advances blockBody :=
  (advances_run (takeBlock_suffix 0)).bind fun _ =>
    (advances_accept _).bind fun _ => advances_pure _

/-- The failure where a block was expected stays. -/
theorem advances_failNoBlock (token : Option Token) : Advances (failNoBlock token) :=
  (advances_spanOf token).bind fun _ => advances_fail _ _

/-- A block goes forward. -/
theorem advances_block : Advances block := by
  refine advances_next.bind fun token => ?_
  cases token with
  | none => exact advances_failNoBlock none
  | some t =>
      dsimp only
      split
      · exact advances_failAt t
      · split
        · exact advances_blockBody
        · exact advances_failNoBlock _

end Scan

end ZDecl
