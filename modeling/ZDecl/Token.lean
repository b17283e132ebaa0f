import ZDecl.Position
import ZDecl.Text.Utf8
import ZDecl.Token.Keyword
import ZDecl.Token.Lexeme

/-!
# Tokens

A token is a stretch of a stream: the bytes it covers, where they start, and what kind of token
they form. Its span and its text are computed from these.

## Main definitions

* `Token`: the type, with `Token.span`, `Token.lexeme` and `Token.unquoted`.
* `Token.Fault`: what is wrong with an ill-formed token.
* `Token.describe`: how a token reads in a message.
* `Token.isSkipped`: white space and comments, as far as they are well formed.
-/

namespace ZDecl

/-- A token of a stream. -/
structure Token where
  /-- The kind of the token. -/
  kind : Token.Kind
  /-- Is the token well formed? -/
  valid : Bool
  /-- Where the token starts. -/
  start : Position
  /-- The bytes that the token covers. -/
  bytes : Bytes
  deriving DecidableEq, Repr

namespace Token

/-! ## Place and text -/

/-- The stretch that the token covers. -/
def span (t : Token) : Span := ⟨t.start, t.bytes.length⟩

/-- The place right after the token. -/
def stop (t : Token) : Position := t.start.after t.bytes

/-- The text of the token. -/
def lexeme (t : Token) : String := Utf8.decode t.bytes

/-- The text of the token, without the quotes if it is a well-formed literal. -/
def unquoted (t : Token) : String :=
  if t.valid && (t.kind = .string || t.kind = .name) then Utf8.decode (t.bytes.drop 1).dropLast
  else t.lexeme

/-- Is the token white space or a comment? -/
def isTrivia (t : Token) : Bool := t.kind.isTrivia

/-- Do readers of declarations pass over the token? They do not pass over a comment that is never
closed. -/
def isSkipped (t : Token) : Bool := t.isTrivia && t.valid

/-- Is the token the given word, up to case? -/
def isWord (t : Token) (word : String) : Bool :=
  t.kind = .identifier && sameIgnoringCase t.lexeme word

/-- The keyword that the token spells. -/
def keyword? (t : Token) : Option Keyword :=
  if t.kind = .identifier then Keyword.ofWord? t.lexeme else none

/-- A word is an identifier that is spelled so, up to case. -/
theorem isWord_eq_true_iff {t : Token} {word : String} :
    t.isWord word = true ↔ t.kind = .identifier ∧ sameIgnoringCase t.lexeme word = true := by
  simp [isWord]

/-- A token spells a keyword if it is that word, up to case. -/
theorem keyword?_eq_some_iff {t : Token} {k : Keyword} :
    t.keyword? = some k ↔ t.isWord k.spelling = true := by
  rw [isWord_eq_true_iff, keyword?]
  split
  · next h => rw [Keyword.ofWord?_eq_some_iff]; exact (and_iff_right h).symm
  · next h => simp [h]

/-! ## Faults -/

/-- What is wrong with an ill-formed token. -/
inductive Fault where
  /-- A character that starts no token. -/
  | unexpected (c : Char)
  /-- A string without its closing quote. -/
  | openString
  /-- A name without its closing quote. -/
  | openName
  /-- A block comment that is never closed. -/
  | openComment
  deriving DecidableEq, Repr

/-- The message about a fault in a token that starts at `place`. -/
def Fault.message (place : Position) : Fault → String
  | .unexpected c => s!"unexpected character '{c}' at {place.text}"
  | .openString => s!"unterminated string at {place.text}"
  | .openName => s!"unterminated name at {place.text}"
  | .openComment => s!"unterminated comment at {place.text}"

/-- What is wrong with the token, if it is ill-formed. -/
def fault (t : Token) : Fault :=
  match t.kind with
  | .string => .openString
  | .name => .openName
  | .blockComment => .openComment
  | _ => .unexpected ((Utf8.decodeChars t.bytes).headD Utf8.replacement)

/-- What is wrong with the token; `none` if it is well formed. -/
def fault? (t : Token) : Option Fault := if t.valid then none else some t.fault

/-! ## In messages -/

/-- How the token reads in a message. -/
def describe (t : Token) : String :=
  if t.kind.isQuotedInMessages then s!"{t.kind.description} \"{t.lexeme}\""
  else t.kind.description

/-- How what was found reads in a message, the end of the stream included. -/
def describeFound : Option Token → String
  | some t => t.describe
  | none => "<null>"

end Token

end ZDecl
