import ZDecl.Text.Quoted
import ZDecl.Token

/-!
# Tokens for the reader of a trace

A token in full: its kind, its text in quotes, and its place. An ill-formed token is marked.

## Main definitions

* `Token.Kind.label`: a kind as one word.
* `Token.display`: a token in full.
-/

namespace ZDecl

/-- The kind as one word. -/
def Token.Kind.label : Token.Kind → String
  | identifier => "Identifier"
  | string => "String"
  | name => "Name"
  | number => "Number"
  | whitespace => "Whitespace"
  | newline => "Newline"
  | blockComment => "BlockComment"
  | lineComment => "LineComment"
  | hash => "Preprocessor"
  | openParen => "OpenParen"
  | closeParen => "CloseParen"
  | openCurly => "OpenCurly"
  | closeCurly => "CloseCurly"
  | semicolon => "Semicolon"
  | comma => "Comma"
  | colon => "Colon"
  | assign => "OpAssign"
  | dot => "Dot"
  | operator => "Other"

/-- A token in full. An ill-formed one has an exclamation mark after its kind. -/
def Token.display (t : Token) : String :=
  let mark := if t.valid then "" else "!"
  s!"{t.kind.label}{mark}({Text.quoted t.lexeme} @ {t.start.text})"

end ZDecl
