/-!
# Token kinds

The kinds of token the language has, and how each is called in messages.

## Main definitions

* `Token.Kind`: the kinds.
* `Token.Kind.isTrivia`: the kinds that carry no meaning.
* `Token.Kind.description`: the name of a kind in messages.
-/

namespace ZDecl.Token

/-- The kinds of token. -/
inductive Kind where
  /-- A run of letters, digits and underscores that starts with no digit. -/
  | identifier
  /-- A literal in double quotes. -/
  | string
  /-- A literal in single quotes. -/
  | name
  /-- A number. -/
  | number
  /-- A run of blanks. -/
  | whitespace
  /-- One line feed. -/
  | newline
  /-- A comment from slash and star to star and slash. -/
  | blockComment
  /-- A comment from two slashes to the end of the line. -/
  | lineComment
  /-- The number sign. -/
  | hash
  /-- An opening parenthesis. -/
  | openParen
  /-- A closing parenthesis. -/
  | closeParen
  /-- An opening curly brace. -/
  | openCurly
  /-- A closing curly brace. -/
  | closeCurly
  /-- A semicolon. -/
  | semicolon
  /-- A comma. -/
  | comma
  /-- A colon. -/
  | colon
  /-- An equals sign on its own. -/
  | assign
  /-- A full stop on its own. -/
  | dot
  /-- Any other operator, and bytes that belong to no token. -/
  | operator
  deriving DecidableEq, Repr

namespace Kind

/-- White space and comments. -/
def isTrivia : Kind → Bool
  | whitespace | newline | blockComment | lineComment => true
  | _ => false

/-- What the kind is called in messages. -/
def description : Kind → String
  | identifier => "identifier"
  | string => "string"
  | name => "name"
  | number => "number"
  | whitespace => "whitespace"
  | newline => "newline"
  | blockComment => "block comment"
  | lineComment => "line comment"
  | hash => "'#'"
  | openParen => "'('"
  | closeParen => "')'"
  | openCurly => "'\x7b'"
  | closeCurly => "'\x7d'"
  | semicolon => "';'"
  | comma => "','"
  | colon => "':'"
  | assign => "'='"
  | dot => "'.'"
  | operator => "operator"

/-- Do messages show the text of a token of this kind after the description? -/
def isQuotedInMessages : Kind → Bool
  | identifier | string | name | number | operator => true
  | _ => false

end Kind

end ZDecl.Token
