import ZDecl.Token.Kind
import ZDecl.Text.Ascii

/-!
# The first lexeme of a stream

A stream that is not empty always starts with a token: this file says of which kind, whether it is
well formed, and how many bytes it takes. Lengths are counted past the first byte, so that every
token takes at least that one, and no byte is ever lost.

## Main definitions

* `Lexeme`: kind, validity and length of a token.
* `quotedTail`, `commentTail`, `numberLength`, `operators`: the parts of the rule.
* `Lexeme.first`: the first lexeme of a stream.
-/

namespace ZDecl.Token

/-- How many bytes at the start of the stream satisfy `p`. -/
def runLength (p : UInt8 → Bool) (bytes : Bytes) : Nat := (bytes.takeWhile p).length

/-! ## Quoted literals and comments -/

/-- Reads on after an opening quote: is the literal closed, and how many bytes does it take from
here, its closing quote included? A backslash protects the byte after it. A literal on one line
ends before a line feed that is not protected. -/
def quotedTail (close : UInt8) (oneLine : Bool) : Bytes → Bool × Nat
  | [] => (false, 0)
  | b :: rest =>
    if b = Ascii.backslash then
      match rest with
      | [] => (false, 1)
      | _ :: more =>
        let (closed, n) := quotedTail close oneLine more
        (closed, n + 2)
    else if b = close then (true, 1)
    else if oneLine && b = Ascii.lineFeed then (false, 0)
    else
      let (closed, n) := quotedTail close oneLine rest
      (closed, n + 1)

/-- Reads on inside a block comment: is it closed, and how many bytes does it take from here, the
closing star and slash included? -/
def commentTail : Bytes → Bool × Nat
  | [] => (false, 0)
  | b :: rest =>
    if b = Ascii.star && rest.head? = some Ascii.slash then (true, 2)
    else
      let (closed, n) := commentTail rest
      (closed, n + 1)

/-! ## Numbers -/

/-- The length of a hexadecimal number: a zero, the letter x in either case, and digits. -/
def hexLength? : Bytes → Option Nat
  | b :: x :: rest =>
    if b = Ascii.zero && (x = 0x78 || x = 0x58) then some (2 + runLength Ascii.isHexDigit rest)
    else none
  | _ => none

/-- The length of a fraction: a full stop and digits. A full stop before a word is an access to a
member and one before another full stop a range, and neither belongs to the number. -/
def fractionLength : Bytes → Nat
  | b :: rest =>
    if b = Ascii.dot && !rest.head?.any (fun c => Ascii.isWordStart c || c == Ascii.dot) then
      1 + runLength Ascii.isDigit rest
    else 0
  | [] => 0

/-- The length of an exponent: the letter e in either case, an optional sign, and digits, of which
there must be one. -/
def exponentLength : Bytes → Nat
  | e :: c :: rest =>
    if e = 0x65 || e = 0x45 then
      if Ascii.isDigit c then 2 + runLength Ascii.isDigit rest
      else if (c = 0x2B || c = 0x2D) && rest.head?.any Ascii.isDigit then
        2 + runLength Ascii.isDigit rest
      else 0
    else 0
  | _ => 0

/-- The letters that may end a number: f, u and l of both cases. -/
def isNumberSuffix (b : UInt8) : Bool :=
  b == 0x66 || b == 0x46 || b == 0x75 || b == 0x55 || b == 0x6C || b == 0x4C

/-- The length of a decimal number: digits, a fraction and an exponent, each of which may be
missing. -/
def decimalLength (bytes : Bytes) : Nat :=
  let digits := runLength Ascii.isDigit bytes
  let fraction := fractionLength (bytes.drop digits)
  let exponent := exponentLength (bytes.drop (digits + fraction))
  digits + fraction + exponent

/-- The length of a number with its suffix letters. -/
def numberLength (bytes : Bytes) : Nat :=
  let body := (hexLength? bytes).getD (decimalLength bytes)
  body + runLength isNumberSuffix (bytes.drop body)

/-! ## Operators -/

/-- The operators of more than one character, the longer ones first. -/
def operators : List Bytes := [
  ['>', '>', '>', '='], ['<', '>', '='], ['<', '<', '='], ['>', '>', '='], ['>', '>', '>'],
  ['*', '*', '='], ['.', '.', '.'], ['~', '=', '='], ['&', '&'], ['|', '|'], ['=', '='],
  ['!', '='], ['<', '='], ['>', '='], ['+', '+'], ['-', '-'], ['+', '='], ['-', '='], ['*', '='],
  ['/', '='], ['%', '='], ['&', '='], ['|', '='], ['^', '='], ['<', '<'], ['>', '>'], ['*', '*'],
  ['-', '>'], [':', ':'], ['.', '.']].map Ascii.bytes

/-- The operators of one character that have no kind of their own. -/
def plainOperators : Bytes :=
  Ascii.bytes ['+', '-', '*', '/', '%', '&', '|', '^', '~', '!', '<', '>', '?', '@', '[', ']', '$']

/-- The kind of a single byte that is an operator or a punctuation mark. -/
def punctuation? (b : UInt8) : Option Kind :=
  if b = 0x28 then some .openParen
  else if b = 0x29 then some .closeParen
  else if b = 0x7B then some .openCurly
  else if b = 0x7D then some .closeCurly
  else if b = 0x3B then some .semicolon
  else if b = 0x2C then some .comma
  else if b = 0x3A then some .colon
  else if b = 0x3D then some .assign
  else if b = 0x2E then some .dot
  else if plainOperators.contains b then some .operator
  else none

/-! ## The first lexeme -/

/-- The shape of a token: its kind, whether it is well formed, and how long it is. -/
structure Lexeme where
  /-- The kind of the token. -/
  kind : Kind
  /-- Is the token well formed? -/
  valid : Bool
  /-- How many bytes it takes after its first. -/
  extra : Nat
  deriving DecidableEq, Repr

namespace Lexeme

/-- The longest operator at the start of `b :: rest`. A byte that belongs to no operator is an
ill-formed token, together with the bytes that continue a character if it starts one. -/
def operatorAt (b : UInt8) (rest : Bytes) : Lexeme :=
  match operators.find? (·.isPrefixOf (b :: rest)) with
  | some op => ⟨.operator, true, op.length - 1⟩
  | none =>
    match punctuation? b with
    | some kind => ⟨kind, true, 0⟩
    | none =>
      ⟨.operator, false, if 0x80 ≤ b then runLength Ascii.isContinuation rest else 0⟩

/-- The comment or operator at the start of a stream whose first byte is a slash. -/
def slashAt (rest : Bytes) : Lexeme :=
  match rest with
  | c :: more =>
    if c = Ascii.slash then ⟨.lineComment, true, 1 + runLength (· != Ascii.lineFeed) more⟩
    else if c = Ascii.star then
      let (closed, n) := commentTail more
      ⟨.blockComment, closed, 1 + n⟩
    else operatorAt Ascii.slash rest
  | [] => operatorAt Ascii.slash rest

/-- The quoted literal of the given kind at the start of a stream, after its opening quote. -/
def quotedAt (kind : Kind) (close : UInt8) (oneLine : Bool) (rest : Bytes) : Lexeme :=
  let (closed, n) := quotedTail close oneLine rest
  ⟨kind, closed, n⟩

/-- The first lexeme of the stream `b :: rest`. -/
def first (b : UInt8) (rest : Bytes) : Lexeme :=
  if b = Ascii.lineFeed then ⟨.newline, true, 0⟩
  else if Ascii.isBlank b then ⟨.whitespace, true, runLength Ascii.isBlank rest⟩
  else if b = Ascii.slash then slashAt rest
  else if b = Ascii.quote then quotedAt .string Ascii.quote false rest
  else if b = Ascii.apostrophe then quotedAt .name Ascii.apostrophe true rest
  else if b = Ascii.hash then ⟨.hash, true, 0⟩
  else if Ascii.isDigit b || (b = Ascii.dot && rest.head?.any Ascii.isDigit) then
    ⟨.number, true, numberLength (b :: rest) - 1⟩
  else if Ascii.isWordStart b then ⟨.identifier, true, runLength Ascii.isWordPart rest⟩
  else operatorAt b rest

end Lexeme

end ZDecl.Token
