/-!
# ASCII bytes and letters

Streams are read byte by byte, and every byte that decides where a token ends is an ASCII
character. This file names those bytes, gives the byte classes of the language, and compares texts
up to the case of their ASCII letters.

## Main definitions

* `Bytes`: a stream of bytes.
* `Ascii.isBlank`, `Ascii.isDigit`, `Ascii.isHexDigit`, `Ascii.isWordStart`, `Ascii.isWordPart`:
  the byte classes.
* `sameIgnoringCase`: equality up to ASCII case.
-/

namespace ZDecl

/-- A stream of bytes, first byte first. -/
abbrev Bytes := List UInt8

namespace Ascii

/-! ## Named bytes -/

/-- The byte that ends a line. -/
abbrev lineFeed : UInt8 := 0x0A

/-- The double quote, around strings. -/
abbrev quote : UInt8 := 0x22

/-- The number sign, before directives. -/
abbrev hash : UInt8 := 0x23

/-- The single quote, around names. -/
abbrev apostrophe : UInt8 := 0x27

/-- The asterisk. -/
abbrev star : UInt8 := 0x2A

/-- The full stop. -/
abbrev dot : UInt8 := 0x2E

/-- The slash. -/
abbrev slash : UInt8 := 0x2F

/-- The digit zero. -/
abbrev zero : UInt8 := 0x30

/-- The backslash, which protects the byte after it in a quoted literal. -/
abbrev backslash : UInt8 := 0x5C

/-! ## Byte classes -/

/-- Horizontal white space: space, tab, carriage return, vertical tab and form feed. -/
def isBlank (b : UInt8) : Bool :=
  b == 0x20 || b == 0x09 || b == 0x0D || b == 0x0B || b == 0x0C

/-- The decimal digits. -/
def isDigit (b : UInt8) : Bool := 0x30 ≤ b && b ≤ 0x39

/-- The letters of both cases. -/
def isLetter (b : UInt8) : Bool := (0x41 ≤ b && b ≤ 0x5A) || (0x61 ≤ b && b ≤ 0x7A)

/-- The hexadecimal digits of both cases. -/
def isHexDigit (b : UInt8) : Bool :=
  isDigit b || (0x41 ≤ b && b ≤ 0x46) || (0x61 ≤ b && b ≤ 0x66)

/-- The bytes that start a word: letters and the underscore. -/
def isWordStart (b : UInt8) : Bool := isLetter b || b == 0x5F

/-- The bytes that continue a word: letters, digits and the underscore. -/
def isWordPart (b : UInt8) : Bool := isWordStart b || isDigit b

/-- The bytes above ASCII that only continue a character. -/
def isContinuation (b : UInt8) : Bool := 0x80 ≤ b && b ≤ 0xBF

/-- The bytes of a text of ASCII characters. -/
def bytes (cs : List Char) : Bytes := cs.map fun c => c.toUInt8

end Ascii

/-! ## Comparison up to case -/

/-- Are two texts equal up to the case of their ASCII letters? Other letters must agree exactly. -/
def sameIgnoringCase (a b : String) : Bool :=
  a.toList.map Char.toLower == b.toList.map Char.toLower

/-- Texts are compared after lowering their ASCII letters. -/
theorem sameIgnoringCase_eq_true_iff {a b : String} :
    sameIgnoringCase a b = true ↔ a.toList.map Char.toLower = b.toList.map Char.toLower := by
  simp only [sameIgnoringCase, beq_iff_eq]

/-- The order of the two does not matter. -/
theorem sameIgnoringCase_comm (a b : String) : sameIgnoringCase a b = sameIgnoringCase b a := by
  simp only [sameIgnoringCase, Bool.beq_comm]

end ZDecl
