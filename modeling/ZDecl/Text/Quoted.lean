import ZDecl.Text.Lowercase
import ZDecl.Text.UnprintableTable

/-!
# Texts in quotes

A text is shown between double quotes. What would end it, or cannot be seen, is written with a
backslash: a few characters by a letter, all others that are not printable by their number.

## Main definitions

* `isUnprintable`: the characters that are written by their number.
* `quotedChar`, `quoted`: a character inside quotes, and a whole text.
-/

namespace ZDecl.Text

/-- Is the character a control or format character, one without a meaning, a separator other than
the space, or a mark that joins the character before it? -/
def isUnprintable (c : Char) : Bool :=
  if c.toNat < 0x80 then c.toNat < 0x20 || c.toNat == 0x7F
  else inRanges unprintableRanges c.toNat

/-- The number of a character, in hexadecimal digits and curly braces. -/
def charNumber (c : Char) : String :=
  "\\u\x7b" ++ String.ofList (Nat.toDigits 16 c.toNat) ++ "\x7d"

/-- A character inside quotes. An apostrophe stands as it is. -/
def quotedChar (c : Char) : String :=
  if c = Char.ofNat 0 then "\\0"
  else if c = '\t' then "\\t"
  else if c = '\r' then "\\r"
  else if c = '\n' then "\\n"
  else if c = '\\' then "\\\\"
  else if c = '"' then "\\\""
  else if isUnprintable c then charNumber c
  else String.singleton c

/-- A text in quotes. -/
def quoted (text : String) : String :=
  "\"" ++ String.join (text.toList.map quotedChar) ++ "\""

end ZDecl.Text
