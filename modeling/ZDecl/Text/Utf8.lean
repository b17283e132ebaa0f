import ZDecl.Text.Ascii

/-!
# Reading bytes as text

A stream need not be valid UTF-8. Its text is what a reader shows who replaces every ill-formed
piece by the replacement character: a piece is the longest beginning of some character's encoding
that stands there, or a single byte if no encoding begins so.

## Main definitions

* `Utf8.Lead`: what the first byte of an encoded character announces.
* `Utf8.decodeFirst`: the first character of a stream, and how many bytes it covers.
* `Utf8.decode`, `Utf8.encode`: the whole text of a stream, and the bytes of a text.
-/

namespace ZDecl.Utf8

/-- The character that stands for an ill-formed piece. -/
def replacement : Char := Char.ofNat 0xFFFD

/-- What the first byte of an encoded character announces. -/
structure Lead where
  /-- The bits of the character that the byte holds. -/
  payload : Nat
  /-- How many bytes follow. -/
  following : Nat
  /-- The least byte that may come second. -/
  secondLow : UInt8 := 0x80
  /-- The greatest byte that may come second. -/
  secondHigh : UInt8 := 0xBF

/-- Reads a first byte; `none` if no encoding starts with it. The bounds on the second byte keep
out encodings that are longer than needed, surrogates, and values beyond the last character. -/
def Lead.ofByte? (b : UInt8) : Option Lead :=
  let n := b.toNat
  if n < 0x80 then some { payload := n, following := 0 }
  else if n < 0xC2 then none
  else if n < 0xE0 then some { payload := n - 0xC0, following := 1 }
  else if n = 0xE0 then some { payload := 0, following := 2, secondLow := 0xA0 }
  else if n = 0xED then some { payload := 13, following := 2, secondHigh := 0x9F }
  else if n < 0xF0 then some { payload := n - 0xE0, following := 2 }
  else if n = 0xF0 then some { payload := 0, following := 3, secondLow := 0x90 }
  else if n < 0xF4 then some { payload := n - 0xF0, following := 3 }
  else if n = 0xF4 then some { payload := 4, following := 3, secondHigh := 0x8F }
  else none

/-- The bytes after a first byte that carry its character on: at most as many as it announces, the
first of them within its bounds. -/
def Lead.continued (lead : Lead) (rest : Bytes) : Bytes :=
  match rest.take lead.following with
  | [] => []
  | second :: more =>
    if lead.secondLow ≤ second && second ≤ lead.secondHigh then
      second :: more.takeWhile Ascii.isContinuation
    else []

/-- The value of a character from its leading bits and the bytes that continue it, six bits each. -/
def assemble (payload : Nat) (continued : Bytes) : Nat :=
  continued.foldl (fun value b => value * 64 + b.toNat % 64) payload

/-- The first character of the stream `b :: rest`, and how many bytes of `rest` it covers. -/
def decodeFirst (b : UInt8) (rest : Bytes) : Char × Nat :=
  match Lead.ofByte? b with
  | none => (replacement, 0)
  | some lead =>
    let continued := lead.continued rest
    if continued.length = lead.following then
      (Char.ofNat (assemble lead.payload continued), continued.length)
    else (replacement, continued.length)

/-- The characters of a stream, ill-formed pieces replaced. -/
def decodeChars : Bytes → List Char
  | [] => []
  | b :: rest =>
    let (c, extra) := decodeFirst b rest
    c :: decodeChars (rest.drop extra)
termination_by bytes => bytes.length
decreasing_by simp only [List.length_drop, List.length_cons]; omega

/-- The text of a stream, ill-formed pieces replaced. -/
def decode (bytes : Bytes) : String := String.ofList (decodeChars bytes)

/-- The bytes of a text. -/
def encode (s : String) : Bytes := s.toUTF8.data.toList

end ZDecl.Utf8
