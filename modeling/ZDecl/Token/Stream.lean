import ZDecl.Token

/-!
# Streams of tokens

The tokens of a stream are found one after the other, each starting where the one before it ends.
A cursor stands between two of them: it holds the tokens still to be read. Reading never changes
what is to come, so going back is keeping an earlier cursor, and going elsewhere is finding the
tokens from there.

## Main definitions

* `tokensFrom`: the tokens of some bytes that start at a given place.
* `Cursor`: a place in a stream, with `Cursor.ofBytes`, `Cursor.seek`, `Cursor.next?`,
  `Cursor.skip` and `Cursor.significant`.
-/

namespace ZDecl

/-! ## All tokens -/

/-- The tokens of `bytes`, which start at `place`. -/
def tokensFrom (place : Position) : Bytes → List Token
  | [] => []
  | b :: rest =>
    let shape := Token.Lexeme.first b rest
    let token : Token := ⟨shape.kind, shape.valid, place, b :: rest.take shape.extra⟩
    token :: tokensFrom token.stop (rest.drop shape.extra)
termination_by bytes => bytes.length
decreasing_by simp only [List.length_drop, List.length_cons]; omega

/-- The byte order mark that a stream may start with. -/
def byteOrderMark : Bytes := [0xEF, 0xBB, 0xBF]

/-- Where the first token of a stream starts: after the byte order mark, if there is one. The mark
counts as bytes, but takes no column. -/
def firstPosition (contents : Bytes) : Position :=
  if byteOrderMark.isPrefixOf contents then { Position.start with offset := byteOrderMark.length }
  else Position.start

/-! ## Cursors -/

/-- A place in a stream: what is still to be read from there. -/
structure Cursor where
  /-- The bytes of the whole stream. -/
  contents : Bytes
  /-- The tokens still to be read. -/
  tokens : List Token
  /-- The place where the stream ends. -/
  stop : Position
  deriving DecidableEq, Repr

namespace Cursor

/-- The cursor at `place` in a stream. -/
def atPosition (contents : Bytes) (place : Position) : Cursor :=
  let rest := contents.drop place.offset
  ⟨contents, tokensFrom place rest, place.after rest⟩

/-- The cursor at the start of a stream. -/
def ofBytes (contents : Bytes) : Cursor := atPosition contents (firstPosition contents)

/-- Goes to another place of the stream. -/
def seek (c : Cursor) (place : Position) : Cursor := atPosition c.contents place

/-- Where the cursor stands. -/
def position (c : Cursor) : Position :=
  match c.tokens with
  | t :: _ => t.start
  | [] => c.stop

/-- Is everything read? -/
def isAtEnd (c : Cursor) : Bool := c.tokens.isEmpty

/-- The next token, without reading it. -/
def peek? (c : Cursor) : Option Token := c.tokens.head?

/-- Reads the next token. -/
def next? (c : Cursor) : Option (Token × Cursor) :=
  match c.tokens with
  | t :: rest => some (t, { c with tokens := rest })
  | [] => none

/-- Passes over white space and well-formed comments. -/
def skip (c : Cursor) : Cursor := { c with tokens := c.tokens.dropWhile Token.isSkipped }

/-- Reads the next token that is not passed over. At the end of the stream, what was passed over
stays read. -/
def significant (c : Cursor) : Option Token × Cursor :=
  match c.skip.next? with
  | some (t, rest) => (some t, rest)
  | none => (none, c.skip)

/-- Reads all tokens that are left. -/
def readAll (c : Cursor) : List Token × Cursor := (c.tokens, { c with tokens := [] })

/-- A token is read if it is the first of those to be read. -/
theorem next?_eq_some_iff {c c' : Cursor} {t : Token} :
    c.next? = some (t, c') ↔ c.tokens = t :: c'.tokens ∧ c' = { c with tokens := c'.tokens } := by
  unfold next?
  cases c.tokens with
  | nil => simp
  | cons u rest =>
      constructor
      · intro h
        cases h
        exact ⟨rfl, rfl⟩
      · rintro ⟨h, hc'⟩
        obtain ⟨rfl, rfl⟩ := List.cons.inj h
        show some (u, { c with tokens := c'.tokens }) = some (u, c')
        rw [← hc']

/-- No token is read if none is to be read. -/
theorem next?_eq_none_iff {c : Cursor} : c.next? = none ↔ c.tokens = [] := by
  unfold next?
  cases c.tokens with
  | nil => simp
  | cons t rest => simp

/-- The next significant token stands behind what is passed over. -/
theorem tokens_of_significant {c c' : Cursor} {t : Token} (h : c.significant = (some t, c')) :
    ∃ skipped, c.tokens = skipped ++ t :: c'.tokens := by
  refine ⟨c.tokens.takeWhile Token.isSkipped, ?_⟩
  unfold significant at h
  split at h
  · next u rest hnext =>
      cases h
      have hskip : c.tokens.dropWhile Token.isSkipped = t :: c'.tokens :=
        (next?_eq_some_iff.mp hnext).1
      rw [← hskip, List.takeWhile_append_dropWhile]
  · cases h

/-- Where there is no further significant token, the stream is read to its end. -/
theorem tokens_of_significant_eq_none {c c' : Cursor} (h : c.significant = (none, c')) :
    c'.tokens = [] := by
  unfold significant at h
  split at h
  · cases h
  · next hnext =>
      cases h
      exact next?_eq_none_iff.mp hnext

/-- The kind of the token that starts at `place`. -/
def kindAt? (c : Cursor) (place : Position) : Option Token.Kind :=
  (c.seek place).peek?.map Token.kind

end Cursor

end ZDecl
