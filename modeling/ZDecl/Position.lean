import ZDecl.Text.Ascii

/-!
# Positions and spans

Where things stand in a stream: a position counts bytes, lines and columns, a span is a position
with a length. Offsets and lengths count bytes; lines and columns count from 1, columns in bytes.

## Main definitions

* `Position`, `Position.after`: a place, and the place reached by reading some bytes from there.
* `Span`, `Span.unknown`: a stretch of a stream, and the span of what has no place.
-/

namespace ZDecl

/-- A place in a stream. -/
structure Position where
  /-- Bytes before the place. -/
  offset : Nat
  /-- The line of the place. -/
  line : Nat
  /-- The column of the place within its line. -/
  column : Nat
  deriving DecidableEq, Repr

namespace Position

/-- The place where a stream without a byte order mark starts. -/
def start : Position := ⟨0, 1, 1⟩

/-- The place after one more byte. A line feed starts a new line. -/
def step (p : Position) (b : UInt8) : Position :=
  if b = Ascii.lineFeed then ⟨p.offset + 1, p.line + 1, 1⟩
  else ⟨p.offset + 1, p.line, p.column + 1⟩

/-- The place after some more bytes. -/
def after (p : Position) (bytes : Bytes) : Position := bytes.foldl step p

/-- Nothing to read leaves the position alone. -/
@[simp] theorem after_nil (p : Position) : p.after [] = p := rfl

/-- The first byte is read first. -/
@[simp] theorem after_cons (p : Position) (b : UInt8) (bytes : Bytes) :
    p.after (b :: bytes) = (p.step b).after bytes := rfl

/-- Reading two streams one behind the other. -/
theorem after_append (p : Position) (a b : Bytes) : p.after (a ++ b) = (p.after a).after b := by
  simp [after]

/-- A byte moves the offset by one. -/
@[simp] theorem offset_step (p : Position) (b : UInt8) : (p.step b).offset = p.offset + 1 := by
  unfold step
  split <;> rfl

/-- The offset counts bytes. -/
@[simp] theorem offset_after (p : Position) (bytes : Bytes) :
    (p.after bytes).offset = p.offset + bytes.length := by
  induction bytes generalizing p with
  | nil => rfl
  | cons b bytes ih =>
      rw [after_cons, ih, offset_step, List.length_cons]
      omega

/-- Only a line feed moves to the next line. -/
@[simp] theorem line_step (p : Position) (b : UInt8) :
    (p.step b).line = p.line + if b = Ascii.lineFeed then 1 else 0 := by
  unfold step
  split <;> rfl

/-- The line counts line feeds. -/
theorem line_after (p : Position) (bytes : Bytes) :
    (p.after bytes).line = p.line + bytes.count Ascii.lineFeed := by
  induction bytes generalizing p with
  | nil => rfl
  | cons b bytes ih =>
      rw [after_cons, ih, line_step, List.count_cons]
      simp only [beq_iff_eq]
      omega

/-- The place as a reader sees it, line and column. -/
def text (p : Position) : String := s!"{p.line}:{p.column}"

end Position

/-- A stretch of a stream. -/
structure Span where
  /-- Where the stretch starts. -/
  start : Position
  /-- Its length in bytes. -/
  length : Nat
  deriving DecidableEq, Repr

namespace Span

/-- The span of what has no place of its own. -/
def unknown : Span := ⟨⟨0, 0, 0⟩, 0⟩

/-- The empty span at a place. -/
def point (p : Position) : Span := ⟨p, 0⟩

/-- Does the span cover no byte? -/
def isEmpty (s : Span) : Bool := s.length == 0

end Span

end ZDecl
