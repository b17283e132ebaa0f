import ZDecl.Failure
import ZDecl.Text.Lines

/-!
# Failures with an excerpt

A failure is shown to the writer of a file together with the line it belongs to and a pointer
below the line.

## Main definitions

* `Failure.pointer`: the caret and the tildes under a span.
* `Failure.excerpt`: the numbered line and the pointer.
* `Failure.render`: the whole display.
-/

namespace ZDecl.Failure

/-- `n` times the same character. -/
def repeated (c : Char) (n : Nat) : String := String.ofList (List.replicate n c)

/-- The text, moved to the right end of a field of the given width. -/
def alignRight (width : Nat) (text : String) : String :=
  repeated ' ' (width - text.length) ++ text

/-- What points at a span: a caret under its first byte, and a tilde for every further one. -/
def pointer (span : Span) : String := "^" ++ repeated '~' (span.length - 1)

/-- The line with its number, and the pointer below it. -/
def excerpt (span : Span) (line : String) : String :=
  let number := alignRight 3 (toString span.start.line)
  let indent := repeated ' ' (span.start.column - 1)
  s!"  |\n{number} | {line}\n  | {indent}{pointer span}\n"

/-- The first line of the display: file, place and kind. -/
def heading (f : Failure) : String :=
  match f.source with
  | some name => s!"Error in {name} at {f.span.start.text}: {f.kind.text}\n"
  | none => s!"Error at {f.span.start.text}: {f.kind.text}\n"

/-- The failure as it is shown over the text of its file. The message is left out if it is empty,
and the excerpt if the text has no such line. -/
def render (f : Failure) (text : String) : String :=
  let message := if f.message.isEmpty then "" else s!"  {f.message}\n"
  let shown := ((Text.line? text f.span.start.line).map (excerpt f.span)).getD ""
  f.heading ++ message ++ shown

end ZDecl.Failure
