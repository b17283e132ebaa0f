/-!
# Lines of a text

A line feed ends a line, together with a carriage return right before it. A text that ends with a
line feed has no further, empty line.

## Main definitions

* `lines`: the lines of a text, without what ends them.
* `line?`: one line, counted from 1.
-/

namespace ZDecl.Text

/-- Drops one carriage return from the end. -/
def dropReturn (piece : List Char) : List Char :=
  if piece.getLast? = some '\r' then piece.dropLast else piece

/-- The lines of a text. The last piece is not ended by a line feed: it keeps a carriage return,
and it is no line if it is empty. -/
def lines (cs : List Char) : List (List Char) :=
  let pieces := cs.splitOn '\n'
  let ended := pieces.dropLast.map dropReturn
  match pieces.getLast? with
  | none | some [] => ended
  | some piece => ended ++ [piece]

/-- The line with the given number, counted from 1. -/
def line? (text : String) : Nat → Option String
  | 0 => none
  | n + 1 => (lines text.toList)[n]?.map String.ofList

end ZDecl.Text
