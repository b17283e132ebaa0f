import ZDecl.Failure.Excerpt
import ZDecl.Proofs.Session.Pointing
import ZDecl.Proofs.Text.Lines
import ZDecl.Proofs.Token.Reading

/-!
# The line that an excerpt shows

The number of a line and the text of a line come from different readers. A failure has the number
from a reader of bytes, which counts the line feeds that it passes, in comments and strings as well,
and which goes back at times. Its display is made from the text alone, cut into lines, and shows the
one with that number. It is the line where the failure is.

* `Failure.opening`, `Failure.numbered`, `Failure.pointed`: what a display consists of.
* `Cursor.PointsAt.counted`: where a single file fails, line and column are what counting gives.
* **`excerpt_shows_line`**: the display of a failure of a single file. It has no excerpt only if the
  failure is at the end of a text that ends with a line feed.
-/

namespace ZDecl

namespace Failure

/-! ## The parts of a display -/

/-- What a display starts with: the heading, and the message if there is one. -/
def opening (f : Failure) : String :=
  f.heading ++ if f.message.isEmpty then "" else s!"  {f.message}\n"

/-- What stands before a line in its row: its number, and a bar. -/
def gutter (span : Span) : String := alignRight 3 (toString span.start.line) ++ " | "

/-- The row of an excerpt that shows a line. -/
def numbered (span : Span) (line : String) : String := gutter span ++ line

/-- The row below it, which points at a part of the line. -/
def pointed (span : Span) : String :=
  "  | " ++ repeated ' ' (span.start.column - 1) ++ pointer span

/-- An excerpt is three rows. -/
theorem excerpt_eq (span : Span) (line : String) :
    excerpt span line = "  |\n" ++ numbered span line ++ "\n" ++ pointed span ++ "\n" := by
  unfold excerpt numbered gutter pointed
  simp only [String.append_assoc]
  rfl

/-- A failure whose line is not in the text is shown without an excerpt. -/
theorem render_of_line?_eq_none {f : Failure} {text : String}
    (h : Text.line? text f.span.start.line = none) : f.render text = f.opening := by
  unfold render
  rw [h]
  exact String.append_empty

/-- A failure whose line is in the text is shown with the excerpt of that line. -/
theorem render_of_line?_eq_some {f : Failure} {text line : String}
    (h : Text.line? text f.span.start.line = some line) :
    f.render text = f.opening ++ excerpt f.span line := by
  unfold render
  rw [h]
  rfl

/-- Does the display show the line of the text that holds the place of the failure, just as it
stands there, if there is such a line? -/
def ShowsLine (f : Failure) (text : String) : Prop :=
  Text.BehindLastLine text.toList f.span.start.offset ∧ f.render text = f.opening ∨
    ¬Text.BehindLastLine text.toList f.span.start.offset ∧ ∃ before line ending after,
      Text.LineAt text.toList f.span.start.offset before line ending after ∧
        f.render text = f.opening ++ ("  |\n" ++ numbered f.span (String.ofList line) ++ "\n" ++
          pointed f.span ++ "\n")

/-- Where line and column are what counting in the bytes of a text gives, the line is shown. -/
theorem showsLine_of_counted {f : Failure} {text : String} (hne : Utf8.encode text ≠ [])
    (h : f.span.start.Counted (Utf8.encode text)) : f.ShowsLine text := by
  have hbytes := Text.encode_eq_bytesOf text
  have hsome : text.toList ≠ [] := by
    intro hnil
    rw [hbytes, hnil] at hne
    exact hne rfl
  have hoffset : f.span.start.offset ≤ Text.width text.toList := by
    have hle := h.offset
    rwa [hbytes] at hle
  have hline : Text.line? text f.span.start.line =
      (Text.lines text.toList)[Text.feedsBefore text.toList f.span.start.offset]?.map
        String.ofList := by
    rw [h.line, hbytes, Nat.add_comm 1]
    rfl
  rcases Text.lines_of_count text.toList hsome hoffset with
    ⟨hbehind, hnone⟩ | ⟨before, line, ending, after, hat, hfound⟩
  · rw [hnone] at hline
    exact .inl ⟨hbehind, render_of_line?_eq_none hline⟩
  · rw [hfound] at hline
    refine .inr ⟨hat.not_behindLastLine, before, line, ending, after, hat, ?_⟩
    rw [render_of_line?_eq_some hline, excerpt_eq]

end Failure

/-! ## Single files -/

/-- A place that a failure of a single file points at is one that counting gives. -/
theorem Cursor.PointsAt.counted {contents : Bytes} {span : Span}
    (h : (Cursor.ofBytes contents).PointsAt span) : span.start.Counted contents := by
  apply counted_of_mem_boundaries
  unfold boundaries
  rcases h with ⟨t, ht, rfl⟩ | rfl
  · exact List.mem_append_left _ (List.mem_map_of_mem (List.mem_filter.mp ht).1)
  · exact List.mem_append_right _ List.mem_cons_self

/-- **The excerpt shows the right line**: the display of a failure of a single file has the line of
its text that holds the first byte of what the failure points at, without what ends it. There is no
excerpt exactly if the failure is at the end of a text that ends with a line feed. -/
theorem excerpt_shows_line {name text : String} {options : Options} {f : Failure}
    (hf : (parseSource name (Utf8.encode text) options).failure = some f) : f.ShowsLine text := by
  obtain ⟨-, hne, hspan⟩ := parseSource_pointsAt hf
  exact Failure.showsLine_of_counted hne hspan.counted

/-- Behind a string and a comment of two lines each, in a file whose lines end with a carriage
return as well. -/
theorem excerpt_shows_line_of_comment :
    let text := "class A \x7b \"two\r\nlines\" \x7d\r\n/* é\r\n*/ class \x7b \x7d\r\n"
    ∃ f, (parseSource "a.zs" (Utf8.encode text)).failure = some f ∧ f.ShowsLine text ∧
      f.render text = "Error in a.zs at 4:10: expected identifier\n" ++
        "  expected class name, found '\x7b'\n" ++
        "  |\n" ++
        "  4 | */ class \x7b \x7d\n" ++
        "  |          ^\n" := by
  intro text
  have hf : (parseSource "a.zs" (Utf8.encode text)).failure =
      some ⟨.expectedIdentifier "class name" "'\x7b'", ⟨⟨42, 4, 10⟩, 1⟩, some "a.zs"⟩ := by
    decide +kernel
  exact ⟨_, hf, excerpt_shows_line hf, by decide +kernel⟩

end ZDecl
