import ZDecl.Proofs.Failure.Line
import ZDecl.Proofs.Token.Splice

/-!
# The column of the caret

Below the line of a failure stands a caret. It should be right below what the failure points at, but
the two rows are made apart from each other. The line stands behind a number, which takes three
columns or more, and a bar; the caret stands behind a bar only. And the caret is moved to the right
by the column of the failure, which counts bytes, while what stands before a token in its row counts
by characters.

* `exists_lexeme_of_mem`: where the text of a token stands in the text of its stream.
* `Text.mark`, `exists_behind_mark`: the byte order mark of a text, which takes no column.
* `Position.Counted.column_eq`: the column of a place, by the characters before it in its line.
* `Failure.ShowsToken`: the two rows of an excerpt, for a failure at a token.
* **`caret_column`**: in which columns of them the token and the caret are.
-/

namespace ZDecl

open Text

/-! ## Tokens in a text -/

/-- The first token of a text has its first characters. -/
theorem exists_lexeme_of_tokensFrom {cs : List Char} {place : Position} {t : Token}
    {tokens : List Token} (h : tokensFrom place (bytesOf cs) = t :: tokens) :
    ∃ more, cs = t.lexeme.toList ++ more ∧ bytesOf t.lexeme.toList = t.bytes ∧
      ∃ place', tokens = tokensFrom place' (bytesOf more) := by
  obtain ⟨b, taken, left, hbytes, ht, hfirst, htokens⟩ := exists_taken_of_tokensFrom h
  have hcut : Utf8.Apart (b :: taken) left := by
    have hends := Token.Lexeme.apart_first b (taken ++ left)
    unfold Token.Lexeme.EndsApart at hends
    rwa [hfirst, List.take_left, List.drop_left] at hends
  have htaken : t.bytes = b :: taken := by rw [ht]
  obtain ⟨front, more, rfl, hfront, rfl⟩ := exists_cut hbytes hcut
  have hlexeme : t.lexeme.toList = front := by
    rw [Token.lexeme, htaken, ← hfront, Utf8.decode, String.toList_ofList]
    exact Utf8.decodeChars_flatMap_encodeChar front
  rw [hlexeme, htaken]
  exact ⟨more, rfl, hfront, _, htokens⟩

/-- A token of a text has the characters behind those of the tokens before it. -/
theorem exists_lexeme_of_tokensFrom_append {cs : List Char} {place : Position}
    {before after : List Token} {t : Token}
    (h : tokensFrom place (bytesOf cs) = before ++ t :: after) :
    ∃ front more, cs = front ++ t.lexeme.toList ++ more ∧
      bytesOf front = before.flatMap Token.bytes ∧ bytesOf t.lexeme.toList = t.bytes := by
  induction before generalizing place cs with
  | nil =>
      obtain ⟨more, hcs, hbytes, -⟩ := exists_lexeme_of_tokensFrom h
      exact ⟨[], more, hcs, rfl, hbytes⟩
  | cons u before ih =>
      obtain ⟨rest, rfl, hu, place', hrest⟩ := exists_lexeme_of_tokensFrom h
      obtain ⟨front, more, rfl, hfront, hbytes⟩ := ih hrest.symm
      refine ⟨u.lexeme.toList ++ front, more, ?_, ?_, hbytes⟩
      · simp only [List.append_assoc]
      · rw [bytesOf_append, hu, hfront, List.flatMap_cons]

/-- The byte order mark that a text may start with. -/
def Text.mark (text : List Char) : List Char :=
  if text.head? = some '\uFEFF' then ['\uFEFF'] else []

/-- A mark is no ASCII character. -/
theorem mark_eq_nil_of_ascii {text : List Char} (h : ∀ c ∈ mark text, c.toNat < 0x80) :
    mark text = [] := by
  unfold mark at h ⊢
  split at h
  · exact absurd (h _ List.mem_cons_self) (by decide)
  · next hnot => exact if_neg hnot

/-- What a text has behind the mark are the characters of what its bytes have behind theirs. -/
theorem exists_behind_mark (text : String) : ∃ cs, text.toList = mark text.toList ++ cs ∧
    bytesOf cs = unmarked (Utf8.encode text) ∧
      width (mark text.toList) = (firstPosition (Utf8.encode text)).offset := by
  have hbytes := encode_eq_bytesOf text
  unfold unmarked
  rw [offset_firstPosition]
  by_cases hmark : text.toList.head? = some '\uFEFF'
  · obtain ⟨cs, hcs⟩ := List.head?_eq_some_iff.mp hmark
    have hencode : Utf8.encode text = byteOrderMark ++ bytesOf cs := by
      rw [hbytes, hcs]
      rfl
    have his : byteOrderMark.isPrefixOf (Utf8.encode text) = true := by
      rw [hencode]
      exact List.isPrefixOf_iff_prefix.mpr ⟨_, rfl⟩
    rw [if_pos his, mark, if_pos hmark, hencode]
    exact ⟨cs, hcs, rfl, rfl⟩
  · have hnot : byteOrderMark.isPrefixOf (Utf8.encode text) ≠ true := by
      intro his
      have hdecode := decode_eq_mark_append (Utf8.encode text)
      rw [Utf8.decode_encode, if_pos his] at hdecode
      rw [hdecode, String.toList_append] at hmark
      exact hmark rfl
    rw [if_neg hnot, mark, if_neg hmark]
    exact ⟨text.toList, rfl, hbytes.symm, rfl⟩

/-- **Where the text of a token stands**: behind as many bytes as its offset says. -/
theorem exists_lexeme_of_mem {text : String} {t : Token}
    (h : t ∈ (Cursor.ofBytes (Utf8.encode text)).tokens) :
    ∃ front more, text.toList = front ++ t.lexeme.toList ++ more ∧ width front = t.start.offset ∧
      bytesOf t.lexeme.toList = t.bytes ∧ width (mark text.toList) ≤ t.start.offset := by
  obtain ⟨cs, htext, hcs, hmark⟩ := exists_behind_mark text
  obtain ⟨before, after, htokens⟩ := List.append_of_mem h
  have hread : tokensFrom (firstPosition (Utf8.encode text)) (bytesOf cs) =
      before ++ t :: after := by
    rw [hcs]
    exact htokens
  have hstart : t.start.offset =
      width (mark text.toList) + (before.flatMap Token.bytes).length := by
    rw [start_of_tokensFrom hread, Position.offset_after, hmark]
  obtain ⟨front, more, rfl, hfront, hbytes⟩ := exists_lexeme_of_tokensFrom_append hread
  refine ⟨mark text.toList ++ front, more, ?_, ?_, hbytes, by omega⟩
  · rw [List.append_assoc, List.append_assoc, ← List.append_assoc front, ← htext]
  · rw [width_append, hstart, ← hfront]
    rfl

/-- A token that is not passed over starts with no character that ends a line. -/
theorem Token.head?_lexeme {text : String} {t : Token}
    (h : t ∈ unskipped (Cursor.ofBytes (Utf8.encode text)).tokens) :
    ∃ first, t.lexeme.toList.head? = some first ∧ first ≠ '\n' ∧ first ≠ '\r' := by
  obtain ⟨hmem, hkept⟩ := List.mem_filter.mp h
  obtain ⟨-, -, -, -, hbytes, -⟩ := exists_lexeme_of_mem hmem
  obtain ⟨b, rest, hkind, hvalid, htaken⟩ := exists_first_of_mem hmem
  have hkept : ((Lexeme.first b rest).kind.isTrivia && (Lexeme.first b rest).valid) = false := by
    rw [← hkind, ← hvalid]
    exact (Bool.not_eq_true' _).mp hkept
  rw [htaken] at hbytes
  cases hlexeme : t.lexeme.toList with
  | nil =>
      rw [hlexeme] at hbytes
      cases hbytes
  | cons first more =>
      rw [hlexeme] at hbytes
      refine ⟨first, rfl, ?_, ?_⟩
      · rintro rfl
        obtain ⟨rfl, -⟩ := List.cons.inj hbytes
        exact nomatch (show true = false from hkept)
      · rintro rfl
        obtain ⟨rfl, -⟩ := List.cons.inj hbytes
        exact nomatch (show true = false from hkept)

/-! ## Columns -/

/-- ASCII characters take one byte each. -/
theorem width_of_ascii {cs : List Char} (h : ∀ c ∈ cs, c.toNat < 0x80) : width cs = cs.length := by
  induction cs with
  | nil => rfl
  | cons c cs ih =>
      obtain ⟨hc, hcs⟩ := List.forall_mem_cons.mp h
      rw [← List.singleton_append, width_append, ih hcs, List.length_append]
      congr 1
      rw [width, bytesOf, List.flatMap_singleton, Utf8.encodeChar_of_lt hc]
      rfl

/-- There is no mark among ASCII characters. -/
theorem width_of_ascii_ahead {text ahead front : List Char} {line : Nat}
    (h : ahead = (if line = 1 then mark text else []) ++ front)
    (hascii : ∀ c ∈ ahead, c.toNat < 0x80) : width front = ahead.length := by
  have hnone : (if line = 1 then mark text else []) = [] := by
    rw [h] at hascii
    split at hascii
    · next hline =>
        rw [if_pos hline]
        exact mark_eq_nil_of_ascii fun c hc => hascii c (List.mem_append_left _ hc)
    · next hline => exact if_neg hline
  rw [hnone, List.nil_append] at h
  rw [h] at hascii ⊢
  exact width_of_ascii hascii

/-- How many bytes stand behind the last line feed. -/
theorem length_takeWhile_reverse {front behind : Bytes}
    (hfront : front = [] ∨ front.getLast? = some Ascii.lineFeed)
    (hbehind : Ascii.lineFeed ∉ behind) :
    ((front ++ behind).reverse.takeWhile (· != Ascii.lineFeed)).length = behind.length := by
  have hall : ∀ b ∈ behind.reverse, (b != Ascii.lineFeed) = true := by
    intro b hb
    refine bne_iff_ne.mpr ?_
    rintro rfl
    exact hbehind (List.mem_reverse.mp hb)
  rw [List.reverse_append, List.takeWhile_append_of_pos hall, List.length_append,
    List.length_reverse]
  rcases hfront with rfl | hlast
  · rfl
  · obtain ⟨lines, rfl⟩ := List.getLast?_eq_some_iff.mp hlast
    rw [List.reverse_append, List.reverse_singleton, List.singleton_append,
      List.takeWhile_cons_of_neg (by simp)]
    rfl

/-- The mark stands on the first line. -/
theorem width_mark_le {text lines more : List Char} (h : text = lines ++ '\n' :: more) :
    width (mark text) ≤ width lines := by
  unfold mark
  split
  · next hmark =>
      cases lines with
      | nil =>
          rw [h] at hmark
          cases hmark
      | cons c lines =>
          rw [h] at hmark
          obtain rfl := Option.some.inj hmark
          have hparts : width ('\uFEFF' :: lines) = width ['\uFEFF'] + width lines :=
            width_append ['\uFEFF'] lines
          omega
  · exact Nat.zero_le _

/-- The bytes before a place are those of the characters before it. -/
theorem take_encode {text : String} {front more : List Char} {offset : Nat}
    (htext : text.toList = front ++ more) (hoffset : width front = offset) :
    (Utf8.encode text).take offset = bytesOf front := by
  rw [encode_eq_bytesOf, htext, bytesOf_append, ← hoffset]
  exact List.take_left

section Counted

variable {text : String} {before ahead more : List Char} {p : Position}

/-- On the first line, the bytes of the mark do not count. -/
theorem Position.Counted.of_first_line (h : p.Counted (Utf8.encode text))
    (htext : text.toList = ahead ++ more) (hoffset : width ahead = p.offset) (hplain : '\n' ∉ ahead)
    (hmark : width (mark text.toList) ≤ p.offset) :
    p.line = 1 ∧ ∃ front, ahead = mark text.toList ++ front ∧ p.column = 1 + width front := by
  obtain ⟨cs, hcs, -, hfirst⟩ := exists_behind_mark text
  obtain ⟨front, hahead⟩ : mark text.toList <+: ahead :=
    isPrefix_of_width_le ⟨cs, hcs.symm⟩ ⟨more, htext.symm⟩ (hoffset ▸ hmark)
  have hnone : Ascii.lineFeed ∉ bytesOf front := by
    rw [← hahead] at hplain
    exact lineFeed_not_mem_bytesOf fun hmem => hplain (List.mem_append_right _ hmem)
  refine ⟨?_, front, hahead.symm, ?_⟩
  · rw [h.line, take_encode htext hoffset,
      List.count_eq_zero.mpr (lineFeed_not_mem_bytesOf hplain)]
  · rw [h.column, take_encode htext hoffset, ← hfirst, ← hahead, bytesOf_append, width,
      List.drop_left, ← List.nil_append (bytesOf front), length_takeWhile_reverse (.inl rfl) hnone]
    rfl

/-- On a later line, all bytes count. -/
theorem Position.Counted.of_later_line {lines : List Char} (h : p.Counted (Utf8.encode text))
    (htext : text.toList = lines ++ '\n' :: ahead ++ more)
    (hoffset : width (lines ++ '\n' :: ahead) = p.offset) (hplain : '\n' ∉ ahead) :
    p.line ≠ 1 ∧ p.column = 1 + width ahead := by
  obtain ⟨cs, hcs, -, hfirst⟩ := exists_behind_mark text
  have hparts : bytesOf (lines ++ '\n' :: ahead) =
      bytesOf lines ++ [Ascii.lineFeed] ++ bytesOf ahead := by
    rw [bytesOf_append, bytesOf_lineFeed, List.append_assoc]
    rfl
  have hle : width (mark text.toList) ≤ (bytesOf lines).length :=
    width_mark_le (htext.trans (List.append_assoc _ _ _))
  constructor
  · rw [h.line, take_encode htext hoffset, hparts, List.count_append, List.count_append,
      List.count_singleton_self]
    omega
  · rw [h.column, take_encode htext hoffset, hparts, ← hfirst, List.append_assoc,
      List.drop_append_of_le_length hle, ← List.append_assoc,
      length_takeWhile_reverse (.inr List.getLast?_concat) (lineFeed_not_mem_bytesOf hplain)]
    rfl

/-- **The column of a place** counts the bytes of the characters before it in its line, without
those of the mark on the first line. -/
theorem Position.Counted.column_eq (h : p.Counted (Utf8.encode text))
    (htext : text.toList = before ++ ahead ++ more) (hoffset : width (before ++ ahead) = p.offset)
    (hstarts : before = [] ∨ before.getLast? = some '\n') (hplain : '\n' ∉ ahead)
    (hmark : width (mark text.toList) ≤ p.offset) :
    ∃ front, ahead = (if p.line = 1 then mark text.toList else []) ++ front ∧
      p.column = 1 + width front := by
  rcases hstarts with rfl | hlast
  · obtain ⟨hline, hfront⟩ := h.of_first_line htext hoffset hplain hmark
    rw [if_pos hline]
    exact hfront
  · obtain ⟨lines, rfl⟩ := List.getLast?_eq_some_iff.mp hlast
    rw [List.append_assoc lines] at htext hoffset
    obtain ⟨hline, hcolumn⟩ := h.of_later_line htext hoffset hplain
    rw [if_neg hline]
    exact ⟨ahead, rfl, hcolumn⟩

end Counted

/-! ## Rows -/

namespace Failure

/-- The gutter has three columns for the number, or as many as it has digits, and three more. -/
theorem length_gutter (span : Span) :
    (gutter span).length = max 3 (toString span.start.line).length + 3 := by
  unfold gutter alignRight repeated
  rw [String.length_append, String.length_append, String.length_ofList, List.length_replicate]
  have hbar : (" | " : String).length = 3 := rfl
  omega

/-- A number and a bar stay on one line. -/
theorem lineFeed_not_mem_gutter (span : Span) : '\n' ∉ (gutter span).toList := by
  unfold gutter alignRight repeated
  rw [String.toList_append, String.toList_append, String.toList_ofList,
    Nat.toString_eq_ofList_toDigits, String.toList_ofList]
  simp only [List.mem_append, List.mem_replicate, not_or]
  refine ⟨⟨by simp, ?_⟩, by decide⟩
  intro hdigit
  exact absurd (Nat.isDigit_of_mem_toDigits (by decide) (by decide) hdigit) (by decide)

/-- The characters of a numbered line. -/
theorem numbered_ofList (span : Span) (line : List Char) :
    numbered span (String.ofList line) = String.ofList ((gutter span).toList ++ line) := by
  rw [String.ofList_append, String.ofList_toList]
  rfl

/-- The characters of the row with the caret. -/
theorem toList_pointed (span : Span) : (pointed span).toList =
    ([' ', ' ', '|', ' '] ++ List.replicate (span.start.column - 1) ' ') ++
      '^' :: List.replicate (span.length - 1) '~' := by
  unfold pointed pointer repeated
  simp only [String.toList_append, String.toList_ofList]
  rfl

/-- How a display shows a failure at a token: in two rows, one with the line of the token, which has
`ahead` before the first character of the token, the other with the caret. As many characters as
stand before it in its row are the column of that character, and the column of the caret. -/
structure ShowsToken (f : Failure) (text : String) (t : Token) (gutter ahead : List Char)
    (first : Char) (rest indent tail : List Char) : Prop where
  /-- The failure is at the token. -/
  span : f.span = t.span
  /-- The character is the first one of the token. -/
  lexeme : t.lexeme.toList.head? = some first
  /-- It stands in its line where the token starts. -/
  line : ∃ before ending after,
    LineAt text.toList t.start.offset before (ahead ++ first :: rest) ending after ∧
      width (before ++ ahead) = t.start.offset
  /-- The display ends with the two rows. -/
  display : f.render text = f.opening ++ ("  |\n" ++
    String.ofList (gutter ++ ahead ++ first :: rest) ++ "\n" ++
    String.ofList (indent ++ '^' :: tail) ++ "\n")
  /-- Each of them is one line. -/
  rows : '\n' ∉ gutter ++ ahead ++ first :: rest ∧ '\n' ∉ indent ++ '^' :: tail
  /-- There is one caret. -/
  caret : '^' ∉ indent ++ tail

/-- Where a failure at a token has its caret. -/
def PlacesCaret (f : Failure) (text : String) (t : Token) : Prop :=
  ∃ gutter mark front first rest indent tail,
    f.ShowsToken text t gutter (mark ++ front) first rest indent tail ∧
      mark = (if f.span.start.line = 1 then Text.mark text.toList else []) ∧
      gutter.length = max 3 (toString f.span.start.line).length + 3 ∧
      indent.length = 4 + width front ∧
      ((∀ c ∈ mark ++ front, c.toNat < 0x80) →
        indent.length + max 3 (toString f.span.start.line).length =
          (gutter ++ (mark ++ front)).length + 1)

/-- Whatever the failure is, the display shows the token that it is at, in a line before its end. -/
theorem exists_showsLine {f : Failure} {text : String} {front more : List Char} {first : Char}
    (hcounted : f.span.start.Counted (Utf8.encode text))
    (htext : text.toList = front ++ first :: more) (hoffset : width front = f.span.start.offset) :
    ∃ before line ending after,
      LineAt text.toList f.span.start.offset before line ending after ∧
        f.render text = f.opening ++ ("  |\n" ++ numbered f.span (String.ofList line) ++ "\n" ++
          pointed f.span ++ "\n") := by
  have hne : Utf8.encode text ≠ [] := by
    intro hnil
    rw [encode_eq_bytesOf, htext, bytesOf_append] at hnil
    cases eq_nil_of_width_eq_zero (congrArg List.length (List.append_eq_nil_iff.mp hnil).2)
  rcases showsLine_of_counted hne hcounted with ⟨⟨hend, -⟩, -⟩ | ⟨-, hline⟩
  · rw [htext, width_append] at hend
    have hnone : width (first :: more) = 0 := by omega
    cases eq_nil_of_width_eq_zero hnone
  · exact hline

/-- **A failure at a token** has its caret where its line and its column put it. -/
theorem placesCaret {f : Failure} {text : String} {t : Token}
    (ht : t ∈ unskipped (Cursor.ofBytes (Utf8.encode text)).tokens) (hspan : f.span = t.span) :
    f.PlacesCaret text t := by
  have hstart : f.span.start = t.start := by rw [hspan]; rfl
  have hcounted : f.span.start.Counted (Utf8.encode text) :=
    Cursor.PointsAt.counted (.inl ⟨t, ht, hspan⟩)
  -- The token is on the line, since no line ends with the character that it starts with.
  obtain ⟨ahead', more, htext, hoffset, -, hmark⟩ :=
    exists_lexeme_of_mem (List.mem_filter.mp ht).1
  obtain ⟨first, hfirst, hfeed, hreturn⟩ := Token.head?_lexeme ht
  obtain ⟨lexeme, hlexeme⟩ := List.head?_eq_some_iff.mp hfirst
  rw [hlexeme, List.append_assoc, List.cons_append] at htext
  rw [← hstart] at hoffset hmark
  obtain ⟨before, line, ending, after, hat, hdisplay⟩ :=
    exists_showsLine hcounted htext hoffset
  obtain ⟨ahead, rest, rfl, rfl⟩ := hat.exists_ahead htext hoffset hfeed hreturn
  have hplain : '\n' ∉ ahead := fun hmem => hat.plain (List.mem_append_left _ hmem)
  obtain ⟨front, hahead, hcolumn⟩ := hcounted.column_eq htext hoffset hat.starts hplain hmark
  have hindent : ([' ', ' ', '|', ' '] ++ List.replicate (f.span.start.column - 1) ' ').length =
      4 + width front := by
    rw [List.length_append, List.length_replicate, hcolumn, Nat.add_sub_cancel_left]
    rfl
  refine ⟨(gutter f.span).toList, _, front, first, rest, _,
    List.replicate (f.span.length - 1) '~', ⟨hspan, hfirst, ?_, ?_, ⟨?_, ?_⟩, ?_⟩, rfl,
    length_gutter f.span, hindent, ?_⟩
  · rw [← hahead, ← hstart]
    exact ⟨before, ending, after, hat, hoffset⟩
  · rw [hdisplay, ← hahead, ← toList_pointed, String.ofList_toList, List.append_assoc,
      numbered_ofList]
  · rw [← hahead, List.append_assoc]
    exact fun hmem => (List.mem_append.mp hmem).elim (lineFeed_not_mem_gutter f.span) hat.plain
  · simp
  · simp
  · intro hascii
    rw [← hahead] at hascii ⊢
    have hwidth := width_of_ascii_ahead hahead hascii
    rw [hindent, List.length_append, String.length_toList, length_gutter]
    omega

end Failure

/-- **The column of the caret**: where a single file fails, it does so at its end or at a token. The
caret of a failure at a token is behind four characters and as many as there are bytes before the
token in its line, the byte order mark apart. The token is behind the number of its line, in three
columns or more, three further characters, and the characters before it. So the caret is not below
the token on a line that is ASCII up to there: it is two columns to the left of it, or more if the
number of the line has more than three digits. -/
theorem caret_column {name text : String} {options : Options} {f : Failure}
    (hf : (parseSource name (Utf8.encode text) options).failure = some f) :
    f.span = Span.point (Cursor.ofBytes (Utf8.encode text)).stop ∨
      ∃ t ∈ unskipped (Cursor.ofBytes (Utf8.encode text)).tokens, f.PlacesCaret text t := by
  obtain ⟨-, -, ⟨t, ht, hspan⟩ | hstop⟩ := parseSource_pointsAt hf
  · exact .inr ⟨t, ht, Failure.placesCaret ht hspan⟩
  · exact .inl hstop

/-- Behind a mark, which is a character of the line but takes no column, and behind a character of
two bytes. -/
theorem caret_column_behind_mark :
    let text := "\uFEFF/* é */ class \x7b \x7d"
    ∃ f, (parseSource "a.zs" (Utf8.encode text)).failure = some f ∧
      (∃ t ∈ unskipped (Cursor.ofBytes (Utf8.encode text)).tokens, f.PlacesCaret text t) ∧
      f.render text = "Error in a.zs at 1:16: expected identifier\n" ++
        "  expected class name, found '\x7b'\n" ++
        "  |\n" ++
        "  1 | \uFEFF/* é */ class \x7b \x7d\n" ++
        "  |                ^\n" := by
  intro text
  have hf : (parseSource "a.zs" (Utf8.encode text)).failure =
      some ⟨.expectedIdentifier "class name" "'\x7b'", ⟨⟨18, 1, 16⟩, 1⟩, some "a.zs"⟩ := by
    decide +kernel
  exact ⟨_, hf, (caret_column hf).resolve_left (by decide +kernel), by decide +kernel⟩

/-- The caret of a failure at a brace, which is in column 12 of its row, is in column 10. -/
theorem caret_left_of_brace :
    let text := "class \x7b \x7d"
    let line := "  1 | class \x7b \x7d"
    let pointed := "  |       ^"
    (∃ f, (parseSource "a.zs" (Utf8.encode text)).failure = some f ∧
      (∃ t ∈ (Cursor.ofBytes (Utf8.encode text)).tokens, f.span = t.span ∧ t.lexeme = "\x7b") ∧
      f.render text = "Error in a.zs at 1:7: expected identifier\n" ++
        "  expected class name, found '\x7b'\n" ++ "  |\n" ++ line ++ "\n" ++ pointed ++ "\n") ∧
      line.toList.idxOf '\x7b' = 12 ∧ pointed.toList.idxOf '^' = 10 := by
  intro text line pointed
  have hf : (parseSource "a.zs" (Utf8.encode text)).failure =
      some ⟨.expectedIdentifier "class name" "'\x7b'", ⟨⟨6, 1, 7⟩, 1⟩, some "a.zs"⟩ := by
    decide +kernel
  have ht : (⟨.openCurly, true, ⟨6, 1, 7⟩, [0x7B]⟩ : Token) ∈
      (Cursor.ofBytes (Utf8.encode text)).tokens := by
    decide +kernel
  exact ⟨⟨_, hf, ⟨_, ht, rfl, by decide +kernel⟩, by decide +kernel⟩, by decide, by decide⟩

end ZDecl
