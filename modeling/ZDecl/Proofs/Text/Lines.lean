import ZDecl.Proofs.Text.Encoding
import ZDecl.Text.Lines

/-!
# The line at an offset

A reader of bytes knows on which line it stands because it counts the line feeds that it passes. A
reader of text finds a line by cutting the text at its line feeds, and forgets the last piece if it
is empty. The line with the number that the first one counts is the line around the place where it
stands, unless that is the end of a text that ends with a line feed, where no line is left.

* `width`: how many bytes some characters take.
* `LineEnds`, `LineAt`: what ends a line, and the line of a text that holds an offset.
* `PieceAt`, `exists_pieceAt`: the same for pieces, which still have their carriage returns.
* **`lines_of_count`**: the line that is counted is the line that is found.
-/

namespace ZDecl.Text

/-! ## Bytes of characters -/

/-- The bytes of some characters. -/
def bytesOf (cs : List Char) : Bytes := cs.flatMap String.utf8EncodeChar

/-- How many bytes some characters take. -/
def width (cs : List Char) : Nat := (bytesOf cs).length

/-- The bytes of a text are those of its characters. -/
theorem encode_eq_bytesOf (text : String) : Utf8.encode text = bytesOf text.toList :=
  Utf8.encode_eq text

/-- The bytes of two texts, one behind the other. -/
theorem bytesOf_append (cs ds : List Char) : bytesOf (cs ++ ds) = bytesOf cs ++ bytesOf ds :=
  List.flatMap_append

/-- The width of two texts, one behind the other. -/
theorem width_append (cs ds : List Char) : width (cs ++ ds) = width cs + width ds := by
  rw [width, bytesOf_append, List.length_append]
  rfl

/-- A line feed is one byte. -/
theorem bytesOf_lineFeed (cs : List Char) : bytesOf ('\n' :: cs) = Ascii.lineFeed :: bytesOf cs :=
  rfl

/-- Only the line feed has its byte. -/
theorem lineFeed_not_mem_bytesOf {cs : List Char} (h : '\n' ∉ cs) :
    Ascii.lineFeed ∉ bytesOf cs := by
  intro hmem
  obtain ⟨c, hc, hbyte⟩ := List.mem_flatMap.mp hmem
  by_cases hascii : c.toNat < 0x80
  · rw [Utf8.encodeChar_of_lt hascii, List.mem_singleton] at hbyte
    have hcode : c.toNat = 10 := by
      have heq := congrArg UInt8.toNat hbyte
      rw [Utf8.toNat_ofNat_of_lt (by omega)] at heq
      exact heq.symm
    have hfeed : c = '\n' := by
      rw [← Char.ofNat_toNat c, hcode]
    exact h (hfeed ▸ hc)
  · have hle := Utf8.le_of_mem_encodeChar (Nat.le_of_not_lt hascii) _ hbyte
    exact absurd hle (by decide)

/-- Only the empty text has no width. -/
theorem eq_nil_of_width_eq_zero {cs : List Char} (h : width cs = 0) : cs = [] := by
  cases cs with
  | nil => rfl
  | cons c cs =>
      have hnone := List.eq_nil_of_length_eq_zero h
      exact absurd (List.append_eq_nil_iff.mp hnone).1 String.utf8EncodeChar_ne_nil

/-- Of two starts of a text, the one with fewer bytes is a start of the other one. -/
theorem isPrefix_of_width_le {text front front' : List Char} (h : front <+: text)
    (h' : front' <+: text) (hle : width front ≤ width front') : front <+: front' := by
  rcases List.prefix_or_prefix_of_prefix h h' with hprefix | ⟨more, rfl⟩
  · exact hprefix
  · rw [width_append] at hle
    obtain rfl : more = [] := eq_nil_of_width_eq_zero (by omega)
    simp only [List.append_nil, List.prefix_rfl]

/-- **A cut of the bytes** with no character on both sides of it is a cut of the characters. -/
theorem exists_cut {cs : List Char} {left right : Bytes} (h : bytesOf cs = left ++ right)
    (hcut : Utf8.Apart left right) :
    ∃ front more, cs = front ++ more ∧ bytesOf front = left ∧ bytesOf more = right := by
  induction cs generalizing left with
  | nil =>
      obtain ⟨rfl, rfl⟩ := List.append_eq_nil_iff.mp h.symm
      exact ⟨[], [], rfl, rfl, rfl⟩
  | cons c cs ih =>
      cases left with
      | nil => exact ⟨[], c :: cs, rfl, rfl, h⟩
      | cons b left =>
          obtain ⟨first, tail, hc, hread⟩ := Utf8.decodeFirst_encodeChar c
          have hbytes : bytesOf (c :: cs) = first :: (tail ++ bytesOf cs) := by
            rw [bytesOf, List.flatMap_cons, hc]
            rfl
          rw [hbytes, List.cons_append] at h
          obtain ⟨rfl, hrest⟩ := List.cons.inj h
          -- The cut does not change what is read first, so all bytes of it stand before the cut.
          have hle : tail.length ≤ left.length := by
            have hfirst := Utf8.decodeFirst_append hcut
            rw [← hrest, hread] at hfirst
            have hfits := Utf8.decodeFirst_le first left
            rwa [← hfirst] at hfits
          obtain ⟨left, rfl⟩ : tail <+: left :=
            List.prefix_of_prefix_length_le ⟨bytesOf cs, hrest⟩ ⟨right, rfl⟩ hle
          rw [List.append_assoc] at hrest
          have hcut' : Utf8.Apart left right := by
            have hdrop := hcut.drop (tail.length + 1)
            rwa [List.drop_succ_cons, List.drop_left] at hdrop
          obtain ⟨front, more, rfl, hfront, hmore⟩ := ih (List.append_cancel_left hrest) hcut'
          refine ⟨c :: front, more, rfl, ?_, hmore⟩
          rw [bytesOf, List.flatMap_cons, hc, ← hfront]
          rfl

/-! ## Lines and what ends them -/

/-- What may end a line before the rest of a text: a line feed, alone or behind a carriage return,
or the end of the text. -/
inductive LineEnds (line : List Char) : List Char → List Char → Prop where
  /-- A line feed. -/
  | lineFeed (h : line.getLast? ≠ some '\r') (after : List Char) : LineEnds line ['\n'] after
  /-- A carriage return and a line feed. -/
  | carriageReturn (after : List Char) : LineEnds line ['\r', '\n'] after
  /-- The end of the text, if there is something on the line. -/
  | last (h : line ≠ []) : LineEnds line [] []

/-- Is this the line of the text, with what stands before it, what ends it and what comes after it,
that holds the byte at the offset? The end of a text counts as a part of its last line, if that is
not ended before. -/
structure LineAt (text : List Char) (offset : Nat) (before line ending after : List Char) :
    Prop where
  /-- These are the parts of the text. -/
  text_eq : text = before ++ line ++ ending ++ after
  /-- It starts at the start of the text or behind a line feed. -/
  starts : before = [] ∨ before.getLast? = some '\n'
  /-- It has no line feed. -/
  plain : '\n' ∉ line
  /-- It is ended as lines are. -/
  ends : LineEnds line ending after
  /-- It does not start behind the offset. -/
  le : width before ≤ offset
  /-- It is not ended before the byte at the offset. -/
  lt : offset < width (before ++ line ++ ending) ∨ ending = [] ∧ offset = width text

/-- Does no line hold the offset, because it is the end of a text that ends with a line feed? -/
def BehindLastLine (text : List Char) (offset : Nat) : Prop :=
  offset = width text ∧ text.getLast? = some '\n'

/-- Some line holds an offset, or none does, but not both. -/
theorem LineAt.not_behindLastLine {text before line ending after : List Char} {offset : Nat}
    (h : LineAt text offset before line ending after) : ¬BehindLastLine text offset := by
  rintro ⟨hoffset, hlast⟩
  have htext := h.text_eq
  have hwidth : width text = width (before ++ line ++ ending) + width after := by
    rw [htext, width_append]
  rcases h.lt with hlt | ⟨rfl, -⟩
  · omega
  · cases h.ends with
    | last hline =>
        rw [htext, List.append_nil, List.append_nil, List.getLast?_append,
          List.getLast?_eq_some_getLast hline, Option.some_or] at hlast
        exact h.plain (Option.some.inj hlast ▸ List.getLast_mem hline)

/-- A character that is not in the second part is in the first one. -/
theorem exists_of_append_eq {line ending ahead rest : List Char} {c : Char}
    (h : line ++ ending = ahead ++ c :: rest) (hc : c ∉ ending) :
    ∃ tail, line = ahead ++ c :: tail := by
  rcases List.append_eq_append_iff.mp h with ⟨between, -, hends⟩ | ⟨tail, hline, hends⟩
  · exact absurd (hends ▸ by simp) hc
  · cases tail with
    | nil =>
        rw [List.nil_append] at hends
        exact absurd (hends ▸ List.mem_cons_self) hc
    | cons d tail =>
        obtain ⟨rfl, -⟩ := List.cons.inj hends
        exact ⟨tail, hline⟩

/-- What the line of a place has before that place, if a character stands there that ends no
line. -/
theorem LineAt.exists_ahead {text before line ending after : List Char} {offset : Nat}
    (h : LineAt text offset before line ending after) {front more : List Char} {c : Char}
    (htext : text = front ++ c :: more) (hoffset : width front = offset) (hfeed : c ≠ '\n')
    (hreturn : c ≠ '\r') : ∃ ahead rest, front = before ++ ahead ∧ line = ahead ++ c :: rest := by
  have hparts : text = before ++ (line ++ ending ++ after) := by
    rw [h.text_eq]
    simp only [List.append_assoc]
  obtain ⟨ahead, rfl⟩ : before <+: front :=
    isPrefix_of_width_le ⟨_, hparts.symm⟩ ⟨_, htext.symm⟩ (hoffset ▸ h.le)
  have hending : c ∉ ending := by
    cases h.ends <;> simp [hfeed, hreturn]
  have hlt : width ahead < width (line ++ ending) := by
    have hwidth : width text = width (before ++ ahead) + width (c :: more) := by
      rw [htext, width_append]
    have hsome : width (c :: more) ≠ 0 := fun hzero => nomatch eq_nil_of_width_eq_zero hzero
    have hends := h.lt
    simp only [width_append] at hends hoffset hwidth ⊢
    omega
  rw [htext, List.append_assoc] at hparts
  -- The place is before the end of what ends the line, and it is not among that.
  rcases List.append_eq_append_iff.mp (List.append_cancel_left hparts) with
    ⟨rest, hline, hmore⟩ | ⟨between, rfl, -⟩
  · cases rest with
    | nil =>
        rw [hline, List.append_nil] at hlt
        exact absurd hlt (Nat.lt_irrefl _)
    | cons d rest =>
        obtain ⟨rfl, -⟩ := List.cons.inj hmore
        obtain ⟨tail, hline⟩ := exists_of_append_eq hline hending
        exact ⟨ahead, tail, rfl, hline⟩
  · rw [width_append (line ++ ending)] at hlt
    omega

/-! ## Pieces -/

/-- Is this the stretch between two line feeds of a text that holds the offset? -/
structure PieceAt (text : List Char) (offset : Nat) (before piece after : List Char) : Prop where
  /-- These are the parts of the text. -/
  text_eq : text = before ++ piece ++ after
  /-- It starts at the start of the text or behind a line feed. -/
  starts : before = [] ∨ before.getLast? = some '\n'
  /-- It has no line feed. -/
  plain : '\n' ∉ piece
  /-- It does not start behind the offset. -/
  le : width before ≤ offset
  /-- It does not end before it. -/
  ge : offset ≤ width (before ++ piece)

/-- Behind a further line, the piece is the same. -/
theorem PieceAt.behind {text before piece after : List Char} {offset : Nat}
    (h : PieceAt text offset before piece after) (front : List Char) :
    PieceAt (front ++ '\n' :: text) (width front + 1 + offset) (front ++ '\n' :: before) piece
      after := by
  have hfront : width (front ++ '\n' :: before) = width front + 1 + width before := by
    rw [width_append]
    have hcons : width ('\n' :: before) = width before + 1 := rfl
    omega
  have hle := h.le
  have hge := h.ge
  rw [width_append] at hge
  refine ⟨?_, ?_, h.plain, ?_, ?_⟩
  · rw [h.text_eq]
    simp only [List.append_assoc, List.cons_append]
  · right
    rw [List.getLast?_append, List.getLast?_cons, Option.some_or]
    rcases h.starts with rfl | hstart
    · rfl
    · rw [hstart, Option.getD_some]
  · omega
  · rw [width_append]
    omega

/-- How many line feeds stand before an offset. -/
def feedsBefore (text : List Char) (offset : Nat) : Nat :=
  ((bytesOf text).take offset).count Ascii.lineFeed

/-- No line feed stands before an offset in the first line. -/
theorem feedsBefore_of_le {piece : List Char} (h : '\n' ∉ piece) (rest : List Char) {offset : Nat}
    (hle : offset ≤ width piece) : feedsBefore (piece ++ rest) offset = 0 := by
  rw [feedsBefore, bytesOf_append, List.take_append_of_le_length hle]
  exact List.count_eq_zero.mpr fun hmem => lineFeed_not_mem_bytesOf h (List.mem_of_mem_take hmem)

/-- A line feed counts once for every offset behind it. -/
theorem feedsBefore_behind {piece : List Char} (h : '\n' ∉ piece) (rest : List Char) (n : Nat) :
    feedsBefore (piece ++ '\n' :: rest) (width piece + 1 + n) = feedsBefore rest n + 1 := by
  have hnone : (bytesOf piece).count Ascii.lineFeed = 0 :=
    List.count_eq_zero.mpr (lineFeed_not_mem_bytesOf h)
  unfold feedsBefore width
  rw [bytesOf_append, bytesOf_lineFeed, Nat.add_assoc, List.take_length_add_append,
    Nat.add_comm 1, List.take_succ_cons, List.count_append, hnone, Nat.zero_add,
    List.count_cons_self]

/-- **The piece around an offset** is the one whose number is that of the line feeds before it. It
is the last one, or a line feed comes next. -/
theorem exists_pieceAt (text : List Char) {offset : Nat} (h : offset ≤ width text) :
    ∃ before piece after, PieceAt text offset before piece after ∧
      (text.splitOn '\n')[feedsBefore text offset]? = some piece ∧
        (after = [] ∧ feedsBefore text offset + 1 = (text.splitOn '\n').length ∨
          (∃ more, after = '\n' :: more) ∧
            feedsBefore text offset + 1 < (text.splitOn '\n').length) := by
  -- Line by line: behind the first line feed, a shorter text goes on.
  induction hn : text.length using Nat.strongRecOn generalizing text offset with
  | ind n ih =>
      by_cases hfeed : '\n' ∈ text
      · obtain ⟨piece, rest, rfl, hpiece⟩ := List.eq_append_cons_of_mem hfeed
        rw [List.splitOn_append_cons_self_of_not_mem hpiece]
        by_cases hle : offset ≤ width piece
        · rw [feedsBefore_of_le hpiece _ hle]
          refine ⟨[], piece, '\n' :: rest, ⟨rfl, .inl rfl, hpiece, Nat.zero_le _, hle⟩, rfl,
            .inr ⟨⟨rest, rfl⟩, ?_⟩⟩
          have hpos := List.length_pos_iff.mpr (List.splitOn_ne_nil '\n' rest)
          rw [List.length_cons]
          omega
        · obtain ⟨m, rfl⟩ : ∃ m, offset = width piece + 1 + m :=
            ⟨offset - (width piece + 1), by omega⟩
          have hrest : m ≤ width rest := by
            rw [width_append] at h
            have hcons : width ('\n' :: rest) = width rest + 1 := rfl
            omega
          have hshorter : rest.length < n := by
            rw [← hn, List.length_append, List.length_cons]
            omega
          obtain ⟨before, line, after, hat, hline, hlast⟩ := ih _ hshorter rest hrest rfl
          rw [feedsBefore_behind hpiece, List.getElem?_cons_succ, List.length_cons]
          refine ⟨piece ++ '\n' :: before, line, after, hat.behind piece, hline, ?_⟩
          rcases hlast with ⟨hafter, hlast⟩ | ⟨hafter, hmore⟩
          · exact .inl ⟨hafter, congrArg (· + 1) hlast⟩
          · exact .inr ⟨hafter, Nat.succ_lt_succ hmore⟩
      · rw [List.splitOn_eq_singleton hfeed]
        have hzero : feedsBefore text offset = 0 := by
          have hall := feedsBefore_of_le hfeed [] h
          rwa [List.append_nil] at hall
        rw [hzero]
        exact ⟨[], text, [], ⟨(List.append_nil _).symm, .inl rfl, hfeed, Nat.zero_le _, h⟩, rfl,
          .inl ⟨rfl, rfl⟩⟩

/-! ## Lines -/

/-- A piece that is not the last one is a line, without its carriage return. -/
theorem lines_of_lt {text piece : List Char} {n : Nat}
    (hpiece : (text.splitOn '\n')[n]? = some piece)
    (hlt : n + 1 < (text.splitOn '\n').length) :
    (lines text)[n]? = some (dropReturn piece) := by
  have hended : ((text.splitOn '\n').dropLast.map dropReturn)[n]? = some (dropReturn piece) := by
    rw [List.getElem?_map, List.getElem?_dropLast, if_pos (by omega), hpiece]
    rfl
  have hshort : n < ((text.splitOn '\n').dropLast.map dropReturn).length := by
    rw [List.length_map, List.length_dropLast]
    omega
  unfold lines
  dsimp only
  split
  · exact hended
  · exact hended
  · rw [List.getElem?_append_left hshort, hended]

/-- The last piece is a line as it is, if it is not empty. -/
theorem lines_of_eq {text piece : List Char} {n : Nat}
    (hpiece : (text.splitOn '\n')[n]? = some piece)
    (hlast : n + 1 = (text.splitOn '\n').length) :
    (lines text)[n]? = if piece = [] then none else some piece := by
  have hlength : ((text.splitOn '\n').dropLast.map dropReturn).length = n := by
    rw [List.length_map, List.length_dropLast]
    omega
  have hget : (text.splitOn '\n').getLast? = some piece := by
    rw [List.getLast?_eq_getElem?, ← hlast, Nat.add_sub_cancel, hpiece]
  unfold lines
  dsimp only
  rw [hget]
  cases piece with
  | nil => rw [if_pos rfl, List.getElem?_eq_none_iff, hlength]
  | cons c piece =>
      rw [if_neg (List.cons_ne_nil c piece), List.getElem?_append_right (by omega), hlength,
        Nat.sub_self]
      rfl

/-- What ends a piece before a line feed: that, or a carriage return as well. -/
theorem exists_ending (piece more : List Char) : ∃ ending,
    piece ++ '\n' :: more = dropReturn piece ++ ending ++ more ∧
      LineEnds (dropReturn piece) ending more ∧
        piece ++ ['\n'] = dropReturn piece ++ ending := by
  unfold dropReturn
  split
  · next hreturn =>
      obtain ⟨front, rfl⟩ := List.getLast?_eq_some_iff.mp hreturn
      rw [List.dropLast_concat]
      exact ⟨['\r', '\n'], by simp, .carriageReturn more, by simp⟩
  · next hreturn => exact ⟨['\n'], by simp, .lineFeed hreturn more, rfl⟩

/-- Dropping the return at the end of a line adds no character. -/
theorem not_mem_dropReturn {piece : List Char} {c : Char} (h : c ∉ piece) :
    c ∉ dropReturn piece := by
  unfold dropReturn
  split
  · exact fun hc => h (List.dropLast_subset piece hc)
  · exact h

/-- **The line that is counted is the line that is found**: the one around the offset, or none at
the end of a text that ends with a line feed. -/
theorem lines_of_count (text : List Char) (hne : text ≠ []) {offset : Nat}
    (h : offset ≤ width text) :
    (BehindLastLine text offset ∧ (lines text)[feedsBefore text offset]? = none) ∨
      ∃ before line ending after, LineAt text offset before line ending after ∧
        (lines text)[feedsBefore text offset]? = some line := by
  obtain ⟨before, piece, after, hat, hpiece, hlast⟩ := exists_pieceAt text h
  have htext := hat.text_eq
  have hge := hat.ge
  rcases hlast with ⟨rfl, hlast⟩ | ⟨⟨more, rfl⟩, hlt⟩
  · -- The last piece is a line if there is something on it.
    have hlines := lines_of_eq hpiece hlast
    rw [List.append_nil] at htext
    have hend : offset = width text ∨ offset < width text := by omega
    by_cases hempty : piece = []
    · subst hempty
      rw [List.append_nil] at htext hge
      have hle := hat.le
      rw [if_pos rfl] at hlines
      refine .inl ⟨⟨by rw [htext]; omega, ?_⟩, hlines⟩
      rw [htext]
      exact hat.starts.resolve_left fun hnone => hne (htext.trans hnone)
    · rw [if_neg hempty] at hlines
      refine .inr ⟨before, piece, [], [], ⟨by simp [htext], hat.starts, hat.plain, .last hempty,
        hat.le, ?_⟩, hlines⟩
      rw [List.append_nil, ← htext]
      exact hend.symm.imp id fun heq => ⟨rfl, heq⟩
  · have hlines := lines_of_lt hpiece hlt
    obtain ⟨ending, hparts, hends, hfeed⟩ := exists_ending piece more
    refine .inr ⟨before, dropReturn piece, ending, more, ⟨?_, hat.starts,
      not_mem_dropReturn hat.plain, hends, hat.le, .inl ?_⟩, hlines⟩
    · rw [htext, List.append_assoc, hparts]
      simp only [List.append_assoc]
    · rw [List.append_assoc, ← hfeed, ← List.append_assoc, width_append]
      have hone : width ['\n'] = 1 := rfl
      omega

end ZDecl.Text
