import ZDecl.Proofs.Token.Boundary
import ZDecl.Token.Stream

/-!
# Tokens lose nothing and invent nothing

A stream is the sequence of its tokens, and its text is the sequence of their texts. The first half
says that the tokens are cut out of the stream one behind the other. The second half says more:
every token is decoded on its own, so no cut may fall into a character, not even into one that is
ill-formed.

* `unmarked`: a stream without its byte order mark.
* `Tiles`: tokens that follow each other without a gap.
* `Cursor.Yields`: reading token after token until the stream ends.
* **`tokens_cover_stream`**: the tokens of a stream cover it, byte by byte and character by
  character.
-/

namespace ZDecl

/-! ## Streams and the mark before them -/

/-- The stream without the byte order mark that it may start with. -/
def unmarked (contents : Bytes) : Bytes := contents.drop (firstPosition contents).offset

/-- The first token stands behind the byte order mark. -/
theorem offset_firstPosition (contents : Bytes) :
    (firstPosition contents).offset = if byteOrderMark.isPrefixOf contents then 3 else 0 := by
  unfold firstPosition
  split <;> rfl

/-- The mark at the start of a file is part of it. -/
theorem offset_firstPosition_le (contents : Bytes) :
    (firstPosition contents).offset ≤ contents.length := by
  rw [offset_firstPosition]
  split
  · next h => exact (List.isPrefixOf_iff_prefix.mp h).length_le
  · exact Nat.zero_le _

/-- A stream is as long as its mark and what stands behind it. -/
theorem length_unmarked (contents : Bytes) :
    (firstPosition contents).offset + (unmarked contents).length = contents.length := by
  have h := offset_firstPosition_le contents
  rw [unmarked, List.length_drop]
  omega

/-- The mark is read as one character of its own. -/
theorem decode_eq_mark_append (contents : Bytes) :
    Utf8.decode contents =
      (if byteOrderMark.isPrefixOf contents then "\uFEFF" else "") ++
        Utf8.decode (unmarked contents) := by
  unfold unmarked
  rw [offset_firstPosition]
  split
  · next h =>
      obtain ⟨rest, rfl⟩ := List.isPrefixOf_iff_prefix.mp h
      have hmark : Utf8.decodeFirst 0xEF (0xBB :: 0xBF :: rest) = ('\uFEFF', 2) := rfl
      show String.ofList (Utf8.decodeChars (0xEF :: 0xBB :: 0xBF :: rest)) = _
      rw [Utf8.decodeChars, hmark]
      dsimp only
      rw [← List.singleton_append, String.ofList_append]
      rfl
  · rw [List.drop_zero, String.empty_append]

/-! ## Tokens one behind the other -/

/-- Do the tokens follow each other without a gap and without overlap, the first one at the offset
`start` and the last one up to `stop`? None of them is empty. -/
inductive Tiles : Nat → List Token → Nat → Prop where
  /-- No tokens. -/
  | nil (stop : Nat) : Tiles stop [] stop
  /-- A token, and the tokens that start where it ends. -/
  | cons {start stop : Nat} {t : Token} {tokens : List Token} (hstart : t.start.offset = start)
      (hlength : 1 ≤ t.span.length) (h : Tiles (start + t.span.length) tokens stop) :
      Tiles start (t :: tokens) stop

/-- Tokens that tile a stretch lie within it. -/
theorem Tiles.span_le {start stop : Nat} {tokens : List Token} (h : Tiles start tokens stop) :
    start ≤ stop ∧ ∀ t ∈ tokens, t.start.offset + t.span.length ≤ stop := by
  induction h with
  | nil stop => simp
  | cons hstart _ _ ih =>
      obtain ⟨hle, hspans⟩ := ih
      refine ⟨by omega, ?_⟩
      intro u hu
      rcases List.mem_cons.mp hu with rfl | hu
      · omega
      · exact hspans u hu

/-- Does reading token after token from the cursor until the stream ends give these tokens? -/
inductive Cursor.Yields : Cursor → List Token → Prop where
  /-- The stream ends. -/
  | done {c : Cursor} (h : c.next? = none) : Yields c []
  /-- A token is read, and then those behind it. -/
  | next {c c' : Cursor} {t : Token} {tokens : List Token} (h : c.next? = some (t, c'))
      (hrest : Yields c' tokens) : Yields c (t :: tokens)

/-- Reading token after token comes to an end, and gives the tokens that were to be read. -/
theorem Cursor.yields_iff {c : Cursor} {tokens : List Token} :
    c.Yields tokens ↔ tokens = c.tokens := by
  constructor
  · intro h
    induction h with
    | done h => exact (Cursor.next?_eq_none_iff.mp h).symm
    | next h _ ih => rw [ih, (Cursor.next?_eq_some_iff.mp h).1]
  · rintro rfl
    induction htokens : c.tokens generalizing c with
    | nil => exact .done (Cursor.next?_eq_none_iff.mpr htokens)
    | cons t rest ih =>
        have hnext : c.next? = some (t, { c with tokens := rest }) :=
          Cursor.next?_eq_some_iff.mpr ⟨htokens, rfl⟩
        exact .next hnext (ih rfl)

/-- Tokens are cut out of the stream one behind the other. -/
theorem tiles_tokensFrom (place : Position) (bytes : Bytes) :
    Tiles place.offset (tokensFrom place bytes) (place.offset + bytes.length) := by
  fun_induction tokensFrom place bytes with
  | case1 place => exact .nil _
  | case2 place b rest shape token ih =>
      have hspan : token.span.length = 1 + (rest.take shape.extra).length := by
        show (b :: rest.take shape.extra).length = _
        rw [List.length_cons]
        omega
      have hstop : token.stop.offset = place.offset + token.span.length := Position.offset_after _ _
      refine .cons rfl (by omega) ?_
      have hend : place.offset + (b :: rest).length =
          token.stop.offset + (rest.drop shape.extra).length := by
        rw [hstop, hspan, List.length_take, List.length_drop, List.length_cons]
        omega
      rw [hend, ← hstop]
      exact ih

/-- The tokens of a stream follow each other from the byte order mark to the end. -/
theorem tiles_ofBytes (contents : Bytes) :
    Tiles (firstPosition contents).offset (Cursor.ofBytes contents).tokens contents.length := by
  have h := tiles_tokensFrom (firstPosition contents) (unmarked contents)
  rw [length_unmarked] at h
  exact h

/-- A stream ends behind its last byte. -/
theorem offset_stop_ofBytes (contents : Bytes) :
    (Cursor.ofBytes contents).stop.offset = contents.length := by
  show ((firstPosition contents).after (unmarked contents)).offset = contents.length
  rw [Position.offset_after, length_unmarked]

/-- The bytes of the tokens are those of the stream. -/
theorem flatMap_bytes_tokensFrom (place : Position) (bytes : Bytes) :
    (tokensFrom place bytes).flatMap Token.bytes = bytes := by
  fun_induction tokensFrom place bytes with
  | case1 place => rfl
  | case2 place b rest shape token ih =>
      rw [List.flatMap_cons, ih]
      show b :: rest.take shape.extra ++ rest.drop shape.extra = b :: rest
      rw [List.cons_append, List.take_append_drop]

/-- The texts of the tokens make up the text of the stream, since no token ends within a
character. -/
theorem join_lexeme_tokensFrom (place : Position) (bytes : Bytes) :
    String.join ((tokensFrom place bytes).map Token.lexeme) = Utf8.decode bytes := by
  fun_induction tokensFrom place bytes with
  | case1 place => exact Utf8.decode_nil.symm
  | case2 place b rest shape token ih =>
      have hcut : Utf8.Apart (b :: rest.take shape.extra) (rest.drop shape.extra) :=
        Token.Lexeme.apart_first b rest
      have hparts : b :: rest = b :: rest.take shape.extra ++ rest.drop shape.extra := by
        rw [List.cons_append, List.take_append_drop]
      rw [List.map_cons, String.join_cons, ih, hparts, Utf8.decode_append hcut]
      rfl

/-- **Tokens lose nothing and invent nothing**, whatever the bytes of the stream. Reading to the end
gives tokens that are not empty and follow each other without a gap from the byte order mark, if
there is one, to the end. Together they have the bytes of the stream and its text, each decoded on
its own; of the whole stream, only the mark is missing. -/
theorem tokens_cover_stream (contents : Bytes) :
    ∃ tokens, (∀ more, (Cursor.ofBytes contents).Yields more ↔ more = tokens) ∧
      Tiles (if byteOrderMark.isPrefixOf contents then 3 else 0) tokens contents.length ∧
      tokens.flatMap Token.bytes = unmarked contents ∧
      String.join (tokens.map Token.lexeme) = Utf8.decode (unmarked contents) ∧
      Utf8.decode contents = (if byteOrderMark.isPrefixOf contents then "\uFEFF" else "") ++
        String.join (tokens.map Token.lexeme) := by
  have htext : String.join ((Cursor.ofBytes contents).tokens.map Token.lexeme) =
      Utf8.decode (unmarked contents) := join_lexeme_tokensFrom _ _
  refine ⟨(Cursor.ofBytes contents).tokens, fun more => Cursor.yields_iff, ?_, ?_, htext, ?_⟩
  · rw [← offset_firstPosition]
    exact tiles_ofBytes contents
  · exact flatMap_bytes_tokensFrom _ _
  · rw [htext]
    exact decode_eq_mark_append contents

end ZDecl
