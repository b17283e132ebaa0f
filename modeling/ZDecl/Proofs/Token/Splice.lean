import ZDecl.Proofs.Scan.Significant
import ZDecl.Proofs.Token.Seam
import ZDecl.Proofs.Token.Tiling

/-!
# Streams that are spliced

What stands behind a token of a stream may be replaced by something that starts on a new line, and
the tokens up to there stay. What comes behind them is tokenised as if it stood alone, but for the
place: it is moved by some bytes and some lines, and every column stays.

* `start_of_tokensFrom`: a token starts where those before it end.
* **`tokens_ofBytes_splice`**: the tokens of a stream that goes on differently.
* `Position.shift`, `Token.shift`: places and tokens that are moved.
* **`tokensFrom_shift`**: the tokens of bytes that are moved.
-/

namespace ZDecl

open Token

/-! ## Cuts between two tokens -/

/-- A token starts where those before it end. -/
theorem start_of_tokensFrom {place : Position} {bytes : Bytes} {before after : List Token}
    {t : Token} (h : tokensFrom place bytes = before ++ t :: after) :
    t.start = place.after (before.flatMap Token.bytes) := by
  induction before generalizing place bytes with
  | nil =>
      obtain ⟨b, taken, left, -, ht, -, -⟩ := exists_taken_of_tokensFrom h
      rw [ht]
      rfl
  | cons u before ih =>
      obtain ⟨b, taken, left, -, hu, -, hrest⟩ := exists_taken_of_tokensFrom h
      have hbytes : u.bytes = b :: taken := by rw [hu]
      rw [ih hrest.symm, List.flatMap_cons, hbytes, Position.after_append]

/-- A byte order mark does not reach over a cut. -/
theorem firstPosition_append {kept behind next : Bytes}
    (hkept : (firstPosition (kept ++ behind)).offset ≤ kept.length) (hnext : LineEnd next) :
    firstPosition (kept ++ next) = firstPosition (kept ++ behind) := by
  have hmark : byteOrderMark.isPrefixOf (kept ++ next) =
      byteOrderMark.isPrefixOf (kept ++ behind) := by
    rw [Bool.eq_iff_iff, List.isPrefixOf_iff_prefix, List.isPrefixOf_iff_prefix]
    constructor
    · intro hbegins
      refine List.IsPrefix.trans ?_ (List.prefix_append kept behind)
      rcases List.prefix_or_prefix_of_prefix hbegins (List.prefix_append kept next) with
        hle | ⟨more, hmore⟩
      · exact hle
      · rw [← hmore, List.prefix_append_right_inj] at hbegins
        cases more with
        | nil => simp [← hmore]
        | cons c more =>
            obtain ⟨rest, rfl⟩ := hbegins
            obtain rfl := hnext c rfl
            have hmem : Ascii.lineFeed ∈ byteOrderMark := hmore ▸ by simp
            exact absurd hmem (by decide)
    · intro hbegins
      rw [offset_firstPosition, if_pos (List.isPrefixOf_iff_prefix.mpr hbegins)] at hkept
      exact (List.prefix_of_prefix_length_le hbegins (List.prefix_append kept behind) hkept).trans
        (List.prefix_append kept next)
  unfold firstPosition
  rw [hmark]

/-- A stream that goes on differently has the same mark, and what stands behind it. -/
theorem unmarked_splice {contents front behind next : Bytes} {n : Nat}
    (h : unmarked contents = front ++ behind)
    (hn : n = (firstPosition contents).offset + front.length) (hnext : LineEnd next) :
    firstPosition (contents.take n ++ next) = firstPosition contents ∧
      unmarked (contents.take n ++ next) = front ++ next := by
  obtain ⟨mark, hmark, hlength⟩ : ∃ mark, contents = mark ++ unmarked contents ∧
      mark.length = (firstPosition contents).offset := by
    refine ⟨contents.take (firstPosition contents).offset, ?_, ?_⟩
    · rw [unmarked, List.take_append_drop]
    · rw [List.length_take, Nat.min_eq_left (offset_firstPosition_le contents)]
  rw [h, ← List.append_assoc] at hmark
  have hkept : contents.take n = mark ++ front := by
    rw [hmark, hn, ← hlength, ← List.length_append, List.take_left]
  have hfirst : firstPosition (mark ++ front ++ next) = firstPosition contents := by
    rw [hmark]
    refine firstPosition_append ?_ hnext
    rw [← hmark, ← hlength, List.length_append]
    exact Nat.le_add_right _ _
  rw [hkept, hfirst, unmarked, hfirst, ← hlength, List.append_assoc, List.drop_left]
  exact ⟨rfl, rfl⟩

/-- **The tokens of a stream that goes on differently** behind some of them, on a new line or not at
all: these stay, if they are well formed and the last one is no full stop. -/
theorem tokens_ofBytes_splice {contents next : Bytes} {tokens after : List Token} {place : Position}
    (h : (Cursor.ofBytes contents).tokens = tokens ++ after)
    (hplace : place = (firstPosition contents).after (tokens.flatMap Token.bytes))
    (hvalid : ∀ t ∈ tokens, t.valid = true) (hlast : ∀ t ∈ tokens.getLast?, t.kind ≠ .dot)
    (hnext : LineEnd next) :
    (Cursor.ofBytes (contents.take place.offset ++ next)).tokens =
      tokens ++ tokensFrom place next := by
  have htokens : tokensFrom (firstPosition contents) (unmarked contents) = tokens ++ after := h
  have hbytes : unmarked contents = tokens.flatMap Token.bytes ++ after.flatMap Token.bytes := by
    rw [← List.flatMap_append, ← htokens, flatMap_bytes_tokensFrom]
  have hoffset : place.offset =
      (firstPosition contents).offset + (tokens.flatMap Token.bytes).length := by
    rw [hplace, Position.offset_after]
  obtain ⟨hfirst, hunmarked⟩ := unmarked_splice hbytes hoffset hnext
  rw [hbytes] at htokens
  show tokensFrom (firstPosition _) (unmarked _) = _
  rw [hfirst, hunmarked, hplace]
  exact tokensFrom_append htokens hvalid hlast hnext

/-! ## Significant tokens at a cut -/

/-- Where a significant token stands in a stream. -/
theorem exists_of_unskipped_eq {tokens before after : List Token} {t : Token}
    (h : unskipped tokens = before ++ t :: after) :
    ∃ left right, tokens = left ++ t :: right ∧ unskipped left = before := by
  obtain ⟨left, more, rfl, hleft, hmore⟩ := List.filter_eq_append_iff.mp h
  obtain ⟨skipped, right, rfl, hskipped, -, -⟩ := List.filter_eq_cons_iff.mp hmore
  refine ⟨left ++ skipped, right, by rw [List.append_assoc], ?_⟩
  have hnone : unskipped skipped = [] := List.filter_eq_nil_iff.mpr hskipped
  rw [unskipped, List.filter_append]
  show unskipped left ++ unskipped skipped = before
  rw [hnone, List.append_nil]
  exact hleft

/-- The last token is no full stop if the last significant one is not. -/
theorem kind_ne_dot_of_unskipped {tokens : List Token}
    (h : ∀ t ∈ (unskipped tokens).getLast?, t.kind ≠ .dot) :
    ∀ t ∈ tokens.getLast?, t.kind ≠ .dot := by
  intro t ht hkind
  obtain ⟨before, rfl⟩ := List.getLast?_eq_some_iff.mp ht
  have hkept : t.isSkipped = false := by simp [isSkipped, isTrivia, hkind, Kind.isTrivia]
  refine h t ?_ hkind
  simp [unskipped, hkept]

/-! ## Places that are moved -/

section Shift

variable (bytes lines : Nat)

/-- The place that is so many bytes and lines further on, in the same column. -/
def Position.shift (p : Position) : Position := ⟨p.offset + bytes, p.line + lines, p.column⟩

/-- The span that starts there. -/
def Span.shift (s : Span) : Span := { s with start := s.start.shift bytes lines }

/-- The token that starts there. -/
def Token.shift (t : Token) : Token := { t with start := t.start.shift bytes lines }

/-- A byte moves a shifted position as it moves the position. -/
theorem Position.step_shift (p : Position) (b : UInt8) :
    (p.shift bytes lines).step b = (p.step b).shift bytes lines := by
  unfold step shift
  split
  · simp only [mk.injEq, and_true]
    omega
  · simp only [mk.injEq, and_true]
    omega

/-- Bytes move a shifted position as they move the position. -/
theorem Position.after_shift (p : Position) (more : Bytes) :
    (p.shift bytes lines).after more = (p.after more).shift bytes lines := by
  induction more generalizing p with
  | nil => rfl
  | cons b more ih => rw [after_cons, after_cons, step_shift, ih]

/-- **The tokens of bytes that are moved** are moved. -/
theorem tokensFrom_shift (place : Position) (contents : Bytes) :
    tokensFrom (place.shift bytes lines) contents =
      (tokensFrom place contents).map (Token.shift bytes lines) := by
  fun_induction tokensFrom place contents with
  | case1 place => rw [tokensFrom, List.map_nil]
  | case2 place b rest shape token ih =>
      rw [tokensFrom, List.map_cons, ← ih]
      show _ :: tokensFrom ((place.shift bytes lines).after token.bytes) _ = _
      rw [Position.after_shift]
      rfl

end Shift

end ZDecl
