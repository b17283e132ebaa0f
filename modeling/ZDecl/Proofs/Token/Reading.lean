import Mathlib.Data.List.Induction
import ZDecl.Proofs.Token.Tiling
import ZDecl.Scan

/-!
# Reading back and forth

A stream need not be read from its start to its end. Readers look ahead, go back to a token or to a
place where they stood before, and are set aside and taken up again. Whatever they do, they see the
tokens that reading straight through gives.

* `Position.Counted`: a place whose line and column are what counting from the start of the stream
  gives.
* `boundaries`: the places where tokens start, and the end of the stream.
* **`Cursor.Reaches.seek`**: going to the place of a cursor is going to that cursor.
* `Request`, `Reading`: what can be asked of the readers of a stream, and what they have answered.
* `Reading.Steady`: a reading that has not left the tokens of its stream; one request keeps it so
  (`Steady.step`), hence any number of them.
* **`reading_stays_on_tokens`**: what is known of the readers after any requests.

Lines and columns are not counted anew when a reader goes back, but taken from the place that it
goes to. So the invariant must speak of places as well as of tokens.
-/

namespace ZDecl

/-! ## Counting lines and columns -/

/-- The column counts the bytes since the last line feed, or since a place in the first column. -/
theorem Position.column_after {p : Position} (hp : p.column = 1) (bytes : Bytes) :
    (p.after bytes).column = 1 + (bytes.reverse.takeWhile (· != Ascii.lineFeed)).length := by
  -- The last byte decides, so the bytes are taken from the end.
  induction bytes using List.reverseRecOn with
  | nil => exact hp
  | append_singleton bytes b ih =>
      rw [after_append, after_cons, after_nil, List.reverse_append, List.reverse_singleton,
        List.singleton_append]
      by_cases hb : b = Ascii.lineFeed
      · rw [List.takeWhile_cons_of_neg (by simp [hb]), step, if_pos hb]
        rfl
      · rw [List.takeWhile_cons_of_pos (by simp [hb]), step, if_neg hb, List.length_cons]
        show (p.after bytes).column + 1 = _
        omega

/-- Are line and column of the place in the stream what counting gives? Lines are counted by the
line feeds before the place, columns by the bytes since the last of these or, in the first line,
since the byte order mark. -/
structure Position.Counted (contents : Bytes) (p : Position) : Prop where
  /-- The place is in the stream. -/
  offset : p.offset ≤ contents.length
  /-- The line is that of the place. -/
  line : p.line = 1 + (contents.take p.offset).count Ascii.lineFeed
  /-- The column is that of the place in its line. -/
  column : p.column = 1 + (((contents.take p.offset).drop
    (firstPosition contents).offset).reverse.takeWhile (· != Ascii.lineFeed)).length

/-- Does every number of the place fit into 32 bits? -/
structure Position.Fits (p : Position) : Prop where
  /-- The offset fits. -/
  offset : p.offset < UInt32.size
  /-- The line fits. -/
  line : p.line < UInt32.size
  /-- The column fits. -/
  column : p.column < UInt32.size

/-- The bytes up to some place behind the byte order mark. -/
theorem take_offset_add (contents : Bytes) (k : Nat) :
    contents.take ((firstPosition contents).offset + k) =
      contents.take (firstPosition contents).offset ++ (unmarked contents).take k :=
  List.take_add

/-- The byte order mark has no line feed. -/
theorem count_mark (contents : Bytes) :
    (contents.take (firstPosition contents).offset).count Ascii.lineFeed = 0 := by
  rw [offset_firstPosition]
  split
  · next h =>
      obtain ⟨rest, rfl⟩ := List.isPrefixOf_iff_prefix.mp h
      rfl
  · rw [List.take_zero, List.count_nil]

/-- Reading some bytes from the start of a stream leads to a place that counting gives. -/
theorem counted_after {contents : Bytes} {k : Nat} (hk : k ≤ (unmarked contents).length) :
    ((firstPosition contents).after ((unmarked contents).take k)).Counted contents := by
  have hfirst : (firstPosition contents).line = 1 ∧ (firstPosition contents).column = 1 := by
    unfold firstPosition
    split <;> exact ⟨rfl, rfl⟩
  have hoffset : ((firstPosition contents).after ((unmarked contents).take k)).offset =
      (firstPosition contents).offset + k := by
    rw [Position.offset_after, List.length_take, Nat.min_eq_left hk]
  have hlength := length_unmarked contents
  refine ⟨by omega, ?_, ?_⟩
  · rw [hoffset, take_offset_add, List.count_append, count_mark, Position.line_after, hfirst.1,
      Nat.zero_add]
  · rw [hoffset, take_offset_add, Position.column_after hfirst.2]
    have hmark : (contents.take (firstPosition contents).offset).length =
        (firstPosition contents).offset := by
      rw [List.length_take]
      omega
    rw [List.drop_left' hmark]

/-- A place that counting gives fits into 32 bits if the length of the stream leaves room for the
line and the column after its last byte. -/
theorem Position.Counted.fits {contents : Bytes} {p : Position} (h : p.Counted contents)
    (hlength : contents.length < UInt32.size - 1) : p.Fits := by
  have hoffset := h.offset
  have hline : (contents.take p.offset).count Ascii.lineFeed ≤ contents.length :=
    (List.count_le_length).trans (List.length_take_le' _ _)
  have hcolumn : (((contents.take p.offset).drop
      (firstPosition contents).offset).reverse.takeWhile (· != Ascii.lineFeed)).length ≤
        contents.length := by
    refine (List.takeWhile_sublist _).length_le.trans ?_
    rw [List.length_reverse, List.length_drop]
    exact (Nat.sub_le _ _).trans (List.length_take_le' _ _)
  refine ⟨by omega, ?_, ?_⟩
  · rw [h.line]
    omega
  · rw [h.column]
    omega

/-! ## Cursors of a stream -/

/-- The places between the tokens of a stream: where each of them starts, and where the stream
ends. -/
def boundaries (contents : Bytes) : List Position :=
  (Cursor.ofBytes contents).tokens.map Token.start ++ [(Cursor.ofBytes contents).stop]

/-- The tokens behind some of the tokens are those of the bytes behind some of the bytes. -/
theorem exists_bytes_of_suffix {place : Position} {bytes : Bytes} {rest : List Token}
    (h : rest <:+ tokensFrom place bytes) :
    ∃ before behind, bytes = before ++ behind ∧
      rest = tokensFrom (place.after before) behind := by
  fun_induction tokensFrom place bytes with
  | case1 place =>
      refine ⟨[], [], rfl, ?_⟩
      rw [List.suffix_nil.mp h, tokensFrom]
  | case2 place b more shape token ih =>
      rcases List.suffix_cons_iff.mp h with rfl | h
      · refine ⟨[], b :: more, rfl, ?_⟩
        rw [Position.after_nil]
        conv_rhs => rw [tokensFrom]
      · obtain ⟨before, behind, hbytes, hrest⟩ := ih h
        refine ⟨token.bytes ++ before, behind, ?_, ?_⟩
        · rw [List.append_assoc, ← hbytes]
          show b :: more = b :: more.take shape.extra ++ more.drop shape.extra
          rw [List.cons_append, List.take_append_drop]
        · rw [hrest, Position.after_append]
          rfl

/-- No tokens are left only where no bytes are. -/
theorem tokensFrom_eq_nil_iff {place : Position} {bytes : Bytes} :
    tokensFrom place bytes = [] ↔ bytes = [] := by
  cases bytes with
  | nil => simp [tokensFrom]
  | cons b rest => simp [tokensFrom]

/-- The first token starts at the place where its bytes start. -/
theorem start_of_tokensFrom_eq_cons {place : Position} {bytes : Bytes} {t : Token}
    {rest : List Token} (h : tokensFrom place bytes = t :: rest) : t.start = place := by
  cases bytes with
  | nil =>
      rw [tokensFrom] at h
      cases h
  | cons b bytes =>
      rw [tokensFrom] at h
      obtain ⟨rfl, -⟩ := List.cons.inj h
      rfl

namespace Cursor

/-- A cursor of a stream stands behind some of the bytes, and what is to be read from it are the
tokens of the other bytes. -/
theorem Reaches.exists_bytes {contents : Bytes} {c : Cursor} (h : (ofBytes contents).Reaches c) :
    ∃ before behind, unmarked contents = before ++ behind ∧
      c.position = (firstPosition contents).after before ∧
      c.tokens = tokensFrom c.position behind := by
  obtain ⟨before, behind, hbytes, htokens⟩ := exists_bytes_of_suffix h.tokens
  have hposition : c.position = (firstPosition contents).after before := by
    unfold position
    split
    · next t rest hc => exact start_of_tokensFrom_eq_cons (htokens.symm.trans hc)
    · next hc =>
        have hbehind : behind = [] := tokensFrom_eq_nil_iff.mp (htokens.symm.trans hc)
        have hbefore : contents.drop (firstPosition contents).offset = before := by
          rw [hbehind, List.append_nil] at hbytes
          exact hbytes
        rw [h.stop, ofBytes, atPosition, hbefore]
  exact ⟨before, behind, hbytes, hposition, hposition ▸ htokens⟩

/-- What is to be read from a cursor of a stream are the tokens of the bytes from its place on, and
the stream ends where these bytes do. -/
theorem Reaches.tokens_and_stop {contents : Bytes} {c : Cursor} (h : (ofBytes contents).Reaches c) :
    c.tokens = tokensFrom c.position (contents.drop c.position.offset) ∧
      c.stop = c.position.after (contents.drop c.position.offset) := by
  obtain ⟨before, behind, hbytes, hposition, htokens⟩ := h.exists_bytes
  have hbehind : contents.drop c.position.offset = behind := by
    rw [hposition, Position.offset_after, ← List.drop_drop]
    show (unmarked contents).drop before.length = behind
    rw [hbytes, List.drop_left]
  refine ⟨hbehind ▸ htokens, ?_⟩
  rw [hbehind, hposition, ← Position.after_append, ← hbytes, h.stop]
  rfl

/-- **Going to the place of a cursor** is going to that cursor, wherever in the stream one is: line
and column need not be counted anew. -/
theorem Reaches.seek {contents : Bytes} {c c' : Cursor} (h : (ofBytes contents).Reaches c)
    (h' : (ofBytes contents).Reaches c') : c.seek c'.position = c' := by
  obtain ⟨htokens, hstop⟩ := h'.tokens_and_stop
  unfold Cursor.seek atPosition
  rw [h.contents]
  show Cursor.mk contents (tokensFrom _ (contents.drop _)) (Position.after _ (contents.drop _)) = c'
  rw [← htokens, ← hstop]
  have hcontents : c'.contents = contents := h'.contents
  rw [← hcontents]

/-- Where a cursor of a stream stands, line and column are what counting gives. -/
theorem Reaches.counted {contents : Bytes} {c : Cursor} (h : (ofBytes contents).Reaches c) :
    c.position.Counted contents := by
  obtain ⟨before, behind, hbytes, hposition, -⟩ := h.exists_bytes
  have hbefore : before = (unmarked contents).take before.length := by
    rw [hbytes, List.take_left]
  rw [hposition, hbefore]
  apply counted_after
  rw [hbytes, List.length_append]
  omega

/-- A cursor of a stream stands where a token starts or where the stream ends. -/
theorem Reaches.position_mem {contents : Bytes} {c : Cursor} (h : (ofBytes contents).Reaches c) :
    c.position ∈ boundaries contents := by
  unfold boundaries position
  split
  · next t rest hc =>
      have ht : t ∈ (ofBytes contents).tokens := h.tokens.subset (by simp [hc])
      exact List.mem_append_left _ (List.mem_map_of_mem ht)
  · rw [h.stop]
    exact List.mem_append_right _ List.mem_cons_self

/-- At every token of a stream stands a cursor. -/
theorem exists_reaches_of_mem {contents : Bytes} {t : Token} (h : t ∈ (ofBytes contents).tokens) :
    ∃ c, (ofBytes contents).Reaches c ∧ c.position = t.start ∧ c.peek? = some t := by
  obtain ⟨before, behind, htokens⟩ := List.append_of_mem h
  refine ⟨{ ofBytes contents with tokens := t :: behind }, ⟨rfl, rfl, ?_⟩, rfl, rfl⟩
  rw [htokens]
  exact List.suffix_append _ _

/-- At every place between the tokens of a stream stands a cursor. -/
theorem exists_reaches_of_mem_boundaries {contents : Bytes} {p : Position}
    (h : p ∈ boundaries contents) : ∃ c, (ofBytes contents).Reaches c ∧ c.position = p := by
  rcases List.mem_append.mp h with h | h
  · obtain ⟨t, ht, rfl⟩ := List.mem_map.mp h
    obtain ⟨c, hc, hposition, -⟩ := exists_reaches_of_mem ht
    exact ⟨c, hc, hposition⟩
  · refine ⟨{ ofBytes contents with tokens := [] }, ⟨rfl, rfl, List.nil_suffix⟩, ?_⟩
    exact (List.mem_singleton.mp h).symm

/-- What comes next at a cursor of a stream is a token of the stream. -/
theorem Reaches.mem_of_peek? {contents : Bytes} {c : Cursor} {t : Token}
    (h : (ofBytes contents).Reaches c) (ht : c.peek? = some t) : t ∈ (ofBytes contents).tokens :=
  h.tokens.subset (List.mem_of_mem_head? ht)

end Cursor

/-- Every place between the tokens of a stream is one that counting gives. -/
theorem counted_of_mem_boundaries {contents : Bytes} {p : Position} (h : p ∈ boundaries contents) :
    p.Counted contents := by
  obtain ⟨c, hc, rfl⟩ := Cursor.exists_reaches_of_mem_boundaries h
  exact hc.counted

/-! ## Requests -/

/-- What can be asked of the readers of a stream. What was given or set aside before is named by its
number. -/
inductive Request where
  /-- The next token. -/
  | next
  /-- A look at the next token. -/
  | peek
  /-- The next significant token. -/
  | significant
  /-- To pass over white space and comments. -/
  | skip
  /-- The kind of the token at a place that was reported. -/
  | kindAt (i : Nat)
  /-- To go to a place that was reported. -/
  | seek (i : Nat)
  /-- To go back to the start of a token that was given. -/
  | rewind (i : Nat)
  /-- To set a copy of the reader aside. -/
  | fork
  /-- To take up a reader that was set aside, and to set the present one aside in its place. -/
  | swap (i : Nat)
  deriving DecidableEq, Repr

/-- Does the request only look at something? -/
def Request.Looks : Request → Prop
  | peek | kindAt _ => True
  | _ => False

/-- The readers of a stream and what they have answered. -/
structure Reading where
  /-- The present reader. -/
  cursor : Cursor
  /-- The readers that are set aside. -/
  aside : List Cursor := []
  /-- The tokens that were given, in order. -/
  given : List Token := []
  /-- The kinds that were told, each with the place that was asked about. -/
  kinds : List (Position × Option Token.Kind) := []
  /-- The places that were reported, in order. -/
  places : List Position := []
  deriving DecidableEq, Repr

namespace Reading

/-- One reader at the start of a stream, which has reported its place. -/
def start (contents : Bytes) : Reading where
  cursor := Cursor.ofBytes contents
  places := [(Cursor.ofBytes contents).position]

/-- The reader goes elsewhere. -/
def moveTo (r : Reading) (c : Cursor) : Reading := { r with cursor := c }

/-- A token is given, if there is one. -/
def give (r : Reading) (t : Option Token) : Reading := { r with given := r.given ++ t.toList }

/-- The reader tells the kind of the token at a place. -/
def tell (r : Reading) (place : Position) : Reading :=
  { r with kinds := r.kinds ++ [(place, r.cursor.kindAt? place)] }

/-- What is done on a request. Nothing is done if it names something that there is not. -/
def perform (r : Reading) : Request → Reading
  | .next =>
    match r.cursor.next? with
    | some (t, c) => (r.give (some t)).moveTo c
    | none => r
  | .peek => r.give r.cursor.peek?
  | .significant => (r.give r.cursor.significant.1).moveTo r.cursor.significant.2
  | .skip => r.moveTo r.cursor.skip
  | .kindAt i => (r.places[i]?.map r.tell).getD r
  | .seek i => (r.places[i]?.map fun place => r.moveTo (r.cursor.seek place)).getD r
  | .rewind i => (r.given[i]?.map fun t => r.moveTo (r.cursor.seek t.start)).getD r
  | .fork => { r with aside := r.aside ++ [r.cursor] }
  | .swap i =>
    (r.aside[i]?.map fun c => { r.moveTo c with aside := r.aside.set i r.cursor }).getD r

/-- The reader reports where it stands. -/
def report (r : Reading) : Reading := { r with places := r.places ++ [r.cursor.position] }

/-- A request, and the report after it. -/
def step (r : Reading) (q : Request) : Reading := (r.perform q).report

/-- Requests one after the other. -/
def run (r : Reading) (requests : List Request) : Reading := requests.foldl step r

end Reading

/-! ## Readers do not leave the tokens -/

/-- Is `kind` the kind of the token of the stream that starts at `place`, or nothing at the end of
the stream? -/
def KindAt (contents : Bytes) (place : Position) (kind : Option Token.Kind) : Prop :=
  (∃ t ∈ (Cursor.ofBytes contents).tokens, t.start = place ∧ kind = some t.kind) ∨
    (place = (Cursor.ofBytes contents).stop ∧ kind = none)

namespace Reading

variable {contents : Bytes} {r : Reading}

/-- A reading that has not left the tokens of its stream: every reader is a cursor of the stream,
and what was answered is true of the stream. -/
structure Steady (contents : Bytes) (r : Reading) : Prop where
  /-- The present reader. -/
  cursor : (Cursor.ofBytes contents).Reaches r.cursor
  /-- The readers that are set aside. -/
  aside : ∀ c ∈ r.aside, (Cursor.ofBytes contents).Reaches c
  /-- The tokens that were given. -/
  given : ∀ t ∈ r.given, t ∈ (Cursor.ofBytes contents).tokens
  /-- The kinds that were told. -/
  kinds : ∀ answer ∈ r.kinds, KindAt contents answer.1 answer.2
  /-- The places that were reported. -/
  places : ∀ p ∈ r.places, p ∈ boundaries contents

/-- A reading starts on the tokens of its stream. -/
theorem steady_start (contents : Bytes) : (start contents).Steady contents where
  cursor := .refl _
  aside := by simp [start]
  given := by simp [start]
  kinds := by simp [start]
  places := by
    intro p hp
    obtain rfl := List.mem_singleton.mp hp
    exact (Cursor.Reaches.refl _).position_mem

/-- A reading that moves to a cursor of its stream stays on its tokens. -/
theorem Steady.moveTo (h : r.Steady contents) {c : Cursor}
    (hc : (Cursor.ofBytes contents).Reaches c) : (r.moveTo c).Steady contents :=
  ⟨hc, h.aside, h.given, h.kinds, h.places⟩

/-- A reading that gives a token of its stream stays on its tokens. -/
theorem Steady.give (h : r.Steady contents) {t : Option Token}
    (ht : ∀ u ∈ t, u ∈ (Cursor.ofBytes contents).tokens) : (r.give t).Steady contents := by
  refine ⟨h.cursor, h.aside, ?_, h.kinds, h.places⟩
  intro u hu
  rcases List.mem_append.mp hu with hu | hu
  · exact h.given u hu
  · exact ht u (Option.mem_toList.mp hu)

/-- The kind that a reader tells of a place is that of the token there. -/
theorem Steady.tell (h : r.Steady contents) {place : Position}
    (hplace : place ∈ boundaries contents) :
    (r.tell place).Steady contents := by
  refine ⟨h.cursor, h.aside, h.given, ?_, h.places⟩
  intro answer hanswer
  rcases List.mem_append.mp hanswer with hanswer | hanswer
  · exact h.kinds answer hanswer
  · obtain rfl := List.mem_singleton.mp hanswer
    obtain ⟨c, hc, rfl⟩ := Cursor.exists_reaches_of_mem_boundaries hplace
    show KindAt contents c.position ((r.cursor.seek c.position).peek?.map Token.kind)
    rw [h.cursor.seek hc]
    cases htokens : c.tokens with
    | nil =>
        right
        refine ⟨?_, ?_⟩
        · unfold Cursor.position
          rw [htokens]
          exact hc.stop
        · unfold Cursor.peek?
          rw [htokens]
          rfl
    | cons t rest =>
        have hpeek : c.peek? = some t := by
          unfold Cursor.peek?
          rw [htokens]
          rfl
        left
        refine ⟨t, hc.mem_of_peek? hpeek, ?_, by rw [hpeek]; rfl⟩
        unfold Cursor.position
        rw [htokens]

/-- The readers after a swap are the readers before it. -/
theorem Steady.swap (h : r.Steady contents) {i : Nat} {c : Cursor} (hc : r.aside[i]? = some c) :
    Steady contents { r.moveTo c with aside := r.aside.set i r.cursor } := by
  refine ⟨h.aside c (List.mem_of_getElem? hc), ?_, h.given, h.kinds, h.places⟩
  intro c' hc'
  rcases List.mem_or_eq_of_mem_set hc' with hc' | rfl
  · exact h.aside c' hc'
  · exact h.cursor

/-- What a request does that names something, if it does it well for what there is. -/
theorem Steady.getD_map {α : Type} (h : r.Steady contents) {a? : Option α} {f : α → Reading}
    (hf : ∀ a, a? = some a → (f a).Steady contents) : ((a?.map f).getD r).Steady contents := by
  cases a? with
  | none => exact h
  | some a => exact hf a rfl

/-- A reading stays on its tokens when one request is performed. -/
theorem Steady.perform (h : r.Steady contents) (q : Request) : (r.perform q).Steady contents := by
  cases q with
  | next =>
      unfold Reading.perform
      dsimp only
      split
      · next t c hnext =>
          have htokens := (Cursor.next?_eq_some_iff.mp hnext).1
          refine (h.give ?_).moveTo (h.cursor.trans (Cursor.reaches_of_next? hnext))
          intro u hu
          obtain rfl := Option.some.inj hu
          exact h.cursor.tokens.subset (by rw [htokens]; exact List.mem_cons_self)
      · exact h
  | peek => exact h.give fun u hu => h.cursor.mem_of_peek? hu
  | significant =>
      refine (h.give ?_).moveTo (h.cursor.trans r.cursor.reaches_significant)
      intro u hu
      obtain ⟨skipped, htokens⟩ := Cursor.tokens_of_significant (Prod.ext hu rfl)
      exact h.cursor.tokens.subset (by rw [htokens]; simp)
  | skip => exact h.moveTo (h.cursor.trans r.cursor.reaches_skip)
  | kindAt i =>
      refine h.getD_map fun place hplace => h.tell ?_
      exact h.places _ (List.mem_of_getElem? hplace)
  | seek i =>
      refine h.getD_map fun place hplace => h.moveTo ?_
      obtain ⟨c, hc, rfl⟩ :=
        Cursor.exists_reaches_of_mem_boundaries (h.places _ (List.mem_of_getElem? hplace))
      rw [h.cursor.seek hc]
      exact hc
  | rewind i =>
      refine h.getD_map fun t ht => h.moveTo ?_
      obtain ⟨c, hc, hposition, -⟩ :=
        Cursor.exists_reaches_of_mem (h.given _ (List.mem_of_getElem? ht))
      rw [← hposition, h.cursor.seek hc]
      exact hc
  | fork =>
      refine ⟨h.cursor, ?_, h.given, h.kinds, h.places⟩
      intro c hc
      rcases List.mem_append.mp hc with hc | hc
      · exact h.aside c hc
      · obtain rfl := List.mem_singleton.mp hc
        exact h.cursor
  | swap i => exact h.getD_map fun c hc => h.swap hc

/-- A reading stays on its tokens with every request. -/
theorem Steady.step (h : r.Steady contents) (q : Request) : (r.step q).Steady contents := by
  have hperform := h.perform q
  refine ⟨hperform.cursor, hperform.aside, hperform.given, hperform.kinds, ?_⟩
  intro p hp
  rcases List.mem_append.mp hp with hp | hp
  · exact hperform.places p hp
  · obtain rfl := List.mem_singleton.mp hp
    exact hperform.cursor.position_mem

/-- A reading stays on its tokens, whatever is asked. -/
theorem Steady.run (h : r.Steady contents) (requests : List Request) :
    (r.run requests).Steady contents := by
  induction requests generalizing r with
  | nil => exact h
  | cons q requests ih => exact ih (h.step q)

/-- A request that only looks at something leaves the reader where it stands. -/
theorem cursor_step_of_looks {q : Request} (hq : q.Looks) : (r.step q).cursor = r.cursor := by
  cases q with
  | peek => rfl
  | kindAt i =>
      show ((r.places[i]?.map r.tell).getD r).cursor = r.cursor
      cases r.places[i]? with
      | none => rfl
      | some place => rfl
  | _ => exact hq.elim

/-- **Whatever is asked of the readers of a stream, they stay on its tokens.** The present reader
has before it what reading straight through gives from its place on, and that place is one between
two tokens. What is given is a token of the stream. A look leaves the reader where it stands. Line
and column of every place and token are what counting gives, and no number on the way takes more
than 32 bits. -/
structure Canonical (contents : Bytes) (r : Reading) : Prop where
  /-- The present reader has before it the last tokens of the stream, from its place on. -/
  tokens : r.cursor.tokens <:+ (Cursor.ofBytes contents).tokens
  /-- Its place determines it. -/
  cursor : r.cursor = (Cursor.ofBytes contents).seek r.cursor.position
  /-- It stands between two tokens. -/
  position : r.cursor.position ∈ boundaries contents
  /-- The tokens that were given are tokens of the stream, at the right place. -/
  given : ∀ t ∈ r.given, t ∈ (Cursor.ofBytes contents).tokens ∧ t.start.Counted contents ∧
    t.start.Fits ∧ t.start.offset + t.span.length < UInt32.size
  /-- The kinds that were told are those of the tokens of the stream. -/
  kinds : ∀ answer ∈ r.kinds, KindAt contents answer.1 answer.2
  /-- A look moves no reader. -/
  looks : ∀ q : Request, q.Looks → (r.step q).cursor = r.cursor
  /-- The places that were reported are places between two tokens. -/
  places : ∀ p ∈ r.places, p ∈ boundaries contents ∧ p.Counted contents ∧ p.Fits
  /-- No place fails to fit, not even one within a token. -/
  fits : ∀ k, ((firstPosition contents).after ((unmarked contents).take k)).Fits

end Reading

/-- **Reading stays on the tokens of the stream**, whatever is asked, if the stream leaves room for
the numbers of its places. -/
theorem reading_stays_on_tokens (contents : Bytes) (hlength : contents.length < UInt32.size - 1)
    (requests : List Request) : ((Reading.start contents).run requests).Canonical contents := by
  have hsteady := (Reading.steady_start contents).run requests
  refine ⟨hsteady.cursor.tokens, ?_, hsteady.cursor.position_mem, ?_, hsteady.kinds,
    fun q hq => Reading.cursor_step_of_looks hq, ?_, ?_⟩
  · exact ((Cursor.Reaches.refl _).seek hsteady.cursor).symm
  · intro t ht
    have hmem := hsteady.given t ht
    obtain ⟨c, hc, hposition, -⟩ := Cursor.exists_reaches_of_mem hmem
    have hcounted : t.start.Counted contents := hposition ▸ hc.counted
    have hspan := (tiles_ofBytes contents).span_le.2 t hmem
    exact ⟨hmem, hcounted, hcounted.fits hlength, by omega⟩
  · intro p hp
    have hmem := hsteady.places p hp
    have hcounted := counted_of_mem_boundaries hmem
    exact ⟨hmem, hcounted, hcounted.fits hlength⟩
  · intro k
    have hcounted := counted_after (Nat.min_le_left (unmarked contents).length k)
    rw [List.take_eq_take_min, Nat.min_comm]
    exact hcounted.fits hlength

/-- A reader that goes back over a comment of two lines, and a copy of it that does not. -/
theorem reading_back_over_comment :
    let contents := "\uFEFFconst /* a\n*/ B".toUTF8.toList
    let requests : List Request := [.significant, .peek, .fork, .significant, .rewind 1, .kindAt 2,
      .significant, .skip, .swap 0, .seek 4]
    contents.length < UInt32.size - 1 ∧
      ((Reading.start contents).run requests).cursor.position = ⟨18, 2, 5⟩ ∧
        ((Reading.start contents).run requests).Canonical contents := by
  intro contents requests
  have hlength : contents.length < UInt32.size - 1 := by decide +kernel
  have hposition : ((Reading.start contents).run requests).cursor.position = ⟨18, 2, 5⟩ := by
    decide +kernel
  exact ⟨hlength, hposition, reading_stays_on_tokens contents hlength requests⟩

end ZDecl
