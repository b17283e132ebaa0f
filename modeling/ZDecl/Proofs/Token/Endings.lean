import Mathlib.Order.Bounds.Basic
import Mathlib.Order.Nat
import ZDecl.Proofs.Token.Literal
import ZDecl.Proofs.Token.Reading

/-!
# Where literals and comments end

The scanner of a literal passes over a backslash together with the byte behind it. Seen from
outside, a byte is protected if the run of backslashes right before it has an odd length, and a
literal ends at the first quote that is not protected. Comments know no protection: a block comment
ends at the first star and slash behind its opening, a line comment before the first line feed.

* `backslashesBefore`, `StandsFree`: the run before a byte, and a byte that is not protected.
  `standsFree_append_iff`: behind a stretch that protects nothing, the count starts anew.
* `EndsLiteral`, `LiteralEnds`: what ends a literal, and how it ends. `quotedTail_ends`: it ends so.
* `CommentEnds`, `commentTail_ends`: the same for block comments.
* `Token.EndsRight`: what is said of a string or a comment by the bytes from its start on.
* **`literals_and_comments_end`**: every token of a stream ends right.
* `NameEnds`: what is said of a name. It may go over the end of a line, by a backslash in front of
  the line feed; `NameEnds.onLine` says that there is no other way.
* **`names_end`**: every name of a stream ends so.
-/

namespace ZDecl

namespace Token

/-! ## Bytes that no backslash protects -/

/-- How many backslashes stand right before the index. -/
def backslashesBefore (bytes : Bytes) (i : Nat) : Nat :=
  ((bytes.take i).reverse.takeWhile (· == Ascii.backslash)).length

/-- Does the byte stand at the index, and does no backslash protect it? -/
structure StandsFree (b : UInt8) (bytes : Bytes) (i : Nat) : Prop where
  /-- It stands there. -/
  there : bytes[i]? = some b
  /-- The backslashes right before it protect each other. -/
  even : backslashesBefore bytes i % 2 = 0

section Front

variable {b : UInt8} {front rest : Bytes} {i : Nat}

/-- **Behind a stretch that protects nothing**, what is protected is decided by the bytes behind it
alone. -/
theorem backslashesBefore_append (hfront : backslashesBefore front front.length % 2 = 0) (i : Nat) :
    backslashesBefore (front ++ rest) (front.length + i) % 2 = backslashesBefore rest i % 2 := by
  unfold backslashesBefore at hfront ⊢
  rw [List.take_length] at hfront
  rw [List.take_length_add_append, List.reverse_append, List.takeWhile_append]
  split
  · next hall =>
      rw [List.length_append, hall]
      omega
  · rfl

/-- Backslashes in pairs protect nothing of what comes behind them. -/
theorem standsFree_append_iff (hfront : backslashesBefore front front.length % 2 = 0) :
    StandsFree b (front ++ rest) (front.length + i) ↔ StandsFree b rest i := by
  have hthere : (front ++ rest)[front.length + i]? = rest[i]? := by
    rw [List.getElem?_append_right (Nat.le_add_right _ _), Nat.add_sub_cancel_left]
  constructor
  · intro h
    exact ⟨hthere.symm.trans h.there, (backslashesBefore_append hfront i).symm.trans h.even⟩
  · intro h
    exact ⟨hthere.trans h.there, (backslashesBefore_append hfront i).trans h.even⟩

/-- What stands in front is not touched by what follows. -/
theorem standsFree_append_iff_of_lt (hi : i < front.length) :
    StandsFree b (front ++ rest) i ↔ StandsFree b front i := by
  have hthere : (front ++ rest)[i]? = front[i]? := List.getElem?_append_left hi
  have hbefore : backslashesBefore (front ++ rest) i = backslashesBefore front i := by
    unfold backslashesBefore
    rw [List.take_append_of_le_length (Nat.le_of_lt hi)]
  constructor
  · intro h
    exact ⟨hthere.symm.trans h.there, hbefore ▸ h.even⟩
  · intro h
    exact ⟨hthere.trans h.there, hbefore ▸ h.even⟩

end Front

/-! ## Literals -/

/-- Does the byte at the index end a literal? -/
def EndsLiteral (close : UInt8) (oneLine : Bool) (bytes : Bytes) (i : Nat) : Prop :=
  StandsFree close bytes i ∨ oneLine = true ∧ StandsFree Ascii.lineFeed bytes i

/-- How a literal ends: is it closed, and how many bytes does it take behind its opening quote? -/
inductive LiteralEnds (close : UInt8) (oneLine : Bool) (bytes : Bytes) : Bool × Nat → Prop where
  /-- A quote comes first. -/
  | closed {i : Nat} (h : IsLeast {i | EndsLiteral close oneLine bytes i} i)
      (hquote : bytes[i]? = some close) : LiteralEnds close oneLine bytes (true, i + 1)
  /-- Something else comes first, the end of the line. -/
  | cut {i : Nat} (h : IsLeast {i | EndsLiteral close oneLine bytes i} i)
      (hquote : bytes[i]? ≠ some close) : LiteralEnds close oneLine bytes (false, i)
  /-- Nothing ends the literal. -/
  | runsOut (h : ∀ i, ¬EndsLiteral close oneLine bytes i) :
      LiteralEnds close oneLine bytes (false, bytes.length)

/-- Is the stretch passed over in a literal? It neither ends the literal nor protects what
follows. -/
structure Passes (close : UInt8) (oneLine : Bool) (front : Bytes) : Prop where
  /-- Nothing in it ends the literal. -/
  inside : ∀ i < front.length, ¬EndsLiteral close oneLine front i
  /-- It does not protect the byte behind it. -/
  even : backslashesBefore front front.length % 2 = 0

section Literals

variable {close : UInt8} {oneLine : Bool} {front rest : Bytes}

/-- A byte that has no meaning in a literal is passed over. -/
theorem passes_plain {b : UInt8} (hbackslash : b ≠ Ascii.backslash) (hclose : b ≠ close)
    (hline : ¬(oneLine = true ∧ b = Ascii.lineFeed)) : Passes close oneLine [b] where
  inside := by
    intro i hi
    obtain rfl : i = 0 := Nat.lt_one_iff.mp hi
    rintro (⟨hthere, -⟩ | ⟨hone, hthere, -⟩)
    · exact hclose (Option.some.inj hthere)
    · exact hline ⟨hone, Option.some.inj hthere⟩
  even := by simp [backslashesBefore, hbackslash]

/-- So is a backslash with any byte behind it. -/
theorem passes_escaped (hclose : close ≠ Ascii.backslash) (c : UInt8) :
    Passes close oneLine [Ascii.backslash, c] where
  inside := by
    have hno : ∀ b, b ≠ Ascii.backslash → ∀ i < 2, ¬StandsFree b [Ascii.backslash, c] i := by
      rintro b hb i hi ⟨hthere, heven⟩
      match i, hi with
      | 0, _ => exact hb (Option.some.inj hthere).symm
      | 1, _ => exact absurd heven (by simp [backslashesBefore])
    rintro i hi (h | ⟨-, h⟩)
    · exact hno close hclose i hi h
    · exact hno Ascii.lineFeed (by decide) i hi h
  even := by
    by_cases hc : c = Ascii.backslash <;> simp [backslashesBefore, hc]

/-- **Behind what is passed over**, a literal ends where it ends if it starts there. -/
theorem Passes.endsLiteral_iff (hfront : Passes close oneLine front) {j : Nat} :
    EndsLiteral close oneLine (front ++ rest) j ↔
      ∃ i, j = front.length + i ∧ EndsLiteral close oneLine rest i := by
  constructor
  · intro h
    by_cases hj : j < front.length
    · unfold EndsLiteral at h
      rw [standsFree_append_iff_of_lt hj, standsFree_append_iff_of_lt hj] at h
      exact absurd h (hfront.inside j hj)
    · obtain ⟨i, rfl⟩ := Nat.exists_eq_add_of_le (Nat.le_of_not_lt hj)
      unfold EndsLiteral at h
      rw [standsFree_append_iff hfront.even, standsFree_append_iff hfront.even] at h
      exact ⟨i, rfl, h⟩
  · rintro ⟨i, rfl, h⟩
    unfold EndsLiteral
    rwa [standsFree_append_iff hfront.even, standsFree_append_iff hfront.even]

/-- The first end behind what is passed over. -/
theorem Passes.isLeast (hfront : Passes close oneLine front) {i : Nat}
    (h : IsLeast {i | EndsLiteral close oneLine rest i} i) :
    IsLeast {i | EndsLiteral close oneLine (front ++ rest) i} (front.length + i) := by
  refine ⟨hfront.endsLiteral_iff.mpr ⟨i, rfl, h.1⟩, fun j hj => ?_⟩
  obtain ⟨k, rfl, hk⟩ := hfront.endsLiteral_iff.mp hj
  exact Nat.add_le_add_left (h.2 hk) _

/-- A literal ends behind a stretch that is passed over where the rest does. -/
theorem LiteralEnds.behind (hfront : Passes close oneLine front) {result : Bool × Nat}
    (h : LiteralEnds close oneLine rest result) :
    LiteralEnds close oneLine (front ++ rest) (result.1, result.2 + front.length) := by
  have hthere : ∀ i, (front ++ rest)[front.length + i]? = rest[i]? := by
    intro i
    rw [List.getElem?_append_right (Nat.le_add_right _ _), Nat.add_sub_cancel_left]
  cases h with
  | @closed i h hquote =>
      have hends := LiteralEnds.closed (hfront.isLeast h) ((hthere i).trans hquote)
      rwa [Nat.add_assoc, Nat.add_comm] at hends
  | @cut i h hquote =>
      have hends := LiteralEnds.cut (hfront.isLeast h) (hthere i ▸ hquote)
      rwa [Nat.add_comm] at hends
  | runsOut h =>
      have hends : LiteralEnds close oneLine (front ++ rest) (false, (front ++ rest).length) := by
        refine .runsOut fun j hj => ?_
        obtain ⟨i, -, hi⟩ := hfront.endsLiteral_iff.mp hj
        exact h i hi
      rwa [List.length_append, Nat.add_comm] at hends

/-- **How a literal ends**, by induction along its scanner, which passes over a byte or over a
backslash with the byte behind it. -/
theorem quotedTail_ends (hclose : close ≠ Ascii.backslash) (bytes : Bytes) :
    LiteralEnds close oneLine bytes (quotedTail close oneLine bytes) := by
  fun_induction quotedTail close oneLine bytes with
  | case1 =>
      refine .runsOut fun i => ?_
      rintro (h | ⟨-, h⟩) <;> cases h.there
  | case2 =>
      show LiteralEnds close oneLine [Ascii.backslash] (false, [Ascii.backslash].length)
      refine .runsOut fun i => ?_
      have hno : ∀ b, b ≠ Ascii.backslash → ¬StandsFree b [Ascii.backslash] i := by
        intro b hb h
        have hmem := List.mem_of_getElem? h.there
        exact hb (List.mem_singleton.mp hmem)
      rintro (h | ⟨-, h⟩)
      · exact hno close hclose h
      · exact hno Ascii.lineFeed (by decide) h
  | case3 c more closed n heq ih =>
      rw [heq] at ih
      exact ih.behind (passes_escaped hclose c)
  | case4 rest =>
      exact .closed ⟨.inl ⟨rfl, rfl⟩, fun _ _ => Nat.zero_le _⟩ rfl
  | case5 b rest hb hne hline =>
      rw [Bool.and_eq_true, decide_eq_true_eq] at hline
      obtain ⟨hone, rfl⟩ := hline
      exact .cut ⟨.inr ⟨hone, rfl, rfl⟩, fun _ _ => Nat.zero_le _⟩ fun h => hne (Option.some.inj h)
  | case6 b rest hb hne hline closed n heq ih =>
      rw [heq] at ih
      exact ih.behind (passes_plain hb hne (by simpa using hline))

end Literals

section Literals

variable {close : UInt8} {oneLine : Bool} {bytes : Bytes} {i : Nat}

/-- The first byte that ends a literal decides whether it is closed. -/
theorem quotedTail_of_isLeast (hclose : close ≠ Ascii.backslash)
    (h : IsLeast {i | EndsLiteral close oneLine bytes i} i) :
    quotedTail close oneLine bytes =
      if bytes[i]? = some close then (true, i + 1) else (false, i) := by
  have hends : LiteralEnds close oneLine bytes _ := quotedTail_ends hclose bytes
  generalize quotedTail close oneLine bytes = result at hends ⊢
  cases hends with
  | closed h' hquote =>
      obtain rfl := h.unique h'
      rw [if_pos hquote]
  | cut h' hquote =>
      obtain rfl := h.unique h'
      rw [if_neg hquote]
  | runsOut h' => exact absurd h.1 (h' i)

/-- A literal that nothing ends takes all bytes. -/
theorem quotedTail_of_forall_not (hclose : close ≠ Ascii.backslash)
    (h : ∀ i, ¬EndsLiteral close oneLine bytes i) :
    quotedTail close oneLine bytes = (false, bytes.length) := by
  have hends : LiteralEnds close oneLine bytes _ := quotedTail_ends hclose bytes
  generalize quotedTail close oneLine bytes = result at hends ⊢
  cases hends with
  | closed h' _ => exact absurd h'.1 (h _)
  | cut h' _ => exact absurd h'.1 (h _)
  | runsOut _ => rfl

/-- A byte other than a quote belongs to a literal if and only if nothing ends the literal up to
there. -/
theorem LiteralEnds.lt_snd_iff {result : Bool × Nat} (h : LiteralEnds close oneLine bytes result)
    {b : UInt8} (hb : bytes[i]? = some b) (hne : b ≠ close) :
    i < result.2 ↔ ∀ j ≤ i, ¬EndsLiteral close oneLine bytes j := by
  cases h with
  | @closed n h hquote =>
      constructor
      · intro hlt j hj hends
        have hle : n ≤ j := h.2 hends
        obtain rfl : i = n := by
          show i = n
          omega
        exact hne (Option.some.inj (hb.symm.trans hquote))
      · intro hnone
        have hlt : i < n := Nat.lt_of_not_le fun hle => hnone n hle h.1
        exact Nat.lt_succ_of_lt hlt
  | @cut n h _ =>
      constructor
      · intro hlt j hj hends
        have hle : n ≤ j := h.2 hends
        exact absurd hlt (Nat.not_lt_of_le (hle.trans hj))
      · intro hnone
        exact Nat.lt_of_not_le fun hle => hnone n hle h.1
  | runsOut h => exact ⟨fun _ j _ => h j, fun _ => (List.getElem?_eq_some_iff.mp hb).1⟩

end Literals

/-! ## Comments -/

/-- Do a star and a slash stand at the index? -/
structure ClosesComment (bytes : Bytes) (i : Nat) : Prop where
  /-- The star stands there. -/
  star : bytes[i]? = some Ascii.star
  /-- The slash stands behind it. -/
  slash : bytes[i + 1]? = some Ascii.slash

/-- How a block comment ends: is it closed, and how many bytes does it take behind its opening? -/
inductive CommentEnds (bytes : Bytes) : Bool × Nat → Prop where
  /-- It ends with the first star and slash. -/
  | closed {i : Nat} (h : IsLeast {i | ClosesComment bytes i} i) : CommentEnds bytes (true, i + 2)
  /-- There is no star and slash. -/
  | runsOut (h : ∀ i, ¬ClosesComment bytes i) : CommentEnds bytes (false, bytes.length)

/-- A byte at which no comment is closed. -/
theorem CommentEnds.behind {b : UInt8} {rest : Bytes} {result : Bool × Nat}
    (hb : ¬ClosesComment (b :: rest) 0) (h : CommentEnds rest result) :
    CommentEnds (b :: rest) (result.1, result.2 + 1) := by
  have hiff : ∀ i, ClosesComment (b :: rest) (i + 1) ↔ ClosesComment rest i :=
    fun i => ⟨fun h => ⟨h.star, h.slash⟩, fun h => ⟨h.star, h.slash⟩⟩
  cases h with
  | @closed i h =>
      refine .closed ⟨(hiff i).mpr h.1, fun j hj => ?_⟩
      cases j with
      | zero => exact absurd hj hb
      | succ j => exact Nat.succ_le_succ (h.2 ((hiff j).mp hj))
  | runsOut h =>
      refine .runsOut fun j hj => ?_
      cases j with
      | zero => exact hb hj
      | succ j => exact h j ((hiff j).mp hj)

/-- **How a block comment ends**, by induction along its scanner. -/
theorem commentTail_ends (bytes : Bytes) : CommentEnds bytes (commentTail bytes) := by
  fun_induction commentTail bytes with
  | case1 => exact .runsOut fun i h => by cases h.star
  | case2 b rest h =>
      rw [Bool.and_eq_true, decide_eq_true_eq, decide_eq_true_eq, List.head?_eq_getElem?] at h
      obtain ⟨rfl, hslash⟩ := h
      exact .closed ⟨⟨rfl, hslash⟩, fun _ _ => Nat.zero_le _⟩
  | case3 b rest h closed n heq ih =>
      rw [heq] at ih
      refine ih.behind fun hcloses => h ?_
      rw [Bool.and_eq_true, decide_eq_true_eq, decide_eq_true_eq, List.head?_eq_getElem?]
      exact ⟨Option.some.inj hcloses.star, hcloses.slash⟩

/-- A comment ends at the first mark that closes it. -/
theorem commentTail_of_isLeast {bytes : Bytes} {i : Nat}
    (h : IsLeast {i | ClosesComment bytes i} i) : commentTail bytes = (true, i + 2) := by
  have hends := commentTail_ends bytes
  generalize commentTail bytes = result at hends ⊢
  cases hends with
  | closed h' => rw [h.unique h']
  | runsOut h' => exact absurd h.1 (h' i)

/-- A comment that no mark closes takes the rest of the stream. -/
theorem commentTail_of_forall_not {bytes : Bytes} (h : ∀ i, ¬ClosesComment bytes i) :
    commentTail bytes = (false, bytes.length) := by
  have hends := commentTail_ends bytes
  generalize commentTail bytes = result at hends ⊢
  cases hends with
  | closed h' => exact absurd h'.1 (h _)
  | runsOut _ => rfl

/-- The bytes of a line are those before its line feed. -/
theorem runLength_of_isLeast {bytes : Bytes} {i : Nat}
    (h : IsLeast {i | bytes[i]? = some Ascii.lineFeed} i) :
    runLength (· != Ascii.lineFeed) bytes = i := by
  induction bytes generalizing i with
  | nil => cases h.1
  | cons b rest ih =>
      unfold runLength at ih ⊢
      by_cases hb : b = Ascii.lineFeed
      · have hzero : i ≤ 0 := h.2 (congrArg some hb)
        rw [List.takeWhile_cons_of_neg (by simp [hb]), Nat.le_zero.mp hzero]
        rfl
      · rw [List.takeWhile_cons_of_pos (by simp [hb]), List.length_cons]
        cases i with
        | zero => exact absurd (Option.some.inj h.1) hb
        | succ i =>
            have hrest : IsLeast {i | rest[i]? = some Ascii.lineFeed} i := by
              refine ⟨h.1, fun j hj => ?_⟩
              have hle : i + 1 ≤ j + 1 := h.2 hj
              exact Nat.le_of_succ_le_succ hle
            rw [ih hrest]

/-- The last line takes all bytes. -/
theorem runLength_of_not_mem {bytes : Bytes} (h : Ascii.lineFeed ∉ bytes) :
    runLength (· != Ascii.lineFeed) bytes = bytes.length := by
  have hall : ∀ b ∈ bytes, (b != Ascii.lineFeed) = true := by
    intro b hb
    exact bne_iff_ne.mpr fun heq => h (heq ▸ hb)
  unfold runLength
  rw [List.takeWhile_eq_self_iff.mpr hall]

/-! ## Strings and comments of a stream -/

/-- The text of a string is the text without its quotes, between quotes. -/
theorem lexeme_of_string {t : Token} {b : UInt8} {rest : Bytes} (h : t.StartsStream b rest)
    (hvalid : t.valid = true) (hkind : t.kind = .string) :
    t.lexeme = "\"" ++ t.unquoted ++ "\"" := by
  obtain ⟨-, inner, -, -, hbytes⟩ := exists_bytes_of_isLiteral h hvalid (by rw [hkind]; rfl)
  have hunquoted : t.unquoted = Utf8.decode inner := by
    unfold unquoted
    rw [hvalid, hkind, hbytes]
    simp
  have hmark := t.kind.quoteMark_lt
  have hquote : Char.ofNat t.kind.quoteMark.toNat = '"' := by
    rw [hkind]
    rfl
  rw [hunquoted, lexeme, hbytes]
  unfold Utf8.decode
  rw [decodeChars_between hmark hmark, hquote]
  apply String.toList_injective
  simp

/-- What is said of a token by the bytes from its start on, if it is a string or a comment. -/
structure EndsRight (t : Token) (bytes : Bytes) : Prop where
  /-- A string ends with the first quote that no backslash protects. -/
  closedString : ∀ body i, bytes = Ascii.quote :: body →
    IsLeast {i | StandsFree Ascii.quote body i} i →
      t.kind = .string ∧ t.valid = true ∧ t.bytes = Ascii.quote :: body.take (i + 1) ∧
        t.lexeme = "\"" ++ t.unquoted ++ "\""
  /-- Without such a quote, it is ill formed and goes on to the end of the stream. -/
  openString : ∀ body, bytes = Ascii.quote :: body → (∀ i, ¬StandsFree Ascii.quote body i) →
    t.kind = .string ∧ t.valid = false ∧ t.bytes = bytes
  /-- A block comment ends with the first star and slash behind its opening. -/
  closedComment : ∀ body i, bytes = Ascii.slash :: Ascii.star :: body →
    IsLeast {i | ClosesComment body i} i →
      t.kind = .blockComment ∧ t.valid = true ∧
        t.bytes = Ascii.slash :: Ascii.star :: body.take (i + 2)
  /-- Without them, it is ill formed and goes on to the end of the stream. -/
  openComment : ∀ body, bytes = Ascii.slash :: Ascii.star :: body → (∀ i, ¬ClosesComment body i) →
    t.kind = .blockComment ∧ t.valid = false ∧ t.bytes = bytes
  /-- A line comment ends before the next line feed. -/
  lineComment : ∀ body i, bytes = Ascii.slash :: Ascii.slash :: body →
    IsLeast {i | body[i]? = some Ascii.lineFeed} i →
      t.kind = .lineComment ∧ t.valid = true ∧
        t.bytes = Ascii.slash :: Ascii.slash :: body.take i
  /-- On the last line, it goes on to the end of the stream. -/
  lastLine : ∀ body, bytes = Ascii.slash :: Ascii.slash :: body → Ascii.lineFeed ∉ body →
    t.kind = .lineComment ∧ t.valid = true ∧ t.bytes = bytes

/-- A literal that starts a stream. -/
theorem StartsStream.quotedAt {t : Token} {kind : Kind} {close : UInt8} {oneLine : Bool}
    {body : Bytes} (h : t.StartsStream close body)
    (hfirst : Lexeme.first close body = Lexeme.quotedAt kind close oneLine body) :
    t.kind = kind ∧ t.valid = (quotedTail close oneLine body).1 ∧
      t.bytes = close :: body.take (quotedTail close oneLine body).2 := by
  unfold StartsStream at h
  rw [hfirst] at h
  exact h

/-- A block comment that starts a stream. -/
theorem StartsStream.blockComment {t : Token} {body : Bytes}
    (h : t.StartsStream Ascii.slash (Ascii.star :: body)) :
    t.kind = .blockComment ∧ t.valid = (commentTail body).1 ∧
      t.bytes = Ascii.slash :: Ascii.star :: body.take (commentTail body).2 := by
  obtain ⟨hkind, hvalid, hbytes⟩ := h
  refine ⟨hkind, hvalid, hbytes.trans ?_⟩
  show Ascii.slash :: (Ascii.star :: body).take (1 + (commentTail body).2) = _
  rw [Nat.add_comm, List.take_succ_cons]

/-- A line comment that starts a stream. -/
theorem StartsStream.lineComment {t : Token} {body : Bytes}
    (h : t.StartsStream Ascii.slash (Ascii.slash :: body)) :
    t.kind = .lineComment ∧ t.valid = true ∧
      t.bytes = Ascii.slash :: Ascii.slash :: body.take (runLength (· != Ascii.lineFeed) body) := by
  obtain ⟨hkind, hvalid, hbytes⟩ := h
  refine ⟨hkind, hvalid, hbytes.trans ?_⟩
  show Ascii.slash :: (Ascii.slash :: body).take (1 + runLength (· != Ascii.lineFeed) body) = _
  rw [Nat.add_comm, List.take_succ_cons]

/-- The first token of a stream ends right. -/
theorem StartsStream.endsRight {t : Token} {b : UInt8} {rest : Bytes} (h : t.StartsStream b rest) :
    t.EndsRight (b :: rest) where
  closedString := by
    intro body i hbytes hleast
    obtain ⟨rfl, rfl⟩ := List.cons.inj hbytes.symm
    have hfirst : Lexeme.first Ascii.quote body = Lexeme.quotedAt .string Ascii.quote false body :=
      rfl
    obtain ⟨hkind, hvalid, hbytes⟩ := h.quotedAt hfirst
    have hends : IsLeast {i | EndsLiteral Ascii.quote false body i} i := by simpa [EndsLiteral]
    have htail := quotedTail_of_isLeast (by decide) hends
    rw [if_pos hleast.1.there] at htail
    rw [htail] at hvalid hbytes
    exact ⟨hkind, hvalid, hbytes, lexeme_of_string h hvalid hkind⟩
  openString := by
    intro body hbytes hnone
    obtain ⟨rfl, rfl⟩ := List.cons.inj hbytes.symm
    have hfirst : Lexeme.first Ascii.quote body = Lexeme.quotedAt .string Ascii.quote false body :=
      rfl
    obtain ⟨hkind, hvalid, hbytes⟩ := h.quotedAt hfirst
    have hends : ∀ i, ¬EndsLiteral Ascii.quote false body i := by simpa [EndsLiteral]
    rw [quotedTail_of_forall_not (by decide) hends] at hvalid hbytes
    rw [List.take_length] at hbytes
    exact ⟨hkind, hvalid, hbytes⟩
  closedComment := by
    intro body i hbytes hleast
    obtain ⟨rfl, rfl⟩ := List.cons.inj hbytes.symm
    obtain ⟨hkind, hvalid, hbytes⟩ := h.blockComment
    rw [commentTail_of_isLeast hleast] at hvalid hbytes
    exact ⟨hkind, hvalid, hbytes⟩
  openComment := by
    intro body hbytes hnone
    obtain ⟨rfl, rfl⟩ := List.cons.inj hbytes.symm
    obtain ⟨hkind, hvalid, hbytes⟩ := h.blockComment
    rw [commentTail_of_forall_not hnone] at hvalid hbytes
    rw [List.take_length] at hbytes
    exact ⟨hkind, hvalid, hbytes⟩
  lineComment := by
    intro body i hbytes hleast
    obtain ⟨rfl, rfl⟩ := List.cons.inj hbytes.symm
    obtain ⟨hkind, hvalid, hbytes⟩ := h.lineComment
    rw [runLength_of_isLeast hleast] at hbytes
    exact ⟨hkind, hvalid, hbytes⟩
  lastLine := by
    intro body hbytes hnone
    obtain ⟨rfl, rfl⟩ := List.cons.inj hbytes.symm
    obtain ⟨hkind, hvalid, hbytes⟩ := h.lineComment
    rw [runLength_of_not_mem hnone, List.take_length] at hbytes
    exact ⟨hkind, hvalid, hbytes⟩

end Token

/-- Every token of a stream is the first one of the bytes from its place on. -/
theorem startsStream_of_mem {contents : Bytes} {t : Token}
    (h : t ∈ (Cursor.ofBytes contents).tokens) :
    ∃ b rest, contents.drop t.start.offset = b :: rest ∧ t.StartsStream b rest := by
  obtain ⟨c, hc, hposition, hpeek⟩ := Cursor.exists_reaches_of_mem h
  obtain ⟨htokens, -⟩ := hc.tokens_and_stop
  unfold Cursor.peek? at hpeek
  rw [htokens, hposition] at hpeek
  cases hbytes : contents.drop t.start.offset with
  | nil =>
      rw [hbytes, tokensFrom] at hpeek
      cases hpeek
  | cons b rest =>
      rw [hbytes, tokensFrom] at hpeek
      refine ⟨b, rest, rfl, ?_⟩
      rw [← Option.some.inj hpeek]
      exact ⟨rfl, rfl, rfl⟩

/-- **Strings and comments end where they should**, at every place of a stream where a token
starts. -/
theorem literals_and_comments_end (contents : Bytes) (t : Token)
    (h : t ∈ (Cursor.ofBytes contents).tokens) : t.EndsRight (contents.drop t.start.offset) := by
  obtain ⟨b, rest, hbytes, hstarts⟩ := startsStream_of_mem h
  rw [hbytes]
  exact hstarts.endsRight

/-- A string that holds a quote and ends behind two backslashes, and a comment whose opening is
overlapped by what would close it. -/
theorem literals_and_comments_end_behind_backslashes :
    let contents := Ascii.bytes "\"a\\\"\\\\\"/*/*/".toList
    let string : Token := ⟨.string, true, Position.start, contents.take 7⟩
    let comment : Token := ⟨.blockComment, true, ⟨7, 1, 8⟩, contents.drop 7⟩
    (string ∈ (Cursor.ofBytes contents).tokens ∧ string.EndsRight contents) ∧
      comment ∈ (Cursor.ofBytes contents).tokens ∧ comment.EndsRight (contents.drop 7) := by
  intro contents string comment
  have hstring : string ∈ (Cursor.ofBytes contents).tokens := by decide +kernel
  have hcomment : comment ∈ (Cursor.ofBytes contents).tokens := by decide +kernel
  exact ⟨⟨hstring, literals_and_comments_end contents string hstring⟩, hcomment,
    literals_and_comments_end contents comment hcomment⟩

/-! ## Names of a stream -/

namespace Token

/-- What is said of a name by the bytes behind its opening quote. -/
structure NameEnds (t : Token) (body : Bytes) : Prop where
  /-- It is closed by a quote that no backslash protects, before such a line feed. -/
  closed : ∀ i, IsLeast {i | EndsLiteral Ascii.apostrophe true body i} i →
    body[i]? = some Ascii.apostrophe →
      t.valid = true ∧ t.bytes = Ascii.apostrophe :: body.take (i + 1)
  /-- It is ill formed and ends before a line feed that no backslash protects, if that comes
  first. -/
  cut : ∀ i, IsLeast {i | EndsLiteral Ascii.apostrophe true body i} i →
    body[i]? = some Ascii.lineFeed →
      t.valid = false ∧ t.bytes = Ascii.apostrophe :: body.take i
  /-- Without any of them, it is ill formed and goes on to the end of the stream. -/
  runsOut : (∀ i, ¬EndsLiteral Ascii.apostrophe true body i) →
    t.valid = false ∧ t.bytes = Ascii.apostrophe :: body
  /-- It stays on its line if and only if it is closed there or no backslash protects the line feed
  that ends the line. -/
  onLine : Ascii.lineFeed ∉ t.bytes ↔ ∀ i, IsLeast {i | body[i]? = some Ascii.lineFeed} i →
    (∃ j < i, StandsFree Ascii.apostrophe body j) ∨ StandsFree Ascii.lineFeed body i

/-- Where something has a property, something has it first. -/
theorem exists_isLeast {p : Nat → Prop} {i : Nat} (h : p i) : ∃ n ≤ i, IsLeast {i | p i} n := by
  classical
  have hex : ∃ i, p i := ⟨i, h⟩
  exact ⟨Nat.find hex, Nat.find_min' hex h, Nat.find_spec hex, fun _ hj => Nat.find_min' hex hj⟩

/-- When a literal on one line goes over the end of the line. -/
theorem lineFeed_not_mem_iff {close : UInt8} (hbackslash : close ≠ Ascii.backslash)
    (hclose : Ascii.lineFeed ≠ close) (body : Bytes) :
    Ascii.lineFeed ∉ body.take (quotedTail close true body).2 ↔
      ∀ i, IsLeast {i | body[i]? = some Ascii.lineFeed} i →
        (∃ j < i, StandsFree close body j) ∨ StandsFree Ascii.lineFeed body i := by
  have hends : LiteralEnds close true body _ := quotedTail_ends hbackslash body
  constructor
  · intro hno i hi
    have hlt : ¬i < (quotedTail close true body).2 := by
      intro hlt
      exact hno (List.mem_of_getElem? ((List.getElem?_take_of_lt hlt).trans hi.1))
    rw [hends.lt_snd_iff hi.1 hclose] at hlt
    push Not at hlt
    obtain ⟨j, hj, hquote | ⟨-, hline⟩⟩ := hlt
    · refine .inl ⟨j, Nat.lt_of_le_of_ne hj ?_, hquote⟩
      rintro rfl
      exact hclose (Option.some.inj (hi.1.symm.trans hquote.there))
    · obtain rfl := Nat.le_antisymm hj (hi.2 hline.there)
      exact .inr hline
  · intro hline hmem
    obtain ⟨k, hk⟩ := List.mem_iff_getElem?.mp hmem
    rw [List.getElem?_take] at hk
    split at hk
    · next hlt =>
        obtain ⟨i, hle, hi⟩ := exists_isLeast (p := fun i => body[i]? = some Ascii.lineFeed) hk
        have hnone := (hends.lt_snd_iff hi.1 hclose).mp (Nat.lt_of_le_of_lt hle hlt)
        rcases hline i hi with ⟨j, hj, hquote⟩ | hfree
        · exact hnone j (Nat.le_of_lt hj) (.inl hquote)
        · exact hnone i (Nat.le_refl i) (.inr ⟨rfl, hfree⟩)
    · cases hk

/-- A name that starts a stream ends so. -/
theorem StartsStream.nameEnds {t : Token} {body : Bytes}
    (h : t.StartsStream Ascii.apostrophe body) : t.NameEnds body := by
  have hfirst : Lexeme.first Ascii.apostrophe body =
      Lexeme.quotedAt .name Ascii.apostrophe true body := rfl
  obtain ⟨-, hvalid, hbytes⟩ := h.quotedAt hfirst
  have hbackslash : Ascii.apostrophe ≠ Ascii.backslash := by decide
  have hline := lineFeed_not_mem_iff hbackslash (by decide) body
  refine ⟨fun i hi hthere => ?_, fun i hi hthere => ?_, fun hnone => ?_, ?_⟩
  · rw [quotedTail_of_isLeast hbackslash hi, if_pos hthere] at hvalid hbytes
    exact ⟨hvalid, hbytes⟩
  · have hother : body[i]? ≠ some Ascii.apostrophe := by
      rw [hthere]
      decide
    rw [quotedTail_of_isLeast hbackslash hi, if_neg hother] at hvalid hbytes
    exact ⟨hvalid, hbytes⟩
  · rw [quotedTail_of_forall_not hbackslash hnone, List.take_length] at hbytes
    rw [quotedTail_of_forall_not hbackslash hnone] at hvalid
    exact ⟨hvalid, hbytes⟩
  · rw [hbytes, List.mem_cons, not_or, hline]
    exact and_iff_right (by decide)

end Token

/-- **How names end**, at every place of a stream where one starts. -/
theorem names_end (contents : Bytes) (t : Token) (h : t ∈ (Cursor.ofBytes contents).tokens)
    (hkind : t.kind = .name) :
    ∃ body, contents.drop t.start.offset = Ascii.apostrophe :: body ∧ t.NameEnds body := by
  obtain ⟨b, rest, hbytes, hstarts⟩ := startsStream_of_mem h
  have hname : (Token.Lexeme.first b rest).kind = .name := hstarts.1.symm.trans hkind
  have hliteral : (Token.Lexeme.first b rest).kind.isLiteral = true := by
    rw [hname]
    rfl
  obtain ⟨hb, -⟩ := Token.Lexeme.first_of_isLiteral hliteral
  rw [hname] at hb
  subst hb
  exact ⟨rest, hbytes, hstarts.nameEnds⟩

/-- A name that is not closed on its line, which starts with a protected quote. -/
theorem names_end_before_line_feed :
    let contents := Ascii.bytes "'\\'a\n'".toList
    let t : Token := ⟨.name, false, Position.start, contents.take 4⟩
    t ∈ (Cursor.ofBytes contents).tokens ∧ t.kind = .name ∧
      ∃ body, contents.drop t.start.offset = Ascii.apostrophe :: body ∧ t.NameEnds body := by
  intro contents t
  have hmem : t ∈ (Cursor.ofBytes contents).tokens := by decide +kernel
  exact ⟨hmem, rfl, names_end contents t hmem rfl⟩

/-- A name goes over the end of its line, and is well formed, if a backslash stands before the line
feed. -/
theorem name_over_line_feed :
    let contents := Ascii.bytes "'a\\\nb'".toList
    ∃ t ∈ (Cursor.ofBytes contents).tokens,
      t.kind = .name ∧ t.valid = true ∧ Ascii.lineFeed ∈ t.bytes := by
  decide +kernel

end ZDecl
