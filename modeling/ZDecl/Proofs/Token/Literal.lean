import ZDecl.Proofs.Token.Boundary
import ZDecl.Token.Stream

/-!
# The text of a literal

A well-formed literal has a quote on both sides. Its text without the quotes is decoded from its
bytes without the quotes, which is the same as taking the quotes off the text: a quote is ASCII, and
no character goes over it.

* `exists_first_of_mem`: every token of a stream is the first lexeme of what stands there.
* `Lexeme.first_of_isLiteral`: only a quote starts a literal.
* `Enclosed`: what may stand between quotes, and by `quotedTail_enclosed` and
  `exists_enclosed_of_quotedTail` nothing else does.
* `exists_bytes_of_isLiteral`: the bytes of a literal.
* **`unquoted_eq`**: the text without the quotes is decided by the text.
-/

namespace ZDecl

/-! ## Tokens as first lexemes -/

/-- Is the token, up to its place, the first one of some stream? -/
def Token.StartsStream (t : Token) (b : UInt8) (rest : Bytes) : Prop :=
  t.kind = (Token.Lexeme.first b rest).kind ∧ t.valid = (Token.Lexeme.first b rest).valid ∧
    t.bytes = b :: rest.take (Token.Lexeme.first b rest).extra

/-- Every token of a stream is the first lexeme of what stands there. -/
theorem exists_first_of_mem {place : Position} {bytes : Bytes} {t : Token}
    (h : t ∈ tokensFrom place bytes) : ∃ b rest, t.StartsStream b rest := by
  fun_induction tokensFrom place bytes with
  | case1 place => cases h
  | case2 place b rest shape token ih =>
      rcases List.mem_cons.mp h with rfl | h
      · exact ⟨b, rest, rfl, rfl, rfl⟩
      · exact ih h

namespace Token

/-! ## What starts a literal -/

/-- Is this the kind of a literal in quotes? -/
def Kind.isLiteral : Kind → Bool
  | string | name => true
  | _ => false

/-- The quote around a literal of this kind. -/
def Kind.quoteMark : Kind → UInt8
  | name => Ascii.apostrophe
  | _ => Ascii.quote

/-- Quotes are ASCII. -/
theorem Kind.quoteMark_lt (kind : Kind) : kind.quoteMark < 0x80 := by
  cases kind <;> decide

/-- No quote is the backslash. -/
theorem Kind.quoteMark_ne_backslash (kind : Kind) : kind.quoteMark ≠ Ascii.backslash := by
  cases kind <;> decide

namespace Lexeme

/-- An operator or a punctuation mark is no literal. -/
theorem isLiteral_operatorAt (b : UInt8) (rest : Bytes) :
    (operatorAt b rest).kind.isLiteral = false := by
  have hpunctuation : ∀ kind, punctuation? b = some kind → kind.isLiteral = false := by
    intro kind h
    unfold punctuation? at h
    iterate 10
      split at h
      · cases h
        rfl
    cases h
  unfold operatorAt
  split
  · rfl
  · split
    · next kind hkind => exact hpunctuation kind hkind
    · rfl

/-- A slash starts a comment or an operator, but no literal. -/
theorem isLiteral_slashAt (rest : Bytes) : (slashAt rest).kind.isLiteral = false := by
  unfold slashAt
  split
  · split
    · rfl
    · split
      · rfl
      · exact isLiteral_operatorAt _ _
  · exact isLiteral_operatorAt _ _

/-- **Only a quote starts a literal**, and the literal is read up to the next such quote. -/
theorem first_of_isLiteral {b : UInt8} {rest : Bytes} (h : (first b rest).kind.isLiteral = true) :
    b = (first b rest).kind.quoteMark ∧
      ∃ oneLine, ∀ next, first b next = quotedAt (first b rest).kind b oneLine next := by
  by_cases hquote : b = Ascii.quote
  · subst hquote
    exact ⟨rfl, false, fun _ => rfl⟩
  by_cases hapostrophe : b = Ascii.apostrophe
  · subst hapostrophe
    exact ⟨rfl, true, fun _ => rfl⟩
  have hno : (first b rest).kind.isLiteral = false := by
    unfold first
    rw [if_neg hquote, if_neg hapostrophe]
    iterate 6
      split
      · first | rfl | exact isLiteral_slashAt rest
    exact isLiteral_operatorAt b rest
  rw [hno] at h
  cases h

end Lexeme

/-! ## What stands between quotes -/

/-- What may stand before a quote that closes a literal: bytes that neither close nor break it off,
and backslashes with any byte behind them. -/
inductive Enclosed (close : UInt8) (oneLine : Bool) : Bytes → Prop where
  /-- Nothing. -/
  | nil : Enclosed close oneLine []
  /-- A byte that has no meaning in a literal. -/
  | plain {b : UInt8} {rest : Bytes} (hbackslash : b ≠ Ascii.backslash) (hclose : b ≠ close)
      (hline : ¬(oneLine = true ∧ b = Ascii.lineFeed)) (h : Enclosed close oneLine rest) :
      Enclosed close oneLine (b :: rest)
  /-- A byte protected by a backslash. -/
  | escaped {c : UInt8} {rest : Bytes} (h : Enclosed close oneLine rest) :
      Enclosed close oneLine (Ascii.backslash :: c :: rest)

section Enclosed

variable {close : UInt8} {oneLine : Bool} {bytes inner : Bytes}

/-- **A literal goes on up to the first quote behind what is enclosed.** -/
theorem quotedTail_enclosed (hclose : close ≠ Ascii.backslash) (h : Enclosed close oneLine inner)
    (after : Bytes) :
    quotedTail close oneLine (inner ++ close :: after) = (true, inner.length + 1) := by
  induction h with
  | nil =>
      rw [List.nil_append, quotedTail.eq_def]
      dsimp only
      rw [if_neg hclose, if_pos rfl, List.length_nil]
  | @plain b rest hbackslash hno hline h ih =>
      have hline' : ¬(oneLine && decide (b = Ascii.lineFeed)) = true := by
        simpa using hline
      rw [List.cons_append, quotedTail.eq_def]
      dsimp only
      rw [if_neg hbackslash, if_neg hno, if_neg hline', ih, List.length_cons]
  | escaped h ih =>
      rw [List.cons_append, List.cons_append, quotedTail.eq_def]
      dsimp only
      rw [if_pos rfl, ih, List.length_cons, List.length_cons]

/-- A closed literal has a quote behind what is enclosed. -/
theorem exists_enclosed_of_quotedTail (h : (quotedTail close oneLine bytes).1 = true) :
    ∃ inner after, Enclosed close oneLine inner ∧ bytes = inner ++ close :: after := by
  fun_induction quotedTail close oneLine bytes with
  | case1 => cases h
  | case2 => cases h
  | case3 c more closed n heq ih =>
      rw [heq] at ih
      obtain ⟨inner, after, hinner, rfl⟩ := ih h
      exact ⟨_, after, .escaped hinner, rfl⟩
  | case4 rest hb => exact ⟨[], rest, .nil, rfl⟩
  | case5 => cases h
  | case6 b rest hb hclose hline closed n heq ih =>
      rw [heq] at ih
      obtain ⟨inner, after, hinner, rfl⟩ := ih h
      exact ⟨_, after, .plain hb hclose (by simpa using hline) hinner, rfl⟩

end Enclosed

/-! ## Bytes and texts of literals -/

variable {t : Token}

/-- **The bytes of a literal**: its quote, what is enclosed by quotes, and its quote again. -/
theorem exists_bytes_of_isLiteral {b : UInt8} {rest : Bytes} (h : t.StartsStream b rest)
    (hvalid : t.valid = true) (hkind : t.kind.isLiteral = true) :
    ∃ oneLine inner, (∀ next, Lexeme.first t.kind.quoteMark next =
        Lexeme.quotedAt t.kind t.kind.quoteMark oneLine next) ∧
      Enclosed t.kind.quoteMark oneLine inner ∧
        t.bytes = t.kind.quoteMark :: (inner ++ [t.kind.quoteMark]) := by
  obtain ⟨hk, hv, hbytes⟩ := h
  rw [hk] at hkind ⊢
  obtain ⟨hmark, oneLine, hfirst⟩ := Lexeme.first_of_isLiteral hkind
  rw [← hmark]
  have hclosed : (quotedTail b oneLine rest).1 = true := by
    rw [hv, hfirst rest] at hvalid
    exact hvalid
  obtain ⟨inner, after, hinner, rfl⟩ := exists_enclosed_of_quotedTail hclosed
  have hbackslash : b ≠ Ascii.backslash := hmark ▸ Kind.quoteMark_ne_backslash _
  have htail := quotedTail_enclosed hbackslash hinner after
  refine ⟨oneLine, inner, hfirst, hinner, ?_⟩
  have hextra : (Lexeme.first b (inner ++ b :: after)).extra = inner.length + 1 := by
    rw [hfirst, Lexeme.quotedAt, htail]
  rw [hbytes, hextra, List.take_length_add_append, List.take_succ_cons, List.take_zero]

/-- The text of a stretch between two ASCII bytes. -/
theorem decodeChars_between {b c : UInt8} (hb : b < 0x80) (hc : c < 0x80) (inner : Bytes) :
    Utf8.decodeChars (b :: (inner ++ [c])) =
      Char.ofNat b.toNat :: (Utf8.decodeChars inner ++ [Char.ofNat c.toNat]) := by
  have hcut : Utf8.Apart inner [c] := by
    right
    intro d hd
    obtain rfl := Option.some.inj hd
    exact Utf8.not_isContinuation_of_lt hc
  have hlast : Utf8.decodeChars [c] = [Char.ofNat c.toNat] := by
    rw [Utf8.decodeChars_cons_of_lt hc, Utf8.decodeChars]
  rw [Utf8.decodeChars_cons_of_lt hb, Utf8.decodeChars_append hcut, hlast]

/-- The text of a token without its first and its last character. -/
def inside (lexeme : String) : String := String.ofList (lexeme.toList.drop 1).dropLast

/-- **The text without the quotes is decided by the text**, for the tokens of a stream. -/
theorem unquoted_eq {b : UInt8} {rest : Bytes} (h : t.StartsStream b rest)
    (hvalid : t.valid = true) :
    t.unquoted = if t.kind.isLiteral then inside t.lexeme else t.lexeme := by
  unfold unquoted
  rw [hvalid]
  cases hkind : t.kind.isLiteral with
  | false =>
      have hneither : ¬(t.kind = .string ∨ t.kind = .name) := by
        rintro (hk | hk) <;> rw [hk] at hkind <;> cases hkind
      simp [hneither]
  | true =>
      have heither : (t.kind = .string || t.kind = .name) = true := by
        cases hk : t.kind <;> rw [hk] at hkind <;> first | rfl | cases hkind
      obtain ⟨-, inner, -, -, hbytes⟩ := exists_bytes_of_isLiteral h hvalid hkind
      have hmark := t.kind.quoteMark_lt
      rw [Bool.true_and, if_pos heither, if_pos rfl, inside, lexeme, hbytes]
      simp only [Utf8.decode, decodeChars_between hmark hmark, List.drop_one, List.tail_cons,
        String.toList_ofList, List.dropLast_concat]

end Token

end ZDecl
