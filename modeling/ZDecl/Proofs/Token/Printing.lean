import Mathlib.Data.List.Forall2
import ZDecl.Proofs.Text.Encoding
import ZDecl.Proofs.Token.Stability

/-!
# Printing tokens

Tokens are printed as their texts with one space between two. Reading what was printed gives the
same tokens back: every token is read again before a space, and a space before a token is a token of
its own. The text of a literal may hide ill-formed bytes, which are printed as replacement
characters, so that what is read again is not the bytes of the token but those of its text.

* `Enclosed.encode_decode`: what stands between quotes may still stand there after that.
* `Token.ReadsAgain`: bytes that are one token before a space.
* `readsAgain_encode_lexeme`: the text of every well-formed token that is not trivia.
* **`printed_tokens_again`**: the tokens of a stream, printed and read again.
-/

namespace ZDecl

namespace Token

/-! ## Literals -/

section Enclosed

variable {close : UInt8} {oneLine : Bool} {bytes more : Bytes}

/-- Bytes beyond ASCII may stand anywhere in a literal. -/
theorem Enclosed.append (hclose : close < 0x80) (h : Enclosed close oneLine bytes)
    (hmore : ∀ b ∈ more, 0x80 ≤ b) : Enclosed close oneLine (more ++ bytes) := by
  induction more with
  | nil => exact h
  | cons b more ih =>
      obtain ⟨hb, hmore⟩ := List.forall_mem_cons.mp hmore
      have hascii : ∀ c < (0x80 : UInt8), b ≠ c := by
        rintro c hc rfl
        exact UInt8.not_le.mpr hc hb
      exact .plain (hascii _ (by decide)) (hascii _ hclose)
        (fun hline => hascii _ (by decide) hline.2) (ih hmore)

/-- They may be left out at the start of a literal. -/
theorem Enclosed.drop {n : Nat} (h : Enclosed close oneLine bytes)
    (hn : ∀ b ∈ bytes.take n, 0x80 ≤ b) : Enclosed close oneLine (bytes.drop n) := by
  induction n generalizing bytes with
  | zero => exact h
  | succ n ih =>
      cases h with
      | nil => exact .nil
      | plain hbackslash hno hline h =>
          exact ih h fun b hb => hn b (List.mem_cons_of_mem _ hb)
      | escaped h => exact absurd (hn Ascii.backslash List.mem_cons_self) (by decide)

/-- **What stands between quotes may stand there after it is decoded and encoded again.** -/
theorem Enclosed.encode_decode (hclose : close < 0x80) (h : Enclosed close oneLine bytes) :
    Enclosed close oneLine (Utf8.encode (Utf8.decode bytes)) := by
  -- The induction is on the length: a character takes more than one byte.
  induction hlength : bytes.length using Nat.strong_induction_on generalizing bytes with
  | _ length ih =>
      subst hlength
      have hbeyond : ∀ {b : UInt8} {rest : Bytes}, Enclosed close oneLine rest →
          rest.length < bytes.length → 0x80 ≤ b →
            ∃ c back, Utf8.encode (Utf8.decode (b :: rest)) = c :: back ∧ 0x80 ≤ c ∧
              Enclosed close oneLine back := by
        intro b rest hrest hlt hb
        have htaken := (Utf8.decodeFirst_of_le hb rest).2
        obtain ⟨back, hne, hback, hencode⟩ := Utf8.encode_decode_cons_of_le hb rest
        obtain ⟨c, back, rfl⟩ := List.exists_cons_of_ne_nil hne
        obtain ⟨hc, hback⟩ := List.forall_mem_cons.mp hback
        have hshorter : (rest.drop (Utf8.decodeFirst b rest).2).length < bytes.length := by
          rw [List.length_drop]
          omega
        have hleft := ih _ hshorter (hrest.drop htaken) rfl
        exact ⟨c, _, hencode, hc, hleft.append hclose hback⟩
      cases h with
      | nil =>
          rw [Utf8.decode_nil, Utf8.encode_empty]
          exact .nil
      | @plain b rest hbackslash hno hline h =>
          have hlt : rest.length < (b :: rest).length := Nat.lt_succ_self _
          by_cases hb : b < 0x80
          · rw [Utf8.encode_decode_cons_of_lt hb]
            exact .plain hbackslash hno hline (ih _ hlt h rfl)
          · obtain ⟨c, back, hencode, hc, hback⟩ := hbeyond h hlt (UInt8.not_lt.mp hb)
            rw [hencode, ← List.singleton_append]
            exact hback.append hclose (List.forall_mem_singleton.mpr hc)
      | @escaped c rest h =>
          have hlt : rest.length < (Ascii.backslash :: c :: rest).length := by
            rw [List.length_cons, List.length_cons]
            omega
          rw [Utf8.encode_decode_cons_of_lt (by decide)]
          by_cases hc : c < 0x80
          · rw [Utf8.encode_decode_cons_of_lt hc]
            exact .escaped (ih _ hlt h rfl)
          · obtain ⟨d, back, hencode, -, hback⟩ := hbeyond h hlt (UInt8.not_lt.mp hc)
            rw [hencode]
            exact .escaped hback

end Enclosed

/-! ## Bytes that are read again -/

/-- Are these the bytes of a token of this kind, whatever stands behind a space after them? -/
def ReadsAgain (kind : Kind) (bytes : Bytes) : Prop :=
  ∃ b inner, bytes = b :: inner ∧ b < 0x80 ∧ Ascii.isBlank b = false ∧
    ∀ next, SpaceAhead next → Lexeme.first b (inner ++ next) = ⟨kind, true, inner.length⟩

variable {t : Token} {b : UInt8} {rest : Bytes}

/-- White space is trivia. -/
theorem Lexeme.not_isBlank_of_first (h : (first b rest).kind.isTrivia = false) :
    Ascii.isBlank b = false := by
  by_contra hblank
  rw [Bool.not_eq_false] at hblank
  have hline : b ≠ Ascii.lineFeed := by
    rintro rfl
    cases (show false = true from hblank)
  rw [first, if_neg hline, if_pos hblank] at h
  cases h

/-- The text of a literal is read again. -/
theorem readsAgain_of_isLiteral (h : t.StartsStream b rest) (hvalid : t.valid = true)
    (hkind : t.kind.isLiteral = true) : ReadsAgain t.kind (Utf8.encode t.lexeme) := by
  obtain ⟨oneLine, inner, hfirst, hinner, hbytes⟩ := exists_bytes_of_isLiteral h hvalid hkind
  have hmark := t.kind.quoteMark_lt
  have hblank : Ascii.isBlank t.kind.quoteMark = false := by
    cases t.kind <;> rfl
  have hlexeme : Utf8.encode t.lexeme =
      t.kind.quoteMark :: (Utf8.encode (Utf8.decode inner) ++ [t.kind.quoteMark]) := by
    have hcut : Utf8.Apart inner [t.kind.quoteMark] := by
      right
      intro c hc
      obtain rfl := Option.some.inj hc
      exact Utf8.not_isContinuation_of_lt hmark
    rw [lexeme, hbytes, Utf8.encode_decode_cons_of_lt hmark, Utf8.decode_append hcut,
      Utf8.encode_append, Utf8.encode_decode_cons_of_lt hmark, Utf8.decode_nil, Utf8.encode_empty]
  refine ⟨_, _, hlexeme, hmark, hblank, fun next _ => ?_⟩
  have hback := hinner.encode_decode hmark
  rw [hfirst, Lexeme.quotedAt, List.append_assoc, List.singleton_append,
    quotedTail_enclosed t.kind.quoteMark_ne_backslash hback, List.length_append,
    List.length_singleton]

/-- **The text of every well-formed token that is not trivia is read again.** -/
theorem readsAgain_encode_lexeme (h : t.StartsStream b rest) (hvalid : t.valid = true)
    (htrivia : t.isTrivia = false) : ReadsAgain t.kind (Utf8.encode t.lexeme) := by
  cases hliteral : t.kind.isLiteral with
  | true => exact readsAgain_of_isLiteral h hvalid hliteral
  | false =>
      obtain ⟨hk, hv, hbytes⟩ := h
      rw [isTrivia, hk] at htrivia
      rw [hk] at hliteral ⊢
      rw [hv] at hvalid
      obtain ⟨hascii, hle, hagain⟩ := Lexeme.stays_first hvalid htrivia hliteral
      have hencode : Utf8.encode t.lexeme = b :: rest.take (Lexeme.first b rest).extra := by
        rw [lexeme, hbytes, Utf8.encode_decode_of_ascii hascii]
      refine ⟨_, _, hencode, hascii b List.mem_cons_self, Lexeme.not_isBlank_of_first htrivia,
        fun next hnext => ?_⟩
      rw [hagain next hnext, List.length_take_of_le hle, ← hvalid]

end Token

/-! ## Printing -/

/-- How tokens are printed: their texts, with one space between two. -/
def printed (tokens : List Token) : String := " ".intercalate (tokens.map Token.lexeme)

/-- The bytes of a list of tokens: those of the first, and those of the others behind a space. -/
theorem encode_printed_cons (t : Token) (tokens : List Token) :
    Utf8.encode (printed (t :: tokens)) = Utf8.encode t.lexeme ++
      if tokens = [] then [] else 0x20 :: Utf8.encode (printed tokens) := by
  cases tokens with
  | nil =>
      rw [printed, List.map_singleton, String.intercalate_singleton, if_pos rfl, List.append_nil]
  | cons u tokens =>
      have hspace : Utf8.encode " " = [0x20] := by decide +kernel
      rw [printed, List.map_cons, List.map_cons, String.intercalate_cons_cons,
        Utf8.encode_append, Utf8.encode_append, hspace, if_neg (List.cons_ne_nil u tokens),
        List.append_assoc]
      rfl

section Again

open Token

variable {kind : Token.Kind} {bytes next : Bytes}

/-- Bytes that are read again are one token before a space. -/
theorem tokensFrom_of_readsAgain (h : ReadsAgain kind bytes) (hnext : SpaceAhead next)
    (place : Position) : tokensFrom place (bytes ++ next) =
      ⟨kind, true, place, bytes⟩ :: tokensFrom (place.after bytes) next := by
  obtain ⟨b, inner, rfl, -, -, hfirst⟩ := h
  exact tokensFrom_cons (hfirst next hnext) place

/-- A space before something that is not blank is a token. -/
theorem tokensFrom_space (hnext : ∀ c ∈ next.head?, Ascii.isBlank c = false) (place : Position) :
    tokensFrom place (0x20 :: next) =
      ⟨.whitespace, true, place, [0x20]⟩ :: tokensFrom (place.after [0x20]) next := by
  have hrun : runLength Ascii.isBlank next = 0 := by
    rw [runLength, List.length_eq_zero_iff]
    cases next with
    | nil => rfl
    | cons c next => exact List.takeWhile_cons_of_neg (by rw [hnext c rfl]; decide)
  have hfirst : Lexeme.first 0x20 next = ⟨.whitespace, true, 0⟩ := by
    rw [← hrun]
    rfl
  rw [tokensFrom, hfirst]
  dsimp only
  rw [List.take_zero, List.drop_zero]
  rfl

/-- What is printed starts like its first token. -/
theorem head?_encode_printed {tokens : List Token}
    (h : ∀ t ∈ tokens, ReadsAgain t.kind (Utf8.encode t.lexeme)) :
    ∀ c ∈ (Utf8.encode (printed tokens)).head?, c < 0x80 ∧ Ascii.isBlank c = false := by
  intro c hc
  cases tokens with
  | nil => cases hc
  | cons t tokens =>
      obtain ⟨b, inner, hbytes, hb, hblank, -⟩ := h t List.mem_cons_self
      rw [encode_printed_cons, hbytes] at hc
      obtain rfl := Option.some.inj hc
      exact ⟨hb, hblank⟩

/-- The same tokens are read again, wherever what is printed stands. -/
theorem tokensFrom_printed {tokens : List Token}
    (h : ∀ t ∈ tokens, t.isTrivia = false ∧ ReadsAgain t.kind (Utf8.encode t.lexeme))
    (place : Position) :
    (∀ u ∈ tokensFrom place (Utf8.encode (printed tokens)), u.valid = true) ∧
      List.Forall₂ (fun t u => u.kind = t.kind ∧ u.lexeme = t.lexeme) tokens
        ((tokensFrom place (Utf8.encode (printed tokens))).filter (!·.isTrivia)) := by
  induction tokens generalizing place with
  | nil =>
      have hnone : tokensFrom place (Utf8.encode (printed [])) = [] := by
        rw [printed, List.map_nil, String.intercalate_nil, Utf8.encode_empty, tokensFrom]
      rw [hnone]
      exact ⟨fun u hu => (List.not_mem_nil hu).elim, .nil⟩
  | cons t tokens ih =>
      obtain ⟨⟨htrivia, hagain⟩, hothers⟩ := List.forall_mem_cons.mp h
      rw [encode_printed_cons]
      generalize hnext : (if tokens = [] then [] else 0x20 :: Utf8.encode (printed tokens)) = next
      have hspace : SpaceAhead next := by
        rintro c hc
        subst hnext
        split at hc
        · cases hc
        · exact (Option.some.inj hc).symm
      have hbehind : ∀ place, (∀ u ∈ tokensFrom place next, u.valid = true) ∧
          List.Forall₂ (fun t u => u.kind = t.kind ∧ u.lexeme = t.lexeme) tokens
            ((tokensFrom place next).filter (!·.isTrivia)) := by
        intro place
        subst hnext
        split
        · next hnil =>
            subst hnil
            rw [tokensFrom]
            exact ⟨fun u hu => (List.not_mem_nil hu).elim, .nil⟩
        · have hhead := fun c hc => (head?_encode_printed (fun t ht => (hothers t ht).2) c hc).2
          obtain ⟨hvalid, hsame⟩ := ih hothers (place.after [0x20])
          rw [tokensFrom_space hhead]
          exact ⟨List.forall_mem_cons.mpr ⟨rfl, hvalid⟩, hsame⟩
      obtain ⟨hvalid, hsame⟩ := hbehind (place.after (Utf8.encode t.lexeme))
      have hkept : (!(⟨t.kind, true, place, Utf8.encode t.lexeme⟩ : Token).isTrivia) = true := by
        rw [Bool.not_eq_true']
        exact htrivia
      rw [tokensFrom_of_readsAgain hagain hspace]
      refine ⟨List.forall_mem_cons.mpr ⟨rfl, hvalid⟩, ?_⟩
      rw [List.filter_cons_of_pos (p := fun u : Token => !u.isTrivia) hkept]
      exact .cons ⟨rfl, Utf8.decode_encode t.lexeme⟩ hsame

end Again

/-- No byte order mark stands before what starts with an ASCII byte. -/
theorem tokens_ofBytes_of_ascii {contents : Bytes} (h : ∀ c ∈ contents.head?, c < 0x80) :
    (Cursor.ofBytes contents).tokens = tokensFrom .start contents := by
  have hmark : byteOrderMark.isPrefixOf contents = false := by
    cases contents with
    | nil => rfl
    | cons b contents =>
        have hb : (0xEF : UInt8) ≠ b := by
          rintro rfl
          exact absurd (h _ rfl) (by decide)
        rw [byteOrderMark, List.isPrefixOf_cons_cons, beq_false_of_ne hb, Bool.false_and]
  have hplace : firstPosition contents = .start := by
    rw [firstPosition, hmark]
    rfl
  rw [Cursor.ofBytes, hplace]
  rfl

/-- **Tokens are read again as they were printed.** If all tokens of a stream are well formed, then
so are those of the text in which its significant tokens are printed, and the significant ones of
these are of the same kinds and have the same texts in the same order. -/
theorem printed_tokens_again (contents : Bytes)
    (hvalid : ∀ t ∈ (Cursor.ofBytes contents).tokens, t.valid = true) :
    let significant := (Cursor.ofBytes contents).tokens.filter (!·.isTrivia)
    let again := (Cursor.ofBytes (Utf8.encode (printed significant))).tokens
    (∀ u ∈ again, u.valid = true) ∧
      List.Forall₂ (fun t u => u.kind = t.kind ∧ u.lexeme = t.lexeme) significant
        (again.filter (!·.isTrivia)) := by
  intro significant again
  have hsignificant : ∀ t ∈ significant,
      t.isTrivia = false ∧ Token.ReadsAgain t.kind (Utf8.encode t.lexeme) := by
    intro t ht
    obtain ⟨hmem, hnot⟩ := List.mem_filter.mp ht
    have htrivia : t.isTrivia = false := by simpa using hnot
    obtain ⟨b, rest, hstarts⟩ := exists_first_of_mem hmem
    exact ⟨htrivia, Token.readsAgain_encode_lexeme hstarts (hvalid t hmem) htrivia⟩
  have hagain : again = tokensFrom .start (Utf8.encode (printed significant)) :=
    tokens_ofBytes_of_ascii fun c hc =>
      (head?_encode_printed (fun t ht => (hsignificant t ht).2) c hc).1
  rw [hagain]
  exact tokensFrom_printed hsignificant .start

/-- A number before a full stop, operators that touch, and a string with an ill-formed byte. -/
theorem printed_tokens_again_of_expression :
    let contents := Ascii.bytes "x=1.y/*c*/+-.5e3f\n".toList ++ [0x22, 0xFF, 0x22]
    let significant := (Cursor.ofBytes contents).tokens.filter (!·.isTrivia)
    let again := (Cursor.ofBytes (Utf8.encode (printed significant))).tokens
    (∀ t ∈ (Cursor.ofBytes contents).tokens, t.valid = true) ∧
      (∀ u ∈ again, u.valid = true) ∧
        List.Forall₂ (fun t u => u.kind = t.kind ∧ u.lexeme = t.lexeme) significant
          (again.filter (!·.isTrivia)) := by
  have hvalid : ∀ t ∈ (Cursor.ofBytes (Ascii.bytes "x=1.y/*c*/+-.5e3f\n".toList ++
      [0x22, 0xFF, 0x22])).tokens, t.valid = true := by
    decide +kernel
  exact ⟨hvalid, printed_tokens_again _ hvalid⟩

end ZDecl
