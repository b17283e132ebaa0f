import ZDecl.Proofs.Token.Cut
import ZDecl.Proofs.Token.Literal

/-!
# Lexemes and tokens at a seam

This file cuts a stream somewhere behind its first lexeme and puts something else there, which
begins with a space or a line feed, if it is not empty. The lexeme stays as it is, but for one case:
where the cut leaves a full stop directly behind a number, the number may take it.

* `Lexeme.operatorAt_append`: operators. No operator has a space or a line feed in it.
* `Lexeme.slashAt_append`, `Lexeme.quotedAt_append`: comments and literals that are closed.
* **`Lexeme.first_append`**: every well-formed lexeme.
* `Lexeme.extra_first_le`: no lexeme is longer than the stream.
* **`tokensFrom_append`**: the tokens of a stream up to a cut between two of them.
-/

namespace ZDecl

namespace Token

section Parts

variable {kept behind next : Bytes}

/-! ## Operators, comments and literals -/

/-- Operators have no space and no line feed in them and more than one byte. -/
theorem unbroken_operators :
    ∀ op ∈ operators, (0x20 : UInt8) ∉ op ∧ Ascii.lineFeed ∉ op ∧ 2 ≤ op.length := by
  decide +kernel

/-- An operator does not reach over the cut. -/
theorem Break.isPrefixOf_append (h : Break next) {op left : Bytes} (hop : op ∈ operators) :
    op.isPrefixOf (left ++ next) = op.isPrefixOf left := by
  rw [Bool.eq_iff_iff, List.isPrefixOf_iff_prefix, List.isPrefixOf_iff_prefix]
  refine ⟨fun hbegins => ?_, fun hbegins => hbegins.trans (List.prefix_append left next)⟩
  rcases List.prefix_or_prefix_of_prefix hbegins (List.prefix_append left next) with
    hle | ⟨more, rfl⟩
  · exact hle
  · have hmore : more <+: next := (List.prefix_append_right_inj left).mp hbegins
    cases more with
    | nil => simp
    | cons c more =>
        obtain ⟨behind, rfl⟩ := hmore
        obtain ⟨hspace, hline, -⟩ := unbroken_operators _ hop
        rcases h c rfl with rfl | rfl
        · exact absurd (by simp) hspace
        · exact absurd (by simp) hline

/-- A comment that is closed takes at least two bytes. -/
theorem two_le_commentTail {bytes : Bytes} (h : (commentTail bytes).1 = true) :
    2 ≤ (commentTail bytes).2 := by
  fun_induction commentTail bytes with
  | case1 => cases h
  | case2 => exact Nat.le_refl 2
  | case3 b rest _ closed n heq ih =>
      rw [heq] at ih
      exact (ih h).trans (Nat.le_succ n)

/-- A comment goes on with its second byte, or ends with it. -/
theorem commentTail_cons_cons (b c : UInt8) (rest : Bytes) :
    commentTail (b :: c :: rest) = if b = Ascii.star ∧ c = Ascii.slash then (true, 2)
      else ((commentTail (c :: rest)).1, (commentTail (c :: rest)).2 + 1) := by
  rw [commentTail]
  simp

/-- A closed comment stays as it is. -/
theorem commentTail_append (hclosed : (commentTail (kept ++ behind)).1 = true)
    (hle : (commentTail (kept ++ behind)).2 ≤ kept.length) :
    commentTail (kept ++ next) = commentTail (kept ++ behind) := by
  induction kept with
  | nil => exact absurd ((two_le_commentTail hclosed).trans hle) (by simp)
  | cons b kept ih =>
      cases kept with
      | nil => exact absurd ((two_le_commentTail hclosed).trans hle) (by simp)
      | cons c kept =>
          simp only [List.cons_append, commentTail_cons_cons b c] at ih hclosed hle ⊢
          by_cases hend : b = Ascii.star ∧ c = Ascii.slash
          · rw [if_pos hend, if_pos hend]
          · rw [if_neg hend] at hclosed hle
            rw [if_neg hend, if_neg hend, ih hclosed (Nat.le_of_succ_le_succ hle)]

/-- A closed literal stays as it is. -/
theorem quotedTail_append {close : UInt8} {oneLine : Bool} (hclose : close ≠ Ascii.backslash)
    (hclosed : (quotedTail close oneLine (kept ++ behind)).1 = true)
    (hle : (quotedTail close oneLine (kept ++ behind)).2 ≤ kept.length) :
    quotedTail close oneLine (kept ++ next) = quotedTail close oneLine (kept ++ behind) := by
  obtain ⟨inner, after, hinner, hbytes⟩ := exists_enclosed_of_quotedTail hclosed
  rw [hbytes, quotedTail_enclosed hclose hinner] at hle ⊢
  have hkept : inner ++ [close] <+: kept := by
    refine List.prefix_of_prefix_length_le ?_ (List.prefix_append kept behind) (by simpa using hle)
    rw [hbytes]
    exact ⟨after, by simp⟩
  obtain ⟨more, rfl⟩ := hkept
  rw [List.append_assoc, List.append_assoc, List.singleton_append,
    quotedTail_enclosed hclose hinner]

namespace Lexeme

variable {b : UInt8}

/-- The operator that is found stays the same, and where there is none, none comes up. -/
theorem find?_operators_append
    (hle : ∀ op ∈ operators.find? (·.isPrefixOf (b :: (kept ++ behind))),
      op.length ≤ kept.length + 1)
    (hnext : Break next) : operators.find? (·.isPrefixOf (b :: (kept ++ next))) =
      operators.find? (·.isPrefixOf (b :: (kept ++ behind))) := by
  have hagain : ∀ op ∈ operators,
      op.isPrefixOf (b :: (kept ++ next)) = op.isPrefixOf (b :: kept) := by
    intro op hop
    rw [← List.cons_append]
    exact hnext.isPrefixOf_append hop
  have hnever : ∀ op : Bytes, op.isPrefixOf (b :: (kept ++ behind)) = false →
      op.isPrefixOf (b :: kept) = false := by
    intro op hno
    rw [Bool.eq_false_iff, ne_eq, List.isPrefixOf_iff_prefix] at hno ⊢
    exact fun hbegins => hno (hbegins.trans (List.prefix_append (b :: kept) behind))
  cases hop : operators.find? (·.isPrefixOf (b :: (kept ++ behind))) with
  | none =>
      refine List.find?_eq_none.mpr fun op hmem => ?_
      rw [hagain op hmem, hnever op (Bool.eq_false_iff.mpr (List.find?_eq_none.mp hop op hmem))]
      decide
  | some op =>
      have hlength : op.length ≤ (b :: kept).length := hle op hop
      obtain ⟨hbegins, before, after, hall, hbefore⟩ := List.find?_eq_some_iff_append.mp hop
      have hmem : ∀ other ∈ before ++ op :: after, other ∈ operators := fun _ h => hall ▸ h
      refine List.find?_eq_some_iff_append.mpr ⟨?_, before, after, hall, fun other hother => ?_⟩
      · rw [hagain op (hmem op (by simp)), List.isPrefixOf_iff_prefix]
        rw [List.isPrefixOf_iff_prefix] at hbegins
        exact List.prefix_of_prefix_length_le hbegins (List.prefix_append _ behind) hlength
      · rw [hagain other (hmem other (by simp [hother]))]
        simpa using hnever other (by simpa using hbefore other hother)

/-- An operator stays as it is. -/
theorem operatorAt_append (hle : (operatorAt b (kept ++ behind)).extra ≤ kept.length)
    (hnext : Break next) : operatorAt b (kept ++ next) = operatorAt b (kept ++ behind) := by
  have hfind : operators.find? (·.isPrefixOf (b :: (kept ++ next))) =
      operators.find? (·.isPrefixOf (b :: (kept ++ behind))) := by
    refine find?_operators_append (fun op hop => ?_) hnext
    rw [operatorAt, hop] at hle
    exact Nat.le_add_of_sub_le hle
  unfold operatorAt at hle ⊢
  rw [hfind]
  cases hop : operators.find? (·.isPrefixOf (b :: (kept ++ behind))) with
  | some op => rfl
  | none =>
      rw [hop] at hle
      dsimp only at hle ⊢
      cases hkind : punctuation? b with
      | some kind => rfl
      | none =>
          rw [hkind] at hle
          dsimp only at hle ⊢
          split at hle
          · next hb => rw [if_pos hb, if_pos hb, runLength_append hle (hnext.not rfl rfl)]
          · next hb => rw [if_neg hb, if_neg hb]

/-- Two slashes start a comment to the end of the line. -/
theorem slashAt_slash (rest : Bytes) : slashAt (Ascii.slash :: rest) =
    ⟨.lineComment, true, runLength (· != Ascii.lineFeed) rest + 1⟩ := by
  rw [slashAt, if_pos rfl, Nat.add_comm]

/-- A slash and a star start a block comment. -/
theorem slashAt_star (rest : Bytes) : slashAt (Ascii.star :: rest) =
    ⟨.blockComment, (commentTail rest).1, (commentTail rest).2 + 1⟩ := by
  rw [slashAt, if_neg (by decide), if_pos rfl, Nat.add_comm]

/-- A slash that starts no comment is an operator. -/
theorem slashAt_eq_operatorAt {rest : Bytes}
    (h : ∀ c ∈ rest.head?, c ≠ Ascii.slash ∧ c ≠ Ascii.star) :
    slashAt rest = operatorAt Ascii.slash rest := by
  cases rest with
  | nil => rfl
  | cons c more =>
      obtain ⟨hslash, hstar⟩ := h c rfl
      rw [slashAt, if_neg hslash, if_neg hstar]

/-- A comment or an operator stays as it is. A comment to the end of the line needs a line feed
behind it. -/
theorem slashAt_append (hvalid : (slashAt (kept ++ behind)).valid = true)
    (hle : (slashAt (kept ++ behind)).extra ≤ kept.length) (hnext : Break next)
    (hline : (slashAt (kept ++ behind)).kind = .lineComment → LineEnd next) :
    slashAt (kept ++ next) = slashAt (kept ++ behind) := by
  -- A comment is told by its second byte, and takes it.
  by_cases hslash : Ascii.slash ∈ (kept ++ behind).head?
  · cases kept with
    | nil =>
        obtain ⟨rest, rfl⟩ := List.head?_eq_some_iff.mp hslash
        rw [List.nil_append, slashAt_slash] at hle
        cases hle
    | cons c kept =>
        obtain rfl : c = Ascii.slash := Option.some.inj hslash
        rw [List.cons_append, slashAt_slash] at hle hline
        have hnone : ∀ c ∈ next.head?, (c != Ascii.lineFeed) = false := by
          intro c hc
          simp [hline rfl c hc]
        rw [List.cons_append, List.cons_append, slashAt_slash, slashAt_slash,
          runLength_append (Nat.le_of_succ_le_succ hle) hnone]
  by_cases hstar : Ascii.star ∈ (kept ++ behind).head?
  · cases kept with
    | nil =>
        obtain ⟨rest, rfl⟩ := List.head?_eq_some_iff.mp hstar
        rw [List.nil_append, slashAt_star] at hle
        cases hle
    | cons c kept =>
        obtain rfl : c = Ascii.star := Option.some.inj hstar
        rw [List.cons_append, slashAt_star] at hvalid hle
        rw [List.cons_append, List.cons_append, slashAt_star, slashAt_star,
          commentTail_append hvalid (Nat.le_of_succ_le_succ hle)]
  have hnone : ∀ c ∈ (kept ++ behind).head?, c ≠ Ascii.slash ∧ c ≠ Ascii.star := by
    intro c hc
    exact ⟨fun h => hslash (h ▸ hc), fun h => hstar (h ▸ hc)⟩
  rw [slashAt_eq_operatorAt hnone] at hle
  rw [slashAt_eq_operatorAt hnone, ← operatorAt_append hle hnext]
  refine slashAt_eq_operatorAt fun c hc => ?_
  cases kept with
  | nil => rcases hnext c hc with rfl | rfl <;> decide
  | cons d kept => exact hnone c hc

/-- A closed literal stays as it is. -/
theorem quotedAt_append {kind : Kind} {close : UInt8} {oneLine : Bool}
    (hclose : close ≠ Ascii.backslash)
    (hvalid : (quotedAt kind close oneLine (kept ++ behind)).valid = true)
    (hle : (quotedAt kind close oneLine (kept ++ behind)).extra ≤ kept.length) :
    quotedAt kind close oneLine (kept ++ next) = quotedAt kind close oneLine (kept ++ behind) := by
  unfold quotedAt at hvalid hle ⊢
  rw [quotedTail_append hclose hvalid hle]

/-! ## Every lexeme -/

/-- Does a number start here? -/
def startsNumber (b : UInt8) (rest : Bytes) : Bool :=
  Ascii.isDigit b || (b = Ascii.dot && rest.head?.any Ascii.isDigit)

/-- A digit starts a number, and so does a full stop before a digit. -/
theorem startsNumber_iff : startsNumber b rest = true ↔ Ascii.isDigit b = true ∨
    b = Ascii.dot ∧ ∃ d more, rest = d :: more ∧ Ascii.isDigit d = true := by
  cases rest with
  | nil => simp [startsNumber]
  | cons d more => simp [startsNumber]

/-- A digit starts no word and is no full stop. -/
theorem not_isWordStart_of_isDigit {d : UInt8} (h : Ascii.isDigit d = true) :
    Ascii.isWordStart d = false ∧ d ≠ Ascii.dot := by
  simp only [Ascii.isDigit, Ascii.isWordStart, Ascii.isLetter, Ascii.dot, Bool.and_eq_true,
    decide_eq_true_eq, Bool.or_eq_false_iff, Bool.and_eq_false_iff, decide_eq_false_iff_not,
    beq_eq_false_iff_ne, UInt8.le_iff_toNat_le, ne_eq, ← UInt8.toNat_inj] at h ⊢
  simp only [UInt8.reduceToNat] at h ⊢
  omega

/-- A number has at least the byte that it starts with, and the digit behind a full stop. -/
theorem lt_numberLength (h : startsNumber b rest = true) :
    (if b = Ascii.dot then 1 else 0) < numberLength (b :: rest) := by
  have hbody : (if b = Ascii.dot then 1 else 0) < numberBody (b :: rest) := by
    unfold numberBody
    cases hhex : hexLength? (b :: rest) with
    | some n =>
        obtain ⟨-, -, -, -, -, rfl⟩ := hexLength?_eq_some_iff.mp hhex
        rw [Option.getD_some]
        split <;> omega
    | none =>
        rw [Option.getD_none]
        unfold decimalLength
        dsimp only
        rcases startsNumber_iff.mp h with hdigit | ⟨rfl, d, more, rfl, hdigit⟩
        · have hdot : b ≠ Ascii.dot := by
            rintro rfl
            cases (show false = true from hdigit)
          have hrun : 0 < runLength Ascii.isDigit (b :: rest) := by
            simp [runLength, hdigit]
          rw [if_neg hdot]
          omega
        · have hdigits : runLength Ascii.isDigit (Ascii.dot :: d :: more) = 0 := rfl
          have hfraction : 1 < fractionLength (Ascii.dot :: d :: more) := by
            have hnone := (not_isWordStart_of_isDigit hdigit).1
            have hdot := (not_isWordStart_of_isDigit hdigit).2
            have hrun : 0 < runLength Ascii.isDigit (d :: more) := by
              simp [runLength, hdigit]
            rw [fractionLength, if_pos (by simp [hnone, hdot])]
            omega
          rw [hdigits, List.drop_zero, if_pos rfl]
          omega
  exact hbody.trans_le (Nat.le_add_right _ _)

/-- A number starts where it did before. -/
theorem startsNumber_append
    (hkept : b = Ascii.dot → startsNumber b (kept ++ behind) = true → kept ≠ [])
    (hnext : Break next) : startsNumber b (kept ++ next) = startsNumber b (kept ++ behind) := by
  cases kept with
  | cons c kept => rfl
  | nil =>
      have hnone : next.head?.any Ascii.isDigit = false := by
        rw [Option.any_eq_false]
        exact hnext.not rfl rfl
      simp only [startsNumber, List.nil_append, hnone, Bool.and_false, Bool.or_false] at hkept ⊢
      cases hdigit : Ascii.isDigit b with
      | true => rfl
      | false =>
          by_contra hne
          simp [hdigit] at hne hkept
          rw [hkept hne.1] at hne
          cases hne.2

/-- The first lexeme where no literal, no comment and no white space starts. -/
theorem first_eq (hline : b ≠ Ascii.lineFeed) (hblank : ¬Ascii.isBlank b = true)
    (hslash : b ≠ Ascii.slash) (hquote : b ≠ Ascii.quote) (hapostrophe : b ≠ Ascii.apostrophe)
    (hhash : b ≠ Ascii.hash) (rest : Bytes) :
    first b rest = if startsNumber b rest then ⟨.number, true, numberLength (b :: rest) - 1⟩
      else if Ascii.isWordStart b then ⟨.identifier, true, runLength Ascii.isWordPart rest⟩
      else operatorAt b rest := by
  rw [first, if_neg hline, if_neg hblank, if_neg hslash, if_neg hquote, if_neg hapostrophe,
    if_neg hhash]
  rfl

/-- **A well-formed lexeme stays as it is** when everything behind some bytes that it does not reach
over is replaced, if no full stop is left alone there. White space and comments to the end of the
line need a line feed behind them. -/
theorem first_append (hvalid : (first b (kept ++ behind)).valid = true)
    (hle : (first b (kept ++ behind)).extra ≤ kept.length)
    (hdot : kept.drop (first b (kept ++ behind)).extra ≠ [Ascii.dot]) (hnext : Break next)
    (htrivia : (first b (kept ++ behind)).kind.isTrivia = true → LineEnd next) :
    first b (kept ++ next) = first b (kept ++ behind) := by
  by_cases hline : b = Ascii.lineFeed
  · subst hline
    rfl
  by_cases hblank : Ascii.isBlank b = true
  · have hequation : ∀ more,
        first b more = ⟨.whitespace, true, runLength Ascii.isBlank more⟩ := by
      intro more
      rw [first, if_neg hline, if_pos hblank]
    rw [hequation] at hle htrivia
    rw [hequation, hequation, runLength_append hle]
    intro c hc
    rw [htrivia rfl c hc]
    rfl
  by_cases hslash : b = Ascii.slash
  · subst hslash
    exact slashAt_append hvalid hle hnext fun hkind => htrivia (by
      rw [show first Ascii.slash (kept ++ behind) = slashAt (kept ++ behind) from rfl, hkind]
      rfl)
  by_cases hquote : b = Ascii.quote
  · subst hquote
    exact quotedAt_append (by decide) hvalid hle
  by_cases hapostrophe : b = Ascii.apostrophe
  · subst hapostrophe
    exact quotedAt_append (by decide) hvalid hle
  by_cases hhash : b = Ascii.hash
  · subst hhash
    rfl
  have hequation := first_eq hline hblank hslash hquote hapostrophe hhash
  rw [hequation] at hle hdot
  rw [hequation, hequation]
  have hstart : startsNumber b (kept ++ next) = startsNumber b (kept ++ behind) := by
    refine startsNumber_append ?_ hnext
    rintro rfl hnumber rfl
    have hlength := lt_numberLength hnumber
    rw [if_pos hnumber] at hle
    dsimp only at hle
    rw [if_pos rfl] at hlength
    rw [List.length_nil] at hle
    omega
  rw [hstart]
  split at hle
  · next hnumber =>
      have hlength := lt_numberLength hnumber
      rw [if_pos hnumber] at hdot
      rw [if_pos hnumber, if_pos hnumber]
      dsimp only at hle hdot
      have hagain := @numberLength_append (b :: kept) behind next
      rw [List.cons_append, List.cons_append, List.length_cons] at hagain
      obtain ⟨n, hn⟩ : ∃ n, numberLength (b :: (kept ++ behind)) = n + 1 :=
        Nat.exists_eq_succ_of_ne_zero (by omega)
      rw [hn] at hagain hle hdot
      rw [hagain (Nat.succ_le_succ hle) hdot hnext, hn]
  · next hnumber =>
      rw [if_neg hnumber, if_neg hnumber]
      split at hle
      · next hword =>
          rw [if_pos hword, if_pos hword, runLength_append hle (hnext.not rfl rfl)]
      · next hword => rw [if_neg hword, if_neg hword, operatorAt_append hle hnext]

end Lexeme

/-! ## No lexeme is longer than the stream -/

/-- A literal goes no further than the stream. -/
theorem quotedTail_le (close : UInt8) (oneLine : Bool) (bytes : Bytes) :
    (quotedTail close oneLine bytes).2 ≤ bytes.length := by
  fun_induction quotedTail close oneLine bytes with
  | case1 | case2 | case4 | case5 => simp
  | case3 c more closed n heq ih | case6 b more hb hclose hline closed n heq ih =>
      rw [heq] at ih
      simpa using ih

/-- A comment goes no further than the stream. -/
theorem commentTail_le (bytes : Bytes) : (commentTail bytes).2 ≤ bytes.length := by
  fun_induction commentTail bytes with
  | case1 => exact Nat.le_refl 0
  | case2 b rest hend =>
      have hrest : rest ≠ [] := by
        rintro rfl
        simp at hend
      have hpos := List.length_pos_iff.mpr hrest
      rw [List.length_cons]
      omega
  | case3 b rest hend closed n heq ih =>
      rw [heq] at ih
      exact Nat.succ_le_succ ih

namespace Lexeme

/-- An operator goes no further than the stream. -/
theorem extra_operatorAt_le (b : UInt8) (rest : Bytes) :
    (operatorAt b rest).extra ≤ rest.length := by
  unfold operatorAt
  split
  · next op hop =>
      have hbegins := List.find?_some hop
      have hle := (List.isPrefixOf_iff_prefix.mp hbegins).length_le
      rw [List.length_cons] at hle
      exact Nat.sub_le_of_le_add hle
  · split
    · exact Nat.zero_le _
    · dsimp only
      split
      · exact runLength_le _ _
      · exact Nat.zero_le _

/-- All of a lexeme is there. -/
theorem extra_first_le (b : UInt8) (rest : Bytes) : (first b rest).extra ≤ rest.length := by
  unfold first
  split
  · exact Nat.zero_le _
  split
  · exact runLength_le _ _
  split
  · unfold slashAt
    split
    · next c more =>
        split
        · have hrun := runLength_le (· != Ascii.lineFeed) more
          rw [List.length_cons]
          dsimp only
          omega
        split
        · have htail := commentTail_le more
          rw [List.length_cons]
          dsimp only
          omega
        · exact extra_operatorAt_le _ _
    · exact extra_operatorAt_le _ _
  split
  · exact quotedTail_le _ _ _
  split
  · exact quotedTail_le _ _ _
  split
  · exact Nat.zero_le _
  split
  · have hnumber := numberLength_le (b :: rest)
    rw [List.length_cons] at hnumber
    exact Nat.sub_le_of_le_add hnumber
  split
  · exact runLength_le _ _
  · exact extra_operatorAt_le _ _

end Lexeme

end Parts

end Token

/-! ## The tokens up to a seam -/

open Token

/-- A lexeme that takes some bytes is the first token of a stream. -/
theorem tokensFrom_cons {b : UInt8} {taken left : Bytes} {kind : Token.Kind} {valid : Bool}
    (h : Lexeme.first b (taken ++ left) = ⟨kind, valid, taken.length⟩) (place : Position) :
    tokensFrom place (b :: (taken ++ left)) =
      ⟨kind, valid, place, b :: taken⟩ :: tokensFrom (place.after (b :: taken)) left := by
  rw [tokensFrom, h]
  dsimp only
  rw [List.take_left, List.drop_left]
  rfl

/-- The first token of a stream is a lexeme that takes some bytes. -/
theorem exists_taken_of_tokensFrom {place : Position} {bytes : Bytes} {t : Token}
    {tokens : List Token} (h : tokensFrom place bytes = t :: tokens) :
    ∃ b taken left, bytes = b :: (taken ++ left) ∧ t = ⟨t.kind, t.valid, place, b :: taken⟩ ∧
      Lexeme.first b (taken ++ left) = ⟨t.kind, t.valid, taken.length⟩ ∧
      tokens = tokensFrom (place.after (b :: taken)) left := by
  cases bytes with
  | nil =>
      rw [tokensFrom] at h
      cases h
  | cons b rest =>
      have hle := Lexeme.extra_first_le b rest
      rw [tokensFrom] at h
      obtain ⟨rfl, rfl⟩ := List.cons.inj h
      refine ⟨b, rest.take (Lexeme.first b rest).extra, rest.drop (Lexeme.first b rest).extra, ?_,
        rfl, ?_, rfl⟩
      · rw [List.take_append_drop]
      · rw [List.take_append_drop, List.length_take_of_le hle]

/-- A well-formed token that is only a full stop is of that kind. -/
theorem kind_of_bytes {place : Position} {bytes : Bytes} {t : Token}
    (ht : t ∈ tokensFrom place bytes) (hvalid : t.valid = true) (hbytes : t.bytes = [Ascii.dot]) :
    t.kind = .dot := by
  obtain ⟨b, rest, hkind, hvalid', htaken⟩ := exists_first_of_mem ht
  rw [hbytes] at htaken
  obtain ⟨rfl, hnone⟩ := List.cons.inj htaken
  have hle : (Lexeme.first Ascii.dot rest).extra ≤ ([] : Bytes).length := by
    have hlength := congrArg List.length hnone
    rw [List.length_take_of_le (Lexeme.extra_first_le _ rest)] at hlength
    exact hlength.symm.le
  have hend : LineEnd [] := fun c hc => nomatch hc
  have halone := @Lexeme.first_append [] rest [] Ascii.dot (hvalid' ▸ hvalid) hle (by simp)
    hend.break fun _ => hend
  rw [hkind]
  exact (congrArg Lexeme.kind halone).symm

/-- Where all bytes of some tokens are one full stop, they are one token of that kind. -/
theorem kind_of_flatMap_bytes {place : Position} {bytes : Bytes} {tokens : List Token}
    (hmem : ∀ t ∈ tokens, t ∈ tokensFrom place bytes) (hvalid : ∀ t ∈ tokens, t.valid = true)
    (hbytes : tokens.flatMap Token.bytes = [Ascii.dot]) : ∃ t ∈ tokens.getLast?, t.kind = .dot := by
  cases hlast : tokens.getLast? with
  | none =>
      rw [List.getLast?_eq_none_iff.mp hlast] at hbytes
      cases hbytes
  | some t =>
      obtain ⟨before, rfl⟩ := List.getLast?_eq_some_iff.mp hlast
      have ht : t ∈ before ++ [t] := by simp
      refine ⟨t, rfl, kind_of_bytes (hmem t ht) (hvalid t ht) ?_⟩
      obtain ⟨b, rest, -, -, hne⟩ := exists_first_of_mem (hmem t ht)
      rw [List.flatMap_append, List.flatMap_singleton] at hbytes
      rcases List.append_eq_singleton_iff.mp hbytes with ⟨-, h⟩ | ⟨-, h⟩
      · exact h
      · rw [hne] at h
        cases h

/-- **The tokens of a stream up to a cut between two of them** stay as they are when what stands
behind the cut is replaced by nothing or by something that starts with a line feed, if they are well
formed and the last one is no full stop. -/
theorem tokensFrom_append {place : Position} {tokens after : List Token} {behind next : Bytes}
    (h : tokensFrom place (tokens.flatMap Token.bytes ++ behind) = tokens ++ after)
    (hvalid : ∀ t ∈ tokens, t.valid = true) (hlast : ∀ t ∈ tokens.getLast?, t.kind ≠ .dot)
    (hnext : LineEnd next) :
    tokensFrom place (tokens.flatMap Token.bytes ++ next) =
      tokens ++ tokensFrom (place.after (tokens.flatMap Token.bytes)) next := by
  induction tokens generalizing place with
  | nil => rfl
  | cons t tokens ih =>
      obtain ⟨hok, hvalid⟩ := List.forall_mem_cons.mp hvalid
      have hlast' : ∀ u ∈ tokens.getLast?, u.kind ≠ .dot := by
        intro u hu
        refine hlast u ?_
        rw [List.getLast?_cons, Option.mem_def.mp hu]
        rfl
      rw [List.flatMap_cons, List.append_assoc] at h
      obtain ⟨b, taken, left, hbytes, ht, hfirst, hbehind⟩ := exists_taken_of_tokensFrom h
      have htaken : t.bytes = b :: taken := by rw [ht]
      rw [htaken, List.cons_append] at hbytes
      obtain rfl := List.append_cancel_left (List.cons.inj hbytes).2
      -- The full stop would be the last one of the tokens.
      have hdot : tokens.flatMap Token.bytes ≠ [Ascii.dot] := by
        intro halone
        have hmem : ∀ u ∈ tokens, u ∈ tokensFrom (place.after (b :: taken))
            (tokens.flatMap Token.bytes ++ behind) := fun u hu => by
          rw [← hbehind]
          exact List.mem_append_left after hu
        obtain ⟨u, hu, hkind⟩ := kind_of_flatMap_bytes hmem hvalid halone
        exact hlast' u hu hkind
      have hagain : Lexeme.first b (taken ++ (tokens.flatMap Token.bytes ++ next)) =
          ⟨t.kind, t.valid, taken.length⟩ := by
        rw [← List.append_assoc] at hfirst ⊢
        rw [← hfirst]
        refine Lexeme.first_append ?_ ?_ ?_ hnext.break fun _ => hnext
        · rw [hfirst, hok]
        · rw [hfirst, List.length_append]
          exact Nat.le_add_right _ _
        · rwa [hfirst, List.drop_left]
      rw [List.flatMap_cons, List.append_assoc, htaken, List.cons_append, tokensFrom_cons hagain,
        ih hbehind.symm hvalid hlast', Position.after_append, List.cons_append, ← ht]

end ZDecl
