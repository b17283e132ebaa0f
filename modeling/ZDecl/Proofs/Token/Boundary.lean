import ZDecl.Proofs.Text.Decoding
import ZDecl.Token.Lexeme

/-!
# Where lexemes end

A stream may hold any bytes, also such as no text has. Still no lexeme ends within a character: it
ends behind an ASCII byte, before a byte that starts something new, or with the stream.

* `Ascii.lt_of_isBlank` and the like: the byte classes of the language are ASCII.
* `quotedTail_end`, `commentTail_end`: a literal or comment ends behind what closes it, or as late
  as it can.
* `ascii_numberLength`: a number is ASCII throughout.
* **`Lexeme.apart_first`**: the cut behind the first lexeme of a stream does no harm to its text.
-/

namespace ZDecl

/-! ## Byte classes are ASCII -/

namespace Ascii

variable {b : UInt8}

/-- A blank is ASCII. -/
theorem lt_of_isBlank (h : isBlank b = true) : b < 0x80 := by
  simp only [isBlank, Bool.or_eq_true, beq_iff_eq] at h
  rcases h with (((rfl | rfl) | rfl) | rfl) | rfl <;> decide

/-- A digit is ASCII. -/
theorem lt_of_isDigit (h : isDigit b = true) : b < 0x80 := by
  simp only [isDigit, Bool.and_eq_true, decide_eq_true_eq] at h
  exact UInt8.lt_of_le_of_lt h.2 (by decide)

/-- A letter is ASCII. -/
theorem lt_of_isLetter (h : isLetter b = true) : b < 0x80 := by
  simp only [isLetter, Bool.or_eq_true, Bool.and_eq_true, decide_eq_true_eq] at h
  rcases h with h | h
  · exact UInt8.lt_of_le_of_lt h.2 (by decide)
  · exact UInt8.lt_of_le_of_lt h.2 (by decide)

/-- A hexadecimal digit is ASCII. -/
theorem lt_of_isHexDigit (h : isHexDigit b = true) : b < 0x80 := by
  simp only [isHexDigit, Bool.or_eq_true, Bool.and_eq_true, decide_eq_true_eq] at h
  rcases h with (h | h) | h
  · exact lt_of_isDigit h
  · exact UInt8.lt_of_le_of_lt h.2 (by decide)
  · exact UInt8.lt_of_le_of_lt h.2 (by decide)

/-- What starts a word is ASCII. -/
theorem lt_of_isWordStart (h : isWordStart b = true) : b < 0x80 := by
  simp only [isWordStart, Bool.or_eq_true, beq_iff_eq] at h
  rcases h with h | rfl
  · exact lt_of_isLetter h
  · decide

/-- What a word consists of is ASCII. -/
theorem lt_of_isWordPart (h : isWordPart b = true) : b < 0x80 := by
  simp only [isWordPart, Bool.or_eq_true] at h
  exact h.elim lt_of_isWordStart lt_of_isDigit

end Ascii

namespace Token

/-! ## Runs -/

variable {p : UInt8 → Bool} {bytes : Bytes}

/-- The bytes of a run. -/
theorem take_runLength (p : UInt8 → Bool) (bytes : Bytes) :
    bytes.take (runLength p bytes) = bytes.takeWhile p :=
  (List.prefix_iff_eq_take.mp (List.takeWhile_prefix p)).symm

/-- What stands behind a run. -/
theorem drop_runLength (p : UInt8 → Bool) (bytes : Bytes) :
    bytes.drop (runLength p bytes) = bytes.dropWhile p := by
  have h := List.take_append_drop (runLength p bytes) bytes
  rw [take_runLength] at h
  exact List.append_cancel_left (h.trans List.takeWhile_append_dropWhile.symm)

/-- A run ends before a byte that does not belong to it. -/
theorem head?_drop_runLength {b : UInt8} (h : (bytes.drop (runLength p bytes)).head? = some b) :
    p b = false := by
  have hnot := List.head?_dropWhile_not p bytes
  rw [← drop_runLength, h] at hnot
  exact hnot

/-! ## ASCII beginnings -/

/-- Are the first `n` bytes ASCII? -/
def AsciiUpTo (n : Nat) (bytes : Bytes) : Prop := ∀ b ∈ bytes.take n, b < 0x80

/-- No bytes are ASCII. -/
theorem asciiUpTo_zero (bytes : Bytes) : AsciiUpTo 0 bytes := by simp [AsciiUpTo]

/-- Two ASCII stretches, one behind the other. -/
theorem AsciiUpTo.add {m n : Nat} (hm : AsciiUpTo m bytes) (hn : AsciiUpTo n (bytes.drop m)) :
    AsciiUpTo (m + n) bytes := by
  intro b hb
  rw [List.take_add] at hb
  exact (List.mem_append.mp hb).elim (hm b) (hn b)

/-- One more byte is ASCII in front of ASCII. -/
theorem AsciiUpTo.cons {n : Nat} {b : UInt8} (hb : b < 0x80) (h : AsciiUpTo n bytes) :
    AsciiUpTo (n + 1) (b :: bytes) := by
  intro c hc
  rw [List.take_succ_cons] at hc
  rcases List.mem_cons.mp hc with rfl | hc
  · exact hb
  · exact h c hc

/-- A run of ASCII bytes. -/
theorem asciiUpTo_runLength (hp : ∀ b, p b = true → b < 0x80) (bytes : Bytes) :
    AsciiUpTo (runLength p bytes) bytes := by
  intro b hb
  rw [take_runLength] at hb
  exact hp b (List.mem_takeWhile_imp hb)

/-- A lexeme that is ASCII throughout. -/
theorem AsciiUpTo.apart {n : Nat} {b : UInt8} {rest : Bytes} (hb : b < 0x80)
    (h : AsciiUpTo n rest) (right : Bytes) : Utf8.Apart (b :: rest.take n) right := by
  left
  intro c hc
  rcases List.mem_cons.mp (List.mem_of_getLast? hc) with rfl | hc
  · exact hb
  · exact h c hc

/-! ## Literals and comments -/

/-- **How a quoted literal ends**: behind its closing quote, or, if it has none, before a line feed
if it is on one line and with the stream otherwise. -/
theorem quotedTail_end (close : UInt8) (oneLine : Bool) (bytes : Bytes) :
    ((quotedTail close oneLine bytes).1 = true →
        (bytes.take (quotedTail close oneLine bytes).2).getLast? = some close) ∧
      ((quotedTail close oneLine bytes).1 = false →
        ∀ b ∈ (bytes.drop (quotedTail close oneLine bytes).2).head?, b = Ascii.lineFeed) := by
  have hlast : ∀ (b : UInt8) {left : Bytes} {c : UInt8}, left.getLast? = some c →
      (b :: left).getLast? = some c := by
    intro b left c h
    rw [List.getLast?_cons, h, Option.getD_some]
  fun_induction quotedTail close oneLine bytes with
  | case1 => simp
  | case2 => simp
  | case3 c more closed n heq ih =>
      rw [heq] at ih
      exact ⟨fun h => hlast _ (hlast _ (ih.1 h)), ih.2⟩
  | case4 rest hb => simp
  | case5 b rest hb hclose hline =>
      simp only [Bool.and_eq_true, decide_eq_true_eq] at hline
      simp [hline.2]
  | case6 b rest hb hclose hline closed n heq ih =>
      rw [heq] at ih
      exact ⟨fun h => hlast _ (ih.1 h), ih.2⟩

/-- **How a block comment ends**: behind the slash that closes it, or with the stream. -/
theorem commentTail_end (bytes : Bytes) :
    ((commentTail bytes).1 = true →
        (bytes.take (commentTail bytes).2).getLast? = some Ascii.slash) ∧
      ((commentTail bytes).1 = false → bytes.drop (commentTail bytes).2 = []) := by
  fun_induction commentTail bytes with
  | case1 => simp
  | case2 b rest h =>
      simp only [Bool.and_eq_true, decide_eq_true_eq] at h
      obtain ⟨more, rfl⟩ := List.head?_eq_some_iff.mp h.2
      simp
  | case3 b rest h closed n heq ih =>
      rw [heq] at ih
      refine ⟨fun hclosed => ?_, ih.2⟩
      rw [List.take_succ_cons, List.getLast?_cons, ih.1 hclosed, Option.getD_some]

/-! ## Numbers -/

/-- A letter behind a number is ASCII. -/
theorem lt_of_isNumberSuffix {b : UInt8} (h : isNumberSuffix b = true) : b < 0x80 := by
  simp only [isNumberSuffix, Bool.or_eq_true, beq_iff_eq] at h
  rcases h with ((((rfl | rfl) | rfl) | rfl) | rfl) | rfl <;> decide

/-- A hexadecimal number is ASCII. -/
theorem ascii_hexLength? {n : Nat} (h : hexLength? bytes = some n) : AsciiUpTo n bytes := by
  unfold hexLength? at h
  split at h
  · next b x rest =>
      split at h
      · next hx =>
          simp only [Bool.and_eq_true, Bool.or_eq_true, decide_eq_true_eq] at hx
          obtain rfl := Option.some.inj h
          obtain ⟨rfl, hx⟩ := hx
          have hx' : x < 0x80 := by
            rcases hx with rfl | rfl <;> decide
          have hrun := asciiUpTo_runLength (fun _ => Ascii.lt_of_isHexDigit) rest
          rw [Nat.add_comm]
          exact (hrun.cons hx').cons (by decide)
      · cases h
  · cases h

/-- A fraction is ASCII. -/
theorem ascii_fractionLength (bytes : Bytes) : AsciiUpTo (fractionLength bytes) bytes := by
  unfold fractionLength
  split
  · next b rest =>
      split
      · next hb =>
          simp only [Bool.and_eq_true, decide_eq_true_eq] at hb
          obtain ⟨rfl, -⟩ := hb
          rw [Nat.add_comm]
          exact (asciiUpTo_runLength (fun _ => Ascii.lt_of_isDigit) rest).cons (by decide)
      · exact asciiUpTo_zero _
  · exact asciiUpTo_zero _

/-- An exponent is ASCII. -/
theorem ascii_exponentLength (bytes : Bytes) : AsciiUpTo (exponentLength bytes) bytes := by
  unfold exponentLength
  split
  · next e c rest =>
      have hrun := asciiUpTo_runLength (fun _ => Ascii.lt_of_isDigit) rest
      split
      · next he =>
          have he' : e < 0x80 := by
            simp only [Bool.or_eq_true, decide_eq_true_eq] at he
            rcases he with rfl | rfl <;> decide
          rw [Nat.add_comm 2]
          split
          · next hc => exact (hrun.cons (Ascii.lt_of_isDigit hc)).cons he'
          · split
            · next hc =>
                simp only [Bool.and_eq_true, Bool.or_eq_true, decide_eq_true_eq] at hc
                have hc' : c < 0x80 := by
                  rcases hc.1 with rfl | rfl <;> decide
                exact (hrun.cons hc').cons he'
            · exact asciiUpTo_zero _
      · exact asciiUpTo_zero _
  · exact asciiUpTo_zero _

/-- A decimal number is ASCII. -/
theorem ascii_decimalLength (bytes : Bytes) : AsciiUpTo (decimalLength bytes) bytes := by
  have hdigits := asciiUpTo_runLength (fun _ => Ascii.lt_of_isDigit) bytes
  exact (hdigits.add (ascii_fractionLength _)).add (ascii_exponentLength _)

/-- **A number is ASCII** throughout. -/
theorem ascii_numberLength (bytes : Bytes) : AsciiUpTo (numberLength bytes) bytes := by
  have hbody : AsciiUpTo ((hexLength? bytes).getD (decimalLength bytes)) bytes := by
    cases h : hexLength? bytes with
    | none => exact ascii_decimalLength bytes
    | some n => exact ascii_hexLength? h
  exact hbody.add (asciiUpTo_runLength (fun _ => lt_of_isNumberSuffix) _)

/-! ## Operators -/

/-- Operators are ASCII and not empty. -/
theorem ascii_operators : ∀ op ∈ operators, op ≠ [] ∧ ∀ b ∈ op, b < 0x80 := by
  decide +kernel

/-- A punctuation mark is ASCII. -/
theorem lt_of_punctuation? {b : UInt8} {kind : Kind} (h : punctuation? b = some kind) :
    b < 0x80 := by
  have hplain : ∀ b ∈ plainOperators, b < 0x80 := by
    decide +kernel
  unfold punctuation? at h
  iterate 9
    split at h
    · next hb =>
        subst hb
        decide
  split at h
  · next hcontains => exact hplain b (List.contains_iff_mem.mp hcontains)
  · cases h

/-! ## The first lexeme -/

namespace Lexeme

/-- Does the text of the stream `b :: rest` take no harm from a cut behind a lexeme of this
shape? -/
def EndsApart (b : UInt8) (rest : Bytes) (shape : Lexeme) : Prop :=
  Utf8.Apart (b :: rest.take shape.extra) (rest.drop shape.extra)

/-- A cut behind an operator does the text no harm. -/
theorem apart_operatorAt (b : UInt8) (rest : Bytes) : EndsApart b rest (operatorAt b rest) := by
  unfold EndsApart operatorAt
  split
  · next op hop =>
      obtain ⟨hne, hascii⟩ := ascii_operators op (List.mem_of_find?_eq_some hop)
      have hprefix : op <+: b :: rest := by
        have hfound := List.find?_some hop
        exact List.isPrefixOf_iff_prefix.mp hfound
      have hlength : op.length = op.length - 1 + 1 := by
        have hpos := List.length_pos_iff.mpr hne
        omega
      have hop' : b :: rest.take (op.length - 1) = op := by
        rw [← List.take_succ_cons, ← hlength]
        exact (List.prefix_iff_eq_take.mp hprefix).symm
      left
      intro c hc
      dsimp only at hc
      rw [hop'] at hc
      exact hascii c (List.mem_of_getLast? hc)
  · split
    · next kind hkind =>
        exact (asciiUpTo_zero rest).apart (lt_of_punctuation? hkind) _
    · by_cases hb : 0x80 ≤ b
      · right
        intro c hc
        rw [if_pos hb] at hc
        exact head?_drop_runLength hc
      · rw [if_neg hb]
        exact (asciiUpTo_zero rest).apart (UInt8.not_le.mp hb) _

/-- A cut behind a literal does the text no harm. -/
theorem apart_quotedAt (kind : Kind) {close : UInt8} (hclose : close < 0x80) (oneLine : Bool)
    (b : UInt8) (rest : Bytes) : EndsApart b rest (quotedAt kind close oneLine rest) := by
  obtain ⟨hclosed, hopen⟩ := quotedTail_end close oneLine rest
  cases h : (quotedTail close oneLine rest).1 with
  | true =>
      refine Utf8.apart_of_getLast? ?_ hclose _
      show (b :: rest.take (quotedTail close oneLine rest).2).getLast? = some close
      rw [List.getLast?_cons, hclosed h, Option.getD_some]
  | false =>
      right
      intro c hc
      rw [hopen h c hc]
      decide

/-- A cut behind a comment, or the operator in its place, does the text no harm. -/
theorem apart_slashAt (rest : Bytes) : EndsApart Ascii.slash rest (slashAt rest) := by
  unfold slashAt
  split
  · next c more =>
      split
      · -- A comment to the end of the line ends before the line feed.
        right
        intro d hd
        have hhead : (more.drop (runLength (· != Ascii.lineFeed) more)).head? = some d := by
          rwa [Nat.add_comm] at hd
        have hnot := head?_drop_runLength hhead
        obtain rfl : d = Ascii.lineFeed := by simpa using hnot
        decide
      · split
        · obtain ⟨hclosed, hopen⟩ := commentTail_end more
          unfold EndsApart
          dsimp only
          rw [Nat.add_comm, List.take_succ_cons, List.drop_succ_cons]
          cases h : (commentTail more).1 with
          | true =>
              refine Utf8.apart_of_getLast? (b := Ascii.slash) ?_ (by decide) _
              rw [List.getLast?_cons, List.getLast?_cons, hclosed h]
              rfl
          | false =>
              rw [hopen h]
              exact Utf8.apart_nil_right _
        · exact apart_operatorAt Ascii.slash _
  · exact apart_operatorAt Ascii.slash _

/-- **No lexeme ends within a character**: the cut behind the first lexeme of a stream does no harm
to its text, whatever the bytes of the stream. -/
theorem apart_first (b : UInt8) (rest : Bytes) : EndsApart b rest (first b rest) := by
  unfold first
  split
  · next hb =>
      subst hb
      exact (asciiUpTo_zero rest).apart (by decide) _
  split
  · next hb =>
      exact (asciiUpTo_runLength (fun _ => Ascii.lt_of_isBlank) rest).apart
        (Ascii.lt_of_isBlank hb) _
  split
  · next hb =>
      subst hb
      exact apart_slashAt rest
  split
  · exact apart_quotedAt _ (by decide) _ b rest
  split
  · exact apart_quotedAt _ (by decide) _ b rest
  split
  · next hb =>
      subst hb
      exact (asciiUpTo_zero rest).apart (by decide) _
  split
  · next hb =>
      have hlt : b < 0x80 := by
        simp only [Bool.or_eq_true, Bool.and_eq_true, decide_eq_true_eq] at hb
        rcases hb with hb | ⟨rfl, -⟩
        · exact Ascii.lt_of_isDigit hb
        · decide
      have hnumber := ascii_numberLength (b :: rest)
      have hrest : AsciiUpTo (numberLength (b :: rest) - 1) rest := by
        cases hn : numberLength (b :: rest) with
        | zero => exact asciiUpTo_zero rest
        | succ n =>
            intro c hc
            rw [hn] at hnumber
            exact hnumber c (List.mem_cons_of_mem b hc)
      exact hrest.apart hlt _
  split
  · next hb =>
      exact (asciiUpTo_runLength (fun _ => Ascii.lt_of_isWordPart) rest).apart
        (Ascii.lt_of_isWordStart hb) _
  · exact apart_operatorAt b rest

end Lexeme

end Token

end ZDecl
