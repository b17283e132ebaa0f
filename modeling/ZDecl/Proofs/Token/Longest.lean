import ZDecl.Proofs.Token.Endings
import ZDecl.Proofs.Token.Numbers

/-!
# The longest token wins

Where white space, comments, literals and number signs are out of the way, a stream goes on with a
word, a number, an operator, or a byte that belongs to none of them. Each of these is as long as it
can be: no longer beginning of the stream is one too.

* `IsLongest`: the longest beginning of a stream among those allowed.
* `operatorKind?`, `IsOperator`: the texts of operators and punctuation marks, with their kinds.
* `StartsPlain`, `StartsNumber`: the places this is about, and those where a number starts.
* `Lexeme.first_of_startsPlain`: which scanner decides there.
* `find?_operators_isLongest`: the table of operators is in an order that finds the longest.
* `Token.Munches`: what is said of a token by the bytes from its start on.
* **`tokens_are_longest`**: every token of a stream that starts at such a place is the longest.
-/

namespace ZDecl

namespace Token

/-! ## Longest beginnings -/

/-- Is this the longest beginning of the stream among those that may stand before their rest? -/
structure IsLongest (allowed : Bytes → Bytes → Prop) (bytes w : Bytes) : Prop where
  /-- It is a beginning, and it is allowed. -/
  holds : ∃ rest, bytes = w ++ rest ∧ allowed w rest
  /-- No other one is longer. -/
  longest : ∀ w' rest, bytes = w' ++ rest → allowed w' rest → w'.length ≤ w.length

/-- The kind of an operator or a punctuation mark. -/
def operatorKind? (w : Bytes) : Option Kind :=
  match w with
  | [b] => punctuation? b
  | _ => if w ∈ operators then some .operator else none

/-- Is this one of the operators or punctuation marks? -/
def IsOperator (w : Bytes) : Prop := ∃ kind, operatorKind? w = some kind

/-- Does none of these start here: white space, a comment, a literal, a number sign? -/
structure StartsPlain (bytes : Bytes) : Prop where
  /-- The first byte is no white space, no quote and no number sign. -/
  byte : ∀ b ∈ bytes.head?, b ≠ Ascii.lineFeed ∧ ¬Ascii.isBlank b = true ∧ b ≠ Ascii.quote ∧
    b ≠ Ascii.apostrophe ∧ b ≠ Ascii.hash
  /-- No comment to the end of the line starts here. -/
  line : ¬[Ascii.slash, Ascii.slash] <+: bytes
  /-- No block comment starts here. -/
  block : ¬[Ascii.slash, Ascii.star] <+: bytes

/-- Does a number start here: a digit, or a full stop before a digit? -/
def StartsNumber (bytes : Bytes) : Prop :=
  (∃ d ∈ bytes.head?, Ascii.isDigit d = true) ∨
    ∃ d more, bytes = Ascii.dot :: d :: more ∧ Ascii.isDigit d = true

/-! ## Which scanner decides -/

namespace Lexeme

variable {b : UInt8} {rest : Bytes}

/-- The scanner takes for a number what starts like one. -/
theorem startsNumber_iff_startsNumber :
    startsNumber b rest = true ↔ StartsNumber (b :: rest) := by
  rw [startsNumber_iff]
  refine or_congr (by simp) ⟨?_, ?_⟩
  · rintro ⟨rfl, d, more, rfl, hd⟩
    exact ⟨d, more, rfl, hd⟩
  · rintro ⟨d, more, heq, hd⟩
    obtain ⟨rfl, rfl⟩ := List.cons.inj heq
    exact ⟨rfl, d, more, rfl, hd⟩

/-- A slash that opens no comment is an operator. -/
theorem slashAt_eq (hline : ¬[Ascii.slash, Ascii.slash] <+: Ascii.slash :: rest)
    (hblock : ¬[Ascii.slash, Ascii.star] <+: Ascii.slash :: rest) :
    slashAt rest = operatorAt Ascii.slash rest := by
  cases rest with
  | nil => rfl
  | cons c more =>
      have hc : c ≠ Ascii.slash ∧ c ≠ Ascii.star := by
        constructor
        · rintro rfl
          exact hline ⟨more, rfl⟩
        · rintro rfl
          exact hblock ⟨more, rfl⟩
      rw [slashAt, if_neg hc.1, if_neg hc.2]

/-- What is neither blank, quoted nor a comment is a number, a word or an operator. -/
theorem first_of_startsPlain (h : StartsPlain (b :: rest)) :
    first b rest = if startsNumber b rest then ⟨.number, true, numberLength (b :: rest) - 1⟩
      else if Ascii.isWordStart b then ⟨.identifier, true, runLength Ascii.isWordPart rest⟩
      else operatorAt b rest := by
  obtain ⟨hline, hblank, hquote, hapostrophe, hhash⟩ := h.byte b rfl
  by_cases hslash : b = Ascii.slash
  · subst hslash
    exact slashAt_eq h.line h.block
  · exact first_eq hline hblank hslash hquote hapostrophe hhash rest

end Lexeme

/-! ## Operators -/

/-- The table has the longer operators first, and all of them have more than one byte. -/
theorem operators_sorted :
    operators.Pairwise (fun op other => other.length ≤ op.length) ∧
      ∀ op ∈ operators, 2 ≤ op.length := by
  decide

/-- The scanner knows every operator of the list. -/
theorem operatorKind?_of_mem {op : Bytes} (h : op ∈ operators) :
    operatorKind? op = some .operator := by
  have htwo := operators_sorted.2 op h
  unfold operatorKind?
  split
  · cases Nat.not_succ_le_self 1 htwo
  · rw [if_pos h]

/-- The operators of more than one byte are those of the table. -/
theorem mem_or_of_isOperator {w : Bytes} (h : IsOperator w) :
    w ∈ operators ∨ ∃ b kind, punctuation? b = some kind ∧ w = [b] := by
  obtain ⟨kind, h⟩ := h
  unfold operatorKind? at h
  split at h
  · next b => exact .inr ⟨b, kind, h, rfl⟩
  · split at h
    · next hmem => exact .inl hmem
    · cases h

/-- **The table finds the longest operator** that a stream starts with. -/
theorem find?_operators_isLongest {bytes op : Bytes}
    (h : operators.find? (·.isPrefixOf bytes) = some op) :
    IsLongest (fun w _ => IsOperator w) bytes op := by
  obtain ⟨hbegins, before, after, hall, hbefore⟩ := List.find?_eq_some_iff_append.mp h
  obtain ⟨rest, hrest⟩ := List.isPrefixOf_iff_prefix.mp hbegins
  have hmem : op ∈ operators := List.mem_of_find?_eq_some h
  refine ⟨⟨rest, hrest.symm, _, operatorKind?_of_mem hmem⟩, fun w rest' hw hoperator => ?_⟩
  rcases mem_or_of_isOperator hoperator with hlong | ⟨b, _, -, rfl⟩
  · have hsorted := operators_sorted.1
    rw [hall] at hsorted hlong
    rcases List.mem_append.mp hlong with hin | hin
    · have hno := hbefore w hin
      rw [List.isPrefixOf_iff_prefix.mpr ⟨rest', hw.symm⟩] at hno
      cases hno
    · rcases List.mem_cons.mp hin with rfl | hin
      · exact Nat.le_refl _
      · exact List.rel_of_pairwise_cons (List.pairwise_append.mp hsorted).2.1 hin
  · exact Nat.le_of_succ_le (operators_sorted.2 op hmem)

/-- Where the table finds nothing, none of its operators starts. -/
theorem forall_not_prefix_of_find? {bytes : Bytes}
    (h : operators.find? (·.isPrefixOf bytes) = none) : ∀ op ∈ operators, ¬op <+: bytes := by
  intro op hop hbegins
  exact List.find?_eq_none.mp h op hop (List.isPrefixOf_iff_prefix.mpr hbegins)

/-- A byte that no longer operator starts with is the longest operator on its own. -/
theorem singleton_isLongest {b : UInt8} {rest : Bytes} {kind : Kind}
    (hnone : ∀ op ∈ operators, ¬op <+: b :: rest) (hkind : punctuation? b = some kind) :
    IsLongest (fun w _ => IsOperator w) (b :: rest) [b] := by
  refine ⟨⟨rest, rfl, kind, hkind⟩, fun w rest' hw hoperator => ?_⟩
  rcases mem_or_of_isOperator hoperator with hlong | ⟨_, _, -, rfl⟩
  · exact absurd ⟨rest', hw.symm⟩ (hnone w hlong)
  · exact Nat.le_refl 1

/-- The byte of a mark that has a kind of its own. -/
def mark : Kind → UInt8
  | .openParen => 0x28
  | .closeParen => 0x29
  | .openCurly => 0x7B
  | .closeCurly => 0x7D
  | .semicolon => 0x3B
  | .comma => 0x2C
  | .colon => 0x3A
  | .assign => 0x3D
  | _ => Ascii.dot

/-- What is known of a byte that is a mark. -/
structure IsMark (b : UInt8) (kind : Kind) : Prop where
  /-- Its kind is not that of words. -/
  ne_identifier : kind ≠ .identifier
  /-- Its kind is not that of numbers. -/
  ne_number : kind ≠ .number
  /-- It starts no word. -/
  startsNoWord : Ascii.isWordStart b = false
  /-- No two bytes share a kind other than that of all operators without one of their own. -/
  eq_mark : kind ≠ .operator → b = mark kind

/-- The scanner takes for punctuation only marks of that kind. -/
theorem isMark_of_punctuation? {b : UInt8} {kind : Kind} (h : punctuation? b = some kind) :
    IsMark b kind := by
  have hall : ∀ n < 256, ∀ kind ∈ punctuation? (UInt8.ofNat n),
      kind ≠ .identifier ∧ kind ≠ .number ∧ Ascii.isWordStart (UInt8.ofNat n) = false ∧
        (kind ≠ .operator → UInt8.ofNat n = mark kind) := by
    decide +kernel
  have hb := hall b.toNat b.toNat_lt
  rw [UInt8.ofNat_toNat] at hb
  obtain ⟨hidentifier, hnumber, hstart, hmark⟩ := hb kind h
  exact ⟨hidentifier, hnumber, hstart, hmark⟩

/-! ## What is said of a token -/

/-- What is said of a token by the bytes from its start on, where white space, comments, literals
and number signs are out of the way. -/
structure Munches (t : Token) (bytes : Bytes) : Prop where
  /-- Words are where a letter or an underscore starts. -/
  startsWord : t.kind = .identifier ↔ ∃ b ∈ bytes.head?, Ascii.isWordStart b = true
  /-- They are as long as can be. -/
  word : t.kind = .identifier →
    t.valid = true ∧ IsLongest (fun w _ => w ∈ words) bytes t.bytes
  /-- Numbers are where a digit starts, or a full stop before a digit. -/
  startsNumber : t.kind = .number ↔ StartsNumber bytes
  /-- They are as long as can be. -/
  number : t.kind = .number → t.valid = true ∧ IsLongest IsNumber bytes t.bytes
  /-- Anywhere else, if an operator starts here, the longest one is taken, and its kind is the one
  it has in the tables. -/
  operator : t.kind ≠ .identifier → t.kind ≠ .number → (∃ op, IsOperator op ∧ op <+: bytes) →
    t.valid = true ∧ IsLongest (fun w _ => IsOperator w) bytes t.bytes ∧
      operatorKind? t.bytes = some t.kind
  /-- If none does, the token is ill formed. -/
  nothing : t.kind ≠ .identifier → t.kind ≠ .number → (∀ op, IsOperator op → ¬op <+: bytes) →
    t.valid = false ∧ t.kind = .operator
  /-- A mark with a kind of its own stands alone exactly where it comes first and no longer operator
  starts. A full stop before a digit is not alone. -/
  alone : ∀ b kind, punctuation? b = some kind → kind ≠ .operator →
    (t.kind = kind ↔ b ∈ bytes.head? ∧ ¬StartsNumber bytes ∧ ∀ op ∈ operators, ¬op <+: bytes)

namespace StartsStream

variable {t : Token} {b : UInt8} {rest : Bytes}

/-- Where a digit or a full stop before a digit comes first. -/
theorem munches_number (h : t.StartsStream b rest) (hplain : StartsPlain (b :: rest))
    (hnumber : Lexeme.startsNumber b rest = true) : t.Munches (b :: rest) := by
  have hstarts := Lexeme.startsNumber_iff_startsNumber.mp hnumber
  obtain ⟨hkind, hvalid, hbytes⟩ := h
  rw [Lexeme.first_of_startsPlain hplain, if_pos hnumber] at hkind hvalid hbytes
  dsimp only at hkind hvalid hbytes
  have hword : ¬∃ b' ∈ (b :: rest).head?, Ascii.isWordStart b' = true := by
    rintro ⟨c, hc, hword⟩
    obtain rfl := Option.some.inj hc
    rcases Lexeme.startsNumber_iff.mp hnumber with hdigit | ⟨rfl, -⟩
    · rw [(Lexeme.not_isWordStart_of_isDigit hdigit).1] at hword
      cases hword
    · cases hword
  have hlength : 0 < numberLength (b :: rest) :=
    Nat.zero_lt_of_lt (Lexeme.lt_numberLength hnumber)
  have htaken : t.bytes = (b :: rest).take (numberLength (b :: rest)) := by
    rw [hbytes, ← List.take_succ_cons, Nat.sub_add_cancel hlength]
  have hidentifier : t.kind ≠ .identifier := by
    rw [hkind]
    decide
  have hlongest : IsLongest IsNumber (b :: rest) t.bytes := by
    rw [htaken]
    refine ⟨⟨_, (List.take_append_drop ..).symm, isNumber_take_numberLength _⟩, ?_⟩
    intro w more hw hallowed
    rw [List.length_take_of_le (numberLength_le _), hw]
    exact hallowed.length_le
  exact {
    startsWord := iff_of_false hidentifier hword
    word := fun h => absurd h hidentifier
    startsNumber := iff_of_true hkind hstarts
    number := fun _ => ⟨hvalid, hlongest⟩
    operator := fun _ hno => absurd hkind hno
    nothing := fun _ hno => absurd hkind hno
    alone := fun c kind hc _ =>
      iff_of_false (hkind ▸ (isMark_of_punctuation? hc).ne_number.symm) fun h => h.2.1 hstarts }

/-- Where a letter or an underscore comes first. -/
theorem munches_word (h : t.StartsStream b rest) (hplain : StartsPlain (b :: rest))
    (hnumber : ¬Lexeme.startsNumber b rest = true) (hword : Ascii.isWordStart b = true) :
    t.Munches (b :: rest) := by
  obtain ⟨hkind, hvalid, hbytes⟩ := h
  rw [Lexeme.first_of_startsPlain hplain, if_neg hnumber, if_pos hword] at hkind hvalid hbytes
  dsimp only at hkind hvalid hbytes
  have hstarts : ¬StartsNumber (b :: rest) := mt Lexeme.startsNumber_iff_startsNumber.mpr hnumber
  have hgreedy := greedy_runLength Ascii.isWordPart
  have hnumeral : t.kind ≠ .number := by
    rw [hkind]
    decide
  have hlongest : IsLongest (fun w _ => w ∈ words) (b :: rest) t.bytes := by
    rw [hbytes]
    refine ⟨⟨rest.drop (runLength Ascii.isWordPart rest), ?_, ?_⟩, ?_⟩
    · rw [List.cons_append, List.take_append_drop]
    · exact mem_words.mpr ⟨b, _, hword, hgreedy.takes rest, rfl⟩
    · intro w more hw hallowed
      obtain ⟨c, u, -, hu, rfl⟩ := mem_words.mp hallowed
      rw [(List.cons.inj hw).2, List.length_cons, List.length_cons,
        List.length_take_of_le (runLength_le ..)]
      exact Nat.succ_le_succ (hgreedy.length_le hu)
  have hno_mark : ∀ c kind, punctuation? c = some kind → c ∉ (b :: rest).head? := by
    intro c kind hc h
    obtain rfl := Option.some.inj h
    rw [(isMark_of_punctuation? hc).startsNoWord] at hword
    cases hword
  exact {
    startsWord := iff_of_true hkind ⟨b, rfl, hword⟩
    word := fun _ => ⟨hvalid, hlongest⟩
    startsNumber := iff_of_false hnumeral hstarts
    number := fun h => absurd h hnumeral
    operator := fun hno => absurd hkind hno
    nothing := fun hno => absurd hkind hno
    alone := fun c kind hc _ => iff_of_false
      (hkind ▸ (isMark_of_punctuation? hc).ne_identifier.symm) fun h => hno_mark c kind hc h.1 }

section Elsewhere

variable (hfirst : Lexeme.first b rest = Lexeme.operatorAt b rest)
  (hnumber : ¬StartsNumber (b :: rest))
  (hword : ¬∃ c ∈ (b :: rest).head?, Ascii.isWordStart c = true)
include hfirst hnumber hword

/-- An operator of more than one byte. -/
theorem munches_long (h : t.StartsStream b rest) {op : Bytes}
    (hfind : operators.find? (·.isPrefixOf (b :: rest)) = some op) : t.Munches (b :: rest) := by
  obtain ⟨hkind, hvalid, hbytes⟩ := h
  rw [hfirst, Lexeme.operatorAt, hfind] at hkind hvalid hbytes
  dsimp only at hkind hvalid hbytes
  have hmem : op ∈ operators := List.mem_of_find?_eq_some hfind
  have hlongest := find?_operators_isLongest hfind
  have hbegins : op <+: b :: rest := by
    obtain ⟨more, hmore, -⟩ := hlongest.holds
    exact ⟨more, hmore.symm⟩
  have htaken : t.bytes = op := by
    have htwo := operators_sorted.2 op hmem
    rw [hbytes, ← List.take_succ_cons, Nat.sub_add_cancel (by omega)]
    exact (List.prefix_iff_eq_take.mp hbegins).symm
  have hneither : t.kind ≠ .identifier ∧ t.kind ≠ .number := by
    rw [hkind]
    decide
  exact {
    startsWord := iff_of_false hneither.1 hword
    word := fun h => absurd h hneither.1
    startsNumber := iff_of_false hneither.2 hnumber
    number := fun h => absurd h hneither.2
    operator := fun _ _ _ => by
      rw [htaken, hkind]
      exact ⟨hvalid, hlongest, operatorKind?_of_mem hmem⟩
    nothing := fun _ _ hnone => absurd hbegins (hnone op ⟨_, operatorKind?_of_mem hmem⟩)
    alone := fun c kind _ hne =>
      iff_of_false (hkind ▸ hne.symm) fun h => h.2.2 op hmem hbegins }

/-- A mark of one byte that no longer operator starts with. -/
theorem munches_mark (h : t.StartsStream b rest) {kind : Kind}
    (hfind : operators.find? (·.isPrefixOf (b :: rest)) = none)
    (hmark : punctuation? b = some kind) : t.Munches (b :: rest) := by
  obtain ⟨hkind, hvalid, hbytes⟩ := h
  rw [hfirst, Lexeme.operatorAt, hfind] at hkind hvalid hbytes
  dsimp only at hkind hvalid hbytes
  rw [hmark] at hkind hvalid hbytes
  dsimp only at hkind hvalid hbytes
  rw [List.take_zero] at hbytes
  have hnone := forall_not_prefix_of_find? hfind
  obtain ⟨hidentifier, hnumeral, -, heq⟩ := isMark_of_punctuation? hmark
  have halone : ∀ c kind', punctuation? c = some kind' → kind' ≠ .operator →
      (t.kind = kind' ↔ c ∈ (b :: rest).head? ∧ ¬StartsNumber (b :: rest) ∧
        ∀ op ∈ operators, ¬op <+: b :: rest) := by
    intro c kind' hc hne
    rw [hkind]
    constructor
    · rintro rfl
      have hb : b = c := (heq hne).trans ((isMark_of_punctuation? hc).eq_mark hne).symm
      exact ⟨congrArg some hb, hnumber, hnone⟩
    · rintro ⟨hb, -⟩
      rw [Option.some.inj hb, hc] at hmark
      exact (Option.some.inj hmark).symm
  exact {
    startsWord := iff_of_false (hkind ▸ hidentifier) hword
    word := fun h => absurd (hkind ▸ h) hidentifier
    startsNumber := iff_of_false (hkind ▸ hnumeral) hnumber
    number := fun h => absurd (hkind ▸ h) hnumeral
    operator := fun _ _ _ => by
      rw [hbytes, hkind]
      exact ⟨hvalid, singleton_isLongest hnone hmark, hmark⟩
    nothing := fun _ _ hno => absurd ⟨rest, rfl⟩ (hno [b] ⟨kind, hmark⟩)
    alone := halone }

/-- A byte that belongs to nothing. -/
theorem munches_nothing (h : t.StartsStream b rest)
    (hfind : operators.find? (·.isPrefixOf (b :: rest)) = none)
    (hmark : punctuation? b = none) : t.Munches (b :: rest) := by
  obtain ⟨hkind, hvalid, -⟩ := h
  rw [hfirst, Lexeme.operatorAt, hfind] at hkind hvalid
  dsimp only at hkind hvalid
  rw [hmark] at hkind hvalid
  dsimp only at hkind hvalid
  have hneither : t.kind ≠ .identifier ∧ t.kind ≠ .number := by
    rw [hkind]
    decide
  have hnone : ∀ op, IsOperator op → ¬op <+: b :: rest := by
    rintro op hoperator ⟨more, hmore⟩
    rcases mem_or_of_isOperator hoperator with hop | ⟨c, kind, hc, rfl⟩
    · exact absurd ⟨more, hmore⟩ (forall_not_prefix_of_find? hfind op hop)
    · rw [(List.cons.inj hmore).1, hmark] at hc
      cases hc
  have hno_mark : ∀ c kind, punctuation? c = some kind → c ∉ (b :: rest).head? := by
    intro c kind hc h
    rw [Option.some.inj h, hc] at hmark
    cases hmark
  exact {
    startsWord := iff_of_false hneither.1 hword
    word := fun h => absurd h hneither.1
    startsNumber := iff_of_false hneither.2 hnumber
    number := fun h => absurd h hneither.2
    operator := fun _ _ hbegun => by
      obtain ⟨op, hoperator, hbegins⟩ := hbegun
      exact absurd hbegins (hnone op hoperator)
    nothing := fun _ _ _ => ⟨hvalid, hkind⟩
    alone := fun c kind hc hne => iff_of_false (hkind ▸ hne.symm) fun h => hno_mark c kind hc h.1 }

end Elsewhere

/-- **What is said of a token** holds of the first token of a stream. -/
theorem munches (h : t.StartsStream b rest) (hplain : StartsPlain (b :: rest)) :
    t.Munches (b :: rest) := by
  by_cases hnumber : Lexeme.startsNumber b rest = true
  · exact h.munches_number hplain hnumber
  by_cases hword : Ascii.isWordStart b = true
  · exact h.munches_word hplain hnumber hword
  have hfirst : Lexeme.first b rest = Lexeme.operatorAt b rest := by
    rw [Lexeme.first_of_startsPlain hplain, if_neg hnumber, if_neg hword]
  have hstarts := mt Lexeme.startsNumber_iff_startsNumber.mpr hnumber
  have hwords : ¬∃ c ∈ (b :: rest).head?, Ascii.isWordStart c = true := by
    rintro ⟨c, hc, hstart⟩
    obtain rfl := Option.some.inj hc
    exact hword hstart
  cases hfind : operators.find? (·.isPrefixOf (b :: rest)) with
  | some op => exact munches_long hfirst hstarts hwords h hfind
  | none =>
      cases hmark : punctuation? b with
      | some kind => exact munches_mark hfirst hstarts hwords h hfind hmark
      | none => exact munches_nothing hfirst hstarts hwords h hfind hmark

end StartsStream

end Token

/-- **Words, numbers and operators are as long as can be**, at every place of a stream where a token
starts and white space, comments, literals and number signs are out of the way. -/
theorem tokens_are_longest (contents : Bytes) (t : Token)
    (h : t ∈ (Cursor.ofBytes contents).tokens)
    (hplain : Token.StartsPlain (contents.drop t.start.offset)) :
    t.Munches (contents.drop t.start.offset) := by
  obtain ⟨b, rest, hbytes, hstarts⟩ := startsStream_of_mem h
  rw [hbytes] at hplain ⊢
  exact hstarts.munches hplain

/-- A number with a fraction, an exponent and a suffix, before a full stop that is a mark of its
own, and a number before a full stop that belongs to a range. -/
theorem tokens_are_longest_around_full_stops :
    let contents := Ascii.bytes "1.5e+2f.x 3..".toList
    let number : Token := ⟨.number, true, Position.start, contents.take 7⟩
    let point : Token := ⟨.dot, true, ⟨7, 1, 8⟩, [Ascii.dot]⟩
    let bound : Token := ⟨.number, true, ⟨10, 1, 11⟩, [0x33]⟩
    (number ∈ (Cursor.ofBytes contents).tokens ∧ Token.StartsPlain contents ∧
        number.Munches contents) ∧
      (point ∈ (Cursor.ofBytes contents).tokens ∧ Token.StartsPlain (contents.drop 7) ∧
        point.Munches (contents.drop 7)) ∧
      bound ∈ (Cursor.ofBytes contents).tokens ∧ Token.StartsPlain (contents.drop 10) ∧
        bound.Munches (contents.drop 10) := by
  intro contents number point bound
  have hnumber : number ∈ (Cursor.ofBytes contents).tokens := by decide +kernel
  have hpoint : point ∈ (Cursor.ofBytes contents).tokens := by decide +kernel
  have hbound : bound ∈ (Cursor.ofBytes contents).tokens := by decide +kernel
  have hplain : Token.StartsPlain contents ∧ Token.StartsPlain (contents.drop 7) ∧
      Token.StartsPlain (contents.drop 10) :=
    ⟨⟨by decide +kernel, by decide +kernel, by decide +kernel⟩,
      ⟨by decide +kernel, by decide +kernel, by decide +kernel⟩,
      by decide +kernel, by decide +kernel, by decide +kernel⟩
  exact ⟨⟨hnumber, hplain.1, tokens_are_longest contents number hnumber hplain.1⟩,
    ⟨hpoint, hplain.2.1, tokens_are_longest contents point hpoint hplain.2.1⟩, hbound,
    hplain.2.2, tokens_are_longest contents bound hbound hplain.2.2⟩

end ZDecl
