import ZDecl.Proofs.Token.Seam

/-!
# Lexemes before a space

A lexeme stays as it is when all that stands behind it is replaced by a space and anything after
that. Nothing is left between the lexeme and the space, so this is a seam that no lexeme but trivia
depends on. Such a lexeme is ASCII, unless it is a literal.

* `SpaceAhead`: nothing, or something that starts with a space.
* `Lexeme.Stays`: the lexeme is read again before a space.
* `Lexeme.ascii_operatorAt`, `Lexeme.ascii_first`: which lexemes are ASCII.
* **`Lexeme.stays_first`**: every well-formed lexeme that is neither trivia nor a literal.
-/

namespace ZDecl.Token

/-- Is there nothing, or does a space come first? -/
def SpaceAhead (tail : Bytes) : Prop := ∀ c ∈ tail.head?, c = 0x20

/-- A space breaks a word. -/
theorem SpaceAhead.break {tail : Bytes} (h : SpaceAhead tail) : Break tail :=
  fun c hc => .inl (h c hc)

namespace Lexeme

variable {b : UInt8} {rest : Bytes}

/-- Does the lexeme of this shape at the start of `b :: rest` stay as it is before a space? -/
structure Stays (read : Bytes → Lexeme) (b : UInt8) (rest : Bytes) (shape : Lexeme) : Prop where
  /-- It is ASCII. -/
  ascii : ∀ c ∈ b :: rest.take shape.extra, c < 0x80
  /-- All of it is there. -/
  le : shape.extra ≤ rest.length
  /-- It is found again if all that stands behind it is replaced. -/
  again : ∀ next, SpaceAhead next → read (rest.take shape.extra ++ next) = shape

/-! ## What is ASCII -/

/-- Operators are ASCII. -/
theorem ascii_operatorAt (hvalid : (operatorAt b rest).valid = true) :
    ∀ c ∈ b :: rest.take (operatorAt b rest).extra, c < 0x80 := by
  unfold operatorAt at hvalid ⊢
  split at hvalid
  · next op hop =>
      obtain ⟨hne, hascii⟩ := ascii_operators op (List.mem_of_find?_eq_some hop)
      have hfound := List.find?_some hop
      have hbegins : op <+: b :: rest := List.isPrefixOf_iff_prefix.mp hfound
      have htaken : b :: rest.take (op.length - 1) = op := by
        have hpos := List.length_pos_iff.mpr hne
        rw [← List.take_succ_cons, Nat.sub_add_cancel hpos]
        exact (List.prefix_iff_eq_take.mp hbegins).symm
      dsimp only
      rw [htaken]
      exact hascii
  · split at hvalid
    · next kind hkind =>
        rw [List.take_zero, List.forall_mem_singleton]
        exact lt_of_punctuation? hkind
    · cases hvalid

/-- Every well-formed lexeme that is neither trivia nor a literal is ASCII. -/
theorem ascii_first (hvalid : (first b rest).valid = true)
    (htrivia : (first b rest).kind.isTrivia = false)
    (hliteral : (first b rest).kind.isLiteral = false) :
    ∀ c ∈ b :: rest.take (first b rest).extra, c < 0x80 := by
  by_cases hline : b = Ascii.lineFeed
  · subst hline
    cases htrivia
  by_cases hblank : Ascii.isBlank b = true
  · rw [first, if_neg hline, if_pos hblank] at htrivia
    cases htrivia
  by_cases hslash : b = Ascii.slash
  · subst hslash
    have hnone : ∀ c ∈ rest.head?, c ≠ Ascii.slash ∧ c ≠ Ascii.star := by
      intro c hc
      obtain ⟨more, rfl⟩ := List.head?_eq_some_iff.mp hc
      constructor
      · rintro rfl
        cases htrivia
      · rintro rfl
        cases htrivia
    have hoperator : first Ascii.slash rest = operatorAt Ascii.slash rest :=
      slashAt_eq_operatorAt hnone
    rw [hoperator] at hvalid ⊢
    exact ascii_operatorAt hvalid
  by_cases hquote : b = Ascii.quote
  · subst hquote
    cases (show true = false from hliteral)
  by_cases hapostrophe : b = Ascii.apostrophe
  · subst hapostrophe
    cases (show true = false from hliteral)
  by_cases hhash : b = Ascii.hash
  · subst hhash
    exact List.forall_mem_singleton.mpr (by decide)
  rw [first_eq hline hblank hslash hquote hapostrophe hhash] at hvalid ⊢
  split at hvalid
  · next hnumber =>
      have hpos := Nat.zero_lt_of_lt (lt_numberLength hnumber)
      rw [if_pos hnumber, ← List.take_succ_cons]
      dsimp only
      rw [Nat.sub_add_cancel hpos]
      exact ascii_numberLength (b :: rest)
  · next hnumber =>
      rw [if_neg hnumber]
      split at hvalid
      · next hword =>
          rw [if_pos hword]
          exact List.forall_mem_cons.mpr ⟨Ascii.lt_of_isWordStart hword,
            asciiUpTo_runLength (fun _ => Ascii.lt_of_isWordPart) rest⟩
      · next hword =>
          rw [if_neg hword]
          exact ascii_operatorAt hvalid

/-! ## Before a space -/

/-- **A well-formed lexeme stays as it is before a space**, unless it is trivia or a literal. -/
theorem stays_first (hvalid : (first b rest).valid = true)
    (htrivia : (first b rest).kind.isTrivia = false)
    (hliteral : (first b rest).kind.isLiteral = false) :
    Stays (first b) b rest (first b rest) := by
  have hle := extra_first_le b rest
  have hparts := List.take_append_drop (first b rest).extra rest
  refine ⟨ascii_first hvalid htrivia hliteral, hle, fun next hnext => ?_⟩
  have hagain := @first_append (rest.take (first b rest).extra) (rest.drop (first b rest).extra)
    next b
  rw [hparts] at hagain
  refine hagain hvalid ?_ ?_ hnext.break fun h => ?_
  · rw [List.length_take_of_le hle]
  · simp
  · rw [htrivia] at h
    cases h

end Lexeme

end ZDecl.Token
