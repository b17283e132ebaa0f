import ZDecl.Token.Lexeme

/-!
# Runs and numbers at a cut

Where a number ends may depend on up to three bytes behind it: a full stop belongs to it or not, a
letter is an exponent or a suffix. This file cuts a stream and puts something else behind the cut,
which begins with a space or a line feed, if it is not empty. What was read before the cut is read
again, stage by stage. Only a fraction looks at what it does not take: a number takes a full stop
that is left alone before the cut.

* `Break`, `LineEnd`: what is put behind the cut.
* `runLength_append`: runs of bytes.
* `fractionLength_append`, `exponentLength_append`, `decimalLength_append`, `hexLength?_append`: the
  stages of a number.
* **`numberLength_append`**: numbers with their suffix letters.
-/

namespace ZDecl

namespace Token

/-! ## What is put behind a cut -/

/-- Is there nothing, or does a space or a line feed come first? -/
def Break (next : Bytes) : Prop := ∀ c ∈ next.head?, c = 0x20 ∨ c = Ascii.lineFeed

/-- Is there nothing, or does a line feed come first? -/
def LineEnd (next : Bytes) : Prop := ∀ c ∈ next.head?, c = Ascii.lineFeed

/-- The end of a line breaks a word, as a space does. -/
theorem LineEnd.break {next : Bytes} (h : LineEnd next) : Break next := fun c hc => .inr (h c hc)

/-- Bytes of a class without the space and the line feed do not go on behind a cut. -/
theorem Break.not {next : Bytes} (h : Break next) {p : UInt8 → Bool} (hspace : p 0x20 = false)
    (hline : p Ascii.lineFeed = false) : ∀ c ∈ next.head?, p c = false := by
  intro c hc
  rcases h c hc with rfl | rfl
  · exact hspace
  · exact hline

section Parts

variable {kept behind next : Bytes}

/-! ## Runs -/

section Runs

variable {p : UInt8 → Bool}

/-- A run goes no further than the stream. -/
theorem runLength_le (p : UInt8 → Bool) (bytes : Bytes) : runLength p bytes ≤ bytes.length :=
  (List.takeWhile_prefix p).length_le

/-- A run that would go on from the start is empty. -/
theorem runLength_eq_zero {bytes : Bytes} (h : ∀ c ∈ bytes.head?, p c = false) :
    runLength p bytes = 0 := by
  cases bytes with
  | nil => rfl
  | cons c bytes => simp [runLength, h c rfl]

/-- A run takes at least the byte that it starts with. -/
theorem runLength_pos {bytes : Bytes} (h : bytes.head?.any p = true) : 0 < runLength p bytes := by
  cases bytes with
  | nil => cases h
  | cons c bytes => simp [runLength, show p c = true from h]

/-- A run that ends before the cut stays as it is. -/
theorem runLength_append (hle : runLength p (kept ++ behind) ≤ kept.length)
    (hnext : ∀ c ∈ next.head?, p c = false) :
    runLength p (kept ++ next) = runLength p (kept ++ behind) := by
  induction kept with
  | nil =>
      rw [List.nil_append, List.nil_append, runLength_eq_zero hnext]
      exact (Nat.le_zero.mp hle).symm
  | cons b kept ih =>
      cases hb : p b with
      | false => simp [runLength, hb]
      | true =>
          have hcons : ∀ more,
              runLength p (b :: kept ++ more) = runLength p (kept ++ more) + 1 := by
            intro more
            simp [runLength, hb]
          rw [hcons, List.length_cons] at hle
          rw [hcons, hcons, ih (Nat.le_of_succ_le_succ hle)]

/-- A run that ends before the cut starts there, or not at all. -/
theorem any_head?_append (hle : runLength p (kept ++ behind) ≤ kept.length)
    (hnext : ∀ c ∈ next.head?, p c = false) :
    (kept ++ next).head?.any p = (kept ++ behind).head?.any p := by
  cases kept with
  | cons b kept => rfl
  | nil =>
      have hnone : next.head?.any p = false := by rwa [Option.any_eq_false]
      rw [List.nil_append, List.nil_append, hnone]
      refine (Bool.eq_false_iff.mpr fun hsome => ?_).symm
      exact Nat.not_le_of_lt (runLength_pos hsome) hle

end Runs

/-! ## Numbers -/

/-- A fraction goes no further than the stream. -/
theorem fractionLength_le (bytes : Bytes) : fractionLength bytes ≤ bytes.length := by
  unfold fractionLength
  split
  · next b rest =>
      have hrun := runLength_le Ascii.isDigit rest
      rw [List.length_cons]
      split <;> omega
  · exact Nat.zero_le _

/-- Does a full stop before these bytes belong to something other than a number? -/
def TakesDot (bytes : Bytes) : Prop :=
  ∃ c ∈ bytes.head?, Ascii.isWordStart c = true ∨ c = Ascii.dot

/-- Only a full stop starts a fraction. -/
theorem fractionLength_eq_zero {bytes : Bytes} (h : Ascii.dot ∉ bytes.head?) :
    fractionLength bytes = 0 := by
  cases bytes with
  | nil => rfl
  | cons b rest =>
      have hb : b ≠ Ascii.dot := fun hb => h (by simp [hb])
      simp [fractionLength, hb]

/-- What stands behind a full stop decides whether it starts a fraction. -/
theorem fractionLength_dot (rest : Bytes) :
    TakesDot rest ∧ fractionLength (Ascii.dot :: rest) = 0 ∨
      ¬TakesDot rest ∧
        fractionLength (Ascii.dot :: rest) = runLength Ascii.isDigit rest + 1 := by
  have hiff : (rest.head?.any fun c => Ascii.isWordStart c || c == Ascii.dot) = true ↔
      TakesDot rest := by
    simp [TakesDot, Option.any_eq_true]
  by_cases h : TakesDot rest
  · exact .inl ⟨h, by simp [fractionLength, hiff.mpr h]⟩
  · have hnot := Bool.eq_false_iff.mpr (mt hiff.mp h)
    exact .inr ⟨h, by simp [fractionLength, hnot, Nat.add_comm]⟩

/-- A fraction stays as it is, if no full stop is left alone before the cut. -/
theorem fractionLength_append (hle : fractionLength (kept ++ behind) ≤ kept.length)
    (hdot : kept.drop (fractionLength (kept ++ behind)) ≠ [Ascii.dot]) (hnext : Break next) :
    fractionLength (kept ++ next) = fractionLength (kept ++ behind) := by
  have hdigit : ∀ c ∈ next.head?, Ascii.isDigit c = false := hnext.not rfl rfl
  match kept with
  | [] =>
      have hnone : Ascii.dot ∉ next.head? := by
        intro hmem
        rcases hnext _ hmem with h | h <;> cases h
      rw [List.nil_append, List.nil_append, fractionLength_eq_zero hnone]
      exact (Nat.le_zero.mp hle).symm
  | b :: rest =>
      rw [List.cons_append, List.cons_append] at *
      by_cases hb : b = Ascii.dot
      · subst hb
        have hsame : TakesDot (rest ++ next) ↔ TakesDot (rest ++ behind) := by
          cases rest with
          | cons c rest => exact Iff.rfl
          | nil =>
              have hnone : ¬TakesDot next := by
                rintro ⟨c, hc, hc'⟩
                rcases hnext c hc with rfl | rfl <;> revert hc' <;> decide
              refine iff_of_false hnone fun htakes => ?_
              rcases fractionLength_dot behind with ⟨-, hzero⟩ | ⟨hno, -⟩
              · exact hdot (by rw [List.nil_append, hzero, List.drop_zero])
              · exact hno htakes
        rcases fractionLength_dot (rest ++ next) with ⟨h, hlength⟩ | ⟨h, hlength⟩ <;>
          rcases fractionLength_dot (rest ++ behind) with ⟨h', hlength'⟩ | ⟨h', hlength'⟩
        · rw [hlength, hlength']
        · exact absurd (hsame.mp h) h'
        · exact absurd (hsame.mpr h') h
        · rw [hlength', List.length_cons] at hle
          rw [hlength, hlength', runLength_append (Nat.le_of_succ_le_succ hle) hdigit]
      · have hnone : ∀ more, fractionLength (b :: more) = 0 := by
          intro more
          exact fractionLength_eq_zero (by simpa using hb)
        rw [hnone, hnone]

/-- An exponent goes no further than the stream. -/
theorem exponentLength_le (bytes : Bytes) : exponentLength bytes ≤ bytes.length := by
  unfold exponentLength
  split
  · next e c rest =>
      have hrun := runLength_le Ascii.isDigit rest
      rw [List.length_cons, List.length_cons]
      split
      · split
        · omega
        · split <;> omega
      · omega
  · exact Nat.zero_le _

/-- Only a letter e starts an exponent. -/
theorem exponentLength_eq_zero {bytes : Bytes} (h : ∀ e ∈ bytes.head?, ¬(e = 0x65 || e = 0x45)) :
    exponentLength bytes = 0 := by
  match bytes with
  | [] => rfl
  | [_] => rfl
  | e :: c :: rest => rw [exponentLength, if_neg (h e rfl)]

/-- How long an exponent is, in the cases that its second byte makes. -/
theorem exponentLength_cons_cons {e : UInt8} (he : e = 0x65 || e = 0x45) (c : UInt8)
    (rest : Bytes) :
    exponentLength (e :: c :: rest) =
      if Ascii.isDigit c then 2 + runLength Ascii.isDigit rest
      else if (c = 0x2B || c = 0x2D) && rest.head?.any Ascii.isDigit then
        2 + runLength Ascii.isDigit rest
      else 0 := by
  rw [exponentLength, if_pos he]

/-- The letter of an exponent is never taken alone. -/
theorem exponentLength_eq_zero_or (bytes : Bytes) :
    exponentLength bytes = 0 ∨ 2 ≤ exponentLength bytes := by
  unfold exponentLength
  split
  · split
    · split
      · exact .inr (Nat.le_add_right ..)
      · split
        · exact .inr (Nat.le_add_right ..)
        · exact .inl rfl
    · exact .inl rfl
  · exact .inl rfl

/-- An exponent stays as it is, if its letter and one byte behind it stand before the cut. -/
theorem exponentLength_cons_cons_append {e c : UInt8} (he : e = 0x65 || e = 0x45)
    (hle : exponentLength (e :: c :: (kept ++ behind)) ≤ kept.length + 2)
    (hnext : ∀ d ∈ next.head?, Ascii.isDigit d = false) :
    exponentLength (e :: c :: (kept ++ next)) = exponentLength (e :: c :: (kept ++ behind)) := by
  rw [exponentLength_cons_cons he] at hle ⊢
  rw [exponentLength_cons_cons he]
  by_cases hc : Ascii.isDigit c = true
  · rw [if_pos hc] at hle
    have hrun : runLength Ascii.isDigit (kept ++ behind) ≤ kept.length := by omega
    rw [if_pos hc, if_pos hc, runLength_append hrun hnext]
  · rw [if_neg hc] at hle
    rw [if_neg hc, if_neg hc]
    by_cases hmark : (c = 0x2B || c = 0x2D) = true
    · simp only [hmark, Bool.true_and] at hle ⊢
      have hrun : runLength Ascii.isDigit (kept ++ behind) ≤ kept.length := by
        cases hsome : (kept ++ behind).head?.any Ascii.isDigit with
        | true =>
            rw [if_pos hsome] at hle
            omega
        | false =>
            rw [Option.any_eq_false] at hsome
            rw [runLength_eq_zero hsome]
            exact Nat.zero_le _
      rw [any_head?_append hrun hnext, runLength_append hrun hnext]
    · rw [Bool.eq_false_iff.mpr hmark]
      rfl

/-- An exponent stays as it is. -/
theorem exponentLength_append (hle : exponentLength (kept ++ behind) ≤ kept.length)
    (hnext : Break next) : exponentLength (kept ++ next) = exponentLength (kept ++ behind) := by
  match kept with
  | [] =>
      have hnone : ∀ e ∈ next.head?, ¬(e = 0x65 || e = 0x45) := by
        intro e he
        rcases hnext e he with rfl | rfl <;> decide
      rw [List.nil_append, List.nil_append, exponentLength_eq_zero hnone]
      exact (Nat.le_zero.mp hle).symm
  | e :: rest =>
      by_cases he : (e = 0x65 || e = 0x45)
      · cases rest with
        | nil =>
            have hzero : exponentLength (e :: next) = 0 := by
              cases next with
              | nil => rfl
              | cons c next =>
                  rw [exponentLength_cons_cons he]
                  rcases hnext c rfl with rfl | rfl <;> rfl
            rw [List.singleton_append, List.length_singleton] at hle
            rw [List.singleton_append, List.singleton_append, hzero]
            exact ((exponentLength_eq_zero_or _).resolve_right (by omega)).symm
        | cons c rest => exact exponentLength_cons_cons_append he hle (hnext.not rfl rfl)
      · have hnone : ∀ more, exponentLength (e :: rest ++ more) = 0 := by
          intro more
          exact exponentLength_eq_zero (by simpa using he)
        rw [hnone, hnone]

/-- A decimal number goes no further than the stream. -/
theorem decimalLength_le (bytes : Bytes) : decimalLength bytes ≤ bytes.length := by
  have hdigits := runLength_le Ascii.isDigit bytes
  have hfraction := fractionLength_le (bytes.drop (runLength Ascii.isDigit bytes))
  have hexponent := exponentLength_le (bytes.drop (runLength Ascii.isDigit bytes +
    fractionLength (bytes.drop (runLength Ascii.isDigit bytes))))
  rw [List.length_drop] at hfraction hexponent
  unfold decimalLength
  dsimp only
  omega

/-- A full stop that is left alone by one stage of a number is left alone by the next one, if that
takes no full stop. -/
theorem drop_ne_dot {stage : Bytes → Nat} (hstage : ∀ more, stage (Ascii.dot :: more) = 0) {n : Nat}
    (hn : n ≤ kept.length) (h : kept.drop (n + stage ((kept ++ behind).drop n)) ≠ [Ascii.dot]) :
    kept.drop n ≠ [Ascii.dot] := by
  intro halone
  rw [List.drop_append_of_le_length hn, halone, List.singleton_append, hstage] at h
  exact h halone

/-- A decimal number stays as it is, stage by stage. -/
theorem decimalLength_append (hle : decimalLength (kept ++ behind) ≤ kept.length)
    (hdot : kept.drop (decimalLength (kept ++ behind)) ≠ [Ascii.dot]) (hnext : Break next) :
    decimalLength (kept ++ next) = decimalLength (kept ++ behind) := by
  have hdigit : ∀ c ∈ next.head?, Ascii.isDigit c = false := hnext.not rfl rfl
  have hexponent : ∀ more, exponentLength (Ascii.dot :: more) = 0 := fun more =>
    exponentLength_eq_zero (by rintro e ⟨rfl⟩; decide)
  unfold decimalLength at hle hdot ⊢
  dsimp only at hle hdot ⊢
  replace hdot := drop_ne_dot hexponent (by omega) hdot
  have hdigits : runLength Ascii.isDigit (kept ++ behind) ≤ kept.length := by omega
  rw [runLength_append hdigits hdigit]
  generalize runLength Ascii.isDigit (kept ++ behind) = digits at *
  rw [← List.drop_drop, List.drop_append_of_le_length hdigits] at hle hdot
  rw [← List.drop_drop, ← List.drop_drop, List.drop_append_of_le_length hdigits,
    List.drop_append_of_le_length hdigits]
  have hlength : (kept.drop digits).length = kept.length - digits := List.length_drop
  generalize kept.drop digits = left at *
  have hfraction : fractionLength (left ++ behind) ≤ left.length := by omega
  rw [fractionLength_append hfraction hdot hnext]
  generalize fractionLength (left ++ behind) = fraction at *
  rw [List.drop_append_of_le_length hfraction] at hle
  rw [List.drop_append_of_le_length hfraction, List.drop_append_of_le_length hfraction,
    exponentLength_append _ hnext]
  rw [List.length_drop]
  omega

/-- A hexadecimal number: what it starts with, and how it goes on. -/
theorem hexLength?_eq_some_iff {bytes : Bytes} {n : Nat} :
    hexLength? bytes = some n ↔ ∃ b x rest, bytes = b :: x :: rest ∧
      (b = Ascii.zero && (x = 0x78 || x = 0x58)) = true ∧
        n = runLength Ascii.isHexDigit rest + 2 := by
  constructor
  · intro h
    unfold hexLength? at h
    split at h
    · next b x rest =>
        split at h
        · next hx =>
            obtain rfl := Option.some.inj h
            exact ⟨b, x, rest, rfl, hx, Nat.add_comm _ _⟩
        · cases h
    · cases h
  · rintro ⟨b, x, rest, rfl, hx, rfl⟩
    rw [hexLength?, if_pos hx, Nat.add_comm]

/-- A hexadecimal number goes no further than the stream. -/
theorem hexLength?_le {bytes : Bytes} {n : Nat} (hn : hexLength? bytes = some n) :
    n ≤ bytes.length := by
  obtain ⟨b, x, rest, rfl, -, rfl⟩ := hexLength?_eq_some_iff.mp hn
  have hrun := runLength_le Ascii.isHexDigit rest
  rw [List.length_cons, List.length_cons]
  omega

/-- A hexadecimal number stays as it is, and what is none does not become one. -/
theorem hexLength?_append (hle : ∀ n ∈ hexLength? (kept ++ behind), n ≤ kept.length)
    (hnext : Break next) : hexLength? (kept ++ next) = hexLength? (kept ++ behind) := by
  -- Two bytes are needed, so there is none where the cut is before the second one.
  have hbefore : kept.length < 2 → hexLength? (kept ++ behind) = none := by
    intro hshort
    refine Option.eq_none_iff_forall_ne_some.mpr fun n hn => ?_
    have hn' := hle n hn
    obtain ⟨_, _, _, -, -, rfl⟩ := hexLength?_eq_some_iff.mp hn
    omega
  match kept, hbefore with
  | [], hbefore =>
      rw [hbefore (by simp), List.nil_append]
      refine Option.eq_none_iff_forall_ne_some.mpr fun n hn => ?_
      obtain ⟨b, x, rest, rfl, hx, -⟩ := hexLength?_eq_some_iff.mp hn
      rcases hnext b rfl with rfl | rfl <;> cases hx
  | [c], hbefore =>
      rw [hbefore (by simp)]
      refine Option.eq_none_iff_forall_ne_some.mpr fun n hn => ?_
      obtain ⟨b, x, rest, hbytes, hx, -⟩ := hexLength?_eq_some_iff.mp hn
      obtain ⟨-, rfl⟩ := List.cons.inj hbytes
      have hletter := (Bool.and_eq_true_iff.mp hx).2
      rcases hnext x rfl with rfl | rfl <;> cases hletter
  | b :: x :: rest, _ =>
      simp only [List.cons_append] at hle ⊢
      by_cases hx : (b = Ascii.zero && (x = 0x78 || x = 0x58)) = true
      · rw [hexLength?, if_pos hx] at hle
        have hrun : 2 + runLength Ascii.isHexDigit (rest ++ behind) ≤ rest.length + 2 := hle _ rfl
        have hrest : runLength Ascii.isHexDigit (rest ++ behind) ≤ rest.length := by omega
        rw [hexLength?, hexLength?, if_pos hx, if_pos hx,
          runLength_append hrest (hnext.not rfl rfl)]
      · rw [hexLength?, hexLength?, if_neg hx, if_neg hx]

/-- The length of a number without its suffix letters. -/
def numberBody (bytes : Bytes) : Nat := (hexLength? bytes).getD (decimalLength bytes)

/-- A number without its suffix goes no further than the stream. -/
theorem numberBody_le (bytes : Bytes) : numberBody bytes ≤ bytes.length := by
  unfold numberBody
  cases h : hexLength? bytes with
  | none => exact decimalLength_le bytes
  | some n => exact hexLength?_le h

/-- A number without its suffix letters stays as it is. -/
theorem numberBody_append (hle : numberBody (kept ++ behind) ≤ kept.length)
    (hdot : kept.drop (numberBody (kept ++ behind)) ≠ [Ascii.dot]) (hnext : Break next) :
    numberBody (kept ++ next) = numberBody (kept ++ behind) := by
  unfold numberBody at hle hdot ⊢
  rw [hexLength?_append _ hnext]
  · cases hhex : hexLength? (kept ++ behind) with
    | some n => rfl
    | none =>
        rw [hhex] at hle hdot
        exact decimalLength_append hle hdot hnext
  · intro n hn
    rwa [Option.mem_def.mp hn] at hle

/-- A number goes no further than the stream. -/
theorem numberLength_le (bytes : Bytes) : numberLength bytes ≤ bytes.length := by
  have hbody := numberBody_le bytes
  have hsuffix := runLength_le isNumberSuffix (bytes.drop (numberBody bytes))
  rw [List.length_drop] at hsuffix
  show numberBody bytes + runLength isNumberSuffix (bytes.drop (numberBody bytes)) ≤ _
  omega

/-- **A number stays as it is**, if no full stop is left alone before the cut. -/
theorem numberLength_append (hle : numberLength (kept ++ behind) ≤ kept.length)
    (hdot : kept.drop (numberLength (kept ++ behind)) ≠ [Ascii.dot]) (hnext : Break next) :
    numberLength (kept ++ next) = numberLength (kept ++ behind) := by
  have hlength : ∀ bytes, numberLength bytes =
      numberBody bytes + runLength isNumberSuffix (bytes.drop (numberBody bytes)) := fun _ => rfl
  rw [hlength] at hle hdot
  rw [hlength, hlength]
  have hbody : numberBody (kept ++ behind) ≤ kept.length := by omega
  replace hdot := drop_ne_dot (fun _ => rfl) hbody hdot
  rw [numberBody_append hbody hdot hnext]
  generalize numberBody (kept ++ behind) = body at *
  rw [List.drop_append_of_le_length hbody] at hle
  rw [List.drop_append_of_le_length hbody, List.drop_append_of_le_length hbody,
    runLength_append _ (hnext.not rfl rfl)]
  rw [List.length_drop]
  omega

end Parts

end Token

end ZDecl
