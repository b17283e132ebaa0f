import Mathlib.Computability.Language
import ZDecl.Proofs.Token.Seam

/-!
# Numbers as a language

The scanner of a number goes through its parts one by one, takes as much of each as it can, and
never goes back. A regular language that is read so need not give up its longest text: it does when
a part takes bytes that a later part wanted. Here nothing is lost, because a part that is cut short
is cut before a byte that no later part starts with. The suffix letters are an exception, as some of
them are hexadecimal digits, but whatever they lose is taken all the same.

* `words`, `numbers`: the texts of words and numbers, as languages over bytes.
* `IsNumber`: a number before the rest of a stream, which decides about its full stop.
* `Greedy`: a scanner takes a part, and may cut it short only before a byte that continues it.
  `Greedy.append`: parts one behind the other.
* `greedy_decimalLength`: decimal numbers without suffix letters are read so.
* `isNumber_take_numberLength`: what the scanner takes is a number.
* **`IsNumber.length_le`**: and no number at the start of the stream is longer.
-/

namespace ZDecl.Token

open scoped Computability

/-! ## Words and numbers -/

/-- The texts of one byte of a class. -/
def byteIn (p : UInt8 → Bool) : Language UInt8 := {w | ∃ b, p b = true ∧ w = [b]}

/-- A letter or an underscore, and such or digits behind it. -/
def words : Language UInt8 := byteIn Ascii.isWordStart * (byteIn Ascii.isWordPart)∗

/-- The letters that mark a hexadecimal number. -/
def isHexMark (b : UInt8) : Bool := b == 0x78 || b == 0x58

/-- The letters that mark an exponent. -/
def isExponentMark (b : UInt8) : Bool := b == 0x65 || b == 0x45

/-- The signs of an exponent. -/
def isSign (b : UInt8) : Bool := b == 0x2B || b == 0x2D

/-- A zero, the letter x in either case, and hexadecimal digits. -/
def hexadecimals : Language UInt8 :=
  byteIn (· == Ascii.zero) * byteIn isHexMark * (byteIn Ascii.isHexDigit)∗

/-- A full stop and digits, or nothing. -/
def fractions : Language UInt8 := 1 + byteIn (· == Ascii.dot) * (byteIn Ascii.isDigit)∗

/-- The letter e in either case, a sign or none, and at least one digit, or nothing. -/
def exponents : Language UInt8 :=
  1 + byteIn isExponentMark * (1 + byteIn isSign) *
    (byteIn Ascii.isDigit * (byteIn Ascii.isDigit)∗)

/-- Digits, a fraction and an exponent. -/
def decimals : Language UInt8 := (byteIn Ascii.isDigit)∗ * fractions * exponents

/-- A hexadecimal or a decimal number, and suffix letters. -/
def numbers : Language UInt8 := (hexadecimals + decimals) * (byteIn isNumberSuffix)∗

/-- If the full stop behind the leading digits belongs to these bytes, then neither a word nor
another full stop comes next. -/
def KeepsPoint (w rest : Bytes) : Prop :=
  ∀ digits more, w ++ rest = digits ++ Ascii.dot :: more →
    (∀ b ∈ digits, Ascii.isDigit b = true) → digits.length < w.length → ¬TakesDot more

/-- May these bytes be the number before the rest of a stream? -/
structure IsNumber (w rest : Bytes) : Prop where
  /-- They read as a number. -/
  text : w ∈ numbers
  /-- Their full stop is not one of those that belong to something else. -/
  point : KeepsPoint w rest

section Membership

variable {p : UInt8 → Bool} {w : Bytes}

/-- The words of one byte that satisfies a test. -/
theorem mem_byteIn : w ∈ byteIn p ↔ ∃ b, p b = true ∧ w = [b] := Iff.rfl

/-- The words whose first byte satisfies a test. -/
theorem mem_byteIn_mul {l : Language UInt8} :
    w ∈ byteIn p * l ↔ ∃ b u, p b = true ∧ u ∈ l ∧ w = b :: u := by
  constructor
  · intro h
    obtain ⟨_, ⟨b, hb, rfl⟩, u, hu, rfl⟩ := Language.mem_mul.mp h
    exact ⟨b, u, hb, hu, rfl⟩
  · rintro ⟨b, u, hb, hu, rfl⟩
    exact Language.append_mem_mul (mem_byteIn.mpr ⟨b, hb, rfl⟩) hu

/-- A run of bytes of one class. -/
theorem mem_kstar_byteIn : w ∈ (byteIn p)∗ ↔ ∀ b ∈ w, p b = true := by
  constructor
  · intro h b hb
    obtain ⟨parts, rfl, hparts⟩ := Language.mem_kstar.mp h
    obtain ⟨u, hu, hbu⟩ := List.mem_flatten.mp hb
    obtain ⟨c, hc, rfl⟩ := hparts u hu
    rwa [List.mem_singleton.mp hbu]
  · intro h
    refine Language.mem_kstar.mpr ⟨w.map ([·]), ?_, fun u hu => ?_⟩
    · rw [← List.flatMap_def, List.flatMap_singleton' w]
    · obtain ⟨b, hb, rfl⟩ := List.mem_map.mp hu
      exact mem_byteIn.mpr ⟨b, h b hb, rfl⟩

/-- The words, letter by letter. -/
theorem mem_words : w ∈ words ↔
    ∃ b u, Ascii.isWordStart b = true ∧ (∀ c ∈ u, Ascii.isWordPart c = true) ∧ w = b :: u := by
  simp only [words, mem_byteIn_mul, mem_kstar_byteIn]

/-- The hexadecimal numbers, digit by digit. -/
theorem mem_hexadecimals : w ∈ hexadecimals ↔
    ∃ x u, isHexMark x = true ∧ (∀ c ∈ u, Ascii.isHexDigit c = true) ∧
      w = Ascii.zero :: x :: u := by
  simp only [hexadecimals, mul_assoc, mem_byteIn_mul, mem_kstar_byteIn, beq_iff_eq]
  constructor
  · rintro ⟨_, _, rfl, ⟨x, u, hx, hu, rfl⟩, rfl⟩
    exact ⟨x, u, hx, hu, rfl⟩
  · rintro ⟨x, u, hx, hu, rfl⟩
    exact ⟨_, _, rfl, ⟨x, u, hx, hu, rfl⟩, rfl⟩

/-- The fractions: none, or a dot and digits. -/
theorem mem_fractions : w ∈ fractions ↔
    w = [] ∨ ∃ u, (∀ c ∈ u, Ascii.isDigit c = true) ∧ w = Ascii.dot :: u := by
  simp only [fractions, Language.mem_add, Language.mem_one, mem_byteIn_mul, mem_kstar_byteIn,
    beq_iff_eq, exists_and_left, exists_eq_left]

/-- The bytes of an exponent: its letter, an optional sign, and digits. -/
theorem mem_exponents : w ∈ exponents ↔
    w = [] ∨ ∃ e sign d u, isExponentMark e = true ∧
      (sign = [] ∨ ∃ s, isSign s = true ∧ sign = [s]) ∧
        Ascii.isDigit d = true ∧ (∀ c ∈ u, Ascii.isDigit c = true) ∧
          w = e :: (sign ++ d :: u) := by
  rw [exponents, Language.mem_add, Language.mem_one, mul_assoc, mem_byteIn_mul]
  refine or_congr Iff.rfl ⟨?_, ?_⟩
  · rintro ⟨e, _, he, htail, rfl⟩
    obtain ⟨sign, hsign, _, hdigits, rfl⟩ := Language.mem_mul.mp htail
    obtain ⟨d, u, hd, hu, rfl⟩ := mem_byteIn_mul.mp hdigits
    exact ⟨e, sign, d, u, he, hsign, hd, mem_kstar_byteIn.mp hu, rfl⟩
  · rintro ⟨e, sign, d, u, he, hsign, hd, hu, rfl⟩
    have hdigits := mem_byteIn_mul.mpr ⟨d, u, hd, mem_kstar_byteIn.mpr hu, rfl⟩
    exact ⟨e, _, he, Language.append_mem_mul hsign hdigits, rfl⟩

end Membership

/-! ## Parts one behind the other -/

/-- Does a scanner take a part, given which bytes may be one before a rest, and is it cut short only
before a byte that continues it? -/
structure Greedy (part : Bytes → Bytes → Prop) (continues : UInt8 → Prop) (length : Bytes → Nat) :
    Prop where
  /-- It takes a part. -/
  takes : ∀ bytes : Bytes, part (bytes.take (length bytes)) (bytes.drop (length bytes))
  /-- Any other part is shorter, and something that continues it comes next. -/
  reaches : ∀ w rest, part w rest →
    length (w ++ rest) = w.length ∨
      w.length < length (w ++ rest) ∧ ∃ b ∈ rest.head?, continues b

/-- Bytes that are one part and then another. -/
def Then (first second : Bytes → Bytes → Prop) (w rest : Bytes) : Prop :=
  ∃ a b, w = a ++ b ∧ first a (b ++ rest) ∧ second b rest

section Parts

variable {part second : Bytes → Bytes → Prop} {continues continues' : UInt8 → Prop}
  {length length' : Bytes → Nat} {w rest : Bytes}

/-- A part is no longer than what the scanner takes. -/
theorem Greedy.length_le (h : Greedy part continues length) (hw : part w rest) :
    w.length ≤ length (w ++ rest) :=
  (h.reaches w rest hw).elim Eq.ge fun h => Nat.le_of_lt h.1

/-- What both scanners take, one behind the other. -/
theorem Then.take
    (hfirst : ∀ bytes : Bytes, part (bytes.take (length bytes)) (bytes.drop (length bytes)))
    (hsecond : ∀ bytes : Bytes, second (bytes.take (length' bytes)) (bytes.drop (length' bytes)))
    (bytes : Bytes) :
    Then part second (bytes.take (length bytes + length' (bytes.drop (length bytes))))
      (bytes.drop (length bytes + length' (bytes.drop (length bytes)))) := by
  refine ⟨_, _, List.take_add .., ?_, ?_⟩
  · rw [← List.drop_drop, List.take_append_drop]
    exact hfirst bytes
  · rw [← List.drop_drop]
    exact hsecond _

/-- **Parts one behind the other** are read as one, if no later part starts with a byte that
continues the one before it. -/
theorem Greedy.append (hfirst : Greedy part continues length)
    (hsecond : Greedy second continues' length')
    (hapart : ∀ b rest, second b rest → ∀ c ∈ b.head?, ¬continues c) :
    Greedy (Then part second) (fun c => continues c ∨ continues' c)
      (fun bytes => length bytes + length' (bytes.drop (length bytes))) where
  takes := Then.take hfirst.takes hsecond.takes
  reaches := by
    rintro _ rest ⟨a, b, rfl, ha, hb⟩
    rw [List.append_assoc, List.length_append]
    rcases hfirst.reaches a (b ++ rest) ha with hexact | ⟨hshort, c, hc, hcontinues⟩
    · rw [hexact, List.drop_left, Nat.add_left_cancel_iff, Nat.add_lt_add_iff_left]
      refine (hsecond.reaches b rest hb).imp id ?_
      rintro ⟨hlt, c, hc, hcontinues⟩
      exact ⟨hlt, c, hc, .inr hcontinues⟩
    · cases b with
      | cons d b => exact absurd hcontinues (hapart _ rest hb c hc)
      | nil =>
          right
          rw [List.length_nil, Nat.add_zero]
          exact ⟨hshort.trans_le (Nat.le_add_right _ _), c, hc, .inl hcontinues⟩

end Parts

/-! ## The parts of a number -/

/-- A run of bytes of one class. -/
theorem greedy_runLength (p : UInt8 → Bool) :
    Greedy (fun w _ => ∀ b ∈ w, p b = true) (fun b => p b = true) (runLength p) where
  takes bytes b hb := by
    rw [take_runLength] at hb
    exact List.mem_takeWhile_imp hb
  reaches w rest hw := by
    have hlength : runLength p (w ++ rest) = w.length + runLength p rest := by
      rw [runLength, List.takeWhile_append_of_pos hw, List.length_append, runLength]
    rw [hlength]
    cases rest with
    | nil => exact .inl rfl
    | cons b more =>
        by_cases hb : p b = true
        · right
          exact ⟨Nat.lt_add_of_pos_right (runLength_pos (by simpa using hb)), b, rfl, hb⟩
        · left
          rw [runLength_eq_zero (by simpa using hb), Nat.add_zero]

/-- A fraction before the rest of a stream, which decides about its full stop. -/
def IsFraction (w rest : Bytes) : Prop :=
  w ∈ fractions ∧ ∀ u, w = Ascii.dot :: u → ¬TakesDot (u ++ rest)

/-- The scanner of fractions takes the longest one. -/
theorem greedy_fractionLength :
    Greedy IsFraction (fun b => Ascii.isDigit b = true ∨ b = Ascii.dot) fractionLength where
  takes bytes := by
    have hnone : fractionLength bytes = 0 →
        IsFraction (bytes.take (fractionLength bytes)) (bytes.drop (fractionLength bytes)) := by
      intro hzero
      rw [hzero]
      exact ⟨mem_fractions.mpr (.inl rfl), nofun⟩
    by_cases hdot : Ascii.dot ∈ bytes.head?
    · obtain ⟨rest, rfl⟩ := List.head?_eq_some_iff.mp hdot
      rcases fractionLength_dot rest with ⟨-, hzero⟩ | ⟨htakes, hlength⟩
      · exact hnone hzero
      · rw [hlength, List.take_succ_cons, List.drop_succ_cons]
        refine ⟨mem_fractions.mpr (.inr ⟨_, (greedy_runLength _).takes rest, rfl⟩), ?_⟩
        intro u hu
        rwa [← (List.cons.inj hu).2, List.take_append_drop]
    · exact hnone (fractionLength_eq_zero hdot)
  reaches w rest hw := by
    obtain ⟨htext, hpoint⟩ := hw
    rcases mem_fractions.mp htext with rfl | ⟨u, hu, rfl⟩
    · by_cases hdot : Ascii.dot ∈ rest.head?
      · rcases Nat.eq_zero_or_pos (fractionLength rest) with hzero | hpos
        · exact .inl hzero
        · exact .inr ⟨hpos, _, hdot, .inr rfl⟩
      · exact .inl (fractionLength_eq_zero hdot)
    · rcases fractionLength_dot (u ++ rest) with ⟨htakes, -⟩ | ⟨-, hlength⟩
      · exact absurd htakes (hpoint u rfl)
      · rw [List.cons_append, hlength, List.length_cons, Nat.add_right_cancel_iff,
          Nat.add_lt_add_iff_right]
        refine ((greedy_runLength Ascii.isDigit).reaches u rest hu).imp id ?_
        rintro ⟨hlt, b, hb, hdigit⟩
        exact ⟨hlt, b, hb, .inl hdigit⟩

/-- How long an exponent is whose letter and sign are there, and what is needed behind them. -/
theorem exponentLength_cons {e : UInt8} (he : isExponentMark e = true) {sign : Bytes}
    (hsign : sign = [] ∨ ∃ s, isSign s = true ∧ sign = [s]) {d : UInt8}
    (hd : Ascii.isDigit d = true) (rest : Bytes) :
    exponentLength (e :: (sign ++ d :: rest)) =
      sign.length + 2 + runLength Ascii.isDigit rest := by
  have he' : (e = 0x65 || e = 0x45) = true := he
  rcases hsign with rfl | ⟨s, hs, rfl⟩
  · rw [List.nil_append, exponentLength_cons_cons he', if_pos hd, List.length_nil, Nat.zero_add]
  · have hs' : (s = 0x2B || s = 0x2D) = true := hs
    have hnot : ¬Ascii.isDigit s = true := by
      rcases Bool.or_eq_true_iff.mp hs with h | h <;> rw [beq_iff_eq.mp h] <;> decide
    have hrun : runLength Ascii.isDigit (d :: rest) = runLength Ascii.isDigit rest + 1 := by
      simp [runLength, hd]
    rw [List.singleton_append, exponentLength_cons_cons he', if_neg hnot, hs', Bool.true_and,
      if_pos (by simpa using hd), hrun, List.length_singleton]
    omega

/-- An exponent that is not empty has its letter, an optional sign and a digit. -/
theorem exists_of_exponentLength_pos {bytes : Bytes} (h : 0 < exponentLength bytes) :
    ∃ e sign d rest, isExponentMark e = true ∧
      (sign = [] ∨ ∃ s, isSign s = true ∧ sign = [s]) ∧ Ascii.isDigit d = true ∧
        bytes = e :: (sign ++ d :: rest) := by
  match bytes with
  | [] => cases h
  | [_] => cases h
  | e :: c :: rest =>
      have he : (e = 0x65 || e = 0x45) = true := by
        by_contra hno
        rw [exponentLength, if_neg hno] at h
        cases h
      rw [exponentLength_cons_cons he] at h
      by_cases hc : Ascii.isDigit c = true
      · exact ⟨e, [], c, rest, he, .inl rfl, hc, rfl⟩
      · rw [if_neg hc] at h
        have hboth : ((c = 0x2B || c = 0x2D) && rest.head?.any Ascii.isDigit) = true := by
          by_contra hno
          rw [if_neg hno] at h
          cases h
        obtain ⟨hsign, hdigit⟩ := Bool.and_eq_true_iff.mp hboth
        obtain ⟨d, hd, hdigit⟩ := (Option.any_eq_true ..).mp hdigit
        obtain ⟨more, rfl⟩ := List.head?_eq_some_iff.mp hd
        exact ⟨e, [c], d, more, he, .inr ⟨c, hsign, rfl⟩, hdigit, rfl⟩

/-- The scanner of exponents takes the longest one. -/
theorem greedy_exponentLength :
    Greedy (fun w _ => w ∈ exponents)
      (fun b => Ascii.isDigit b = true ∨ isExponentMark b = true) exponentLength where
  takes bytes := by
    rcases Nat.eq_zero_or_pos (exponentLength bytes) with hzero | hpos
    · rw [hzero]
      exact mem_exponents.mpr (.inl rfl)
    · obtain ⟨e, sign, d, rest, he, hsign, hd, rfl⟩ := exists_of_exponentLength_pos hpos
      rw [exponentLength_cons he hsign hd]
      have htake : (e :: (sign ++ d :: rest)).take
          (sign.length + 2 + runLength Ascii.isDigit rest) =
            e :: (sign ++ d :: rest.take (runLength Ascii.isDigit rest)) := by
        rw [show sign.length + 2 + runLength Ascii.isDigit rest =
            sign.length + (runLength Ascii.isDigit rest + 1) + 1 by omega,
          List.take_succ_cons, List.take_length_add_append, List.take_succ_cons]
      rw [htake]
      exact mem_exponents.mpr
        (.inr ⟨e, sign, d, _, he, hsign, hd, (greedy_runLength _).takes rest, rfl⟩)
  reaches w rest hw := by
    rcases mem_exponents.mp hw with rfl | ⟨e, sign, d, u, he, hsign, hd, hu, rfl⟩
    · rcases Nat.eq_zero_or_pos (exponentLength rest) with hzero | hpos
      · exact .inl hzero
      · obtain ⟨e, sign, d, more, he, -, -, rfl⟩ := exists_of_exponentLength_pos hpos
        exact .inr ⟨hpos, e, rfl, .inr he⟩
    · have happend : e :: (sign ++ d :: u) ++ rest = e :: (sign ++ d :: (u ++ rest)) := by simp
      have hlength : (e :: (sign ++ d :: u)).length = sign.length + 2 + u.length := by
        simp only [List.length_cons, List.length_append]
        omega
      rw [happend, exponentLength_cons he hsign hd, hlength, Nat.add_left_cancel_iff,
        Nat.add_lt_add_iff_left]
      refine ((greedy_runLength Ascii.isDigit).reaches u rest hu).imp id ?_
      rintro ⟨hlt, b, hb, hdigit⟩
      exact ⟨hlt, b, hb, .inl hdigit⟩

/-! ## Decimal and hexadecimal numbers -/

/-- A decimal number before the rest of a stream, part by part. -/
def IsDecimal : Bytes → Bytes → Prop :=
  Then (Then (fun w _ => ∀ b ∈ w, Ascii.isDigit b = true) IsFraction) fun w _ => w ∈ exponents

/-- **Decimal numbers without suffix letters** are read part by part and lose nothing. -/
theorem greedy_decimalLength : ∃ continues, Greedy IsDecimal continues decimalLength := by
  have hpoint : ∀ b rest, IsFraction b rest → ∀ c ∈ b.head?, ¬Ascii.isDigit c = true := by
    rintro b rest ⟨htext, -⟩ c hc
    rcases mem_fractions.mp htext with rfl | ⟨u, -, rfl⟩
    · cases hc
    · obtain rfl := Option.some.inj hc
      decide
  have hletter : ∀ b rest, (fun w (_ : Bytes) => w ∈ exponents) b rest → ∀ c ∈ b.head?,
      ¬(Ascii.isDigit c = true ∨ Ascii.isDigit c = true ∨ c = Ascii.dot) := by
    intro b _ hb c hc
    rcases mem_exponents.mp hb with rfl | ⟨e, _, _, _, he, -, -, -, rfl⟩
    · cases hc
    · obtain rfl := Option.some.inj hc
      rcases Bool.or_eq_true_iff.mp he with h | h <;> rw [beq_iff_eq.mp h] <;> decide
  exact ⟨_, ((greedy_runLength Ascii.isDigit).append greedy_fractionLength hpoint).append
    greedy_exponentLength hletter⟩

/-- The digits before a full stop are all that there are. -/
theorem takeWhile_isDigit_dot {digits : Bytes} (hdigits : ∀ b ∈ digits, Ascii.isDigit b = true)
    (more : Bytes) : (digits ++ Ascii.dot :: more).takeWhile Ascii.isDigit = digits := by
  rw [List.takeWhile_append_of_pos hdigits, List.takeWhile_cons_of_neg (by decide),
    List.append_nil]

section Whole

variable {w rest : Bytes}

/-- **The parts of a decimal number** are its text and what is said of its full stop. -/
theorem isDecimal_iff : IsDecimal w rest ↔ w ∈ decimals ∧ KeepsPoint w rest := by
  constructor
  · rintro ⟨_, c, rfl, ⟨a, b, rfl, ha, htext, hpoint⟩, hc⟩
    refine ⟨Language.append_mem_mul
      (Language.append_mem_mul (mem_kstar_byteIn.mpr ha) htext) hc, ?_⟩
    intro digits more heq hdigits hlt
    have hleading := takeWhile_isDigit_dot hdigits more
    rw [← heq, List.append_assoc, List.append_assoc, List.takeWhile_append_of_pos ha] at hleading
    rcases mem_fractions.mp htext with rfl | ⟨u, -, rfl⟩
    · rcases mem_exponents.mp hc with rfl | ⟨e, sign, d, u, he, -, -, -, rfl⟩
      · rw [← hleading] at hlt
        simp only [List.append_nil, List.length_append] at hlt
        omega
      · have hnot : ¬Ascii.isDigit e = true ∧ e ≠ Ascii.dot := by
          rcases Bool.or_eq_true_iff.mp he with h | h <;> rw [beq_iff_eq.mp h] <;> decide
        rw [List.nil_append, List.cons_append, List.takeWhile_cons_of_neg hnot.1,
          List.append_nil] at hleading
        subst hleading
        rw [List.append_nil, List.append_assoc, List.append_cancel_left_eq] at heq
        exact absurd (List.cons.inj heq).1 hnot.2
    · rw [List.cons_append, List.takeWhile_cons_of_neg (by decide), List.append_nil] at hleading
      subst hleading
      rw [List.append_assoc, List.append_assoc, List.append_cancel_left_eq] at heq
      rw [← (List.cons.inj heq).2]
      exact hpoint u rfl
  · rintro ⟨htext, hpoint⟩
    obtain ⟨_, hab, c, hc, rfl⟩ := Language.mem_mul.mp htext
    obtain ⟨a, ha, b, hb, rfl⟩ := Language.mem_mul.mp hab
    refine ⟨_, c, rfl, ⟨a, b, rfl, mem_kstar_byteIn.mp ha, hb, ?_⟩, hc⟩
    rintro u rfl
    refine hpoint a _ ?_ (mem_kstar_byteIn.mp ha) ?_
    · simp only [List.append_assoc, List.cons_append]
    · simp only [List.length_append, List.length_cons]
      omega

/-- A number without its suffix letters, before the rest of a stream. -/
def IsBody (w rest : Bytes) : Prop := w ∈ hexadecimals ∨ IsDecimal w rest

/-- Behind the letter of a hexadecimal number, no full stop follows leading digits. -/
theorem keepsPoint_of_mem_hexadecimals (h : w ∈ hexadecimals) (u rest : Bytes) :
    KeepsPoint (w ++ u) rest := by
  intro digits more heq hdigits hlt
  have hleading := takeWhile_isDigit_dot hdigits more
  obtain ⟨x, v, hx, -, rfl⟩ := mem_hexadecimals.mp h
  have hnot : ¬Ascii.isDigit x = true ∧ x ≠ Ascii.dot := by
    rcases Bool.or_eq_true_iff.mp hx with h | h <;> rw [beq_iff_eq.mp h] <;> decide
  rw [← heq, List.cons_append, List.cons_append, List.cons_append, List.cons_append,
    List.takeWhile_cons_of_pos (by decide), List.takeWhile_cons_of_neg hnot.1] at hleading
  subst hleading
  simp only [List.cons_append, List.nil_append, List.cons.injEq, true_and] at heq
  exact absurd heq.1 hnot.2

/-- Suffix letters are neither digits nor full stops. -/
theorem keepsPoint_append {u : Bytes} (hu : ∀ b ∈ u, isNumberSuffix b = true) :
    KeepsPoint (w ++ u) rest ↔ KeepsPoint w (u ++ rest) := by
  constructor
  · intro h digits more heq hdigits hlt
    refine h digits more ((List.append_assoc ..).trans heq) hdigits ?_
    rw [List.length_append]
    omega
  · intro h digits more heq hdigits hlt
    rw [List.append_assoc] at heq
    by_cases hshort : digits.length < w.length
    · exact h digits more heq hdigits hshort
    · obtain ⟨k, rfl⟩ : w <+: digits := by
        refine List.prefix_of_prefix_length_le (List.prefix_append w (u ++ rest)) ?_
          (Nat.le_of_not_lt hshort)
        rw [heq]
        exact List.prefix_append ..
      rw [List.append_assoc, List.append_cancel_left_eq] at heq
      cases u with
      | nil =>
          rw [List.append_nil, List.length_append] at hlt
          omega
      | cons b u =>
          have hb := hu b List.mem_cons_self
          cases k with
          | nil =>
              rw [(List.cons.inj heq).1] at hb
              exact absurd hb (by decide)
          | cons c k =>
              have hc := hdigits c (by simp)
              rw [← (List.cons.inj heq).1] at hc
              simp only [isNumberSuffix, Bool.or_eq_true, beq_iff_eq] at hb
              rcases hb with ((((rfl | rfl) | rfl) | rfl) | rfl) | rfl <;> cases hc

/-- **A number is its body and suffix letters.** -/
theorem isNumber_iff :
    IsNumber w rest ↔ Then IsBody (fun u _ => ∀ b ∈ u, isNumberSuffix b = true) w rest := by
  constructor
  · rintro ⟨htext, hpoint⟩
    obtain ⟨a, ha, u, hu, rfl⟩ := Language.mem_mul.mp htext
    have hu' := mem_kstar_byteIn.mp hu
    refine ⟨a, u, rfl, ha.imp id fun hdecimal => ?_, hu'⟩
    exact isDecimal_iff.mpr ⟨hdecimal, (keepsPoint_append hu').mp hpoint⟩
  · rintro ⟨a, u, rfl, ha | ha, hu⟩
    · exact ⟨Language.append_mem_mul (.inl ha) (mem_kstar_byteIn.mpr hu),
        keepsPoint_of_mem_hexadecimals ha u rest⟩
    · obtain ⟨htext, hpoint⟩ := isDecimal_iff.mp ha
      exact ⟨Language.append_mem_mul (.inr htext) (mem_kstar_byteIn.mpr hu),
        (keepsPoint_append hu).mpr hpoint⟩

/-- Only the zero of a hexadecimal number can be read as a decimal one. -/
theorem decimalLength_le_of_hexLength? {bytes : Bytes} {n : Nat} (h : hexLength? bytes = some n) :
    decimalLength bytes ≤ n := by
  obtain ⟨b, x, rest, rfl, hx, rfl⟩ := hexLength?_eq_some_iff.mp h
  obtain ⟨hb, hx⟩ := Bool.and_eq_true_iff.mp hx
  obtain rfl := of_decide_eq_true hb
  have hone : decimalLength (Ascii.zero :: x :: rest) = 1 := by
    rcases Bool.or_eq_true_iff.mp hx with h | h <;> obtain rfl := of_decide_eq_true h
    · cases rest <;> rfl
    · cases rest <;> rfl
  omega

/-- What the scanner takes is a number. -/
theorem isBody_take_numberBody (bytes : Bytes) :
    IsBody (bytes.take (numberBody bytes)) (bytes.drop (numberBody bytes)) := by
  unfold numberBody
  cases h : hexLength? bytes with
  | none =>
      obtain ⟨_, hgreedy⟩ := greedy_decimalLength
      exact .inr (hgreedy.takes bytes)
  | some n =>
      obtain ⟨b, x, rest, rfl, hx, rfl⟩ := hexLength?_eq_some_iff.mp h
      obtain ⟨hb, hx⟩ := Bool.and_eq_true_iff.mp hx
      obtain rfl := of_decide_eq_true hb
      exact .inl (mem_hexadecimals.mpr ⟨x, _, hx, (greedy_runLength _).takes rest, rfl⟩)

/-- No number is longer than what the scanner takes. -/
theorem IsBody.length_le (h : IsBody w rest) : w.length ≤ numberBody (w ++ rest) := by
  unfold numberBody
  rcases h with h | h
  · obtain ⟨x, u, hx, hu, rfl⟩ := mem_hexadecimals.mp h
    have hhex : hexLength? (Ascii.zero :: x :: (u ++ rest)) =
        some (runLength Ascii.isHexDigit (u ++ rest) + 2) :=
      hexLength?_eq_some_iff.mpr ⟨_, x, _, rfl, hx, rfl⟩
    rw [List.cons_append, List.cons_append, hhex]
    exact Nat.add_le_add_right ((greedy_runLength _).length_le hu) 2
  · obtain ⟨_, hgreedy⟩ := greedy_decimalLength
    refine (hgreedy.length_le h).trans ?_
    cases hhex : hexLength? (w ++ rest) with
    | none => exact Nat.le_refl _
    | some n => exact decimalLength_le_of_hexLength? hhex

/-! ## Whole numbers -/

/-- What the scanner takes is a number. -/
theorem isNumber_take_numberLength (bytes : Bytes) :
    IsNumber (bytes.take (numberLength bytes)) (bytes.drop (numberLength bytes)) :=
  isNumber_iff.mpr
    (Then.take isBody_take_numberBody (greedy_runLength isNumberSuffix).takes bytes)

/-- **No number at the start of a stream is longer** than what the scanner takes. -/
theorem IsNumber.length_le (h : IsNumber w rest) : w.length ≤ numberLength (w ++ rest) := by
  obtain ⟨a, u, rfl, ha, hu⟩ := isNumber_iff.mp h
  have hbody := ha.length_le
  show _ ≤ numberBody _ + runLength isNumberSuffix (List.drop (numberBody _) _)
  rw [List.append_assoc, List.length_append]
  generalize numberBody (a ++ (u ++ rest)) = n at hbody ⊢
  -- The body may have taken suffix letters that are hexadecimal digits; those left are still a run.
  by_cases hall : n ≤ a.length + u.length
  · have hdrop : (a ++ (u ++ rest)).drop n = u.drop (n - a.length) ++ rest := by
      rw [List.drop_append, List.drop_eq_nil_of_le hbody, List.nil_append,
        List.drop_append_of_le_length (by omega)]
    have hleft : ∀ b ∈ u.drop (n - a.length), isNumberSuffix b = true :=
      fun b hb => hu b (List.mem_of_mem_drop hb)
    have hrun : (u.drop (n - a.length)).length ≤
        runLength isNumberSuffix (u.drop (n - a.length) ++ rest) :=
      (greedy_runLength isNumberSuffix).length_le hleft
    rw [List.length_drop] at hrun
    rw [hdrop]
    omega
  · omega

end Whole

end ZDecl.Token
