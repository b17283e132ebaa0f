import Mathlib.Data.List.TakeWhile
import Mathlib.Tactic.SplitIfs
import ZDecl.Text.Utf8

/-!
# Decoding a stream in parts

Replacing ill-formed pieces makes the text of a stream depend on where the stream is cut: a
character that is cut in two is read as two replacement characters. This file says which cuts do no
harm.

* `Utf8.Apart`: no character of a stream stands on both sides of a cut.
* `Lead.continued_eq_takeWhile`: how far a character goes is decided by the run of bytes behind its
  first one that can continue a character.
* **`decodeChars_append`**: at such a cut, the text of the stream is that of its two parts.
-/

namespace ZDecl.Utf8

/-- Is there no character of a stream on both sides of the cut between `left` and `right`? The last
byte before the cut is ASCII, or the first one behind it continues no character. -/
def Apart (left right : Bytes) : Prop :=
  (∀ b ∈ left.getLast?, b < 0x80) ∨ ∀ b ∈ right.head?, Ascii.isContinuation b = false

/-- Nothing is on the right of the end of a stream. -/
theorem apart_nil_right (left : Bytes) : Apart left [] := by
  right
  simp

/-- Behind an ASCII byte, every cut is between characters. -/
theorem apart_of_getLast? {left : Bytes} {b : UInt8} (h : left.getLast? = some b) (hb : b < 0x80)
    (right : Bytes) : Apart left right := by
  left
  intro c hc
  rw [h] at hc
  obtain rfl := Option.some.inj hc
  exact hb

/-- A cut stays harmless when the part before it gets shorter from the left. -/
theorem Apart.drop {left right : Bytes} (h : Apart left right) (n : Nat) :
    Apart (left.drop n) right := by
  rcases h with hleft | hright
  · left
    intro b hb
    by_cases hn : left.length ≤ n
    · rw [List.drop_eq_nil_of_le hn] at hb
      cases hb
    · rw [List.getLast?_drop, if_neg hn] at hb
      exact hleft b hb
  · right
    exact hright

/-! ## Bytes that continue a character -/

/-- A byte that continues a character is not ASCII. -/
theorem not_isContinuation_of_lt {b : UInt8} (h : b < 0x80) : Ascii.isContinuation b = false := by
  unfold Ascii.isContinuation
  simp only [Bool.and_eq_false_iff, decide_eq_false_iff_not]
  left
  exact UInt8.not_le.mpr h

/-- An ASCII byte announces no further bytes. -/
theorem Lead.ofByte?_of_lt {b : UInt8} (h : b < 0x80) :
    Lead.ofByte? b = some { payload := b.toNat, following := 0 } := by
  have hn : b.toNat < 0x80 := UInt8.lt_iff_toNat_lt.mp h
  unfold Lead.ofByte?
  simp only [hn, if_true]

/-- The bounds on a second byte let only bytes pass that continue a character. -/
theorem Lead.isContinuation_of_bounds {b second : UInt8} {lead : Lead}
    (h : Lead.ofByte? b = some lead) (hlow : lead.secondLow ≤ second)
    (hhigh : second ≤ lead.secondHigh) : Ascii.isContinuation second = true := by
  have hbounds : 0x80 ≤ lead.secondLow ∧ lead.secondHigh ≤ 0xBF := by
    unfold Lead.ofByte? at h
    dsimp only at h
    split_ifs at h <;> simp only [Option.some.injEq] at h <;> subst h <;> simp
  unfold Ascii.isContinuation
  simp only [Bool.and_eq_true, decide_eq_true_eq]
  exact ⟨UInt8.le_trans hbounds.1 hlow, UInt8.le_trans hhigh hbounds.2⟩

/-- How far a character goes is decided by the bytes that can continue it. -/
theorem Lead.continued_eq_takeWhile {b : UInt8} {lead : Lead} (h : Lead.ofByte? b = some lead)
    (rest : Bytes) :
    lead.continued rest = lead.continued (rest.takeWhile Ascii.isContinuation) := by
  cases rest with
  | nil => rfl
  | cons second more =>
      unfold Lead.continued
      cases lead.following with
      | zero => simp
      | succ n =>
          by_cases hsecond : Ascii.isContinuation second = true
          · rw [List.takeWhile_cons_of_pos hsecond, List.take_succ_cons, List.take_succ_cons]
            simp only [List.take_takeWhile, List.takeWhile_idem]
          · rw [List.takeWhile_cons_of_neg hsecond, List.take_succ_cons]
            have hout : (lead.secondLow ≤ second && second ≤ lead.secondHigh) = false := by
              rw [Bool.eq_false_iff]
              intro hin
              simp only [Bool.and_eq_true, decide_eq_true_eq] at hin
              exact hsecond (Lead.isContinuation_of_bounds h hin.1 hin.2)
            simp [hout]

/-- A run of bytes that continue a character ends before a harmless cut. -/
theorem Apart.takeWhile_append {left right : Bytes} (h : Apart left right) (hleft : left ≠ []) :
    (left ++ right).takeWhile Ascii.isContinuation = left.takeWhile Ascii.isContinuation := by
  rcases h with hlast | hhead
  · obtain ⟨front, b, rfl⟩ : ∃ front b, left = front ++ [b] :=
      ⟨_, _, (List.dropLast_concat_getLast hleft).symm⟩
    have hb : Ascii.isContinuation b = false := not_isContinuation_of_lt (hlast b (by simp))
    have hnot : ∀ more, (b :: more).takeWhile Ascii.isContinuation = [] :=
      fun more => List.takeWhile_cons_of_neg (by simp [hb])
    rw [List.append_assoc, List.takeWhile_append, List.singleton_append, hnot,
      List.takeWhile_append, hnot]
  · cases right with
    | nil => rw [List.append_nil]
    | cons b right =>
        have hb : Ascii.isContinuation b = false := hhead b rfl
        rw [List.takeWhile_append, List.takeWhile_cons_of_neg (by simp [hb]), List.append_nil]
        split
        · next hall => exact ((List.takeWhile_prefix _).eq_of_length hall).symm
        · rfl

/-! ## The text of two parts -/

/-- An empty stream has no text. -/
@[simp] theorem decode_nil : decode [] = "" := by
  unfold decode
  rw [decodeChars]

/-- An ASCII byte is a character of its own. -/
theorem decodeFirst_of_lt {b : UInt8} (h : b < 0x80) (rest : Bytes) :
    decodeFirst b rest = (Char.ofNat b.toNat, 0) := by
  unfold decodeFirst
  rw [Lead.ofByte?_of_lt h]
  rfl

/-- An ASCII byte is a character by itself. -/
theorem decodeChars_cons_of_lt {b : UInt8} (h : b < 0x80) (rest : Bytes) :
    decodeChars (b :: rest) = Char.ofNat b.toNat :: decodeChars rest := by
  rw [decodeChars, decodeFirst_of_lt h]
  rfl

/-- The first character of a stream does not depend on what stands behind a harmless cut. -/
theorem decodeFirst_append {b : UInt8} {left right : Bytes} (h : Apart (b :: left) right) :
    decodeFirst b (left ++ right) = decodeFirst b left := by
  unfold decodeFirst
  cases hlead : Lead.ofByte? b with
  | none => rfl
  | some lead =>
      have hcontinued : lead.continued (left ++ right) = lead.continued left := by
        cases left with
        | nil =>
            rcases h with hlast | hhead
            · rw [Lead.ofByte?_of_lt (hlast b rfl)] at hlead
              cases hlead
              rfl
            · rw [Lead.continued_eq_takeWhile hlead, List.nil_append]
              cases right with
              | nil => rfl
              | cons c right => rw [List.takeWhile_cons_of_neg (by simp [hhead c rfl])]
        | cons c left =>
            have htail : Apart (c :: left) right := h.drop 1
            rw [Lead.continued_eq_takeWhile hlead, htail.takeWhile_append (by simp),
              ← Lead.continued_eq_takeWhile hlead]
      simp only [hcontinued]

/-- A character goes no further than the stream. -/
theorem decodeFirst_le (b : UInt8) (rest : Bytes) : (decodeFirst b rest).2 ≤ rest.length := by
  have hcontinued : ∀ lead : Lead, (lead.continued rest).length ≤ rest.length := by
    intro lead
    unfold Lead.continued
    have htake := List.length_take_le' lead.following rest
    split
    · simp
    · next second more hmore =>
        rw [hmore, List.length_cons] at htake
        have hwhile := (List.takeWhile_sublist Ascii.isContinuation (l := more)).length_le
        split
        · rw [List.length_cons]
          omega
        · simp
  unfold decodeFirst
  split
  · simp
  · dsimp only
    split
    · exact hcontinued _
    · exact hcontinued _

/-- **Decoding in two parts**: where no character stands on both sides of a cut, the text of the
stream is that of the part before the cut and then that of the part behind it. -/
theorem decodeChars_append {left right : Bytes} (h : Apart left right) :
    decodeChars (left ++ right) = decodeChars left ++ decodeChars right := by
  -- Character by character, with what is left of the first part after each of them.
  induction hn : left.length using Nat.strongRecOn generalizing left with
  | ind n ih =>
      cases left with
      | nil =>
          rw [List.nil_append, decodeChars, List.nil_append]
      | cons b left =>
          have hextra := decodeFirst_le b left
          rw [List.cons_append, decodeChars, decodeChars, decodeFirst_append h]
          simp only [List.cons_append]
          rw [List.drop_append_of_le_length hextra]
          have hshorter : (left.drop (decodeFirst b left).2).length < n := by
            rw [List.length_drop, ← hn, List.length_cons]
            omega
          have hcut : Apart (left.drop (decodeFirst b left).2) right := h.drop (_ + 1)
          rw [ih _ hshorter hcut rfl]

/-- The text of two parts of a stream. -/
theorem decode_append {left right : Bytes} (h : Apart left right) :
    decode (left ++ right) = decode left ++ decode right := by
  unfold decode
  rw [decodeChars_append h, String.ofList_append]

end ZDecl.Utf8
