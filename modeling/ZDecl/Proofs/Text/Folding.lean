import ZDecl.Text.Ascii
import ZDecl.Text.Lowercase

/-!
# Lower case piece by piece

How a character is written in lower case may depend on what stands around it, and one character may
become two. Two things are true all the same. The case of ASCII letters makes no difference, neither
for themselves nor for their neighbours. And a slash separates: what stands on one side of it has no
influence on the other side, and nothing but a slash becomes one.

* `lowercase_eq_of_sameIgnoringCase`: texts that agree up to the case of ASCII letters.
* `eq_of_lowercaseAfter_eq_dots`: nothing but dots becomes dots.
* `splitOn_lowercaseAfter`: the pieces of the lower case form are the lower case forms of the
  pieces.
* **`lowercase_eq_iff`**: texts have the same lower case form if their pieces have, one by one.
-/

namespace ZDecl.Text

/-! ## ASCII letters -/

/-- What holds of all ASCII characters, and of all that are their own lower case in ASCII, holds of
all characters. -/
theorem of_ascii {P : Char → Prop} (hascii : ∀ n < 0x80, P (Char.ofNat n))
    (hother : ∀ c : Char, c.toLower = c → P c) (c : Char) : P c := by
  by_cases hc : c.toNat < 0x80
  · rw [← Char.ofNat_toNat c]
    exact hascii _ hc
  · have hupper : ¬(c.val ≥ 'A'.val ∧ c.val ≤ 'Z'.val) := by
      rintro ⟨-, hle⟩
      have hle' : c.toNat ≤ 0x5A := UInt32.le_iff_toNat_le.mp hle
      omega
    exact hother c (dif_neg hupper)

/-- Lowering an ASCII letter leaves it cased. -/
theorem isCased_toLower (c : Char) : isCased c.toLower = isCased c := by
  refine of_ascii (P := fun c => isCased c.toLower = isCased c) ?_ ?_ c
  · decide +kernel
  · intro c hc
    rw [hc]

/-- Lowering an ASCII letter leaves it as ignorable for case as it was. -/
theorem isCaseIgnorable_toLower (c : Char) : isCaseIgnorable c.toLower = isCaseIgnorable c := by
  refine of_ascii (P := fun c => isCaseIgnorable c.toLower = isCaseIgnorable c) ?_ ?_ c
  · decide +kernel
  · intro c hc
    rw [hc]

/-- The lower case form of `c` between `before`, the nearest character first, and `after`. -/
def lowercaseAt (before : List Char) (c : Char) (after : List Char) : List Char :=
  if c = capitalSigma then
    [if meetsCased before && !meetsCased after then finalSigma else smallSigma]
  else lowercaseChar c

/-- A text is lowered character by character, each one with what stands before it. -/
theorem lowercaseAfter_cons (before : List Char) (c : Char) (cs : List Char) :
    lowercaseAfter before (c :: cs) = lowercaseAt before c cs ++ lowercaseAfter (c :: before) cs :=
  rfl

/-- The case of an ASCII letter makes no difference to its lower case form. -/
theorem lowercaseAt_toLower (before : List Char) (c : Char) (after : List Char) :
    lowercaseAt before c.toLower after = lowercaseAt before c after := by
  refine of_ascii
    (P := fun c => lowercaseAt before c.toLower after = lowercaseAt before c after) ?_ ?_ c
  · have hboth : ∀ n < 0x80, Char.ofNat n ≠ capitalSigma ∧
        (Char.ofNat n).toLower ≠ capitalSigma ∧
          lowercaseChar (Char.ofNat n).toLower = lowercaseChar (Char.ofNat n) := by
      decide +kernel
    intro n hn
    obtain ⟨hc, hlower, hsame⟩ := hboth n hn
    rw [lowercaseAt, lowercaseAt, if_neg hc, if_neg hlower, hsame]
  · intro c hc
    rw [hc]

/-- Nor does it make a difference to its neighbours. -/
theorem meetsCased_map_toLower (cs : List Char) :
    meetsCased (cs.map Char.toLower) = meetsCased cs := by
  induction cs with
  | nil => rfl
  | cons c cs ih =>
      unfold meetsCased at ih ⊢
      by_cases hc : isCaseIgnorable c = true
      · have hc' : isCaseIgnorable c.toLower = true := by rw [isCaseIgnorable_toLower, hc]
        rw [List.map_cons, List.dropWhile_cons_of_pos hc', List.dropWhile_cons_of_pos hc, ih]
      · have hc' : ¬isCaseIgnorable c.toLower = true := by rwa [isCaseIgnorable_toLower]
        rw [List.map_cons, List.dropWhile_cons_of_neg hc', List.dropWhile_cons_of_neg hc]
        exact isCased_toLower c

/-- Lowering the ASCII letters first changes nothing. -/
theorem lowercaseAfter_map_toLower (before cs : List Char) :
    lowercaseAfter (before.map Char.toLower) (cs.map Char.toLower) = lowercaseAfter before cs := by
  have hat : ∀ before c after, lowercaseAt (List.map Char.toLower before) c
      (List.map Char.toLower after) = lowercaseAt before c after := by
    intro before c after
    rw [lowercaseAt, lowercaseAt, meetsCased_map_toLower, meetsCased_map_toLower]
  induction cs generalizing before with
  | nil => rfl
  | cons c cs ih =>
      rw [List.map_cons, lowercaseAfter_cons, lowercaseAfter_cons, hat, lowercaseAt_toLower,
        ← List.map_cons, ih]

/-- **Texts that agree up to the case of ASCII letters** have the same lower case form. -/
theorem lowercase_eq_of_sameIgnoringCase {s t : String} (h : sameIgnoringCase s t = true) :
    lowercase s = lowercase t := by
  have hmap := sameIgnoringCase_eq_true_iff.mp h
  have hs := lowercaseAfter_map_toLower [] s.toList
  have ht := lowercaseAfter_map_toLower [] t.toList
  rw [hmap, ht] at hs
  rw [lowercase, lowercase, hs]

/-! ## Slashes and dots -/

/-- Letters have lower case forms from the small a on. -/
theorem le_of_mem_lowercaseRuns : ∀ run ∈ lowercaseRuns, 0x61 ≤ run.2.2.2 := by
  decide +kernel

/-- No character outside ASCII is lowered to one before the small letters. -/
theorem le_lowercaseCode {n : Nat} (h : 0x80 ≤ n) : 0x61 ≤ lowercaseCode lowercaseRuns n := by
  unfold lowercaseCode
  split
  · next first last step image hfind =>
      have hle : 0x61 ≤ image := le_of_mem_lowercaseRuns _ (List.mem_of_find?_eq_some hfind)
      omega
  · omega

/-- A code from the small a on is neither that of the slash nor that of the dot. -/
theorem ofNat_ne {n : Nat} (h : 0x61 ≤ n) : Char.ofNat n ≠ '/' ∧ Char.ofNat n ≠ '.' := by
  by_cases hvalid : n.isValidChar
  · have hcode : (Char.ofNat n).toNat = n := by
      unfold Char.ofNat
      rw [dif_pos hvalid]
      rfl
    constructor
    · intro heq
      rw [heq] at hcode
      have hslash : '/'.toNat = 0x2F := rfl
      omega
    · intro heq
      rw [heq] at hcode
      have hdot : '.'.toNat = 0x2E := rfl
      omega
  · unfold Char.ofNat
    rw [dif_neg hvalid]
    decide

/-- Nothing but a slash becomes a slash, and nothing but a dot a dot. -/
theorem eq_of_mem_lowercaseAt {before after : List Char} {c d : Char} (hd : d = '/' ∨ d = '.')
    (h : d ∈ lowercaseAt before c after) : c = d := by
  unfold lowercaseAt at h
  split at h
  · -- Neither small sigma is a slash or a dot.
    rw [List.mem_singleton] at h
    split at h <;> rcases hd with rfl | rfl <;> exact absurd h (by decide)
  · unfold lowercaseChar at h
    split at h
    · next hascii =>
        have hsame : ∀ n < 0x80, ('/' = (Char.ofNat n).toLower → Char.ofNat n = '/') ∧
            ('.' = (Char.ofNat n).toLower → Char.ofNat n = '.') := by
          decide +kernel
        have hlower := hsame c.toNat hascii
        rw [Char.ofNat_toNat] at hlower
        rcases hd with rfl | rfl
        · exact hlower.1 (List.mem_singleton.mp h)
        · exact hlower.2 (List.mem_singleton.mp h)
    · next hascii =>
        split at h
        · rcases hd with rfl | rfl <;> exact absurd h (by decide)
        · have hne := ofNat_ne (le_lowercaseCode (Nat.le_of_not_lt hascii))
          rw [List.mem_singleton] at h
          rcases hd with rfl | rfl
          · exact absurd h.symm hne.1
          · exact absurd h.symm hne.2

/-- A slash stays a slash, and a dot a dot. -/
theorem lowercaseAt_self {d : Char} (hd : d = '/' ∨ d = '.') (before after : List Char) :
    lowercaseAt before d after = [d] := by
  rcases hd with rfl | rfl <;> rfl

/-- No character disappears. -/
theorem lowercaseAt_ne_nil (before : List Char) (c : Char) (after : List Char) :
    lowercaseAt before c after ≠ [] := by
  unfold lowercaseAt lowercaseChar
  split
  · exact List.cons_ne_nil _ _
  · split
    · exact List.cons_ne_nil _ _
    · split <;> exact List.cons_ne_nil _ _

/-- A text without a slash has none in lower case. -/
theorem slash_not_mem_lowercaseAfter {cs : List Char} (h : '/' ∉ cs) (before : List Char) :
    '/' ∉ lowercaseAfter before cs := by
  induction cs generalizing before with
  | nil => exact h
  | cons c cs ih =>
      obtain ⟨hc, hcs⟩ := not_or.mp (mt List.mem_cons.mpr h)
      rw [lowercaseAfter_cons]
      intro hmem
      rcases List.mem_append.mp hmem with hmem | hmem
      · exact hc (eq_of_mem_lowercaseAt (.inl rfl) hmem).symm
      · exact ih hcs _ hmem

/-- **Nothing but dots becomes dots**, and nothing but the empty text the empty text. -/
theorem eq_of_lowercaseAfter_eq_dots {before cs dots : List Char} (hdots : ∀ d ∈ dots, d = '.')
    (h : lowercaseAfter before cs = dots) : cs = dots := by
  induction cs generalizing before dots with
  | nil => exact h
  | cons c cs ih =>
      subst h
      rw [lowercaseAfter_cons] at hdots ⊢
      obtain ⟨hhead, htail⟩ := List.forall_mem_append.mp hdots
      obtain ⟨d, more, hchunk⟩ := List.exists_cons_of_ne_nil (lowercaseAt_ne_nil before c cs)
      have hd : d ∈ lowercaseAt before c cs := by
        rw [hchunk]
        exact List.mem_cons_self
      obtain rfl : d = '.' := hhead d hd
      obtain rfl : c = '.' := eq_of_mem_lowercaseAt (.inr rfl) hd
      rw [lowercaseAt_self (.inr rfl), List.singleton_append]
      exact congrArg _ (ih htail rfl)

/-! ## Pieces -/

/-- What stands behind a slash has no influence. -/
theorem meetsCased_append_slash (cs more : List Char) :
    meetsCased (cs ++ '/' :: more) = meetsCased cs := by
  induction cs with
  | nil => rfl
  | cons c cs ih =>
      unfold meetsCased at ih ⊢
      by_cases hc : isCaseIgnorable c = true
      · rw [List.cons_append, List.dropWhile_cons_of_pos hc, List.dropWhile_cons_of_pos hc, ih]
      · rw [List.cons_append, List.dropWhile_cons_of_neg hc, List.dropWhile_cons_of_neg hc]

/-- Nor has what stands before one. -/
theorem lowercaseAfter_append_slash (before more cs : List Char) :
    lowercaseAfter (before ++ '/' :: more) cs = lowercaseAfter before cs := by
  induction cs generalizing before with
  | nil => rfl
  | cons c cs ih =>
      rw [lowercaseAfter_cons, lowercaseAfter_cons, lowercaseAt, meetsCased_append_slash,
        ← lowercaseAt, ← List.cons_append, ih]

/-- The two sides of a slash. -/
theorem lowercaseAfter_slash (before cs rest : List Char) :
    lowercaseAfter before (cs ++ '/' :: rest) =
      lowercaseAfter before cs ++ '/' :: lowercaseAfter [] rest := by
  induction cs generalizing before with
  | nil =>
      have hrest := lowercaseAfter_append_slash [] before rest
      rw [List.nil_append] at hrest ⊢
      rw [lowercaseAfter_cons, lowercaseAt_self (.inl rfl), hrest]
      rfl
  | cons c cs ih =>
      rw [List.cons_append, lowercaseAfter_cons, lowercaseAfter_cons, lowercaseAt,
        meetsCased_append_slash, ← lowercaseAt, ih, List.append_assoc]

/-- **The pieces of the lower case form** are the lower case forms of the pieces. -/
theorem splitOn_lowercaseAfter (cs : List Char) :
    (lowercaseAfter [] cs).splitOn '/' = (cs.splitOn '/').map (lowercaseAfter []) := by
  induction hn : cs.length using Nat.strongRecOn generalizing cs with
  | ind n ih =>
      subst hn
      by_cases hslash : '/' ∈ cs
      · obtain ⟨piece, rest, rfl, hpiece⟩ := List.eq_append_cons_of_mem hslash
        have hlower := slash_not_mem_lowercaseAfter hpiece []
        have hshorter : rest.length < (piece ++ '/' :: rest).length := by
          rw [List.length_append, List.length_cons]
          omega
        rw [lowercaseAfter_slash, List.splitOn_append_cons_self_of_not_mem hlower,
          List.splitOn_append_cons_self_of_not_mem hpiece, ih _ hshorter rest rfl, List.map_cons]
      · have hlower := slash_not_mem_lowercaseAfter hslash []
        rw [List.splitOn_eq_singleton hslash, List.splitOn_eq_singleton hlower]
        rfl

/-- **Texts have the same lower case form if their pieces have**, one by one. -/
theorem lowercase_eq_iff {s t : String} : lowercase s = lowercase t ↔
    (s.toList.splitOn '/').map (lowercaseAfter []) =
      (t.toList.splitOn '/').map (lowercaseAfter []) := by
  rw [← splitOn_lowercaseAfter, ← splitOn_lowercaseAfter, lowercase, lowercase, String.ofList_inj]
  constructor
  · intro h
    rw [h]
  · intro h
    have hjoined := congrArg (['/'].intercalate ·) h
    simpa only [List.intercalate_splitOn] using hjoined

end ZDecl.Text
