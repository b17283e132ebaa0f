import ZDecl.Proofs.Text.Decoding

/-!
# Texts as bytes

Decoding a stream replaces what is ill-formed, so the bytes of its text need not be the bytes of the
stream. The other way round nothing is lost: the text of the bytes of a text is that text.

* `decodeFirst_encodeChar`: the bytes of a character are decoded as that character, whatever stands
  behind them.
* **`decode_encode`**: the text of the bytes of a text.
* **`encode_decode_of_ascii`**: the bytes of the text of ASCII bytes.
* **`encode_decode_cons_of_le`**: bytes beyond ASCII come back as bytes beyond ASCII.
-/

namespace ZDecl.Utf8

/-- The bytes of a text are those of its characters. -/
theorem encode_eq (s : String) : encode s = s.toList.flatMap String.utf8EncodeChar := by
  have h : s.toUTF8 = s.toList.utf8Encode := s.utf8Encode_toList.symm
  rw [encode, h, List.utf8Encode, List.data_toByteArray, List.toList_toArray]

/-- The empty text has no bytes. -/
@[simp] theorem encode_empty : encode "" = [] := by
  simp [encode_eq]

/-- Texts are encoded one behind the other. -/
@[simp] theorem encode_append (s t : String) : encode (s ++ t) = encode s ++ encode t := by
  simp [encode_eq]

/-- A text is encoded character by character. -/
theorem encode_ofList (cs : List Char) :
    encode (String.ofList cs) = cs.flatMap String.utf8EncodeChar := by
  rw [encode_eq, String.toList_ofList]

/-! ## The bytes of a character -/

/-- The bytes that a first byte announces are the ones that carry its character on. -/
theorem Lead.continued_append {lead : Lead} {second : UInt8} {more : Bytes}
    (hlength : more.length + 1 = lead.following) (hlow : lead.secondLow ≤ second)
    (hhigh : second ≤ lead.secondHigh) (hmore : ∀ b ∈ more, Ascii.isContinuation b = true)
    (rest : Bytes) : lead.continued (second :: more ++ rest) = second :: more := by
  unfold Lead.continued
  rw [← hlength, List.cons_append, List.take_succ_cons, List.take_left]
  simp [hlow, hhigh, List.takeWhile_eq_self_iff.mpr hmore]

/-- The first character of a stream that starts with all the bytes that its first one announces. -/
theorem decodeFirst_append_of_lead {b second : UInt8} {lead : Lead} {more : Bytes}
    (hlead : Lead.ofByte? b = some lead) (hlength : more.length + 1 = lead.following)
    (hlow : lead.secondLow ≤ second) (hhigh : second ≤ lead.secondHigh)
    (hmore : ∀ b ∈ more, Ascii.isContinuation b = true) (rest : Bytes) :
    decodeFirst b (second :: more ++ rest) =
      (Char.ofNat (assemble lead.payload (second :: more)), more.length + 1) := by
  unfold decodeFirst
  rw [hlead]
  dsimp only
  rw [Lead.continued_append hlength hlow hhigh hmore, List.length_cons, if_pos hlength]

/-- A number below 256 is a byte. -/
theorem toNat_ofNat_of_lt {n : Nat} (h : n < 256) : (UInt8.ofNat n).toNat = n := by
  rw [UInt8.toNat_ofNat', Nat.mod_eq_of_lt h]

/-- A byte below another one has the smaller number. -/
theorem ofNat_lt {n : Nat} {b : UInt8} (hn : n < 256) (h : n < b.toNat) : UInt8.ofNat n < b := by
  rwa [UInt8.lt_iff_toNat_lt, toNat_ofNat_of_lt hn]

/-- The byte with the given six bits, of those that carry a character on. -/
def continuation (bits : Nat) : UInt8 := UInt8.ofNat (bits % 64 + 128)

/-- The number of a continuation byte shows its six bits. -/
theorem toNat_continuation (bits : Nat) : (continuation bits).toNat = bits % 64 + 128 :=
  toNat_ofNat_of_lt (by omega)

/-- A continuation byte is no less than a bound that its bits reach. -/
theorem le_continuation {low : UInt8} {bits : Nat} (h : low.toNat ≤ bits % 64 + 128) :
    low ≤ continuation bits := by
  rwa [UInt8.le_iff_toNat_le, toNat_continuation]

/-- A continuation byte is no more than a bound that its bits keep to. -/
theorem continuation_le {high : UInt8} {bits : Nat} (h : bits % 64 + 128 ≤ high.toNat) :
    continuation bits ≤ high := by
  rwa [UInt8.le_iff_toNat_le, toNat_continuation]

/-- A continuation byte is recognized as one. -/
theorem isContinuation_continuation (bits : Nat) :
    Ascii.isContinuation (continuation bits) = true := by
  simp only [Ascii.isContinuation, Bool.and_eq_true, decide_eq_true_eq]
  exact ⟨le_continuation (by show 128 ≤ _; omega), continuation_le (by show _ ≤ 191; omega)⟩

/-- Six bits are taken out of such a byte again. -/
theorem continuation_mod (bits : Nat) : (continuation bits).toNat % 64 = bits % 64 := by
  rw [toNat_continuation]
  omega

/-- The first bytes of characters of two bytes. -/
theorem Lead.ofByte?_two {n : Nat} (hlow : 0xC2 ≤ n) (hhigh : n < 0xE0) :
    Lead.ofByte? (UInt8.ofNat n) = some { payload := n - 0xC0, following := 1 } := by
  unfold Lead.ofByte?
  rw [toNat_ofNat_of_lt (by omega)]
  rw [if_neg (by omega), if_neg (by omega), if_pos hhigh]

/-- The first bytes of characters of three bytes, with their bounds on the second one. -/
theorem Lead.ofByte?_three {n : Nat} (hlow : 0xE0 ≤ n) (hhigh : n < 0xF0) :
    Lead.ofByte? (UInt8.ofNat n) = some {
      payload := n - 0xE0
      following := 2
      secondLow := if n = 0xE0 then 0xA0 else 0x80
      secondHigh := if n = 0xED then 0x9F else 0xBF } := by
  unfold Lead.ofByte?
  rw [toNat_ofNat_of_lt (by omega)]
  rw [if_neg (by omega), if_neg (by omega), if_neg (by omega)]
  split
  · next h => subst h; rfl
  · split
    · next h => subst h; rfl
    · rfl

/-- The first bytes of characters of four bytes, with their bounds on the second one. -/
theorem Lead.ofByte?_four {n : Nat} (hlow : 0xF0 ≤ n) (hhigh : n ≤ 0xF4) :
    Lead.ofByte? (UInt8.ofNat n) = some {
      payload := n - 0xF0
      following := 3
      secondLow := if n = 0xF0 then 0x90 else 0x80
      secondHigh := if n = 0xF4 then 0x8F else 0xBF } := by
  unfold Lead.ofByte?
  rw [toNat_ofNat_of_lt (by omega)]
  rw [if_neg (by omega), if_neg (by omega), if_neg (by omega), if_neg (by omega),
    if_neg (by omega), if_neg (by omega)]
  split
  · next h => subst h; rfl
  · split
    · next h => rw [if_neg (by omega)]
    · next h =>
        obtain rfl : n = 0xF4 := by omega
        rfl

/-- **The bytes of a character** are decoded as that character, whatever stands behind them. -/
theorem decodeFirst_encodeChar (c : Char) : ∃ b tail, String.utf8EncodeChar c = b :: tail ∧
    ∀ rest, decodeFirst b (tail ++ rest) = (c, tail.length) := by
  have hvalid : c.toNat < 0xD800 ∨ 0xDFFF < c.toNat ∧ c.toNat < 0x110000 := c.valid
  have hchar : ∀ n, n = c.toNat → Char.ofNat n = c := by
    intro n hn
    rw [hn, Char.ofNat_toNat]
  unfold String.utf8EncodeChar
  dsimp only
  have hval : c.val.toNat = c.toNat := rfl
  rw [hval]
  generalize c.toNat = v at hvalid hchar
  -- One case for each number of bytes.
  split
  · next h =>
      refine ⟨_, [], rfl, fun rest => ?_⟩
      have hlt : UInt8.ofNat v < 0x80 := ofNat_lt (by omega) (by show v < 128; omega)
      rw [decodeFirst_of_lt hlt, toNat_ofNat_of_lt (by omega), hchar v rfl]
      rfl
  split
  · next h =>
      refine ⟨_, [continuation v], rfl, fun rest => ?_⟩
      rw [decodeFirst_append_of_lead (Lead.ofByte?_two (by omega) (by omega)) rfl
        (le_continuation (by show 128 ≤ _; omega)) (continuation_le (by show _ ≤ 191; omega))
        (by simp)]
      refine Prod.ext (hchar _ ?_) rfl
      simp only [assemble, List.foldl_cons, List.foldl_nil, continuation_mod]
      omega
  split
  · next h =>
      refine ⟨_, [continuation (v / 64), continuation v], rfl, fun rest => ?_⟩
      rw [decodeFirst_append_of_lead (Lead.ofByte?_three (by omega) (by omega)) rfl
        (le_continuation ?_) (continuation_le ?_) (by simp [isContinuation_continuation])]
      · refine Prod.ext (hchar _ ?_) rfl
        simp only [assemble, List.foldl_cons, List.foldl_nil, continuation_mod]
        omega
      · dsimp only
        split
        · show 160 ≤ _
          omega
        · show 128 ≤ _
          omega
      · dsimp only
        split
        · show _ ≤ 159
          omega
        · show _ ≤ 191
          omega
  · next h =>
      refine ⟨_, [continuation (v / 4096), continuation (v / 64), continuation v], rfl,
        fun rest => ?_⟩
      rw [decodeFirst_append_of_lead (Lead.ofByte?_four (by omega) (by omega)) rfl
        (le_continuation ?_) (continuation_le ?_) (by simp [isContinuation_continuation])]
      · refine Prod.ext (hchar _ ?_) rfl
        simp only [assemble, List.foldl_cons, List.foldl_nil, continuation_mod]
        omega
      · dsimp only
        split
        · show 144 ≤ _
          omega
        · show 128 ≤ _
          omega
      · dsimp only
        split
        · show _ ≤ 143
          omega
        · show _ ≤ 191
          omega

/-! ## Decoding what was encoded -/

/-- The characters of the bytes of some characters. -/
theorem decodeChars_flatMap_encodeChar (cs : List Char) :
    decodeChars (cs.flatMap String.utf8EncodeChar) = cs := by
  induction cs with
  | nil => rw [List.flatMap_nil, decodeChars]
  | cons c cs ih =>
      obtain ⟨b, tail, hc, hfirst⟩ := decodeFirst_encodeChar c
      rw [List.flatMap_cons, hc, List.cons_append, decodeChars, hfirst]
      dsimp only
      rw [List.drop_left, ih]

/-- **The text of the bytes of a text** is that text. -/
theorem decode_encode (s : String) : decode (encode s) = s := by
  rw [decode, encode_eq, decodeChars_flatMap_encodeChar, String.ofList_toList]

/-- The byte of an ASCII character. -/
theorem encodeChar_of_lt {c : Char} (h : c.toNat < 0x80) :
    String.utf8EncodeChar c = [UInt8.ofNat c.toNat] := by
  have hle : c.val.toNat ≤ 127 := Nat.le_of_lt_succ h
  unfold String.utf8EncodeChar
  dsimp only
  rw [if_pos hle]
  rfl

/-- None of the bytes of another character is ASCII. -/
theorem le_of_mem_encodeChar {c : Char} (h : 0x80 ≤ c.toNat) :
    ∀ b ∈ String.utf8EncodeChar c, 0x80 ≤ b := by
  have hle : ∀ n, 128 ≤ n → n < 256 → (0x80 : UInt8) ≤ UInt8.ofNat n := by
    intro n hlow hhigh
    rw [UInt8.le_iff_toNat_le, toNat_ofNat_of_lt hhigh]
    exact hlow
  have hval : c.val.toNat = c.toNat := rfl
  unfold String.utf8EncodeChar
  dsimp only
  rw [hval, if_neg (by omega)]
  generalize c.toNat = v
  split
  · simp only [List.forall_mem_cons]
    exact ⟨hle _ (by omega) (by omega), hle _ (by omega) (by omega), by simp⟩
  split
  · simp only [List.forall_mem_cons]
    exact ⟨hle _ (by omega) (by omega), hle _ (by omega) (by omega),
      hle _ (by omega) (by omega), by simp⟩
  · simp only [List.forall_mem_cons]
    exact ⟨hle _ (by omega) (by omega), hle _ (by omega) (by omega),
      hle _ (by omega) (by omega), hle _ (by omega) (by omega), by simp⟩

/-! ## What is not ASCII -/

/-- A code beyond ASCII and below the surrogates, or beyond them and below the last one, is that of
a character beyond ASCII. -/
theorem le_toNat_ofNat {n : Nat} (h : 0x80 ≤ n) (hvalid : n.isValidChar) :
    0x80 ≤ (Char.ofNat n).toNat := by
  unfold Char.ofNat
  rw [dif_pos hvalid]
  exact h

/-- The bytes that carry a character on are the next ones of the stream. -/
theorem Lead.continued_prefix (lead : Lead) (rest : Bytes) : lead.continued rest <+: rest := by
  have htake := List.take_prefix lead.following rest
  unfold Lead.continued
  split
  · exact List.nil_prefix
  · next second more hmore =>
      rw [hmore] at htake
      split
      · exact ((List.prefix_cons_inj second).mpr (List.takeWhile_prefix _)).trans htake
      · exact List.nil_prefix

/-- They are none of ASCII, and the first of them is within its bounds. -/
theorem Lead.of_continued_eq_cons {lead : Lead} {rest more : Bytes} {second : UInt8}
    (h : lead.continued rest = second :: more) : lead.secondLow ≤ second ∧
      second ≤ lead.secondHigh ∧ ∀ b ∈ more, Ascii.isContinuation b = true := by
  unfold Lead.continued at h
  split at h
  · cases h
  · split at h
    · next hbounds =>
        obtain ⟨rfl, rfl⟩ := List.cons.inj h
        simp only [Bool.and_eq_true, decide_eq_true_eq] at hbounds
        exact ⟨hbounds.1, hbounds.2, fun b hb => List.mem_takeWhile_imp hb⟩
    · cases h

/-- A first byte beyond ASCII announces further bytes. -/
theorem Lead.following_pos {b : UInt8} {lead : Lead} (hlead : Lead.ofByte? b = some lead)
    (hb : 0x80 ≤ b) : 0 < lead.following := by
  have hn : 0x80 ≤ b.toNat := UInt8.le_iff_toNat_le.mp hb
  unfold Lead.ofByte? at hlead
  dsimp only at hlead
  rw [if_neg (by omega)] at hlead
  split_ifs at hlead <;> (obtain rfl := Option.some.inj hlead; exact Nat.succ_pos _)

/-- What is assembled behind a first byte beyond ASCII is the code of a character beyond ASCII: the
bounds on the second byte see to that. -/
theorem Lead.assemble_of_ofByte? {b second : UInt8} {lead : Lead} {more : Bytes}
    (hlead : Lead.ofByte? b = some lead) (hb : 0x80 ≤ b)
    (hlength : more.length + 1 = lead.following) (hlow : lead.secondLow ≤ second)
    (hhigh : second ≤ lead.secondHigh) :
    0x80 ≤ assemble lead.payload (second :: more) ∧
      (assemble lead.payload (second :: more)).isValidChar := by
  have hn : 0x80 ≤ b.toNat := UInt8.le_iff_toNat_le.mp hb
  rw [UInt8.le_iff_toNat_le] at hlow hhigh
  have hone : more.length + 1 = 1 → more = [] := by simp
  have htwo : more.length + 1 = 2 → ∃ third, more = [third] := by
    simp [List.length_eq_one_iff]
  have hthree : more.length + 1 = 3 → ∃ third fourth, more = [third, fourth] := by
    intro h
    match more, h with
    | [third, fourth], _ => exact ⟨third, fourth, rfl⟩
  unfold Lead.ofByte? at hlead
  dsimp only at hlead
  unfold Nat.isValidChar
  rw [if_neg (by omega)] at hlead
  split_ifs at hlead with hnone htwoBytes hE0 hED hthreeBytes hF0 hfourBytes hF4
  · obtain rfl := Option.some.inj hlead
    obtain rfl := hone hlength
    simp only [assemble, List.foldl_cons, List.foldl_nil]
    omega
  · obtain rfl := Option.some.inj hlead
    obtain ⟨third, rfl⟩ := htwo hlength
    have hlow : 160 ≤ second.toNat := hlow
    have hhigh : second.toNat ≤ 191 := hhigh
    simp only [assemble, List.foldl_cons, List.foldl_nil]
    omega
  · obtain rfl := Option.some.inj hlead
    obtain ⟨third, rfl⟩ := htwo hlength
    have hlow : 128 ≤ second.toNat := hlow
    have hhigh : second.toNat ≤ 159 := hhigh
    simp only [assemble, List.foldl_cons, List.foldl_nil]
    omega
  · obtain rfl := Option.some.inj hlead
    obtain ⟨third, rfl⟩ := htwo hlength
    simp only [assemble, List.foldl_cons, List.foldl_nil]
    omega
  · obtain rfl := Option.some.inj hlead
    obtain ⟨third, fourth, rfl⟩ := hthree hlength
    have hlow : 144 ≤ second.toNat := hlow
    have hhigh : second.toNat ≤ 191 := hhigh
    simp only [assemble, List.foldl_cons, List.foldl_nil]
    omega
  · obtain rfl := Option.some.inj hlead
    obtain ⟨third, fourth, rfl⟩ := hthree hlength
    simp only [assemble, List.foldl_cons, List.foldl_nil]
    omega
  · obtain rfl := Option.some.inj hlead
    obtain ⟨third, fourth, rfl⟩ := hthree hlength
    have hlow : 128 ≤ second.toNat := hlow
    have hhigh : second.toNat ≤ 143 := hhigh
    simp only [assemble, List.foldl_cons, List.foldl_nil]
    omega

/-- **A byte beyond ASCII starts a character beyond ASCII**, be it the one that replaces what is
ill-formed, and takes only bytes beyond ASCII. -/
theorem decodeFirst_of_le {b : UInt8} (hb : 0x80 ≤ b) (rest : Bytes) :
    0x80 ≤ (decodeFirst b rest).1.toNat ∧
      ∀ c ∈ rest.take (decodeFirst b rest).2, 0x80 ≤ c := by
  have hreplacement : 0x80 ≤ replacement.toNat := by decide
  unfold decodeFirst
  cases hlead : Lead.ofByte? b with
  | none => exact ⟨hreplacement, by simp⟩
  | some lead =>
      have htaken : rest.take (lead.continued rest).length = lead.continued rest :=
        (List.prefix_iff_eq_take.mp (lead.continued_prefix rest)).symm
      dsimp only
      cases hcontinued : lead.continued rest with
      | nil =>
          have hlength : ([] : Bytes).length ≠ lead.following :=
            Nat.ne_of_lt (Lead.following_pos hlead hb)
          rw [if_neg hlength]
          exact ⟨hreplacement, by simp⟩
      | cons second more =>
          obtain ⟨hlow, hhigh, hmore⟩ := Lead.of_continued_eq_cons hcontinued
          have hsecond := Lead.isContinuation_of_bounds hlead hlow hhigh
          have hall : ∀ c ∈ second :: more, 0x80 ≤ c := by
            intro c hc
            have hcont : Ascii.isContinuation c = true := by
              rcases List.mem_cons.mp hc with rfl | hc
              · exact hsecond
              · exact hmore c hc
            simp only [Ascii.isContinuation, Bool.and_eq_true, decide_eq_true_eq] at hcont
            exact hcont.1
          rw [hcontinued] at htaken
          split
          · next hlength =>
              obtain ⟨hle, hvalid⟩ := Lead.assemble_of_ofByte? hlead hb hlength hlow hhigh
              refine ⟨le_toNat_ofNat hle hvalid, ?_⟩
              dsimp only
              rwa [htaken]
          · refine ⟨hreplacement, ?_⟩
            dsimp only
            rwa [htaken]

/-- The character that an ASCII byte is. -/
theorem toNat_charOf {b : UInt8} (h : b < 0x80) : (Char.ofNat b.toNat).toNat = b.toNat := by
  have hlt : b.toNat < 0x80 := UInt8.lt_iff_toNat_lt.mp h
  have hvalid : b.toNat.isValidChar := .inl (by omega)
  unfold Char.ofNat
  rw [dif_pos hvalid]
  rfl

/-! ## Encoding what was decoded -/

/-- An ASCII byte comes back. -/
theorem encode_decode_cons_of_lt {b : UInt8} (hb : b < 0x80) (rest : Bytes) :
    encode (decode (b :: rest)) = b :: encode (decode rest) := by
  have hchar : (Char.ofNat b.toNat).toNat < 0x80 := by
    rw [toNat_charOf hb]
    exact UInt8.lt_iff_toNat_lt.mp hb
  rw [decode, decode, encode_ofList, encode_ofList, decodeChars_cons_of_lt hb, List.flatMap_cons,
    encodeChar_of_lt hchar, toNat_charOf hb, UInt8.ofNat_toNat]
  rfl

/-- **The bytes of the text of ASCII bytes** are those bytes. -/
theorem encode_decode_of_ascii {bytes : Bytes} (h : ∀ b ∈ bytes, b < 0x80) :
    encode (decode bytes) = bytes := by
  induction bytes with
  | nil => rw [decode_nil, encode_empty]
  | cons b bytes ih =>
      obtain ⟨hb, hbytes⟩ := List.forall_mem_cons.mp h
      rw [encode_decode_cons_of_lt hb, ih hbytes]

/-- For a byte beyond ASCII, and the bytes that its character takes, other bytes beyond ASCII may
come back, at least one. -/
theorem encode_decode_cons_of_le {b : UInt8} (hb : 0x80 ≤ b) (rest : Bytes) :
    ∃ back, back ≠ [] ∧ (∀ c ∈ back, 0x80 ≤ c) ∧ encode (decode (b :: rest)) =
      back ++ encode (decode (rest.drop (decodeFirst b rest).2)) := by
  obtain ⟨c, tail, hback, -⟩ := decodeFirst_encodeChar (decodeFirst b rest).1
  refine ⟨String.utf8EncodeChar (decodeFirst b rest).1, ?_, ?_, ?_⟩
  · rw [hback]
    exact List.cons_ne_nil c tail
  · exact le_of_mem_encodeChar (decodeFirst_of_le hb rest).1
  · rw [decode, encode_ofList, decodeChars, decode, encode_ofList, List.flatMap_cons]

end ZDecl.Utf8
