import Mathlib.Algebra.Order.BigOperators.Group.List
import Mathlib.Algebra.Order.Group.Nat
import ZDecl.Proofs.Scan.Promptness
import ZDecl.Proofs.Token.Printing

/-!
# There is always another file to include

Paths may be as long as one likes, so whatever a session has visited, there is a path that it may
still include, and a string literal that spells it.

* `Token.quoted`: the string literal of a text.
* `IncludePath.ofLength`: a path of each length, which is its own key.
* **`exists_fresh_path`**: the literal of a path that was not visited.
-/

namespace ZDecl

/-! ## Literals -/

namespace Token

/-- The string literal of a text. -/
def quoted (text : String) : Token :=
  firstOf Ascii.quote (Utf8.encode text ++ [Ascii.quote])

/-- A text that may stand between quotes is what its literal says. -/
theorem quoted_of_enclosed {text : String}
    (h : Enclosed Ascii.quote false (Utf8.encode text)) :
    (quoted text).Writable ∧ (quoted text).kind = .string ∧ (quoted text).unquoted = text := by
  have hfirst : Lexeme.first Ascii.quote (Utf8.encode text ++ [Ascii.quote]) =
      ⟨.string, true, (Utf8.encode text).length + 1⟩ := by
    show Lexeme.quotedAt .string Ascii.quote false _ = _
    rw [Lexeme.quotedAt, quotedTail_enclosed (by decide) h]
  have hquoted : quoted text =
      ⟨.string, true, Position.start, Ascii.quote :: (Utf8.encode text ++ [Ascii.quote])⟩ := by
    unfold quoted firstOf
    rw [hfirst]
    dsimp only
    rw [List.take_of_length_le (by simp)]
  refine ⟨writable_firstOf ?_ ?_, ?_, ?_⟩
  · exact congrArg Token.valid hquoted
  · exact congrArg Token.isTrivia hquoted
  · exact congrArg Token.kind hquoted
  · rw [hquoted]
    show Utf8.decode (Utf8.encode text ++ [Ascii.quote]).dropLast = text
    rw [List.dropLast_concat, Utf8.decode_encode]

end Token

/-! ## Paths -/

namespace IncludePath

/-- A path of so many characters. -/
def ofLength (n : Nat) : String := String.ofList (List.replicate n 'a')

/-- It may stand between quotes. -/
theorem enclosed_ofLength (n : Nat) :
    Token.Enclosed Ascii.quote false (Utf8.encode (ofLength n)) := by
  have hencode : Utf8.encode (ofLength n) = List.replicate n 0x61 := by
    rw [ofLength, Utf8.encode_ofList]
    induction n with
    | zero => rfl
    | succ n ih =>
        rw [List.replicate_succ, List.flatMap_cons, ih, Utf8.encodeChar_of_lt (by decide)]
        rfl
  rw [hencode]
  clear hencode
  induction n with
  | zero => exact .nil
  | succ n ih => exact .plain (by decide) (by decide) (by decide) ih

/-- It breaks no rule, unless it is empty. -/
theorem fault?_ofLength (n : Nat) : fault? (ofLength (n + 1)) = none := by
  have hletter : ∀ c ∈ (ofLength (n + 1)).toList, c = 'a' := by
    intro c hc
    rw [ofLength, String.toList_ofList] at hc
    exact List.eq_of_mem_replicate hc
  have habsolute : isAbsolute (ofLength (n + 1)).toList = false := by
    rw [ofLength, String.toList_ofList]
    cases n <;> rfl
  have hsegments : segments (ofLength (n + 1)).toList = [(ofLength (n + 1)).toList] := by
    refine List.splitOnP_eq_singleton fun c hc => ?_
    rw [hletter c hc]
    rfl
  refine fault?_eq_none_iff.mpr ⟨?_, ?_, habsolute, ?_, ?_⟩
  · simp [ofLength]
  · intro c hc
    rw [hletter c hc]
    decide
  · rw [hsegments, List.forall_mem_singleton, ofLength, String.toList_ofList]
    cases n <;> rfl
  · exact fun hmem => absurd (hletter _ hmem) (by decide)

/-- It is its own key. -/
theorem key_ofLength (n : Nat) : key (ofLength n) = ofLength n := by
  have hsmall : ∀ before, Text.lowercaseAfter before (List.replicate n 'a') =
      List.replicate n 'a' := by
    induction n with
    | zero => exact fun _ => rfl
    | succ n ih =>
        intro before
        rw [List.replicate_succ, Text.lowercaseAfter, ih]
        rfl
  rw [key, Text.lowercase, ofLength, String.toList_ofList, hsmall]

/-- The path that is built for a length has that length. -/
theorem length_ofLength (n : Nat) : (ofLength n).length = n := by
  rw [ofLength, String.length_ofList, List.length_replicate]

end IncludePath

/-- **There is always a path that was not visited**: one that is longer than all that were. -/
theorem exists_fresh_path (keys : List String) : ∃ u : Token, u.Writable ∧ u.kind = .string ∧
    IncludePath.fault? u.unquoted = none ∧ IncludePath.key u.unquoted ∉ keys := by
  let n := (keys.map String.length).sum
  obtain ⟨hwritable, hkind, hunquoted⟩ :=
    Token.quoted_of_enclosed (IncludePath.enclosed_ofLength (n + 1))
  refine ⟨_, hwritable, hkind, ?_, ?_⟩
  · rw [hunquoted, IncludePath.fault?_ofLength]
  · rw [hunquoted, IncludePath.key_ofLength]
    intro hmem
    have hle := List.le_sum_of_mem (List.mem_map_of_mem (f := String.length) hmem)
    rw [IncludePath.length_ofLength] at hle
    exact absurd hle (Nat.not_succ_le_self n)

end ZDecl
