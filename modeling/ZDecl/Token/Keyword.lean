import ZDecl.Text.Ascii

/-!
# Keywords

The words that mean something at the top level or in a header. Their case does not matter, and
everything else is a plain identifier.

## Main definitions

* `Keyword`: the keywords.
* `Keyword.ofWord?`: the keyword that a word spells.
-/

namespace ZDecl

/-- The words with a meaning. -/
inductive Keyword where
  /-- Starts the declaration of a class. -/
  | classWord
  /-- Starts the declaration of a structure. -/
  | structWord
  /-- Starts the declaration of a constant. -/
  | constWord
  /-- Starts the declaration of an enumeration. -/
  | enumWord
  /-- Starts a version directive. -/
  | versionWord
  /-- Names, in a header, the class that is replaced. -/
  | replacesWord
  /-- Marks, in a header, a type that the engine supplies. -/
  | nativeWord
  /-- Names, after a number sign, a file to include. -/
  | includeWord
  deriving DecidableEq, Repr

namespace Keyword

/-- The keyword in small letters. -/
def spelling : Keyword → String
  | classWord => "class"
  | structWord => "struct"
  | constWord => "const"
  | enumWord => "enum"
  | versionWord => "version"
  | replacesWord => "replaces"
  | nativeWord => "native"
  | includeWord => "include"

/-- All keywords. -/
def all : List Keyword :=
  [classWord, structWord, constWord, enumWord, versionWord, replacesWord, nativeWord, includeWord]

/-- The keyword that a word spells, whatever the case of its letters. -/
def ofWord? (word : String) : Option Keyword :=
  all.find? fun keyword => sameIgnoringCase keyword.spelling word

/-- The list of keywords is complete. -/
theorem mem_all (k : Keyword) : k ∈ all := by
  cases k <;> decide

/-- No two keywords are spelled alike. -/
theorem eq_of_sameIgnoringCase {k l : Keyword}
    (h : sameIgnoringCase k.spelling l.spelling = true) : k = l := by
  revert h
  cases k <;> cases l <;> decide

/-- A word is the keyword that it is spelled like, up to case. -/
theorem ofWord?_eq_some_iff {word : String} {k : Keyword} :
    ofWord? word = some k ↔ sameIgnoringCase word k.spelling = true := by
  rw [sameIgnoringCase_comm]
  constructor
  · intro h
    have hfound := List.find?_some h
    exact hfound
  · intro h
    cases hfound : ofWord? word with
    | none => exact absurd h (List.find?_eq_none.mp hfound k k.mem_all)
    | some l =>
        have hl := List.find?_some hfound
        rw [sameIgnoringCase_eq_true_iff] at h hl
        rw [eq_of_sameIgnoringCase (sameIgnoringCase_eq_true_iff.mpr (hl.trans h.symm))]

end Keyword

end ZDecl
