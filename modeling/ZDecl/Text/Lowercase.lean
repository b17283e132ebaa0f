import ZDecl.Text.CaseContextTable
import ZDecl.Text.LowercaseTable

/-!
# Lower case

Full lower casing of a text: every character is replaced by its lower case form. Two characters
need more than a table. A capital I with a dot above becomes two characters, and a capital sigma is
written in its final form where it ends a word.

## Main definitions

* `lowercaseChar`: the lower case form of one character, apart from its surroundings.
* `isCased`, `isCaseIgnorable`: the two properties that decide where a word ends.
* `lowercase`: the lower case form of a text.
-/

namespace ZDecl.Text

/-! ## Single characters -/

/-- The image of a character code under the runs of the table; other codes are their own image. -/
def lowercaseCode (runs : List (Nat × Nat × Nat × Nat)) (n : Nat) : Nat :=
  match runs.find? fun (first, last, step, _) =>
      first ≤ n && n ≤ last && (n - first) % step == 0 with
  | some (first, _, _, image) => image + (n - first)
  | none => n

/-- The lower case form of a character in no particular place. Only the capital I with a dot above
becomes two characters: a small i and a combining dot. -/
def lowercaseChar (c : Char) : List Char :=
  if c.toNat < 0x80 then [c.toLower]
  else if c.toNat = 0x130 then ['i', Char.ofNat 0x307]
  else [Char.ofNat (lowercaseCode lowercaseRuns c.toNat)]

/-! ## The final sigma -/

/-- Is the code in one of the ranges? -/
def inRanges (ranges : List (Nat × Nat)) (n : Nat) : Bool :=
  ranges.any fun (first, last) => first ≤ n && n ≤ last

/-- Is the character of upper, lower or title case? -/
def isCased (c : Char) : Bool :=
  if c.toNat < 0x80 then c.isAlpha else inRanges casedRanges c.toNat

/-- Does the search for a cased neighbour pass over the character? In ASCII these are the
apostrophe, the full stop, the colon, the circumflex and the grave accent. -/
def isCaseIgnorable (c : Char) : Bool :=
  if c.toNat < 0x80 then [0x27, 0x2E, 0x3A, 0x5E, 0x60].contains c.toNat
  else inRanges caseIgnorableRanges c.toNat

/-- Is the first character that is not passed over a cased one? -/
def meetsCased (cs : List Char) : Bool :=
  match cs.dropWhile isCaseIgnorable with
  | c :: _ => isCased c
  | [] => false

/-- The capital sigma. -/
def capitalSigma : Char := Char.ofNat 0x3A3

/-- The small sigma inside a word. -/
def smallSigma : Char := Char.ofNat 0x3C3

/-- The small sigma at the end of a word. -/
def finalSigma : Char := Char.ofNat 0x3C2

/-! ## Whole texts -/

/-- The lower case form of `cs`, where `before` holds the characters in front of it, the nearest
first. A capital sigma is final if a cased character comes before it and none comes after it. -/
def lowercaseAfter (before : List Char) : List Char → List Char
  | [] => []
  | c :: cs =>
    (if c = capitalSigma then
        [if meetsCased before && !meetsCased cs then finalSigma else smallSigma]
      else lowercaseChar c) ++ lowercaseAfter (c :: before) cs

/-- The lower case form of a text. -/
def lowercase (s : String) : String := String.ofList (lowercaseAfter [] s.toList)

end ZDecl.Text
