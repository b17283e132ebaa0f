import ZDecl.Text.Lowercase

/-!
# Include paths

An include path names a file inside an archive. It is relative to the top of the archive, uses the
forward slash alone, and names the same file in either case of its letters.

## Main definitions

* `IncludePath.Fault`: the rules a path can break, with their messages.
* `IncludePath.fault?`: the first rule that a path breaks. `IncludePath.fault?_eq_none_iff`: the
  paths that break none.
* `IncludePath.key`: what two paths share that name the same file.
-/

namespace ZDecl.IncludePath

/-- A rule that an include path breaks. -/
inductive Fault where
  /-- The path has no characters. -/
  | empty
  /-- The path has a character that no file of an archive may have in its name. -/
  | invalidCharacters
  /-- The path starts at a root or on a drive. -/
  | absolute
  /-- The path has a segment that refers to the place it stands in or to the one above. -/
  | relative
  /-- The path has a backslash. -/
  | backslash
  deriving DecidableEq, Repr

/-- The message about a path. -/
def Fault.message : Fault → String
  | empty => "include path is empty"
  | invalidCharacters => "include path contains invalid characters"
  | absolute => "absolute include paths are not supported"
  | relative => "relative include paths are not supported"
  | backslash => "only forward slashes are allowed in include paths"

/-- The characters that no file of an archive may have in its name: control characters of ASCII
and six marks. -/
def isForbidden (c : Char) : Bool :=
  ['<', '>', '|', '"', '?', '*'].contains c || c.toNat < 0x20 || c.toNat == 0x7F

/-- Does the path start at a root, or with a drive letter and a colon? -/
def isAbsolute : List Char → Bool
  | c :: rest => c == '/' || c == '\\' || (c.isAlpha && rest.head? == some ':')
  | [] => false

/-- The segments of a path, cut at slashes of both kinds. -/
def segments (cs : List Char) : List (List Char) := cs.splitOnP fun c => c == '/' || c == '\\'

/-- Does the segment refer to a place instead of naming one? -/
def isDots (segment : List Char) : Bool := segment == ['.'] || segment == ['.', '.']

/-- The first rule that the path breaks; `none` if it may be included. -/
def fault? (path : String) : Option Fault :=
  let cs := path.toList
  if cs.isEmpty then some .empty
  else if cs.any isForbidden then some .invalidCharacters
  else if isAbsolute cs then some .absolute
  else if (segments cs).any isDots then some .relative
  else if cs.contains '\\' then some .backslash
  else none

/-- **A path may be included** exactly if it keeps to all rules. -/
theorem fault?_eq_none_iff {path : String} :
    fault? path = none ↔
      path.toList ≠ [] ∧ (∀ c ∈ path.toList, isForbidden c = false) ∧
        isAbsolute path.toList = false ∧
        (∀ piece ∈ segments path.toList, isDots piece = false) ∧ '\\' ∉ path.toList := by
  unfold fault?
  grind

/-- What two paths share that name the same file: their lower case form. -/
def key (path : String) : String := Text.lowercase path

end ZDecl.IncludePath
