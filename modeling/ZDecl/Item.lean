import ZDecl.Scan.Header
import ZDecl.Scan.Run

/-!
# Top-level items

A file is a sequence of items: declarations, version directives, include directives, and words that
mean nothing here and are passed over. An item is read without regard to the session it belongs to;
what it does there comes later.

## Main definitions

* `Item`: the items.
* `Item.next?`: the reader of items.
* `Item.length_lt_of_next?`: reading an item takes at least one token.
-/

namespace ZDecl

/-- What stands at the top level of a file. -/
inductive Item where
  /-- A word that starts nothing. -/
  | word (t : Token)
  /-- A directive to include the file that a string names. -/
  | inclusion (path : Token)
  /-- A directive with the version of the language that the file asks for. -/
  | version (version : String)
  /-- A declaration. -/
  | declaration (d : Declaration)
  deriving DecidableEq, Repr

namespace Item

open Scan

/-! ## The kinds of item -/

/-- Reads a directive after its number sign. Only inclusion is known. -/
def directive : Scan Item := do
  let name ← expectIdentifier "preprocessor directive name"
  if name.keyword? = some .includeWord then
    return .inclusion (← expect .string "include path string")
  else fail (.unknownDirective name.lexeme) name.span

/-- Reads the name and the value of a constant. -/
def constant (source : String) : Scan Item := do
  let name ← expectIdentifier "constant name"
  let _ ← expect .assign "'='"
  let value ← expression
  let _ ← expect .semicolon "';'"
  return .declaration (.ofName .constant name source value)

/-- Reads the name and the body of an enumeration. -/
def enumeration (source : String) : Scan Item := do
  let name ← expectIdentifier "enum name"
  let body ← block
  return .declaration (.ofName .enumeration name source body)

/-- Reads the header and the body of a class or structure. -/
def typeDeclaration (strict : Bool) (source : String) (kind : TypeKind) : Scan Item := do
  let h ← header strict kind
  let body ← block
  return .declaration (.ofHeader h source body)

/-- Reads the string of a version directive, and a semicolon if one follows. -/
def versionDirective : Scan Item := do
  let text ← expect .string "version string"
  accept .semicolon
  return .version text.unquoted

/-! ## All items -/

/-- Reads the rest of the item that a well-formed token starts. -/
def startingWith (strict : Bool) (source : String) (t : Token) : Scan Item :=
  match t.kind with
  | .hash => directive
  | .identifier =>
    match t.keyword? with
    | some .classWord => typeDeclaration strict source .classType
    | some .structWord => typeDeclaration strict source .structType
    | some .constWord => constant source
    | some .enumWord => enumeration source
    | some .versionWord => versionDirective
    | _ => return .word t
  | .closeCurly | .closeParen => fail .unmatchedCloser t.span
  | _ => fail (.expectedItem t.describe) t.span

/-- Reads the item that `t` starts, if `t` is well formed. -/
def startingAt (strict : Bool) (source : String) (t : Token) : Scan Item :=
  if t.valid then startingWith strict source t
  else fail (.invalidItem t.fault t.start) t.span

/-- Reads the next item of the file `source`; `none` at the end of the file. -/
def next? (strict : Bool) (source : String) : Scan (Option Item) := do
  match ← next with
  | some t => return some (← startingAt strict source t)
  | none => return none

/-! ## Reading an item takes at least one token -/

/-- Every kind of item only goes forward. -/
theorem advances_startingWith (strict : Bool) (source : String) (t : Token) :
    Advances (startingWith strict source t) := by
  have htype : ∀ kind, Advances (typeDeclaration strict source kind) := fun kind =>
    (advances_header _ _).bind fun _ => advances_block.bind fun _ => advances_pure _
  unfold startingWith
  split
  · refine (advances_expectIdentifier _).bind fun name => ?_
    split
    · exact (advances_expect _ _).bind fun _ => advances_pure _
    · exact advances_fail _ _
  · split
    · exact htype _
    · exact htype _
    · exact (advances_expectIdentifier _).bind fun _ => (advances_expect _ _).bind fun _ =>
        advances_expression.bind fun _ => (advances_expect _ _).bind fun _ => advances_pure _
    · exact (advances_expectIdentifier _).bind fun _ =>
        advances_block.bind fun _ => advances_pure _
    · exact (advances_expect _ _).bind fun _ => (advances_accept _).bind fun _ => advances_pure _
    · exact advances_pure _
  · exact advances_fail _ _
  · exact advances_fail _ _
  · exact advances_fail _ _

/-- The item that any token starts only goes forward. -/
theorem advances_startingAt (strict : Bool) (source : String) (t : Token) :
    Advances (startingAt strict source t) := by
  unfold startingAt
  split
  · exact advances_startingWith strict source t
  · exact advances_fail _ _

/-- Fewer tokens are to be read after an item than before it. -/
theorem length_lt_of_next? {strict : Bool} {source : String} {s s' : State} {item : Item}
    (h : next? strict source s = .ok (some item) s') :
    s'.cursor.tokens.length < s.cursor.tokens.length := by
  obtain ⟨token, s₁, hnext, h⟩ := bind_eq_ok_iff.mp h
  have hs₁ : s.cursor.significant = (token, s₁.cursor) := by
    cases hnext
    rfl
  cases token with
  | none => cases h
  | some t =>
      obtain ⟨found, s₂, hitem, h⟩ := bind_eq_ok_iff.mp h
      have hs₂ : s₂ = s' := by
        cases h
        rfl
      have hadv := advances_startingAt strict source t s₁
      rw [hitem, hs₂] at hadv
      exact Nat.lt_of_le_of_lt hadv.tokens.length_le (Cursor.length_significant_lt hs₁)

end Item

end ZDecl
