import ZDecl.Archive
import ZDecl.Include.Path
import ZDecl.Token

/-!
# Failures

A failure has a cause, a span and, once it is known, the name of the file that the span belongs to.
Its kind and its message follow from the cause.

## Main definitions

* `HeaderFault`, `Cause`, `Cause.kind`, `Cause.message`: why the reading of declarations stops.
* `Failure`: a cause with its place.
* `Failure.display`, `Failure.located`: a failure in one line.
-/

namespace ZDecl

/-! ## Kinds -/

/-- The kinds of failure. -/
inductive Failure.Kind where
  /-- Another token was expected. -/
  | expectedToken
  /-- The stream ended too early. -/
  | unexpectedEnd
  /-- An identifier was expected. -/
  | expectedIdentifier
  /-- A block in curly braces was expected. -/
  | expectedBlock
  /-- A declaration was expected. -/
  | expectedDeclaration
  /-- A parenthesis or brace closes nothing. -/
  | mismatchedDelimiter
  /-- A token is ill-formed. -/
  | invalidToken
  /-- A header clause is repeated or out of order. -/
  | invalidHeader
  /-- A directive is not known. -/
  | unknownDirective
  /-- An include path breaks a rule. -/
  | invalidIncludePath
  /-- A file is included twice. -/
  | duplicateInclude
  /-- An included file cannot be supplied. -/
  | includeFailed
  deriving DecidableEq, Repr

/-- The kind in words. -/
def Failure.Kind.text : Failure.Kind → String
  | expectedToken => "expected token"
  | unexpectedEnd => "unexpected end of file"
  | expectedIdentifier => "expected identifier"
  | expectedBlock => "expected block"
  | expectedDeclaration => "expected declaration"
  | mismatchedDelimiter => "mismatched delimiter"
  | invalidToken => "invalid token"
  | invalidHeader => "invalid class header"
  | unknownDirective => "unknown directive"
  | invalidIncludePath => "invalid include path"
  | duplicateInclude => "duplicate include"
  | includeFailed => "include failed"

/-! ## Causes -/

/-- What is wrong with a clause of a header. -/
inductive HeaderFault where
  /-- A second parent. -/
  | parentAgain
  /-- A parent after another clause. -/
  | parentTooLate
  /-- A second replaced class. -/
  | replacesAgain
  /-- A replaced class after the mark for native types. -/
  | replacesTooLate
  /-- A second mark for native types. -/
  | nativeAgain
  /-- Something after the mark for native types. -/
  | afterNative (found : String)
  deriving DecidableEq, Repr

/-- The message about a header, to be read after the name of the declared type. -/
def HeaderFault.message : HeaderFault → String
  | parentAgain => "already has a parent"
  | parentTooLate => "must name its parent before 'replaces' and 'native'"
  | replacesAgain => "already replaces a class"
  | replacesTooLate => "must be marked 'native' after 'replaces'"
  | nativeAgain => "is already marked 'native'"
  | afterNative found => s!"has {found} after 'native'"

/-- Why the reading of declarations stops. -/
inductive Cause where
  /-- Another token was expected. -/
  | expectedToken (expected found : String)
  /-- Another token was expected than the one found, which closes nothing. -/
  | expectedBeforeCloser (expected found : String)
  /-- A parenthesis or brace closes nothing. -/
  | unmatchedCloser
  /-- An identifier in the given role was expected. -/
  | expectedIdentifier (role found : String)
  /-- The stream ended inside a block or an expression. -/
  | endOfStream
  /-- A block was expected. -/
  | expectedBlock (found : String)
  /-- A declaration or directive was expected. -/
  | expectedItem (found : String)
  /-- A token that starts at `place` is ill-formed. -/
  | invalidToken (fault : Token.Fault) (place : Position)
  /-- A token that starts at `place`, where an item should start, is ill-formed. -/
  | invalidItem (fault : Token.Fault) (place : Position)
  /-- The header of `subject` has a clause that is repeated or out of order. -/
  | invalidHeader (subject : String) (fault : HeaderFault)
  /-- A directive is not known. -/
  | unknownDirective (name : String)
  /-- An include path breaks a rule. -/
  | invalidPath (fault : IncludePath.Fault)
  /-- The file was visited before. -/
  | alreadyIncluded (path : String)
  /-- No more includes may be nested. -/
  | tooDeep (path : String) (limit : Nat)
  /-- Nothing can be included here. -/
  | includesRefused (path : String)
  /-- The archive has no file to include. -/
  | cannotInclude (path : String) (error : OpenError)
  /-- The archive has no file to start from. -/
  | cannotOpenRoot (error : OpenError)
  /-- Any other cause, given by whoever supplies included files. -/
  | custom (kind : Failure.Kind) (message : String)
  deriving DecidableEq, Repr

namespace Cause

/-- What may stand at the top level of a file, in messages. -/
def expectedItemText : String :=
  "expected preprocessor statement, const, enum, or class declaration"

/-- What is wrong with a parenthesis or brace that closes nothing. -/
def unmatchedCloserText : String := "closing parenthesis without an opening one"

/-- The kind of failure that the cause leads to. -/
def kind : Cause → Failure.Kind
  | expectedToken _ _ => .expectedToken
  | expectedBeforeCloser _ _ | unmatchedCloser => .mismatchedDelimiter
  | expectedIdentifier _ _ => .expectedIdentifier
  | endOfStream => .unexpectedEnd
  | expectedBlock _ => .expectedBlock
  | expectedItem _ => .expectedDeclaration
  | invalidToken _ _ | invalidItem _ _ => .invalidToken
  | invalidHeader _ _ => .invalidHeader
  | unknownDirective _ => .unknownDirective
  | invalidPath _ => .invalidIncludePath
  | alreadyIncluded _ => .duplicateInclude
  | tooDeep _ _ | includesRefused _ | cannotInclude _ _ | cannotOpenRoot _ => .includeFailed
  | custom kind _ => kind

/-- The message about the cause. -/
def message : Cause → String
  | expectedToken expected found | expectedIdentifier expected found =>
    s!"expected {expected}, found {found}"
  | expectedBeforeCloser expected found =>
    s!"expected {expected}, found {found} ({unmatchedCloserText})"
  | unmatchedCloser => unmatchedCloserText
  | endOfStream => "expected a token"
  | expectedBlock found => s!"expected a code block (opening curly brace), found {found}"
  | expectedItem found => s!"{expectedItemText}, found {found}"
  | invalidToken fault place => fault.message place
  | invalidItem fault place => s!"{expectedItemText} ({fault.message place})"
  | invalidHeader subject fault => s!"{subject} {fault.message}"
  | unknownDirective name => s!"unknown preprocessor directive '{name}'"
  | invalidPath fault => fault.message
  | alreadyIncluded path => s!"file \"{path}\" is already included"
  | tooDeep path limit => s!"cannot include \"{path}\": nesting exceeds {limit} levels"
  | includesRefused path => s!"cannot include \"{path}\": includes are not supported here"
  | cannotInclude path error => s!"cannot include \"{path}\": {error.message}"
  | cannotOpenRoot error => s!"cannot open root file: {error.message}"
  | custom _ message => message

end Cause

/-! ## Failures -/

/-- A cause with its place. -/
structure Failure where
  /-- Why the reading stops. -/
  cause : Cause
  /-- Where it stops. -/
  span : Span
  /-- The name of the file that the span belongs to, once it is known. -/
  source : Option String := none
  deriving DecidableEq, Repr

namespace Failure

/-- The kind of the failure. -/
def kind (f : Failure) : Kind := f.cause.kind

/-- The message of the failure. -/
def message (f : Failure) : String := f.cause.message

/-- The failure of an ill-formed token. -/
def ofFault (fault : Token.Fault) (span : Span) : Failure :=
  { cause := .invalidToken fault span.start, span }

/-- Names the file, unless it is named already. -/
def inSource (f : Failure) (name : String) : Failure :=
  { f with source := f.source.or (some name) }

/-- Gives the failure a span, unless it has one of its own. -/
def placedAt (f : Failure) (span : Span) : Failure :=
  { f with span := if f.span = Span.unknown then span else f.span }

/-- The failure in one line: kind, place and message. -/
def display (f : Failure) : String := s!"{f.kind.text} at {f.span.start.text}: {f.message}"

/-- The failure in one line, with the file in front if it is named. -/
def located (f : Failure) : String :=
  match f.source with
  | some name => s!"{name}: {f.display}"
  | none => f.display

end Failure

/-- Behind a first part that gave a result. -/
theorem bind_of_ok {σ α β : Type} {p : EStateM Failure σ α} {s s' : σ} {a : α} (h : p s = .ok a s')
    (f : α → EStateM Failure σ β) : (p >>= f) s = f a s' := by
  show EStateM.bind p f s = _
  rw [EStateM.bind, h]

/-- Nothing comes behind a first part that failed. -/
theorem bind_of_error {σ α β : Type} {p : EStateM Failure σ α} {s s' : σ} {e : Failure}
    (h : p s = .error e s') (f : α → EStateM Failure σ β) : (p >>= f) s = .error e s' := by
  show EStateM.bind p f s = _
  rw [EStateM.bind, h]

/-- What may fail gives a result in sequence if both parts do. -/
theorem bind_eq_ok_iff {σ α β : Type} {p : EStateM Failure σ α} {f : α → EStateM Failure σ β}
    {s s'' : σ} {b : β} :
    (p >>= f) s = .ok b s'' ↔ ∃ a s', p s = .ok a s' ∧ f a s' = .ok b s'' := by
  show EStateM.bind p f s = _ ↔ _
  cases hs : p s with
  | ok a s' =>
      simp only [EStateM.bind, hs]
      exact ⟨fun h => ⟨a, s', rfl, h⟩, fun ⟨_, _, h, hf⟩ => by cases h; exact hf⟩
  | error f s' => simp [EStateM.bind, hs]

end ZDecl
