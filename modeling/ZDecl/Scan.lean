import ZDecl.Declaration
import ZDecl.Failure
import ZDecl.Token.Stream

/-!
# Reading significant tokens

Declarations are read from a cursor, token by token, past white space and comments. A reader either
gives a result or a failure; in both cases the cursor stays where the reading stopped, and the
tokens that were tolerated on the way are kept for the warnings about them.

## Main definitions

* `Stray`: a token that a header tolerates.
* `Scan`: the type of readers, with `Scan.next`, `Scan.expect`, `Scan.expectIdentifier` and
  `Scan.accept`.
* `Cursor.Reaches`, `Scan.Advances`: readers only go forward.
-/

namespace ZDecl

/-- A token of a header that belongs to no clause. -/
structure Stray where
  /-- What the header declares. -/
  subject : String
  /-- The token. -/
  token : Token
  deriving DecidableEq, Repr

/-- The warning about a stray token in the given file. -/
def Stray.warning (stray : Stray) (source : String) : String :=
  s!"{source}:{stray.token.start.text}: unexpected {stray.token.describe} in {stray.subject} header"

/-- Where a reader stands. -/
structure Scan.State where
  /-- What is still to be read. -/
  cursor : Cursor
  /-- The stray tokens so far, in order. -/
  strays : List Stray := []
  deriving DecidableEq, Repr

/-- A reader of declarations, with results of type `α`. -/
abbrev Scan (α : Type) := EStateM Failure Scan.State α

namespace Scan

variable {α β : Type}

/-! ## Readers -/

/-- Stops with a failure. -/
def fail (cause : Cause) (span : Span) : Scan α := throw { cause, span }

/-- Stops at an ill-formed token. -/
def failAt (t : Token) : Scan α := throw (Failure.ofFault t.fault t.span)

/-- Reads the next significant token; `none` at the end of the stream. -/
def next : Scan (Option Token) := fun s =>
  let (token, cursor) := s.cursor.significant
  .ok token { s with cursor }

/-- Looks at the next significant token, without reading more than what stands before it. -/
def peek : Scan (Option Token) := fun s =>
  let cursor := s.cursor.skip
  .ok cursor.peek? { s with cursor }

/-- The place where the reader stands. -/
def position : Scan Position := fun s => .ok s.cursor.position s

/-- The span of a token, or the end of the stream in place of one. -/
def spanOf : Option Token → Scan Span
  | some t => pure t.span
  | none => return Span.point (← position)

/-- Keeps a stray token. -/
def keepStray (stray : Stray) : Scan Unit := fun s =>
  .ok () { s with strays := s.strays ++ [stray] }

/-- Reads a token of the given kind. A closing parenthesis or brace in its place has a cause of its
own. -/
def expect (kind : Token.Kind) (expected : String) : Scan Token := do
  let token ← next
  let found := Token.describeFound token
  match token with
  | some t =>
    if !t.valid then failAt t
    else if t.kind = kind then return t
    else if t.kind = .closeParen || t.kind = .closeCurly then
      fail (.expectedBeforeCloser expected found) t.span
    else fail (.expectedToken expected found) t.span
  | none => fail (.expectedToken expected found) (← spanOf none)

/-- Reads an identifier; `role` says what it is for. -/
def expectIdentifier (role : String) : Scan Token := do
  let token ← next
  let found := Token.describeFound token
  match token with
  | some t =>
    if !t.valid then failAt t
    else if t.kind = .identifier then return t
    else fail (.expectedIdentifier role found) t.span
  | none => fail (.expectedIdentifier role found) (← spanOf none)

/-- Reads a token of the given kind if it comes next, and nothing otherwise. -/
def accept (kind : Token.Kind) : Scan Unit := fun s =>
  match s.cursor.significant with
  | (some t, cursor) => .ok () (if t.valid && t.kind = kind then { s with cursor } else s)
  | (none, _) => .ok () s

end Scan

/-! ## Readers only go forward -/

/-- Is `c'` reached from `c` by reading on in the same stream? -/
structure Cursor.Reaches (c c' : Cursor) : Prop where
  /-- The stream is the same. -/
  contents : c'.contents = c.contents
  /-- It ends at the same place. -/
  stop : c'.stop = c.stop
  /-- What is still to be read was to be read before. -/
  tokens : c'.tokens <:+ c.tokens

namespace Cursor

/-- A cursor reaches where it stands. -/
theorem Reaches.refl (c : Cursor) : c.Reaches c := ⟨rfl, rfl, List.suffix_refl _⟩

/-- What can be reached in two steps can be reached. -/
theorem Reaches.trans {a b c : Cursor} (hab : a.Reaches b) (hbc : b.Reaches c) : a.Reaches c :=
  ⟨hbc.contents.trans hab.contents, hbc.stop.trans hab.stop, hbc.tokens.trans hab.tokens⟩

/-- Passing over white space and comments goes forward. -/
theorem reaches_skip (c : Cursor) : c.Reaches c.skip := ⟨rfl, rfl, List.dropWhile_suffix _⟩

/-- Reading a token goes forward. -/
theorem reaches_of_next? {c c' : Cursor} {t : Token} (h : c.next? = some (t, c')) :
    c.Reaches c' := by
  unfold next? at h
  split at h
  · next u rest hc =>
      simp only [Option.some.injEq, Prod.mk.injEq] at h
      obtain ⟨-, rfl⟩ := h
      exact ⟨rfl, rfl, by rw [hc]; exact List.suffix_cons _ _⟩
  · cases h

/-- Reading a significant token goes forward. -/
theorem reaches_significant (c : Cursor) : c.Reaches c.significant.2 := by
  unfold significant
  split
  · next h => exact c.reaches_skip.trans (reaches_of_next? h)
  · exact c.reaches_skip

/-- A significant token that was read is no longer to be read. -/
theorem length_significant_lt {c c' : Cursor} {t : Token} (h : c.significant = (some t, c')) :
    c'.tokens.length < c.tokens.length := by
  unfold significant at h
  split at h
  · next u rest hn =>
      simp only [Prod.mk.injEq, Option.some.injEq] at h
      obtain ⟨-, rfl⟩ := h
      unfold next? at hn
      split at hn
      · next v more hc =>
          simp only [Option.some.injEq, Prod.mk.injEq] at hn
          obtain ⟨-, rfl⟩ := hn
          have hle := (reaches_skip c).tokens.length_le
          rw [hc, List.length_cons] at hle
          exact hle
      · cases hn
  · cases h

end Cursor

namespace Scan

variable {α β : Type}

/-- Where a reader stands after a result or a failure. -/
def endState : EStateM.Result Failure State α → State
  | .ok _ s => s
  | .error _ s => s

/-- Does the reader only go forward? -/
def Advances (p : Scan α) : Prop := ∀ s : State, s.cursor.Reaches (endState (p s)).cursor

/-- A result without reading stays. -/
theorem advances_pure (a : α) : Advances (pure a : Scan α) := fun s => Cursor.Reaches.refl s.cursor

/-- A failure stays. -/
theorem advances_throw (f : Failure) : Advances (throw f : Scan α) :=
  fun s => Cursor.Reaches.refl s.cursor

/-- Two readers go forward if both do. -/
theorem Advances.bind {p : Scan α} {f : α → Scan β} (hp : Advances p) (hf : ∀ a, Advances (f a)) :
    Advances (p >>= f) := by
  intro s
  have h := hp s
  show s.cursor.Reaches (endState (EStateM.bind p f s)).cursor
  unfold EStateM.bind
  split
  · next a s' hs =>
      rw [hs] at h
      exact h.trans (hf a s')
  · next e s' hs =>
      rw [hs] at h
      exact h

/-- A failure with a cause stays. -/
theorem advances_fail (cause : Cause) (span : Span) : Advances (fail cause span : Scan α) :=
  advances_throw _

/-- A failure at an ill-formed token stays. -/
theorem advances_failAt (t : Token) : Advances (failAt t : Scan α) := advances_throw _

/-- Reading a significant token goes forward. -/
theorem advances_next : Advances next := fun s => s.cursor.reaches_significant

/-- A look goes forward to the next significant token. -/
theorem advances_peek : Advances peek := fun s => s.cursor.reaches_skip

/-- Asking for the position stays. -/
theorem advances_position : Advances position := fun s => Cursor.Reaches.refl s.cursor

/-- Keeping a stray token stays. -/
theorem advances_keepStray (stray : Stray) : Advances (keepStray stray) :=
  fun s => Cursor.Reaches.refl s.cursor

/-- Asking for a span stays. -/
theorem advances_spanOf (token : Option Token) : Advances (spanOf token) := by
  cases token with
  | none => exact advances_position.bind fun _ => advances_pure _
  | some t => exact advances_pure _

/-- An expected token goes forward, also if it is another one. -/
theorem advances_expect (kind : Token.Kind) (expected : String) :
    Advances (expect kind expected) := by
  refine advances_next.bind fun token => ?_
  cases token with
  | none => exact (advances_spanOf none).bind fun _ => advances_fail _ _
  | some t =>
      dsimp only
      split
      · exact advances_failAt t
      · split
        · exact advances_pure t
        · split
          · exact advances_fail _ _
          · exact advances_fail _ _

/-- An expected name goes forward, also if it is something else. -/
theorem advances_expectIdentifier (role : String) : Advances (expectIdentifier role) := by
  refine advances_next.bind fun token => ?_
  cases token with
  | none => exact (advances_spanOf none).bind fun _ => advances_fail _ _
  | some t =>
      dsimp only
      split
      · exact advances_failAt t
      · split
        · exact advances_pure t
        · exact advances_fail _ _

/-- An optional token goes forward, whether it is there or not. -/
theorem advances_accept (kind : Token.Kind) : Advances (accept kind) := by
  intro s
  unfold accept
  split
  · next t cursor hs =>
      simp only [endState]
      split
      · have h := s.cursor.reaches_significant
        rw [hs] at h
        exact h
      · exact Cursor.Reaches.refl _
  · exact Cursor.Reaches.refl _

end Scan

end ZDecl
