import ZDecl.Session.Answer

/-!
# Parsing files in a session

A file is parsed item by item. An include directive is checked, answered, and, if all went well, the
reading of the including file goes on behind it. The first failure ends the session: nothing is
parsed any more once it is known.

How deep includes may still be nested bounds the recursion, so parsing ends whatever the answers
are.

## Main definitions

* `Session.objection?`: why a path may not be included.
* `Parse.inclusion`: an include directive.
* `Parse.items`: the items of a file from a cursor on.
* `Parse.file`: a file as part of a session.
* `Parse.root`, `Parse.archiveRoot`: a file that starts a session.
-/

namespace ZDecl

/-! ## Include directives -/

/-- Why the path may not be included: it breaks a rule, or its file was visited before. -/
def Session.objection? (s : Session) (path : String) : Option Cause :=
  match IncludePath.fault? path with
  | some fault => some (.invalidPath fault)
  | none => if s.visited.contains path then some (.alreadyIncluded path) else none

/-- The session inside an include. -/
def Session.enter (s : Session) (path : String) : Session :=
  { s with visited := s.visited.insert path, depth := s.depth + 1 }

/-- The session back from an include. -/
def Session.leave (s : Session) : Session := { s with depth := s.depth - 1 }

namespace Parse

variable {ρ μ : Type}

/-- Performs the include directive with the given string. `answer?` answers the include; there is no
answer where no more includes may be nested. An include fails if its answer does or if a failure is
known afterwards. A failure that nobody has reported yet belongs to the directive, as far as it has
no place of its own. -/
def inclusion (answer? : Option (String → Parse μ Unit)) (t : Token) : Parse μ Unit := fun st =>
  let path := t.unquoted
  let s := st.1
  match s.objection? path, answer? with
  | some cause, _ => inSession (Session.fail { cause, span := t.span }) st
  | none, none =>
    let cause := Cause.tooDeep path s.options.maxIncludeDepth
    inSession (Session.fail { cause, span := t.span }) st
  | none, some answer =>
    match answer path (s.enter path, st.2) with
    | .ok _ (s', memory) =>
      match s'.diagnostics.failure with
      | some f => .error f (s'.leave, memory)
      | none => .ok () (s'.leave.resume s.context, memory)
    | .error f (s', memory) =>
      let placed := (f.placedAt t.span).inSource s.context.name
      let s' := s'.leave.report placed
      .error (s'.diagnostics.failure.getD placed) (s', memory)

/-! ## Items -/

/-- What an item does in the session, where `onInclude` performs include directives. -/
def perform (onInclude : Token → Parse μ Unit) : Item → Parse μ Unit
  | .word _ => pure ()
  | .inclusion path => onInclude path
  | .version version => update fun s => ((), s.setVersion version)
  | .declaration d => update fun s => ((), s.record d)

/-- Parses the items of the file that is being read, which stands at the given cursor. -/
def items (onInclude : Token → Parse μ Unit) (cursor : Cursor) : Parse μ Unit := fun st =>
  match _h : Item.next? st.1.options.strictHeader st.1.context.name ⟨cursor, []⟩ with
  | .error f r => inSession (Session.fail f) (st.1.advance r, st.2)
  | .ok none r => .ok () (st.1.advance r, st.2)
  | .ok (some item) r =>
    match perform onInclude item (st.1.advance r, st.2) with
    | .ok _ st' => items onInclude r.cursor st'
    | .error f st' => .error f st'
termination_by cursor.tokens.length
decreasing_by exact Item.length_lt_of_next? _h

section Items

variable {onInclude : Token → Parse μ Unit} {cursor : Cursor} {s : Session} {m : μ}
  {r : Scan.State}

/-- Items end with the failure of the reader of items. -/
theorem items_of_error {f : Failure}
    (h : Item.next? s.options.strictHeader s.context.name ⟨cursor, []⟩ = .error f r) :
    items onInclude cursor (s, m) = inSession (Session.fail f) (s.advance r, m) := by
  rw [items]
  split
  · next h' => cases h.symm.trans h'; rfl
  · next h' => cases h.symm.trans h'
  · next h' => cases h.symm.trans h'

/-- Items end where the stream does. -/
theorem items_of_none
    (h : Item.next? s.options.strictHeader s.context.name ⟨cursor, []⟩ = .ok none r) :
    items onInclude cursor (s, m) = .ok () (s.advance r, m) := by
  rw [items]
  split
  · next h' => cases h.symm.trans h'
  · next h' => cases h.symm.trans h'; rfl
  · next h' => cases h.symm.trans h'

/-- An item is performed, and if that succeeds the items after it are parsed. -/
theorem items_of_some {item : Item}
    (h : Item.next? s.options.strictHeader s.context.name ⟨cursor, []⟩ =
      .ok (some item) r) :
    items onInclude cursor (s, m) =
      (perform onInclude item >>= fun _ => items onInclude r.cursor) (s.advance r, m) := by
  rw [items]
  show _ = EStateM.bind _ _ _
  unfold EStateM.bind
  split
  · next h' => cases h.symm.trans h'
  · next h' => cases h.symm.trans h'
  · next h' =>
      cases h.symm.trans h'
      cases perform onInclude item (s.advance r, m) with
      | ok a st' => rfl
      | error f st' => rfl

end Items

/-! ## Files -/

/-- Parses a file from its start, where `onInclude` performs include directives. Nothing happens
once a failure is known. -/
def fileWith (onInclude : Token → Parse μ Unit) (file : SourceFile) : Parse μ Unit := fun st =>
  match st.1.diagnostics.failure with
  | some f => .error f st
  | none =>
    let context := Context.ofFile file
    items onInclude context.cursor (st.1.resume context, st.2)

/-- Parses a file in a role, where `levels` more includes may be nested. -/
def fileAt (handlers : Handlers ρ μ) : Nat → ρ → SourceFile → Parse μ Unit
  | 0, _ => fileWith (inclusion none)
  | levels + 1, role => fileWith <| inclusion <| some fun path =>
      (handlers role path).perform (fileAt handlers levels)

/-- Parses a file as part of the session, in a role that decides how its includes are answered. -/
def file (handlers : Handlers ρ μ) (role : ρ) (source : SourceFile) : Parse μ Unit := fun st =>
  fileAt handlers (st.1.options.maxIncludeDepth - st.1.depth) role source st

/-- Parses a file that starts a session; the result is the first failure, if there is one. -/
def start (handlers : Handlers ρ μ) (role : ρ) (source : SourceFile) : Parse μ Unit := fun st =>
  match file handlers role source st with
  | .ok _ st' =>
    match st'.1.diagnostics.failure with
    | some f => .error f st'
    | none => .ok () st'
  | .error f st' => .error (st'.1.diagnostics.failure.getD f) st'

/-- A session succeeds if its root file does and no failure is known afterwards. -/
theorem start_eq_ok_iff {handlers : Handlers ρ μ} {role : ρ} {source : SourceFile}
    {st st' : Session × μ} :
    start handlers role source st = .ok () st' ↔
      file handlers role source st = .ok () st' ∧ st'.1.diagnostics.failure = none := by
  unfold start
  cases file handlers role source st with
  | error f st₁ => simp
  | ok u st₁ =>
      dsimp only
      split
      · next f hf =>
          constructor
          · intro h
            cases h
          · rintro ⟨h, hnone⟩
            cases h
            rw [hf] at hnone
            cases hnone
      · next hnone =>
          constructor
          · intro h
            cases h
            exact ⟨rfl, hnone⟩
          · rintro ⟨h, -⟩
            cases h
            rfl

/-- Parses a file as the root of a new session. -/
def root (handlers : Handlers ρ μ) (role : ρ) (source : SourceFile) : Parse μ Unit := fun st =>
  start handlers role source (st.1.reset, st.2)

/-- Parses a file as the root of a new session, in which the path of the file, which is its name,
counts as visited. -/
def archiveRoot (handlers : Handlers ρ μ) (role : ρ) (source : SourceFile) : Parse μ Unit :=
  fun st => start handlers role source (st.1.reset.visitRoot source.name, st.2)

end Parse

end ZDecl
