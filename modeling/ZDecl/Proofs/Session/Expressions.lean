import ZDecl.Proofs.Grammar.Stopping
import ZDecl.Proofs.Include.Derivation
import ZDecl.Proofs.Session.Blocks

/-!
# What a session captures as an expression

An expression goes on up to the first token that cannot belong to it, and that token is left to be
read. This file says where exactly its reader stops and why it fails where it does, and what follows
for constants: behind the value of a constant comes a semicolon, so the value is balanced.

* `NoExpression`: the failures of the reader, each with what it says of the tokens.
* `Scan.expression_outcome`: the reader stops where an expression does or with one of these
  failures.
* `ReadsExpression`: all of this, as a session sees it. **`Session.readsExpression`**: every session
  reads expressions so.
* `balancedExpression_of_derives`: the value of a constant that is derived.
* **`expressions_stop_at_first_terminator`**: both, for the expressions that are read and the
  constants that are recorded.
-/

namespace ZDecl

open Grammar

/-! ## Expressions -/

/-- Why no expression can be read from the significant tokens of a stream that ends at `stop`. -/
inductive NoExpression (tokens : List Token) (stop : Position) : Failure → Prop where
  /-- A token is ill formed, and nothing stops the expression before. -/
  | illFormed {n : Nat} {t : Token} (h : GoesOn 0 tokens n) (ht : tokens[n]? = some t)
      (hvalid : t.valid = false) : NoExpression tokens stop (Failure.ofFault t.fault t.span)
  /-- The stream ends, and nothing stops the expression before. -/
  | endOfStream (h : GoesOn 0 tokens tokens.length) : NoExpression tokens stop
      { cause := .endOfStream, span := Span.point stop }

/-- An expression that stops can be read. -/
theorem NoExpression.not_endsAt {tokens : List Token} {stop : Position} {f : Failure} {k : Nat}
    (h : NoExpression tokens stop f) (hstops : EndsAt 0 tokens k) : False := by
  cases h with
  | illFormed h ht hvalid => exact hstops.not_goesOn h (.inr ⟨_, ht, hvalid⟩)
  | endOfStream h => exact hstops.not_goesOn h (.inl rfl)

/-- An expression cannot be read for one reason only. -/
theorem NoExpression.unique {tokens : List Token} {stop : Position} {f f' : Failure}
    (h : NoExpression tokens stop f) (h' : NoExpression tokens stop f') : f' = f := by
  have hend : ∀ {n : Nat} {t : Token}, tokens[n]? = some t → t.valid = false →
      ¬GoesOn 0 tokens tokens.length := by
    intro n t ht hvalid hgoes
    have hlt := (List.getElem?_eq_some_iff.mp ht).1
    exact absurd (hgoes.le_of_not_valid ht hvalid) (Nat.not_le_of_lt hlt)
  cases h with
  | illFormed h ht hvalid =>
      cases h' with
      | illFormed h' ht' hvalid' =>
          obtain rfl := Nat.le_antisymm (h.le_of_not_valid ht' hvalid')
            (h'.le_of_not_valid ht hvalid)
          cases ht.symm.trans ht'
          rfl
      | endOfStream h' => exact absurd h' (hend ht hvalid)
  | endOfStream h =>
      cases h' with
      | illFormed _ ht hvalid => exact absurd h (hend ht hvalid)
      | endOfStream _ => rfl

namespace Scan

/-- The reader right before the significant token with the index `n`. -/
def State.upTo (s : State) (n : Nat) : State :=
  { s with cursor := { s.cursor with tokens := ZDecl.upTo n s.cursor.tokens } }

/-- Before the significant token with an index, it and those behind it are to be read. -/
@[simp] theorem State.pending_upTo (s : State) (n : Nat) : (s.upTo n).pending = s.pending.drop n :=
  unskipped_upTo n _

/-- **The reader of expressions** stops right before the first token that cannot belong to the
expression, or for one of the reasons not to find any. -/
theorem expression_outcome (s : State) :
    (∃ k, EndsAt 0 s.pending k ∧ expression s = .ok (s.pending.take k) (s.upTo k)) ∨
      ∃ f s', expression s = .error f s' ∧ NoExpression s.pending s.cursor.stop f := by
  have hends : ExpressionEnds 0 s.cursor.tokens (takeExpression 0 s.cursor.tokens) :=
    takeExpression_ends 0 _
  generalize htake : takeExpression 0 s.cursor.tokens = result at hends
  cases hends with
  | @stopped k h => exact .inl ⟨k, h, run_of_ok htake⟩
  | illFormed h ht hvalid => exact .inr ⟨_, _, run_of_illFormed htake, .illFormed h ht hvalid⟩
  | endOfStream h => exact .inr ⟨_, _, run_of_endOfStream htake, .endOfStream h⟩

end Scan

open Scan

/-! ## Expressions in a session -/

namespace Session

variable {s s' : Session} {body : List Token}

/-- The session right before the significant token with the index `n`. -/
def upTo (s : Session) (n : Nat) : Session :=
  let cursor := { s.context.cursor with tokens := ZDecl.upTo n s.context.cursor.tokens }
  s.resume { s.context with cursor }

/-- The token with that index comes next there. -/
theorem next_upTo (s : Session) (n : Nat) :
    (s.upTo n).next = (s.pending[n]?, s.behind (n + 1)) := by
  have hstate := (State.upTo ⟨s.context.cursor, []⟩ n).significant_fst.1
  have htoken : (s.upTo n).context.cursor.significant.1 = s.pending[n]? := by
    rw [← List.head?_drop]
    exact hstate.trans (congrArg List.head? (unskipped_upTo n _))
  have hcursor : (s.upTo n).context.cursor.significant.2 = (s.behind (n + 1)).context.cursor := by
    have hafter := State.afterNext_eq (State.upTo ⟨s.context.cursor, []⟩ n)
    refine (congrArg State.cursor hafter).trans ?_
    unfold behind State.behind State.upTo
    dsimp only [resume]
    rw [behind_one_upTo]
  unfold next
  dsimp only
  rw [htoken, hcursor]
  rfl

end Session

/-- What reading an expression is in the session `s`. -/
structure ReadsExpression (s : Session) : Prop where
  /-- An expression is read if and only if a first token stops it, up to which all are well formed.
  It consists of the tokens in front of that one. -/
  stops : ∀ body s', Session.expression s = .ok body s' ↔
    ∃ k, EndsAt 0 s.pending k ∧ body = s.pending.take k ∧ s' = s.upTo k
  /-- The token that stops it comes next. -/
  next : ∀ body s', Session.expression s = .ok body s' →
    s'.next = (s.pending[body.length]?, s.behind (body.length + 1))
  /-- No parenthesis is closed that is not open. -/
  prefixes : ∀ body s', Session.expression s = .ok body s' →
    ∀ j, 0 ≤ roundDepth 0 (body.take j)
  /-- All parentheses are closed, unless it is a closing brace that stops the expression. -/
  total : ∀ body s' t, Session.expression s = .ok body s' → s.pending[body.length]? = some t →
    t.kind ≠ .closeCurly → roundDepth 0 body = 0
  /-- Otherwise there is a reason, with the name of the file. -/
  fails : ∀ f, (∃ s', Session.expression s = .error f s') ↔
    ∃ g, NoExpression s.pending s.context.cursor.stop g ∧ f = g.inSource s.context.name

namespace Session

variable {s s' : Session} {body : List Token}

/-- An expression that is read stops somewhere. -/
theorem endsAt_of_expression (h : expression s = .ok body s') :
    ∃ k, EndsAt 0 s.pending k ∧ body = s.pending.take k ∧ s' = s.upTo k := by
  obtain ⟨r, hr, rfl⟩ := scan_eq_ok_iff.mp h
  rcases expression_outcome ⟨s.context.cursor, []⟩ with ⟨k, hstops, hk⟩ | ⟨f, s', hf, -⟩
  · cases hr.symm.trans hk
    exact ⟨k, hstops, rfl, s.advance_of_strays_eq_nil (r := State.upTo _ _) rfl⟩
  · cases hr.symm.trans hf

/-- An expression that is not read is not there. -/
theorem noExpression_of_expression {f : Failure} (h : expression s = .error f s') :
    ∃ g, NoExpression s.pending s.context.cursor.stop g ∧ f = g.inSource s.context.name := by
  obtain ⟨g, r, hr, rfl, -⟩ := scan_eq_error_iff.mp h
  rcases expression_outcome ⟨s.context.cursor, []⟩ with ⟨k, -, hk⟩ | ⟨g', s', hg, hno⟩
  · cases hr.symm.trans hk
  · cases hr.symm.trans hg
    exact ⟨g, hno, rfl⟩

/-- An expression that is read is as long as what stands before the token that stops it. -/
theorem endsAt_length_of_expression (h : expression s = .ok body s') :
    EndsAt 0 s.pending body.length ∧ body = s.pending.take body.length ∧
      s' = s.upTo body.length := by
  obtain ⟨k, hstops, hbody, hs'⟩ := endsAt_of_expression h
  have hlength : body.length = k := by
    rw [hbody, List.length_take, Nat.min_eq_left (Nat.le_of_lt hstops.inside)]
  rw [hlength]
  exact ⟨hstops, hbody, hs'⟩

/-- **An expression goes up to the first token that cannot belong to it**, wherever in a file a
session stands. -/
theorem readsExpression (s : Session) : ReadsExpression s where
  stops := by
    intro body s'
    refine ⟨endsAt_of_expression, ?_⟩
    rintro ⟨k, hstops, rfl, rfl⟩
    cases h : expression s with
    | ok body s' =>
        obtain ⟨k', hstops', rfl, rfl⟩ := endsAt_of_expression h
        rw [hstops.unique hstops']
    | error f s' =>
        obtain ⟨g, hno, -⟩ := noExpression_of_expression h
        exact (hno.not_endsAt hstops).elim
  next := by
    intro body s' h
    obtain ⟨-, -, rfl⟩ := endsAt_length_of_expression h
    exact s.next_upTo body.length
  prefixes := by
    intro body s' h j
    obtain ⟨hstops, hbody, -⟩ := endsAt_length_of_expression h
    rw [hbody, List.take_take]
    exact roundDepth_take_nonneg (Int.le_refl 0) hstops.first _ (Nat.min_le_right _ _)
  total := by
    intro body s' t h ht hkind
    obtain ⟨hstops, hbody, -⟩ := endsAt_length_of_expression h
    rw [hbody]
    exact hstops.roundDepth_eq_zero ht hkind
  fails := by
    intro f
    refine ⟨fun ⟨s', h⟩ => noExpression_of_expression h, ?_⟩
    rintro ⟨g, hno, rfl⟩
    cases h : expression s with
    | ok body s' =>
        obtain ⟨k, hstops, -⟩ := endsAt_of_expression h
        exact (hno.not_endsAt hstops).elim
    | error f s' =>
        obtain ⟨g', hno', rfl⟩ := noExpression_of_expression h
        rw [hno.unique hno']
        exact ⟨s', rfl⟩

end Session

/-! ## Constants -/

/-- The value of a constant is balanced. -/
theorem balancedExpression_of_derives {strict : Bool} {name : String} {used : List Token}
    {d : Declaration} (h : Derives strict name used (.declaration d)) (hform : d.form = .constant) :
    BalancedExpression d.body := by
  generalize hitem : Item.declaration d = item at h
  cases h with
  | constant _ _ _ hvalue _ =>
      cases hitem
      exact balancedExpression_of_expression hvalue
  | enumeration _ _ _ | type _ _ _ =>
      cases hitem
      cases hform
  | inclusion _ _ _ | version _ _ _ | word _ _ => cases hitem

variable {ρ μ : Type}

/-- **Expressions stop at the first terminator**: in every session, those that are read, and, in
every use of a new session with the same options, the values of all constants that are recorded. -/
theorem expressions_stop_at_first_terminator (s : Session) (handlers : Handlers ρ μ) (m : μ) :
    ReadsExpression s ∧
      EveryRecorded (fun _ d => d.form = .constant → BalancedExpression d.body) handlers s m := by
  refine ⟨s.readsExpression, everyRecorded_of_derivedIn (fun source d hd => ?_) handlers m⟩
  obtain ⟨used, -, -, hderives⟩ := hd
  exact balancedExpression_of_derives hderives

end ZDecl
