import ZDecl.Proofs.Grammar.Items
import ZDecl.Proofs.Scan.Locality
import ZDecl.Proofs.Scan.Likeness
import ZDecl.Proofs.Scan.Places
import ZDecl.Proofs.Scan.Promptness

/-!
# Items fail as early as they can

No production reads on when it is lost, and none gives up while there is hope. A body or an
expression is completed by closing what is open, a header by a brace, and every other construct by
the token that is missing.

* `Token.sample`: a token of each kind, to complete with.
* `run_stops`, `prompt_blockBody`, `prompt_value`: runs, which are completed by closing brackets.
* `prompt_clauses`, `prompt_header`: headers, which are completed by what starts a body.
* `prompt_directive`, `prompt_constant` and so on: the productions.
* **`prompt_next?`**: items. A completion includes at most the file that was chosen for it.
-/

namespace ZDecl

/-! ## Tokens to complete with -/

namespace Token

/-- The bytes of a token of each kind that is neither white space nor a comment. -/
def Kind.sample : Kind → UInt8 × Bytes
  | identifier => (0x61, [])
  | string => (Ascii.quote, [Ascii.quote])
  | name => (Ascii.apostrophe, [Ascii.apostrophe])
  | number => (Ascii.zero, [])
  | hash => (Ascii.hash, [])
  | openParen => (0x28, [])
  | closeParen => (0x29, [])
  | openCurly => (0x7B, [])
  | closeCurly => (0x7D, [])
  | semicolon => (0x3B, [])
  | comma => (0x2C, [])
  | colon => (0x3A, [])
  | assign => (0x3D, [])
  | dot => (Ascii.dot, [])
  | operator | whitespace | newline | blockComment | lineComment => (0x2B, [])

/-- A token of the given kind. -/
def sample (kind : Kind) : Token := firstOf kind.sample.1 kind.sample.2

/-- A sample of each kind can be written. -/
theorem writable_sample (kind : Kind) : (sample kind).Writable :=
  writable_firstOf (by cases kind <;> decide +kernel) (by cases kind <;> decide +kernel)

/-- The samples are of their kinds. -/
theorem kind_sample : ∀ kind : Kind, kind.isTrivia = false → (sample kind).kind = kind := by
  intro kind
  cases kind <;> decide +kernel

end Token

namespace Grammar

open Scan Brackets Token Item

variable {b : Brackets}

/-! ## Runs -/

/-- The depth behind tokens is where those behind them start. -/
theorem Brackets.depthAfter_append (depth : Nat) (xs ys : List Token) :
    b.depthAfter depth (xs ++ ys) = (b.depthAfter depth xs).bind (b.depthAfter · ys) := by
  induction xs generalizing depth with
  | nil => rfl
  | cons t xs ih =>
      rw [List.cons_append, depthAfter, depthAfter]
      split
      · rfl
      · exact ih _

/-- Closing brackets close what is open. -/
theorem Brackets.depthAfter_replicate {t : Token} (ht : t.kind = b.closing) (depth : Nat) :
    b.depthAfter depth (List.replicate depth t) = some 0 := by
  induction depth with
  | zero => rfl
  | succ depth ih => rw [List.replicate_succ, depthAfter_closing_succ ht, ih]

/-- How far a run goes: up to an ill-formed token, one that ends it, or the end of the stream. -/
theorem exists_front_of_run (b : Brackets) (depth : Nat) (tokens : List Token) :
    ∃ front tail after, tokens = front ++ tail ∧ (∀ t ∈ front, t.valid = true) ∧
      b.depthAfter depth front = some after ∧
        ∀ t ∈ tail.head?, t.valid = true → b.ends after t.kind = true := by
  induction tokens generalizing depth with
  | nil => exact ⟨[], [], depth, rfl, by simp, rfl, by simp⟩
  | cons t tokens ih =>
      by_cases hgoes : t.valid = true ∧ ¬b.ends depth t.kind = true
      · obtain ⟨front, tail, after, rfl, hvalid, hafter, hstop⟩ := ih (b.step depth t.kind)
        refine ⟨t :: front, tail, after, rfl, List.forall_mem_cons.mpr ⟨hgoes.1, hvalid⟩, ?_, hstop⟩
        rw [depthAfter, if_neg hgoes.2, hafter]
      · refine ⟨[], t :: tokens, depth, rfl, by simp, rfl, fun u hu hvalid => ?_⟩
        obtain rfl := Option.some.inj hu
        by_contra hends
        exact hgoes ⟨hvalid, hends⟩

/-- A run goes through well-formed tokens that do not end it. -/
theorem takeRun_append {keep : Bool} {depth after : Nat} {front tail : List Token}
    (hkept : ∀ t ∈ front, t.isSkipped = false) (hvalid : ∀ t ∈ front, t.valid = true)
    (hafter : b.depthAfter depth front = some after) :
    takeRun b keep depth (front ++ tail) = front.foldr consRun (takeRun b keep after tail) := by
  induction front generalizing depth with
  | nil =>
      cases hafter
      rfl
  | cons t front ih =>
      obtain ⟨hkeptt, hkept⟩ := List.forall_mem_cons.mp hkept
      obtain ⟨hvalidt, hvalid⟩ := List.forall_mem_cons.mp hvalid
      rw [depthAfter] at hafter
      split at hafter
      · cases hafter
      · next hends =>
          rw [List.cons_append, takeRun, if_neg (by simp [hkeptt]), if_neg (by simp [hvalidt]),
            if_neg hends, ih hkept hvalid hafter]
          rfl

/-- Tokens in front of a run do not change why it is interrupted. -/
theorem foldr_consRun_error {front rest : List Token} {interruption : Interruption} :
    front.foldr consRun (.error interruption, rest) = (.error interruption, rest) := by
  induction front with
  | nil => rfl
  | cons t front ih =>
      rw [List.foldr_cons, ih]
      rfl

section Run

variable {take : List Token → Except Interruption (List Token) × List Token} {keep : Bool}
  (htake : ∀ tokens, take tokens = takeRun b keep 0 tokens) {s : State} {front tail : List Token}
  {after : Nat}

include htake

/-- **Where the reader of a run fails**: at the first ill-formed token, or at the end. -/
theorem run_stops (hs : s.pending = front ++ tail) (hvalid : ∀ t ∈ front, t.valid = true)
    (hafter : b.depthAfter 0 front = some after) (hstop : ∀ t ∈ tail.head?, t.valid = false) :
    ∃ f s', run take s = .error f s' ∧ f.span = s.cursor.spanAt tail := by
  have hkept : ∀ t ∈ s.pending, t.isSkipped = false := by
    intro t ht
    simpa using (List.mem_filter.mp ht).2
  rw [hs] at hkept
  obtain ⟨hfront, htail⟩ := List.forall_mem_append.mp hkept
  have hrun := takeRun_unskipped b keep 0 s.cursor.tokens
  have hpending : unskipped s.cursor.tokens = front ++ tail := hs
  rw [hpending, takeRun_append hfront hvalid hafter] at hrun
  have hstops := stopsAmong_takeRun b keep 0 s.cursor.tokens
  unfold run
  rw [htake]
  cases tail with
  | nil =>
      rw [takeRun, foldr_consRun_error] at hrun
      obtain ⟨hfst, -⟩ := Prod.mk.inj hrun
      generalize takeRun b keep 0 s.cursor.tokens = result at hfst hstops ⊢
      obtain ⟨outcome, rest⟩ := result
      obtain rfl : Except.error .endOfStream = outcome := hfst
      obtain rfl : rest = [] := hstops
      exact ⟨_, _, rfl, rfl⟩
  | cons t tail =>
      have hskip : ¬t.isSkipped = true := by simp [htail t List.mem_cons_self]
      rw [takeRun, if_neg hskip, if_pos (by simp [hstop t rfl]), foldr_consRun_error] at hrun
      obtain ⟨hfst, -⟩ := Prod.mk.inj hrun
      rw [← hfst]
      exact ⟨_, _, rfl, rfl⟩

end Run

/-! ## Blocks -/

/-- Closing brackets complete a run that is closed by a bracket of its own. -/
theorem completes_run {take : List Token → Except Interruption (List Token) × List Token}
    (htake : ∀ tokens, take tokens = takeRun b false 0 tokens)
    (hclosing : b.closing.isTrivia = false) {front : List Token} {after : Nat}
    (hvalid : ∀ t ∈ front, t.valid = true) (hafter : b.depthAfter 0 front = some after) :
    Completes (run take) Anything (fun _ => True) front := by
  let close := sample b.closing
  have hclose : close.kind = b.closing := kind_sample _ hclosing
  have hmore : ∀ t ∈ List.replicate after close ++ [close], t.Writable := by
    refine List.forall_mem_append.mpr ⟨fun t ht => ?_, by simpa using writable_sample _⟩
    rw [List.eq_of_mem_replicate ht]
    exact writable_sample _
  refine ⟨_, front ++ List.replicate after close, hmore, trivial, fun s rest hs _ => ?_⟩
  rw [← List.append_assoc] at hs
  refine (accepts_run htake).exists_ok hs ?_ ⟨close, 0, ?_, ?_, ?_⟩
  · exact List.forall_mem_append.mpr ⟨hvalid, fun t ht => (hmore t ht).valid⟩
  · rw [depthAfter_append, hafter]
    exact depthAfter_replicate hclose after
  · rw [hclose, ends, if_neg b.distinct.symm, if_pos rfl]
    rfl
  · exact (List.append_assoc _ _ _).symm

/-- **A run that is closed by a bracket of its own** fails as early as it can. -/
theorem prompt_run {take : List Token → Except Interruption (List Token) × List Token}
    (htake : ∀ tokens, take tokens = takeRun b false 0 tokens)
    (hclosing : b.closing.isTrivia = false) : Prompt (run take) Anything fun _ => True := by
  intro s s' f h
  obtain ⟨front, tail, after, hs, hvalid, hafter, hstop⟩ := exists_front_of_run b 0 s.pending
  -- A well-formed token would end the run.
  have hill : ∀ t ∈ tail.head?, t.valid = false := by
    intro t ht
    by_contra hne
    obtain ⟨tail, rfl⟩ := List.head?_eq_some_iff.mp ht
    have ht : t.valid = true := by simpa using hne
    rw [List.append_cons] at hs
    obtain ⟨s₁, hok, -⟩ := (accepts_run htake).exists_ok hs
      (List.forall_mem_append.mpr ⟨hvalid, by simpa using ht⟩)
      ⟨t, after, hafter, hstop t rfl ht, rfl⟩
    cases h.symm.trans hok
  obtain ⟨g, s₁, hfails, hspan⟩ := run_stops htake hs hvalid hafter hill
  cases h.symm.trans hfails
  refine ⟨front, tail, hs, hspan, completes_run htake hclosing hvalid hafter,
    fun t ht s₂ rest hs₂ => ?_⟩
  rw [List.append_assoc] at hs₂
  obtain ⟨g', s₃, hfails', -⟩ := run_stops htake hs₂ hvalid hafter (by simpa using hill t ht)
  exact ⟨g', s₃, hfails'⟩

/-- What ends a block may be followed by everything but a semicolon. -/
theorem completes_accept {α : Type} {a : α} {Q : α → Prop} (h : Q a) :
    Completes (accept .semicolon >>= fun _ => pure a) NoSemicolon Q [] := by
  refine ⟨[], a, by simp, h, fun s rest hs hrest => ⟨s, ?_, hs⟩⟩
  have hnone : startsWith .semicolon s.pending = false := hs ▸ hrest
  have haccept : accept .semicolon s = .ok () s := by rw [accept_eq, hnone]; rfl
  rw [bind_of_ok haccept]
  rfl

/-- The rest of a block fails at the first token that cannot be in it. -/
theorem prompt_blockBody : Prompt blockBody NoSemicolon fun _ => True := by
  have hlocal : Local (run (takeBlock 0)) Anything :=
    (accepts_run (takeBlock_eq_takeRun 0)).local (keepsStrays_run _) fun _ _ _ _ h _ => h
  refine (prompt_run (takeBlock_eq_takeRun 0) rfl).then hlocal
    (advances_run (takeBlock_suffix 0)) (fun body => ?_) fun body _ => completes_accept trivial
  exact prompt_accept .semicolon body _ _

/-- The rest of a block can be completed by a closing brace alone. -/
theorem completes_blockBody : Completes blockBody NoSemicolon (fun _ => True) [] :=
  (completes_run (takeBlock_eq_takeRun 0) rfl (by simp) rfl).bind
    (fun _ _ => completes_accept trivial) (follows_anything _ _)

/-- A block fails at the first token that cannot be in it. -/
theorem prompt_block : Prompt block NoSemicolon fun _ => True := by
  have hbody : ∀ t : Token, t.valid = true ∧ t.kind = .openCurly →
      (if !t.valid then failAt t
        else if t.kind = .openCurly then blockBody
        else failNoBlock (some t) : Scan (List Token)) = blockBody := by
    rintro t ⟨hvalid, ht⟩
    simp [hvalid, ht]
  have hopen : (sample .openCurly).valid = true ∧ (sample .openCurly).kind = .openCurly :=
    ⟨(writable_sample _).valid, kind_sample _ rfl⟩
  refine prompt_next_bind (G := fun t => t.valid = true ∧ t.kind = .openCurly)
    (writable_sample .openCurly) ?_ (fun t ht => ?_)
    (fun t ht => stopsBefore_next_bind ?_) fun s s' f hs h => ?_
  · dsimp only
    rw [hbody _ hopen]
    exact completes_blockBody
  · dsimp only
    rw [hbody t ht]
    exact prompt_blockBody
  · dsimp only
    cases hvalid : t.valid with
    | false => exact stopsAt_failAt t
    | true =>
        have hkind : t.kind ≠ .openCurly := fun hkind => ht ⟨hvalid, hkind⟩
        simp only [Bool.not_true, Bool.false_eq_true, if_false, hkind]
        exact stopsAt_fail _ _
  · exact span_of_spanOf_none hs h

/-! ## Expressions -/

/-- The value of a constant is an expression and a semicolon. -/
theorem accepts_value {α : Type} (g : List Token → α) :
    Accepts (expression >>= fun value => expect .semicolon "';'" >>= fun _ => pure (g value))
      fun used a _ => ∃ value semicolon, used = value ++ [semicolon] ∧ Expression value ∧
        semicolon.kind = .semicolon ∧ a = g value := by
  refine (accepts_expression.bind fun value => (accepts_expect _ _).bind fun _ =>
    accepts_pure (g value)).congr_of_valid fun used a rest hvalid => ?_
  constructor
  · rintro ⟨value, _, _, rfl, ⟨rfl, last, more, after, hlast, -, hafter, hends⟩, _, semicolon, _,
      rfl, ⟨rfl, hsemicolon⟩, rfl, rfl⟩
    obtain ⟨rfl, -⟩ := List.cons.inj hlast
    exact ⟨value, semicolon, rfl, (expression_iff hsemicolon).mpr ⟨after, hafter, hends⟩,
      hsemicolon, rfl⟩
  · rintro ⟨value, semicolon, rfl, hvalue, hsemicolon, rfl⟩
    obtain ⟨after, hafter, hends⟩ := (expression_iff hsemicolon).mp hvalue
    have hlast : semicolon.valid = true := hvalid semicolon (by simp)
    exact ⟨value, value, [semicolon], rfl,
      ⟨rfl, semicolon, rest, after, rfl, hlast, hafter, hends⟩, [semicolon], semicolon, [], rfl,
      ⟨rfl, hsemicolon⟩, rfl, rfl⟩

/-- An expression is completed by closing its parentheses, and by the semicolon behind it. -/
theorem completes_value {α : Type} {g : List Token → α} {Q : α → Prop} (hQ : ∀ value, Q (g value))
    {front : List Token} {after : Nat} (hvalid : ∀ t ∈ front, t.valid = true)
    (hafter : parentheses.depthAfter 0 front = some after) :
    Completes (expression >>= fun value => expect .semicolon "';'" >>= fun _ => pure (g value))
      Anything Q front := by
  let close := sample .closeParen
  let semicolon := sample .semicolon
  have hclose : close.kind = .closeParen := kind_sample _ rfl
  have hsemicolon : semicolon.kind = .semicolon := kind_sample _ rfl
  have hmore : ∀ t ∈ List.replicate after close ++ [semicolon], t.Writable := by
    refine List.forall_mem_append.mpr ⟨fun t ht => ?_, by simpa using writable_sample _⟩
    rw [List.eq_of_mem_replicate ht]
    exact writable_sample _
  refine ⟨List.replicate after close ++ [semicolon], g (front ++ List.replicate after close), hmore,
    hQ _, fun s rest hs _ => ?_⟩
  rw [← List.append_assoc] at hs
  refine (accepts_value g).exists_ok hs ?_ ⟨front ++ List.replicate after close, semicolon, ?_, ?_,
    hsemicolon, rfl⟩
  · exact List.forall_mem_append.mpr ⟨hvalid, fun t ht => (hmore t ht).valid⟩
  · rw [List.append_assoc]
  · rw [Expression, nested_iff_depthAfter, depthAfter_append, hafter]
    exact depthAfter_replicate hclose after

/-- Where a value fails: at an ill-formed token, at one that ends the expression and is no
semicolon, or at the end. -/
theorem value_stops {α : Type} {g : List Token → α} {s : State} {front tail : List Token}
    {after : Nat} (hs : s.pending = front ++ tail) (hvalid : ∀ t ∈ front, t.valid = true)
    (hafter : parentheses.depthAfter 0 front = some after)
    (hstop : ∀ t ∈ tail.head?, t.valid = true →
      parentheses.ends after t.kind = true ∧ t.kind ≠ .semicolon) :
    ∃ f s', (expression >>= fun value => expect .semicolon "';'" >>= fun _ => pure (g value)) s =
      .error f s' ∧ f.span = s.cursor.spanAt tail := by
  by_cases hill : ∀ t ∈ tail.head?, t.valid = false
  · obtain ⟨f, s', hrun, hspan⟩ := run_stops (takeExpression_eq_takeRun 0) hs hvalid hafter hill
    exact ⟨f, s', bind_of_error hrun _, hspan⟩
  · simp only [not_forall, Bool.not_eq_false] at hill
    obtain ⟨t, ht, hok⟩ := hill
    obtain ⟨hends, hkind⟩ := hstop t ht hok
    obtain ⟨tail, rfl⟩ := List.head?_eq_some_iff.mp ht
    obtain ⟨s₁, hexpression, hs₁⟩ := accepts_expression.exists_ok hs hvalid
      ⟨rfl, t, tail, after, rfl, hok, hafter, hends⟩
    obtain ⟨f, s₂, hexpect, hspan⟩ :=
      stopsBefore_expect (fun h => hkind h.2) "';'" s₁ tail hs₁
    exact ⟨f, s₂, (bind_of_ok hexpression _).trans (bind_of_error hexpect _), hspan⟩

/-- **A value fails as early as it can**: an expression ends at a token that cannot belong to it
however it goes on, and if that is no semicolon, the value is lost. -/
theorem prompt_value {α : Type} {g : List Token → α} {Q : α → Prop} (hQ : ∀ value, Q (g value)) :
    Prompt (expression >>= fun value => expect .semicolon "';'" >>= fun _ => pure (g value))
      Anything Q := by
  intro s s' f h
  obtain ⟨front, tail, after, hs, hvalid, hafter, hends⟩ :=
    exists_front_of_run parentheses 0 s.pending
  have hstop : ∀ t ∈ tail.head?, t.valid = true →
      parentheses.ends after t.kind = true ∧ t.kind ≠ .semicolon := by
    intro t ht hok
    refine ⟨hends t ht hok, fun hkind => ?_⟩
    obtain ⟨tail, rfl⟩ := List.head?_eq_some_iff.mp ht
    rw [List.append_cons] at hs
    obtain ⟨s₁, hok, -⟩ := (accepts_value g).exists_ok hs
      (List.forall_mem_append.mpr ⟨hvalid, by simpa using hok⟩)
      ⟨front, t, rfl, (expression_iff hkind).mpr ⟨after, hafter, hends t rfl hok⟩, hkind, rfl⟩
    cases h.symm.trans hok
  obtain ⟨f', s₁, hfails, hspan⟩ := value_stops hs hvalid hafter hstop
  cases h.symm.trans hfails
  refine ⟨front, tail, hs, hspan, completes_value hQ hvalid hafter, fun t ht s₂ rest hs₂ => ?_⟩
  rw [List.append_assoc] at hs₂
  obtain ⟨f', s₃, hfails', -⟩ := value_stops hs₂ hvalid hafter (by simpa using hstop t ht)
  exact ⟨f', s₃, hfails'⟩

/-! ## Headers -/

/-- The reader of an identifier, completed by a sample. -/
theorem prompt_name (role : String) :
    Prompt (expectIdentifier role) Anything (· = sample .identifier) :=
  prompt_expectIdentifier (writable_sample _) (kind_sample _ rfl) role

/-- What a token starts in a header is refused at once, or it fails as early as it can. -/
theorem stopsAt_or_prompt_headerPart (strict : Bool) (h : Header) (t : Token) :
    StopsAt (headerPart strict h t) t.span ∨
      Prompt (headerPart strict h t) Anything fun _ => True := by
  unfold headerPart
  cases t.clause? with
  | none =>
      dsimp only
      unfold tolerate
      split
      · exact .inl (stopsAt_fail _ _)
      · exact .inr (prompt_of_succeeds (fun s => ⟨h, _, rfl⟩) _ _)
  | some c =>
      dsimp only
      cases h.objection? c with
      | some fault => exact .inl (stopsAt_fail _ _)
      | none =>
          right
          cases c with
          | parent | replaces =>
              exact (prompt_name _).then (local_expectIdentifier _) (advances_expectIdentifier _)
                (fun _ => prompt_pure _ _ _) fun _ _ => completes_pure trivial _
          | native => exact prompt_pure _ _ _

/-- A header may end wherever its parts do. -/
theorem completes_clauses (strict : Bool) (n : Nat) (h : Header) :
    Completes (clauses strict n h) (fun rest => startsWith .openCurly rest = true)
      (fun _ => True) [] := by
  refine ⟨[], h, by simp, trivial, fun s rest hs hrest => ?_⟩
  obtain ⟨s', hok, hpending, -⟩ := clauses_of_startsWith strict n h hs hrest
  exact ⟨s', hok, hpending⟩

/-- **Header parts fail as early as they can.** -/
theorem prompt_clauses (strict : Bool) (n : Nat) (h : Header) :
    Prompt (clauses strict n h) (fun rest => startsWith .openCurly rest = true)
      fun _ => True := by
  induction n generalizing h with
  | zero => exact prompt_pure _ _ _
  | succ n ih =>
      refine prompt_of_head (G := fun t => t.valid = true ∧ t.kind ≠ .openCurly ∧
        ¬StopsAt (headerPart strict h t) t.span) (completes_clauses strict (n + 1) h)
        (fun t ht => ⟨headerPart strict h t >>= fun h' => clauses strict n h', ?_, ?_⟩)
        (fun t ht => ?_) fun s s' f hs hf => ?_
      · intro s tail hs
        refine ⟨s.afterSkip.afterNext, ?_, ?_, clauses_of_valid hs ht.1 ht.2.1⟩
        · rw [State.pending_afterNext, State.pending_afterSkip, hs]
          rfl
        · exact s.afterSkip.cursor.reaches_significant.stop
      · have hpart := (stopsAt_or_prompt_headerPart strict h t).resolve_left ht.2.2
        exact hpart.then (local_headerPart strict h t) (advances_headerPart strict h t)
          (fun h' => ih h') fun h' _ => completes_clauses strict n h'
      · cases hvalid : t.valid with
        | false =>
            left
            intro s tail hs
            rw [clauses_of_not_valid hs hvalid]
            exact stopsAt_failAt t _
        | true =>
            by_cases hkind : t.kind = .openCurly
            · exact .inr fun s tail hs => ⟨h, _, clauses_of_openCurly hs hvalid hkind⟩
            · left
              have hstops : StopsAt (headerPart strict h t) t.span := by
                by_contra hno
                exact ht ⟨hvalid, hkind, hno⟩
              intro s tail hs
              rw [clauses_of_valid hs hvalid hkind]
              exact hstops.bind _ _
      · rw [clauses_of_pending_eq_nil hs] at hf
        cases hf

/-- A header, where the body is to follow, fails at the first token that cannot be in it. -/
theorem prompt_header (strict : Bool) (kind : TypeKind) :
    Prompt (header strict kind) (fun rest => startsWith .openCurly rest = true) fun _ => True :=
  (prompt_name _).then (local_expectIdentifier _) (advances_expectIdentifier _)
    (fun _ => prompt_clauses _ _ _) fun _ _ => completes_clauses _ _ _

/-! ## Productions -/

section Productions

variable {strict : Bool} {source : String} {u : Token}

/-- Does the item include at most the file that the given token names? -/
def IncludesOnly (u : Token) (item : Item) : Prop := ∀ t, item = .inclusion t → t = u

/-- The word for inclusion. -/
def includeToken : Token := firstOf 0x69 (Ascii.bytes "nclude".toList)

/-- The word for inclusion can be written. -/
theorem writable_includeToken : includeToken.Writable :=
  writable_firstOf (by decide +kernel) (by decide +kernel)

/-- A block, and the declaration that is made of it. -/
theorem prompt_declareBlock (g : List Token → Declaration) :
    Prompt (block >>= fun body => pure (.declaration (g body))) NoSemicolon (IncludesOnly u) :=
  prompt_block.bind local_block advances_block (fun _ => prompt_pure _ _ _)
    (fun _ _ => completes_pure (by simp [IncludesOnly]) _) (follows_pure _ _)

/-- A declaration that lacks its block can be completed by an empty one. -/
theorem completes_declareBlock (g : List Token → Declaration) :
    Completes (block >>= fun body => pure (.declaration (g body))) NoSemicolon
      (IncludesOnly u) [] :=
  (prompt_block.completes_nil local_block fun _ _ _ _ => trivial).bind
    (fun _ _ => completes_pure (by simp [IncludesOnly]) _) (follows_pure _ _)

/-- An enumeration fails at the first token that cannot be in it. -/
theorem prompt_enumeration : Prompt (enumeration source) NoSemicolon (IncludesOnly u) :=
  (prompt_name _).then (local_expectIdentifier _) (advances_expectIdentifier _)
    (fun _ => prompt_declareBlock _) fun _ _ => completes_declareBlock _

/-- A class or structure fails at the first token that cannot be in it. -/
theorem prompt_typeDeclaration (kind : TypeKind) :
    Prompt (typeDeclaration strict source kind) NoSemicolon (IncludesOnly u) := by
  refine (prompt_header strict kind).bind (local_header strict kind) (advances_header strict kind)
    (fun _ => prompt_declareBlock _) (fun _ _ => completes_declareBlock _) ?_
  intro h s s' item hs _
  obtain ⟨body, s₁, hblock, -⟩ := bind_eq_ok_iff.mp hs
  obtain ⟨used, hused, -, -⟩ := accepts_block.of_ok hblock
  rw [hused]
  exact startsWith_openCurly_of_block hblock hused _

/-- A token of some kind, completed by a sample. -/
theorem prompt_sample {kind : Kind} (hkind : kind.isTrivia = false) (expected : String) :
    Prompt (expect kind expected) Anything (· = sample kind) :=
  prompt_expect (writable_sample kind) (kind_sample kind hkind) expected

/-- An expected token does not depend on what follows it. -/
theorem local_expect (kind : Kind) (expected : String) : Local (expect kind expected) Anything :=
  (accepts_expect kind expected).local (keepsStrays_expect kind expected) fun _ _ _ _ h _ => h

/-- An expected token can be completed by a sample of its kind. -/
theorem completes_expect {kind : Kind} (hkind : kind.isTrivia = false) (expected : String) :
    Completes (expect kind expected) Anything (fun _ => True) [] :=
  ((prompt_sample hkind expected).mono (fun _ h => h) fun _ _ => trivial).completes_nil
    (local_expect kind expected) fun _ _ _ _ => trivial

/-- A constant fails at the first token that cannot be in it. -/
theorem prompt_constant : Prompt (constant source) Anything (IncludesOnly u) := by
  have hvalue : ∀ name value, IncludesOnly u
      (.declaration (.ofName .constant name source value)) := by
    simp [IncludesOnly]
  have hstart : ∀ name, Completes _ Anything (IncludesOnly u) [] := fun name =>
    completes_value (hvalue name) (by simp) rfl
  refine (prompt_name _).then (local_expectIdentifier _) (advances_expectIdentifier _)
    (fun name => ?_) fun name _ =>
      (completes_expect rfl _).bind (fun _ _ => hstart name) (follows_anything _ _)
  exact (prompt_sample rfl _).then (local_expect _ _) (advances_expect _ _)
    (fun _ => prompt_value (hvalue name)) fun _ _ => hstart name

/-- A version directive fails at the first token that cannot be in it. -/
theorem prompt_versionDirective : Prompt versionDirective NoSemicolon (IncludesOnly u) :=
  (prompt_sample rfl _).then (local_expect _ _) (advances_expect _ _)
    (fun text => prompt_accept _ _ _ _) fun text _ => completes_accept (by simp [IncludesOnly])

/-- What a directive includes, completed by the given token. -/
theorem prompt_included (hu : u.Writable) (hkind : u.kind = .string) (expected : String) :
    Prompt (expect .string expected >>= fun path => pure (Item.inclusion path)) Anything
      (IncludesOnly u) := by
  refine (prompt_expect hu hkind expected).then (local_expect _ _) (advances_expect _ _)
    (fun path => prompt_pure _ _ _) ?_
  rintro _ rfl
  exact completes_pure (by simp [IncludesOnly]) _

/-- **Directives fail as early as they can**: at a name that means nothing, or at what they
include. -/
theorem prompt_directive (hu : u.Writable) (hkind : u.kind = .string) :
    Prompt directive Anything (IncludesOnly u) := by
  let G (t : Token) : Prop :=
    (t.valid = true ∧ t.kind = .identifier) ∧ t.keyword? = some .includeWord
  have hinclude : G includeToken :=
    ⟨⟨writable_includeToken.valid, by decide +kernel⟩, by decide +kernel⟩
  -- After the word for inclusion, the path is all that is missing.
  have htakes : ∀ t, G t → Takes directive t
      (expect .string "include path string" >>= fun path => pure (.inclusion path)) := by
    rintro t ⟨⟨hvalid, hname⟩, hk⟩
    have h : Takes directive t _ := (takes_expectIdentifier hvalid hname _).bind _
    rwa [pure_bind, if_pos hk] at h
  refine prompt_of_head (G := G) ?_ (fun t ht => ⟨_, htakes t ht, prompt_included hu hkind _⟩)
    (fun t ht => .inl ?_) fun s s' f hs h => ?_
  · have hpath := (completes_pure (Q := IncludesOnly u) (by simp [IncludesOnly]) Anything).of_takes
      hu ((takes_expect hu.valid hkind "include path string").bind fun t => pure (.inclusion t))
    exact hpath.of_takes writable_includeToken (htakes _ hinclude)
  · by_cases hname : t.valid = true ∧ t.kind = .identifier
    · have h : Takes directive t _ := (takes_expectIdentifier hname.1 hname.2 _).bind _
      rw [pure_bind, if_neg fun hk => ht ⟨hname, hk⟩] at h
      exact (stopsAt_fail _ _).before h
    · exact (stopsBefore_expectIdentifier hname _).bind _
  · cases hname : expectIdentifier "preprocessor directive name" s with
    | error g s₁ =>
        cases h.symm.trans (bind_of_error hname _)
        exact (prompt_name _).span_of_pending hs hname
    | ok name s₁ =>
        obtain ⟨used, hused, -, rfl, -⟩ := (accepts_expectIdentifier _).of_ok hname
        cases hs.symm.trans hused

/-- What a token starts is refused at once, or it fails as early as it can. -/
theorem stopsAt_or_prompt_startingWith (hu : u.Writable) (hkind : u.kind = .string) (t : Token) :
    StopsAt (startingWith strict source t) t.span ∨
      Prompt (startingWith strict source t) NoSemicolon (IncludesOnly u) := by
  unfold startingWith
  split
  · exact .inr ((prompt_directive hu hkind).mono (fun _ _ => trivial) fun _ h => h)
  · split
    · exact .inr (prompt_typeDeclaration _)
    · exact .inr (prompt_typeDeclaration _)
    · exact .inr (prompt_constant.mono (fun _ _ => trivial) fun _ h => h)
    · exact .inr prompt_enumeration
    · exact .inr prompt_versionDirective
    · exact .inr (prompt_pure _ _ _)
  · exact .inl (stopsAt_fail _ _)
  · exact .inl (stopsAt_fail _ _)
  · exact .inl (stopsAt_fail _ _)

/-- **Items fail as early as they can.** The tokens before the failure are the beginning of an item
that includes at most the file that `u` names. -/
theorem prompt_next? (hu : u.Writable) (hkind : u.kind = .string) :
    Prompt (next? strict source) NoSemicolon
      fun found => ∃ item, found = some item ∧ IncludesOnly u item := by
  let Q (found : Option Item) : Prop := ∃ item, found = some item ∧ IncludesOnly u item
  have hsome : ∀ item, IncludesOnly u item → Completes (pure (some item)) NoSemicolon Q [] :=
    fun item h => completes_pure ⟨item, rfl, h⟩ _
  have hword : Completes (startingAt strict source (sample .identifier) >>= fun item =>
      pure (some item)) NoSemicolon Q [] := by
    have h : startingAt strict source (sample .identifier) = pure (.word (sample .identifier)) := by
      have hnone : (sample .identifier).keyword? = none := by decide +kernel
      rw [startingAt, if_pos (writable_sample _).valid, startingWith, kind_sample _ rfl]
      simp only [hnone]
    rw [h, pure_bind]
    exact hsome _ (by simp [IncludesOnly])
  refine prompt_next_bind (G := fun t => t.valid = true ∧
    ¬StopsAt (startingWith strict source t) t.span) (writable_sample .identifier) hword
    (fun t ht => ?_) (fun t ht => stopsBefore_next_bind ?_) fun s s' g _ h => ?_
  · dsimp only
    rw [startingAt, if_pos ht.1]
    exact ((stopsAt_or_prompt_startingWith hu hkind t).resolve_left ht.2).bind
      (local_startingWith t) (advances_startingWith strict source t) (fun _ => prompt_pure _ _ _)
      hsome (follows_pure some _)
  · refine StopsAt.bind ?_ _
    unfold startingAt
    split
    · next hvalid => exact of_not_not fun hno => ht ⟨hvalid, hno⟩
    · exact stopsAt_fail _ _
  · cases h

end Productions

end Grammar

end ZDecl
