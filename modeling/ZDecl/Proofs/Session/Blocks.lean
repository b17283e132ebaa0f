import ZDecl.Proofs.Grammar.Closing
import ZDecl.Session

/-!
# What a session captures as a block

A block starts with an opening brace and ends with the token behind which no brace is open any more,
for the first time. So what its reader captures is the shortest balanced run. This file says where
exactly the reader stops, why it fails where it does, and what becomes of it if one statement may
stand in the place of a block.

* `NoBlock`: the failures of the reader, each with what it says of the tokens.
* `Scan.block_outcome`: the reader stops behind a block or with one of these failures.
* `Scan.blockOrStatement_eq_ok_iff`: a statement is an expression and a semicolon.
* `ReadsBlock`: all of this, as a session sees it.
* **`block_captures_shortest`**: every session reads blocks so.

A block that is closed and the failures exclude each other, so it is enough to show what is true
after each outcome: that a block is read wherever there is one follows from that.
-/

namespace ZDecl

open Grammar

/-! ## Blocks -/

/-- Why no block can be read from the significant tokens of a stream that ends at `stop`. -/
inductive NoBlock (tokens : List Token) (stop : Position) : Failure → Prop where
  /-- There is no token at all. -/
  | missing (h : tokens = []) : NoBlock tokens stop
      { cause := .expectedBlock (Token.describeFound none), span := Span.point stop }
  /-- Something else comes first. -/
  | other {t : Token} (h : tokens.head? = some t) (hvalid : t.valid = true)
      (hkind : t.kind ≠ .openCurly) : NoBlock tokens stop
      { cause := .expectedBlock (Token.describeFound (some t)), span := t.span }
  /-- A token is ill formed, before the block is closed. -/
  | illFormed {n : Nat} {t : Token} (hstart : n = 0 ∨ Scan.startsWith .openCurly tokens = true)
      (hopen : StaysOpen 0 tokens n) (ht : tokens[n]? = some t) (hvalid : t.valid = false) :
      NoBlock tokens stop (Failure.ofFault t.fault t.span)
  /-- The stream ends before the block is closed. -/
  | endOfStream (hstart : Scan.startsWith .openCurly tokens = true)
      (hopen : StaysOpen 0 tokens tokens.length) : NoBlock tokens stop
      { cause := .endOfStream, span := Span.point stop }

/-- Another kind of token comes first. -/
theorem not_startsWith_of_ne {tokens : List Token} {t : Token} {kind : Token.Kind}
    (h : tokens.head? = some t) (hkind : t.kind ≠ kind) :
    Scan.startsWith kind tokens = false := by
  rw [Scan.startsWith, h, Option.any_some]
  simp [hkind]

/-- A block that is closed can be read. -/
theorem NoBlock.not_closesAt {tokens : List Token} {stop : Position} {f : Failure} {k : Nat}
    (h : NoBlock tokens stop f) (hstart : Scan.startsWith .openCurly tokens = true)
    (hcloses : ClosesAt 0 tokens k) : False := by
  cases h with
  | missing h =>
      subst h
      cases hstart
  | other h _ hkind =>
      rw [not_startsWith_of_ne h hkind] at hstart
      cases hstart
  | illFormed _ hopen ht hvalid => exact hcloses.not_staysOpen hopen (.inr ⟨_, ht, hvalid⟩)
  | endOfStream _ hopen => exact hcloses.not_staysOpen hopen (.inl rfl)

/-- A block cannot be read for one reason only. -/
theorem NoBlock.unique {tokens : List Token} {stop : Position} {f f' : Failure}
    (h : NoBlock tokens stop f) (h' : NoBlock tokens stop f') : f' = f := by
  cases h with
  | missing h =>
      subst h
      cases h' with
      | missing _ => rfl
      | other h' _ _ => cases h'
      | illFormed _ _ ht _ => cases ht
      | endOfStream hstart _ => cases hstart
  | other h hvalid hkind =>
      have hstart := not_startsWith_of_ne h hkind
      cases h' with
      | missing h' =>
          subst h'
          cases h
      | other h' _ _ =>
          cases h.symm.trans h'
          rfl
      | illFormed hstart' _ ht hill =>
          rcases hstart' with rfl | hstart'
          · rw [← List.head?_eq_getElem?, h] at ht
            cases ht
            cases hvalid.symm.trans hill
          · cases hstart.symm.trans hstart'
      | endOfStream hstart' _ => cases hstart.symm.trans hstart'
  | illFormed hstart hopen ht hill =>
      cases h' with
      | missing h' =>
          subst h'
          cases ht
      | other h' hvalid hkind =>
          rcases hstart with rfl | hstart
          · rw [← List.head?_eq_getElem?, h'] at ht
            cases ht
            cases hvalid.symm.trans hill
          · cases (not_startsWith_of_ne h' hkind).symm.trans hstart
      | illFormed _ hopen' ht' hill' =>
          have hle := hopen.le_of_not_valid ht' hill'
          have hge := hopen'.le_of_not_valid ht hill
          obtain rfl := Nat.le_antisymm hle hge
          cases ht.symm.trans ht'
          rfl
      | endOfStream _ hopen' =>
          have hlt := (List.getElem?_eq_some_iff.mp ht).1
          exact absurd (hopen'.le_of_not_valid ht hill) (Nat.not_le_of_lt hlt)
  | endOfStream hstart hopen =>
      cases h' with
      | missing h' =>
          subst h'
          cases hstart
      | other h' _ hkind => cases (not_startsWith_of_ne h' hkind).symm.trans hstart
      | illFormed _ _ ht hill =>
          have hlt := (List.getElem?_eq_some_iff.mp ht).1
          exact absurd (hopen.le_of_not_valid ht hill) (Nat.not_le_of_lt hlt)
      | endOfStream _ _ => rfl

namespace Scan

/-- The reader right behind the first `n` significant tokens. -/
def State.behind (s : State) (n : Nat) : State :=
  { s with cursor := { s.cursor with tokens := ZDecl.behind n s.cursor.tokens } }

/-- Behind some significant tokens, the others are to be read. -/
@[simp] theorem State.pending_behind (s : State) (n : Nat) :
    (s.behind n).pending = s.pending.drop n :=
  unskipped_behind n _

/-- The tokens behind those behind some tokens are those behind both. -/
theorem State.behind_behind (s : State) (m n : Nat) : (s.behind m).behind n = s.behind (m + n) := by
  unfold behind
  rw [ZDecl.behind_behind]

/-- Reading one significant token. -/
theorem State.afterNext_eq (s : State) : s.afterNext = s.behind 1 := by
  have htokens : s.cursor.significant.2 =
      { s.cursor with tokens := ZDecl.behind 1 s.cursor.tokens } := by
    rw [behind_one]
    unfold Cursor.significant Cursor.next? Cursor.skip
    cases h : s.cursor.tokens.dropWhile Token.isSkipped <;> rfl
  rw [afterNext, htokens]
  rfl

/-- Where no significant token is to be read, reading one leads to the end of the stream. -/
theorem State.position_afterNext {s : State} (h : s.pending = []) :
    s.afterNext.cursor.position = s.cursor.stop := by
  have hnone : s.cursor.significant = (none, s.afterNext.cursor) := by
    refine Prod.ext ?_ rfl
    rw [s.significant_fst.1, h]
    rfl
  have htokens := Cursor.tokens_of_significant_eq_none hnone
  have hstop : s.afterNext.cursor.stop = s.cursor.stop := s.cursor.reaches_significant.stop
  unfold Cursor.position
  rw [htokens]
  exact hstop

/-- Where the reader of an optional token stops, by the number of the tokens read. -/
theorem accept_behind (kind : Token.Kind) (s : State) (n : Nat) :
    accept kind (s.behind n) =
      .ok () (s.behind (if startsWith kind (s.pending.drop n) then n + 1 else n)) := by
  rw [accept_eq, State.pending_behind, State.afterNext_eq, State.behind_behind]
  split <;> rfl

section Run

variable {take : List Token → Except Interruption (List Token) × List Token} {s : State}
  {rest : List Token}

/-- The reader of a run that is taken in. -/
theorem run_of_ok {taken : List Token} (h : take s.cursor.tokens = (.ok taken, rest)) :
    run take s = .ok taken { s with cursor := { s.cursor with tokens := rest } } := by
  simp only [run, h]

/-- It fails at an ill-formed token. -/
theorem run_of_illFormed {t : Token} (h : take s.cursor.tokens = (.error (.illFormed t), rest)) :
    run take s = .error (Failure.ofFault t.fault t.span)
      { s with cursor := { s.cursor with tokens := rest } } := by
  simp only [run, h]
  rfl

/-- It fails at the end of the stream, where all tokens are taken. -/
theorem run_of_endOfStream (h : take s.cursor.tokens = (.error .endOfStream, [])) :
    run take s = .error { cause := .endOfStream, span := Span.point s.cursor.stop }
      { s with cursor := { s.cursor with tokens := [] } } := by
  simp only [run, h]
  rfl

end Run

/-- The reader of the rest of a block, behind its opening brace. -/
theorem blockBody_outcome (s : State) :
    (∃ k, ClosesAt 1 s.pending k ∧ blockBody s = .ok (s.pending.take k)
        (s.behind (if startsWith .semicolon (s.pending.drop (k + 1)) then k + 2 else k + 1))) ∨
      (∃ n t s', StaysOpen 1 s.pending n ∧ s.pending[n]? = some t ∧ t.valid = false ∧
        blockBody s = .error (Failure.ofFault t.fault t.span) s') ∨
      (∃ s', StaysOpen 1 s.pending s.pending.length ∧ blockBody s =
        .error { cause := .endOfStream, span := Span.point s.cursor.stop } s') := by
  have hends : BlockEnds 1 s.cursor.tokens (takeBlock 0 s.cursor.tokens) := takeBlock_ends 0 _
  generalize htake : takeBlock 0 s.cursor.tokens = result at hends
  cases hends with
  | @closed k h =>
      refine .inl ⟨k, h, ?_⟩
      have haccept := accept_behind .semicolon s (k + 1)
      rw [blockBody, bind_of_ok (run_of_ok htake)]
      exact bind_of_ok haccept _
  | illFormed h ht hvalid =>
      exact .inr (.inl ⟨_, _, _, h, ht, hvalid, bind_of_error (run_of_illFormed htake) _⟩)
  | endOfStream h => exact .inr (.inr ⟨_, h, bind_of_error (run_of_endOfStream htake) _⟩)

/-- **The reader of blocks** stops right behind a block and the semicolon that may follow it, or for
one of the reasons not to find any. -/
theorem block_outcome (s : State) :
    (∃ k, startsWith .openCurly s.pending = true ∧ ClosesAt 0 s.pending k ∧
        block s = .ok ((s.pending.take k).drop 1)
          (s.behind (if startsWith .semicolon (s.pending.drop (k + 1)) then k + 2 else k + 1))) ∨
      ∃ f s', block s = .error f s' ∧ NoBlock s.pending s.cursor.stop f := by
  have hafter := s.pending_afterNext
  unfold block
  rw [next_bind_eq]
  cases hs : s.pending with
  | nil =>
      refine .inr ⟨_, s.afterNext, ?_, .missing rfl⟩
      rw [← State.position_afterNext hs]
      rfl
  | cons t rest =>
      rw [hs, List.tail_cons] at hafter
      rw [List.head?_cons]
      dsimp only
      cases hvalid : t.valid with
      | false => exact .inr ⟨_, _, rfl, .illFormed (.inl rfl) (staysOpen_zero _ _) rfl hvalid⟩
      | true =>
          rw [if_neg (by simp)]
          by_cases hkind : t.kind = .openCurly
          · rw [if_pos hkind]
            have hstart : startsWith .openCurly (t :: rest) = true := by simp [hvalid, hkind]
            have hdepth := curlyDepth_of_openCurly hkind 0
            have hopen : curlyDepth 0 [t] ≠ 0 := by omega
            rcases blockBody_outcome s.afterNext with
              ⟨k, hcloses, hbody⟩ | ⟨n, u, s', hstays, hu, hill, hbody⟩ | ⟨s', hstays, hbody⟩
            · rw [hafter] at hcloses hbody
              refine .inl ⟨k + 1, hstart, .cons hvalid hopen (hdepth ▸ hcloses), ?_⟩
              rw [hbody, State.afterNext_eq, State.behind_behind, List.take_succ_cons,
                List.drop_succ_cons, List.drop_zero, List.drop_succ_cons]
              split <;> rw [Nat.add_comm 1]
            · rw [hafter] at hstays hu
              exact .inr ⟨_, s', hbody, .illFormed (n := n + 1) (.inr hstart)
                (.cons hvalid hopen (hdepth ▸ hstays)) hu hill⟩
            · rw [hafter] at hstays
              have hstop : s.afterNext.cursor.stop = s.cursor.stop :=
                s.cursor.reaches_significant.stop
              rw [hstop] at hbody
              exact .inr ⟨_, s', hbody, .endOfStream hstart
                (.cons hvalid hopen (hdepth ▸ hstays))⟩
          · rw [if_neg hkind]
            exact .inr ⟨_, _, rfl, .other rfl hvalid hkind⟩

/-! ## One statement in place of a block -/

/-- White space and comments in front change nothing for an expression. -/
theorem takeExpression_dropWhile (depth : Nat) (tokens : List Token) :
    takeExpression depth (tokens.dropWhile Token.isSkipped) = takeExpression depth tokens := by
  induction tokens with
  | nil => rfl
  | cons t tokens ih =>
      cases h : t.isSkipped with
      | true => rw [List.dropWhile_cons_of_pos h, ih, takeExpression, if_pos h]
      | false => rw [List.dropWhile_cons_of_neg (by simp [h])]

/-- An expression starts at the first significant token. -/
theorem expression_afterSkip (s : State) : expression s.afterSkip = expression s := by
  have htake : takeExpression 0 s.afterSkip.cursor.tokens = takeExpression 0 s.cursor.tokens :=
    takeExpression_dropWhile 0 s.cursor.tokens
  unfold expression run
  rw [htake]
  rfl

/-- They are read with the significant token that follows them. -/
theorem State.afterNext_afterSkip (s : State) : s.afterSkip.afterNext = s.afterNext := by
  rw [State.afterNext_eq, State.afterNext_eq]
  unfold State.behind State.afterSkip Cursor.skip
  rw [behind_succ_dropWhile]

/-- They change nothing for a block either. -/
theorem block_afterSkip (s : State) : block s.afterSkip = block s := by
  unfold block
  rw [next_bind_eq, next_bind_eq, State.afterNext_afterSkip, State.pending_afterSkip]

/-- Where no statement starts, a block is read and nothing else. -/
theorem blockOrStatement_eq_block {s : State}
    (h : ∀ t, s.pending.head? = some t → t.valid = true → t.kind = .openCurly) :
    blockOrStatement s = block s := by
  unfold blockOrStatement
  rw [bind_of_ok (peek_eq s)]
  cases hs : s.pending.head? with
  | none => exact block_afterSkip s
  | some t =>
      dsimp only
      rw [if_neg]
      · exact block_afterSkip s
      · intro hstatement
        rw [Bool.and_eq_true, bne_iff_ne] at hstatement
        exact hstatement.2 (h t hs hstatement.1)

/-- When a token of some kind is read. -/
theorem expect_eq_ok_iff {kind : Token.Kind} {expected : String} {s s' : State} {t : Token} :
    expect kind expected s = .ok t s' ↔
      s.pending.head? = some t ∧ t.valid = true ∧ t.kind = kind ∧ s' = s.afterNext := by
  constructor
  · intro h
    obtain ⟨used, hused, hvalid, rfl, hkind⟩ := (accepts_expect kind expected).of_ok h
    refine ⟨by rw [hused]; rfl, hvalid t List.mem_cons_self, hkind, ?_⟩
    unfold expect at h
    rw [next_bind_eq, hused] at h
    simp only [List.singleton_append, List.head?_cons, hvalid t List.mem_cons_self, hkind,
      Bool.not_true, Bool.false_eq_true, if_false, if_true] at h
    cases h
    rfl
  · rintro ⟨hhead, hvalid, hkind, rfl⟩
    unfold expect
    rw [next_bind_eq, hhead]
    simp only [hvalid, hkind, Bool.not_true, Bool.false_eq_true, if_false, if_true]
    rfl

/-- Where a statement starts, what is read is an expression and a semicolon. -/
theorem blockOrStatement_eq_ok_iff {s s' : State} {t : Token} {body : List Token}
    (ht : s.pending.head? = some t) (hvalid : t.valid = true) (hkind : t.kind ≠ .openCurly) :
    blockOrStatement s = .ok body s' ↔ ∃ value s₁ semicolon, expression s = .ok value s₁ ∧
      s₁.pending.head? = some semicolon ∧ semicolon.valid = true ∧
        semicolon.kind = .semicolon ∧ s' = s₁.afterNext ∧ body = value ++ [semicolon] := by
  unfold blockOrStatement
  rw [bind_of_ok (peek_eq s), ht]
  dsimp only
  rw [if_pos (by simp [hvalid, hkind]), bind_eq_ok_iff, expression_afterSkip]
  constructor
  · rintro ⟨value, s₁, hvalue, h⟩
    obtain ⟨semicolon, s₂, hsemicolon, h⟩ := bind_eq_ok_iff.mp h
    obtain ⟨hhead, hgood, hkind', rfl⟩ := expect_eq_ok_iff.mp hsemicolon
    cases h
    exact ⟨value, s₁, semicolon, hvalue, hhead, hgood, hkind', rfl, rfl⟩
  · rintro ⟨value, s₁, semicolon, hvalue, hhead, hgood, hkind', rfl, rfl⟩
    have hsemicolon : expect .semicolon "';'" s₁ = .ok semicolon s₁.afterNext :=
      expect_eq_ok_iff.mpr ⟨hhead, hgood, hkind', rfl⟩
    exact ⟨value, s₁, hvalue, bind_eq_ok_iff.mpr ⟨semicolon, _, hsemicolon, rfl⟩⟩

end Scan

/-! ## Blocks in a session -/

namespace Session

variable {α : Type} {p : Scan α} {s s' : Session}

/-- The significant tokens still to be read in the file that is being read. -/
def pending (s : Session) : List Token := unskipped s.context.cursor.tokens

/-- The session right behind the first `n` of them. -/
def behind (s : Session) (n : Nat) : Session :=
  let cursor := { s.context.cursor with tokens := ZDecl.behind n s.context.cursor.tokens }
  s.resume { s.context with cursor }

/-- A reader without stray tokens only moves on in the file. -/
theorem advance_of_strays_eq_nil (s : Session) {r : Scan.State} (h : r.strays = []) :
    s.advance r = s.resume { s.context with cursor := r.cursor } := by
  unfold advance Diagnostics.warnAll
  rw [h, List.map_nil, List.append_nil]
  rfl

/-- What is read in a session is what the reader reads. -/
theorem scan_eq_ok_iff {a : α} : scan p s = .ok a s' ↔
    ∃ r, p ⟨s.context.cursor, []⟩ = .ok a r ∧ s' = s.advance r := by
  unfold scan
  cases p ⟨s.context.cursor, []⟩ with
  | ok b r =>
      constructor
      · intro h
        cases h
        exact ⟨r, rfl, rfl⟩
      · rintro ⟨r', h, rfl⟩
        cases h
        rfl
  | error f r =>
      constructor
      · intro h
        cases h
      · rintro ⟨r', h, -⟩
        cases h

/-- A session cannot read on if the reader cannot, and names the file. -/
theorem scan_eq_error_iff {f : Failure} : scan p s = .error f s' ↔ ∃ g r,
    p ⟨s.context.cursor, []⟩ = .error g r ∧ f = g.inSource s.context.name ∧
      s' = (s.advance r).report f := by
  unfold scan
  cases p ⟨s.context.cursor, []⟩ with
  | ok b r =>
      constructor
      · intro h
        cases h
      · rintro ⟨g, r', h, -⟩
        cases h
  | error g r =>
      constructor
      · intro h
        cases h
        exact ⟨g, r, rfl, rfl, rfl⟩
      · rintro ⟨g', r', h, rfl, rfl⟩
        cases h
        rfl

end Session

open Scan

/-- What reading a block is in the session `s`, and what it is if one statement may stand in the
place of a block. -/
structure ReadsBlock (s : Session) : Prop where
  /-- A block is read if and only if it is closed. It is given without its outer braces, and a
  semicolon right behind it is read. -/
  closes : ∀ body s', Session.block false s = .ok body s' ↔
    ∃ k, startsWith .openCurly s.pending = true ∧ ClosesAt 0 s.pending k ∧
      body = (s.pending.take k).drop 1 ∧
        s' = s.behind (if startsWith .semicolon (s.pending.drop (k + 1)) then k + 2 else k + 1)
  /-- What is given is balanced in braces. -/
  balanced : ∀ body s', Session.block false s = .ok body s' → Braced 0 body
  /-- Otherwise there is a reason, with the name of the file. -/
  fails : ∀ f, (∃ s', Session.block false s = .error f s') ↔
    ∃ g, NoBlock s.pending s.context.cursor.stop g ∧ f = g.inSource s.context.name
  /-- Only a well-formed token other than an opening brace starts a statement. -/
  same : (∀ t, s.pending.head? = some t → t.valid = true → t.kind = .openCurly) →
    Session.block true s = Session.block false s
  /-- A statement is an expression and the semicolon that comes next. -/
  statement : ∀ t, s.pending.head? = some t → t.valid = true → t.kind ≠ .openCurly →
    ∀ body s', Session.block true s = .ok body s' ↔
      ∃ value s₁ semicolon, Session.expression s = .ok value s₁ ∧
        s₁.next = (some semicolon, s') ∧ semicolon.valid = true ∧
          semicolon.kind = .semicolon ∧ body = value ++ [semicolon]

/-- A block that is read is closed. -/
theorem Session.closesAt_of_block {s s' : Session} {body : List Token}
    (h : Session.block false s = .ok body s') :
    ∃ k, startsWith .openCurly s.pending = true ∧ ClosesAt 0 s.pending k ∧
      body = (s.pending.take k).drop 1 ∧
        s' = s.behind
          (if startsWith .semicolon (s.pending.drop (k + 1)) then k + 2 else k + 1) := by
  obtain ⟨r, hr, rfl⟩ := Session.scan_eq_ok_iff.mp h
  have hr : Scan.block ⟨s.context.cursor, []⟩ = .ok body r := hr
  rcases block_outcome ⟨s.context.cursor, []⟩ with ⟨k, hstart, hcloses, hk⟩ | ⟨f, s', hf, -⟩
  · cases hr.symm.trans hk
    refine ⟨k, hstart, hcloses, rfl, ?_⟩
    exact s.advance_of_strays_eq_nil (r := State.behind _ _) rfl
  · cases hr.symm.trans hf

/-- A block that is not read is not there. -/
theorem Session.noBlock_of_block {s s' : Session} {f : Failure}
    (h : Session.block false s = .error f s') :
    ∃ g, NoBlock s.pending s.context.cursor.stop g ∧ f = g.inSource s.context.name := by
  obtain ⟨g, r, hr, rfl, -⟩ := Session.scan_eq_error_iff.mp h
  have hr : Scan.block ⟨s.context.cursor, []⟩ = .error g r := hr
  rcases block_outcome ⟨s.context.cursor, []⟩ with ⟨k, -, -, hk⟩ | ⟨g', s', hg, hno⟩
  · cases hr.symm.trans hk
  · cases hr.symm.trans hg
    exact ⟨g, hno, rfl⟩

/-- **A block is the shortest balanced run of tokens in braces**, wherever in a file a session
stands. -/
theorem block_captures_shortest (s : Session) : ReadsBlock s where
  closes := by
    intro body s'
    refine ⟨Session.closesAt_of_block, ?_⟩
    rintro ⟨k, hstart, hcloses, rfl, rfl⟩
    cases h : Session.block false s with
    | ok body s' =>
        obtain ⟨k', -, hcloses', rfl, rfl⟩ := Session.closesAt_of_block h
        rw [hcloses.unique hcloses']
    | error f s' =>
        obtain ⟨g, hno, -⟩ := Session.noBlock_of_block h
        exact (hno.not_closesAt hstart hcloses).elim
  balanced := by
    intro body s' h
    obtain ⟨r, hr, -⟩ := Session.scan_eq_ok_iff.mp h
    obtain ⟨used, -, -, hblock⟩ := accepts_block.of_ok hr
    obtain ⟨_, _, _, _, _, hbody, _⟩ := hblock
    exact hbody.braced
  fails := by
    intro f
    refine ⟨fun ⟨s', h⟩ => Session.noBlock_of_block h, ?_⟩
    rintro ⟨g, hno, rfl⟩
    cases h : Session.block false s with
    | ok body s' =>
        obtain ⟨k, hstart, hcloses, -⟩ := Session.closesAt_of_block h
        exact (hno.not_closesAt hstart hcloses).elim
    | error f s' =>
        obtain ⟨g', hno', rfl⟩ := Session.noBlock_of_block h
        rw [hno.unique hno']
        exact ⟨s', rfl⟩
  same := by
    intro h
    have hblock : blockOrStatement ⟨s.context.cursor, []⟩ = Scan.block ⟨s.context.cursor, []⟩ :=
      blockOrStatement_eq_block h
    show Session.scan blockOrStatement s = Session.scan Scan.block s
    unfold Session.scan
    rw [hblock]
  statement := by
    intro t ht hvalid hkind body s'
    have hstatement : ∀ r, blockOrStatement ⟨s.context.cursor, []⟩ = .ok body r ↔ _ :=
      fun r => blockOrStatement_eq_ok_iff ht hvalid hkind
    have hkeeps : ∀ {value r}, Scan.expression ⟨s.context.cursor, []⟩ = .ok value r →
        r.strays = [] := fun h => keepsStrays_run _ _ _ _ h
    have hnext : ∀ {r : State}, r.strays = [] →
        (s.advance r).next = (r.pending.head?, s.advance r.afterNext) := by
      intro r hr
      have hr' : r.afterNext.strays = [] := hr
      rw [s.advance_of_strays_eq_nil hr, s.advance_of_strays_eq_nil hr', ← r.significant_fst.1]
      rfl
    refine (Session.scan_eq_ok_iff (p := blockOrStatement)).trans ?_
    constructor
    · rintro ⟨r, hr, rfl⟩
      obtain ⟨value, r₁, semicolon, hvalue, hhead, hgood, hkind', rfl, rfl⟩ := (hstatement r).mp hr
      refine ⟨value, _, semicolon, Session.scan_eq_ok_iff.mpr ⟨r₁, hvalue, rfl⟩, ?_, hgood, hkind',
        rfl⟩
      rw [hnext (hkeeps hvalue), hhead]
    · rintro ⟨value, s₁, semicolon, hvalue, hs', hgood, hkind', rfl⟩
      obtain ⟨r₁, hread, rfl⟩ := Session.scan_eq_ok_iff.mp hvalue
      rw [hnext (hkeeps hread), Prod.mk.injEq] at hs'
      exact ⟨r₁.afterNext, (hstatement _).mpr
        ⟨value, r₁, semicolon, hread, hs'.1, hgood, hkind', rfl, rfl⟩, hs'.2.symm⟩

end ZDecl
