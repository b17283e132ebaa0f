import ZDecl.Item
import ZDecl.Proofs.Grammar.Nesting

/-!
# Where readers fail

A reader that fails says where: at a token of the stream that it reads, or at the end of the stream
if it expects more than there is. It may do so at a token that it has read long before, so the
statement is about the stream from some earlier cursor on, not about what is still to be read.

* `Cursor.Locates`: the spans that a failure may have.
* `Scan.Keeps`: in the stream of a cursor, a reader fails at such a span only, and its results have
  some property.
* `Scan.Keeps.bind`: a sequence of two readers; every other reader follows by its own structure.
* `Scan.stopsAmong_takeRun`: a run that is not closed stops at one of its tokens or behind them.
* **`Item.keeps_next?`**: the reader of items; an include directive ends right behind its path.
-/

namespace ZDecl

/-- Is the span that of a token to be read from the cursor, or the end of its stream? -/
def Cursor.Locates (c : Cursor) (span : Span) : Prop :=
  (∃ t ∈ c.tokens, span = t.span) ∨ span = Span.point c.stop

/-- Is `t` the last token that is read between the cursors `c` and `c'`? -/
def Cursor.LastRead (c : Cursor) (t : Token) (c' : Cursor) : Prop :=
  ∃ before, c.tokens = before ++ t :: c'.tokens

/-- The last token read is one of the stream. -/
theorem Cursor.LastRead.mem {c c' : Cursor} {t : Token} (h : c.LastRead t c') : t ∈ c.tokens := by
  obtain ⟨before, htokens⟩ := h
  rw [htokens]
  simp

/-- At the end of its stream, a cursor stands where the stream ends. -/
theorem Cursor.Reaches.position_of_nil {c c' : Cursor} (h : c.Reaches c') (hnil : c'.tokens = []) :
    c'.position = c.stop := by
  unfold position
  rw [hnil]
  exact h.stop

namespace Scan

variable {α β : Type} {c : Cursor}

/-- Is an outcome in the stream of `c` as it should be? A result has the property `Q` where the
reader stops, a failure has no file yet and a span of the stream. -/
def Sound (c : Cursor) (Q : α → Cursor → Prop) : EStateM.Result Failure State α → Prop
  | .ok a s => Q a s.cursor
  | .error f _ => f.source = none ∧ c.Locates f.span

/-- What a reader keeps to: wherever it is tried in the stream of `c`, its outcome is as it should
be. -/
def Keeps (c : Cursor) (p : Scan α) (Q : α → Cursor → Prop) : Prop :=
  ∀ s : State, c.Reaches s.cursor → Sound c Q (p s)

/-! ## How readers are built -/

/-- A result without reading is as it should be if it is wherever the reader may stand. -/
theorem keeps_pure {Q : α → Cursor → Prop} (a : α) (h : ∀ c', c.Reaches c' → Q a c') :
    Keeps c (pure a) Q :=
  fun s hs => h s.cursor hs

/-- A sequence of two readers: what the first one keeps to may be used for the second one where
that is tried. -/
theorem Keeps.bind {p : Scan α} {f : α → Scan β} {P : α → Cursor → Prop}
    {Q : β → Cursor → Prop} (hp : Keeps c p P) (hadvances : Advances p)
    (hf : ∀ a s, c.Reaches s.cursor → P a s.cursor → Sound c Q (f a s)) :
    Keeps c (p >>= f) Q := by
  intro s hs
  have hsound := hp s hs
  have hreaches := hadvances s
  show Sound c Q (EStateM.bind p f s)
  unfold EStateM.bind
  cases hout : p s with
  | ok a s' =>
      rw [hout] at hsound hreaches
      exact hf a s' (hs.trans hreaches) hsound
  | error e s' =>
      rw [hout] at hsound
      exact hsound

/-- A sequence of two readers, of which the second one does not depend on where it is tried. -/
theorem Keeps.then {p : Scan α} {f : α → Scan β} {P : α → Cursor → Prop} {Q : β → Cursor → Prop}
    (hp : Keeps c p P) (hadvances : Advances p) (hf : ∀ a, Keeps c (f a) Q) :
    Keeps c (p >>= f) Q :=
  hp.bind hadvances fun a s hs _ => hf a s hs

/-! ## Single tokens -/

/-- The next significant token is a token of the stream; where there is none, the stream is read to
its end. -/
theorem keeps_next : Keeps c next fun token c' =>
    match token with
    | some t => c.LastRead t c'
    | none => c'.tokens = [] := by
  intro s hs
  show match s.cursor.significant.1 with
    | some t => c.LastRead t s.cursor.significant.2
    | none => s.cursor.significant.2.tokens = []
  split
  · next t ht =>
      obtain ⟨skipped, htokens⟩ := Cursor.tokens_of_significant (Prod.ext ht rfl)
      obtain ⟨before, hbefore⟩ := hs.tokens
      refine ⟨before ++ skipped, ?_⟩
      rw [← hbefore, htokens, List.append_assoc]
  · next hnone => exact Cursor.tokens_of_significant_eq_none (Prod.ext hnone rfl)

/-- A look at the next significant token shows a token of the stream. -/
theorem keeps_peek : Keeps c peek fun token _ => ∀ t ∈ token, t ∈ c.tokens := by
  intro s hs t ht
  have hskip : t ∈ s.cursor.skip.tokens := List.mem_of_mem_head? ht
  exact (hs.trans s.cursor.reaches_skip).tokens.subset hskip

/-- A failure for want of a token is located at the end of the stream. -/
theorem sound_spanOf_none {Q : α → Cursor → Prop} (cause : Cause) {s : State}
    (hs : c.Reaches s.cursor) (hnil : s.cursor.tokens = []) :
    Sound c Q ((do fail cause (← spanOf none)) s) := by
  refine ⟨rfl, .inr ?_⟩
  show Span.point s.cursor.position = Span.point c.stop
  rw [hs.position_of_nil hnil]

/-- A failure in place of a token of the stream. -/
theorem sound_fail {Q : α → Cursor → Prop} (cause : Cause) {t : Token} (ht : t ∈ c.tokens)
    (s : State) : Sound c Q (fail cause t.span s) :=
  ⟨rfl, .inl ⟨t, ht, rfl⟩⟩

/-- A failure at an ill-formed token of the stream. -/
theorem sound_failAt {Q : α → Cursor → Prop} {t : Token} (ht : t ∈ c.tokens) (s : State) :
    Sound c Q (failAt t s) :=
  ⟨rfl, .inl ⟨t, ht, rfl⟩⟩

/-- A failure at a token of the stream is located in it. -/
theorem keeps_fail {Q : α → Cursor → Prop} (cause : Cause) {t : Token} (ht : t ∈ c.tokens) :
    Keeps c (fail cause t.span) Q :=
  fun s _ => sound_fail cause ht s

/-- A failure at an ill-formed token of the stream is located in it. -/
theorem keeps_failAt {Q : α → Cursor → Prop} {t : Token} (ht : t ∈ c.tokens) :
    Keeps c (failAt t) Q :=
  fun s _ => sound_failAt ht s

/-- An expected token is the last one read, and its failure is located in the stream. -/
theorem keeps_expect (kind : Token.Kind) (expected : String) :
    Keeps c (expect kind expected) c.LastRead := by
  refine keeps_next.bind advances_next fun token s hs htoken => ?_
  cases token with
  | none => exact sound_spanOf_none _ hs htoken
  | some t =>
      have ht := htoken.mem
      dsimp only
      split
      · exact sound_failAt ht s
      · split
        · exact htoken
        · split
          · exact sound_fail _ ht s
          · exact sound_fail _ ht s

/-- An expected name is the last token read, and its failure is located in the stream. -/
theorem keeps_expectIdentifier (role : String) :
    Keeps c (expectIdentifier role) c.LastRead := by
  refine keeps_next.bind advances_next fun token s hs htoken => ?_
  cases token with
  | none => exact sound_spanOf_none _ hs htoken
  | some t =>
      have ht := htoken.mem
      dsimp only
      split
      · exact sound_failAt ht s
      · split
        · exact htoken
        · exact sound_fail _ ht s

/-- An optional token leads to failures in the stream only. -/
theorem keeps_accept (kind : Token.Kind) : Keeps c (accept kind) fun _ _ => True := by
  intro s _
  unfold accept
  split
  · trivial
  · trivial

/-! ## Runs of tokens -/

/-- Is the run, if it is interrupted, so at one of the tokens or at the end of them? -/
def StopsAmong (tokens : List Token) : Except Interruption (List Token) × List Token → Prop
  | (.ok _, _) => True
  | (.error (.illFormed t), _) => t ∈ tokens
  | (.error .endOfStream, rest) => rest = []

/-- A run stops among more tokens, too. -/
theorem StopsAmong.cons {tokens : List Token}
    {result : Except Interruption (List Token) × List Token} (h : StopsAmong tokens result)
    (t : Token) : StopsAmong (t :: tokens) result := by
  obtain ⟨outcome, rest⟩ := result
  cases outcome with
  | ok body => trivial
  | error interruption =>
      cases interruption with
      | illFormed u => exact List.mem_cons_of_mem t h
      | endOfStream => exact h

/-- A token in front of a run does not change where it stops. -/
theorem StopsAmong.consRun {tokens : List Token}
    {result : Except Interruption (List Token) × List Token} (h : StopsAmong tokens result)
    (t : Token) : StopsAmong tokens (consRun t result) := by
  obtain ⟨outcome, rest⟩ := result
  cases outcome with
  | ok body => trivial
  | error interruption => exact h

/-- **Where a run stops** that is not closed: at an ill-formed token or at the end of the stream. -/
theorem stopsAmong_takeRun (b : Grammar.Brackets) (keep : Bool) (depth : Nat)
    (tokens : List Token) : StopsAmong tokens (Grammar.takeRun b keep depth tokens) := by
  induction tokens generalizing depth with
  | nil => rfl
  | cons t rest ih =>
      unfold Grammar.takeRun
      split
      · exact (ih depth).cons t
      · split
        · exact List.mem_cons_self
        · split
          · trivial
          · exact ((ih _).cons t).consRun t

/-- The reader of a run fails where the run stops. -/
theorem keeps_run {take : List Token → Except Interruption (List Token) × List Token}
    (hsuffix : ∀ tokens, (take tokens).2 <:+ tokens)
    (hstops : ∀ tokens, StopsAmong tokens (take tokens)) :
    Keeps c (run take) fun _ _ => True := by
  intro s hs
  have hafter : c.Reaches { s.cursor with tokens := (take s.cursor.tokens).2 } :=
    hs.trans ⟨rfl, rfl, hsuffix _⟩
  have hstop := hstops s.cursor.tokens
  unfold run
  generalize take s.cursor.tokens = result at hafter hstop ⊢
  obtain ⟨outcome, rest⟩ := result
  cases outcome with
  | ok body => trivial
  | error interruption =>
      cases interruption with
      | illFormed t => exact sound_failAt (hs.tokens.subset hstop) _
      | endOfStream =>
          refine ⟨rfl, .inr ?_⟩
          exact congrArg Span.point (hafter.position_of_nil hstop)

/-- An expression leads to failures in the stream only. -/
theorem keeps_expression : Keeps c expression fun _ _ => True := by
  refine keeps_run (takeExpression_suffix 0) fun tokens => ?_
  rw [Grammar.takeExpression_eq_takeRun]
  exact stopsAmong_takeRun _ _ _ _

/-- The rest of a block leads to failures in the stream only. -/
theorem keeps_blockBody : Keeps c blockBody fun _ _ => True := by
  have hrun : Keeps c (run (takeBlock 0)) fun _ _ => True := by
    refine keeps_run (takeBlock_suffix 0) fun tokens => ?_
    rw [Grammar.takeBlock_eq_takeRun]
    exact stopsAmong_takeRun _ _ _ _
  exact hrun.then (advances_run (takeBlock_suffix 0)) fun _ =>
    (keeps_accept _).then (advances_accept _) fun _ => keeps_pure _ fun _ _ => trivial

/-- A block leads to failures in the stream only. -/
theorem keeps_block : Keeps c block fun _ _ => True := by
  refine keeps_next.bind advances_next fun token s hs htoken => ?_
  cases token with
  | none => exact sound_spanOf_none _ hs htoken
  | some t =>
      have ht := htoken.mem
      dsimp only
      split
      · exact sound_failAt ht s
      · split
        · exact keeps_blockBody s hs
        · exact sound_fail _ ht s

/-! ## Headers -/

/-- A clause of a header leads to failures in the stream only. -/
theorem keeps_clause (h : Header) (t : Token) (part : Clause) :
    Keeps c (clause h t part) fun _ _ => True := by
  cases part with
  | parent | replaces =>
      exact (keeps_expectIdentifier _).then (advances_expectIdentifier _) fun _ =>
        keeps_pure _ fun _ _ => trivial
  | native => exact keeps_pure _ fun _ _ => trivial

/-- A token in a header leads to failures in the stream only. -/
theorem keeps_headerPart (strict : Bool) (h : Header) {t : Token} (ht : t ∈ c.tokens) :
    Keeps c (headerPart strict h t) fun _ _ => True := by
  unfold headerPart
  split
  · split
    · exact keeps_fail _ ht
    · exact keeps_clause h t _
  · unfold tolerate
    split
    · exact keeps_fail _ ht
    · exact fun _ _ => trivial

/-- Any number of clauses lead to failures in the stream only. -/
theorem keeps_clauses (strict : Bool) (n : Nat) (h : Header) :
    Keeps c (clauses strict n h) fun _ _ => True := by
  induction n generalizing h with
  | zero => exact keeps_pure h fun _ _ => trivial
  | succ n ih =>
      refine keeps_peek.bind advances_peek fun token s hs htoken => ?_
      cases token with
      | none => trivial
      | some t =>
          have ht : t ∈ c.tokens := htoken t rfl
          dsimp only
          split
          · trivial
          · refine keeps_next.then advances_next (fun _ => ?_) s hs
            split
            · exact (keeps_headerPart strict h ht).then (advances_headerPart strict h t)
                fun h' => ih h'
            · exact keeps_failAt ht

/-- A header leads to failures in the stream only. -/
theorem keeps_header (strict : Bool) (kind : TypeKind) :
    Keeps c (header strict kind) fun _ _ => True :=
  (keeps_expectIdentifier _).then (advances_expectIdentifier _) fun _ => keeps_clauses _ _ _

end Scan

/-! ## Items -/

namespace Item

open Scan

variable {c : Cursor}

/-- Does the item end at the cursor `c'` right behind its path, if it is an include directive? -/
def EndsAtPath (c : Cursor) (item : Item) (c' : Cursor) : Prop :=
  ∀ t, item = .inclusion t → c.LastRead t c'

/-- A directive ends at its path, and its failures are located in the stream. -/
theorem keeps_directive : Keeps c directive (EndsAtPath c) := by
  refine (keeps_expectIdentifier _).bind (advances_expectIdentifier _) fun name s hs hname => ?_
  split
  · refine (keeps_expect _ _).bind (advances_expect _ _) (fun path s' _ hpath => ?_) s hs
    rintro t ⟨⟩
    exact hpath
  · exact sound_fail _ hname.mem s

/-- A class or structure includes nothing, and its failures are located in the stream. -/
theorem keeps_typeDeclaration (strict : Bool) (source : String) (kind : TypeKind) :
    Keeps c (typeDeclaration strict source kind) (EndsAtPath c) :=
  (keeps_header _ _).then (advances_header _ _) fun _ =>
    keeps_block.then advances_block fun _ => keeps_pure _ fun _ _ _ ht => by cases ht

/-- A constant includes nothing, and its failures are located in the stream. -/
theorem keeps_constant (source : String) : Keeps c (constant source) (EndsAtPath c) :=
  (keeps_expectIdentifier _).then (advances_expectIdentifier _) fun _ =>
    (keeps_expect _ _).then (advances_expect _ _) fun _ =>
      keeps_expression.then advances_expression fun _ =>
        (keeps_expect _ _).then (advances_expect _ _) fun _ =>
          keeps_pure _ fun _ _ _ ht => by cases ht

/-- An enumeration includes nothing, and its failures are located in the stream. -/
theorem keeps_enumeration (source : String) : Keeps c (enumeration source) (EndsAtPath c) :=
  (keeps_expectIdentifier _).then (advances_expectIdentifier _) fun _ =>
    keeps_block.then advances_block fun _ => keeps_pure _ fun _ _ _ ht => by cases ht

/-- A version directive includes nothing, and its failures are located in the stream. -/
theorem keeps_versionDirective : Keeps c versionDirective (EndsAtPath c) :=
  (keeps_expect _ _).then (advances_expect _ _) fun _ =>
    (keeps_accept _).then (advances_accept _) fun _ => keeps_pure _ fun _ _ _ ht => by cases ht

/-- Every kind of item has its failures in the stream, and ends at its path if it has one. -/
theorem keeps_startingWith (strict : Bool) (source : String) {t : Token} (ht : t ∈ c.tokens) :
    Keeps c (startingWith strict source t) (EndsAtPath c) := by
  unfold startingWith
  split
  · exact keeps_directive
  · split
    · exact keeps_typeDeclaration _ _ _
    · exact keeps_typeDeclaration _ _ _
    · exact keeps_constant _
    · exact keeps_enumeration _
    · exact keeps_versionDirective
    · exact keeps_pure _ fun _ _ _ ht => by cases ht
  · exact keeps_fail _ ht
  · exact keeps_fail _ ht
  · exact keeps_fail _ ht

/-- The item that any token of the stream starts has its failures in the stream. -/
theorem keeps_startingAt (strict : Bool) (source : String) {t : Token} (ht : t ∈ c.tokens) :
    Keeps c (startingAt strict source t) (EndsAtPath c) := by
  unfold startingAt
  split
  · exact keeps_startingWith strict source ht
  · exact keeps_fail _ ht

/-- **Where the reader of items fails**: at a token of its stream or at the end of that. An include
directive ends right behind its path. -/
theorem keeps_next? (strict : Bool) (source : String) :
    Keeps c (next? strict source) fun item? c' => ∀ item ∈ item?, EndsAtPath c item c' := by
  refine keeps_next.bind advances_next fun token s hs htoken => ?_
  cases token with
  | none =>
      intro item hitem
      cases hitem
  | some t =>
      refine (keeps_startingAt strict source htoken.mem).bind
        (advances_startingAt strict source t) (fun item s' _ hitem => ?_) s hs
      rintro item' ⟨⟩
      exact hitem

/-- The reader of items only goes forward. -/
theorem advances_next? (strict : Bool) (source : String) : Advances (next? strict source) := by
  refine advances_next.bind fun token => ?_
  cases token with
  | none => exact advances_pure none
  | some t => exact (advances_startingAt strict source t).bind fun item => advances_pure (some item)

end Item

end ZDecl
