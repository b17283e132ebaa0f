import Mathlib.Data.List.Forall2
import ZDecl.Item
import ZDecl.Proofs.Grammar.Nesting

/-!
# Readers do not tell like tokens apart

Readers look at the kind and the text of a token and pass over what stands between two of them. On
streams whose significant tokens read the same, one by one, they do the same: they give results that
differ in the tokens only, or fail for the same cause. Where the tokens stand does not matter, so a
statement about two readers can carry along any relation between the places.

* `Likeness`: the relations between tokens that read the same.
* `Declaration.Alike`, `Item.Alike`: what is read, up to a likeness of its tokens.
* `Scan.Alike`: two readers that, on like tokens, do the same up to the likeness.
* `Scan.Alike.bind`: sequences of like readers; every other reader follows by its own structure.
* `takeRun_alike`: runs of like tokens.
* **`Item.alike_next?`**: the reader of items does not tell like tokens apart.

Only well-formed tokens are related. A reader that meets an ill-formed one fails with its place in
the cause.
-/

namespace ZDecl

/-! ## Likeness of tokens -/

/-- Does the relation hold between well-formed tokens only, and only if they read the same? -/
structure Likeness (R : Token → Token → Prop) : Prop where
  /-- Like tokens are well formed. -/
  valid : ∀ {t u : Token}, R t u → t.valid = true ∧ u.valid = true
  /-- They are of the same kind. -/
  kind : ∀ {t u : Token}, R t u → u.kind = t.kind
  /-- They have the same text. -/
  lexeme : ∀ {t u : Token}, R t u → u.lexeme = t.lexeme
  /-- If they are literals, these have the same text without their quotes. -/
  unquoted : ∀ {t u : Token}, R t u → u.unquoted = t.unquoted

namespace Likeness

variable {R : Token → Token → Prop} {t u : Token}

/-- Like tokens are both passed over, or neither is. -/
theorem isSkipped (hR : Likeness R) (h : R t u) : u.isSkipped = t.isSkipped := by
  obtain ⟨ht, hu⟩ := hR.valid h
  simp only [Token.isSkipped, Token.isTrivia, hR.kind h, ht, hu]

/-- Tokens like those that are not passed over are not passed over either. -/
theorem forall_isSkipped (hR : Likeness R) {tokens tokens' : List Token}
    (h : List.Forall₂ R tokens tokens') (hskipped : ∀ t ∈ tokens, t.isSkipped = false) :
    ∀ u ∈ tokens', u.isSkipped = false := by
  induction h with
  | nil => exact hskipped
  | cons htu _ ih =>
      obtain ⟨ht, hrest⟩ := List.forall_mem_cons.mp hskipped
      exact List.forall_mem_cons.mpr ⟨(hR.isSkipped htu).trans ht, ih hrest⟩

/-- Like tokens are the same keyword, or none. -/
theorem keyword? (hR : Likeness R) (h : R t u) : u.keyword? = t.keyword? := by
  simp only [Token.keyword?, hR.kind h, hR.lexeme h]

/-- Like tokens start the same clause of a header, or none. -/
theorem clause? (hR : Likeness R) (h : R t u) : u.clause? = t.clause? := by
  simp only [Token.clause?, hR.kind h, hR.keyword? h]

/-- A message describes like tokens in the same words. -/
theorem describe (hR : Likeness R) (h : R t u) : u.describe = t.describe := by
  simp only [Token.describe, hR.kind h, hR.lexeme h]

/-- A message says the same of what was found, also at the end of the stream. -/
theorem describeFound (hR : Likeness R) {token token' : Option Token}
    (h : Option.Rel R token token') : Token.describeFound token' = Token.describeFound token := by
  cases h with
  | some h => exact hR.describe h
  | none => rfl

end Likeness

/-! ## Likeness of what is read -/

section Alike

variable (R : Token → Token → Prop)

/-- Are two headers the same up to the likeness of their tokens? -/
structure Header.Alike (h k : Header) : Prop where
  /-- They declare types of the same kind. -/
  kind : k.kind = h.kind
  /-- Their names are alike. -/
  name : R h.name k.name
  /-- So are their parents, if they have any. -/
  parent : Option.Rel R h.parent k.parent
  /-- So are the classes that they replace. -/
  replaces : Option.Rel R h.replaces k.replaces
  /-- So are the marks for native types. -/
  native : Option.Rel R h.native k.native

/-- Are two declarations the same up to the likeness of their tokens? -/
structure Declaration.Alike (d e : Declaration) : Prop where
  /-- They declare the same thing. -/
  form : e.form = d.form
  /-- Their names are the same. -/
  name : e.name = d.name
  /-- They come from files of the same name. -/
  source : e.source = d.source
  /-- Their names stand where like tokens do. -/
  span : ∃ t u, R t u ∧ d.span = t.span ∧ e.span = u.span
  /-- Their bodies consist of like tokens. -/
  body : List.Forall₂ R d.body e.body

/-- Are two items the same up to the likeness of their tokens? -/
inductive Item.Alike : Item → Item → Prop where
  /-- Words that mean nothing. -/
  | word {t u : Token} (h : R t u) : Alike (.word t) (.word u)
  /-- Include directives. -/
  | inclusion {t u : Token} (h : R t u) : Alike (.inclusion t) (.inclusion u)
  /-- Version directives. -/
  | version (v : String) : Alike (.version v) (.version v)
  /-- Declarations. -/
  | declaration {d e : Declaration} (h : d.Alike R e) : Alike (.declaration d) (.declaration e)

/-- Are two stray tokens alike, and those of like headers? -/
def Stray.Alike (a b : Stray) : Prop := b.subject = a.subject ∧ R a.token b.token

/-- Do two failures have the same cause, and do they name the same file or none? -/
def Failure.Alike (f g : Failure) : Prop := g.cause = f.cause ∧ g.source = f.source

end Alike

/-- A failure is like itself. -/
theorem Failure.alike_refl (f : Failure) : f.Alike f := ⟨rfl, rfl⟩

section Headers

variable {R : Token → Token → Prop} {h k : Header}

/-- Like headers are spoken of in the same words. -/
theorem Header.Alike.subject (hR : Likeness R) (hhk : h.Alike R k) : k.subject = h.subject := by
  simp only [Header.subject, hhk.kind, hR.lexeme hhk.name]

/-- Like options are there both or not at all. -/
theorem isSome_of_rel {a b : Option Token} (hab : Option.Rel R a b) : b.isSome = a.isSome := by
  cases hab <;> rfl

/-- The texts of like options. -/
theorem map_lexeme_of_rel (hR : Likeness R) {a b : Option Token} (hab : Option.Rel R a b) :
    b.map Token.lexeme = a.map Token.lexeme := by
  cases hab with
  | some hab => exact congrArg some (hR.lexeme hab)
  | none => rfl

/-- Like headers hold the same clauses. -/
theorem Header.Alike.clauses (hR : Likeness R) (hhk : h.Alike R k) : k.clauses = h.clauses := by
  simp only [Header.clauses, map_lexeme_of_rel hR hhk.parent, map_lexeme_of_rel hR hhk.replaces,
    isSome_of_rel hhk.native]

/-- The same speaks against one more clause of like headers. -/
theorem Header.Alike.objection? (hhk : h.Alike R k) (c : Clause) :
    k.objection? c = h.objection? c := by
  cases c <;> simp only [Header.objection?, isSome_of_rel hhk.parent, isSome_of_rel hhk.replaces,
    isSome_of_rel hhk.native]

/-- Declarations of like names with like bodies. -/
theorem Declaration.alike_ofName (hR : Likeness R) {t u : Token} (htu : R t u)
    (form : Declaration.Form) (source : String) {body body' : List Token}
    (hbody : List.Forall₂ R body body') :
    (Declaration.ofName form t source body).Alike R (.ofName form u source body') where
  form := rfl
  name := hR.lexeme htu
  source := rfl
  span := ⟨t, u, htu, rfl, rfl⟩
  body := hbody

/-- Declarations of like headers with like bodies. -/
theorem Declaration.alike_ofHeader (hR : Likeness R) (hhk : h.Alike R k) (source : String)
    {body body' : List Token} (hbody : List.Forall₂ R body body') :
    (Declaration.ofHeader h source body).Alike R (.ofHeader k source body') := by
  unfold Declaration.ofHeader
  rw [hhk.kind, hhk.clauses hR]
  exact alike_ofName hR hhk.name _ source hbody

end Headers

/-! ## Likeness of readers -/

namespace Scan

variable {α β γ δ : Type} {R : Token → Token → Prop}

/-- Are the significant tokens to be read alike, and the stray tokens so far? -/
structure State.Alike (R : Token → Token → Prop) (s s' : State) : Prop where
  /-- The tokens that are still to be read. -/
  pending : List.Forall₂ R s.pending s'.pending
  /-- The stray tokens. -/
  strays : List.Forall₂ (Stray.Alike R) s.strays s'.strays

/-- Are two outcomes the same: results that are related by `Q`, or failures that are alike? -/
inductive SameOutcome (R : Token → Token → Prop) (Q : α → β → Prop) :
    EStateM.Result Failure State α → EStateM.Result Failure State β → Prop where
  /-- Two results. -/
  | ok {a : α} {b : β} {s s' : State} (h : Q a b) (hs : s.Alike R s') :
      SameOutcome R Q (.ok a s) (.ok b s')
  /-- Two failures. -/
  | error {f g : Failure} {s s' : State} (h : f.Alike g) (hs : s.Alike R s') :
      SameOutcome R Q (.error f s) (.error g s')

/-- **Do two readers do the same on like tokens**, with results related by `Q`? -/
def Alike (R : Token → Token → Prop) (Q : α → β → Prop) (p : Scan α) (q : Scan β) : Prop :=
  ∀ s s' : State, s.Alike R s' → SameOutcome R Q (p s) (q s')

/-! ### How readers are built -/

/-- Like results without reading are alike. -/
theorem alike_pure {Q : α → β → Prop} {a : α} {b : β} (h : Q a b) :
    Alike R Q (pure a) (pure b) :=
  fun _ _ hs => .ok h hs

/-- Failures for the same cause are alike, wherever they are. -/
theorem alike_fail {Q : α → β → Prop} {cause cause' : Cause} (h : cause' = cause)
    (span span' : Span) : Alike R Q (fail cause span) (fail cause' span') :=
  fun _ _ hs => .error ⟨h, rfl⟩ hs

/-- Sequences of like readers. -/
theorem Alike.bind {P : α → β → Prop} {Q : γ → δ → Prop} {p : Scan α} {q : Scan β}
    {f : α → Scan γ} {g : β → Scan δ} (hpq : Alike R P p q)
    (hfg : ∀ a b, P a b → Alike R Q (f a) (g b)) : Alike R Q (p >>= f) (q >>= g) := by
  intro s s' hs
  have hout := hpq s s' hs
  show SameOutcome R Q (EStateM.bind p f s) (EStateM.bind q g s')
  unfold EStateM.bind
  generalize p s = out at hout
  generalize q s' = out' at hout
  cases hout with
  | ok h hs₁ => exact hfg _ _ h _ _ hs₁
  | error h hs₁ => exact .error h hs₁

/-- Like readers in both cases of a condition. -/
theorem alike_ite {Q : α → β → Prop} {c : Prop} [Decidable c] {p p' : Scan α} {q q' : Scan β}
    (hpos : c → Alike R Q p q) (hneg : ¬c → Alike R Q p' q') :
    Alike R Q (if c then p else p') (if c then q else q') := by
  by_cases h : c
  · rw [if_pos h, if_pos h]
    exact hpos h
  · rw [if_neg h, if_neg h]
    exact hneg h

/-! ### Single tokens -/

/-- Like lists start with like tokens, or are both empty. -/
theorem head?_of_forall₂ {tokens tokens' : List Token} (h : List.Forall₂ R tokens tokens') :
    Option.Rel R tokens.head? tokens'.head? := by
  cases h with
  | nil => exact .none
  | cons h _ => exact .some h

/-- Like readers stay alike when they pass over white space and comments. -/
theorem State.Alike.afterSkip {s s' : State} (h : s.Alike R s') :
    s.afterSkip.Alike R s'.afterSkip where
  pending := by
    rw [State.pending_afterSkip, State.pending_afterSkip]
    exact h.pending
  strays := h.strays

/-- Like readers stay alike behind the next significant token. -/
theorem State.Alike.afterNext {s s' : State} (h : s.Alike R s') :
    s.afterNext.Alike R s'.afterNext where
  pending := by
    rw [State.pending_afterNext, State.pending_afterNext]
    have hpending := h.pending
    generalize s.pending = tokens at hpending
    generalize s'.pending = tokens' at hpending
    cases hpending with
    | nil => exact .nil
    | cons _ hrest => exact hrest
  strays := h.strays

/-- Like readers read like tokens. -/
theorem alike_next : Alike R (Option.Rel R) next next := by
  intro s s' hs
  rw [next_eq, next_eq]
  exact .ok (head?_of_forall₂ hs.pending) hs.afterNext

/-- Like readers look ahead at like tokens. -/
theorem alike_peek : Alike R (Option.Rel R) peek peek := by
  intro s s' hs
  rw [peek_eq, peek_eq]
  exact .ok (head?_of_forall₂ hs.pending) hs.afterSkip

/-- A failure with the span of a token, or of the place where one is missing. -/
theorem alike_failAtSpanOf {Q : α → β → Prop} {cause cause' : Cause} (h : cause' = cause)
    {token token' : Option Token} (htoken : Option.Rel R token token') :
    Alike R Q (do fail cause (← spanOf token)) (do fail cause' (← spanOf token')) := by
  cases htoken with
  | some _ => exact alike_fail h _ _
  | none => exact fun _ _ hs => .error ⟨h, rfl⟩ hs

/-- Like readers find like tokens where one is expected, or fail alike. -/
theorem alike_expect (hR : Likeness R) (kind : Token.Kind) (expected : String) :
    Alike R R (expect kind expected) (expect kind expected) := by
  refine alike_next.bind fun token token' htoken => ?_
  rw [hR.describeFound htoken]
  cases htoken with
  | none => exact alike_failAtSpanOf rfl .none
  | some htu =>
      obtain ⟨ht, hu⟩ := hR.valid htu
      simp only [ht, hu, hR.kind htu, Bool.not_true, Bool.false_eq_true, if_false]
      refine alike_ite (fun _ => alike_pure htu) fun _ => ?_
      exact alike_ite (fun _ => alike_fail rfl _ _) fun _ => alike_fail rfl _ _

/-- Like readers find like names where one is expected, or fail alike. -/
theorem alike_expectIdentifier (hR : Likeness R) (role : String) :
    Alike R R (expectIdentifier role) (expectIdentifier role) := by
  refine alike_next.bind fun token token' htoken => ?_
  rw [hR.describeFound htoken]
  cases htoken with
  | none => exact alike_failAtSpanOf rfl .none
  | some htu =>
      obtain ⟨ht, hu⟩ := hR.valid htu
      simp only [ht, hu, hR.kind htu, Bool.not_true, Bool.false_eq_true, if_false]
      exact alike_ite (fun _ => alike_pure htu) fun _ => alike_fail rfl _ _

/-- Like lists start with a token of a kind both or not at all. -/
theorem startsWith_of_forall₂ (hR : Likeness R) (kind : Token.Kind)
    {tokens tokens' : List Token} (h : List.Forall₂ R tokens tokens') :
    startsWith kind tokens' = startsWith kind tokens := by
  cases h with
  | nil => rfl
  | cons h _ =>
      obtain ⟨ht, hu⟩ := hR.valid h
      simp only [startsWith_cons, ht, hu, hR.kind h]

/-- Like readers agree on whether an optional token is there. -/
theorem alike_accept (hR : Likeness R) (kind : Token.Kind) :
    Alike R (fun _ _ => True) (accept kind) (accept kind) := by
  intro s s' hs
  rw [accept_eq, accept_eq, startsWith_of_forall₂ hR kind hs.pending]
  cases startsWith kind s.pending with
  | true => exact .ok trivial hs.afterNext
  | false => exact .ok trivial hs

end Scan

/-! ## Runs of tokens -/

namespace Grammar

variable {R : Token → Token → Prop} {b : Brackets}

/-- A run passes over white space and comments, so it can as well be read without them. -/
theorem takeRun_unskipped (b : Brackets) (keep : Bool) (depth : Nat) (tokens : List Token) :
    takeRun b keep depth (unskipped tokens) =
      ((takeRun b keep depth tokens).1, unskipped (takeRun b keep depth tokens).2) := by
  induction tokens generalizing depth with
  | nil => rfl
  | cons t tokens ih =>
      by_cases hskip : t.isSkipped = true
      · rw [unskipped_cons_of_isSkipped hskip, ih, takeRun, if_pos hskip]
      · have hkept : unskipped (t :: tokens) = t :: unskipped tokens :=
          unskipped_cons_of_not_isSkipped (by simpa using hskip) tokens
        rw [hkept, takeRun, takeRun, if_neg hskip, if_neg hskip, ih (b.step depth t.kind)]
        split
        · rfl
        · split
          · cases keep with
            | true => rw [if_pos rfl, if_pos rfl, hkept]
            | false => rfl
          · rfl

/-- Are two runs alike: both complete with like tokens, or both cut off by the end of the stream? -/
inductive SameRun (R : Token → Token → Prop) :
    Except Interruption (List Token) × List Token →
    Except Interruption (List Token) × List Token → Prop where
  /-- Two complete runs. -/
  | ok {body body' rest rest' : List Token} (hbody : List.Forall₂ R body body')
      (hrest : List.Forall₂ R rest rest') : SameRun R (.ok body, rest) (.ok body', rest')
  /-- Two runs that are cut off. -/
  | endOfStream {rest rest' : List Token} (hrest : List.Forall₂ R rest rest') :
      SameRun R (.error .endOfStream, rest) (.error .endOfStream, rest')

/-- Runs stay the same behind like tokens. -/
theorem SameRun.cons {run run' : Except Interruption (List Token) × List Token}
    (h : SameRun R run run') {t u : Token} (htu : R t u) :
    SameRun R (consRun t run) (consRun u run') := by
  cases h with
  | ok hbody hrest => exact .ok (.cons htu hbody) hrest
  | endOfStream hrest => exact .endOfStream hrest

/-- **Runs of like tokens are alike.** -/
theorem takeRun_alike (hR : Likeness R) (keep : Bool) (depth : Nat) {tokens tokens' : List Token}
    (h : List.Forall₂ R tokens tokens') :
    SameRun R (takeRun b keep depth tokens) (takeRun b keep depth tokens') := by
  induction h generalizing depth with
  | nil => exact .endOfStream .nil
  | cons htu hrest ih =>
      obtain ⟨ht, hu⟩ := hR.valid htu
      simp only [takeRun, hR.isSkipped htu, ht, hu, hR.kind htu, Bool.not_true,
        Bool.false_eq_true, if_false]
      split
      · exact ih depth
      · split
        · cases keep with
          | true => exact .ok .nil (.cons htu hrest)
          | false => exact .ok .nil hrest
        · exact (ih _).cons htu

end Grammar

namespace Scan

variable {R : Token → Token → Prop}

/-- Like readers take like runs of tokens. -/
theorem alike_run (hR : Likeness R) {b : Grammar.Brackets} {keep : Bool}
    {take : List Token → Except Interruption (List Token) × List Token}
    (htake : ∀ tokens, take tokens = Grammar.takeRun b keep 0 tokens) :
    Alike R (List.Forall₂ R) (run take) (run take) := by
  intro s s' hs
  have hruns := Grammar.takeRun_alike (b := b) hR keep 0 hs.pending
  unfold State.pending at hruns
  rw [Grammar.takeRun_unskipped, Grammar.takeRun_unskipped, ← htake, ← htake] at hruns
  unfold run
  generalize take s.cursor.tokens = outcome at hruns
  generalize take s'.cursor.tokens = outcome' at hruns
  obtain ⟨body, rest⟩ := outcome
  obtain ⟨body', rest'⟩ := outcome'
  cases hruns with
  | ok hbody hrest => exact .ok hbody ⟨hrest, hs.strays⟩
  | endOfStream hrest => exact .error ⟨rfl, rfl⟩ ⟨hrest, hs.strays⟩

/-- Like readers read like expressions. -/
theorem alike_expression (hR : Likeness R) : Alike R (List.Forall₂ R) expression expression :=
  alike_run hR (Grammar.takeExpression_eq_takeRun 0)

/-- Like readers read like blocks. -/
theorem alike_block (hR : Likeness R) : Alike R (List.Forall₂ R) block block := by
  have hbody : Alike R (List.Forall₂ R) blockBody blockBody :=
    (alike_run hR (Grammar.takeBlock_eq_takeRun 0)).bind fun _ _ h =>
      (alike_accept hR _).bind fun _ _ _ => alike_pure h
  have hno : ∀ {token token' : Option Token}, Option.Rel R token token' →
      Alike R (List.Forall₂ R) (failNoBlock token) (failNoBlock token') := by
    intro token token' htoken
    exact alike_failAtSpanOf (by rw [hR.describeFound htoken]) htoken
  refine alike_next.bind fun token token' htoken => ?_
  cases htoken with
  | none => exact hno .none
  | some htu =>
      obtain ⟨ht, hu⟩ := hR.valid htu
      simp only [ht, hu, hR.kind htu, Bool.not_true, Bool.false_eq_true, if_false]
      exact alike_ite (fun _ => hbody) fun _ => hno (.some htu)

/-! ## Headers -/

variable {h k : Header} {t u : Token}

/-- Like tokens start like clauses. -/
theorem alike_clause (hR : Likeness R) (hhk : h.Alike R k) (htu : R t u) (c : Clause) :
    Alike R (Header.Alike R) (clause h t c) (clause k u c) := by
  cases c with
  | parent =>
      refine (alike_expectIdentifier hR _).bind fun name name' hname => ?_
      exact alike_pure { hhk with parent := .some hname }
  | replaces =>
      refine (alike_expectIdentifier hR _).bind fun name name' hname => ?_
      exact alike_pure { hhk with replaces := .some hname }
  | native => exact alike_pure { hhk with native := .some htu }

/-- Like tokens are taken into like headers, or refused alike. -/
theorem alike_headerPart (hR : Likeness R) (strict : Bool) (hhk : h.Alike R k) (htu : R t u) :
    Alike R (Header.Alike R) (headerPart strict h t) (headerPart strict k u) := by
  have hfail : ∀ fault, Alike R (Header.Alike R) (failHeader h t fault) (failHeader k u fault) :=
    fun fault => alike_fail (by rw [hhk.subject hR]) _ _
  have hkeep : Alike R (Header.Alike R) (do keepStray ⟨h.subject, t⟩; return h)
      (do keepStray ⟨k.subject, u⟩; return k) := by
    intro s s' hs
    refine .ok hhk ⟨hs.pending, ?_⟩
    exact List.rel_append hs.strays (.cons ⟨hhk.subject hR, htu⟩ .nil)
  unfold headerPart
  rw [hR.clause? htu]
  cases t.clause? with
  | some c =>
      dsimp only
      rw [hhk.objection? c]
      cases h.objection? c with
      | some fault => exact hfail fault
      | none => exact alike_clause hR hhk htu c
  | none =>
      unfold tolerate
      dsimp only
      rw [isSome_of_rel hhk.native, hR.describe htu]
      exact alike_ite (fun _ => hfail _) fun _ => hkeep

/-- Like readers read the same number of clauses, alike. -/
theorem alike_clauses (hR : Likeness R) (strict : Bool) (n : Nat) (hhk : h.Alike R k) :
    Alike R (Header.Alike R) (clauses strict n h) (clauses strict n k) := by
  induction n generalizing h k with
  | zero => exact alike_pure hhk
  | succ n ih =>
      refine alike_peek.bind fun token token' htoken => ?_
      cases htoken with
      | none => exact alike_pure hhk
      | some htu =>
          obtain ⟨ht, hu⟩ := hR.valid htu
          simp only [ht, hu, hR.kind htu, if_true]
          refine alike_ite (fun _ => alike_pure hhk) fun _ => ?_
          refine alike_next.bind fun _ _ _ => ?_
          exact (alike_headerPart hR strict hhk htu).bind fun _ _ hparts => ih hparts

/-- Like readers read like headers. -/
theorem alike_header (hR : Likeness R) (strict : Bool) (kind : TypeKind) :
    Alike R (Header.Alike R) (header strict kind) (header strict kind) :=
  (alike_expectIdentifier hR _).bind fun _ _ hname =>
    alike_clauses hR strict _ ⟨rfl, hname, .none, .none, .none⟩

end Scan

/-! ## Items -/

namespace Item

open Scan

variable {R : Token → Token → Prop}

/-- Like readers read like include directives. -/
theorem alike_directive (hR : Likeness R) : Scan.Alike R (Item.Alike R) directive directive := by
  refine (alike_expectIdentifier hR _).bind fun name name' hname => ?_
  rw [hR.keyword? hname, hR.lexeme hname]
  refine alike_ite (fun _ => ?_) fun _ => alike_fail rfl _ _
  exact (alike_expect hR _ _).bind fun _ _ hpath => alike_pure (.inclusion hpath)

/-- Like readers read like constants. -/
theorem alike_constant (hR : Likeness R) (source : String) :
    Scan.Alike R (Item.Alike R) (constant source) (constant source) :=
  (alike_expectIdentifier hR _).bind fun _ _ hname =>
    (alike_expect hR _ _).bind fun _ _ _ =>
      (alike_expression hR).bind fun _ _ hvalue =>
        (alike_expect hR _ _).bind fun _ _ _ =>
          alike_pure (.declaration (Declaration.alike_ofName hR hname _ source hvalue))

/-- Like readers read like enumerations. -/
theorem alike_enumeration (hR : Likeness R) (source : String) :
    Scan.Alike R (Item.Alike R) (enumeration source) (enumeration source) :=
  (alike_expectIdentifier hR _).bind fun _ _ hname =>
    (alike_block hR).bind fun _ _ hbody =>
      alike_pure (.declaration (Declaration.alike_ofName hR hname _ source hbody))

/-- Like readers read like classes and structures. -/
theorem alike_typeDeclaration (hR : Likeness R) (strict : Bool) (source : String)
    (kind : TypeKind) : Scan.Alike R (Item.Alike R) (typeDeclaration strict source kind)
      (typeDeclaration strict source kind) :=
  (alike_header hR strict kind).bind fun _ _ hheader =>
    (alike_block hR).bind fun _ _ hbody =>
      alike_pure (.declaration (Declaration.alike_ofHeader hR hheader source hbody))

/-- Like readers read like version directives. -/
theorem alike_versionDirective (hR : Likeness R) :
    Scan.Alike R (Item.Alike R) versionDirective versionDirective := by
  refine (alike_expect hR _ _).bind fun text text' htext =>
    (alike_accept hR _).bind fun _ _ _ => ?_
  rw [hR.unquoted htext]
  exact alike_pure (.version _)

/-- Like tokens start like items. -/
theorem alike_startingAt (hR : Likeness R) (strict : Bool) (source : String) {t u : Token}
    (htu : R t u) : Scan.Alike R (Item.Alike R) (startingAt strict source t)
      (startingAt strict source u) := by
  obtain ⟨ht, hu⟩ := hR.valid htu
  unfold startingAt startingWith
  rw [if_pos ht, if_pos hu, hR.kind htu, hR.keyword? htu, hR.describe htu]
  split
  · exact alike_directive hR
  · split
    · exact alike_typeDeclaration hR strict source _
    · exact alike_typeDeclaration hR strict source _
    · exact alike_constant hR source
    · exact alike_enumeration hR source
    · exact alike_versionDirective hR
    · exact alike_pure (.word htu)
  · exact alike_fail rfl _ _
  · exact alike_fail rfl _ _
  · exact alike_fail rfl _ _

/-- **The reader of items does not tell like tokens apart.** -/
theorem alike_next? (hR : Likeness R) (strict : Bool) (source : String) :
    Scan.Alike R (Option.Rel (Item.Alike R)) (next? strict source) (next? strict source) := by
  refine alike_next.bind fun token token' htoken => ?_
  cases htoken with
  | none => exact alike_pure .none
  | some htu =>
      exact (alike_startingAt hR strict source htu).bind fun _ _ hitem => alike_pure (.some hitem)

end Item

end ZDecl
