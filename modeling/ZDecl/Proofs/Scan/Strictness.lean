import ZDecl.Proofs.Grammar.Headers
import ZDecl.Item

/-!
# Strict readers

Headers are read strictly or not. It makes a difference at one place: a token that follows the mark
for native types and starts no clause. The strict reader stops there, the other one keeps the token
among the stray ones and reads on. Up to there both do the same, so that the strict reader fails
with the strays that the other one had met so far, and the token is the next one of them.

* `Scan.StraysGrow`: readers that add to the stray tokens, also where they fail. All of them do.
* `Stray.refusal`: the failure of a strict reader at a stray token.
* `Refuses`: the two ways in which two outcomes may be related.
* `Stricter`: the first reader fails at some stray tokens where the second reads on.
* `StrayAfterNative`: tokens that start with a header up to a stray token behind the mark.
* **`Item.stricter_next?`**: the strict reader of items against the other one.
-/

namespace ZDecl

namespace Scan

variable {α β : Type}

/-! ## Stray tokens are kept -/

/-- Are the stray tokens so far kept in front of those that the reader adds, whatever comes of
it? -/
def StraysGrow (p : Scan α) : Prop := ∀ s : State, s.strays <+: (endState (p s)).strays

/-- A result without reading keeps the stray tokens so far. -/
theorem straysGrow_pure (a : α) : StraysGrow (pure a : Scan α) := fun _ => List.prefix_refl _

/-- A failure keeps the stray tokens so far. -/
theorem straysGrow_fail (cause : Cause) (span : Span) : StraysGrow (fail cause span : Scan α) :=
  fun _ => List.prefix_refl _

/-- A failure at an ill-formed token keeps the stray tokens so far. -/
theorem straysGrow_failAt (t : Token) : StraysGrow (failAt t : Scan α) :=
  fun _ => List.prefix_refl _

/-- Two readers keep the stray tokens so far if both do. -/
theorem StraysGrow.bind {p : Scan α} {f : α → Scan β} (hp : StraysGrow p)
    (hf : ∀ a, StraysGrow (f a)) : StraysGrow (p >>= f) := by
  intro s
  have h := hp s
  cases hs : p s with
  | ok a s' =>
      rw [bind_of_ok hs]
      rw [hs] at h
      exact h.trans (hf a s')
  | error e s' =>
      rw [bind_of_error hs]
      rw [hs] at h
      exact h

/-- Reading a significant token keeps the stray tokens so far. -/
theorem straysGrow_next : StraysGrow next := fun _ => List.prefix_refl _

/-- A look ahead keeps the stray tokens so far. -/
theorem straysGrow_peek : StraysGrow peek := fun _ => List.prefix_refl _

/-- A stray token is kept behind those so far. -/
theorem straysGrow_keepStray (stray : Stray) : StraysGrow (keepStray stray) :=
  fun _ => List.prefix_append _ _

/-- Asking for a span keeps the stray tokens so far. -/
theorem straysGrow_spanOf (token : Option Token) : StraysGrow (spanOf token) := by
  cases token <;> exact fun _ => List.prefix_refl _

/-- An expected name keeps the stray tokens so far. -/
theorem straysGrow_expectIdentifier (role : String) : StraysGrow (expectIdentifier role) := by
  refine straysGrow_next.bind fun token => ?_
  cases token with
  | none => exact (straysGrow_spanOf none).bind fun _ => straysGrow_fail _ _
  | some t =>
      dsimp only
      split
      · exact straysGrow_failAt t
      · split
        · exact straysGrow_pure t
        · exact straysGrow_fail _ _

/-- A token in a header keeps the stray tokens so far. -/
theorem straysGrow_headerPart (strict : Bool) (h : Header) (t : Token) :
    StraysGrow (headerPart strict h t) := by
  have hname : ∀ (role : String) (f : Token → Header),
      StraysGrow (do return f (← expectIdentifier role)) := fun role f =>
    (straysGrow_expectIdentifier role).bind fun name => straysGrow_pure (f name)
  unfold headerPart
  split
  · next c _ =>
      split
      · exact straysGrow_fail _ _
      · cases c with
        | parent => exact hname _ fun name => { h with parent := some name }
        | replaces => exact hname _ fun name => { h with replaces := some name }
        | native => exact straysGrow_pure _
  · unfold tolerate
    split
    · exact straysGrow_fail _ _
    · exact (straysGrow_keepStray _).bind fun _ => straysGrow_pure h

/-- Any number of clauses keep the stray tokens so far. -/
theorem straysGrow_clauses (strict : Bool) (n : Nat) (h : Header) :
    StraysGrow (clauses strict n h) := by
  induction n generalizing h with
  | zero => exact straysGrow_pure h
  | succ n ih =>
      refine straysGrow_peek.bind fun token => ?_
      cases token with
      | none => exact straysGrow_pure h
      | some t =>
          dsimp only
          split
          · exact straysGrow_pure h
          · refine straysGrow_next.bind fun _ => ?_
            split
            · exact (straysGrow_headerPart strict h t).bind fun h' => ih h'
            · exact straysGrow_failAt t

/-- A run of tokens keeps the stray tokens so far. -/
theorem straysGrow_run (take : List Token → Except Interruption (List Token) × List Token) :
    StraysGrow (run take) := by
  intro s
  unfold run
  dsimp only
  split <;> exact List.prefix_refl _

/-- An optional token keeps the stray tokens so far. -/
theorem straysGrow_accept (kind : Token.Kind) : StraysGrow (accept kind) := by
  intro s
  rw [accept_eq]
  show s.strays <+: (if startsWith kind s.pending then s.afterNext else s).strays
  split <;> exact List.prefix_refl _

/-- A block keeps the stray tokens so far. -/
theorem straysGrow_block : StraysGrow block := by
  have hno : ∀ token, StraysGrow (failNoBlock token) := fun token =>
    (straysGrow_spanOf token).bind fun _ => straysGrow_fail _ _
  refine straysGrow_next.bind fun token => ?_
  cases token with
  | none => exact hno none
  | some t =>
      dsimp only
      split
      · exact straysGrow_failAt t
      · split
        · exact (straysGrow_run _).bind fun _ => (straysGrow_accept _).bind fun _ =>
            straysGrow_pure _
        · exact hno (some t)

end Scan

open Scan Grammar

/-! ## Two readers -/

/-- The failure of a strict reader of headers at a token that another one keeps. -/
def Stray.refusal (stray : Stray) : Failure :=
  { cause := .invalidHeader stray.subject (.afterNative stray.token.describe)
    span := stray.token.span }

/-- Are the outcomes the same, or is the first one the failure at a stray token with `D` that is the
next one in the second outcome? -/
def Refuses {α : Type} (D : Stray → Prop) (out out' : EStateM.Result Failure State α) : Prop :=
  out = out' ∨ ∃ stray r, out = .error stray.refusal r ∧
    (r.strays ++ [stray]) <+: (endState out').strays ∧ D stray

/-- What is refused on account of a stray token is refused if more of them count. -/
theorem Refuses.mono {α : Type} {D E : Stray → Prop} {out out' : EStateM.Result Failure State α}
    (h : Refuses D out out') (hDE : ∀ stray, D stray → E stray) : Refuses E out out' :=
  h.imp_right fun ⟨stray, r, herror, hnext, hD⟩ => ⟨stray, r, herror, hnext, hDE stray hD⟩

/-- **Is `p` stricter than `q`?** It may fail where `q` keeps a stray token, which then stands as
`D` says in the tokens to be read. -/
def Stricter {α : Type} (D : List Token → Stray → Prop) (p q : Scan α) : Prop :=
  ∀ s : State, Refuses (D s.pending) (p s) (q s)

section Stricter

variable {α β : Type} {D E : List Token → Stray → Prop} {p q : Scan α} {f g : α → Scan β}

/-- A reader is as strict as itself. -/
theorem Stricter.refl (D : List Token → Stray → Prop) (p : Scan α) : Stricter D p p :=
  fun _ => .inl rfl

/-- What comes first may be read strictly if nothing is forgotten later. -/
theorem Stricter.before (h : Stricter D p q) (hf : ∀ a, StraysGrow (f a)) :
    Stricter D (p >>= f) (q >>= f) := by
  intro s
  rcases h s with hsame | ⟨stray, r, herror, hnext, hD⟩
  · left
    show EStateM.bind p f s = EStateM.bind q f s
    rw [EStateM.bind, EStateM.bind, hsame]
  · refine .inr ⟨stray, r, bind_of_error herror f, ?_, hD⟩
    cases hq : q s with
    | error e s' =>
        rw [bind_of_error hq]
        rw [hq] at hnext
        exact hnext
    | ok a s' =>
        rw [bind_of_ok hq]
        rw [hq] at hnext
        exact hnext.trans (hf a s')

/-- So may what comes second. -/
theorem Stricter.after {P : List Token → α → List Token → Prop} (hp : Accepts p P)
    {F : α → List Token → Stray → Prop} (h : ∀ a, Stricter (F a) (f a) (g a))
    (hE : ∀ used a rest stray, (∀ t ∈ used, t.valid = true) → P used a rest → F a rest stray →
      E (used ++ rest) stray) : Stricter E (p >>= f) (p >>= g) := by
  intro s
  cases hs : p s with
  | error e s' =>
      rw [bind_of_error hs, bind_of_error hs]
      exact .inl rfl
  | ok a s' =>
      obtain ⟨used, hused, hvalid, hP⟩ := hp.of_ok hs
      rw [bind_of_ok hs, bind_of_ok hs, hused]
      exact (h a s').mono fun stray hF => hE used a s'.pending stray hvalid hP hF

end Stricter

/-! ## Headers -/

section Part

variable {h : Header} {t : Token}

/-- A strict header stops at a token behind the mark for native types that starts no clause. -/
theorem headerPart_true_of_native (hclause : t.clause? = none) (hnative : h.native.isSome = true)
    (s : State) : headerPart true h t s = .error (Stray.refusal ⟨h.subject, t⟩) s := by
  unfold headerPart tolerate
  rw [hclause]
  dsimp only
  rw [hnative]
  rfl

/-- Other headers keep it. -/
theorem headerPart_false_of_clause?_eq_none (hclause : t.clause? = none) (s : State) :
    headerPart false h t s = .ok h ⟨s.cursor, s.strays ++ [⟨h.subject, t⟩]⟩ := by
  unfold headerPart tolerate
  rw [hclause]
  rfl

/-- At any other token, strict headers are read as others are. -/
theorem headerPart_true_eq_false (hsame : t.clause? = none → h.native.isSome = false) :
    headerPart true h t = headerPart false h t := by
  unfold headerPart tolerate
  cases hclause : t.clause? with
  | some c => rfl
  | none =>
      dsimp only
      rw [hsame hclause]
      rfl

end Part

namespace Grammar

/-- A part does not change what is declared. -/
theorem HeaderPart.subject_addTo (part : HeaderPart) (h : Header) :
    (part.addTo h).subject = h.subject := by
  cases part <;> rfl

/-- A header with the mark for native types had it before or was given it. -/
theorem HeaderPart.native_foldl_addTo {parts : List HeaderPart} {h : Header}
    (hnative : (parts.foldl addTo h).native.isSome = true) :
    h.native.isSome = true ∨ ∃ mark, HeaderPart.native mark ∈ parts := by
  induction parts generalizing h with
  | nil => exact .inl hnative
  | cons part parts ih =>
      rcases ih hnative with hfirst | ⟨mark, hmark⟩
      · cases part with
        | native mark => exact .inr ⟨mark, List.mem_cons_self⟩
        | _ => exact .inl hfirst
      · exact .inr ⟨mark, List.mem_cons_of_mem _ hmark⟩

/-- Do the tokens start with fewer than `n` parts of a header, begun with `h`, by which it has the
mark for native types, and then with the stray token? -/
inductive StrayInParts (n : Nat) (h : Header) : List Token → Stray → Prop where
  /-- The parts, the stray token and the rest. -/
  | mk {parts : List HeaderPart} {t : Token} {rest : List Token}
      (hparts : ∀ part ∈ parts, part.WellFormed) (hcount : parts.length < n)
      (hnative : (parts.foldl HeaderPart.addTo h).native.isSome = true)
      (hother : (HeaderPart.other t).WellFormed)
      (hvalid : ∀ u ∈ parts.flatMap HeaderPart.tokens ++ [t], u.valid = true) :
      StrayInParts n h (parts.flatMap HeaderPart.tokens ++ t :: rest) ⟨h.subject, t⟩

/-- One more part in front. -/
theorem StrayInParts.cons {n : Nat} {h : Header} {part : HeaderPart} {tokens : List Token}
    {stray : Stray} (hpart : part.WellFormed) (hvalid : ∀ t ∈ part.tokens, t.valid = true)
    (hstray : StrayInParts n (part.addTo h) tokens stray) :
    StrayInParts (n + 1) h (part.tokens ++ tokens) stray := by
  cases hstray with
  | @mk parts t rest hparts hcount hnative hother hv =>
      have hmore : StrayInParts (n + 1) h ((part :: parts).flatMap HeaderPart.tokens ++ t :: rest)
          ⟨h.subject, t⟩ := by
        refine .mk (List.forall_mem_cons.mpr ⟨hpart, hparts⟩) (Nat.succ_lt_succ hcount) hnative
          hother ?_
        rw [List.flatMap_cons, List.append_assoc]
        exact List.forall_mem_append.mpr ⟨hvalid, hv⟩
      rw [List.flatMap_cons, List.append_assoc] at hmore
      rw [part.subject_addTo]
      exact hmore

/-- Strict headers are stricter, part by part. -/
theorem stricter_clauses (n : Nat) (h : Header) :
    Stricter (StrayInParts n h) (clauses true n h) (clauses false n h) := by
  induction n generalizing h with
  | zero => exact .refl _ _
  | succ n ih =>
      intro s
      cases hs : s.pending with
      | nil =>
          rw [clauses_of_pending_eq_nil hs, clauses_of_pending_eq_nil hs]
          exact .inl rfl
      | cons t tail =>
          cases hvalid : t.valid with
          | false =>
              rw [clauses_of_not_valid hs hvalid, clauses_of_not_valid hs hvalid]
              exact .inl rfl
          | true =>
              by_cases hcurly : t.kind = .openCurly
              · rw [clauses_of_openCurly hs hvalid hcurly, clauses_of_openCurly hs hvalid hcurly]
                exact .inl rfl
              rw [clauses_of_valid hs hvalid hcurly, clauses_of_valid hs hvalid hcurly]
              have htail : s.afterSkip.afterNext.pending = tail := by
                rw [State.pending_afterNext, State.pending_afterSkip, hs, List.tail_cons]
              generalize s.afterSkip.afterNext = s₁ at htail
              by_cases hdiffer : t.clause? = none ∧ h.native.isSome = true
              · -- the strict reader stops here, the other one goes on with one more stray token
                obtain ⟨hclause, hnative⟩ := hdiffer
                refine .inr ⟨_, s₁, bind_of_error (headerPart_true_of_native hclause hnative s₁) _,
                  ?_, ?_⟩
                · rw [bind_of_ok (headerPart_false_of_clause?_eq_none hclause s₁)]
                  exact straysGrow_clauses false n h ⟨s₁.cursor, s₁.strays ++ [⟨h.subject, t⟩]⟩
                · have hother : (HeaderPart.other t).WellFormed :=
                    ⟨hcurly, HeaderPart.clause?_eq_none_iff.mp hclause⟩
                  have hnone : ∀ part ∈ ([] : List HeaderPart), part.WellFormed := by simp
                  exact .mk hnone (Nat.succ_pos n) hnative hother (by simpa using hvalid)
              · have hsame : headerPart true h t = headerPart false h t :=
                  headerPart_true_eq_false fun hclause => by simpa [hclause] using hdiffer
                have hrest : Stricter (fun tokens => StrayInParts (n + 1) h (t :: tokens))
                    (headerPart false h t >>= fun h' => clauses true n h')
                    (headerPart false h t >>= fun h' => clauses false n h') := by
                  refine .after (accepts_headerPart false h hcurly) (fun h' => ih h') ?_
                  rintro used h' rest stray hused ⟨part, htokens, hpart, -, rfl⟩ hstray
                  rw [← List.cons_append, ← htokens]
                  refine .cons hpart ?_ hstray
                  rw [htokens]
                  exact List.forall_mem_cons.mpr ⟨hvalid, hused⟩
                rw [hsame, ← htail]
                exact hrest s₁

end Grammar

/-! ## Items -/

/-- **Do the tokens start with the header of a type** with a mark for native types, and behind it
with the stray token, as one of the first four parts? -/
inductive StrayAfterNative : List Token → Stray → Prop where
  /-- The word for the type, its name, the parts, the stray token and the rest. -/
  | mk {kind : TypeKind} {word name : Token} {parts : List HeaderPart} {mark t : Token}
      {rest : List Token} (hword : word.isWord kind.word = true) (hname : name.kind = .identifier)
      (hparts : ∀ part ∈ parts, part.WellFormed) (hcount : parts.length < 4)
      (hnative : HeaderPart.native mark ∈ parts) (hother : (HeaderPart.other t).WellFormed)
      (hvalid : ∀ u ∈ word :: name :: (parts.flatMap HeaderPart.tokens ++ [t]), u.valid = true) :
      StrayAfterNative (word :: name :: (parts.flatMap HeaderPart.tokens ++ t :: rest))
        ⟨(Header.ofName kind name).subject, t⟩

namespace Item

/-- Strict declarations of types are stricter. -/
theorem stricter_typeDeclaration (source : String) {kind : TypeKind} {word : Token}
    (hword : word.isWord kind.word = true) (hvalid : word.valid = true) :
    Stricter (fun tokens => StrayAfterNative (word :: tokens))
      (typeDeclaration true source kind) (typeDeclaration false source kind) := by
  refine Stricter.before ?_ fun h => straysGrow_block.bind fun _ => straysGrow_pure _
  refine Stricter.after (accepts_expectIdentifier _)
    (fun name => stricter_clauses maxClauses (Header.ofName kind name)) ?_
  rintro used name tokens stray hused ⟨rfl, hname⟩ hstray
  cases hstray with
  | @mk parts t rest hparts hcount hnative hother hv =>
      rcases HeaderPart.native_foldl_addTo hnative with hnone | ⟨mark, hmark⟩
      · cases hnone
      · refine .mk hword hname hparts hcount hmark hother ?_
        exact List.forall_mem_cons.mpr ⟨hvalid, List.forall_mem_cons.mpr
          ⟨hused name List.mem_cons_self, hv⟩⟩

/-- Strict items are stricter, once their first token is read. -/
theorem stricter_startingAt (source : String) (t : Token) :
    Stricter (fun tokens => StrayAfterNative (t :: tokens))
      (startingAt true source t) (startingAt false source t) := by
  unfold startingAt
  cases hvalid : t.valid with
  | false =>
      rw [if_neg Bool.false_ne_true, if_neg Bool.false_ne_true]
      exact .refl _ _
  | true =>
      rw [if_pos rfl, if_pos rfl]
      unfold startingWith
      split
      · exact .refl _ _
      · split
        · next hkeyword =>
            have hword : t.isWord TypeKind.classType.word = true :=
              (Token.keyword?_eq_some_iff (k := .classWord)).mp hkeyword
            exact stricter_typeDeclaration source hword hvalid
        · next hkeyword =>
            have hword : t.isWord TypeKind.structType.word = true :=
              (Token.keyword?_eq_some_iff (k := .structWord)).mp hkeyword
            exact stricter_typeDeclaration source hword hvalid
        · exact .refl _ _
        · exact .refl _ _
        · exact .refl _ _
        · exact .refl _ _
      · exact .refl _ _
      · exact .refl _ _
      · exact .refl _ _

/-- **The strict reader of items** does what the other one does, or stops at a stray token behind
the mark for native types that the other one keeps. -/
theorem stricter_next? (source : String) :
    Stricter StrayAfterNative (next? true source) (next? false source) := by
  intro s
  unfold next?
  rw [next_bind_eq, next_bind_eq]
  cases hs : s.pending with
  | nil => exact .inl rfl
  | cons t tail =>
      have htail : s.afterNext.pending = tail := by
        rw [State.pending_afterNext, hs, List.tail_cons]
      have hitem := (stricter_startingAt source t).before
        (f := fun item => (pure (some item) : Scan (Option Item)))
        (fun item => straysGrow_pure _) s.afterNext
      rw [htail] at hitem
      exact hitem

end Item

end ZDecl
