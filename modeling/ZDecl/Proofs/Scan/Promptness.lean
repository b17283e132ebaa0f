import ZDecl.Proofs.Scan.Locality
import ZDecl.Proofs.Token.Literal

/-!
# Readers fail as early as they can

A reader that fails names a place in its stream. Up to there nothing was wrong yet: what stands
before the place could be completed so that the reader succeeds. And at the place all was lost: with
the token that stands there, no completion helps.

* `Token.Writable`: the tokens that a completion may consist of.
* `Scan.Completes`, `Scan.Hopeless`: some tokens can be completed, or cannot.
* **`Scan.Prompt p C Q`**: the reader `p` fails as early as it can. A completion is one before
  everything that satisfies `C`, and its result satisfies `Q`.
* `Prompt.bind`: a sequence of two such readers.
* `prompt_of_head`: readers that decide by their first token; `prompt_next_bind` for those that read
  it at once.
* `prompt_expect`, `prompt_expectIdentifier`: single tokens.

A reader may go on after the place at which it will fail, and a failure may name a token that was
read before. So a place is told by the tokens before it, and not by where the reader stands.
-/

namespace ZDecl

/-! ## Places and tokens -/

/-- Could the token stand in a stream and be read there? -/
structure Token.Writable (t : Token) : Prop where
  /-- It is well formed. -/
  valid : t.valid = true
  /-- It is no white space and no comment. -/
  significant : t.isTrivia = false
  /-- Some stream starts like this. -/
  starts : ∃ b rest, t.StartsStream b rest

/-- The first token of a stream. -/
def Token.firstOf (b : UInt8) (rest : Bytes) : Token :=
  let shape := Token.Lexeme.first b rest
  ⟨shape.kind, shape.valid, Position.start, b :: rest.take shape.extra⟩

/-- A token that can be written is significant. -/
theorem Token.Writable.isSkipped {t : Token} (h : t.Writable) : t.isSkipped = false := by
  rw [Token.isSkipped, h.significant, Bool.false_and]

/-- The first token of a stream can be written unless it is ill-formed or passed over. -/
theorem Token.writable_firstOf {b : UInt8} {rest : Bytes} (hvalid : (firstOf b rest).valid = true)
    (htrivia : (firstOf b rest).isTrivia = false) : (firstOf b rest).Writable :=
  ⟨hvalid, htrivia, b, rest, rfl, rfl, rfl⟩

/-- The span of what comes next: of the first token, or the end of the stream. -/
def Cursor.spanAt (c : Cursor) : List Token → Span
  | t :: _ => t.span
  | [] => .point c.stop

namespace Scan

variable {α β : Type}

/-- What is to be read later is to be read by some other reader. -/
theorem State.exists_pending_eq {s : State} {front rest : List Token}
    (h : s.pending = front ++ rest) : ∃ s' : State, s'.pending = rest :=
  exists_pending fun _ ht => isSkipped_of_mem_pending (h ▸ List.mem_append_right front ht)

/-- At the end of the stream, nothing is left once the next token was asked for. -/
theorem State.tokens_afterNext {s : State} (h : s.pending = []) :
    s.afterNext.cursor.tokens = [] := by
  have hnone : s.cursor.significant = (none, s.afterNext.cursor) := by
    have hfirst := s.significant_fst.1
    rw [h] at hfirst
    exact Prod.ext hfirst rfl
  exact Cursor.tokens_of_significant_eq_none hnone

/-! ## Prompt failures -/

/-- Can what was read be completed, before everything that satisfies `C`, with a result that
satisfies `Q`? -/
def Completes (p : Scan α) (C : List Token → Prop) (Q : α → Prop) (front : List Token) : Prop :=
  ∃ more a, (∀ t ∈ more, t.Writable) ∧ Q a ∧ ∀ (s : State) (rest : List Token),
    s.pending = front ++ (more ++ rest) → C rest → ∃ s', p s = .ok a s' ∧ s'.pending = rest

/-- Does the reader fail whatever comes behind some tokens? -/
def Hopeless (p : Scan α) (front : List Token) : Prop :=
  ∀ (s : State) (rest : List Token), s.pending = front ++ rest → ∃ f s', p s = .error f s'

/-- **Does the reader fail as early as it can?** The tokens before the place of the failure can be
completed; together with the token at that place they cannot. -/
def Prompt (p : Scan α) (C : List Token → Prop) (Q : α → Prop) : Prop :=
  ∀ (s s' : State) (f : Failure), p s = .error f s' → ∃ front tail, s.pending = front ++ tail ∧
    f.span = s.cursor.spanAt tail ∧ Completes p C Q front ∧
      ∀ t ∈ tail.head?, Hopeless p (front ++ [t])

/-- Does the reader fail everywhere, and name the given span? -/
def StopsAt (p : Scan α) (span : Span) : Prop :=
  ∀ s : State, ∃ f s', p s = .error f s' ∧ f.span = span

/-- A reader that always succeeds. -/
theorem prompt_of_succeeds {p : Scan α} (h : ∀ s, ∃ a s', p s = .ok a s')
    (C : List Token → Prop) (Q : α → Prop) : Prompt p C Q := by
  intro s s' f hp
  obtain ⟨a, s₁, hok⟩ := h s
  cases hp.symm.trans hok

/-- A result without reading fails nowhere. -/
theorem prompt_pure (a : α) (C : List Token → Prop) (Q : α → Prop) : Prompt (pure a) C Q :=
  prompt_of_succeeds (fun s => ⟨a, s, rfl⟩) C Q

/-- A result without reading is complete if it is as it should be. -/
theorem completes_pure {a : α} {Q : α → Prop} (h : Q a) (C : List Token → Prop) :
    Completes (pure a) C Q [] := by
  refine ⟨[], a, ?_, h, fun s rest hs _ => ⟨s, rfl, hs⟩⟩
  exact fun t ht => (List.not_mem_nil ht).elim

/-- There may be fewer places for a completion, and more good results. -/
theorem Completes.mono {p : Scan α} {C D : List Token → Prop} {P Q : α → Prop}
    {front : List Token} (h : Completes p C P front) (hDC : ∀ rest, D rest → C rest)
    (hPQ : ∀ a, P a → Q a) : Completes p D Q front := by
  obtain ⟨more, a, hmore, hP, hok⟩ := h
  exact ⟨more, a, hmore, hPQ a hP, fun s rest hs hrest => hok s rest hs (hDC rest hrest)⟩

/-- A prompt reader stays prompt before fewer tokens and with weaker demands on the result. -/
theorem Prompt.mono {p : Scan α} {C D : List Token → Prop} {P Q : α → Prop} (h : Prompt p C P)
    (hDC : ∀ rest, D rest → C rest) (hPQ : ∀ a, P a → Q a) : Prompt p D Q := by
  intro s s' f hp
  obtain ⟨front, tail, hpending, hspan, hcompletes, hhopeless⟩ := h _ _ _ hp
  exact ⟨front, tail, hpending, hspan, hcompletes.mono hDC hPQ, hhopeless⟩

/-- A prompt reader can be made to succeed from the start. -/
theorem Prompt.completes_nil {p : Scan α} {C : List Token → Prop} {Q : α → Prop}
    (hp : Prompt p C Q) (hlocal : Local p C) (hQ : ∀ s a s', p s = .ok a s' → Q a) :
    Completes p C Q [] := by
  cases hout : p (.ofTokens []) with
  | error f s' =>
      obtain ⟨front, tail, hpending, -, hcompletes, -⟩ := hp _ _ _ hout
      rwa [(List.append_eq_nil_iff.mp hpending.symm).1] at hcompletes
  | ok a s' =>
      obtain ⟨used, strays, hused, -, hagain⟩ := hlocal _ _ _ hout
      obtain ⟨rfl, -⟩ := List.append_eq_nil_iff.mp hused.symm
      refine ⟨[], a, fun t ht => (List.not_mem_nil ht).elim, hQ _ _ _ hout,
        fun s rest hs hrest => ?_⟩
      obtain ⟨s₂, hok, hs₂, -⟩ := hagain s rest hs (.inl hrest)
      exact ⟨s₂, hok, hs₂⟩

/-- At the end of the stream, a prompt reader fails there. -/
theorem Prompt.span_of_pending {p : Scan α} {C : List Token → Prop} {Q : α → Prop}
    (hp : Prompt p C Q) {s s' : State} {f : Failure} (hs : s.pending = [])
    (h : p s = .error f s') : f.span = .point s.cursor.stop := by
  obtain ⟨front, tail, hpending, hspan, -⟩ := hp s s' f h
  obtain ⟨-, rfl⟩ := List.append_eq_nil_iff.mp (hpending.symm.trans hs)
  exact hspan

/-- The place of what comes next does not depend on where a cursor stands. -/
theorem spanAt_of_stop {c c' : Cursor} (h : c'.stop = c.stop) (tail : List Token) :
    c'.spanAt tail = c.spanAt tail := by
  cases tail with
  | nil => exact congrArg Span.point h
  | cons t tail => rfl

/-- The stream of a reader that only goes forward ends where it did. -/
theorem stop_of_ok {p : Scan α} (hadvances : Advances p) {s s' : State} {a : α}
    (h : p s = .ok a s') : s'.cursor.stop = s.cursor.stop := by
  have hreaches := (hadvances s).stop
  rwa [h] at hreaches

/-! ## Sequences of two readers -/

section Bind

variable {p : Scan α} {f : α → Scan β} {C D : List Token → Prop} {P : α → Prop} {Q : β → Prop}
  {s s' : State} {a : α} {front left : List Token}

/-- Does the second reader, before everything that satisfies `D`, succeed only on what satisfies `C`
and so may come behind the first? -/
def Follows (f : α → Scan β) (C D : List Token → Prop) : Prop :=
  ∀ (a : α) (s s' : State) (b : β), f a s = .ok b s' → D s'.pending → C s.pending

/-- Everything may come behind a reader that cares for nothing behind it. -/
theorem follows_anything (f : α → Scan β) (D : List Token → Prop) : Follows f Anything D :=
  fun _ _ _ _ _ _ => trivial

/-- A reader that reads nothing. -/
theorem follows_pure (g : α → β) (C : List Token → Prop) : Follows (fun a => pure (g a)) C C := by
  intro a s s' b h hC
  cases h
  exact hC

/-- What the second reader succeeds on may come behind the first. -/
theorem Follows.of_completion (hC : Follows f C D) {b : β} {more rest : List Token}
    (hs : s.pending = front ++ more) (hrest : D rest)
    (hok : ∀ s₁ : State, s₁.pending = more → ∃ s₂, f a s₁ = .ok b s₂ ∧ s₂.pending = rest) :
    C more := by
  obtain ⟨s₁, hs₁⟩ := State.exists_pending_eq hs
  obtain ⟨s₂, hs₂, rfl⟩ := hok s₁ hs₁
  exact hs₁ ▸ hC _ _ _ _ hs₂ hrest

/-- What the first reader has read is completed for both. -/
theorem Completes.bind (h : Completes p C P front)
    (hstart : ∀ a, P a → Completes (f a) D Q []) (hC : Follows f C D) :
    Completes (p >>= f) D Q front := by
  obtain ⟨more, a, hmore, hP, hok⟩ := h
  obtain ⟨later, b, hlater, hQ, hfok⟩ := hstart a hP
  refine ⟨more ++ later, b, List.forall_mem_append.mpr ⟨hmore, hlater⟩, hQ,
    fun s rest hs hrest => ?_⟩
  have hbehind : s.pending = (front ++ more) ++ (later ++ rest) := by
    rw [hs, List.append_assoc, List.append_assoc]
  have hfollows := hC.of_completion hbehind hrest fun s₁ hs₁ => hfok s₁ rest hs₁ hrest
  rw [List.append_assoc] at hbehind
  obtain ⟨s₁, hps, hs₁⟩ := hok s _ hbehind hfollows
  obtain ⟨s₂, hfs₁, hs₂⟩ := hfok s₁ rest hs₁ hrest
  exact ⟨s₂, (bind_of_ok hps f).trans hfs₁, hs₂⟩

/-- What comes behind a reader that stops is never read. -/
theorem StopsAt.bind {span : Span} (h : StopsAt p span) (f : α → Scan β) :
    StopsAt (p >>= f) span := by
  intro s
  obtain ⟨g, s', hps, hspan⟩ := h s
  exact ⟨g, s', bind_of_error hps f, hspan⟩

/-- What comes behind a hopeless reader does not save it. -/
theorem Hopeless.bind (h : Hopeless p front) : Hopeless (p >>= f) front := by
  intro s rest hs
  obtain ⟨g, s', hps⟩ := h s rest hs
  exact ⟨g, s', bind_of_error hps f⟩

/-- What the second reader has read is completed behind what the first one has. -/
theorem Completes.after (h : Completes (f a) D Q front) (hlocal : Local p C)
    (hp : p s = .ok a s') (hleft : s.pending = left ++ s'.pending) (hC : Follows f C D) :
    Completes (p >>= f) D Q (left ++ front) := by
  obtain ⟨used, strays, hused, -, hagain⟩ := hlocal _ _ _ hp
  obtain rfl := List.append_cancel_right (hleft.symm.trans hused)
  obtain ⟨more, b, hmore, hQ, hok⟩ := h
  refine ⟨more, b, hmore, hQ, fun s₁ rest hs₁ hrest => ?_⟩
  rw [List.append_assoc] at hs₁
  have hfollows := hC.of_completion hs₁ hrest fun s₂ hs₂ => hok s₂ rest hs₂ hrest
  obtain ⟨s₂, hps₁, hs₂, -⟩ := hagain s₁ _ hs₁ (.inl hfollows)
  obtain ⟨s₃, hfs₂, hs₃⟩ := hok s₂ rest hs₂ hrest
  exact ⟨s₃, (bind_of_ok hps₁ f).trans hfs₂, hs₃⟩

/-- Where the second reader is stopped by a token, both are. -/
theorem Hopeless.after {t : Token} {tail : List Token} (h : Hopeless (f a) (front ++ [t]))
    (hlocal : Local p C) (hp : p s = .ok a s') (hleft : s.pending = left ++ s'.pending)
    (hs' : s'.pending = front ++ t :: tail) : Hopeless (p >>= f) (left ++ front ++ [t]) := by
  obtain ⟨used, strays, hused, -, hagain⟩ := hlocal _ _ _ hp
  obtain rfl := List.append_cancel_right (hleft.symm.trans hused)
  intro s₁ rest hs₁
  rw [List.append_assoc, List.append_assoc, ← List.append_assoc front] at hs₁
  -- The first reader sees no more than one token of what comes behind it.
  have hhead : (front ++ [t] ++ rest).head? = s'.pending.head? := by
    rw [hs']
    cases front <;> rfl
  obtain ⟨s₂, hps₁, hs₂, -⟩ := hagain s₁ _ hs₁ (.inr hhead)
  obtain ⟨g, s₃, hfs₂⟩ := h s₂ rest hs₂
  exact ⟨g, s₃, (bind_of_ok hps₁ f).trans hfs₂⟩

/-- **A sequence of two readers** fails as early as it can if both do, and if nothing that the
second one reads stops the first. -/
theorem Prompt.bind (hp : Prompt p C P) (hlocal : Local p C) (hadvances : Advances p)
    (hf : ∀ a, Prompt (f a) D Q) (hstart : ∀ a, P a → Completes (f a) D Q [])
    (hC : Follows f C D) : Prompt (p >>= f) D Q := by
  intro s s'' e h
  cases hout : p s with
  | error g s' =>
      cases h.symm.trans (bind_of_error hout f)
      obtain ⟨front, tail, hpending, hspan, hcompletes, hhopeless⟩ := hp _ _ _ hout
      exact ⟨front, tail, hpending, hspan, hcompletes.bind hstart hC,
        fun t ht => (hhopeless t ht).bind⟩
  | ok a s' =>
      rw [bind_of_ok hout f] at h
      obtain ⟨left, strays, hleft, -, -⟩ := hlocal _ _ _ hout
      obtain ⟨front, tail, hpending, hspan, hcompletes, hhopeless⟩ := hf a _ _ _ h
      have hstop := stop_of_ok hadvances hout
      refine ⟨left ++ front, tail, by rw [hleft, hpending, List.append_assoc],
        hspan.trans (spanAt_of_stop hstop tail), hcompletes.after hlocal hout hleft hC,
        fun t ht => ?_⟩
      obtain ⟨tail, rfl⟩ := List.head?_eq_some_iff.mp ht
      exact (hhopeless t rfl).after hlocal hout hleft hpending

/-- A sequence whose first reader does not look ahead. -/
theorem Prompt.then (hp : Prompt p Anything P) (hlocal : Local p Anything)
    (hadvances : Advances p) (hf : ∀ a, Prompt (f a) D Q)
    (hstart : ∀ a, P a → Completes (f a) D Q []) : Prompt (p >>= f) D Q :=
  hp.bind hlocal hadvances hf hstart (follows_anything f D)

end Bind

/-! ## Decisions by one token -/

section Head

variable {p q : Scan α} {p' : Scan β} {C : List Token → Prop} {Q : α → Prop} {t : Token}

/-- Does `p` become `q` when it reads `t`? -/
def Takes (p : Scan α) (t : Token) (q : Scan α) : Prop :=
  ∀ (s : State) (tail : List Token), s.pending = t :: tail →
    ∃ s', s'.pending = tail ∧ s'.cursor.stop = s.cursor.stop ∧ p s = q s'

/-- A reader that takes a token is completed by what completes the reader behind it. -/
theorem Completes.cons {front : List Token} (h : Completes q C Q front) (htakes : Takes p t q) :
    Completes p C Q (t :: front) := by
  obtain ⟨more, a, hmore, hQ, hok⟩ := h
  refine ⟨more, a, hmore, hQ, fun s rest hs hrest => ?_⟩
  obtain ⟨s', hs', -, heq⟩ := htakes s _ hs
  rw [heq]
  exact hok s' rest hs' hrest

/-- A completion may start with a token of its own. -/
theorem Completes.of_takes (h : Completes q C Q []) (ht : t.Writable) (htakes : Takes p t q) :
    Completes p C Q [] := by
  obtain ⟨more, a, hmore, hQ, hok⟩ := h.cons htakes
  exact ⟨t :: more, a, List.forall_mem_cons.mpr ⟨ht, hmore⟩, hQ, hok⟩

/-- A reader that takes a token and is hopeless behind it is hopeless. -/
theorem Hopeless.cons {front : List Token} (h : Hopeless q front) (htakes : Takes p t q) :
    Hopeless p (t :: front) := by
  intro s rest hs
  obtain ⟨s', hs', -, heq⟩ := htakes s _ hs
  rw [heq]
  exact h s' rest hs'

/-- Does the reader stop at the token `t`? -/
def StopsBefore (p : Scan α) (t : Token) : Prop :=
  ∀ (s : State) (tail : List Token), s.pending = t :: tail →
    ∃ f s', p s = .error f s' ∧ f.span = t.span

/-- Does the reader succeed whatever comes behind the token `t`? -/
def SucceedsBefore (p : Scan α) (t : Token) : Prop :=
  ∀ (s : State) (tail : List Token), s.pending = t :: tail → ∃ a s', p s = .ok a s'

/-- What comes behind a reader comes behind what that becomes. -/
theorem Takes.bind {q' : Scan β} (h : Takes p' t q') (f : β → Scan α) :
    Takes (p' >>= f) t (q' >>= f) := by
  intro s tail hs
  obtain ⟨s', hs', hstop, heq⟩ := h s tail hs
  refine ⟨s', hs', hstop, ?_⟩
  show EStateM.bind p' f s = EStateM.bind q' f s'
  rw [EStateM.bind, EStateM.bind, heq]

/-- A reader that stops at a token, and what comes behind it. -/
theorem StopsBefore.bind (h : StopsBefore p' t) (f : β → Scan α) : StopsBefore (p' >>= f) t := by
  intro s tail hs
  obtain ⟨g, s', hfails, hspan⟩ := h s tail hs
  exact ⟨g, s', bind_of_error hfails f, hspan⟩

/-- A reader that becomes one that fails at the token just read. -/
theorem StopsAt.before (h : StopsAt q t.span) (htakes : Takes p t q) : StopsBefore p t := by
  intro s tail hs
  obtain ⟨s', -, -, heq⟩ := htakes s tail hs
  rw [heq]
  exact h s'

/-- **A reader that decides by its first token** fails as early as it can: at this token, or where
it goes on after it. -/
theorem prompt_of_head {G : Token → Prop} (hnil : Completes p C Q [])
    (hgood : ∀ t, G t → ∃ q, Takes p t q ∧ Prompt q C Q)
    (hother : ∀ t, ¬G t → StopsBefore p t ∨ SucceedsBefore p t)
    (hend : ∀ (s s' : State) (f : Failure), s.pending = [] → p s = .error f s' →
      f.span = .point s.cursor.stop) : Prompt p C Q := by
  intro s s' f h
  cases hs : s.pending with
  | nil =>
      exact ⟨[], [], rfl, hend s s' f hs h, hnil, fun t ht => nomatch ht⟩
  | cons t tail =>
      by_cases ht : G t
      · obtain ⟨q, htakes, hnext⟩ := hgood t ht
        obtain ⟨s₁, hs₁, hstop, heq⟩ := htakes s tail hs
        rw [heq] at h
        obtain ⟨front, later, hpending, hspan, hcompletes, hhopeless⟩ := hnext _ _ _ h
        refine ⟨t :: front, later, ?_, hspan.trans (spanAt_of_stop hstop later),
          hcompletes.cons htakes, fun u hu => (hhopeless u hu).cons htakes⟩
        rw [← hs₁, hpending]
        rfl
      · rcases hother t ht with hstops | hsucceeds
        · obtain ⟨g, s₁, hfails, hspan⟩ := hstops s tail hs
          cases h.symm.trans hfails
          refine ⟨[], t :: tail, rfl, hspan, hnil, fun u hu => ?_⟩
          obtain rfl := Option.some.inj hu
          intro s₂ rest hs₂
          obtain ⟨g', s₃, hfails', -⟩ := hstops s₂ rest hs₂
          exact ⟨g', s₃, hfails'⟩
        · obtain ⟨a, s₁, hok⟩ := hsucceeds s tail hs
          cases h.symm.trans hok

end Head

section Next

variable {f : Option Token → Scan α} {C : List Token → Prop} {Q : α → Prop}

/-- A reader that starts with the next token takes it. -/
theorem takes_next_bind (f : Option Token → Scan α) (t : Token) :
    Takes (next >>= f) t (f (some t)) := by
  intro s tail hs
  refine ⟨s.afterNext, by rw [s.pending_afterNext, hs]; rfl, s.cursor.reaches_significant.stop, ?_⟩
  rw [next_bind_eq, hs]
  rfl

/-- A reader stops at the token that it reads next if it fails there. -/
theorem stopsBefore_next_bind {t : Token} (h : StopsAt (f (some t)) t.span) :
    StopsBefore (next >>= f) t :=
  h.before (takes_next_bind f t)

/-- A reader that reads the next token at once. -/
theorem prompt_next_bind {G : Token → Prop} {u : Token} (hu : u.Writable)
    (hstart : Completes (f (some u)) C Q []) (hgood : ∀ t, G t → Prompt (f (some t)) C Q)
    (hbad : ∀ t, ¬G t → StopsBefore (next >>= f) t)
    (hend : ∀ (s s' : State) (g : Failure), s.cursor.tokens = [] → f none s = .error g s' →
      g.span = .point s.cursor.stop) : Prompt (next >>= f) C Q := by
  refine prompt_of_head (hstart.of_takes hu (takes_next_bind f u))
    (fun t ht => ⟨_, takes_next_bind f t, hgood t ht⟩) (fun t ht => .inl (hbad t ht))
    fun s s' g hs h => ?_
  rw [next_bind_eq, hs] at h
  rw [hend _ _ _ (State.tokens_afterNext hs) h]
  exact congrArg Span.point s.cursor.reaches_significant.stop

end Next

/-! ## Single tokens -/

/-- A failure stops at the span that it names. -/
theorem stopsAt_fail (cause : Cause) (span : Span) : StopsAt (fail cause span : Scan α) span :=
  fun s => ⟨_, s, rfl, rfl⟩

/-- A failure at an ill-formed token stops there. -/
theorem stopsAt_failAt (t : Token) : StopsAt (failAt t : Scan α) t.span := fun s => ⟨_, s, rfl, rfl⟩

/-- Where the stream ends, a reader that misses a token names that place. -/
theorem span_of_spanOf_none {s s' : State} {cause : Cause} {f : Failure}
    (hs : s.cursor.tokens = [])
    (h : (do fail cause (← spanOf none) : Scan α) s = .error f s') :
    f.span = .point s.cursor.stop := by
  cases h
  show Span.point s.cursor.position = _
  rw [Cursor.position, hs]

/-- A reader that takes one significant token, and stops unless it is well formed and good. -/
theorem prompt_single {f : Option Token → Scan Token} {G : Token → Prop} {u : Token}
    (hu : u.Writable) (hGu : G u) (hgood : ∀ t, t.valid = true → G t → f (some t) = pure t)
    (hbad : ∀ t, ¬(t.valid = true ∧ G t) → StopsBefore (next >>= f) t)
    (hend : ∀ (s s' : State) (g : Failure), s.cursor.tokens = [] → f none s = .error g s' →
      g.span = .point s.cursor.stop) : Prompt (next >>= f) Anything (· = u) := by
  refine prompt_next_bind (G := fun t => t.valid = true ∧ G t) hu ?_ (fun t ht => ?_) hbad hend
  · rw [hgood u hu.valid hGu]
    exact completes_pure (Q := (· = u)) rfl _
  · rw [hgood t ht.1 ht.2]
    exact prompt_pure t _ _

/-- A token that is not the expected one stops the reader. -/
theorem stopsBefore_expect {kind : Token.Kind} {t : Token} (h : ¬(t.valid = true ∧ t.kind = kind))
    (expected : String) : StopsBefore (expect kind expected) t := by
  refine stopsBefore_next_bind ?_
  dsimp only
  cases ht : t.valid with
  | false => exact stopsAt_failAt t
  | true =>
      have hkind : t.kind ≠ kind := fun hkind => h ⟨ht, hkind⟩
      simp only [Bool.not_true, Bool.false_eq_true, if_false, hkind]
      split
      · exact stopsAt_fail _ _
      · exact stopsAt_fail _ _

/-- An expected token is taken. -/
theorem takes_expect {kind : Token.Kind} {t : Token} (ht : t.valid = true) (hkind : t.kind = kind)
    (expected : String) : Takes (expect kind expected) t (pure t) := by
  have h : Takes (expect kind expected) t _ := takes_next_bind _ t
  simpa [ht, hkind] using h

/-- An expected token is there, or the reader fails at the first one. -/
theorem prompt_expect {kind : Token.Kind} {u : Token} (hu : u.Writable) (hkind : u.kind = kind)
    (expected : String) : Prompt (expect kind expected) Anything (· = u) :=
  prompt_single (G := fun t => t.kind = kind) hu hkind (fun t ht htkind => by simp [ht, htkind])
    (fun t hbad => stopsBefore_expect hbad expected) fun s s' g hs h => span_of_spanOf_none hs h

/-- A token that is no name stops the reader of one. -/
theorem stopsBefore_expectIdentifier {t : Token} (h : ¬(t.valid = true ∧ t.kind = .identifier))
    (role : String) : StopsBefore (expectIdentifier role) t := by
  refine stopsBefore_next_bind ?_
  dsimp only
  cases ht : t.valid with
  | false => exact stopsAt_failAt t
  | true =>
      have hkind : t.kind ≠ .identifier := fun hkind => h ⟨ht, hkind⟩
      simp only [Bool.not_true, Bool.false_eq_true, if_false, hkind]
      exact stopsAt_fail _ _

/-- A name is taken where one is expected. -/
theorem takes_expectIdentifier {t : Token} (ht : t.valid = true) (hkind : t.kind = .identifier)
    (role : String) : Takes (expectIdentifier role) t (pure t) := by
  have h : Takes (expectIdentifier role) t _ := takes_next_bind _ t
  simpa [ht, hkind] using h

/-- An expected name is there, or the reader fails at the first token. -/
theorem prompt_expectIdentifier {u : Token} (hu : u.Writable) (hkind : u.kind = .identifier)
    (role : String) : Prompt (expectIdentifier role) Anything (· = u) :=
  prompt_single (G := fun t => t.kind = .identifier) hu hkind
    (fun t ht htkind => by simp [ht, htkind]) (fun t hbad => stopsBefore_expectIdentifier hbad role)
    fun s s' g hs h => span_of_spanOf_none hs h

/-- The end of a reader that leaves an optional token aside. -/
theorem prompt_accept (kind : Token.Kind) (a : α) (C : List Token → Prop) (Q : α → Prop) :
    Prompt (accept kind >>= fun _ => pure a) C Q := by
  refine prompt_of_succeeds (fun s => ⟨a, if startsWith kind s.pending then s.afterNext else s, ?_⟩)
    C Q
  rw [bind_of_ok (accept_eq kind s)]
  rfl

end Scan

end ZDecl
