import ZDecl.Proofs.Grammar.Braces

/-!
# Readers do not see what comes behind

What a reader makes of the tokens that it reads does not depend on those behind them, but for the
look that some readers take at the next token: an optional semicolon is taken if it is there, and a
header goes on up to an opening brace. So what was read once is read again wherever the same tokens
stand, and the same stray tokens are met on the way.

* `Scan.MayFollow C old new`: `new` may stand where `old` did, since it satisfies `C` or starts with
  the same token.
* `Scan.Local p C`: what `p` has read is read again before everything that may follow.
* `Accepts.local`: readers that keep no stray tokens, from what they accept.
* `local_clauses`, `local_header`: headers, before an opening brace.
* **`Item.local_next?`**: an item is read again before everything but a semicolon.
-/

namespace ZDecl

namespace Scan

open Grammar

variable {α β : Type}

/-- The reader that has nothing but some tokens to read. -/
def State.ofTokens (tokens : List Token) : State := ⟨⟨[], tokens, Position.start⟩, []⟩

/-- A reader of significant tokens has all of them before it. -/
theorem State.pending_ofTokens {tokens : List Token} (h : ∀ t ∈ tokens, t.isSkipped = false) :
    (State.ofTokens tokens).pending = tokens :=
  List.filter_eq_self.mpr fun t ht => by simp [h t ht]

/-- Every list of tokens that readers do not pass over is to be read by some reader. -/
theorem State.exists_pending {tokens : List Token} (h : ∀ t ∈ tokens, t.isSkipped = false) :
    ∃ s : State, s.pending = tokens :=
  ⟨.ofTokens tokens, pending_ofTokens h⟩

/-- What a reader has before it is significant. -/
theorem State.isSkipped_of_mem_pending {s : State} {t : Token} (h : t ∈ s.pending) :
    t.isSkipped = false := by
  simpa using (List.mem_filter.mp h).2

/-- May `new` come next instead of `old`? Either it satisfies `C`, or nobody who looks at one token
sees the difference. -/
def MayFollow (C : List Token → Prop) (old new : List Token) : Prop :=
  C new ∨ new.head? = old.head?

/-- **Is what the reader has read once read again**, with the same result and the same stray tokens,
before everything that may follow? -/
def Local (p : Scan α) (C : List Token → Prop) : Prop :=
  ∀ (s s' : State) (a : α), p s = .ok a s' → ∃ used strays, s.pending = used ++ s'.pending ∧
    s'.strays = s.strays ++ strays ∧
      ∀ (s₁ : State) (rest : List Token), s₁.pending = used ++ rest → MayFollow C s'.pending rest →
        ∃ s₂, p s₁ = .ok a s₂ ∧ s₂.pending = rest ∧ s₂.strays = s₁.strays ++ strays

/-- Before everything. -/
abbrev Anything : List Token → Prop := fun _ => True

/-- What may follow under a condition may follow under a weaker one. -/
theorem MayFollow.mono {C D : List Token → Prop} {old new : List Token} (h : MayFollow D old new)
    (hDC : D new → C new) : MayFollow C old new :=
  h.imp_left hDC

/-- Behind the same tokens, the same may follow. -/
theorem MayFollow.append {C D : List Token → Prop} {old new : List Token}
    (h : MayFollow D old new) (used : List Token) (hDC : D new → C (used ++ new)) :
    MayFollow C (used ++ old) (used ++ new) := by
  refine h.imp hDC fun hhead => ?_
  rw [List.head?_append, List.head?_append, hhead]

/-- Whether a token of some kind comes first depends on the first token. -/
theorem startsWith_of_head? {kind : Token.Kind} {old new : List Token}
    (h : new.head? = old.head?) : startsWith kind new = startsWith kind old := by
  rw [startsWith, startsWith, h]

/-- A reader that is local before some tokens is local before fewer. -/
theorem Local.mono {p : Scan α} {C D : List Token → Prop} (h : Local p C)
    (hDC : ∀ rest, D rest → C rest) : Local p D := by
  intro s s' a hp
  obtain ⟨used, strays, hused, hstrays, hagain⟩ := h s s' a hp
  exact ⟨used, strays, hused, hstrays,
    fun s₁ rest hs₁ hrest => hagain s₁ rest hs₁ (hrest.mono (hDC rest))⟩

/-- A result without reading does not depend on what follows. -/
theorem local_pure (a : α) : Local (pure a : Scan α) Anything := by
  intro s s' b h
  cases h
  exact ⟨[], [], rfl, (List.append_nil _).symm,
    fun s₁ rest hs₁ _ => ⟨s₁, rfl, hs₁, (List.append_nil _).symm⟩⟩

/-- A reader that always fails has nothing to read again. -/
theorem Stops.local {p : Scan α} (hp : Stops p) (C : List Token → Prop) : Local p C := by
  intro s s' a h
  obtain ⟨f, s₁, hf⟩ := hp s
  rw [hf] at h
  cases h

/-- A reader that keeps no stray tokens reads again what it accepts. -/
theorem Accepts.local {p : Scan α} {P : List Token → α → List Token → Prop} (h : Accepts p P)
    (hkeeps : KeepsStrays p) {C : List Token → Prop}
    (hP : ∀ used a rest rest', P used a rest → MayFollow C rest rest' → P used a rest') :
    Local p C := by
  intro s s' a hp
  obtain ⟨used, hused, hvalid, hPused⟩ := h.of_ok hp
  refine ⟨used, [], hused, by rw [hkeeps s s' a hp, List.append_nil], fun s₁ rest hs₁ hrest => ?_⟩
  obtain ⟨s₂, hp₂, hs₂⟩ := h.exists_ok hs₁ hvalid (hP used a _ rest hPused hrest)
  exact ⟨s₂, hp₂, hs₂, by rw [hkeeps s₁ s₂ a hp₂, List.append_nil]⟩

/-- A sequence of two readers, if what the second one reads may come behind the first. -/
theorem Local.bind {p : Scan α} {f : α → Scan β} {C D : List Token → Prop} (hp : Local p C)
    (hf : ∀ a, Local (f a) D)
    (hC : ∀ a s s' b used rest, f a s = .ok b s' → s.pending = used ++ s'.pending → D rest →
      C (used ++ rest)) : Local (p >>= f) D := by
  intro s s'' b h
  obtain ⟨a, s', hps, hfs⟩ := bind_eq_ok_iff.mp h
  obtain ⟨left, more, hleft, hmore, hpagain⟩ := hp s s' a hps
  obtain ⟨right, later, hright, hlater, hfagain⟩ := hf a s' s'' b hfs
  refine ⟨left ++ right, more ++ later, ?_, ?_, fun s₁ rest hs₁ hrest => ?_⟩
  · rw [hleft, hright, List.append_assoc]
  · rw [hlater, hmore, List.append_assoc]
  · rw [List.append_assoc] at hs₁
    have hfollow : MayFollow C s'.pending (right ++ rest) := by
      rw [hright]
      exact hrest.append right (hC a s' s'' b right rest hfs hright)
    obtain ⟨s₂, hps₁, hs₂, hmore₂⟩ := hpagain s₁ _ hs₁ hfollow
    obtain ⟨s₃, hfs₂, hs₃, hlater₃⟩ := hfagain s₂ rest hs₂ hrest
    exact ⟨s₃, bind_eq_ok_iff.mpr ⟨a, s₂, hps₁, hfs₂⟩, hs₃,
      by rw [hlater₃, hmore₂, List.append_assoc]⟩

/-- A sequence of two readers, the first of which does not look ahead. -/
theorem Local.then {p : Scan α} {f : α → Scan β} {D : List Token → Prop} (hp : Local p Anything)
    (hf : ∀ a, Local (f a) D) : Local (p >>= f) D :=
  hp.bind hf fun _ _ _ _ _ _ _ _ _ => trivial

/-! ## Headers -/

/-- An expected name does not depend on what follows it. -/
theorem local_expectIdentifier (role : String) : Local (expectIdentifier role) Anything :=
  (accepts_expectIdentifier role).local (keepsStrays_expectIdentifier role) fun _ _ _ _ h _ => h

/-- What a token starts in a header is read again before everything. -/
theorem local_headerPart (strict : Bool) (h : Header) (t : Token) :
    Local (headerPart strict h t) Anything := by
  unfold headerPart
  cases t.clause? with
  | none =>
      dsimp only
      unfold tolerate
      split
      · exact (stops_fail _ _).local _
      · intro s s' h' hs
        cases hs
        exact ⟨[], [⟨h.subject, t⟩], rfl, rfl, fun s₁ rest hs₁ _ => ⟨_, rfl, hs₁, rfl⟩⟩
  | some c =>
      dsimp only
      cases h.objection? c with
      | some fault => exact (stops_fail _ _).local _
      | none =>
          cases c with
          | parent => exact (local_expectIdentifier _).then fun _ => local_pure _
          | replaces => exact (local_expectIdentifier _).then fun _ => local_pure _
          | native => exact local_pure _

/-- An opening brace ends the header parts. -/
theorem clauses_of_startsWith (strict : Bool) (n : Nat) (h : Header) {s : State} {rest : List Token}
    (hs : s.pending = rest) (hrest : startsWith .openCurly rest = true) :
    ∃ s', clauses strict n h s = .ok h s' ∧ s'.pending = rest ∧ s'.strays = s.strays := by
  cases n with
  | zero => exact ⟨s, rfl, hs, rfl⟩
  | succ n =>
      cases rest with
      | nil => cases hrest
      | cons u rest =>
          rw [startsWith_cons, Bool.and_eq_true, decide_eq_true_eq] at hrest
          refine ⟨_, clauses_of_openCurly hs hrest.1 hrest.2, ?_, rfl⟩
          rw [State.pending_afterSkip, hs]

/-- Header parts are read again before an opening brace. -/
theorem local_clauses (strict : Bool) (n : Nat) (h : Header) :
    Local (clauses strict n h) fun rest => startsWith .openCurly rest = true := by
  induction n generalizing h with
  | zero => exact (local_pure h).mono fun _ _ => trivial
  | succ n ih =>
      -- Where there are no parts, an opening brace ends them as well.
      have hbrace : ∀ (s₁ : State) (rest : List Token), s₁.pending = rest →
          startsWith .openCurly rest = true → ∃ s₂, clauses strict (n + 1) h s₁ = .ok h s₂ ∧
            s₂.pending = rest ∧ s₂.strays = s₁.strays ++ [] := fun s₁ rest hs₁ hrest => by
        simpa using clauses_of_startsWith strict (n + 1) h hs₁ hrest
      intro s s' h' hs
      have hskip := s.pending_afterSkip
      cases hp : s.pending with
      | nil =>
          rw [clauses_of_pending_eq_nil hp] at hs
          cases hs
          refine ⟨[], [], by rw [hskip, hp]; rfl, (List.append_nil _).symm,
            fun s₁ rest hs₁ hrest => ?_⟩
          rw [hskip, hp] at hrest
          rcases hrest with hrest | hhead
          · exact hbrace s₁ rest hs₁ hrest
          · obtain rfl := List.head?_eq_none_iff.mp hhead
            refine ⟨_, clauses_of_pending_eq_nil hs₁, ?_, (List.append_nil _).symm⟩
            rw [State.pending_afterSkip, hs₁]
            rfl
      | cons t tail =>
          cases hvalid : t.valid with
          | false =>
              rw [clauses_of_not_valid hp hvalid] at hs
              cases hs
          | true =>
              by_cases hkind : t.kind = .openCurly
              · rw [clauses_of_openCurly hp hvalid hkind] at hs
                cases hs
                refine ⟨[], [], by rw [hskip, hp]; rfl, (List.append_nil _).symm,
                  fun s₁ rest hs₁ hrest => hbrace s₁ rest hs₁ ?_⟩
                rcases hrest with hrest | hhead
                · exact hrest
                · rw [startsWith_of_head? hhead, hskip, hp, startsWith_cons, hvalid, hkind]
                  rfl
              · rw [clauses_of_valid hp hvalid hkind] at hs
                obtain ⟨used, strays, hused, hstrays, hagain⟩ :=
                  ((local_headerPart strict h t).then ih) _ _ _ hs
                rw [State.pending_afterNext, hskip, hp, List.tail_cons] at hused
                refine ⟨t :: used, strays, by rw [hused]; rfl, hstrays, fun s₁ rest hs₁ hrest => ?_⟩
                rw [clauses_of_valid hs₁ hvalid hkind]
                refine hagain _ rest ?_ hrest
                rw [State.pending_afterNext, State.pending_afterSkip, hs₁]
                rfl

/-- A header is read again wherever an opening brace follows it. -/
theorem local_header (strict : Bool) (kind : TypeKind) :
    Local (header strict kind) fun rest => startsWith .openCurly rest = true :=
  (local_expectIdentifier _).then fun _ => local_clauses _ _ _

end Scan

/-! ## Items -/

namespace Item

open Scan Grammar

variable {strict : Bool} {source : String}

/-- Does no semicolon come next? -/
abbrev NoSemicolon : List Token → Prop := fun rest => startsWith .semicolon rest = false

/-- A semicolon that is taken, or left out, is so before everything that may follow. -/
theorem takesSemicolon_of_mayFollow {tail rest rest' : List Token} (h : TakesSemicolon tail rest)
    (hrest : MayFollow NoSemicolon rest rest') : TakesSemicolon tail rest' := by
  rcases h with htaken | ⟨rfl, hnone⟩
  · exact .inl htaken
  · refine .inr ⟨rfl, ?_⟩
    rcases hrest with hnone' | hhead
    · exact hnone'
    · rw [startsWith_of_head? hhead, hnone]

/-- A block is taken again if what follows shows the same first token, or no semicolon. -/
theorem takesBlock_of_mayFollow {used body rest rest' : List Token} (h : TakesBlock used body rest)
    (hrest : MayFollow NoSemicolon rest rest') : TakesBlock used body rest' := by
  obtain ⟨left, right, tail, hused, hleft, hbody, hright, htail⟩ := h
  exact ⟨left, right, tail, hused, hleft, hbody, hright, takesSemicolon_of_mayFollow htail hrest⟩

/-- A block is read again wherever no semicolon follows it. -/
theorem local_block : Local block NoSemicolon :=
  accepts_block.local keepsStrays_block fun _ _ _ _ => takesBlock_of_mayFollow

/-- A block starts with its opening brace. -/
theorem startsWith_openCurly_of_block {s s' : State} {body used : List Token}
    (h : block s = .ok body s') (hused : s.pending = used ++ s'.pending) (rest : List Token) :
    startsWith .openCurly (used ++ rest) = true := by
  obtain ⟨used', hused', hvalid, left, right, tail, rfl, hleft, -⟩ := accepts_block.of_ok h
  obtain rfl := List.append_cancel_right (hused.symm.trans hused')
  have hok := hvalid left List.mem_cons_self
  simp [hleft, hok]

/-- A class or structure is read again wherever no semicolon follows it. -/
theorem local_typeDeclaration (kind : TypeKind) :
    Local (typeDeclaration strict source kind) NoSemicolon := by
  refine (local_header strict kind).bind (fun h => local_block.bind
    (fun body => (local_pure _).mono fun _ _ => trivial) ?_) ?_
  · intro body s s' item used rest hpure hused hrest
    cases hpure
    rwa [List.self_eq_append_left.mp hused]
  · intro h s s' item used rest hblock hused _
    obtain ⟨body, s₁, hblock, hpure⟩ := bind_eq_ok_iff.mp hblock
    cases hpure
    exact startsWith_openCurly_of_block hblock hused rest

/-- What the first token of an item starts is read again before everything but a semicolon. -/
theorem local_startingWith (t : Token) : Local (startingWith strict source t) NoSemicolon := by
  unfold startingWith
  split
  · exact accepts_directive.local keepsStrays_directive fun _ _ _ _ h _ => h
  · split
    · exact local_typeDeclaration _
    · exact local_typeDeclaration _
    · exact accepts_constant.local (keepsStrays_constant source) fun _ _ _ _ h _ => h
    · refine accepts_enumeration.local (keepsStrays_enumeration source) ?_
      rintro used item rest rest' ⟨name, block, body, rfl, hname, hblock, rfl⟩ hrest
      exact ⟨name, block, body, rfl, hname, takesBlock_of_mayFollow hblock hrest, rfl⟩
    · refine accepts_versionDirective.local keepsStrays_versionDirective ?_
      rintro used item rest rest' ⟨text, tail, rfl, htext, htail, rfl⟩ hrest
      exact ⟨text, tail, rfl, htext, takesSemicolon_of_mayFollow htail hrest, rfl⟩
    · exact (local_pure _).mono fun _ _ => trivial
  · exact (stops_fail _ _).local _
  · exact (stops_fail _ _).local _
  · exact (stops_fail _ _).local _

/-- **An item is read again** where the same tokens stand before anything but a semicolon, or before
the token that stood behind them, and the same stray tokens are met. -/
theorem local_next? {s s' : State} {item : Item}
    (h : next? strict source s = .ok (some item) s') :
    ∃ used strays, s.pending = used ++ s'.pending ∧ s'.strays = s.strays ++ strays ∧
      ∀ (s₁ : State) (rest : List Token), s₁.pending = used ++ rest →
        MayFollow NoSemicolon s'.pending rest →
        ∃ s₂, next? strict source s₁ = .ok (some item) s₂ ∧ s₂.pending = rest ∧
          s₂.strays = s₁.strays ++ strays := by
  have hafter := s.pending_afterNext
  cases hs : s.pending with
  | nil =>
      rw [next?_of_pending_eq_nil hs] at h
      cases h
  | cons t tail =>
      rw [next?_of_pending_eq_cons hs] at h
      obtain ⟨found, s₂, hstart, h⟩ := bind_eq_ok_iff.mp h
      cases h
      unfold startingAt at hstart
      split at hstart
      · next hvalid =>
          obtain ⟨used, strays, hused, hstrays, hagain⟩ := local_startingWith t _ _ _ hstart
          rw [hafter, hs, List.tail_cons] at hused
          refine ⟨t :: used, strays, by rw [hused]; rfl, hstrays, fun s₁ rest hs₁ hrest => ?_⟩
          have hafter₁ : s₁.afterNext.pending = used ++ rest := by
            rw [s₁.pending_afterNext, hs₁]
            rfl
          obtain ⟨s₃, hstart₃, hs₃, hstrays₃⟩ := hagain s₁.afterNext rest hafter₁ hrest
          refine ⟨s₃, ?_, hs₃, hstrays₃⟩
          rw [next?_of_pending_eq_cons hs₁]
          refine bind_eq_ok_iff.mpr ⟨item, s₃, ?_, rfl⟩
          rw [startingAt, if_pos hvalid, hstart₃]
      · cases hstart

end Item

end ZDecl
