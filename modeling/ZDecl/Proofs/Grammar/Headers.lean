import ZDecl.Proofs.Grammar.Nesting

/-!
# Headers follow the order of their parts

The reader of headers asks before every part whether the header read so far can take it. The grammar
puts a condition on pairs of parts. The two agree, and the bound on the number of parts is the same.

* `HeaderPart.Admissible`: may a header take one more part? `admissible_addTo` splits the question
  for a longer header into that for the shorter one and the order of two parts.
* `admissibleAll_iff`: every part is admissible in its turn if and only if all are admissible at
  the start and their order is right.
* `HeaderPart.cases_of_tokens`: what a part is, by its first token.
* `TakesParts`: the parts that are read one after the other, and `takesParts_iff`: all at once.
* **`accepts_header`**: what the reader of headers accepts.
-/

namespace ZDecl.Grammar

open Scan

namespace HeaderPart

/-! ## Parts and the tokens that start them -/

/-- The clause that the part is, if it is one. -/
def clause? : HeaderPart → Option Clause
  | parent _ _ => some .parent
  | replaces _ _ => some .replaces
  | native _ => some .native
  | other _ => none

/-- Every part has a token. -/
theorem tokens_ne_nil (part : HeaderPart) : part.tokens ≠ [] := by
  cases part <;> exact List.cons_ne_nil _ _

/-- A word is no colon. -/
theorem kind_ne_colon_of_isWord {t : Token} {word : String} (h : t.isWord word = true) :
    t.kind ≠ .colon := by
  rw [(Token.isWord_eq_true_iff.mp h).1]
  decide

/-- A colon, and nothing else, starts the clause of a parent. -/
theorem clause?_eq_parent_iff {t : Token} : t.clause? = some .parent ↔ t.kind = .colon := by
  unfold Token.clause?
  split
  · next h => simp [h]
  · next h =>
      simp only [h, iff_false]
      split <;> simp

/-- The clause of a replaced class starts with its word. -/
theorem clause?_eq_replaces_iff {t : Token} :
    t.clause? = some .replaces ↔ t.isWord "replaces" = true := by
  have hword : t.isWord "replaces" = true ↔ t.keyword? = some .replacesWord :=
    (Token.keyword?_eq_some_iff (k := .replacesWord)).symm
  unfold Token.clause?
  split
  · next h => exact iff_of_false (by simp) fun hr => kind_ne_colon_of_isWord hr h
  · rw [hword]
    generalize t.keyword? = keyword
    rcases keyword with _ | keyword
    · simp
    · cases keyword <;> simp

/-- The mark for native types is its word. -/
theorem clause?_eq_native_iff {t : Token} :
    t.clause? = some .native ↔ t.isWord "native" = true := by
  have hword : t.isWord "native" = true ↔ t.keyword? = some .nativeWord :=
    (Token.keyword?_eq_some_iff (k := .nativeWord)).symm
  unfold Token.clause?
  split
  · next h => exact iff_of_false (by simp) fun hr => kind_ne_colon_of_isWord hr h
  · rw [hword]
    generalize t.keyword? = keyword
    rcases keyword with _ | keyword
    · simp
    · cases keyword <;> simp

/-- A token starts no clause if it is none of the three tokens that do. -/
theorem clause?_eq_none_iff {t : Token} :
    t.clause? = none ↔ t.kind ≠ .colon ∧ t.isWord "replaces" = false ∧
      t.isWord "native" = false := by
  rw [← Bool.not_eq_true, ← Bool.not_eq_true, ne_eq, ← clause?_eq_parent_iff,
    ← clause?_eq_replaces_iff, ← clause?_eq_native_iff]
  cases t.clause? with
  | none => simp
  | some c => cases c <;> simp

/-- What a part is, by its first token. -/
theorem cases_of_tokens {part : HeaderPart} {t : Token} {used : List Token}
    (hpart : part.WellFormed) (ht : part.tokens = t :: used) :
    (∃ name, t.clause? = some .parent ∧ part = .parent t name ∧ used = [name] ∧
      name.kind = .identifier) ∨
    (∃ name, t.clause? = some .replaces ∧ part = .replaces t name ∧ used = [name] ∧
      name.kind = .identifier) ∨
    (t.clause? = some .native ∧ part = .native t ∧ used = []) ∨
    (t.clause? = none ∧ part = .other t ∧ used = []) := by
  cases part with
  | parent colon name =>
      obtain ⟨rfl, rfl⟩ := List.cons.inj ht
      exact .inl ⟨name, clause?_eq_parent_iff.mpr hpart.1, rfl, rfl, hpart.2⟩
  | replaces word name =>
      obtain ⟨rfl, rfl⟩ := List.cons.inj ht
      exact .inr (.inl ⟨name, clause?_eq_replaces_iff.mpr hpart.1, rfl, rfl, hpart.2⟩)
  | native word =>
      obtain ⟨rfl, rfl⟩ := List.cons.inj ht
      exact .inr (.inr (.inl ⟨clause?_eq_native_iff.mpr hpart, rfl, rfl⟩))
  | other u =>
      obtain ⟨rfl, rfl⟩ := List.cons.inj ht
      exact .inr (.inr (.inr ⟨clause?_eq_none_iff.mpr hpart.2, rfl, rfl⟩))

/-- The first token of a part says which clause it is. -/
theorem clause?_eq_of_tokens {part : HeaderPart} {t : Token} {used : List Token}
    (hpart : part.WellFormed) (ht : part.tokens = t :: used) : t.clause? = part.clause? := by
  rcases cases_of_tokens hpart ht with
    ⟨_, hc, rfl, -⟩ | ⟨_, hc, rfl, -⟩ | ⟨hc, rfl, -⟩ | ⟨hc, rfl, -⟩
  · exact hc
  · exact hc
  · exact hc
  · exact hc

/-- No part starts with an opening brace. -/
theorem kind_ne_openCurly_of_tokens {part : HeaderPart} {t : Token} {used : List Token}
    (hpart : part.WellFormed) (ht : part.tokens = t :: used) : t.kind ≠ .openCurly := by
  cases part with
  | parent colon name =>
      obtain ⟨rfl, -⟩ := List.cons.inj ht
      rw [hpart.1]
      decide
  | replaces word name =>
      obtain ⟨rfl, -⟩ := List.cons.inj ht
      rw [(Token.isWord_eq_true_iff.mp hpart.1).1]
      decide
  | native word =>
      obtain ⟨rfl, -⟩ := List.cons.inj ht
      rw [(Token.isWord_eq_true_iff.mp hpart).1]
      decide
  | other u =>
      obtain ⟨rfl, -⟩ := List.cons.inj ht
      exact hpart.1

/-! ## Which parts a header can take -/

/-- May the header take the part? -/
def Admissible (strict : Bool) (h : Header) : HeaderPart → Prop
  | parent _ _ => h.parent = none ∧ h.replaces = none ∧ h.native = none
  | replaces _ _ => h.replaces = none ∧ h.native = none
  | native _ => h.native = none
  | other _ => strict = true → h.native = none

/-- After one more part, a header takes what it took before and may come after that part. -/
theorem admissible_addTo {strict : Bool} {h : Header} {part next : HeaderPart} :
    next.Admissible strict (part.addTo h) ↔
      next.Admissible strict h ∧ part.MayPrecede strict next := by
  cases part <;> cases next <;> cases strict <;> simp [Admissible, addTo, MayPrecede]

/-- May the header take the parts, one after the other? -/
def AdmissibleAll (strict : Bool) : Header → List HeaderPart → Prop
  | _, [] => True
  | h, part :: parts => part.Admissible strict h ∧ AdmissibleAll strict (part.addTo h) parts

/-- Parts are admissible one after the other if each is at the start and their order is right. -/
theorem admissibleAll_iff {strict : Bool} {h : Header} {parts : List HeaderPart} :
    AdmissibleAll strict h parts ↔
      (∀ part ∈ parts, part.Admissible strict h) ∧ parts.Pairwise (MayPrecede strict) := by
  induction parts generalizing h with
  | nil => simp [AdmissibleAll]
  | cons part parts ih =>
      rw [AdmissibleAll, ih, List.forall_mem_cons, List.pairwise_cons]
      simp only [admissible_addTo]
      constructor
      · rintro ⟨hpart, hall, horder⟩
        exact ⟨⟨hpart, fun p hp => (hall p hp).1⟩, fun p hp => (hall p hp).2, horder⟩
      · rintro ⟨⟨hpart, hall⟩, hfirst, horder⟩
        exact ⟨hpart, fun p hp => ⟨hall p hp, hfirst p hp⟩, horder⟩

/-- A header without clauses takes any part. -/
theorem admissible_ofName (strict : Bool) (kind : TypeKind) (name : Token) (part : HeaderPart) :
    part.Admissible strict (Header.ofName kind name) := by
  cases part <;> simp [Admissible, Header.ofName]

end HeaderPart

open HeaderPart

/-! ## What the reader of headers accepts -/

/-- What speaks against a clause is just what makes it inadmissible. -/
theorem objection?_eq_none_iff {strict : Bool} {h : Header} {part : HeaderPart} {c : Clause}
    (hc : part.clause? = some c) : h.objection? c = none ↔ part.Admissible strict h := by
  cases part <;> cases hc <;> cases hp : h.parent <;> cases hr : h.replaces <;>
    cases hn : h.native <;> simp [Header.objection?, Admissible, hp, hr, hn]

/-- The reader of a clause accepts the rest of that clause. -/
theorem accepts_clause (h : Header) {t : Token} {c : Clause} (ht : t.clause? = some c) :
    Accepts (clause h t c) fun used h' _ => ∃ part : HeaderPart, part.tokens = t :: used ∧
      part.WellFormed ∧ h' = part.addTo h := by
  cases c with
  | parent =>
      refine ((accepts_expectIdentifier _).bind fun name => accepts_pure _).congr
        fun used h' rest => ?_
      constructor
      · rintro ⟨_, name, _, rfl, ⟨rfl, hname⟩, rfl, rfl⟩
        exact ⟨.parent t name, rfl, ⟨clause?_eq_parent_iff.mp ht, hname⟩, rfl⟩
      · rintro ⟨part, htokens, hpart, rfl⟩
        rcases cases_of_tokens hpart htokens with
          ⟨name, -, rfl, rfl, hname⟩ | ⟨_, hc, -⟩ | ⟨hc, -⟩ | ⟨hc, -⟩
        · exact ⟨[name], name, [], rfl, ⟨rfl, hname⟩, rfl, rfl⟩
        all_goals cases ht.symm.trans hc
  | replaces =>
      refine ((accepts_expectIdentifier _).bind fun name => accepts_pure _).congr
        fun used h' rest => ?_
      constructor
      · rintro ⟨_, name, _, rfl, ⟨rfl, hname⟩, rfl, rfl⟩
        exact ⟨.replaces t name, rfl, ⟨clause?_eq_replaces_iff.mp ht, hname⟩, rfl⟩
      · rintro ⟨part, htokens, hpart, rfl⟩
        rcases cases_of_tokens hpart htokens with
          ⟨_, hc, -⟩ | ⟨name, -, rfl, rfl, hname⟩ | ⟨hc, -⟩ | ⟨hc, -⟩
        rotate_left
        · exact ⟨[name], name, [], rfl, ⟨rfl, hname⟩, rfl, rfl⟩
        all_goals cases ht.symm.trans hc
  | native =>
      refine (accepts_pure _).congr fun used h' rest => ?_
      constructor
      · rintro ⟨rfl, rfl⟩
        exact ⟨.native t, rfl, clause?_eq_native_iff.mp ht, rfl⟩
      · rintro ⟨part, htokens, hpart, rfl⟩
        rcases cases_of_tokens hpart htokens with
          ⟨_, hc, -⟩ | ⟨_, hc, -⟩ | ⟨-, rfl, rfl⟩ | ⟨hc, -⟩
        rotate_left 2
        · exact ⟨rfl, rfl⟩
        all_goals cases ht.symm.trans hc

/-- The reader of what a token starts in a header accepts the rest of an admissible part. -/
theorem accepts_headerPart (strict : Bool) (h : Header) {t : Token} (ht : t.kind ≠ .openCurly) :
    Accepts (headerPart strict h t) fun used h' _ => ∃ part : HeaderPart,
      part.tokens = t :: used ∧ part.WellFormed ∧ part.Admissible strict h ∧
        h' = part.addTo h := by
  unfold headerPart
  split
  · next c hc =>
      have hadmissible : ∀ {part : HeaderPart} {used}, part.WellFormed → part.tokens = t :: used →
          (h.objection? c = none ↔ part.Admissible strict h) := fun hpart htokens =>
        objection?_eq_none_iff ((clause?_eq_of_tokens hpart htokens).symm.trans hc)
      split
      · next fault hfault =>
          refine (stops_fail _ _).accepts.congr fun used h' rest => ?_
          constructor
          · exact False.elim
          · rintro ⟨part, htokens, hpart, hadm, -⟩
            rw [(hadmissible hpart htokens).mpr hadm] at hfault
            cases hfault
      · next hfault =>
          refine (accepts_clause h hc).congr fun used h' rest => ?_
          constructor
          · rintro ⟨part, htokens, hpart, rfl⟩
            exact ⟨part, htokens, hpart, (hadmissible hpart htokens).mp hfault, rfl⟩
          · rintro ⟨part, htokens, hpart, -, rfl⟩
            exact ⟨part, htokens, hpart, rfl⟩
  · next hc =>
      have hother : ∀ {part : HeaderPart} {used}, part.WellFormed → part.tokens = t :: used →
          part = .other t ∧ used = [] := by
        intro part used hpart htokens
        rcases cases_of_tokens hpart htokens with
          ⟨_, hc', -⟩ | ⟨_, hc', -⟩ | ⟨hc', -⟩ | ⟨-, hother, hused⟩
        rotate_left 3
        · exact ⟨hother, hused⟩
        all_goals cases hc.symm.trans hc'
      unfold tolerate
      split
      · next hstrict =>
          refine (stops_fail _ _).accepts.congr fun used h' rest => ?_
          constructor
          · exact False.elim
          · rintro ⟨part, htokens, hpart, hadm, -⟩
            obtain ⟨rfl, -⟩ := hother hpart htokens
            rw [Bool.and_eq_true] at hstrict
            rw [hadm hstrict.1] at hstrict
            exact absurd hstrict.2 (by simp)
      · next hstrict =>
          have hkeep : Accepts (do keepStray ⟨h.subject, t⟩; return h) fun used h' _ =>
              used = [] ∧ h' = h := by
            intro s h' rest
            constructor
            · rintro ⟨s', hs', rfl⟩
              cases hs'
              exact ⟨[], rfl, by simp, rfl, rfl⟩
            · rintro ⟨_, hs, -, rfl, rfl⟩
              exact ⟨_, rfl, hs⟩
          refine hkeep.congr fun used h' rest => ?_
          constructor
          · rintro ⟨rfl, rfl⟩
            refine ⟨.other t, rfl, ⟨ht, clause?_eq_none_iff.mp hc⟩, fun hs => ?_, rfl⟩
            simpa [hs] using hstrict
          · rintro ⟨part, htokens, hpart, -, rfl⟩
            obtain ⟨rfl, rfl⟩ := hother hpart htokens
            exact ⟨rfl, rfl⟩

section Next

variable {strict : Bool} {n : Nat} {h : Header} {s : State} {t : Token} {tail : List Token}

/-- Header parts end where the stream does. -/
theorem clauses_of_pending_eq_nil (hs : s.pending = []) :
    clauses strict (n + 1) h s = .ok h s.afterSkip := by
  rw [clauses, bind_of_ok (peek_eq s), hs]
  rfl

/-- What the next significant token makes of header parts. -/
theorem clauses_of_pending_eq_cons (hs : s.pending = t :: tail) :
    clauses strict (n + 1) h s =
      if t.valid && t.kind = .openCurly then .ok h s.afterSkip
      else if t.valid then
        (headerPart strict h t >>= fun h' => clauses strict n h') s.afterSkip.afterNext
      else failAt t s.afterSkip.afterNext := by
  rw [clauses, bind_of_ok (peek_eq s), hs]
  dsimp only [List.head?_cons]
  split
  · rfl
  · rw [next_bind_eq]
    cases t.valid with
    | true => rfl
    | false => rfl

/-- Header parts end at an opening brace. -/
theorem clauses_of_openCurly (hs : s.pending = t :: tail) (hvalid : t.valid = true)
    (hkind : t.kind = .openCurly) : clauses strict (n + 1) h s = .ok h s.afterSkip := by
  rw [clauses_of_pending_eq_cons hs, if_pos (by simp [hvalid, hkind])]

/-- Any other well-formed token starts a part, and header parts go on behind it. -/
theorem clauses_of_valid (hs : s.pending = t :: tail) (hvalid : t.valid = true)
    (hkind : t.kind ≠ .openCurly) : clauses strict (n + 1) h s =
      (headerPart strict h t >>= fun h' => clauses strict n h') s.afterSkip.afterNext := by
  rw [clauses_of_pending_eq_cons hs, if_neg (by simp [hkind]), if_pos hvalid]

/-- Header parts stop at an ill-formed token. -/
theorem clauses_of_not_valid (hs : s.pending = t :: tail) (hvalid : t.valid = false) :
    clauses strict (n + 1) h s = failAt t s.afterSkip.afterNext := by
  rw [clauses_of_pending_eq_cons hs, if_neg (by simp [hvalid]), if_neg (by simp [hvalid])]

end Next

/-- What the reader of header parts accepts, part by part: each is one that the header can take in
its turn. The parts stop at an opening brace, at the end, or after as many as may be read. -/
inductive TakesParts (strict : Bool) :
    Nat → Header → List Token → Header → List Token → Prop where
  /-- No more parts may be read. -/
  | full {h : Header} {rest : List Token} : TakesParts strict 0 h [] h rest
  /-- There are no more parts. -/
  | stop {n : Nat} {h : Header} {rest : List Token}
      (hrest : rest = [] ∨ startsWith .openCurly rest = true) :
      TakesParts strict (n + 1) h [] h rest
  /-- A part and those after it. -/
  | part {n : Nat} {h h' : Header} {part : HeaderPart} {more rest : List Token}
      (hpart : part.WellFormed) (hadmissible : part.Admissible strict h)
      (hmore : TakesParts strict n (part.addTo h) more h' rest) :
      TakesParts strict (n + 1) h (part.tokens ++ more) h' rest

/-- The parts that are read one by one, all at once. -/
theorem takesParts_iff {strict : Bool} {n : Nat} {h h' : Header} {used rest : List Token} :
    TakesParts strict n h used h' rest ↔ ∃ parts : List HeaderPart,
      used = parts.flatMap tokens ∧ (∀ part ∈ parts, part.WellFormed) ∧
        AdmissibleAll strict h parts ∧ h' = parts.foldl addTo h ∧ parts.length ≤ n ∧
          (parts.length = n ∨ rest = [] ∨ startsWith .openCurly rest = true) := by
  constructor
  · intro htakes
    induction htakes with
    | full => exact ⟨[], rfl, by simp, trivial, rfl, Nat.le_refl 0, .inl rfl⟩
    | stop hrest => exact ⟨[], rfl, by simp, trivial, rfl, Nat.zero_le _, .inr hrest⟩
    | @part n _ _ part _ _ hpart hadmissible _ ih =>
        obtain ⟨parts, rfl, hparts, hall, rfl, hlength, hstop⟩ := ih
        refine ⟨part :: parts, rfl, List.forall_mem_cons.mpr ⟨hpart, hparts⟩,
          ⟨hadmissible, hall⟩, rfl, ?_, ?_⟩
        · rw [List.length_cons]
          omega
        · rw [List.length_cons]
          exact hstop.imp (fun hlen => by omega) id
  · rintro ⟨parts, rfl, hparts, hall, rfl, hlength, hstop⟩
    induction parts generalizing n h with
    | nil =>
        cases n with
        | zero => exact .full
        | succ n =>
            rcases hstop with hlen | hrest
            · cases hlen
            · exact .stop hrest
    | cons part parts ih =>
        obtain ⟨hpart, hparts⟩ := List.forall_mem_cons.mp hparts
        rw [List.length_cons] at hlength hstop
        cases n with
        | zero => omega
        | succ n =>
            exact .part hpart hall.1 (ih hparts hall.2 (by omega)
              (hstop.imp (fun hlen => by omega) id))

/-- Where a token comes next that is no opening brace, parts go on with the one that it starts. -/
theorem TakesParts.exists_part {strict : Bool} {n : Nat} {h h' : Header} {t : Token}
    {tail used rest : List Token} (htakes : TakesParts strict (n + 1) h used h' rest)
    (htokens : t :: tail = used ++ rest) (hcurly : ¬(t.valid = true ∧ t.kind = .openCurly)) :
    ∃ (part : HeaderPart) (left more : List Token), part.tokens = t :: left ∧
      used = t :: (left ++ more) ∧ part.WellFormed ∧ part.Admissible strict h ∧
        TakesParts strict n (part.addTo h) more h' rest := by
  cases htakes with
  | stop hrest =>
      rw [List.nil_append] at htokens
      subst htokens
      rcases hrest with hnil | hstart
      · cases hnil
      · exact absurd (by simpa using hstart) hcurly
  | @part _ _ _ part more _ hpart hadmissible hmore =>
      obtain ⟨u, left, hu⟩ := List.exists_cons_of_ne_nil part.tokens_ne_nil
      rw [hu, List.cons_append, List.cons_append] at htokens
      obtain ⟨rfl, -⟩ := List.cons.inj htokens
      exact ⟨part, left, more, hu, by rw [hu, List.cons_append], hpart, hadmissible, hmore⟩

/-- Where the stream ends or an opening brace comes next, there are no more parts. -/
theorem TakesParts.eq_nil {strict : Bool} {n : Nat} {h h' : Header} {used rest : List Token}
    (htakes : TakesParts strict (n + 1) h used h' rest)
    (hstop : used ++ rest = [] ∨ startsWith .openCurly (used ++ rest) = true) :
    used = [] ∧ h' = h := by
  cases htakes with
  | stop _ => exact ⟨rfl, rfl⟩
  | @part _ _ _ part more _ hpart _ _ =>
      obtain ⟨u, left, hu⟩ := List.exists_cons_of_ne_nil part.tokens_ne_nil
      rw [hu, List.cons_append, List.cons_append] at hstop
      rcases hstop with hnil | hstart
      · cases hnil
      · have hkind := kind_ne_openCurly_of_tokens hpart hu
        exact absurd hstart (by simp [hkind])

/-- The reader of header parts accepts the parts that the header can take in their turn. -/
theorem accepts_clauses (strict : Bool) (n : Nat) (h : Header) :
    Accepts (clauses strict n h) (TakesParts strict n h) := by
  induction n generalizing h with
  | zero =>
      refine (accepts_pure h).congr fun used h' rest => ?_
      constructor
      · rintro ⟨rfl, rfl⟩
        exact .full
      · intro htakes
        cases htakes
        exact ⟨rfl, rfl⟩
  | succ n ih =>
      intro s h' rest
      have hskip := s.pending_afterSkip
      -- what comes next decides whether the parts end, go on or fail
      cases hs : s.pending with
      | nil =>
          rw [clauses_of_pending_eq_nil hs]
          rw [hs] at hskip
          constructor
          · rintro ⟨s', hs', rfl⟩
            cases hs'
            exact ⟨[], hskip.symm, by simp, .stop (.inl hskip)⟩
          · rintro ⟨used, hused, -, htakes⟩
            obtain ⟨rfl, rfl⟩ := htakes.eq_nil (.inl hused.symm)
            exact ⟨_, rfl, hskip.trans hused⟩
      | cons t tail =>
          rw [hs] at hskip
          have hafter : s.afterSkip.afterNext.pending = tail := by
            rw [State.pending_afterNext, hskip, List.tail_cons]
          by_cases hcurly : t.valid = true ∧ t.kind = .openCurly
          · rw [clauses_of_openCurly hs hcurly.1 hcurly.2]
            have hstart : startsWith .openCurly (t :: tail) = true := by simp [hcurly]
            constructor
            · rintro ⟨s', hs', rfl⟩
              cases hs'
              exact ⟨[], hskip.symm, by simp, .stop (.inr (hskip ▸ hstart))⟩
            · rintro ⟨used, hused, -, htakes⟩
              obtain ⟨rfl, rfl⟩ := htakes.eq_nil (.inr (hused ▸ hstart))
              exact ⟨_, rfl, hskip.trans hused⟩
          · cases hvalid : t.valid with
            | false =>
                rw [clauses_of_not_valid hs hvalid]
                constructor
                · rintro ⟨s', hs', -⟩
                  cases hs'
                · rintro ⟨used, hused, hv, htakes⟩
                  obtain ⟨_, _, _, -, rfl, -⟩ := htakes.exists_part hused hcurly
                  rw [hv t List.mem_cons_self] at hvalid
                  cases hvalid
            | true =>
                have hkind : t.kind ≠ .openCurly := fun hkind => hcurly ⟨hvalid, hkind⟩
                rw [clauses_of_valid hs hvalid hkind,
                  (accepts_headerPart strict h hkind).bind (fun h' => ih h') _ h' rest, hafter]
                constructor
                · rintro ⟨_, rfl, hv, left, _, more, rfl, ⟨part, hleft, hpart, hadm, rfl⟩, hmore⟩
                  refine ⟨part.tokens ++ more, ?_, ?_, .part hpart hadm hmore⟩
                  · rw [hleft]
                    rfl
                  · rw [hleft]
                    exact List.forall_mem_cons.mpr ⟨hvalid, hv⟩
                · rintro ⟨used, hused, hv, htakes⟩
                  obtain ⟨part, left, more, hleft, rfl, hpart, hadm, hmore⟩ :=
                    htakes.exists_part hused hcurly
                  have hleftValid := (List.forall_mem_cons.mp hv).2
                  exact ⟨left ++ more, (List.cons.inj hused).2, hleftValid, left, part.addTo h,
                    more, rfl, ⟨part, hleft, hpart, hadm, rfl⟩, hmore⟩

/-- **What the reader of headers accepts**: a name and at most four parts in order. It stops at an
opening brace, at the end, or after the fourth part. -/
theorem accepts_header (strict : Bool) (kind : TypeKind) :
    Accepts (header strict kind) fun used h rest => ∃ (name : Token) (parts : List HeaderPart),
      used = name :: parts.flatMap tokens ∧ name.kind = .identifier ∧ parts.length ≤ 4 ∧
        (∀ part ∈ parts, part.WellFormed) ∧ parts.Pairwise (MayPrecede strict) ∧
          h = headerOf kind name parts ∧
            (parts.length = 4 ∨ rest = [] ∨ startsWith .openCurly rest = true) := by
  refine ((accepts_expectIdentifier _).bind fun name =>
    accepts_clauses strict maxClauses (Header.ofName kind name)).congr fun used h rest => ?_
  constructor
  · rintro ⟨_, name, _, rfl, ⟨rfl, hname⟩, htakes⟩
    obtain ⟨parts, rfl, hparts, hall, rfl, hlength, hstop⟩ := takesParts_iff.mp htakes
    exact ⟨name, parts, rfl, hname, hlength, hparts, (admissibleAll_iff.mp hall).2, rfl, hstop⟩
  · rintro ⟨name, parts, rfl, hname, hlength, hparts, horder, rfl, hstop⟩
    have hall : AdmissibleAll strict (Header.ofName kind name) parts :=
      admissibleAll_iff.mpr ⟨fun part _ => admissible_ofName strict kind name part, horder⟩
    have htakes := takesParts_iff.mpr ⟨parts, rfl, hparts, hall, rfl, hlength, hstop⟩
    exact ⟨[name], name, parts.flatMap tokens, rfl, ⟨rfl, hname⟩, htakes⟩

end ZDecl.Grammar
