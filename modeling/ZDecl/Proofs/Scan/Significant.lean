import ZDecl.Scan.Run

/-!
# Readers and the significant tokens

Readers pass over white space and comments, so what they accept is decided by the tokens that are
left when those are taken out. This file says of every reader on which tokens it succeeds.

* `Scan.State.pending`: the significant tokens still to be read.
* **`Scan.Accepts p P`**: the reader `p` gives `a` and leaves `rest` exactly where some well-formed
  tokens `used` stand before `rest` and `P used a rest` holds. `P` sees `rest` because some readers
  look ahead: an optional semicolon is left alone only if there is none.
* `Scan.Accepts.bind`: what a sequence of two readers accepts.

What two readers leave behind may differ in white space, so `Accepts` speaks about `pending` and not
about cursors.
-/

namespace ZDecl

/-! ## Significant tokens -/

/-- The tokens that readers do not pass over. -/
def unskipped (tokens : List Token) : List Token := tokens.filter fun t => !t.isSkipped

/-- An empty stream has no significant tokens. -/
@[simp] theorem unskipped_nil : unskipped [] = [] := rfl

/-- A token that is passed over is not among the significant ones. -/
theorem unskipped_cons_of_isSkipped {t : Token} (h : t.isSkipped = true) (tokens : List Token) :
    unskipped (t :: tokens) = unskipped tokens := by
  simp [unskipped, h]

/-- A token that is not passed over is the first of the significant ones. -/
theorem unskipped_cons_of_not_isSkipped {t : Token} (h : t.isSkipped = false)
    (tokens : List Token) : unskipped (t :: tokens) = t :: unskipped tokens := by
  simp [unskipped, h]

/-- Passing over the first white space and comments leaves the significant tokens. -/
theorem unskipped_dropWhile (tokens : List Token) :
    unskipped (tokens.dropWhile Token.isSkipped) = unskipped tokens := by
  induction tokens with
  | nil => rfl
  | cons t tokens ih =>
      by_cases h : t.isSkipped = true
      · rw [List.dropWhile_cons_of_pos h, unskipped_cons_of_isSkipped h, ih]
      · rw [List.dropWhile_cons_of_neg h]

/-- The first token that is not passed over comes first when skipping ends. -/
theorem isSkipped_of_dropWhile_eq_cons {t : Token} {tokens rest : List Token}
    (h : tokens.dropWhile Token.isSkipped = t :: rest) : t.isSkipped = false := by
  have hhead := List.head?_dropWhile_not Token.isSkipped tokens
  rwa [h] at hhead

/-- If every token is well formed, exactly white space and comments are passed over. -/
theorem unskipped_of_valid {tokens : List Token} (h : ∀ t ∈ tokens, t.valid = true) :
    unskipped tokens = tokens.filter fun t => !t.isTrivia := by
  refine List.filter_congr fun t ht => ?_
  rw [Token.isSkipped, h t ht, Bool.and_true]

/-- All tokens are well formed if the significant ones are: what is passed over always is. -/
theorem valid_of_unskipped {tokens : List Token} (h : ∀ t ∈ unskipped tokens, t.valid = true) :
    ∀ t ∈ tokens, t.valid = true := by
  intro t ht
  by_cases hskip : t.isSkipped = true
  · exact (Bool.and_eq_true_iff.mp hskip).2
  · exact h t (List.mem_filter.mpr ⟨ht, by simpa using hskip⟩)

namespace Scan

variable {α β : Type}

namespace State

/-- The significant tokens still to be read. -/
def pending (s : State) : List Token := unskipped s.cursor.tokens

/-- The state after the next significant token. -/
def afterNext (s : State) : State := { s with cursor := s.cursor.significant.2 }

/-- The state after white space and comments. -/
def afterSkip (s : State) : State := { s with cursor := s.cursor.skip }

/-- Passing over white space and comments leaves the significant tokens to be read. -/
@[simp] theorem pending_afterSkip (s : State) : s.afterSkip.pending = s.pending :=
  unskipped_dropWhile _

/-- What reading the next significant token gives and what it leaves. -/
theorem significant_fst (s : State) : s.cursor.significant.1 = s.pending.head? ∧
    s.afterNext.pending = s.pending.tail := by
  have hskip := unskipped_dropWhile s.cursor.tokens
  cases h : s.cursor.tokens.dropWhile Token.isSkipped with
  | nil =>
      rw [h] at hskip
      simp [afterNext, pending, Cursor.significant, Cursor.next?, Cursor.skip, h, ← hskip]
  | cons t rest =>
      rw [h, unskipped_cons_of_not_isSkipped (isSkipped_of_dropWhile_eq_cons h)] at hskip
      simp [afterNext, pending, Cursor.significant, Cursor.next?, Cursor.skip, h, ← hskip]

/-- Behind the next significant token, the others are to be read. -/
@[simp] theorem pending_afterNext (s : State) : s.afterNext.pending = s.pending.tail :=
  s.significant_fst.2

end State

/-- The next significant token is read and given, if there is one. -/
theorem next_eq (s : State) : next s = .ok s.pending.head? s.afterNext := by
  rw [← s.significant_fst.1]
  rfl

/-- What reading the next significant token leads to. -/
theorem next_bind_eq (f : Option Token → Scan β) (s : State) :
    (next >>= f) s = f s.pending.head? s.afterNext :=
  bind_of_ok (next_eq s) f

/-- The next significant token is given, and only what stands before it is passed over. -/
theorem peek_eq (s : State) : peek s = .ok s.pending.head? s.afterSkip := by
  have h : s.afterSkip.cursor.peek? = s.pending.head? := by
    have hskip := unskipped_dropWhile s.cursor.tokens
    show (s.cursor.tokens.dropWhile Token.isSkipped).head? = (unskipped s.cursor.tokens).head?
    cases h : s.cursor.tokens.dropWhile Token.isSkipped with
    | nil => rw [← hskip, h]; rfl
    | cons t rest =>
        rw [← hskip, h, unskipped_cons_of_not_isSkipped (isSkipped_of_dropWhile_eq_cons h)]
        rfl
  rw [← h]
  rfl

/-! ## What a reader accepts -/

/-- **What a reader accepts**: it gives `a` and leaves `rest` exactly where well-formed tokens
`used` with `P used a rest` stand before `rest`. -/
def Accepts (p : Scan α) (P : List Token → α → List Token → Prop) : Prop :=
  ∀ (s : State) (a : α) (rest : List Token),
    (∃ s', p s = .ok a s' ∧ s'.pending = rest) ↔
      ∃ used, s.pending = used ++ rest ∧ (∀ t ∈ used, t.valid = true) ∧ P used a rest

/-- The same reader accepts the same under a description that is equivalent on well-formed
tokens. -/
theorem Accepts.congr_of_valid {p : Scan α} {P Q : List Token → α → List Token → Prop}
    (h : Accepts p P)
    (hPQ : ∀ used a rest, (∀ t ∈ used, t.valid = true) → (P used a rest ↔ Q used a rest)) :
    Accepts p Q := by
  intro s a rest
  rw [h s a rest]
  constructor
  · rintro ⟨used, hused, hvalid, hP⟩
    exact ⟨used, hused, hvalid, (hPQ used a rest hvalid).mp hP⟩
  · rintro ⟨used, hused, hvalid, hQ⟩
    exact ⟨used, hused, hvalid, (hPQ used a rest hvalid).mpr hQ⟩

/-- What a reader accepts can be said in other words. -/
theorem Accepts.congr {p : Scan α} {P Q : List Token → α → List Token → Prop} (h : Accepts p P)
    (hPQ : ∀ used a rest, P used a rest ↔ Q used a rest) : Accepts p Q :=
  h.congr_of_valid fun used a rest _ => hPQ used a rest

/-- What a success has read. -/
theorem Accepts.of_ok {p : Scan α} {P : List Token → α → List Token → Prop} (h : Accepts p P)
    {s s' : State} {a : α} (hp : p s = .ok a s') :
    ∃ used, s.pending = used ++ s'.pending ∧ (∀ t ∈ used, t.valid = true) ∧
      P used a s'.pending :=
  (h s a s'.pending).mp ⟨s', hp, rfl⟩

/-- A reader succeeds on what it accepts. -/
theorem Accepts.exists_ok {p : Scan α} {P : List Token → α → List Token → Prop} (h : Accepts p P)
    {s : State} {used rest : List Token} {a : α} (hs : s.pending = used ++ rest)
    (hvalid : ∀ t ∈ used, t.valid = true) (hP : P used a rest) :
    ∃ s', p s = .ok a s' ∧ s'.pending = rest :=
  (h s a rest).mpr ⟨used, hs, hvalid, hP⟩

/-- A result without reading is accepted with no tokens. -/
theorem accepts_pure (a : α) : Accepts (pure a : Scan α) fun used b _ => used = [] ∧ b = a := by
  intro s b rest
  constructor
  · rintro ⟨s', hp, rfl⟩
    cases hp
    exact ⟨[], rfl, by simp, rfl, rfl⟩
  · rintro ⟨_, hs, -, rfl, rfl⟩
    exact ⟨s, rfl, hs⟩

/-- Does the reader stop with a failure wherever it is tried? -/
def Stops (p : Scan α) : Prop := ∀ s : State, ∃ f s', p s = .error f s'

/-- A failure stops the reader. -/
theorem stops_fail (cause : Cause) (span : Span) : Stops (fail cause span : Scan α) :=
  fun s => ⟨_, s, rfl⟩

/-- A failure at an ill-formed token stops the reader. -/
theorem stops_failAt (t : Token) : Stops (failAt t : Scan α) := fun s => ⟨_, s, rfl⟩

/-- A reader that stops everywhere accepts nothing. -/
theorem Stops.accepts {p : Scan α} (h : Stops p) : Accepts p fun _ _ _ => False := by
  intro s a rest
  constructor
  · rintro ⟨s', hp, -⟩
    obtain ⟨f, s'', hf⟩ := h s
    rw [hf] at hp
    cases hp
  · rintro ⟨_, _, _, hfalse⟩
    exact hfalse.elim

/-- **A sequence of two readers** accepts what the first accepts before something that the second
accepts. -/
theorem Accepts.bind {p : Scan α} {f : α → Scan β} {P : List Token → α → List Token → Prop}
    {Q : α → List Token → β → List Token → Prop} (hp : Accepts p P)
    (hf : ∀ a, Accepts (f a) (Q a)) :
    Accepts (p >>= f) fun used b rest =>
      ∃ left a right, used = left ++ right ∧ P left a (right ++ rest) ∧ Q a right b rest := by
  intro s b rest
  constructor
  · rintro ⟨s'', h, rfl⟩
    obtain ⟨a, s', hps, hfs⟩ := bind_eq_ok_iff.mp h
    obtain ⟨left, hleft, hvl, hP⟩ := hp.of_ok hps
    obtain ⟨right, hright, hvr, hQ⟩ := (hf a).of_ok hfs
    refine ⟨left ++ right, ?_, ?_, left, a, right, rfl, ?_, hQ⟩
    · rw [hleft, hright, List.append_assoc]
    · intro t ht
      exact (List.mem_append.mp ht).elim (hvl t) (hvr t)
    · rwa [← hright]
  · rintro ⟨_, hs, hv, left, a, right, rfl, hP, hQ⟩
    rw [List.append_assoc] at hs
    obtain ⟨s', hps, hs'⟩ :=
      hp.exists_ok hs (fun t ht => hv t (List.mem_append_left _ ht)) hP
    obtain ⟨s'', hfs, hs''⟩ :=
      (hf a).exists_ok hs' (fun t ht => hv t (List.mem_append_right _ ht)) hQ
    exact ⟨s'', bind_eq_ok_iff.mpr ⟨a, s', hps, hfs⟩, hs''⟩

/-- What comes after the first significant token, if the stream goes on at all. -/
theorem accepts_next_bind {f : Option Token → Scan β}
    {Q : Token → List Token → β → List Token → Prop} {E : β → Prop}
    (hsome : ∀ t, t.valid = true → Accepts (f (some t)) (Q t))
    (hill : ∀ t, t.valid = false → Stops (f (some t)))
    (hnone : Accepts (f none) fun used b rest => used = [] ∧ rest = [] ∧ E b) :
    Accepts (next >>= f) fun used b rest =>
      (used = [] ∧ rest = [] ∧ E b) ∨ ∃ t more, used = t :: more ∧ Q t more b rest := by
  intro s b rest
  rw [next_bind_eq]
  have hafter := s.pending_afterNext
  cases hs : s.pending with
  | nil =>
      rw [hs] at hafter
      rw [List.head?_nil, hnone s.afterNext b rest, hafter]
      constructor
      · rintro ⟨used, hused, -, rfl, rfl, hE⟩
        exact ⟨[], rfl, by simp, .inl ⟨rfl, rfl, hE⟩⟩
      · rintro ⟨used, hused, hv, ⟨rfl, rfl, hE⟩ | ⟨t, more, rfl, -⟩⟩
        · exact ⟨[], rfl, by simp, rfl, rfl, hE⟩
        · cases hused
  | cons t tail =>
      rw [hs, List.tail_cons] at hafter
      rw [List.head?_cons]
      cases ht : t.valid with
      | false =>
          rw [(hill t ht).accepts s.afterNext b rest]
          constructor
          · rintro ⟨_, _, _, hfalse⟩
            exact hfalse.elim
          · rintro ⟨used, hused, hv, ⟨rfl, rfl, -⟩ | ⟨u, more, rfl, -⟩⟩
            · cases hused
            · obtain ⟨rfl, -⟩ := List.cons.inj hused
              exact absurd (hv t List.mem_cons_self) (by simp [ht])
      | true =>
          rw [hsome t ht s.afterNext b rest, hafter]
          constructor
          · rintro ⟨more, rfl, hv, hQ⟩
            refine ⟨t :: more, rfl, ?_, .inr ⟨t, more, rfl, hQ⟩⟩
            exact fun u hu => (List.mem_cons.mp hu).elim (fun h => h ▸ ht) (hv u)
          · rintro ⟨used, hused, hv, ⟨rfl, rfl, -⟩ | ⟨u, more, rfl, hQ⟩⟩
            · cases hused
            · obtain ⟨rfl, rfl⟩ := List.cons.inj hused
              exact ⟨more, rfl, fun v hv' => hv v (List.mem_cons_of_mem _ hv'), hQ⟩

/-! ## Single tokens -/

/-- A reader that takes one significant token, and stops unless it is a well-formed and good one. -/
theorem accepts_single {f : Option Token → Scan Token} {G : Token → Prop}
    (hgood : ∀ t, t.valid = true → G t → f (some t) = pure t)
    (hbad : ∀ t, ¬(t.valid = true ∧ G t) → Stops (f (some t))) (hnone : Stops (f none)) :
    Accepts (next >>= f) fun used t _ => used = [t] ∧ G t := by
  have h : Accepts (next >>= f) fun used t rest =>
      (used = [] ∧ rest = [] ∧ False) ∨
        ∃ u more, used = u :: more ∧ (more = [] ∧ t = u ∧ G u) := by
    refine accepts_next_bind (fun u hu => ?_) (fun u hu => ?_) ?_
    · by_cases hG : G u
      · rw [hgood u hu hG]
        exact (accepts_pure u).congr fun used t rest => by simp [hG]
      · exact (hbad u fun h => hG h.2).accepts.congr fun used t rest => by simp [hG]
    · exact hbad u fun h => by simp [hu] at h
    · exact hnone.accepts.congr fun used t rest => by simp
  refine h.congr fun used t rest => ?_
  constructor
  · rintro (⟨-, -, hfalse⟩ | ⟨u, more, rfl, rfl, rfl, hG⟩)
    · exact hfalse.elim
    · exact ⟨rfl, hG⟩
  · rintro ⟨rfl, hG⟩
    exact .inr ⟨t, [], rfl, rfl, rfl, hG⟩

/-- The reader of a token of some kind accepts one such token. -/
theorem accepts_expect (kind : Token.Kind) (expected : String) :
    Accepts (expect kind expected) fun used t _ => used = [t] ∧ t.kind = kind := by
  refine accepts_single (fun t ht hkind => ?_) (fun t hbad => ?_) fun s => ⟨_, s, rfl⟩
  · simp [ht, hkind]
  · cases ht : t.valid with
    | false =>
        simp only [ht, Bool.not_false, if_true]
        exact stops_failAt t
    | true =>
        have hkind : t.kind ≠ kind := fun hkind => hbad ⟨ht, hkind⟩
        simp only [ht, Bool.not_true, Bool.false_eq_true, if_false, hkind]
        split
        · exact stops_fail _ _
        · exact stops_fail _ _

/-- The reader of an identifier accepts one identifier, a keyword or not. -/
theorem accepts_expectIdentifier (role : String) :
    Accepts (expectIdentifier role) fun used t _ => used = [t] ∧ t.kind = .identifier := by
  refine accepts_single (fun t ht hkind => ?_) (fun t hbad => ?_) fun s => ⟨_, s, rfl⟩
  · simp [ht, hkind]
  · cases ht : t.valid with
    | false =>
        simp only [ht, Bool.not_false, if_true]
        exact stops_failAt t
    | true =>
        have hkind : t.kind ≠ .identifier := fun hkind => hbad ⟨ht, hkind⟩
        simp only [ht, Bool.not_true, Bool.false_eq_true, if_false, hkind]
        exact stops_fail _ _

/-- Does a well-formed token of the given kind come first? -/
def startsWith (kind : Token.Kind) (tokens : List Token) : Bool :=
  tokens.head?.any fun t => t.valid && t.kind = kind

/-- No tokens start with any kind. -/
@[simp] theorem startsWith_nil (kind : Token.Kind) : startsWith kind [] = false := rfl

/-- Tokens start with a kind if the first one is well-formed and of that kind. -/
@[simp] theorem startsWith_cons (kind : Token.Kind) (t : Token) (tokens : List Token) :
    startsWith kind (t :: tokens) = (t.valid && t.kind = kind) := rfl

/-- Where a reader of an optional token stops. -/
theorem accept_eq (kind : Token.Kind) (s : State) :
    accept kind s = .ok () (if startsWith kind s.pending then s.afterNext else s) := by
  have hfst := s.significant_fst.1
  unfold accept
  split
  · next t cursor hs =>
      rw [hs] at hfst
      have hcursor : s.afterNext = { s with cursor } := by rw [State.afterNext, hs]
      rw [startsWith, ← hfst, Option.any_some, hcursor]
  · next hs =>
      rw [hs] at hfst
      rw [startsWith, ← hfst]
      rfl

/-- The reader of an optional token accepts it, or nothing where it does not come next. -/
theorem accepts_accept (kind : Token.Kind) :
    Accepts (accept kind) fun used _ rest =>
      (∃ t, used = [t] ∧ t.kind = kind) ∨ (used = [] ∧ startsWith kind rest = false) := by
  intro s a rest
  rw [accept_eq]
  cases hs : s.pending with
  | nil =>
      constructor
      · rintro ⟨s', h, rfl⟩
        cases h
        exact ⟨[], by simp [hs], by simp, .inr ⟨rfl, by simp [hs]⟩⟩
      · rintro ⟨used, hused, -, -⟩
        obtain ⟨rfl, rfl⟩ := List.append_eq_nil_iff.mp hused.symm
        exact ⟨s, rfl, hs⟩
  | cons t tail =>
      have hafter : s.afterNext.pending = tail := by rw [s.pending_afterNext, hs, List.tail_cons]
      rw [startsWith_cons]
      by_cases ht : t.valid = true ∧ t.kind = kind
      · rw [if_pos (by simp [ht.1, ht.2])]
        constructor
        · rintro ⟨s', h, rfl⟩
          cases h
          exact ⟨[t], by rw [hafter]; rfl, by simp [ht.1], .inl ⟨t, rfl, ht.2⟩⟩
        · rintro ⟨used, hused, -, ⟨u, rfl, -⟩ | ⟨rfl, hno⟩⟩
          · exact ⟨s.afterNext, rfl, by rw [hafter]; exact (List.cons.inj hused).2⟩
          · rw [List.nil_append] at hused
            rw [← hused, startsWith_cons] at hno
            exact absurd hno (by simp [ht.1, ht.2])
      · rw [if_neg (by simpa using ht)]
        constructor
        · rintro ⟨s', h, rfl⟩
          cases h
          refine ⟨[], hs.symm, by simp, .inr ⟨rfl, ?_⟩⟩
          rw [hs, startsWith_cons]
          simpa using ht
        · rintro ⟨used, hused, hv, ⟨u, rfl, hu⟩ | ⟨rfl, -⟩⟩
          · obtain ⟨rfl, -⟩ := List.cons.inj hused
            exact absurd ⟨hv t List.mem_cons_self, hu⟩ ht
          · exact ⟨s, rfl, by rw [hs]; exact hused⟩

end Scan

end ZDecl
