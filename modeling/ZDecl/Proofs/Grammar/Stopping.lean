import ZDecl.Proofs.Grammar.Closing

/-!
# Where an expression stops

The reader of an expression keeps a count of the parentheses that are open and stops before the
first token that cannot belong to the expression. Seen from outside, which tokens these are depends
on nothing but the parentheses in front of each of them. This file says so of the loop of the
reader, and what follows for the tokens that it gives.

* `upTo n`: what is to be read right before the significant token with the index `n`.
* `roundDepth`: how deep parentheses are open behind some tokens.
* `TerminatorAt`: the token at an index cannot belong to the expression.
* `EndsAt`: the first of these is at an index, and all tokens up to it are well formed.
  `roundDepth_take_nonneg`, `EndsAt.roundDepth_eq_zero`: what stands in front is balanced.
* `GoesOn`: none of the first tokens stops the expression.
* `ExpressionEnds`: the three ways in which reading on in an expression ends.
* **`takeExpression_ends`**: it ends in one of them, by induction on the tokens for all depths at
  once.
* `BalancedExpression`: what this says of an expression as a whole.
  **`balancedExpression_of_expression`**: so it is with all that the grammar calls an expression.
-/

namespace ZDecl

open Grammar

/-! ## Up to a significant token -/

/-- What is to be read right before the significant token with the index `n`. -/
def upTo (n : Nat) (tokens : List Token) : List Token :=
  (behind n tokens).dropWhile Token.isSkipped

/-- What is passed over is not counted. -/
theorem upTo_of_isSkipped {t : Token} (h : t.isSkipped = true) (n : Nat) (tokens : List Token) :
    upTo n (t :: tokens) = upTo n tokens := by
  unfold upTo
  cases n with
  | zero => rw [behind_zero, behind_zero, List.dropWhile_cons_of_pos h]
  | succ n => rw [behind_succ_of_isSkipped h]

/-- A significant token is where reading starts. -/
theorem upTo_zero_of_not_isSkipped {t : Token} (h : t.isSkipped = false) (tokens : List Token) :
    upTo 0 (t :: tokens) = t :: tokens := by
  unfold upTo
  rw [behind_zero, List.dropWhile_cons_of_neg (by simp [h])]

/-- A significant token is one of those in front of all later ones. -/
theorem upTo_succ_of_not_isSkipped {t : Token} (h : t.isSkipped = false) (n : Nat)
    (tokens : List Token) : upTo (n + 1) (t :: tokens) = upTo n tokens := by
  unfold upTo
  rw [behind_succ_of_not_isSkipped h]

/-- What is significant from there on. -/
theorem unskipped_upTo (n : Nat) (tokens : List Token) :
    unskipped (upTo n tokens) = (unskipped tokens).drop n := by
  unfold upTo
  rw [unskipped_dropWhile, unskipped_behind]

/-- Right behind the token that comes next there. -/
theorem behind_one_upTo (n : Nat) (tokens : List Token) :
    behind 1 (upTo n tokens) = behind (n + 1) tokens := by
  unfold upTo
  rw [behind_succ_dropWhile, behind_behind]

/-! ## What stops an expression -/

/-- How deep parentheses are open behind some tokens, if they are open to the given depth before
them. -/
def roundDepth (depth : Int) (tokens : List Token) : Int :=
  depth + count .openParen tokens - count .closeParen tokens

/-- No token leaves the depth alone. -/
@[simp] theorem roundDepth_nil (depth : Int) : roundDepth depth [] = depth := by
  simp [roundDepth]

/-- The depth behind the first token is where the others start. -/
theorem roundDepth_cons (depth : Int) (t : Token) (tokens : List Token) :
    roundDepth depth (t :: tokens) = roundDepth (roundDepth depth [t]) tokens := by
  simp only [roundDepth, count_cons, count_nil]
  omega

/-- The last token starts at the depth behind the others. -/
theorem roundDepth_concat (depth : Int) (tokens : List Token) (t : Token) :
    roundDepth depth (tokens ++ [t]) = roundDepth (roundDepth depth tokens) [t] := by
  simp only [roundDepth, count_append, count_cons, count_nil]
  omega

/-- The depth behind one token. -/
theorem roundDepth_singleton (depth : Int) (t : Token) :
    roundDepth depth [t] = depth + (if t.kind = .openParen then 1 else 0) -
      (if t.kind = .closeParen then 1 else 0) := by
  simp only [roundDepth, count_cons, count_nil]
  split <;> split <;> omega

/-- Can the token at the index not belong to an expression? A closing brace never does, a semicolon
and a comma do inside of parentheses only, and a closing parenthesis only if it closes one. -/
def TerminatorAt (depth : Int) (tokens : List Token) (k : Nat) : Prop :=
  ∃ t, tokens[k]? = some t ∧
    (t.kind = .closeCurly ∨
      (t.kind = .semicolon ∨ t.kind = .comma) ∧ roundDepth depth (tokens.take k) = 0 ∨
      t.kind = .closeParen ∧ roundDepth depth (tokens.take (k + 1)) < 0)

/-- Are the first `n` tokens well formed, and does each of them belong to the expression? -/
structure GoesOn (depth : Int) (tokens : List Token) (n : Nat) : Prop where
  /-- They are well formed. -/
  valid : ∀ t ∈ tokens.take n, t.valid = true
  /-- None of them stops the expression. -/
  belongs : ∀ j < n, ¬TerminatorAt depth tokens j

/-- Are the tokens up to the index `k` well formed, and is that at the index the first one that
stops the expression? -/
structure EndsAt (depth : Int) (tokens : List Token) (k : Nat) : Prop where
  /-- The tokens are well formed. -/
  valid : ∀ t ∈ tokens.take (k + 1), t.valid = true
  /-- The last of them stops the expression. -/
  terminator : TerminatorAt depth tokens k
  /-- None does before. -/
  first : ∀ j < k, ¬TerminatorAt depth tokens j

section Step

variable {depth : Int} {t : Token} {tokens : List Token} {k n : Nat}

/-- What stops an expression behind its first token depends on the depth behind that. -/
theorem terminatorAt_succ_iff :
    TerminatorAt depth (t :: tokens) (k + 1) ↔ TerminatorAt (roundDepth depth [t]) tokens k := by
  unfold TerminatorAt
  rw [List.getElem?_cons_succ, List.take_succ_cons, List.take_succ_cons, roundDepth_cons,
    roundDepth_cons depth t (tokens.take (k + 1))]

/-- None of no tokens stops. -/
theorem goesOn_zero (depth : Int) (tokens : List Token) : GoesOn depth tokens 0 :=
  ⟨fun _ ht => (List.not_mem_nil ht).elim, fun _ hj => (Nat.not_lt_zero _ hj).elim⟩

/-- A token that belongs to the expression, and those behind it. -/
theorem GoesOn.cons (hvalid : t.valid = true) (hbelongs : ¬TerminatorAt depth (t :: tokens) 0)
    (h : GoesOn (roundDepth depth [t]) tokens n) : GoesOn depth (t :: tokens) (n + 1) where
  valid := by
    rw [List.take_succ_cons]
    exact List.forall_mem_cons.mpr ⟨hvalid, h.valid⟩
  belongs := by
    intro j hj
    cases j with
    | zero => exact hbelongs
    | succ j =>
        rw [terminatorAt_succ_iff]
        exact h.belongs j (Nat.lt_of_succ_lt_succ hj)

/-- A token that stops the expression at once. -/
theorem endsAt_zero (hvalid : t.valid = true) (hstops : TerminatorAt depth (t :: tokens) 0) :
    EndsAt depth (t :: tokens) 0 where
  valid := by simpa using hvalid
  terminator := hstops
  first := fun _ hj => (Nat.not_lt_zero _ hj).elim

/-- A token that belongs to the expression, and those behind it, which stop it. -/
theorem EndsAt.cons (hvalid : t.valid = true) (hbelongs : ¬TerminatorAt depth (t :: tokens) 0)
    (h : EndsAt (roundDepth depth [t]) tokens k) : EndsAt depth (t :: tokens) (k + 1) where
  valid := by
    rw [List.take_succ_cons]
    exact List.forall_mem_cons.mpr ⟨hvalid, h.valid⟩
  terminator := terminatorAt_succ_iff.mpr h.terminator
  first := by
    intro j hj
    cases j with
    | zero => exact hbelongs
    | succ j =>
        rw [terminatorAt_succ_iff]
        exact h.first j (Nat.lt_of_succ_lt_succ hj)

/-- There is a token where an expression stops. -/
theorem EndsAt.inside (h : EndsAt depth tokens k) : k < tokens.length := by
  obtain ⟨t, ht, -⟩ := h.terminator
  exact (List.getElem?_eq_some_iff.mp ht).1

/-- An expression stops at one index at most. -/
theorem EndsAt.unique {k' : Nat} (h : EndsAt depth tokens k) (h' : EndsAt depth tokens k') :
    k' = k := by
  rcases Nat.lt_trichotomy k k' with hlt | heq | hlt
  · exact absurd h.terminator (h'.first k hlt)
  · exact heq.symm
  · exact absurd h'.terminator (h.first k' hlt)

/-- An expression that stops does not go on up to the end or up to an ill-formed token. -/
theorem EndsAt.not_goesOn (h : EndsAt depth tokens k) (hgoes : GoesOn depth tokens n)
    (hn : n = tokens.length ∨ ∃ t, tokens[n]? = some t ∧ t.valid = false) : False := by
  have hnk : n ≤ k := Nat.le_of_not_lt fun hlt => hgoes.belongs k hlt h.terminator
  rcases hn with rfl | ⟨t, ht, hvalid⟩
  · exact absurd h.inside (Nat.not_lt_of_le hnk)
  · exact absurd hnk (Nat.not_le_of_lt (le_of_valid_take h.valid ht hvalid))

/-- No token is ill formed among those with which an expression goes on. -/
theorem GoesOn.le_of_not_valid {m : Nat} (h : GoesOn depth tokens n) (ht : tokens[m]? = some t)
    (hvalid : t.valid = false) : n ≤ m :=
  le_of_valid_take h.valid ht hvalid

/-- **No parenthesis is closed that is not open**, as long as nothing stops the expression. -/
theorem roundDepth_take_nonneg (hdepth : 0 ≤ depth) (h : ∀ j < n, ¬TerminatorAt depth tokens j) :
    ∀ j ≤ n, 0 ≤ roundDepth depth (tokens.take j) := by
  intro j hj
  induction j with
  | zero => rwa [List.take_zero, roundDepth_nil]
  | succ j ih =>
      have hbefore := ih (Nat.le_of_succ_le hj)
      cases ht : tokens[j]? with
      | none =>
          rw [List.take_of_length_le (List.getElem?_eq_none_iff.mp ht)] at hbefore
          rwa [List.take_of_length_le (Nat.le_succ_of_le (List.getElem?_eq_none_iff.mp ht))]
      | some t =>
          have htake : tokens.take (j + 1) = tokens.take j ++ [t] := by
            rw [List.take_add_one, ht, Option.toList_some]
          refine Int.not_lt.mp fun hneg => h j hj ⟨t, ht, ?_⟩
          by_cases hkind : t.kind = .closeParen
          · exact .inr (.inr ⟨hkind, hneg⟩)
          · rw [htake, roundDepth_concat, roundDepth_singleton, if_neg hkind] at hneg
            split at hneg <;> omega

/-- Where anything but a closing brace stops an expression, all parentheses are closed. -/
theorem EndsAt.roundDepth_eq_zero (h : EndsAt 0 tokens k) (ht : tokens[k]? = some t)
    (hkind : t.kind ≠ .closeCurly) : roundDepth 0 (tokens.take k) = 0 := by
  obtain ⟨t', ht', hcurly | ⟨-, hzero⟩ | ⟨hparen, hneg⟩⟩ := h.terminator
  · cases ht.symm.trans ht'
    exact absurd hcurly hkind
  · exact hzero
  · have hbefore := roundDepth_take_nonneg (Int.le_refl 0) h.first k (Nat.le_refl k)
    have htake : tokens.take (k + 1) = tokens.take k ++ [t'] := by
      rw [List.take_add_one, ht', Option.toList_some]
    rw [htake, roundDepth_concat, roundDepth_singleton, hparen] at hneg
    simp at hneg
    omega

end Step

/-! ## The loop of the reader -/

section Loop

variable {depth : Nat} {t : Token} {tokens : List Token}

/-- The reader tells by the kind and the depth whether a token stops the expression. -/
theorem terminatorAt_zero_iff :
    TerminatorAt depth (t :: tokens) 0 ↔ endsExpression depth t.kind = true := by
  unfold TerminatorAt endsExpression
  simp only [List.getElem?_cons_zero, Option.some.injEq, exists_eq_left', List.take_zero,
    roundDepth_nil, Nat.zero_add, List.take_succ_cons, roundDepth_singleton, Bool.or_eq_true,
    Bool.and_eq_true, decide_eq_true_eq]
  have hbelow : (depth : Int) - 1 < 0 ↔ depth = 0 := by omega
  cases t.kind with
  | closeParen => simp [hbelow]
  | _ => simp

/-- The reader counts the parentheses that are open. -/
theorem roundDepth_of_not_ends (h : ¬endsExpression depth t.kind = true) :
    roundDepth depth [t] = parenDepth depth t.kind := by
  rw [roundDepth_singleton]
  unfold endsExpression at h
  cases hkind : t.kind <;> simp [hkind, parenDepth] at h ⊢
  omega

/-- How reading on in an expression ends: with what it gives, and what is still to be read then. -/
inductive ExpressionEnds (depth : Int) (tokens : List Token) :
    Except Interruption (List Token) × List Token → Prop where
  /-- A token stops the expression, and is still to be read. -/
  | stopped {k : Nat} (h : EndsAt depth (unskipped tokens) k) :
      ExpressionEnds depth tokens (.ok ((unskipped tokens).take k), upTo k tokens)
  /-- A token is ill formed. -/
  | illFormed {n : Nat} {t : Token} {rest : List Token} (h : GoesOn depth (unskipped tokens) n)
      (ht : (unskipped tokens)[n]? = some t) (hvalid : t.valid = false) :
      ExpressionEnds depth tokens (.error (.illFormed t), rest)
  /-- There are no more tokens. -/
  | endOfStream (h : GoesOn depth (unskipped tokens) (unskipped tokens).length) :
      ExpressionEnds depth tokens (.error .endOfStream, [])

/-- What is passed over changes nothing. -/
theorem ExpressionEnds.skip {depth : Int} {result : Except Interruption (List Token) × List Token}
    (ht : t.isSkipped = true) (h : ExpressionEnds depth tokens result) :
    ExpressionEnds depth (t :: tokens) result := by
  have hsame := unskipped_cons_of_isSkipped ht tokens
  cases h with
  | @stopped k h =>
      rw [← upTo_of_isSkipped ht, ← hsame]
      exact .stopped (hsame ▸ h)
  | illFormed h hmem hvalid => exact .illFormed (hsame ▸ h) (hsame ▸ hmem) hvalid
  | endOfStream h => exact .endOfStream (hsame ▸ h)

/-- A token that belongs to the expression. -/
theorem ExpressionEnds.cons {depth : Int} {result : Except Interruption (List Token) × List Token}
    (ht : t.isSkipped = false) (hvalid : t.valid = true)
    (hbelongs : ¬TerminatorAt depth (t :: unskipped tokens) 0)
    (h : ExpressionEnds (roundDepth depth [t]) tokens result) :
    ExpressionEnds depth (t :: tokens) (consRun t result) := by
  have hcons := unskipped_cons_of_not_isSkipped ht tokens
  cases h with
  | @stopped k h =>
      have hstops : EndsAt depth (unskipped (t :: tokens)) (k + 1) :=
        hcons ▸ h.cons hvalid hbelongs
      have hends := ExpressionEnds.stopped hstops
      rwa [upTo_succ_of_not_isSkipped ht, hcons, List.take_succ_cons] at hends
  | illFormed h hmem hill =>
      exact .illFormed (hcons ▸ h.cons hvalid hbelongs) (hcons ▸ hmem) hill
  | endOfStream h =>
      refine .endOfStream ?_
      rw [hcons]
      exact h.cons hvalid hbelongs

/-- **How reading on in an expression ends**, in which `depth` parentheses are open. -/
theorem takeExpression_ends (depth : Nat) (tokens : List Token) :
    ExpressionEnds depth tokens (takeExpression depth tokens) := by
  induction tokens generalizing depth with
  | nil => exact .endOfStream (goesOn_zero _ _)
  | cons t tokens ih =>
      unfold takeExpression
      cases hskip : t.isSkipped with
      | true =>
          rw [if_pos rfl]
          exact (ih depth).skip hskip
      | false =>
          rw [if_neg Bool.false_ne_true]
          have hcons := unskipped_cons_of_not_isSkipped hskip tokens
          cases hvalid : t.valid with
          | false =>
              rw [if_pos (by rfl)]
              exact .illFormed (goesOn_zero _ _) (by rw [hcons]; rfl) hvalid
          | true =>
              rw [if_neg (by simp)]
              by_cases hends : endsExpression depth t.kind = true
              · rw [if_pos hends]
                have hstops : EndsAt depth (unskipped (t :: tokens)) 0 :=
                  hcons ▸ endsAt_zero hvalid (terminatorAt_zero_iff.mpr hends)
                have hstopped := ExpressionEnds.stopped hstops
                rwa [upTo_zero_of_not_isSkipped hskip, List.take_zero] at hstopped
              · rw [if_neg hends]
                refine .cons hskip hvalid (fun h => hends (terminatorAt_zero_iff.mp h)) ?_
                rw [roundDepth_of_not_ends hends]
                exact ih _

end Loop

/-! ## Expressions as a whole -/

/-- Is nothing in the tokens out of place in an expression? -/
structure BalancedExpression (tokens : List Token) : Prop where
  /-- No parenthesis is closed that is not open. -/
  prefixes : ∀ j, 0 ≤ roundDepth 0 (tokens.take j)
  /-- All parentheses are closed. -/
  total : roundDepth 0 tokens = 0
  /-- Semicolons and commas stand inside of parentheses. -/
  inside : ∀ (k : Nat) (t : Token), tokens[k]? = some t → t.kind = .semicolon ∨ t.kind = .comma →
    0 < roundDepth 0 (tokens.take k)

/-- Where the grammar counts parentheses, nothing stops an expression. -/
theorem not_terminatorAt_of_depthAfter {depth last : Nat} {tokens : List Token}
    (h : parentheses.depthAfter depth tokens = some last) :
    (∀ k, ¬TerminatorAt depth tokens k) ∧ roundDepth depth tokens = last := by
  induction tokens generalizing depth with
  | nil =>
      cases h
      refine ⟨fun k hstops => ?_, roundDepth_nil _⟩
      obtain ⟨t, ht, -⟩ := hstops
      cases ht
  | cons t tokens ih =>
      rw [Brackets.depthAfter, ends_parentheses, step_parentheses] at h
      split at h
      · cases h
      · next hends =>
          obtain ⟨hnone, hlast⟩ := ih h
          have hdepth := roundDepth_of_not_ends hends
          refine ⟨fun k => ?_, ?_⟩
          · cases k with
            | zero => exact fun hstops => hends (terminatorAt_zero_iff.mp hstops)
            | succ k =>
                rw [terminatorAt_succ_iff, hdepth]
                exact hnone k
          · rw [roundDepth_cons, hdepth, hlast]

/-- **What the grammar calls an expression** is balanced, and has semicolons and commas inside of
parentheses only. -/
theorem balancedExpression_of_expression {tokens : List Token} (h : Expression tokens) :
    BalancedExpression tokens := by
  obtain ⟨hnone, htotal⟩ := not_terminatorAt_of_depthAfter (nested_iff_depthAfter.mp h)
  have hprefixes : ∀ j, 0 ≤ roundDepth 0 (tokens.take j) := fun j =>
    roundDepth_take_nonneg (Int.le_refl 0) (fun k _ => hnone k) j (Nat.le_refl j)
  refine ⟨hprefixes, htotal, fun k t ht hkind => ?_⟩
  have hne : roundDepth 0 (tokens.take k) ≠ 0 := fun hzero =>
    hnone k ⟨t, ht, .inr (.inl ⟨hkind, hzero⟩)⟩
  have hnonneg := hprefixes k
  omega

end ZDecl
