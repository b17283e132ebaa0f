import ZDecl.Proofs.Grammar.Braces

/-!
# Where braces are closed

The reader of a block keeps a count of the inner braces that are open and stops where the next
closing brace would be one too many. Seen from outside, that is the first token behind which no
brace is open any more. This file says so of the loop of the reader, and where in the stream it
stops, not only up to white space.

* `behind n`: what is to be read right behind the first `n` significant tokens.
* `curlyDepth`: how deep braces are open behind some tokens.
* `ClosesAt`: the tokens close, for the first time, at some index. `ClosesAt.unique`: there is at
  most one.
* `StaysOpen`: none of the first tokens closes.
* `BlockEnds`: the three ways in which reading on in a block ends.
* **`takeBlock_ends`**: it ends in one of them, by induction on the tokens for all depths at once.
-/

namespace ZDecl

open Grammar

/-! ## Behind some significant tokens -/

/-- What is to be read right behind the first `n` significant tokens. -/
def behind : Nat → List Token → List Token
  | 0, tokens => tokens
  | _ + 1, [] => []
  | n + 1, t :: tokens => if t.isSkipped then behind (n + 1) tokens else behind n tokens

/-- Behind no token, all of them are to be read. -/
@[simp] theorem behind_zero (tokens : List Token) : behind 0 tokens = tokens := by
  cases tokens <;> rfl

/-- What is passed over is not counted. -/
theorem behind_succ_of_isSkipped {t : Token} (h : t.isSkipped = true) (n : Nat)
    (tokens : List Token) : behind (n + 1) (t :: tokens) = behind (n + 1) tokens := by
  rw [behind, if_pos h]

/-- A significant token is counted. -/
theorem behind_succ_of_not_isSkipped {t : Token} (h : t.isSkipped = false) (n : Nat)
    (tokens : List Token) : behind (n + 1) (t :: tokens) = behind n tokens := by
  rw [behind, if_neg (by simp [h])]

/-- The significant tokens behind some of them are the others. -/
theorem unskipped_behind (n : Nat) (tokens : List Token) :
    unskipped (behind n tokens) = (unskipped tokens).drop n := by
  induction tokens generalizing n with
  | nil => cases n <;> rfl
  | cons t tokens ih =>
      cases n with
      | zero => rfl
      | succ n =>
          cases h : t.isSkipped with
          | true => rw [behind_succ_of_isSkipped h, unskipped_cons_of_isSkipped h, ih]
          | false =>
              rw [behind_succ_of_not_isSkipped h, unskipped_cons_of_not_isSkipped h, ih,
                List.drop_succ_cons]

/-- Some tokens behind some others. -/
theorem behind_behind (m n : Nat) (tokens : List Token) :
    behind n (behind m tokens) = behind (m + n) tokens := by
  induction tokens generalizing m with
  | nil => cases m <;> cases n <;> rfl
  | cons t tokens ih =>
      cases m with
      | zero => rw [behind_zero, Nat.zero_add]
      | succ m =>
          rw [Nat.succ_add]
          cases h : t.isSkipped with
          | true =>
              rw [behind_succ_of_isSkipped h, behind_succ_of_isSkipped h, ih, Nat.succ_add]
          | false => rw [behind_succ_of_not_isSkipped h, behind_succ_of_not_isSkipped h, ih]

/-- White space and comments in front are read with the token that follows them. -/
theorem behind_succ_dropWhile (n : Nat) (tokens : List Token) :
    behind (n + 1) (tokens.dropWhile Token.isSkipped) = behind (n + 1) tokens := by
  induction tokens with
  | nil => rfl
  | cons t tokens ih =>
      cases h : t.isSkipped with
      | true => rw [List.dropWhile_cons_of_pos h, ih, behind_succ_of_isSkipped h]
      | false => rw [List.dropWhile_cons_of_neg (by simp [h])]

/-- What is to be read behind one significant token. -/
theorem behind_one (tokens : List Token) :
    behind 1 tokens = (tokens.dropWhile Token.isSkipped).tail := by
  rw [← behind_succ_dropWhile]
  cases h : tokens.dropWhile Token.isSkipped with
  | nil => rfl
  | cons t rest =>
      rw [behind_succ_of_not_isSkipped (isSkipped_of_dropWhile_eq_cons h), behind_zero,
        List.tail_cons]

/-- Where the first `n` tokens are well formed, an ill-formed one has an index from `n` on. -/
theorem le_of_valid_take {tokens : List Token} {n m : Nat} {t : Token}
    (h : ∀ t ∈ tokens.take n, t.valid = true) (ht : tokens[m]? = some t)
    (hvalid : t.valid = false) : n ≤ m := by
  refine Nat.le_of_not_lt fun hlt => ?_
  have hmem : t ∈ tokens.take n :=
    List.mem_of_getElem? ((List.getElem?_take_of_lt hlt).trans ht)
  rw [h t hmem] at hvalid
  cases hvalid

/-! ## Where tokens close -/

/-- How deep braces are open behind some tokens, if they are open to the given depth before them. -/
def curlyDepth (depth : Int) (tokens : List Token) : Int :=
  depth + count .openCurly tokens - count .closeCurly tokens

/-- No token leaves the depth alone. -/
@[simp] theorem curlyDepth_nil (depth : Int) : curlyDepth depth [] = depth := by
  simp [curlyDepth]

/-- The depth behind the first token is where the others start. -/
theorem curlyDepth_cons (depth : Int) (t : Token) (tokens : List Token) :
    curlyDepth depth (t :: tokens) = curlyDepth (curlyDepth depth [t]) tokens := by
  simp only [curlyDepth, count_cons, count_nil]
  omega

/-- An opening brace leads one deeper. -/
theorem curlyDepth_of_openCurly {t : Token} (h : t.kind = .openCurly) (depth : Int) :
    curlyDepth depth [t] = depth + 1 := by
  simp [curlyDepth, h]

/-- A closing brace leads back. -/
theorem curlyDepth_of_closeCurly {t : Token} (h : t.kind = .closeCurly) (depth : Int) :
    curlyDepth depth [t] = depth - 1 := by
  simp [curlyDepth, h]

/-- Other tokens leave the depth alone. -/
theorem curlyDepth_of_plain {t : Token} (hopen : t.kind ≠ .openCurly)
    (hclose : t.kind ≠ .closeCurly) (depth : Int) : curlyDepth depth [t] = depth := by
  simp [curlyDepth, hopen, hclose]

/-- Are the first `n` tokens well formed, with braces open behind each of them? -/
structure StaysOpen (depth : Int) (tokens : List Token) (n : Nat) : Prop where
  /-- They are well formed. -/
  valid : ∀ t ∈ tokens.take n, t.valid = true
  /-- None of them closes the outermost brace. -/
  isOpen : ∀ j < n, curlyDepth depth (tokens.take (j + 1)) ≠ 0

/-- Are the tokens up to the index `k` well formed, and is no brace open behind them for the first
time? -/
structure ClosesAt (depth : Int) (tokens : List Token) (k : Nat) : Prop where
  /-- There is a token at the index. -/
  inside : k < tokens.length
  /-- The tokens are well formed. -/
  valid : ∀ t ∈ tokens.take (k + 1), t.valid = true
  /-- No brace is open behind them. -/
  closed : curlyDepth depth (tokens.take (k + 1)) = 0
  /-- Before, there was one behind each of them. -/
  first : ∀ j < k, curlyDepth depth (tokens.take (j + 1)) ≠ 0

section Step

variable {depth : Int} {t : Token} {tokens : List Token} {k n : Nat}

/-- None of no tokens closes. -/
theorem staysOpen_zero (depth : Int) (tokens : List Token) : StaysOpen depth tokens 0 :=
  ⟨fun _ ht => (List.not_mem_nil ht).elim, fun _ hj => (Nat.not_lt_zero _ hj).elim⟩

/-- A token that closes nothing, and those behind it. -/
theorem StaysOpen.cons (hvalid : t.valid = true) (hopen : curlyDepth depth [t] ≠ 0)
    (h : StaysOpen (curlyDepth depth [t]) tokens n) : StaysOpen depth (t :: tokens) (n + 1) where
  valid := by
    rw [List.take_succ_cons]
    exact List.forall_mem_cons.mpr ⟨hvalid, h.valid⟩
  isOpen := by
    intro j hj
    rw [List.take_succ_cons, curlyDepth_cons]
    cases j with
    | zero =>
        rw [List.take_zero, curlyDepth_nil]
        exact hopen
    | succ j => exact h.isOpen j (Nat.lt_of_succ_lt_succ hj)

/-- A token that closes at once. -/
theorem closesAt_zero (hvalid : t.valid = true) (hclosed : curlyDepth depth [t] = 0) :
    ClosesAt depth (t :: tokens) 0 where
  inside := Nat.succ_pos _
  valid := by simpa using hvalid
  closed := hclosed
  first := fun _ hj => (Nat.not_lt_zero _ hj).elim

/-- A token that closes nothing, and those behind it, which close. -/
theorem ClosesAt.cons (hvalid : t.valid = true) (hopen : curlyDepth depth [t] ≠ 0)
    (h : ClosesAt (curlyDepth depth [t]) tokens k) : ClosesAt depth (t :: tokens) (k + 1) where
  inside := Nat.succ_lt_succ h.inside
  valid := by
    rw [List.take_succ_cons]
    exact List.forall_mem_cons.mpr ⟨hvalid, h.valid⟩
  closed := by
    rw [List.take_succ_cons, curlyDepth_cons]
    exact h.closed
  first := by
    intro j hj
    rw [List.take_succ_cons, curlyDepth_cons]
    cases j with
    | zero =>
        rw [List.take_zero, curlyDepth_nil]
        exact hopen
    | succ j => exact h.first j (Nat.lt_of_succ_lt_succ hj)

/-- Tokens close at one index at most. -/
theorem ClosesAt.unique {k' : Nat} (h : ClosesAt depth tokens k) (h' : ClosesAt depth tokens k') :
    k' = k := by
  rcases Nat.lt_trichotomy k k' with hlt | heq | hlt
  · exact absurd h.closed (h'.first k hlt)
  · exact heq.symm
  · exact absurd h'.closed (h.first k' hlt)

/-- Tokens that close do not stay open up to their end or up to an ill-formed one. -/
theorem ClosesAt.not_staysOpen (h : ClosesAt depth tokens k) (hopen : StaysOpen depth tokens n)
    (hn : n = tokens.length ∨ ∃ t, tokens[n]? = some t ∧ t.valid = false) : False := by
  have hnk : n ≤ k := Nat.le_of_not_lt fun hlt => hopen.isOpen k hlt h.closed
  rcases hn with rfl | ⟨t, ht, hvalid⟩
  · exact absurd h.inside (Nat.not_lt_of_le hnk)
  · exact absurd hnk (Nat.not_le_of_lt (le_of_valid_take h.valid ht hvalid))

/-- No token is ill formed among those that stay open. -/
theorem StaysOpen.le_of_not_valid {m : Nat} (h : StaysOpen depth tokens n)
    (ht : tokens[m]? = some t) (hvalid : t.valid = false) : n ≤ m :=
  le_of_valid_take h.valid ht hvalid

end Step

/-! ## The loop of the reader -/

/-- How reading on in a block ends: with what it gives, and what is still to be read then. -/
inductive BlockEnds (depth : Int) (tokens : List Token) :
    Except Interruption (List Token) × List Token → Prop where
  /-- The block is closed. -/
  | closed {k : Nat} (h : ClosesAt depth (unskipped tokens) k) :
      BlockEnds depth tokens (.ok ((unskipped tokens).take k), behind (k + 1) tokens)
  /-- A token is ill formed. -/
  | illFormed {n : Nat} {t : Token} {rest : List Token}
      (h : StaysOpen depth (unskipped tokens) n) (ht : (unskipped tokens)[n]? = some t)
      (hvalid : t.valid = false) : BlockEnds depth tokens (.error (.illFormed t), rest)
  /-- There are no more tokens. -/
  | endOfStream (h : StaysOpen depth (unskipped tokens) (unskipped tokens).length) :
      BlockEnds depth tokens (.error .endOfStream, [])

/-- What is passed over changes nothing. -/
theorem BlockEnds.skip {depth : Int} {t : Token} {tokens : List Token}
    {result : Except Interruption (List Token) × List Token} (ht : t.isSkipped = true)
    (h : BlockEnds depth tokens result) : BlockEnds depth (t :: tokens) result := by
  have hsame := unskipped_cons_of_isSkipped ht tokens
  cases h with
  | @closed k h =>
      rw [← behind_succ_of_isSkipped ht, ← hsame]
      exact .closed (hsame ▸ h)
  | illFormed h hmem hvalid => exact .illFormed (hsame ▸ h) (hsame ▸ hmem) hvalid
  | endOfStream h => exact .endOfStream (hsame ▸ h)

/-- A token of the block that does not close it. -/
theorem BlockEnds.cons {depth : Int} {t : Token} {tokens : List Token}
    {result : Except Interruption (List Token) × List Token} (ht : t.isSkipped = false)
    (hvalid : t.valid = true) (hopen : curlyDepth depth [t] ≠ 0)
    (h : BlockEnds (curlyDepth depth [t]) tokens result) :
    BlockEnds depth (t :: tokens) (consRun t result) := by
  have hcons := unskipped_cons_of_not_isSkipped ht tokens
  cases h with
  | @closed k h =>
      have hclosed : ClosesAt depth (unskipped (t :: tokens)) (k + 1) := hcons ▸ h.cons hvalid hopen
      have hends := BlockEnds.closed hclosed
      rwa [behind_succ_of_not_isSkipped ht, hcons, List.take_succ_cons] at hends
  | illFormed h hmem hill =>
      exact .illFormed (hcons ▸ h.cons hvalid hopen) (hcons ▸ hmem) hill
  | endOfStream h =>
      refine .endOfStream ?_
      rw [hcons]
      exact h.cons hvalid hopen

/-- **How reading on in a block ends**, in which `depth` inner braces and the outer one are open. -/
theorem takeBlock_ends (depth : Nat) (tokens : List Token) :
    BlockEnds (depth + 1) tokens (takeBlock depth tokens) := by
  induction tokens generalizing depth with
  | nil => exact .endOfStream (staysOpen_zero _ _)
  | cons t tokens ih =>
      unfold takeBlock
      cases hskip : t.isSkipped with
      | true =>
          rw [if_pos rfl]
          exact (ih depth).skip hskip
      | false =>
          rw [if_neg Bool.false_ne_true]
          have hcons := unskipped_cons_of_not_isSkipped hskip tokens
          cases hvalid : t.valid with
          | false =>
              rw [if_pos (by rfl)]
              exact .illFormed (staysOpen_zero _ _) (by rw [hcons]; rfl) hvalid
          | true =>
              rw [if_neg (by simp)]
              by_cases hopening : t.kind = .openCurly
              · rw [if_pos hopening]
                have hdepth := curlyDepth_of_openCurly hopening (depth + 1)
                refine .cons hskip hvalid (by omega) ?_
                rw [hdepth]
                exact ih (depth + 1)
              · rw [if_neg hopening]
                by_cases hclosing : t.kind = .closeCurly
                · rw [if_pos hclosing]
                  cases depth with
                  | zero =>
                      have hdepth := curlyDepth_of_closeCurly hclosing 1
                      have hclosed : ClosesAt 1 (unskipped (t :: tokens)) 0 :=
                        hcons ▸ closesAt_zero hvalid hdepth
                      have hends := BlockEnds.closed hclosed
                      rwa [behind_succ_of_not_isSkipped hskip, behind_zero, List.take_zero] at hends
                  | succ outer =>
                      have hdepth : curlyDepth ((outer + 1 : Nat) + 1) [t] = outer + 1 := by
                        rw [curlyDepth_of_closeCurly hclosing]
                        omega
                      refine .cons hskip hvalid (by omega) ?_
                      rw [hdepth]
                      exact ih outer
                · rw [if_neg hclosing]
                  have hdepth := curlyDepth_of_plain hopening hclosing (depth + 1)
                  refine .cons hskip hvalid (by omega) ?_
                  rw [hdepth]
                  exact ih depth

end ZDecl
