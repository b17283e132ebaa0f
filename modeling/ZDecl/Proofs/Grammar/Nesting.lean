import ZDecl.Proofs.Grammar
import ZDecl.Proofs.Scan.Significant

/-!
# Runs of tokens are balanced

The readers of blocks and expressions count how deep the brackets are open; the grammar speaks of
balanced tokens. The two agree.

* `Brackets.depthAfter`: the depth that some tokens lead to, as long as none of them ends the run.
* **`nested_iff_depthAfter`**: tokens are balanced if and only if they lead from depth zero to depth
  zero without a token that ends the run.
* `takeRun`: both runs of the readers are this one, for braces and for parentheses
  (`takeBlock_eq_takeRun`, `takeExpression_eq_takeRun`).
* `accepts_blockBody`, `accepts_block`, `accepts_expression`: what the readers of runs accept.
-/

namespace ZDecl.Grammar

variable {b : Brackets}

/-! ## Depth -/

namespace Brackets

/-- Does a token of this kind end a run at the given depth? -/
def ends (b : Brackets) (depth : Nat) (kind : Token.Kind) : Bool :=
  if kind = b.opening then false
  else if kind = b.closing then depth = 0
  else !b.allows (depth != 0) kind

/-- The depth after a token of this kind. -/
def step (b : Brackets) (depth : Nat) (kind : Token.Kind) : Nat :=
  if kind = b.opening then depth + 1 else if kind = b.closing then depth - 1 else depth

/-- The depth after some tokens; `none` if one of them ends the run. -/
def depthAfter (b : Brackets) : Nat → List Token → Option Nat
  | depth, [] => some depth
  | depth, t :: rest =>
    if b.ends depth t.kind then none else b.depthAfter (b.step depth t.kind) rest

/-- An opening bracket leads one deeper. -/
theorem depthAfter_opening {t : Token} (h : t.kind = b.opening) (depth : Nat) (rest : List Token) :
    b.depthAfter depth (t :: rest) = b.depthAfter (depth + 1) rest := by
  simp [depthAfter, ends, step, h]

/-- A closing bracket leads back, if one is open. -/
theorem depthAfter_closing_succ {t : Token} (h : t.kind = b.closing) (depth : Nat)
    (rest : List Token) : b.depthAfter (depth + 1) (t :: rest) = b.depthAfter depth rest := by
  simp [depthAfter, ends, step, h, b.distinct.symm]

/-- A closing bracket ends the run if none is open. -/
theorem depthAfter_closing_zero {t : Token} (h : t.kind = b.closing) (rest : List Token) :
    b.depthAfter 0 (t :: rest) = none := by
  simp [depthAfter, ends, h, b.distinct.symm]

/-- Another token leaves the depth alone, or ends the run if it is not allowed there. -/
theorem depthAfter_plain {t : Token} (hopening : t.kind ≠ b.opening) (hclosing : t.kind ≠ b.closing)
    (depth : Nat) (rest : List Token) :
    b.depthAfter depth (t :: rest) =
      if b.allows (depth != 0) t.kind then b.depthAfter depth rest else none := by
  simp only [depthAfter, ends, step, hopening, hclosing, if_false]
  cases b.allows (depth != 0) t.kind <;> rfl

end Brackets

open Brackets

/-! ## Balanced tokens keep the depth -/

/-- Balanced tokens lead back to the depth at which they start, whatever follows them. -/
theorem Nested.depthAfter_append {inside : Bool} {xs : List Token} (h : Nested b inside xs)
    (depth : Nat) (hdepth : (depth != 0) = inside) (rest : List Token) :
    b.depthAfter depth (xs ++ rest) = b.depthAfter depth rest := by
  induction h generalizing depth rest with
  | nil => rfl
  | plain hopening hclosing hallowed _ ih =>
      rw [List.cons_append, depthAfter_plain hopening hclosing, hdepth, if_pos hallowed]
      exact ih depth hdepth rest
  | group hleft _ hright _ ihinner ihrest =>
      rw [List.cons_append, depthAfter_opening hleft, List.append_assoc,
        ihinner (depth + 1) (by simp), List.cons_append, depthAfter_closing_succ hright]
      exact ihrest depth hdepth rest

/-- Tokens that lead from some depth to a lower one consist of balanced tokens, a closing bracket,
and tokens that lead on from the next lower depth. -/
theorem exists_nested_of_depthAfter_succ (n : Nat) {depth last : Nat} {tokens : List Token}
    (hn : tokens.length ≤ n) (h : b.depthAfter (depth + 1) tokens = some last)
    (hlast : last ≤ depth) :
    ∃ inner right rest, tokens = inner ++ right :: rest ∧ Nested b true inner ∧
      right.kind = b.closing ∧ b.depthAfter depth rest = some last := by
  induction n generalizing depth tokens with
  | zero =>
      obtain rfl := List.eq_nil_of_length_eq_zero (Nat.le_zero.mp hn)
      simp only [depthAfter, Option.some.injEq] at h
      omega
  | succ n ih =>
      cases tokens with
      | nil =>
          simp only [depthAfter, Option.some.injEq] at h
          omega
      | cons t tokens =>
          rw [List.length_cons] at hn
          by_cases hopening : t.kind = b.opening
          · -- the group that `t` opens is closed first, then what is asked for
            rw [depthAfter_opening hopening] at h
            obtain ⟨inner, right, rest, rfl, hinner, hright, hrest⟩ :=
              ih (by omega) h (by omega)
            simp only [List.length_append, List.length_cons] at hn
            obtain ⟨inner', right', rest', rfl, hinner', hright', hrest'⟩ :=
              ih (by omega) hrest hlast
            exact ⟨t :: (inner ++ right :: inner'), right', rest', by simp,
              .group hopening hinner hright hinner', hright', hrest'⟩
          · by_cases hclosing : t.kind = b.closing
            · rw [depthAfter_closing_succ hclosing] at h
              exact ⟨[], t, tokens, rfl, .nil, hclosing, h⟩
            · rw [depthAfter_plain hopening hclosing] at h
              split at h
              · next hallowed =>
                  obtain ⟨inner, right, rest, rfl, hinner, hright, hrest⟩ :=
                    ih (by omega) h hlast
                  exact ⟨t :: inner, right, rest, rfl,
                    .plain hopening hclosing (by simpa using hallowed) hinner, hright, hrest⟩
              · cases h

/-- Tokens that lead from depth zero to depth zero are balanced. -/
theorem nested_of_depthAfter_zero (n : Nat) {tokens : List Token} (hn : tokens.length ≤ n)
    (h : b.depthAfter 0 tokens = some 0) : Nested b false tokens := by
  induction n generalizing tokens with
  | zero =>
      obtain rfl := List.eq_nil_of_length_eq_zero (Nat.le_zero.mp hn)
      exact .nil
  | succ n ih =>
      cases tokens with
      | nil => exact .nil
      | cons t tokens =>
          rw [List.length_cons] at hn
          by_cases hopening : t.kind = b.opening
          · rw [depthAfter_opening hopening] at h
            obtain ⟨inner, right, rest, rfl, hinner, hright, hrest⟩ :=
              exists_nested_of_depthAfter_succ tokens.length (Nat.le_refl _) h (Nat.le_refl 0)
            simp only [List.length_append, List.length_cons] at hn
            exact .group hopening hinner hright (ih (by omega) hrest)
          · by_cases hclosing : t.kind = b.closing
            · rw [depthAfter_closing_zero hclosing] at h
              cases h
            · rw [depthAfter_plain hopening hclosing] at h
              split at h
              · next hallowed =>
                  exact .plain hopening hclosing (by simpa using hallowed) (ih (by omega) h)
              · cases h

/-- **Balanced tokens are those that keep the depth at zero**, in which no token ends the run. -/
theorem nested_iff_depthAfter {tokens : List Token} :
    Nested b false tokens ↔ b.depthAfter 0 tokens = some 0 := by
  constructor
  · intro h
    have hnil := h.depthAfter_append 0 rfl []
    rwa [List.append_nil] at hnil
  · exact nested_of_depthAfter_zero tokens.length (Nat.le_refl _)

/-! ## One run for both readers -/

/-- A run within some brackets, up to the token that ends it. With `keep` that token is left to be
read. -/
def takeRun (b : Brackets) (keep : Bool) (depth : Nat) :
    List Token → Except Interruption (List Token) × List Token
  | [] => (.error .endOfStream, [])
  | t :: rest =>
    if t.isSkipped then takeRun b keep depth rest
    else if !t.valid then (.error (.illFormed t), rest)
    else if b.ends depth t.kind then (.ok [], if keep then t :: rest else rest)
    else consRun t (takeRun b keep (b.step depth t.kind) rest)

/-- Reading on in a block is reading on in a run that is balanced in braces. -/
theorem takeBlock_eq_takeRun (depth : Nat) (tokens : List Token) :
    takeBlock depth tokens = takeRun braces false depth tokens := by
  induction tokens generalizing depth with
  | nil => rfl
  | cons t rest ih =>
      unfold takeBlock takeRun
      split
      · exact ih depth
      · split
        · rfl
        · by_cases hopening : t.kind = .openCurly
          · simp [hopening, ends, step, braces, ih]
          · by_cases hclosing : t.kind = .closeCurly
            · cases depth <;> simp [hclosing, ends, step, braces, ih]
            · simp [hopening, hclosing, ends, step, braces, ih]

/-- The reader of expressions stops where the rule for parentheses does. -/
theorem ends_parentheses (depth : Nat) (kind : Token.Kind) :
    parentheses.ends depth kind = endsExpression depth kind := by
  cases depth <;> cases kind <;> rfl

/-- The reader of expressions counts parentheses as the rule does. -/
theorem step_parentheses (depth : Nat) (kind : Token.Kind) :
    parentheses.step depth kind = parenDepth depth kind := by
  cases kind <;> rfl

/-- Reading on in an expression is reading on in a run that is balanced in parentheses, and keeps
the token that ends it. -/
theorem takeExpression_eq_takeRun (depth : Nat) (tokens : List Token) :
    takeExpression depth tokens = takeRun parentheses true depth tokens := by
  induction tokens generalizing depth with
  | nil => rfl
  | cons t rest ih =>
      unfold takeExpression takeRun
      rw [ends_parentheses, step_parentheses, ih depth, ih]
      rfl

/-- A run with a token in front is read if the rest of it is. -/
theorem consRun_fst_eq_ok_iff {t : Token} {body : List Token}
    {result : Except Interruption (List Token) × List Token} :
    (consRun t result).1 = .ok body ↔ ∃ inner, result.1 = .ok inner ∧ body = t :: inner := by
  unfold consRun
  cases result.1 with
  | error e => simp [Except.map]
  | ok inner => simp [Except.map, eq_comm]

/-- **When a run ends as it should**: well-formed tokens lead on from the depth to a token that ends
the run there. -/
theorem takeRun_eq_ok_iff {keep : Bool} {depth : Nat} {tokens body rest : List Token} :
    ((takeRun b keep depth tokens).1 = .ok body ∧
        unskipped (takeRun b keep depth tokens).2 = rest) ↔
      ∃ last more after, unskipped tokens = body ++ last :: more ∧
        (∀ t ∈ body, t.valid = true) ∧ last.valid = true ∧ b.depthAfter depth body = some after ∧
          b.ends after last.kind = true ∧ rest = if keep then last :: more else more := by
  induction tokens generalizing depth body with
  | nil => simp [takeRun]
  | cons t tokens ih =>
      unfold takeRun
      by_cases hskip : t.isSkipped = true
      · rw [if_pos hskip, unskipped_cons_of_isSkipped hskip]
        exact ih
      · rw [if_neg hskip, unskipped_cons_of_not_isSkipped (by simpa using hskip)]
        cases hvalid : t.valid with
        | false =>
            rw [if_pos (by simp)]
            constructor
            · rintro ⟨h, -⟩
              cases h
            · rintro ⟨last, more, after, htokens, hbody, hlast, -⟩
              cases body with
              | nil =>
                  obtain ⟨rfl, -⟩ := List.cons.inj htokens
                  rw [hvalid] at hlast
                  cases hlast
              | cons u body =>
                  obtain ⟨rfl, -⟩ := List.cons.inj htokens
                  rw [hbody t List.mem_cons_self] at hvalid
                  cases hvalid
        | true =>
            rw [if_neg (by simp)]
            by_cases hends : b.ends depth t.kind = true
            · rw [if_pos hends]
              constructor
              · rintro ⟨h, hrest⟩
                cases h
                refine ⟨t, unskipped tokens, depth, rfl, by simp, hvalid, rfl, hends, ?_⟩
                rw [← hrest]
                cases keep with
                | false => rfl
                | true => exact unskipped_cons_of_not_isSkipped (by simpa using hskip) _
              · rintro ⟨last, more, after, htokens, -, -, hafter, -, hrest⟩
                cases body with
                | nil =>
                    obtain ⟨rfl, rfl⟩ := List.cons.inj htokens
                    refine ⟨rfl, ?_⟩
                    rw [hrest]
                    cases keep with
                    | false => rfl
                    | true => exact unskipped_cons_of_not_isSkipped (by simpa using hskip) _
                | cons u body =>
                    obtain ⟨rfl, -⟩ := List.cons.inj htokens
                    rw [depthAfter, if_pos hends] at hafter
                    cases hafter
            · rw [if_neg hends]
              constructor
              · rintro ⟨h, hrest⟩
                obtain ⟨inner, hinner, rfl⟩ := consRun_fst_eq_ok_iff.mp h
                obtain ⟨last, more, after, htokens, hbody, hlast, hafter, hrun⟩ :=
                  ih.mp ⟨hinner, hrest⟩
                refine ⟨last, more, after, by rw [htokens, List.cons_append], ?_, hlast, ?_, hrun⟩
                · exact List.forall_mem_cons.mpr ⟨hvalid, hbody⟩
                · rw [depthAfter, if_neg hends, hafter]
              · rintro ⟨last, more, after, htokens, hbody, hlast, hafter, hlastEnds, hrun⟩
                cases body with
                | nil =>
                    obtain ⟨rfl, -⟩ := List.cons.inj htokens
                    cases hafter
                    exact absurd hlastEnds hends
                | cons u inner =>
                    obtain ⟨rfl, htail⟩ := List.cons.inj htokens
                    rw [depthAfter, if_neg hends] at hafter
                    obtain ⟨hinner, hrest⟩ := ih.mpr ⟨last, more, after, htail,
                      (List.forall_mem_cons.mp hbody).2, hlast, hafter, hlastEnds, hrun⟩
                    exact ⟨consRun_fst_eq_ok_iff.mpr ⟨inner, hinner, rfl⟩, hrest⟩

/-! ## What the readers of runs accept -/

open Scan

/-- What a reader of a run accepts: tokens that lead from depth zero to a token that ends the
run. -/
theorem accepts_run {take : List Token → Except Interruption (List Token) × List Token}
    {keep : Bool} (htake : ∀ tokens, take tokens = takeRun b keep 0 tokens) :
    Accepts (run take) fun used body rest =>
      ∃ last after, b.depthAfter 0 body = some after ∧ b.ends after last.kind = true ∧
        if keep then used = body ∧ last.valid = true ∧ ∃ more, rest = last :: more
        else used = body ++ [last] := by
  intro s body rest
  have hrun : (∃ s', run take s = .ok body s' ∧ s'.pending = rest) ↔
      (takeRun b keep 0 s.cursor.tokens).1 = .ok body ∧
        unskipped (takeRun b keep 0 s.cursor.tokens).2 = rest := by
    unfold run
    rw [htake]
    cases h : (takeRun b keep 0 s.cursor.tokens).1 with
    | ok tokens =>
        constructor
        · rintro ⟨s', hs', rfl⟩
          cases hs'
          exact ⟨rfl, rfl⟩
        · rintro ⟨hbody, rfl⟩
          cases hbody
          exact ⟨_, rfl, rfl⟩
    | error interruption =>
        constructor
        · rintro ⟨s', hs', -⟩
          cases interruption with
          | illFormed t => cases hs'
          | endOfStream => cases hs'
        · rintro ⟨hbody, -⟩
          cases hbody
  rw [hrun, takeRun_eq_ok_iff]
  constructor
  · rintro ⟨last, more, after, htokens, hbody, hlast, hafter, hends, rfl⟩
    cases keep with
    | true => exact ⟨body, htokens, hbody, last, after, hafter, hends, rfl, hlast, more, rfl⟩
    | false =>
        refine ⟨body ++ [last], ?_, ?_, last, after, hafter, hends, rfl⟩
        · rw [List.append_assoc]
          exact htokens
        intro t ht
        rcases List.mem_append.mp ht with ht | ht
        · exact hbody t ht
        · rw [List.mem_singleton.mp ht]
          exact hlast
  · rintro ⟨used, hused, hvalid, last, after, hafter, hends, h⟩
    cases keep with
    | true =>
        obtain ⟨rfl, hlast, more, rfl⟩ := h
        exact ⟨last, more, after, hused, hvalid, hlast, hafter, hends, rfl⟩
    | false =>
        obtain rfl : used = body ++ [last] := h
        rw [List.append_assoc] at hused
        refine ⟨last, rest, after, hused, ?_, ?_, hafter, hends, rfl⟩
        · exact fun t ht => hvalid t (List.mem_append_left _ ht)
        · exact hvalid last (by simp)

/-- The reader of expressions accepts what leads to a token that ends an expression, and leaves that
token. -/
theorem accepts_expression :
    Accepts expression fun used value rest => used = value ∧ ∃ last more after,
      rest = last :: more ∧ last.valid = true ∧ parentheses.depthAfter 0 value = some after ∧
        parentheses.ends after last.kind = true := by
  refine (accepts_run (takeExpression_eq_takeRun 0)).congr fun used value rest => ?_
  constructor
  · rintro ⟨last, after, hafter, hends, rfl, hlast, more, rfl⟩
    exact ⟨rfl, last, more, after, rfl, hlast, hafter, hends⟩
  · rintro ⟨rfl, last, more, after, rfl, hlast, hafter, hends⟩
    exact ⟨last, after, hafter, hends, rfl, hlast, more, rfl⟩

/-- Only outside of all parentheses does a semicolon end an expression, so what it ends is
balanced. -/
theorem expression_iff {value : List Token} {semicolon : Token}
    (hkind : semicolon.kind = .semicolon) :
    Expression value ↔ ∃ after, parentheses.depthAfter 0 value = some after ∧
      parentheses.ends after semicolon.kind = true := by
  rw [Expression, nested_iff_depthAfter, hkind]
  constructor
  · intro h
    exact ⟨0, h, rfl⟩
  · rintro ⟨after, hafter, hends⟩
    cases after with
    | zero => exact hafter
    | succ n => cases hends

/-- Only a closing brace outside of all braces ends a block, so what it ends is balanced. -/
theorem body_and_closing_iff {body : List Token} {last : Token} :
    (Body body ∧ last.kind = .closeCurly) ↔ ∃ after, braces.depthAfter 0 body = some after ∧
      braces.ends after last.kind = true := by
  rw [Body, nested_iff_depthAfter]
  constructor
  · rintro ⟨h, hkind⟩
    exact ⟨0, h, by rw [hkind]; rfl⟩
  · rintro ⟨after, hafter, hends⟩
    have hlast : last.kind = .closeCurly ∧ after = 0 := by
      by_cases hopening : last.kind = .openCurly
      · simp [ends, braces, hopening] at hends
      · simpa [ends, braces, hopening] using hends
    rw [hlast.2] at hafter
    exact ⟨hafter, hlast.1⟩

/-- A semicolon, or nothing where no semicolon comes next. -/
def TakesSemicolon (tail rest : List Token) : Prop :=
  (∃ t, tail = [t] ∧ t.kind = .semicolon) ∨ (tail = [] ∧ startsWith .semicolon rest = false)

/-- A semicolon that is taken is an optional one. -/
theorem TakesSemicolon.optional {tail rest : List Token} (h : TakesSemicolon tail rest) :
    OptionalSemicolon tail := by
  rcases h with ⟨t, rfl, ht⟩ | ⟨rfl, -⟩
  · exact .present ht
  · exact .absent

/-- An optional semicolon is taken if no other one comes next. -/
theorem OptionalSemicolon.takes {tail rest : List Token} (h : OptionalSemicolon tail)
    (hrest : startsWith .semicolon rest = false) : TakesSemicolon tail rest := by
  cases h with
  | absent => exact .inr ⟨rfl, hrest⟩
  | present ht => exact .inl ⟨_, rfl, ht⟩

/-- An optional semicolon takes one if there is one. -/
theorem accepts_semicolon :
    Accepts (accept .semicolon) fun used _ rest => TakesSemicolon used rest :=
  accepts_accept .semicolon

/-- The reader of the rest of a block accepts the body, the closing brace, and a semicolon that
follows it. -/
theorem accepts_blockBody :
    Accepts blockBody fun used body rest => ∃ right tail, used = body ++ right :: tail ∧
      Body body ∧ right.kind = .closeCurly ∧ TakesSemicolon tail rest := by
  refine ((accepts_run (takeBlock_eq_takeRun 0)).bind fun body =>
    accepts_semicolon.bind fun _ => accepts_pure body).congr fun used body rest => ?_
  constructor
  · rintro ⟨_, _, _, rfl, ⟨right, after, hafter, hends, rfl⟩, tail, -, _, rfl, htail, rfl, rfl⟩
    obtain ⟨hbody, hright⟩ := body_and_closing_iff.mpr ⟨after, hafter, hends⟩
    exact ⟨right, tail, by simp, hbody, hright, by simpa using htail⟩
  · rintro ⟨right, tail, rfl, hbody, hright, htail⟩
    obtain ⟨after, hafter, hends⟩ := body_and_closing_iff.mp ⟨hbody, hright⟩
    exact ⟨body ++ [right], body, tail, by simp, ⟨right, after, hafter, hends, rfl⟩, tail, (), [],
      by simp, by simpa using htail, rfl, rfl⟩

/-- A block before `rest`, together with a semicolon that follows it. -/
def TakesBlock (used body rest : List Token) : Prop :=
  ∃ left right tail, used = left :: (body ++ right :: tail) ∧ left.kind = .openCurly ∧
    Body body ∧ right.kind = .closeCurly ∧ TakesSemicolon tail rest

/-- A block that is taken is a block. -/
theorem TakesBlock.block {used body rest : List Token} (h : TakesBlock used body rest) :
    Block used body := by
  obtain ⟨left, right, tail, rfl, hleft, hbody, hright, htail⟩ := h
  exact .mk hleft hbody hright htail.optional

/-- A block is taken if no semicolon comes next that would belong to it. -/
theorem Block.takes {used body rest : List Token} (h : Block used body)
    (hrest : startsWith .semicolon rest = false) : TakesBlock used body rest := by
  cases h with
  | mk hleft hbody hright htail => exact ⟨_, _, _, rfl, hleft, hbody, hright, htail.takes hrest⟩

/-- The reader of blocks accepts a block together with a semicolon that follows it. -/
theorem accepts_block : Accepts block TakesBlock := by
  have hstops : ∀ token, Stops (failNoBlock token) := by
    intro token s
    cases token <;> exact ⟨_, s, rfl⟩
  have h : Accepts block fun used body rest => (used = [] ∧ rest = [] ∧ False) ∨
      ∃ left more, used = left :: more ∧ left.kind = .openCurly ∧ ∃ right tail,
        more = body ++ right :: tail ∧ Body body ∧ right.kind = .closeCurly ∧
          TakesSemicolon tail rest := by
    refine accepts_next_bind (fun t ht => ?_) (fun t ht => ?_) ?_
    · simp only [ht, Bool.not_true, Bool.false_eq_true, if_false]
      by_cases hkind : t.kind = .openCurly
      · simp only [hkind, if_true, true_and]
        exact accepts_blockBody
      · simp only [hkind, if_false, false_and]
        exact (hstops _).accepts
    · simp only [ht, Bool.not_false, if_true]
      exact stops_failAt t
    · simp only [and_false]
      exact (hstops none).accepts
  refine h.congr fun used body rest => ?_
  constructor
  · rintro (⟨-, -, hfalse⟩ | ⟨left, _, rfl, hleft, right, tail, rfl, hrest⟩)
    · exact hfalse.elim
    · exact ⟨left, right, tail, rfl, hleft, hrest⟩
  · rintro ⟨left, right, tail, rfl, hleft, hrest⟩
    exact .inr ⟨left, _, rfl, hleft, right, tail, rfl, hrest⟩

end ZDecl.Grammar
