import Mathlib.Algebra.GroupWithZero.Nat
import ZDecl.Proofs.Grammar.Items

/-!
# What reading does to braces

Curly braces are read in four places: by blocks, which balance them; by expressions, which end at a
closing brace and do not count opening ones; by headers, which tolerate a closing brace like any
other token that belongs to no clause; and at the top level, where no item starts with a brace. So
every brace of an item is accounted for: it stands in the value of a constant, which closes none, or
among the stray tokens of its header, which open none, or it is balanced together with all others.

* `Grammar.Braced n`: tokens of which no prefix closes more braces than it opens, and which leave
  `n` braces open. `Nested.braced`: a body leaves none.
* `Grammar.Splits`: tokens sorted into those that count, those that are tolerated, and those of
  values. `Grammar.Accounts`: what each of the three lists does to braces.
* `Scan.KeepsStrays`: readers that keep no stray tokens. Only headers do.
* `Scan.Reads`: what a reader has read where it succeeds, and the stray tokens that it has kept.
* `Reads.bind`: a sequence of two readers; every other reader follows by its own structure.
* **`Scan.accounted_of_next?`**: the braces of an item are accounted for.
-/

namespace ZDecl

namespace Grammar

/-! ## Counting braces -/

/-- How many of the tokens are of the given kind. -/
def count (kind : Token.Kind) (tokens : List Token) : Nat := tokens.countP fun t => t.kind = kind

section Count

variable (kind : Token.Kind) (t : Token) (xs ys : List Token)

/-- No token is of any kind. -/
@[simp] theorem count_nil : count kind [] = 0 := rfl

/-- The first token counts if it is of the kind. -/
@[simp] theorem count_cons :
    count kind (t :: xs) = (if t.kind = kind then 1 else 0) + count kind xs := by
  unfold count
  rw [List.countP_cons, Nat.add_comm]
  simp only [decide_eq_true_eq]

/-- Counting goes list by list. -/
@[simp] theorem count_append : count kind (xs ++ ys) = count kind xs + count kind ys :=
  List.countP_append

end Count

/-- Do the tokens leave `n` of their braces open, each brace that is closed being opened before? -/
structure Braced (n : Nat) (tokens : List Token) : Prop where
  /-- Nothing closes a brace that is not open. -/
  prefixes : ∀ before, before <+: tokens →
    count .closeCurly before ≤ count .openCurly before
  /-- There are `n` braces more that open than braces that close. -/
  total : count .openCurly tokens = count .closeCurly tokens + n

variable {m n : Nat} {xs ys : List Token} {t left right : Token}

/-- No tokens leave no brace open. -/
theorem braced_nil : Braced 0 [] where
  prefixes := by
    intro before h
    rw [List.prefix_nil.mp h]
    exact Nat.le_refl _
  total := rfl

/-- Tokens one behind the other leave open what each leaves open. -/
theorem Braced.append (hxs : Braced m xs) (hys : Braced n ys) : Braced (m + n) (xs ++ ys) where
  prefixes := by
    intro before h
    rcases List.prefix_or_prefix_of_prefix h (List.prefix_append xs ys) with hbefore | ⟨more, rfl⟩
    · exact hxs.prefixes before hbefore
    · have htotal := hxs.total
      have hmore := hys.prefixes more ((List.prefix_append_right_inj xs).mp h)
      rw [count_append, count_append]
      omega
  total := by
    have hx := hxs.total
    have hy := hys.total
    rw [count_append, count_append]
    omega

/-- Two braces around some tokens. -/
theorem Braced.group (h : Braced n xs) (hleft : left.kind = .openCurly)
    (hright : right.kind = .closeCurly) : Braced n (left :: (xs ++ [right])) where
  prefixes := by
    intro before hbefore
    rcases List.prefix_cons_iff.mp hbefore with rfl | ⟨more, rfl, hmore⟩
    · exact Nat.le_refl _
    · have hle : count .closeCurly more ≤ count .openCurly more + 1 := by
        rcases List.prefix_concat_iff.mp hmore with rfl | hmore
        · have htotal := h.total
          simp [hright]
          omega
        · exact Nat.le_succ_of_le (h.prefixes more hmore)
      simp [hleft]
      omega
  total := by
    have htotal := h.total
    simp [hleft, hright]
    omega

/-- Tokens among which no brace is closed. -/
theorem braced_of_not_closeCurly (h : ∀ t ∈ xs, t.kind ≠ .closeCurly) :
    Braced (count .openCurly xs) xs := by
  have hnone : ∀ before, before <+: xs → count .closeCurly before = 0 := by
    intro before hbefore
    refine List.countP_eq_zero.mpr fun t ht => ?_
    simpa using h t (hbefore.subset ht)
  refine ⟨fun before hbefore => ?_, ?_⟩
  · rw [hnone before hbefore]
    exact Nat.zero_le _
  · rw [hnone xs (List.prefix_refl xs), Nat.zero_add]

/-- A token that is no brace. -/
theorem braced_single (hopen : t.kind ≠ .openCurly) (hclose : t.kind ≠ .closeCurly) :
    Braced 0 [t] := by
  have h : Braced (count .openCurly [t]) [t] := braced_of_not_closeCurly (by simpa using hclose)
  rwa [count_cons, if_neg hopen] at h

/-- What is balanced in braces leaves none open. -/
theorem Nested.braced {inside : Bool} (h : Nested braces inside xs) : Braced 0 xs := by
  induction h with
  | nil => exact braced_nil
  | plain hopening hclosing _ _ ih => exact (braced_single hopening hclosing).append ih
  | @group _ left right inner rest hleft _ hright _ hinner hrest =>
      have hgroup := (hinner.group hleft hright).append hrest
      simpa using hgroup

/-- No brace is closed inside an expression. -/
theorem Nested.not_closeCurly {inside : Bool} (h : Nested parentheses inside xs) :
    ∀ t ∈ xs, t.kind ≠ .closeCurly := by
  induction h with
  | nil => simp
  | plain _ _ hallowed _ ih =>
      simp only [parentheses, Bool.and_eq_true, bne_iff_ne] at hallowed
      exact List.forall_mem_cons.mpr ⟨hallowed.1, ih⟩
  | group hleft _ hright _ hinner hrest =>
      refine List.forall_mem_cons.mpr ⟨?_, List.forall_mem_append.mpr ⟨hinner, ?_⟩⟩
      · rw [hleft]
        decide
      · refine List.forall_mem_cons.mpr ⟨?_, hrest⟩
        rw [hright]
        decide

/-- An optional semicolon is no brace. -/
theorem OptionalSemicolon.braced (h : OptionalSemicolon xs) : Braced 0 xs := by
  cases h with
  | absent => exact braced_nil
  | present h => exact braced_single (by simp [h]) (by simp [h])

/-- A block leaves no brace open. -/
theorem Block.braced {body : List Token} (h : Block xs body) : Braced 0 xs := by
  cases h with
  | mk hleft hbody hright htail =>
      have hblock := (hbody.braced.group hleft hright).append htail.braced
      simpa using hblock

/-! ## Accounting for braces -/

/-- Are the tokens those that count, those that are tolerated and those of values, the three lists
being mixed, but each kept in order? -/
inductive Splits : (counting tolerated values tokens : List Token) → Prop where
  /-- No token at all. -/
  | nil : Splits [] [] [] []
  /-- The first token counts. -/
  | counting {t : Token} {cs ts vs tokens : List Token} (h : Splits cs ts vs tokens) :
      Splits (t :: cs) ts vs (t :: tokens)
  /-- The first token is tolerated. -/
  | tolerated {t : Token} {cs ts vs tokens : List Token} (h : Splits cs ts vs tokens) :
      Splits cs (t :: ts) vs (t :: tokens)
  /-- The first token stands in a value. -/
  | value {t : Token} {cs ts vs tokens : List Token} (h : Splits cs ts vs tokens) :
      Splits cs ts (t :: vs) (t :: tokens)

namespace Splits

variable {cs ts vs cs' ts' vs' before : List Token}

/-- All tokens may count. -/
theorem all_counting (xs : List Token) : Splits xs [] [] xs := by
  induction xs with
  | nil => exact .nil
  | cons t xs ih => exact .counting ih

/-- All tokens may stand in a value. -/
theorem all_values (xs : List Token) : Splits [] [] xs xs := by
  induction xs with
  | nil => exact .nil
  | cons t xs ih => exact .value ih

/-- Tokens one behind the other are sorted one behind the other. -/
theorem append (h : Splits cs ts vs xs) (h' : Splits cs' ts' vs' ys) :
    Splits (cs ++ cs') (ts ++ ts') (vs ++ vs') (xs ++ ys) := by
  induction h with
  | nil => exact h'
  | counting _ ih => exact .counting ih
  | tolerated _ ih => exact .tolerated ih
  | value _ ih => exact .value ih

/-- Every token is in one of the three lists. -/
theorem count_eq (h : Splits cs ts vs xs) (kind : Token.Kind) :
    count kind xs = count kind cs + count kind ts + count kind vs := by
  induction h with
  | nil => rfl
  | counting _ ih => simp only [count_cons, ih]; omega
  | tolerated _ ih => simp only [count_cons, ih]; omega
  | value _ ih => simp only [count_cons, ih]; omega

/-- What comes first is sorted into what comes first in each of the lists. -/
theorem exists_of_prefix (h : Splits cs ts vs xs) (hbefore : before <+: xs) :
    ∃ cs' ts' vs', cs' <+: cs ∧ ts' <+: ts ∧ vs' <+: vs ∧ Splits cs' ts' vs' before := by
  have hnil : ∀ cs ts vs : List Token,
      ∃ cs' ts' vs', cs' <+: cs ∧ ts' <+: ts ∧ vs' <+: vs ∧ Splits cs' ts' vs' [] := fun _ _ _ =>
    ⟨[], [], [], List.nil_prefix, List.nil_prefix, List.nil_prefix, .nil⟩
  induction h generalizing before with
  | nil =>
      obtain rfl := List.prefix_nil.mp hbefore
      exact hnil _ _ _
  | @counting t _ _ _ _ _ ih =>
      rcases List.prefix_cons_iff.mp hbefore with rfl | ⟨more, rfl, hmore⟩
      · exact hnil _ _ _
      · obtain ⟨cs', ts', vs', hcs, hts, hvs, h⟩ := ih hmore
        exact ⟨t :: cs', ts', vs', (List.prefix_cons_inj t).mpr hcs, hts, hvs, .counting h⟩
  | @tolerated t _ _ _ _ _ ih =>
      rcases List.prefix_cons_iff.mp hbefore with rfl | ⟨more, rfl, hmore⟩
      · exact hnil _ _ _
      · obtain ⟨cs', ts', vs', hcs, hts, hvs, h⟩ := ih hmore
        exact ⟨cs', t :: ts', vs', hcs, (List.prefix_cons_inj t).mpr hts, hvs, .tolerated h⟩
  | @value t _ _ _ _ _ ih =>
      rcases List.prefix_cons_iff.mp hbefore with rfl | ⟨more, rfl, hmore⟩
      · exact hnil _ _ _
      · obtain ⟨cs', ts', vs', hcs, hts, hvs, h⟩ := ih hmore
        exact ⟨cs', ts', t :: vs', hcs, hts, (List.prefix_cons_inj t).mpr hvs, .value h⟩

end Splits

/-- What the three lists do to braces: the tokens that count are balanced, those that are tolerated
open no brace, and those of values close none. -/
structure Accounts (counting tolerated values tokens : List Token) : Prop where
  /-- The tokens are sorted into the three lists. -/
  splits : Splits counting tolerated values tokens
  /-- Those that count are balanced. -/
  balanced : Braced 0 counting
  /-- Those that are tolerated open no brace. -/
  tolerated : ∀ t ∈ tolerated, t.kind ≠ .openCurly
  /-- Those of values close no brace. -/
  values : ∀ t ∈ values, t.kind ≠ .closeCurly

/-- **What tokens leave open whose braces are accounted for**: the braces of values, if nothing that
is tolerated closes a brace. -/
theorem Accounts.braced {cs ts vs : List Token} (h : Accounts cs ts vs xs)
    (hts : ∀ t ∈ ts, t.kind ≠ .closeCurly) : Braced (count .openCurly vs) xs where
  prefixes := by
    intro before hbefore
    obtain ⟨cs', ts', vs', hcs', hts', hvs', hsplits⟩ := h.splits.exists_of_prefix hbefore
    have hcounting := h.balanced.prefixes cs' hcs'
    have htolerated := (braced_of_not_closeCurly hts).prefixes ts' hts'
    have hvalues := (braced_of_not_closeCurly h.values).prefixes vs' hvs'
    rw [hsplits.count_eq, hsplits.count_eq]
    omega
  total := by
    have hcounting := h.balanced.total
    have htolerated := (braced_of_not_closeCurly hts).total
    have hopen : count .openCurly ts = 0 :=
      List.countP_eq_zero.mpr fun t ht => by simpa using h.tolerated t ht
    have hvalues := (braced_of_not_closeCurly h.values).total
    rw [h.splits.count_eq, h.splits.count_eq]
    omega

/-- Are the braces of some tokens accounted for, where these are the stray tokens of headers among
them, and these the tokens of values? -/
def Accounted (strays : List Stray) (values tokens : List Token) : Prop :=
  ∃ counting, Accounts counting (strays.map Stray.token) values tokens

/-- Tokens without strays and values are accounted for if they are balanced. -/
theorem Braced.accounted (h : Braced 0 xs) : Accounted [] [] xs :=
  ⟨xs, .all_counting xs, h, fun _ ht => (List.not_mem_nil ht).elim,
    fun _ ht => (List.not_mem_nil ht).elim⟩

/-- A token that is no brace. -/
theorem accounted_single (hopen : t.kind ≠ .openCurly) (hclose : t.kind ≠ .closeCurly) :
    Accounted [] [] [t] :=
  (braced_single hopen hclose).accounted

/-- A stray token is accounted for if it opens no brace. -/
theorem accounted_stray {stray : Stray} (h : stray.token.kind ≠ .openCurly) :
    Accounted [stray] [] [stray.token] :=
  ⟨[], .tolerated .nil, braced_nil, List.forall_mem_singleton.mpr h,
    fun _ ht => (List.not_mem_nil ht).elim⟩

/-- Tokens of a value are accounted for if they close no brace. -/
theorem accounted_values (h : ∀ t ∈ xs, t.kind ≠ .closeCurly) : Accounted [] xs xs :=
  ⟨[], .all_values xs, braced_nil, fun _ ht => (List.not_mem_nil ht).elim, h⟩

/-- Tokens one behind the other are accounted for if both are. -/
theorem Accounted.append {strays more : List Stray} {vs vs' : List Token}
    (h : Accounted strays vs xs) (h' : Accounted more vs' ys) :
    Accounted (strays ++ more) (vs ++ vs') (xs ++ ys) := by
  obtain ⟨cs, h⟩ := h
  obtain ⟨cs', h'⟩ := h'
  refine ⟨cs ++ cs', ?_, h.balanced.append h'.balanced, ?_, ?_⟩
  · rw [List.map_append]
    exact h.splits.append h'.splits
  · rw [List.map_append]
    exact List.forall_mem_append.mpr ⟨h.tolerated, h'.tolerated⟩
  · exact List.forall_mem_append.mpr ⟨h.values, h'.values⟩

/-- The tokens of the value that a declaration gives a constant. -/
def valueOf (d : Declaration) : List Token := if d.form = .constant then d.body else []

/-- The tokens of the value in an item. -/
def valueBy : Item → List Token
  | .declaration d => valueOf d
  | _ => []

/-- How many braces a declaration leaves open: those that stand in the value of a constant. -/
def leftOpen (d : Declaration) : Nat := if d.form = .constant then count .openCurly d.body else 0

/-- They are the braces of the values. -/
theorem sum_leftOpen (declarations : List Declaration) :
    (declarations.map leftOpen).sum = count .openCurly (declarations.flatMap valueOf) := by
  induction declarations with
  | nil => rfl
  | cons d declarations ih =>
      rw [List.map_cons, List.sum_cons, ih, List.flatMap_cons, count_append]
      unfold leftOpen valueOf
      split <;> rfl

end Grammar

/-! ## What readers read -/

namespace Scan

open Grammar

variable {α β : Type}

/-- Does the reader leave the stray tokens alone where it succeeds? -/
def KeepsStrays (p : Scan α) : Prop :=
  ∀ (s s' : State) (a : α), p s = .ok a s' → s'.strays = s.strays

/-- A result without reading keeps no stray token. -/
theorem keepsStrays_pure (a : α) : KeepsStrays (pure a : Scan α) := by
  intro s s' b h
  cases h
  rfl

/-- A reader that always stops keeps no stray token. -/
theorem Stops.keepsStrays {p : Scan α} (hp : Stops p) : KeepsStrays p := by
  intro s s' a h
  obtain ⟨f, s₁, hf⟩ := hp s
  rw [hf] at h
  cases h

/-- Two readers keep no stray token if neither does. -/
theorem KeepsStrays.bind {p : Scan α} {f : α → Scan β} (hp : KeepsStrays p)
    (hf : ∀ a, KeepsStrays (f a)) : KeepsStrays (p >>= f) := by
  intro s s'' b h
  obtain ⟨a, s', hps, hfs⟩ := bind_eq_ok_iff.mp h
  exact (hf a s' s'' b hfs).trans (hp s s' a hps)

/-- Reading on to the next significant token leaves the stray ones alone. -/
theorem keepsStrays_next : KeepsStrays next := by
  intro s s' token h
  cases h
  rfl

/-- An expected token is no stray one. -/
theorem keepsStrays_expect (kind : Token.Kind) (expected : String) :
    KeepsStrays (expect kind expected) := by
  refine keepsStrays_next.bind fun token => ?_
  cases token with
  | none => exact Stops.keepsStrays fun s => ⟨_, s, rfl⟩
  | some t =>
      dsimp only
      split
      · exact (stops_failAt t).keepsStrays
      · split
        · exact keepsStrays_pure t
        · split
          · exact (stops_fail _ _).keepsStrays
          · exact (stops_fail _ _).keepsStrays

/-- An expected name is no stray token. -/
theorem keepsStrays_expectIdentifier (role : String) : KeepsStrays (expectIdentifier role) := by
  refine keepsStrays_next.bind fun token => ?_
  cases token with
  | none => exact Stops.keepsStrays fun s => ⟨_, s, rfl⟩
  | some t =>
      dsimp only
      split
      · exact (stops_failAt t).keepsStrays
      · split
        · exact keepsStrays_pure t
        · exact (stops_fail _ _).keepsStrays

/-- An optional token is no stray one. -/
theorem keepsStrays_accept (kind : Token.Kind) : KeepsStrays (accept kind) := by
  intro s s' u h
  rw [accept_eq] at h
  cases h
  split <;> rfl

/-- A run of tokens keeps no stray one, whatever ends it. -/
theorem keepsStrays_run (take : List Token → Except Interruption (List Token) × List Token) :
    KeepsStrays (run take) := by
  intro s s' body h
  unfold run at h
  dsimp only at h
  split at h
  · cases h
    rfl
  · cases h
  · cases h

/-- A block keeps no stray token: its header is read before. -/
theorem keepsStrays_block : KeepsStrays block := by
  have hno : ∀ token, KeepsStrays (failNoBlock token) := by
    intro token
    refine Stops.keepsStrays fun s => ?_
    cases token <;> exact ⟨_, s, rfl⟩
  refine keepsStrays_next.bind fun token => ?_
  cases token with
  | none => exact hno none
  | some t =>
      dsimp only
      split
      · exact (stops_failAt t).keepsStrays
      · split
        · exact (keepsStrays_run _).bind fun _ => (keepsStrays_accept _).bind fun _ =>
            keepsStrays_pure _
        · exact hno (some t)

/-- A directive keeps no stray token. -/
theorem keepsStrays_directive : KeepsStrays Item.directive := by
  refine (keepsStrays_expectIdentifier _).bind fun name => ?_
  split
  · exact (keepsStrays_expect _ _).bind fun _ => keepsStrays_pure _
  · exact (stops_fail _ _).keepsStrays

/-- A version directive keeps no stray token. -/
theorem keepsStrays_versionDirective : KeepsStrays Item.versionDirective :=
  (keepsStrays_expect _ _).bind fun _ => (keepsStrays_accept _).bind fun _ => keepsStrays_pure _

/-- An enumeration keeps no stray token: it has a name, but no header. -/
theorem keepsStrays_enumeration (source : String) : KeepsStrays (Item.enumeration source) :=
  (keepsStrays_expectIdentifier _).bind fun _ => keepsStrays_block.bind fun _ => keepsStrays_pure _

/-- A constant keeps no stray token. -/
theorem keepsStrays_constant (source : String) : KeepsStrays (Item.constant source) :=
  (keepsStrays_expectIdentifier _).bind fun _ => (keepsStrays_expect _ _).bind fun _ =>
    (keepsStrays_run _).bind fun _ => (keepsStrays_expect _ _).bind fun _ => keepsStrays_pure _

/-- **What a reader reads**: where it succeeds, the tokens that it has read, the stray tokens that
it has kept and its result are related by `P`. -/
def Reads (p : Scan α) (P : List Token → List Stray → α → Prop) : Prop :=
  ∀ (s s' : State) (a : α), p s = .ok a s' → ∃ used more, s.pending = used ++ s'.pending ∧
    s'.strays = s.strays ++ more ∧ P used more a

/-- A reader that reads something reads what follows from it. -/
theorem Reads.imp {p : Scan α} {P Q : List Token → List Stray → α → Prop} (h : Reads p P)
    (hPQ : ∀ used more a, P used more a → Q used more a) : Reads p Q := by
  intro s s' a hp
  obtain ⟨used, more, hused, hmore, hP⟩ := h s s' a hp
  exact ⟨used, more, hused, hmore, hPQ used more a hP⟩

/-- What a reader reads that keeps no stray token. -/
theorem Accepts.reads {p : Scan α} {P : List Token → α → List Token → Prop} (h : Accepts p P)
    (hstrays : KeepsStrays p) {Q : List Token → List Stray → α → Prop}
    (hPQ : ∀ used a rest, P used a rest → Q used [] a) : Reads p Q := by
  intro s s' a hp
  obtain ⟨used, hused, -, hP⟩ := h.of_ok hp
  exact ⟨used, [], hused, by rw [hstrays s s' a hp, List.append_nil], hPQ used a _ hP⟩

/-- A reader that always stops reads whatever one likes. -/
theorem Stops.reads {p : Scan α} (hp : Stops p) (P : List Token → List Stray → α → Prop) :
    Reads p P :=
  hp.accepts.reads hp.keepsStrays fun _ _ _ => False.elim

/-- A result without reading. -/
theorem reads_pure {P : List Token → List Stray → α → Prop} {a : α} (h : P [] [] a) :
    Reads (pure a) P := by
  intro s s' b hp
  cases hp
  exact ⟨[], [], rfl, (List.append_nil _).symm, h⟩

/-- A sequence of two readers reads what the first reads and then what the second does. -/
theorem Reads.bind {p : Scan α} {f : α → Scan β} {P : List Token → List Stray → α → Prop}
    {Q : α → List Token → List Stray → β → Prop} (hp : Reads p P) (hf : ∀ a, Reads (f a) (Q a)) :
    Reads (p >>= f) fun used strays b => ∃ left more a right later, used = left ++ right ∧
      strays = more ++ later ∧ P left more a ∧ Q a right later b := by
  intro s s'' b h
  obtain ⟨a, s', hps, hfs⟩ := bind_eq_ok_iff.mp h
  obtain ⟨left, more, hleft, hmore, hP⟩ := hp s s' a hps
  obtain ⟨right, later, hright, hlater, hQ⟩ := hf a s' s'' b hfs
  refine ⟨left ++ right, more ++ later, ?_, ?_, left, more, a, right, later, rfl, rfl, hP, hQ⟩
  · rw [hleft, hright, List.append_assoc]
  · rw [hlater, hmore, List.append_assoc]

/-- Braces are accounted for in a sequence of two readers, the first of which reads no value. -/
theorem Reads.bind_accounted {p : Scan α} {f : α → Scan β} (values : β → List Token)
    (hp : Reads p fun used strays _ => Accounted strays [] used)
    (hf : ∀ a, Reads (f a) fun used strays b => Accounted strays (values b) used) :
    Reads (p >>= f) fun used strays b => Accounted strays (values b) used := by
  refine (hp.bind hf).imp fun used strays b => ?_
  rintro ⟨left, more, _, right, later, rfl, rfl, hleft, hright⟩
  exact hleft.append hright

/-! ## Headers -/

/-- A name is no brace. -/
theorem reads_expectIdentifier (role : String) :
    Reads (expectIdentifier role) fun used strays _ => Accounted strays [] used :=
  (accepts_expectIdentifier role).reads (keepsStrays_expectIdentifier role) fun used t _ h => by
    obtain ⟨rfl, hkind⟩ := h
    exact accounted_single (by simp [hkind]) (by simp [hkind])

/-- What starts a clause is no brace. -/
theorem kind_of_clause? {t : Token} {c : Clause} (h : t.clause? = some c) :
    t.kind = .colon ∨ t.kind = .identifier := by
  unfold Token.clause? at h
  split at h
  · next hkind => exact .inl hkind
  · right
    unfold Token.keyword? at h
    split at h <;> simp_all

/-- The rest of a clause, behind the token that starts it. -/
theorem reads_clause (h : Header) {t : Token} {c : Clause} (hc : t.clause? = some c) :
    Reads (clause h t c) fun used strays _ => Accounted strays [] (t :: used) := by
  have hsingle : Accounted [] [] [t] := by
    rcases kind_of_clause? hc with hkind | hkind
    · exact accounted_single (by simp [hkind]) (by simp [hkind])
    · exact accounted_single (by simp [hkind]) (by simp [hkind])
  have hname : ∀ role (f : Token → Header), Reads (do return f (← expectIdentifier role))
      fun used strays _ => Accounted strays [] (t :: used) := by
    intro role f
    have hname := (reads_expectIdentifier role).bind_accounted (fun _ => []) fun name =>
      reads_pure (a := f name) braced_nil.accounted
    exact hname.imp fun used strays _ hused => hsingle.append hused
  cases c with
  | parent => exact hname _ fun name => { h with parent := some name }
  | replaces => exact hname _ fun name => { h with replaces := some name }
  | native => exact reads_pure hsingle

/-- What a token starts in a header. A token that belongs to no clause is a stray one. -/
theorem reads_headerPart (strict : Bool) (h : Header) {t : Token} (ht : t.kind ≠ .openCurly) :
    Reads (headerPart strict h t) fun used strays _ => Accounted strays [] (t :: used) := by
  unfold headerPart
  split
  · next c hc =>
      split
      · exact (stops_fail _ _).reads _
      · exact reads_clause h hc
  · unfold tolerate
    split
    · exact (stops_fail _ _).reads _
    · intro s s' h' hs
      cases hs
      exact ⟨[], [⟨h.subject, t⟩], rfl, rfl, accounted_stray ht⟩

/-- The parts of a header. An opening brace ends them. -/
theorem reads_clauses (strict : Bool) (n : Nat) (h : Header) :
    Reads (clauses strict n h) fun used strays _ => Accounted strays [] used := by
  induction n generalizing h with
  | zero => exact reads_pure braced_nil.accounted
  | succ n ih =>
      intro s s' h' hs
      have hskip := s.pending_afterSkip
      have hafter := s.afterSkip.pending_afterNext
      rw [hskip] at hafter
      cases hp : s.pending with
      | nil =>
          rw [clauses_of_pending_eq_nil hp] at hs
          cases hs
          exact ⟨[], [], by rw [hskip, hp]; rfl, (List.append_nil _).symm, braced_nil.accounted⟩
      | cons t tail =>
          cases hvalid : t.valid with
          | false =>
              rw [clauses_of_not_valid hp hvalid] at hs
              cases hs
          | true =>
              by_cases hkind : t.kind = .openCurly
              · rw [clauses_of_openCurly hp hvalid hkind] at hs
                cases hs
                exact ⟨[], [], by rw [hskip, hp]; rfl, (List.append_nil _).symm,
                  braced_nil.accounted⟩
              · rw [clauses_of_valid hp hvalid hkind] at hs
                obtain ⟨used, strays, hused, hstrays, left, more, _, right, later, rfl, rfl,
                  hleft, hright⟩ := ((reads_headerPart strict h hkind).bind ih) _ _ _ hs
                rw [hafter, hp, List.tail_cons] at hused
                exact ⟨t :: (left ++ right), more ++ later, by rw [hused]; rfl, hstrays,
                  hleft.append hright⟩

/-- The braces of a header are among its stray tokens. -/
theorem reads_header (strict : Bool) (kind : TypeKind) :
    Reads (header strict kind) fun used strays _ => Accounted strays [] used :=
  (reads_expectIdentifier _).bind_accounted (fun _ => []) fun _ => reads_clauses strict _ _

/-! ## Items -/

/-- A block is balanced. -/
theorem reads_block : Reads block fun used strays _ => Accounted strays [] used :=
  accepts_block.reads keepsStrays_block fun _ _ _ h => h.block.braced.accounted

open Item

variable {source : String}

/-- A class or structure reads no value. -/
theorem reads_typeDeclaration (strict : Bool) (kind : TypeKind) :
    Reads (typeDeclaration strict source kind)
      fun used strays item => Accounted strays (valueBy item) used :=
  (reads_header strict kind).bind_accounted valueBy fun _ =>
    reads_block.bind_accounted valueBy fun _ => reads_pure braced_nil.accounted

/-- An include directive has no braces. -/
theorem reads_directive :
    Reads directive fun used strays item => Accounted strays (valueBy item) used := by
  refine accepts_directive.reads keepsStrays_directive fun used item _ => ?_
  rintro ⟨word, path, rfl, hword, hpath, rfl⟩
  have hidentifier := (Token.isWord_eq_true_iff.mp hword).1
  have hword' : Accounted [] [] [word] :=
    accounted_single (by simp [hidentifier]) (by simp [hidentifier])
  exact hword'.append (accounted_single (by simp [hpath]) (by simp [hpath]))

/-- A version directive has no braces. -/
theorem reads_versionDirective :
    Reads versionDirective fun used strays item => Accounted strays (valueBy item) used := by
  refine accepts_versionDirective.reads keepsStrays_versionDirective fun used item _ => ?_
  rintro ⟨text, tail, rfl, htext, htail, rfl⟩
  have htext' : Accounted [] [] [text] := accounted_single (by simp [htext]) (by simp [htext])
  exact htext'.append htail.optional.braced.accounted

/-- An enumeration is balanced. -/
theorem reads_enumeration :
    Reads (enumeration source) fun used strays item => Accounted strays (valueBy item) used := by
  refine accepts_enumeration.reads (keepsStrays_enumeration source) fun used item _ => ?_
  rintro ⟨name, block, body, rfl, hname, hblock, rfl⟩
  have hname' : Accounted [] [] [name] := accounted_single (by simp [hname]) (by simp [hname])
  exact hname'.append hblock.block.braced.accounted

/-- The braces of a constant are those of its value: an expression counts none. -/
theorem reads_constant :
    Reads (constant source) fun used strays item => Accounted strays (valueBy item) used := by
  refine accepts_constant.reads (keepsStrays_constant source) fun used item _ => ?_
  rintro ⟨name, sign, semicolon, value, rfl, hname, hsign, hvalue, hsemicolon, rfl⟩
  have hname' : Accounted [] [] [name] := accounted_single (by simp [hname]) (by simp [hname])
  have hsign' : Accounted [] [] [sign] := accounted_single (by simp [hsign]) (by simp [hsign])
  have hlast : Accounted [] [] [semicolon] :=
    accounted_single (by simp [hsemicolon]) (by simp [hsemicolon])
  have hvalue' : Accounted [] (value ++ []) (value ++ [semicolon]) :=
    (accounted_values hvalue.not_closeCurly).append hlast
  rw [List.append_nil] at hvalue'
  exact hname'.append (hsign'.append hvalue')

/-- What a token starts at the top level. -/
theorem reads_startingWith (strict : Bool) (t : Token) :
    Reads (startingWith strict source t)
      fun used strays item => Accounted strays (valueBy item) (t :: used) := by
  have hbehind : ∀ {p : Scan Item}, t.kind = .hash ∨ t.kind = .identifier →
      Reads p (fun used strays item => Accounted strays (valueBy item) used) →
        Reads p fun used strays item => Accounted strays (valueBy item) (t :: used) := by
    intro p hkind hp
    have hsingle : Accounted [] [] [t] := by
      rcases hkind with hkind | hkind
      · exact accounted_single (by simp [hkind]) (by simp [hkind])
      · exact accounted_single (by simp [hkind]) (by simp [hkind])
    exact hp.imp fun used strays item h => hsingle.append h
  unfold startingWith
  split
  · next hkind => exact hbehind (.inl hkind) reads_directive
  · next hkind =>
      refine hbehind (.inr hkind) ?_
      split
      · exact reads_typeDeclaration strict _
      · exact reads_typeDeclaration strict _
      · exact reads_constant
      · exact reads_enumeration
      · exact reads_versionDirective
      · exact reads_pure braced_nil.accounted
  · exact (stops_fail _ _).reads _
  · exact (stops_fail _ _).reads _
  · exact (stops_fail _ _).reads _

/-- The end of a file has no stray tokens. -/
theorem strays_of_next?_eq_none {strict : Bool} {s s' : State}
    (h : Item.next? strict source s = .ok none s') : s'.strays = s.strays := by
  cases hs : s.pending with
  | nil =>
      rw [next?_of_pending_eq_nil hs] at h
      cases h
      rfl
  | cons t tail =>
      rw [next?_of_pending_eq_cons hs] at h
      obtain ⟨found, s₁, -, h⟩ := bind_eq_ok_iff.mp h
      cases h

/-- **The braces of an item are accounted for.** -/
theorem accounted_of_next? {strict : Bool} {s s' : State} {item : Item}
    (h : Item.next? strict source s = .ok (some item) s') :
    ∃ used more, s.pending = used ++ s'.pending ∧ s'.strays = s.strays ++ more ∧
      Accounted more (valueBy item) used := by
  have hafter := s.pending_afterNext
  cases hs : s.pending with
  | nil =>
      rw [next?_of_pending_eq_nil hs] at h
      cases h
  | cons t tail =>
      rw [next?_of_pending_eq_cons hs] at h
      obtain ⟨found, s₁, hstart, h⟩ := bind_eq_ok_iff.mp h
      cases h
      unfold startingAt at hstart
      split at hstart
      · obtain ⟨used, more, hused, hmore, haccounted⟩ := reads_startingWith strict t _ _ _ hstart
        rw [hafter, hs, List.tail_cons] at hused
        exact ⟨t :: used, more, by rw [hused]; rfl, hmore, haccounted⟩
      · cases hstart

end Scan

end ZDecl
