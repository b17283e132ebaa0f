import ZDecl.Proofs.Grammar.Clauses
import ZDecl.Proofs.Include.Derivation
import ZDecl.Proofs.Scan.Strictness
import ZDecl.Proofs.Session.Expressions

/-!
# What a session reads as a header

What the reader of headers accepts is said by the grammar, up to white space and up to the tokens
that it tolerates. This file says which header a session gets, where exactly in the file it stands
then, and what it has warned of.

* `BeginsWithHeader`: the tokens start with a name and parts in order, and the parts stop there.
* `Scan.headerPart_of_part`, `Scan.clauses_of_parts`: one part is read, and hence several, by
  induction on the parts. **`Scan.header_of_begins`**: a header is read wherever there is one.
* `ReadsHeader`: all of this, as a session sees it. **`Session.readsHeader`**: every session reads
  headers so.
* `NativeEndsHeader`: behind the mark of a native type comes its body.
* **`headers_follow_clause_order`**: both, for the headers that are read and, if headers are strict,
  the native types that are recorded.
-/

namespace ZDecl

open Grammar HeaderPart Scan

/-! ## Headers at the start of some tokens -/

/-- Do the tokens start with the name of a type and parts of its header, do the parts stop there,
and is `rest` what stands behind them? -/
structure BeginsWithHeader (strict : Bool) (tokens : List Token) (name : Token)
    (parts : List HeaderPart) (rest : List Token) : Prop where
  /-- The name comes first, then the parts, then the rest. -/
  split : tokens = name :: (parts.flatMap HeaderPart.tokens ++ rest)
  /-- All tokens of the header are well formed. -/
  valid : ∀ t ∈ name :: parts.flatMap HeaderPart.tokens, t.valid = true
  /-- The name is an identifier. -/
  name : name.kind = .identifier
  /-- There are at most four parts. -/
  count : parts.length ≤ 4
  /-- Each of them is a clause, or a token that belongs to no clause. -/
  wellFormed : ∀ part ∈ parts, part.WellFormed
  /-- They come in the right order. -/
  order : parts.Pairwise (MayPrecede strict)
  /-- They stop at the fourth one, at the end, or at an opening brace. -/
  stop : parts.length = 4 ∨ rest = [] ∨ startsWith .openCurly rest = true

/-- The stray token that a part is, in a header of the given subject. -/
def Grammar.HeaderPart.stray? (subject : String) : HeaderPart → Option Stray
  | other t => some ⟨subject, t⟩
  | _ => none

namespace Scan

variable {strict : Bool} {kind : TypeKind} {n : Nat} {h : Header} {s : State} {t name : Token}
  {part : HeaderPart} {parts : List HeaderPart} {left more rest : List Token}

/-- An identifier that comes next is read. -/
theorem expectIdentifier_of_pending (hs : s.pending = t :: rest) (hvalid : t.valid = true)
    (hkind : t.kind = .identifier) (role : String) :
    expectIdentifier role s = .ok t (s.behind 1) := by
  unfold expectIdentifier
  rw [next_bind_eq, hs, ← State.afterNext_eq]
  simp only [List.head?_cons, hvalid, hkind, Bool.not_true, Bool.false_eq_true, if_false, if_true]
  rfl

/-- Behind a token that starts a part, the rest of the part is read. -/
theorem headerPart_of_part (hpart : part.WellFormed) (hadmissible : part.Admissible strict h)
    (htokens : part.tokens = t :: left) (hs : s.pending = left ++ more)
    (hvalid : ∀ u ∈ left, u.valid = true) :
    headerPart strict h t s = .ok (part.addTo h)
      ⟨(s.behind left.length).cursor, s.strays ++ (part.stray? h.subject).toList⟩ := by
  have hclause := clause?_eq_of_tokens hpart htokens
  have hbehind : ∀ n, (⟨(s.behind n).cursor, s.strays ++ []⟩ : State) = s.behind n := fun n => by
    rw [List.append_nil]
    rfl
  have hzero : s.behind 0 = s := by
    unfold State.behind
    rw [behind_zero]
  unfold headerPart
  rw [hclause]
  cases part with
  | parent colon name =>
      obtain ⟨rfl, rfl⟩ := List.cons.inj htokens
      have hobjection := (objection?_eq_none_iff (c := .parent) rfl).mpr hadmissible
      have hname := expectIdentifier_of_pending hs (hvalid name (by simp)) hpart.2
      dsimp only [HeaderPart.clause?]
      rw [hobjection]
      dsimp only [clause]
      rw [bind_of_ok (hname _)]
      exact congrArg (EStateM.Result.ok _) (hbehind 1).symm
  | replaces word name =>
      obtain ⟨rfl, rfl⟩ := List.cons.inj htokens
      have hobjection := (objection?_eq_none_iff (c := .replaces) rfl).mpr hadmissible
      have hname := expectIdentifier_of_pending hs (hvalid name (by simp)) hpart.2
      dsimp only [HeaderPart.clause?]
      rw [hobjection]
      dsimp only [clause]
      rw [bind_of_ok (hname _)]
      exact congrArg (EStateM.Result.ok _) (hbehind 1).symm
  | native word =>
      obtain ⟨rfl, rfl⟩ := List.cons.inj htokens
      have hobjection := (objection?_eq_none_iff (c := .native) rfl).mpr hadmissible
      dsimp only [HeaderPart.clause?]
      rw [hobjection]
      exact congrArg (EStateM.Result.ok _) ((hbehind 0).trans hzero).symm
  | other u =>
      obtain ⟨rfl, rfl⟩ := List.cons.inj htokens
      have hno : (strict && h.native.isSome) = false := by
        cases hstrict : strict with
        | false => rfl
        | true =>
            rw [hadmissible hstrict]
            rfl
      dsimp only [HeaderPart.clause?]
      unfold tolerate
      rw [hno]
      rw [List.length_nil, hzero]
      rfl

/-- The state behind some parts, of which at most `n` may be read. White space behind the last part
is read as well, unless that is the last one that may be read. -/
def State.afterParts (s : State) (n : Nat) (subject : String) (parts : List HeaderPart) : State :=
  let count := (parts.flatMap HeaderPart.tokens).length
  { cursor := (if parts.length = n then s.behind count else s.upTo count).cursor
    strays := s.strays ++ parts.filterMap (stray? subject) }

/-- Behind one part, the state is that behind the others. -/
theorem State.afterParts_cons (s : State) (n : Nat) (subject : String) (part : HeaderPart)
    (parts : List HeaderPart) :
    State.afterParts ⟨(s.behind part.tokens.length).cursor,
      s.strays ++ (part.stray? subject).toList⟩ n subject parts =
        s.afterParts (n + 1) subject (part :: parts) := by
  have hstrays : (part :: parts).filterMap (stray? subject) =
      (part.stray? subject).toList ++ parts.filterMap (stray? subject) := by
    rw [List.filterMap_cons]
    cases part.stray? subject <;> rfl
  unfold State.afterParts
  dsimp only
  rw [List.flatMap_cons, List.length_append, List.length_cons, hstrays, List.append_assoc]
  by_cases hfull : parts.length = n
  · rw [if_pos hfull, if_pos (by omega)]
    unfold behind
    rw [ZDecl.behind_behind]
  · rw [if_neg hfull, if_neg (by omega)]
    unfold State.behind State.upTo ZDecl.upTo
    rw [ZDecl.behind_behind]

/-- **Parts that stop there are read**, each as the header begun with those before it takes it. -/
theorem clauses_of_parts (hs : s.pending = parts.flatMap HeaderPart.tokens ++ rest)
    (hvalid : ∀ t ∈ parts.flatMap HeaderPart.tokens, t.valid = true)
    (hparts : ∀ part ∈ parts, part.WellFormed) (hadmissible : AdmissibleAll strict h parts)
    (hcount : parts.length ≤ n)
    (hstop : parts.length = n ∨ rest = [] ∨ startsWith .openCurly rest = true) :
    clauses strict n h s = .ok (parts.foldl addTo h) (s.afterParts n h.subject parts) := by
  induction parts generalizing n h s with
  | nil =>
      cases n with
      | zero =>
          have hsame : s.afterParts 0 h.subject [] = s := by
            unfold State.afterParts State.behind
            simp
          rw [hsame]
          rfl
      | succ n =>
          have hsame : s.afterParts (n + 1) h.subject [] = s.afterSkip := by
            unfold State.afterParts State.upTo ZDecl.upTo State.afterSkip Cursor.skip
            simp
          rw [hsame]
          rcases hstop with hfull | hnil | hstart
          · cases hfull
          · exact clauses_of_pending_eq_nil (hs.trans hnil)
          · cases hrest : rest with
            | nil => exact clauses_of_pending_eq_nil (hs.trans hrest)
            | cons t tail =>
                rw [hrest, startsWith_cons, Bool.and_eq_true, decide_eq_true_eq] at hstart
                exact clauses_of_openCurly (hs.trans hrest) hstart.1 hstart.2
  | cons part parts ih =>
      obtain ⟨hpart, hparts⟩ := List.forall_mem_cons.mp hparts
      rw [List.flatMap_cons] at hs hvalid
      obtain ⟨hpartValid, hvalid⟩ := List.forall_mem_append.mp hvalid
      obtain ⟨t, left, htokens⟩ := List.exists_cons_of_ne_nil part.tokens_ne_nil
      have hcons : s.pending = t :: (left ++ (parts.flatMap HeaderPart.tokens ++ rest)) := by
        rw [hs, htokens, List.append_assoc, List.cons_append]
      rw [htokens] at hpartValid
      obtain ⟨htvalid, hleftValid⟩ := List.forall_mem_cons.mp hpartValid
      have hkind := kind_ne_openCurly_of_tokens hpart htokens
      cases n with
      | zero => cases hcount
      | succ n =>
          have hone : (s.behind 1).pending = left ++ (parts.flatMap HeaderPart.tokens ++ rest) := by
            rw [State.pending_behind, hcons, List.drop_succ_cons, List.drop_zero]
          have hread := headerPart_of_part hpart hadmissible.1 htokens hone hleftValid
          have hlength : 1 + left.length = part.tokens.length := by
            rw [htokens, List.length_cons, Nat.add_comm]
          rw [State.behind_behind, hlength] at hread
          rw [clauses_of_valid hcons htvalid hkind, State.afterNext_afterSkip, State.afterNext_eq,
            bind_of_ok hread, List.foldl_cons, ← s.afterParts_cons n h.subject part parts,
            ← part.subject_addTo h]
          refine ih ?_ hvalid hparts hadmissible.2 (Nat.le_of_succ_le_succ hcount) ?_
          · show (s.behind part.tokens.length).pending = _
            rw [State.pending_behind, hs, List.append_assoc, List.drop_left]
          · exact hstop.imp_left Nat.succ.inj

/-- The state behind a header. -/
def State.afterHeader (s : State) (subject : String) (parts : List HeaderPart) : State :=
  (s.behind 1).afterParts maxClauses subject parts

/-- What is significant behind a header. -/
theorem State.pending_afterHeader (hbegins : BeginsWithHeader strict s.pending name parts rest)
    (subject : String) : (s.afterHeader subject parts).pending = rest := by
  have hrest : (s.behind 1).pending.drop (parts.flatMap HeaderPart.tokens).length = rest := by
    rw [State.pending_behind, hbegins.split, List.drop_succ_cons, List.drop_zero, List.drop_left]
  unfold State.afterHeader State.afterParts State.pending
  dsimp only
  split
  · exact (State.pending_behind _ _).trans hrest
  · exact (State.pending_upTo _ _).trans hrest

/-- **A header is read wherever there is one.** -/
theorem header_of_begins (hbegins : BeginsWithHeader strict s.pending name parts rest) :
    header strict kind s = .ok (headerOf kind name parts)
      (s.afterHeader (Header.ofName kind name).subject parts) := by
  have hvalid := List.forall_mem_cons.mp hbegins.valid
  have hname := expectIdentifier_of_pending hbegins.split hvalid.1 hbegins.name
    (Header.nameRole kind)
  have hrest : (s.behind 1).pending = parts.flatMap HeaderPart.tokens ++ rest := by
    rw [State.pending_behind, hbegins.split, List.drop_succ_cons, List.drop_zero]
  unfold header
  rw [bind_of_ok hname]
  exact clauses_of_parts hrest hvalid.2 hbegins.wellFormed
    (admissibleAll_ofName kind name hbegins.order) hbegins.count hbegins.stop

/-- A header that is read is one that is there. -/
theorem exists_begins_of_header {s' : State} (hread : header strict kind s = .ok h s') :
    ∃ name parts rest, BeginsWithHeader strict s.pending name parts rest ∧
      h = headerOf kind name parts ∧
        s' = s.afterHeader (Header.ofName kind name).subject parts := by
  obtain ⟨used, hused, hvalid, name, parts, rfl, hname, hcount, hparts, horder, rfl, hstop⟩ :=
    (accepts_header strict kind).of_ok hread
  have hbegins : BeginsWithHeader strict s.pending name parts s'.pending :=
    ⟨hused, hvalid, hname, hcount, hparts, horder, hstop⟩
  refine ⟨name, parts, s'.pending, hbegins, rfl, ?_⟩
  cases hread.symm.trans (header_of_begins hbegins)
  rfl

end Scan

/-! ## Headers in a session -/

namespace Session

/-- The session behind a header with these parts. White space in front of an opening brace is read
as well, and every token that belongs to no clause is warned of. -/
def afterHeader (s : Session) (subject : String) (parts : List HeaderPart) : Session :=
  let count := 1 + (parts.flatMap HeaderPart.tokens).length
  let moved := if parts.length = Scan.maxClauses then s.behind count else s.upTo count
  let warnings := (parts.filterMap (stray? subject)).map fun t => t.warning s.context.name
  { moved with diagnostics := s.diagnostics.warnAll warnings }

/-- The session is where the reader is. -/
theorem advance_afterHeader (s : Session) (subject : String) (parts : List HeaderPart) :
    s.advance (Scan.State.afterHeader ⟨s.context.cursor, []⟩ subject parts) =
      s.afterHeader subject parts := by
  unfold Session.advance Scan.State.afterHeader Scan.State.afterParts Session.afterHeader
  unfold Session.behind Session.upTo Scan.State.behind Scan.State.upTo
  unfold ZDecl.upTo
  dsimp only
  rw [List.nil_append, behind_behind]
  split <;> rfl

end Session

/-- What reading a header of this kind is in the session `s`. -/
structure ReadsHeader (s : Session) (kind : TypeKind) : Prop where
  /-- A header is read if and only if the tokens start with one. It is the one that its parts make,
  and the session stands behind it. -/
  reads : ∀ h s', Session.header kind s = .ok h s' ↔ ∃ name parts rest,
    BeginsWithHeader s.options.strictHeader s.pending name parts rest ∧
      h = headerOf kind name parts ∧ s' = s.afterHeader (Header.ofName kind name).subject parts
  /-- It keeps the name and what its parts give to it. -/
  keeps : ∀ name parts rest,
    BeginsWithHeader s.options.strictHeader s.pending name parts rest →
      (headerOf kind name parts).name = name ∧ ∀ c t,
        (headerOf kind name parts).token? c = some t ↔ ∃ part ∈ parts, part.kept? = some (c, t)
  /-- In a stream, what it keeps stands in the order of a header. -/
  offsets : ∀ contents, (Cursor.ofBytes contents).Reaches s.context.cursor →
    ∀ h s', Session.header kind s = .ok h s' →
      (h.kept.map fun t => t.start.offset).Pairwise (· < ·)
  /-- There is one warning for every token that belongs to no clause, in order. -/
  warns : ∀ h s' name parts rest, Session.header kind s = .ok h s' →
    BeginsWithHeader s.options.strictHeader s.pending name parts rest →
      s'.diagnostics.warnings = s.diagnostics.warnings ++
        (parts.filterMap (stray? h.subject)).map fun t => t.warning s.context.name
  /-- What stands behind the parts is to be read next. -/
  next : ∀ h s' name parts rest, Session.header kind s = .ok h s' →
    BeginsWithHeader s.options.strictHeader s.pending name parts rest →
      s'.pending = rest ∧ s'.next.1 = rest.head?

/-- The tokens of a stream come in the order of their places. -/
theorem Tiles.pairwise_offset {start stop : Nat} {tokens : List Token}
    (h : Tiles start tokens stop) :
    (tokens.map fun t => t.start.offset).Pairwise (· < ·) := by
  induction h with
  | nil stop => exact .nil
  | @cons start _ t _ hstart hlength hrest ih =>
      refine List.pairwise_cons.mpr ⟨fun offset hoffset => ?_, ih⟩
      obtain ⟨u, hu, rfl⟩ := List.mem_map.mp hoffset
      have hbehind : start + t.span.length ≤ u.start.offset := hrest.le_start u hu
      show t.start.offset < u.start.offset
      omega

namespace Grammar

/-- Parts leave alone what is declared. -/
theorem subject_foldl_addTo (parts : List HeaderPart) (h : Header) :
    (parts.foldl addTo h).subject = h.subject := by
  induction parts generalizing h with
  | nil => rfl
  | cons part parts ih => rw [List.foldl_cons, ih, part.subject_addTo]

end Grammar

namespace Session

variable {s s' : Session} {kind : TypeKind} {h : Header}

/-- Where a header begins, it is read. -/
theorem header_of_begins {name : Token} {parts : List HeaderPart} {rest : List Token}
    (hbegins : BeginsWithHeader s.options.strictHeader s.pending name parts rest) :
    header kind s = .ok (headerOf kind name parts)
      (s.afterHeader (Header.ofName kind name).subject parts) := by
  have hread : Scan.header s.options.strictHeader kind ⟨s.context.cursor, []⟩ = .ok _ _ :=
    Scan.header_of_begins hbegins
  rw [← advance_afterHeader]
  exact scan_eq_ok_iff.mpr ⟨_, hread, rfl⟩

/-- Where a header is read, it begins. -/
theorem exists_begins_of_header (hread : header kind s = .ok h s') :
    ∃ name parts rest, BeginsWithHeader s.options.strictHeader s.pending name parts rest ∧
      h = headerOf kind name parts ∧
        s' = s.afterHeader (Header.ofName kind name).subject parts := by
  obtain ⟨r, hr, rfl⟩ := scan_eq_ok_iff.mp hread
  obtain ⟨name, parts, rest, hbegins, hh, rfl⟩ := Scan.exists_begins_of_header hr
  exact ⟨name, parts, rest, hbegins, hh, s.advance_afterHeader _ _⟩

/-- **A header is a name and up to four parts in order**, wherever in a file a session stands. -/
theorem readsHeader (s : Session) (kind : TypeKind) : ReadsHeader s kind where
  reads := by
    intro h s'
    refine ⟨exists_begins_of_header, ?_⟩
    rintro ⟨name, parts, rest, hbegins, rfl, rfl⟩
    exact header_of_begins hbegins
  keeps := by
    intro name parts rest hbegins
    refine ⟨headerOf_name kind name parts, fun c t => ?_⟩
    exact token?_headerOf_eq_some_iff hbegins.order
  offsets := by
    intro contents hreaches h s' hread
    obtain ⟨name, parts, rest, hbegins, rfl, -⟩ := exists_begins_of_header hread
    have hkept := kept_headerOf_sublist kind name hbegins.order
    have hused : (name :: parts.flatMap HeaderPart.tokens).Sublist s.pending := by
      rw [hbegins.split, ← List.cons_append]
      exact List.sublist_append_left _ _
    have htokens : s.pending.Sublist (Cursor.ofBytes contents).tokens :=
      List.filter_sublist.trans hreaches.tokens.sublist
    exact (tiles_ofBytes contents).pairwise_offset.sublist
      (((hkept.trans hused).trans htokens).map _)
  warns := by
    intro h s' name parts rest hread hbegins
    cases hread.symm.trans (header_of_begins hbegins)
    rw [headerOf, subject_foldl_addTo]
    rfl
  next := by
    intro h s' name parts rest hread hbegins
    cases hread.symm.trans (header_of_begins hbegins)
    rw [← advance_afterHeader]
    have hpending := Scan.State.pending_afterHeader (s := ⟨s.context.cursor, []⟩) hbegins
      (Header.ofName kind name).subject
    refine ⟨hpending, ?_⟩
    have hhead := (Scan.State.afterHeader ⟨s.context.cursor, []⟩
      (Header.ofName kind name).subject parts).significant_fst.1
    rw [hpending] at hhead
    exact hhead

end Session

/-! ## Native types -/

/-- Is the type declared in the file with a mark for native types that ends its header, right before
the brace that opens its body? -/
def NativeEndsHeader (source : SourceFile) (d : Declaration) : Prop :=
  ∃ (h : Header) (kind : TypeKind) (word mark brace : Token) (before header after : List Token),
    unskipped (Cursor.ofBytes source.contents).tokens =
        before ++ word :: (header ++ mark :: brace :: after) ∧
      word.isWord kind.word = true ∧ DerivesHeader true kind (header ++ [mark]) h ∧
        d = .ofHeader h source.name d.body ∧ h.native = some mark ∧ brace.valid = true ∧
          brace.kind = .openCurly

/-- A strict header with the mark for native types ends with it. -/
theorem exists_front_of_derivesHeader {kind : TypeKind} {tokens : List Token} {h : Header}
    {mark : Token} (hheader : DerivesHeader true kind tokens h) (hnative : h.native = some mark) :
    ∃ front, tokens = front ++ [mark] := by
  cases hheader with
  | @mk name parts hname hcount hparts horder =>
      obtain ⟨part, hmem, hkept⟩ :=
        (token?_headerOf_eq_some_iff (c := .native) horder).mp hnative
      have hpart : part = .native mark := by
        cases part <;> cases hkept
        rfl
      obtain ⟨front, rfl⟩ := exists_front_of_native_mem horder (hpart ▸ hmem)
      refine ⟨name :: front.flatMap HeaderPart.tokens, ?_⟩
      rw [List.flatMap_append]
      rfl

/-- If headers are strict, a native type that is derived has its body right behind the mark. -/
theorem nativeEndsHeader_of_derivedIn {source : SourceFile} {d : Declaration}
    (hd : d.DerivedIn true source) (hnative : d.form.clauses.native = true) :
    NativeEndsHeader source d := by
  obtain ⟨used, ⟨before, after, htokens⟩, hvalid, hderives⟩ := hd
  generalize hitem : Item.declaration d = item at hderives
  cases hderives with
  | @type kind word header block body h hword hheader hblock =>
      cases hitem
      obtain ⟨mark, hmark⟩ := Option.isSome_iff_exists.mp hnative
      obtain ⟨front, rfl⟩ := exists_front_of_derivesHeader hheader hmark
      cases hblock with
      | @mk brace right body tail hbrace hbody hright htail =>
          refine ⟨h, kind, word, mark, brace, before, front,
            body ++ right :: tail ++ after, ?_, hword, hheader, rfl, hmark, ?_, hbrace⟩
          · rw [← htokens]
            simp only [List.append_assoc, List.cons_append, List.nil_append]
          · exact hvalid brace (by simp)
  | constant _ _ _ _ _ | enumeration _ _ _ =>
      cases hitem
      cases hnative
  | inclusion _ _ _ | version _ _ _ | word _ _ => cases hitem

variable {ρ μ : Type}

/-- **Headers follow the order of their clauses**: in every session, those that are read, and, in
every use of a new session with the same options, if headers are strict, those of all native types
that are recorded. -/
theorem headers_follow_clause_order (s : Session) (handlers : Handlers ρ μ) (m : μ) :
    (∀ kind, ReadsHeader s kind) ∧
      EveryRecorded (fun source d => s.options.strictHeader = true →
        d.form.clauses.native = true → NativeEndsHeader source d) handlers s m := by
  refine ⟨s.readsHeader, everyRecorded_of_derivedIn (fun source d hd hstrict => ?_) handlers m⟩
  rw [hstrict] at hd
  exact nativeEndsHeader_of_derivedIn hd

end ZDecl
