import ZDecl.Session.Parse

/-!
# Histories of a session

What happens in a session depends on handlers, on handlers of the files that these parse, and so on.
This file tells it as a story without fuel: a derivation of `Runs` is a run of some part of a
session, and its history lists what happened, in order, with the session as it was right after.

* `Event`, `Moment`: what can happen in a session, and when.
* `Task`: the parts of a session that can run: a file, the items of a file from some place on, one
  item, an answer.
* **`Runs`**: the runs, with a rule for every way that a part can go.
* `Runs.depth_options_eq`: a part leaves the nesting and the options as they were.
* **`Runs.unique`**: a part has one run only, so that one may speak of its history.
-/

namespace ZDecl

variable {ρ μ : Type}

/-! ## What happens -/

/-- What can happen in a session. -/
inductive Event where
  /-- A file is parsed from its start on. -/
  | opened (source : SourceFile)
  /-- A reader has read on. -/
  | read
  /-- An item other than an include directive is performed. -/
  | performed (item : Item)
  /-- An include directive is checked; the verdict is why it is rejected. -/
  | reached (path : Token) (verdict : Option Cause)
  /-- The session goes into an include. -/
  | entered (path : String)
  /-- The session comes back from an include. -/
  | left
  /-- A failure is reported. -/
  | reported (f : Failure)
  /-- An answer asks for something that reads nothing. -/
  | requested
  deriving DecidableEq, Repr

/-- An event and the session right after it. -/
structure Moment where
  /-- What happened. -/
  event : Event
  /-- The session then. -/
  session : Session
  deriving DecidableEq, Repr

/-- Why an include directive is rejected before anybody is asked for the file. -/
def Session.rejection? (s : Session) (path : String) : Option Cause :=
  match s.objection? path with
  | some cause => some cause
  | none =>
    if s.depth < s.options.maxIncludeDepth then none
    else some (.tooDeep path s.options.maxIncludeDepth)

/-- The session after an item that is no include directive. -/
def Session.plain? (s : Session) : Item → Option Session
  | .word _ => some s
  | .version v => some (s.setVersion v)
  | .declaration d => some (s.record d)
  | .inclusion _ => none

namespace Answer

/-- Does the answer first read `p` in the session, and go on with `k`? -/
inductive Scans : {β : Type} → Answer ρ μ → Session → Scan β →
    (Except Failure β → Answer ρ μ) → Prop where
  /-- An expression. -/
  | expression {k : Except Failure (List Token) → Answer ρ μ} {s : Session} :
      Scans (.expression k) s Scan.expression k
  /-- A block or, with `single`, one statement. -/
  | block {single : Bool} {k : Except Failure (List Token) → Answer ρ μ} {s : Session} :
      Scans (.block single k) s (if single then Scan.blockOrStatement else Scan.block) k
  /-- A header. -/
  | header {kind : TypeKind} {k : Except Failure Header → Answer ρ μ} {s : Session} :
      Scans (.header kind k) s (Scan.header s.options.strictHeader kind) k

/-- What the answer does first if that is to read nothing and to parse nothing: the rest of the
answer, the session, and what is remembered. -/
def request? : Answer ρ μ → Session × μ → Option (Answer ρ μ × Session × μ)
  | .inspect k, (s, m) => some (k s, s, m)
  | .resume context k, (s, m) => some (k, s.resume context, m)
  | .takeDeclarations k, (s, m) => some (k s.takeDeclarations.1, s.takeDeclarations.2, m)
  | .memory k, (s, m) => some (k m, s, m)
  | .remember m' k, (s, _) => some (k, s, m')
  | _, _ => none

end Answer

/-- The parts of a session that can run. -/
inductive Task (ρ μ : Type) where
  /-- A file in a role. -/
  | file (role : ρ) (source : SourceFile)
  /-- The items of a file in a role, from a cursor on. -/
  | items (role : ρ) (cursor : Cursor)
  /-- An item of a file in a role. -/
  | item (role : ρ) (item : Item)
  /-- An answer. -/
  | answer (a : Answer ρ μ)

/-- **The runs of the parts of a session**: where a part runs, what happens, what comes of it, and
the state that it ends in. -/
inductive Runs (handlers : Handlers ρ μ) :
    Task ρ μ → Session × μ → List Moment → Except Failure Unit → Session × μ → Prop where
  /-- No file is parsed once a failure is known. -/
  | known {role : ρ} {source : SourceFile} {s : Session} {m : μ} {f : Failure}
      (hfailure : s.diagnostics.failure = some f) :
      Runs handlers (.file role source) (s, m) [] (.error f) (s, m)
  /-- A file is parsed as its items. -/
  | opened {role : ρ} {source : SourceFile} {s : Session} {m : μ} {history : List Moment}
      {result : Except Failure Unit} {st : Session × μ} (hfailure : s.diagnostics.failure = none)
      (hitems : Runs handlers (.items role (Cursor.ofBytes source.contents))
        (s.resume (Context.ofFile source), m) history result st) :
      Runs handlers (.file role source) (s, m)
        (⟨.opened source, s.resume (Context.ofFile source)⟩ :: history) result st
  /-- The items end with the stream. -/
  | finished {role : ρ} {cursor : Cursor} {s : Session} {m : μ} {r : Scan.State}
      (hread : Item.next? s.options.strictHeader s.context.name ⟨cursor, []⟩ = .ok none r) :
      Runs handlers (.items role cursor) (s, m) [⟨.read, s.advance r⟩] (.ok ()) (s.advance r, m)
  /-- The next item cannot be read. -/
  | stopped {role : ρ} {cursor : Cursor} {s : Session} {m : μ} {f : Failure} {r : Scan.State}
      (hread : Item.next? s.options.strictHeader s.context.name ⟨cursor, []⟩ = .error f r) :
      Runs handlers (.items role cursor) (s, m)
        [⟨.read, s.advance r⟩,
          ⟨.reported (f.inSource s.context.name),
            (s.advance r).report (f.inSource s.context.name)⟩]
        (.error (f.inSource s.context.name))
        ((s.advance r).report (f.inSource s.context.name), m)
  /-- An item is performed, and then the items after it. -/
  | more {role : ρ} {cursor : Cursor} {s : Session} {m : μ} {item : Item} {r : Scan.State}
      {history later : List Moment} {result : Except Failure Unit} {st st' : Session × μ}
      (hread : Item.next? s.options.strictHeader s.context.name ⟨cursor, []⟩ = .ok (some item) r)
      (hitem : Runs handlers (.item role item) (s.advance r, m) history (.ok ()) st)
      (hrest : Runs handlers (.items role r.cursor) st later result st') :
      Runs handlers (.items role cursor) (s, m) (⟨.read, s.advance r⟩ :: (history ++ later))
        result st'
  /-- An item fails. -/
  | broken {role : ρ} {cursor : Cursor} {s : Session} {m : μ} {item : Item} {r : Scan.State}
      {history : List Moment} {f : Failure} {st : Session × μ}
      (hread : Item.next? s.options.strictHeader s.context.name ⟨cursor, []⟩ = .ok (some item) r)
      (hitem : Runs handlers (.item role item) (s.advance r, m) history (.error f) st) :
      Runs handlers (.items role cursor) (s, m) (⟨.read, s.advance r⟩ :: history) (.error f) st
  /-- An item that is no include directive is performed. -/
  | performed {role : ρ} {item : Item} {s s' : Session} {m : μ} (hitem : s.plain? item = some s') :
      Runs handlers (.item role item) (s, m) [⟨.performed item, s'⟩] (.ok ()) (s', m)
  /-- An include directive is rejected. -/
  | rejected {role : ρ} {t : Token} {s : Session} {m : μ} {cause : Cause} {f : Failure}
      (hcause : s.rejection? t.unquoted = some cause)
      (hf : f = Failure.inSource { cause, span := t.span } s.context.name) :
      Runs handlers (.item role (.inclusion t)) (s, m)
        [⟨.reached t (some cause), s⟩, ⟨.reported f, s.report f⟩] (.error f) (s.report f, m)
  /-- An include directive is answered and all went well. -/
  | included {role : ρ} {t : Token} {s s' : Session} {m m' : μ} {history : List Moment}
      (hcause : s.rejection? t.unquoted = none)
      (hanswer : Runs handlers (.answer (handlers role t.unquoted)) (s.enter t.unquoted, m)
        history (.ok ()) (s', m'))
      (hfailure : s'.diagnostics.failure = none) :
      Runs handlers (.item role (.inclusion t)) (s, m)
        (⟨.reached t none, s⟩ :: ⟨.entered t.unquoted, s.enter t.unquoted⟩ ::
          (history ++ [⟨.left, s'.leave.resume s.context⟩]))
        (.ok ()) (s'.leave.resume s.context, m')
  /-- An include directive is answered, but a failure was reported on the way. -/
  | spoiled {role : ρ} {t : Token} {s s' : Session} {m m' : μ} {history : List Moment}
      {f : Failure} (hcause : s.rejection? t.unquoted = none)
      (hanswer : Runs handlers (.answer (handlers role t.unquoted)) (s.enter t.unquoted, m)
        history (.ok ()) (s', m'))
      (hfailure : s'.diagnostics.failure = some f) :
      Runs handlers (.item role (.inclusion t)) (s, m)
        (⟨.reached t none, s⟩ :: ⟨.entered t.unquoted, s.enter t.unquoted⟩ ::
          (history ++ [⟨.left, s'.leave⟩]))
        (.error f) (s'.leave, m')
  /-- An include directive is refused by its answer. -/
  | refused {role : ρ} {t : Token} {s s' : Session} {m m' : μ} {history : List Moment}
      {f placed : Failure} (hcause : s.rejection? t.unquoted = none)
      (hanswer : Runs handlers (.answer (handlers role t.unquoted)) (s.enter t.unquoted, m)
        history (.error f) (s', m'))
      (hplaced : placed = (f.placedAt t.span).inSource s.context.name) :
      Runs handlers (.item role (.inclusion t)) (s, m)
        (⟨.reached t none, s⟩ :: ⟨.entered t.unquoted, s.enter t.unquoted⟩ ::
          (history ++ [⟨.left, s'.leave⟩, ⟨.reported placed, s'.leave.report placed⟩]))
        (.error (s'.diagnostics.failure.getD placed)) (s'.leave.report placed, m')
  /-- An answer comes to an end. -/
  | ended {result : Except Failure Unit} {s : Session} {m : μ} :
      Runs handlers (.answer (.finish result)) (s, m) [] result (s, m)
  /-- An answer parses a file and goes on. -/
  | parsed {role : ρ} {source : SourceFile} {k : Except Failure Unit → Answer ρ μ} {s : Session}
      {m : μ} {history later : List Moment} {result result' : Except Failure Unit}
      {st st' : Session × μ}
      (hfile : Runs handlers (.file role source) (s, m) history result st)
      (hrest : Runs handlers (.answer (k result)) st later result' st') :
      Runs handlers (.answer (.parse role source k)) (s, m) (history ++ later) result' st'
  /-- An answer reads in the session and goes on. -/
  | scanned {β : Type} {a : Answer ρ μ} {p : Scan β} {k : Except Failure β → Answer ρ μ}
      {s : Session} {m : μ} {b : β} {r : Scan.State} {history : List Moment}
      {result : Except Failure Unit} {st : Session × μ} (hscans : a.Scans s p k)
      (hread : p ⟨s.context.cursor, []⟩ = .ok b r)
      (hrest : Runs handlers (.answer (k (.ok b))) (s.advance r, m) history result st) :
      Runs handlers (.answer a) (s, m) (⟨.read, s.advance r⟩ :: history) result st
  /-- An answer cannot read in the session and goes on. -/
  | missed {β : Type} {a : Answer ρ μ} {p : Scan β} {k : Except Failure β → Answer ρ μ}
      {s : Session} {m : μ} {f named : Failure} {r : Scan.State} {history : List Moment}
      {result : Except Failure Unit} {st : Session × μ} (hscans : a.Scans s p k)
      (hread : p ⟨s.context.cursor, []⟩ = .error f r)
      (hnamed : named = f.inSource s.context.name)
      (hrest : Runs handlers (.answer (k (.error named))) ((s.advance r).report named, m) history
        result st) :
      Runs handlers (.answer a) (s, m)
        (⟨.read, s.advance r⟩ :: ⟨.reported named, (s.advance r).report named⟩ :: history) result
        st
  /-- An answer asks for something else and goes on. -/
  | requested {a a' : Answer ρ μ} {s s' : Session} {m m' : μ} {history : List Moment}
      {result : Except Failure Unit} {st : Session × μ}
      (hrequest : a.request? (s, m) = some (a', s', m'))
      (hrest : Runs handlers (.answer a') (s', m') history result st) :
      Runs handlers (.answer a) (s, m) (⟨.requested, s'⟩ :: history) result st

/-- An answer that has come to an end does nothing. -/
theorem Runs.of_finish {handlers : Handlers ρ μ} {result result' : Except Failure Unit}
    {st st' : Session × μ} {history : List Moment}
    (h : Runs handlers (.answer (.finish result)) st history result' st') :
    history = [] ∧ result' = result ∧ st' = st := by
  cases h with
  | ended => exact ⟨rfl, rfl, rfl⟩
  | scanned hscans _ _ => cases hscans
  | missed hscans _ _ _ => cases hscans
  | requested hrequest _ => cases hrequest

/-! ## What every part leaves alone -/

/-- An item that is no include directive leaves the nesting and the options alone. -/
theorem Session.depth_options_of_plain? {s s' : Session} {item : Item}
    (h : s.plain? item = some s') : s'.depth = s.depth ∧ s'.options = s.options := by
  cases item with
  | inclusion t => cases h
  | word t =>
      cases h
      exact ⟨rfl, rfl⟩
  | version v =>
      cases h
      exact ⟨rfl, rfl⟩
  | declaration d =>
      cases h
      simp [record_eq]

/-- An item that is no include directive leaves the file that is being read alone. -/
theorem Session.context_of_plain? {s s' : Session} {item : Item} (h : s.plain? item = some s') :
    s'.context = s.context := by
  cases item with
  | inclusion t => cases h
  | word t => cases h; rfl
  | version v => cases h; rfl
  | declaration d =>
      cases h
      simp [record_eq]

/-- An item that succeeds leaves the file that is being read alone, whatever it includes. -/
theorem Runs.context_of_item_ok {handlers : Handlers ρ μ} {role : ρ} {item : Item} {s : Session}
    {m : μ} {history : List Moment} {st' : Session × μ}
    (h : Runs handlers (.item role item) (s, m) history (.ok ()) st') :
    st'.1.context = s.context := by
  cases h with
  | performed hitem => exact Session.context_of_plain? hitem
  | included _ _ _ => rfl

/-- Performing an item that is no include directive reports nothing. -/
theorem Session.failure_of_plain? {s s' : Session} {item : Item} (h : s.plain? item = some s') :
    s'.diagnostics.failure = s.diagnostics.failure := by
  cases item with
  | inclusion t => cases h
  | word t => cases h; rfl
  | version v => cases h; rfl
  | declaration d =>
      cases h
      simp [record_eq, Diagnostics.warnAll]

/-- The failure that is known after a report. -/
theorem Session.failure_report (s : Session) (f : Failure) :
    (s.report f).diagnostics.failure = some (s.diagnostics.failure.getD f) := by
  unfold report Diagnostics.report
  cases s.diagnostics.failure with
  | none => rfl
  | some first => rfl

/-- What an answer asks for leaves the nesting and the options alone. -/
theorem Answer.depth_options_of_request? {a a' : Answer ρ μ} {s s' : Session} {m m' : μ}
    (h : a.request? (s, m) = some (a', s', m')) :
    s'.depth = s.depth ∧ s'.options = s.options := by
  cases a with
  | inspect k | resume context k | takeDeclarations k | memory k | remember m₀ k =>
      cases h
      exact ⟨rfl, rfl⟩
  | _ => cases h

/-- A part leaves the nesting and the options as they were. -/
theorem Runs.depth_options_eq {handlers : Handlers ρ μ} {task : Task ρ μ} {st st' : Session × μ}
    {history : List Moment} {result : Except Failure Unit}
    (h : Runs handlers task st history result st') :
    st'.1.depth = st.1.depth ∧ st'.1.options = st.1.options := by
  induction h with
  | known | finished | stopped | rejected | ended => exact ⟨rfl, rfl⟩
  | opened _ _ ih | broken _ _ ih | scanned _ _ _ ih | missed _ _ _ _ ih => exact ih
  | more _ _ _ ih₁ ih₂ | parsed _ _ ih₁ ih₂ =>
      exact ⟨ih₂.1.trans ih₁.1, ih₂.2.trans ih₁.2⟩
  | performed hitem => exact Session.depth_options_of_plain? hitem
  | @included _ _ s s' _ _ _ _ _ _ ih | @spoiled _ _ s s' _ _ _ _ _ _ _ ih
  | @refused _ _ s s' _ _ _ _ _ _ _ _ ih =>
      -- The session inside an include is nested once more.
      have hdepth : s'.depth = s.depth + 1 := ih.1
      refine ⟨?_, ih.2⟩
      show s'.depth - 1 = s.depth
      rw [hdepth, Nat.add_sub_cancel]
  | requested hrequest _ ih =>
      obtain ⟨hdepth, hoptions⟩ := Answer.depth_options_of_request? hrequest
      exact ⟨ih.1.trans hdepth, ih.2.trans hoptions⟩

/-! ## Runs are unique -/

/-- What an answer reads first is determined by the answer. -/
theorem Answer.Scans.not_request? {β : Type} {a : Answer ρ μ} {s : Session} {p : Scan β}
    {k : Except Failure β → Answer ρ μ} (h : a.Scans s p k) (st : Session × μ) :
    a.request? st = none := by
  cases h with
  | expression => rfl
  | block => rfl
  | header => rfl

/-- An answer reads one thing first. -/
theorem Answer.Scans.unique {β γ : Type} {a : Answer ρ μ} {s : Session} {p : Scan β} {q : Scan γ}
    {k : Except Failure β → Answer ρ μ} {j : Except Failure γ → Answer ρ μ} (h : a.Scans s p k)
    (h' : a.Scans s q j) : β = γ ∧ HEq p q ∧ HEq k j := by
  cases h with
  | expression => cases h'; exact ⟨rfl, HEq.rfl, HEq.rfl⟩
  | block => cases h'; exact ⟨rfl, HEq.rfl, HEq.rfl⟩
  | header => cases h'; exact ⟨rfl, HEq.rfl, HEq.rfl⟩

/-- **A part has one run only**: its history, its result and its final state are determined. -/
theorem Runs.unique {handlers : Handlers ρ μ} {task : Task ρ μ} {st st₁ st₂ : Session × μ}
    {history history' : List Moment} {result result' : Except Failure Unit}
    (h : Runs handlers task st history result st₁)
    (h' : Runs handlers task st history' result' st₂) :
    history' = history ∧ result' = result ∧ st₂ = st₁ := by
  induction h generalizing history' result' st₂ with
  | known hfailure =>
      cases h' with
      | known hfailure' =>
          cases hfailure.symm.trans hfailure'
          exact ⟨rfl, rfl, rfl⟩
      | opened hfailure' _ => cases hfailure.symm.trans hfailure'
  | opened hfailure _ ih =>
      cases h' with
      | known hfailure' => cases hfailure.symm.trans hfailure'
      | opened _ hitems =>
          obtain ⟨rfl, rfl, rfl⟩ := ih hitems
          exact ⟨rfl, rfl, rfl⟩
  | finished hread =>
      cases h' with
      | finished hread' =>
          cases hread.symm.trans hread'
          exact ⟨rfl, rfl, rfl⟩
      | stopped hread' => cases hread.symm.trans hread'
      | more hread' _ _ => cases hread.symm.trans hread'
      | broken hread' _ => cases hread.symm.trans hread'
  | stopped hread =>
      cases h' with
      | finished hread' => cases hread.symm.trans hread'
      | stopped hread' =>
          cases hread.symm.trans hread'
          exact ⟨rfl, rfl, rfl⟩
      | more hread' _ _ => cases hread.symm.trans hread'
      | broken hread' _ => cases hread.symm.trans hread'
  | more hread _ _ ihitem ihrest =>
      cases h' with
      | finished hread' => cases hread.symm.trans hread'
      | stopped hread' => cases hread.symm.trans hread'
      | more hread' hitem hrest =>
          cases hread.symm.trans hread'
          obtain ⟨rfl, -, rfl⟩ := ihitem hitem
          obtain ⟨rfl, rfl, rfl⟩ := ihrest hrest
          exact ⟨rfl, rfl, rfl⟩
      | broken hread' hitem =>
          cases hread.symm.trans hread'
          cases (ihitem hitem).2.1
  | broken hread _ ih =>
      cases h' with
      | finished hread' => cases hread.symm.trans hread'
      | stopped hread' => cases hread.symm.trans hread'
      | more hread' hitem _ =>
          cases hread.symm.trans hread'
          cases (ih hitem).2.1
      | broken hread' hitem =>
          cases hread.symm.trans hread'
          obtain ⟨rfl, hresult, rfl⟩ := ih hitem
          exact ⟨rfl, hresult, rfl⟩
  | performed hitem =>
      cases h' with
      | performed hitem' =>
          cases hitem.symm.trans hitem'
          exact ⟨rfl, rfl, rfl⟩
      | rejected _ _ => cases hitem
      | included _ _ _ => cases hitem
      | spoiled _ _ _ => cases hitem
      | refused _ _ _ => cases hitem
  | rejected hcause hf =>
      cases h' with
      | performed hitem => cases hitem
      | rejected hcause' hf' =>
          cases hcause.symm.trans hcause'
          cases hf
          cases hf'
          exact ⟨rfl, rfl, rfl⟩
      | included hcause' _ _ => cases hcause.symm.trans hcause'
      | spoiled hcause' _ _ => cases hcause.symm.trans hcause'
      | refused hcause' _ _ => cases hcause.symm.trans hcause'
  | included hcause _ hfailure ih =>
      cases h' with
      | performed hitem => cases hitem
      | rejected hcause' _ => cases hcause.symm.trans hcause'
      | included _ hanswer _ =>
          obtain ⟨rfl, -, heq⟩ := ih hanswer
          cases heq
          exact ⟨rfl, rfl, rfl⟩
      | spoiled _ hanswer hfailure' =>
          cases (ih hanswer).2.2
          cases hfailure.symm.trans hfailure'
      | refused _ hanswer _ => cases (ih hanswer).2.1
  | spoiled hcause _ hfailure ih =>
      cases h' with
      | performed hitem => cases hitem
      | rejected hcause' _ => cases hcause.symm.trans hcause'
      | included _ hanswer hfailure' =>
          cases (ih hanswer).2.2
          cases hfailure.symm.trans hfailure'
      | spoiled _ hanswer hfailure' =>
          obtain ⟨rfl, -, heq⟩ := ih hanswer
          cases heq
          cases hfailure.symm.trans hfailure'
          exact ⟨rfl, rfl, rfl⟩
      | refused _ hanswer _ => cases (ih hanswer).2.1
  | refused hcause _ hplaced ih =>
      cases h' with
      | performed hitem => cases hitem
      | rejected hcause' _ => cases hcause.symm.trans hcause'
      | included _ hanswer _ => cases (ih hanswer).2.1
      | spoiled _ hanswer _ => cases (ih hanswer).2.1
      | refused _ hanswer hplaced' =>
          obtain ⟨rfl, hresult, heq⟩ := ih hanswer
          cases heq
          cases hresult
          cases hplaced
          cases hplaced'
          exact ⟨rfl, rfl, rfl⟩
  | ended => exact h'.of_finish
  | parsed _ _ ihfile ihrest =>
      cases h' with
      | parsed hfile hrest =>
          obtain ⟨rfl, rfl, rfl⟩ := ihfile hfile
          obtain ⟨rfl, rfl, rfl⟩ := ihrest hrest
          exact ⟨rfl, rfl, rfl⟩
      | scanned hscans _ _ => cases hscans
      | missed hscans _ _ _ => cases hscans
      | requested hrequest _ => cases hrequest
  | scanned hscans hread _ ih =>
      cases h' with
      | ended => cases hscans
      | parsed _ _ => cases hscans
      | scanned hscans' hread' hrest =>
          obtain ⟨rfl, hp, hk⟩ := hscans.unique hscans'
          cases hp
          cases hk
          cases hread.symm.trans hread'
          obtain ⟨rfl, rfl, rfl⟩ := ih hrest
          exact ⟨rfl, rfl, rfl⟩
      | missed hscans' hread' _ _ =>
          obtain ⟨rfl, hp, -⟩ := hscans.unique hscans'
          cases hp
          cases hread.symm.trans hread'
      | requested hrequest _ => cases (hscans.not_request? _).symm.trans hrequest
  | missed hscans hread hnamed _ ih =>
      cases h' with
      | ended => cases hscans
      | parsed _ _ => cases hscans
      | scanned hscans' hread' _ =>
          obtain ⟨rfl, hp, -⟩ := hscans.unique hscans'
          cases hp
          cases hread.symm.trans hread'
      | missed hscans' hread' hnamed' hrest =>
          obtain ⟨rfl, hp, hk⟩ := hscans.unique hscans'
          cases hp
          cases hk
          cases hread.symm.trans hread'
          cases hnamed
          cases hnamed'
          obtain ⟨rfl, rfl, rfl⟩ := ih hrest
          exact ⟨rfl, rfl, rfl⟩
      | requested hrequest _ => cases (hscans.not_request? _).symm.trans hrequest
  | requested hrequest _ ih =>
      cases h' with
      | ended => cases hrequest
      | parsed _ _ => cases hrequest
      | scanned hscans _ _ => cases (hscans.not_request? _).symm.trans hrequest
      | missed hscans _ _ _ => cases (hscans.not_request? _).symm.trans hrequest
      | requested hrequest' hrest =>
          cases hrequest.symm.trans hrequest'
          obtain ⟨rfl, rfl, rfl⟩ := ih hrest
          exact ⟨rfl, rfl, rfl⟩

end ZDecl
