import Mathlib.Data.List.Forall2
import ZDecl.Proofs.Include.Expansion
import ZDecl.Proofs.Scan.Strictness
import ZDecl.Proofs.Session.Growth
import ZDecl.Proofs.Session.Parts

/-!
# Two sessions over an archive in lockstep

The options of a session are read at three places: the reader of headers asks whether headers are
read strictly, an include directive how deep includes may be nested, and a recorded declaration
whether it is logged. Run over the same archive, two sessions do the same step by step up to where
the first of the former two makes a difference, and then one of them fails.

* `Options.Within`: the first options refuse at least what the second refuse.
* `Session.under`, `Session.Matches`: two sessions that are the same but for their options, and for
  what is logged.
* `Moment.Alike`: the same event, with the same file being read at the same place.
* `Parting`: the two places at which one session fails and the other goes on.
* `FallsBehind`: what the sessions still have in common at the end if they parted.
* **`Runs.compare`**: two runs of a part stay in step, or they part at some place in it.

The comparison is an induction on the run that may fail. It needs that no more includes are nested
than its options allow, since otherwise both sessions could reject the same directive with different
limits.
-/

namespace ZDecl

open Scan

/-! ## What runs of items are -/

section Items

variable {ρ μ : Type} {handlers : Handlers ρ μ} {role : ρ} {cursor : Cursor} {s : Session} {m : μ}
  {history : List Moment} {result : Except Failure Unit} {st' : Session × μ} {r : Scan.State}

/-- The run of items where there is none. -/
theorem Runs.of_items_none (h : Runs handlers (.items role cursor) (s, m) history result st')
    (hread : Item.next? s.options.strictHeader s.context.name ⟨cursor, []⟩ = .ok none r) :
    history = [⟨.read, s.advance r⟩] ∧ result = .ok () ∧ st' = (s.advance r, m) := by
  cases h with
  | finished hread' =>
      cases hread.symm.trans hread'
      exact ⟨rfl, rfl, rfl⟩
  | stopped hread' | more hread' _ _ | broken hread' _ => cases hread.symm.trans hread'

/-- The run of items where the next one cannot be read. -/
theorem Runs.of_items_error {f : Failure}
    (h : Runs handlers (.items role cursor) (s, m) history result st')
    (hread : Item.next? s.options.strictHeader s.context.name ⟨cursor, []⟩ = .error f r) :
    history = [⟨.read, s.advance r⟩, ⟨.reported (f.inSource s.context.name),
        (s.advance r).report (f.inSource s.context.name)⟩] ∧
      result = .error (f.inSource s.context.name) ∧
        st' = ((s.advance r).report (f.inSource s.context.name), m) := by
  cases h with
  | stopped hread' =>
      cases hread.symm.trans hread'
      exact ⟨rfl, rfl, rfl⟩
  | finished hread' | more hread' _ _ | broken hread' _ => cases hread.symm.trans hread'

/-- The run of items goes with that of the next one. -/
theorem Runs.of_items_some {item : Item}
    (h : Runs handlers (.items role cursor) (s, m) history result st')
    (hread : Item.next? s.options.strictHeader s.context.name ⟨cursor, []⟩ = .ok (some item) r) :
    (∃ first later st, Runs handlers (.item role item) (s.advance r, m) first (.ok ()) st ∧
        Runs handlers (.items role r.cursor) st later result st' ∧
          history = ⟨.read, s.advance r⟩ :: (first ++ later)) ∨
      ∃ first f, Runs handlers (.item role item) (s.advance r, m) first (.error f) st' ∧
        result = .error f ∧ history = ⟨.read, s.advance r⟩ :: first := by
  cases h with
  | finished hread' | stopped hread' => cases hread.symm.trans hread'
  | more hread' hitem hrest =>
      cases hread.symm.trans hread'
      exact .inl ⟨_, _, _, hitem, hrest, rfl⟩
  | broken hread' hitem =>
      cases hread.symm.trans hread'
      exact .inr ⟨_, _, hitem, rfl, rfl⟩

/-- How the session `s` leaves an include: what came of the answer and the session then, the moments
of leaving, and what comes of the directive. -/
inductive Session.Leaves (s : Session) (t : Token) :
    Except Failure Unit → Session → List Moment → Except Failure Unit → Session → Prop where
  /-- The reading of the including file goes on. -/
  | back {s₁ : Session} (hfailure : s₁.diagnostics.failure = none) :
      Leaves s t (.ok ()) s₁ [⟨.left, s₁.leave.resume s.context⟩] (.ok ())
        (s₁.leave.resume s.context)
  /-- A failure was reported. -/
  | spoiled {s₁ : Session} {f : Failure} (hfailure : s₁.diagnostics.failure = some f) :
      Leaves s t (.ok ()) s₁ [⟨.left, s₁.leave⟩] (.error f) s₁.leave
  /-- The answer failed. -/
  | refused {s₁ : Session} {f placed : Failure}
      (hplaced : placed = (f.placedAt t.span).inSource s.context.name) :
      Leaves s t (.error f) s₁ [⟨.left, s₁.leave⟩, ⟨.reported placed, s₁.leave.report placed⟩]
        (.error (s₁.diagnostics.failure.getD placed)) (s₁.leave.report placed)

/-- The run of an include directive goes with that of its answer. -/
theorem Runs.of_inclusion {t : Token} (hcause : s.rejection? t.unquoted = none)
    (h : Runs handlers (.item role (.inclusion t)) (s, m) history result st') :
    ∃ inner answered s₁ later, Runs handlers (.answer (handlers role t.unquoted))
        (s.enter t.unquoted, m) inner answered (s₁, st'.2) ∧
      s.Leaves t answered s₁ later result st'.1 ∧
        history = ⟨.reached t none, s⟩ :: ⟨.entered t.unquoted, s.enter t.unquoted⟩ ::
          (inner ++ later) := by
  cases h with
  | performed hitem => cases hitem
  | rejected hcause' _ => cases hcause.symm.trans hcause'
  | included _ hanswer hfailure => exact ⟨_, _, _, _, hanswer, .back hfailure, rfl⟩
  | spoiled _ hanswer hfailure => exact ⟨_, _, _, _, hanswer, .spoiled hfailure, rfl⟩
  | refused _ hanswer hplaced => exact ⟨_, _, _, _, hanswer, .refused hplaced, rfl⟩

end Items

/-- Leaving an include takes nothing back. -/
theorem Session.Leaves.begins {s s₁ s₂ : Session} {t : Token}
    {answered result : Except Failure Unit}
    {later : List Moment} (h : s.Leaves t answered s₁ later result s₂) : s₁.Begins s₂ := by
  cases h with
  | back _ | spoiled _ | refused _ => exact begins_of_eq rfl rfl rfl

/-- It changes no report once a failure is known, and the directive fails. -/
theorem Session.Leaves.of_failure {s s₁ s₂ : Session} {t : Token}
    {answered result : Except Failure Unit} {later : List Moment} {f : Failure}
    (h : s.Leaves t answered s₁ later result s₂) (hf : s₁.diagnostics.failure = some f) :
    Report.ofSession s₂ = Report.ofSession s₁ ∧ s₂.options = s₁.options ∧ result ≠ .ok () := by
  cases h with
  | back hfailure => cases hf.symm.trans hfailure
  | spoiled _ => exact ⟨rfl, rfl, fun hok => nomatch hok⟩
  | refused _ =>
      rw [report_eq_of_failure (s := s₁.leave) hf]
      exact ⟨rfl, rfl, fun hok => nomatch hok⟩

/-! ## Sessions with other options -/

/-- Do the options refuse whatever the others refuse, in headers and in nesting includes? -/
structure Options.Within (o o' : Options) : Prop where
  /-- Headers are read strictly if the others do so. -/
  strictHeader : o'.strictHeader = true → o.strictHeader = true
  /-- Includes may not be nested deeper. -/
  maxIncludeDepth : o.maxIncludeDepth ≤ o'.maxIncludeDepth

/-- May the session be compared with one under the options `o`? They refuse no more than its own,
which it has obeyed so far. -/
structure Session.ComparableTo (s : Session) (o : Options) : Prop where
  /-- The session refuses whatever `o` does. -/
  within : s.options.Within o
  /-- It is not nested too deep. -/
  depth : s.depth ≤ s.options.maxIncludeDepth
  /-- It has not failed. -/
  failure : s.diagnostics.failure = none

/-- The session with other options and warnings. -/
def Session.under (s : Session) (o : Options) (warnings : List String) : Session :=
  { s with options := o, diagnostics := { s.diagnostics with warnings } }

/-- Is `s'` the session `s` under the options `o`? Warnings may differ only where one of the
sessions logs declarations and the other does not. -/
def Session.Matches (s : Session) (o : Options) (s' : Session) : Prop :=
  ∃ warnings, s' = s.under o warnings ∧
    (o.reportDeclarations = s.options.reportDeclarations → warnings = s.diagnostics.warnings)

/-- The same event at two moments, with the same file being read at the same place. -/
structure Moment.Alike (x x' : Moment) : Prop where
  /-- The event is the same. -/
  event : x'.event = x.event
  /-- So is the file that is being read. -/
  context : x'.session.context = x.session.context

namespace Session

variable {s s' : Session} {o : Options} {warnings : List String} {path : String}

/-- An item that is no include directive does the same under other options, but for the log. -/
theorem plain?_under (s : Session) (o : Options) (warnings : List String) (item : Item) :
    (s.under o warnings).plain? item = (s.plain? item).map fun s' =>
      s'.under o (warnings ++ item.logged o.reportDeclarations) := by
  cases item with
  | inclusion t => rfl
  | word t => exact congrArg some (congrArg (s.under o) (List.append_nil _).symm)
  | version v =>
      exact congrArg some (congrArg ((s.setVersion v).under o) (List.append_nil _).symm)
  | declaration d =>
      refine congrArg some ?_
      show (s.under o warnings).record d = (s.record d).under o _
      rw [record_eq, record_eq]
      rfl

/-- Reading on keeps two sessions the same. -/
theorem Matches.advance (h : s.Matches o s') (r : Scan.State) :
    (s.advance r).Matches o (s'.advance r) := by
  obtain ⟨warnings, rfl, hwarnings⟩ := h
  refine ⟨warnings ++ r.warnings s.context.name, rfl, fun hreport => ?_⟩
  rw [hwarnings hreport]
  rfl

/-- So does reporting a failure. -/
theorem Matches.report (h : s.Matches o s') (f : Failure) :
    (s.report f).Matches o (s'.report f) := by
  obtain ⟨warnings, rfl, hwarnings⟩ := h
  exact ⟨warnings, rfl, hwarnings⟩

/-- So does an item that is no include directive. -/
theorem Matches.plain? {item : Item} {s₁ s₁' : Session} (h : s.Matches o s')
    (hs : s.plain? item = some s₁) (hs' : s'.plain? item = some s₁') : s₁.Matches o s₁' := by
  obtain ⟨warnings, rfl, hwarnings⟩ := h
  rw [plain?_under, hs, Option.map_some, Option.some.injEq] at hs'
  have hoptions := (depth_options_of_plain? hs).2
  refine ⟨_, hs'.symm, fun hreport => ?_⟩
  rw [hoptions] at hreport
  rw [warnings_of_plain? hs, hwarnings hreport, hreport]

/-- So does going into an include. -/
theorem Matches.enter (h : s.Matches o s') (path : String) :
    (s.enter path).Matches o (s'.enter path) := by
  obtain ⟨warnings, rfl, hwarnings⟩ := h
  exact ⟨warnings, rfl, hwarnings⟩

/-- The same is objected under other options, but for the limit on nested includes. -/
theorem rejection?_under (hs : s.ComparableTo o) (warnings : List String) (path : String) :
    (s.under o warnings).rejection? path = s.rejection? path ∨
      s.rejection? path = some (.tooDeep path s.options.maxIncludeDepth) ∧
        s.depth = s.options.maxIncludeDepth ∧
          s.options.maxIncludeDepth < o.maxIncludeDepth := by
  have hle := hs.within.maxIncludeDepth
  have hdepth := hs.depth
  have hobjection : (s.under o warnings).objection? path = s.objection? path := rfl
  have hsame : (s.under o warnings).depth = s.depth := rfl
  have hlimit : (s.under o warnings).options.maxIncludeDepth = o.maxIncludeDepth := rfl
  unfold rejection?
  rw [hobjection, hsame, hlimit]
  cases s.objection? path with
  | some cause => exact .inl rfl
  | none =>
      dsimp only
      by_cases hinner : s.depth < s.options.maxIncludeDepth
      · rw [if_pos hinner, if_pos (by omega)]
        exact .inl rfl
      · rw [if_neg hinner]
        by_cases hlt : s.options.maxIncludeDepth < o.maxIncludeDepth
        · exact .inr ⟨rfl, by omega, hlt⟩
        · have heq : o.maxIncludeDepth = s.options.maxIncludeDepth := by omega
          rw [heq, if_neg hinner]
          exact .inl rfl

/-- The next item is read the same under other options, or it is the first to be read strictly and
not to be read. -/
theorem next?_under (hs : s.ComparableTo o) (name : String) (cursor : Cursor) :
    Item.next? o.strictHeader name ⟨cursor, []⟩ =
        Item.next? s.options.strictHeader name ⟨cursor, []⟩ ∨
      s.options.strictHeader = true ∧ o.strictHeader = false ∧ ∃ stray r,
        Item.next? true name ⟨cursor, []⟩ = .error stray.refusal r ∧
          (r.strays ++ [stray]) <+: (endState (Item.next? false name ⟨cursor, []⟩)).strays ∧
            StrayAfterNative (unskipped cursor.tokens) stray := by
  have hstrict := hs.within.strictHeader
  cases ho : o.strictHeader with
  | true =>
      rw [hstrict ho]
      exact .inl rfl
  | false =>
      cases hown : s.options.strictHeader with
      | false => exact .inl rfl
      | true =>
          rcases Item.stricter_next? name ⟨cursor, []⟩ with hsame | hparts
          · exact .inl hsame.symm
          · exact .inr ⟨rfl, rfl, hparts⟩

/-- What can be read under strict options can be read under others. -/
theorem next?_under_of_ok (hs : s.ComparableTo o) {name : String} {cursor : Cursor}
    {item? : Option Item} {r : Scan.State}
    (hread : Item.next? s.options.strictHeader name ⟨cursor, []⟩ = .ok item? r) :
    Item.next? o.strictHeader name ⟨cursor, []⟩ = .ok item? r := by
  rcases next?_under hs name cursor with hsame | ⟨hstrict, -, stray, r', herror, -⟩
  · exact hsame.trans hread
  · rw [hstrict, herror] at hread
    cases hread

/-- A session may be compared further on in a file. -/
theorem ComparableTo.advance (hs : s.ComparableTo o) (r : Scan.State) :
    (s.advance r).ComparableTo o :=
  ⟨hs.within, hs.depth, hs.failure⟩

/-- It may be compared behind an item that succeeds if it may be before it. -/
theorem ComparableTo.of_item {ρ μ : Type} {handlers : Handlers ρ μ} {role : ρ} {item : Item} {m : μ}
    {st' : Session × μ} {history : List Moment} (hs : s.ComparableTo o)
    (h : Runs handlers (.item role item) (s, m) history (.ok ()) st') : st'.1.ComparableTo o := by
  obtain ⟨hdepth, hoptions⟩ := h.depth_options_eq
  refine ⟨?_, ?_, (h.of_item_ok hs.failure).2⟩
  · rw [hoptions]
    exact hs.within
  · rw [hdepth, hoptions]
    exact hs.depth

/-- It may be compared inside an include that it does not reject. -/
theorem ComparableTo.enter (hs : s.ComparableTo o) (hcause : s.rejection? path = none) :
    (s.enter path).ComparableTo o :=
  ⟨hs.within, depth_lt_of_rejection? hcause, hs.failure⟩

end Session

/-! ## Where two sessions part -/

/-- **Where two sessions part**: the part in which the session `s` fails and the one under the
options `o` goes on, the failure, and what the other one warns of instead. -/
inductive Parting (o : Options) : Task Unit Unit → Session → Failure → List String → Prop where
  /-- A strict header has a stray token behind the mark for native types. -/
  | header {cursor : Cursor} {s : Session} {stray : Stray} {r : Scan.State}
      (hstrict : s.options.strictHeader = true) (hother : o.strictHeader = false)
      (hread : Item.next? true s.context.name ⟨cursor, []⟩ = .error stray.refusal r)
      (hstray : StrayAfterNative (unskipped cursor.tokens) stray) :
      Parting o (.items () cursor) s (stray.refusal.inSource s.context.name)
        [stray.warning s.context.name]
  /-- An include directive is nested as deep as allowed. -/
  | depth {t : Token} {s : Session} (hdepth : s.depth = s.options.maxIncludeDepth)
      (hlimit : s.options.maxIncludeDepth < o.maxIncludeDepth)
      (hcause : s.rejection? t.unquoted =
        some (.tooDeep t.unquoted s.options.maxIncludeDepth)) :
      Parting o (.item () (.inclusion t)) s (Failure.inSource
        { cause := .tooDeep t.unquoted s.options.maxIncludeDepth, span := t.span }
        s.context.name) []

/-- Does the session `s`, which failed with `f`, fall behind `s'`, a session under the options `o`
that went on and warned of `next` first? -/
structure FallsBehind (o : Options) (f : Failure) (next : List String) (s s' : Session) : Prop where
  /-- The failure is known. -/
  failure : s.diagnostics.failure = some f
  /-- The other session found at least the same. -/
  declarations : s.declarations <+: s'.declarations
  /-- It included at least the same. -/
  paths : s.visited.paths <+: s'.visited.paths
  /-- It warned at least of the same and then of `next`, if both log declarations or none does. -/
  warnings : o.reportDeclarations = s.options.reportDeclarations →
    (s.diagnostics.warnings ++ next) <+: s'.diagnostics.warnings

/-- A session falls behind as long as it rests and the other one goes on. -/
theorem FallsBehind.later {o : Options} {f : Failure} {next : List String}
    {s s' s₁ s₁' : Session} (h : FallsBehind o f next s s')
    (hs : Report.ofSession s₁ = Report.ofSession s) (hoptions : s₁.options = s.options)
    (hs' : s'.Begins s₁') : FallsBehind o f next s₁ s₁' where
  failure := (congrArg Report.failure hs).trans h.failure
  declarations := by
    have hsame : s₁.declarations = s.declarations := congrArg Report.declarations hs
    rw [hsame]
    exact h.declarations.trans hs'.declarations
  paths := by
    have hsame : s₁.visited.paths = s.visited.paths := congrArg Report.included hs
    rw [hsame]
    exact h.paths.trans hs'.included
  warnings := by
    intro hreport
    have hsame : s₁.diagnostics.warnings = s.diagnostics.warnings := congrArg Report.warnings hs
    rw [hsame]
    rw [hoptions] at hreport
    exact (h.warnings hreport).trans hs'.warnings

/-- **What comes of comparing** two runs of a part, the first of which may refuse more. -/
inductive Compared {α : Type} [Archive α] (archive : α) (o : Options) (task : Task Unit Unit)
    (st : Session × Unit) (history history' : List Moment) (result result' : Except Failure Unit)
    (s s' : Session) : Prop where
  /-- They stay in step. -/
  | together (hresult : result' = result) (hmatches : s.Matches o s')
      (hmoments : List.Forall₂ Moment.Alike history history')
  /-- They part, and the first one fails. -/
  | parted {level : Nat} {part : Task Unit Unit} {place : Session} {f : Failure}
      {next : List String}
      (hplace : Involves (Archive.handlers archive) task st level part (place, ()))
      (hparting : Parting o part place f next) (hfails : result ≠ .ok ())
      (hbehind : FallsBehind o f next s s')

/-- Where the first run succeeds, they stay in step. -/
theorem Compared.of_ok {α : Type} [Archive α] {archive : α} {o : Options} {task : Task Unit Unit}
    {st : Session × Unit} {history history' : List Moment} {result' : Except Failure Unit}
    {s s' : Session} (h : Compared archive o task st history history' (.ok ()) result' s s') :
    result' = .ok () ∧ s.Matches o s' ∧ List.Forall₂ Moment.Alike history history' := by
  cases h with
  | together hresult hmatches hmoments => exact ⟨hresult, hmatches, hmoments⟩
  | parted _ _ hfails _ => exact absurd rfl hfails

/-- The parts of sessions over an archive: answers are those from the archive. -/
def Task.FromArchive {α : Type} [Archive α] (archive : α) : Task Unit Unit → Prop
  | .answer a => ∃ path, a = .fromArchive archive () path
  | _ => True

/-! ## The comparison -/

section Compare

variable {α : Type} [Archive α] {archive : α} {o : Options} {s s' : Session}
  {history history' : List Moment} {result result' : Except Failure Unit}
  {st₁ st₁' : Session × Unit}

/-- Two sessions part at a strict header. -/
theorem compared_of_header {cursor : Cursor} {stray : Stray} {r : Scan.State}
    (hs : s.ComparableTo o) (hmatches : s.Matches o s') (hstrict : s.options.strictHeader = true)
    (hother : o.strictHeader = false)
    (hread : Item.next? true s.context.name ⟨cursor, []⟩ = .error stray.refusal r)
    (hnext : (r.strays ++ [stray]) <+:
      (endState (Item.next? false s.context.name ⟨cursor, []⟩)).strays)
    (hstray : StrayAfterNative (unskipped cursor.tokens) stray)
    (h : Runs (Archive.handlers archive) (.items () cursor) (s, ()) history result st₁)
    (h' : Runs (Archive.handlers archive) (.items () cursor) (s', ()) history' result' st₁') :
    Compared archive o (.items () cursor) (s, ()) history history' result result' st₁.1 st₁'.1 := by
  obtain ⟨warnings, rfl, hwarnings⟩ := hmatches
  have hread' : Item.next? s.options.strictHeader s.context.name ⟨cursor, []⟩ =
      .error stray.refusal r := by rw [hstrict, hread]
  obtain ⟨-, rfl, rfl⟩ := h.of_items_error hread'
  have hbegins := h'.begins_of_items (Archive.parsesOnly_handlers archive)
  refine .parted .self (.header hstrict hother hread hstray) (fun hok => nomatch hok) ?_
  refine ⟨?_, hbegins.declarations, hbegins.included, fun hreport => ?_⟩
  · have hnone : (s.advance r).diagnostics.failure = none := hs.failure
    rw [Session.failure_report, hnone, Option.getD_none]
  · have hlog : (s.diagnostics.warnings ++ r.warnings s.context.name) ++
        [stray.warning s.context.name] <+: warnings ++
          (endState (Item.next? false s.context.name ⟨cursor, []⟩)).warnings s.context.name := by
      rw [hwarnings hreport, List.append_assoc, List.prefix_append_right_inj]
      have hmap := hnext.map fun stray => stray.warning s.context.name
      rwa [List.map_append] at hmap
    have hright := hbegins.warnings
    have hoptions : (s.under o warnings).options.strictHeader = false := hother
    rw [hoptions] at hright
    exact hlog.trans hright

/-- Two sessions part at an include directive that is nested too deep for one of them. -/
theorem compared_of_depth {t : Token} (hs : s.ComparableTo o) (hmatches : s.Matches o s')
    (hcause : s.rejection? t.unquoted = some (.tooDeep t.unquoted s.options.maxIncludeDepth))
    (hdepth : s.depth = s.options.maxIncludeDepth)
    (hlimit : s.options.maxIncludeDepth < o.maxIncludeDepth)
    (h' : Runs (Archive.handlers archive) (.item () (.inclusion t)) (s', ()) history' result' st₁')
    {f : Failure} (hf : f = Failure.inSource
      { cause := .tooDeep t.unquoted s.options.maxIncludeDepth, span := t.span } s.context.name) :
    Compared archive o (.item () (.inclusion t)) (s, ()) history history' (.error f) result'
      (s.report f) st₁'.1 := by
  obtain ⟨warnings, rfl, hwarnings⟩ := hmatches
  have hbegins := h'.begins (Archive.parsesOnly_handlers archive) trivial
  subst hf
  refine .parted .self (.depth hdepth hlimit hcause) (fun hok => nomatch hok) ?_
  refine ⟨?_, hbegins.declarations, hbegins.included, fun hreport => ?_⟩
  · rw [Session.failure_report, hs.failure, Option.getD_none]
  · have hlog : warnings = s.diagnostics.warnings ++ [] := by
      rw [hwarnings hreport, List.append_nil]
    exact hlog ▸ hbegins.warnings

/-- Two sessions that leave an include after the same answer stay the same. -/
theorem Session.Leaves.together {s₁ s₂ s₁' s₂' : Session} {t : Token}
    {answered result result' : Except Failure Unit} {later later' : List Moment}
    (h : s.Leaves t answered s₁ later result s₂) (h' : s'.Leaves t answered s₁' later' result' s₂')
    (hmatches : s.Matches o s') (hinner : s₁.Matches o s₁') :
    result' = result ∧ s₂.Matches o s₂' ∧ List.Forall₂ Moment.Alike later later' := by
  obtain ⟨warnings, rfl, -⟩ := hmatches
  obtain ⟨log, rfl, hlog⟩ := hinner
  cases h with
  | back hfailure =>
      cases h' with
      | back _ => exact ⟨rfl, ⟨log, rfl, hlog⟩, .cons ⟨rfl, rfl⟩ .nil⟩
      | spoiled hfailure' => cases hfailure.symm.trans hfailure'
  | spoiled hfailure =>
      cases h' with
      | back hfailure' => cases hfailure.symm.trans hfailure'
      | spoiled hfailure' =>
          cases hfailure.symm.trans hfailure'
          exact ⟨rfl, ⟨log, rfl, hlog⟩, .cons ⟨rfl, rfl⟩ .nil⟩
  | refused hplaced =>
      cases h' with
      | refused hplaced' =>
          cases hplaced
          cases hplaced'
          exact ⟨rfl, ⟨log, rfl, hlog⟩, .cons ⟨rfl, rfl⟩ (.cons ⟨rfl, rfl⟩ .nil)⟩

/-- An include directive compares as its answer does. -/
theorem compared_of_answer {t : Token} {s₁ s₂ : Session} {inner later : List Moment}
    {answered : Except Failure Unit} (hs : s.ComparableTo o) (hmatches : s.Matches o s')
    (hcause : s.rejection? t.unquoted = none)
    (ih : ∀ {inner' : List Moment} {answered' : Except Failure Unit} {st : Session × Unit},
      Runs (Archive.handlers archive) (.answer (Archive.handlers archive () t.unquoted))
        (s'.enter t.unquoted, ()) inner' answered' st →
      Compared archive o (.answer (Archive.handlers archive () t.unquoted))
        (s.enter t.unquoted, ()) inner inner' answered answered' s₁ st.1)
    (hleaves : s.Leaves t answered s₁ later result s₂)
    (h' : Runs (Archive.handlers archive) (.item () (.inclusion t)) (s', ()) history' result'
      st₁') :
    Compared archive o (.item () (.inclusion t)) (s, ())
      (⟨.reached t none, s⟩ :: ⟨.entered t.unquoted, s.enter t.unquoted⟩ :: (inner ++ later))
      history' result result' s₂ st₁'.1 := by
  have hmatches' := hmatches
  obtain ⟨warnings, rfl, hwarnings⟩ := hmatches
  have hcause' : (s.under o warnings).rejection? t.unquoted = none := by
    rcases Session.rejection?_under hs warnings t.unquoted with hsame | ⟨hreject, -⟩
    · exact hsame.trans hcause
    · cases hcause.symm.trans hreject
  obtain ⟨inner', answered', s₁', later', hanswer, hleaves', rfl⟩ := h'.of_inclusion hcause'
  rcases ih hanswer with ⟨rfl, hinner, hmoments⟩ | ⟨hplace, hparting, -, hbehind⟩
  · obtain ⟨hresult, hfinal, hlater⟩ := hleaves.together hleaves' hmatches' hinner
    exact .together hresult hfinal
      (.cons ⟨rfl, rfl⟩ (.cons ⟨rfl, rfl⟩ (List.rel_append hmoments hlater)))
  · obtain ⟨hreport, hoptions, hfails⟩ := hleaves.of_failure hbehind.failure
    exact .parted ((Involves.self.answer hcause).trans hplace) hparting hfails
      (hbehind.later hreport hoptions hleaves'.begins)

/-- **Two runs of a part** under options of which the first refuse whatever the second do stay in
step, or they part at some place in it and the first one fails. -/
theorem Runs.compare {task : Task Unit Unit} {st st' : Session × Unit}
    (h : Runs (Archive.handlers archive) task st history result st₁)
    (h' : Runs (Archive.handlers archive) task st' history' result' st₁')
    (hs : st.1.ComparableTo o) (hmatches : st.1.Matches o st'.1)
    (htask : task.FromArchive archive) :
    Compared archive o task st history history' result result' st₁.1 st₁'.1 := by
  have hparses := Archive.parsesOnly_handlers archive
  induction h generalizing st' history' result' st₁' with
  | known hfailure => cases hs.failure.symm.trans hfailure
  | opened hfailure _ ih =>
      obtain ⟨s', _⟩ := st'
      obtain ⟨warnings, rfl, hwarnings⟩ := hmatches
      cases h' with
      | known hfailure' => cases hfailure.symm.trans hfailure'
      | opened _ hitems' =>
          rcases ih hitems' ⟨hs.within, hs.depth, hfailure⟩ ⟨warnings, rfl, hwarnings⟩ trivial with
            ⟨hresult, hfinal, hmoments⟩ | ⟨hplace, hparting, hfails, hbehind⟩
          · exact .together hresult hfinal (.cons ⟨rfl, rfl⟩ hmoments)
          · exact .parted ((Involves.self.items hfailure).trans hplace) hparting hfails hbehind
  | finished hread =>
      have hadvanced := hmatches.advance
      obtain ⟨s', _⟩ := st'
      obtain ⟨warnings, rfl, hwarnings⟩ := hmatches
      obtain ⟨rfl, rfl, rfl⟩ := h'.of_items_none (Session.next?_under_of_ok hs hread)
      exact .together rfl (hadvanced _) (.cons ⟨rfl, rfl⟩ .nil)
  | @stopped role cursor s _ f r hread =>
      have hadvanced := hmatches.advance r
      have hmatches' := hmatches
      obtain ⟨s', _⟩ := st'
      obtain ⟨warnings, rfl, hwarnings⟩ := hmatches
      rcases Session.next?_under hs s.context.name cursor with
        hsame | ⟨hstrict, hother, stray, r', hread', hnext, hstray⟩
      · obtain ⟨rfl, rfl, rfl⟩ := h'.of_items_error (hsame.trans hread)
        exact .together rfl (hadvanced.report _) (.cons ⟨rfl, rfl⟩ (.cons ⟨rfl, rfl⟩ .nil))
      · exact compared_of_header hs hmatches' hstrict hother hread' hnext hstray (.stopped hread) h'
  | @more role cursor s _ item r history later result st _ hread hitem hrest ihitem ihrest =>
      have hadvanced := hmatches.advance r
      obtain ⟨s', _⟩ := st'
      obtain ⟨warnings, rfl, hwarnings⟩ := hmatches
      have hread' := Session.next?_under_of_ok hs hread
      rcases h'.of_items_some hread' with
        ⟨first, more, st', hitem', hrest', rfl⟩ | ⟨first, f, hitem', rfl, rfl⟩
      · obtain ⟨-, hmiddle, hfirst⟩ :=
          (ihitem hitem' (hs.advance r) hadvanced trivial).of_ok
        have hs' := (hs.advance r).of_item hitem
        rcases ihrest hrest' hs' hmiddle trivial with
          ⟨hresult, hfinal, hmoments⟩ | ⟨hplace, hparting, hfails, hbehind⟩
        · exact .together hresult hfinal (.cons ⟨rfl, rfl⟩ (List.rel_append hfirst hmoments))
        · exact .parted ((Involves.self.rest hread hitem).trans hplace) hparting hfails hbehind
      · have hitems := ihitem hitem' (hs.advance r) hadvanced trivial
        cases hitems.of_ok.1
  | @broken role cursor s _ item r history f st hread hitem ih =>
      have hadvanced := hmatches.advance r
      obtain ⟨s', _⟩ := st'
      obtain ⟨warnings, rfl, hwarnings⟩ := hmatches
      have hread' := Session.next?_under_of_ok hs hread
      rcases h'.of_items_some hread' with
        ⟨first, more, st', hitem', hrest', rfl⟩ | ⟨first, f', hitem', rfl, rfl⟩
      · rcases ih hitem' (hs.advance r) hadvanced trivial with
          ⟨hresult, -, -⟩ | ⟨hplace, hparting, hfails, hbehind⟩
        · cases hresult
        · exact .parted ((Involves.self.item hread).trans hplace) hparting hfails
            (hbehind.later rfl rfl (hrest'.begins hparses trivial))
      · rcases ih hitem' (hs.advance r) hadvanced trivial with
          ⟨hresult, hfinal, hmoments⟩ | ⟨hplace, hparting, hfails, hbehind⟩
        · exact .together hresult hfinal (.cons ⟨rfl, rfl⟩ hmoments)
        · exact .parted ((Involves.self.item hread).trans hplace) hparting hfails hbehind
  | @performed role item s s₁ _ hitem =>
      obtain ⟨s', _⟩ := st'
      cases h' with
      | performed hitem' =>
          obtain ⟨log, rfl, hlog⟩ := Session.Matches.plain? hmatches hitem hitem'
          exact .together rfl ⟨log, rfl, hlog⟩ (.cons ⟨rfl, rfl⟩ .nil)
      | rejected _ _ | included _ _ _ | spoiled _ _ _ | refused _ _ _ => cases hitem
  | @rejected role t s _ cause f hcause hf =>
      have hmatches' := hmatches
      obtain ⟨s', _⟩ := st'
      obtain ⟨warnings, rfl, hwarnings⟩ := hmatches
      rcases Session.rejection?_under hs warnings t.unquoted with
        hsame | ⟨hdeep, hdepth, hlimit⟩
      · have hcause' := hsame.trans hcause
        cases h' with
        | performed hitem => cases hitem
        | rejected hrejected hf' =>
            cases hcause'.symm.trans hrejected
            cases hf
            cases hf'
            exact .together rfl ⟨warnings, rfl, hwarnings⟩
              (.cons ⟨rfl, rfl⟩ (.cons ⟨rfl, rfl⟩ .nil))
        | included hnone _ _ | spoiled hnone _ _ | refused hnone _ _ =>
            cases hcause'.symm.trans hnone
      · cases hcause.symm.trans hdeep
        exact compared_of_depth hs hmatches' hdeep hdepth hlimit h' hf
  | included hcause _ hfailure ih =>
      exact compared_of_answer hs hmatches hcause
        (fun hanswer => ih hanswer (hs.enter hcause) (hmatches.enter _) ⟨_, rfl⟩)
        (.back hfailure) h'
  | spoiled hcause _ hfailure ih =>
      exact compared_of_answer hs hmatches hcause
        (fun hanswer => ih hanswer (hs.enter hcause) (hmatches.enter _) ⟨_, rfl⟩)
        (.spoiled hfailure) h'
  | refused hcause _ hplaced ih =>
      exact compared_of_answer hs hmatches hcause
        (fun hanswer => ih hanswer (hs.enter hcause) (hmatches.enter _) ⟨_, rfl⟩) (.refused hplaced)
        h'
  | ended =>
      obtain ⟨rfl, rfl, rfl⟩ := h'.of_finish
      exact .together rfl hmatches .nil
  | parsed hfile hrest ihfile _ =>
      obtain ⟨path, ha⟩ := htask
      rcases fromArchive_cases archive path with ⟨source, -, hparse⟩ | ⟨f, hfinish⟩
      · cases ha.trans hparse
        obtain ⟨rfl, rfl, rfl⟩ := hrest.of_finish
        cases h' with
        | parsed hfile' hrest' =>
            obtain ⟨rfl, rfl, rfl⟩ := hrest'.of_finish
            rw [List.append_nil, List.append_nil]
            rcases ihfile hfile' hs hmatches trivial with
              ⟨hresult, hfinal, hmoments⟩ | ⟨hplace, hparting, hfails, hbehind⟩
            · exact .together hresult hfinal hmoments
            · exact .parted (Involves.self.file.trans hplace) hparting hfails hbehind
        | scanned hscans _ _ | missed hscans _ _ _ => cases hscans
        | requested hrequest _ => cases hrequest
      · cases ha.trans hfinish
  | scanned hscans _ _ _ | missed hscans _ _ _ _ =>
      obtain ⟨path, rfl⟩ := htask
      exact ((hparses () path).not_scans hscans).elim
  | requested hrequest _ _ =>
      obtain ⟨path, ha⟩ := htask
      rcases fromArchive_cases archive path with ⟨source, -, h⟩ | ⟨f, h⟩
      · cases ha.trans h
        cases hrequest
      · cases ha.trans h
        cases hrequest

end Compare

end ZDecl
