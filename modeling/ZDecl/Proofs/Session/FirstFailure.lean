import ZDecl.Proofs.Session.Existence
import ZDecl.Report

/-!
# The first failure ends a session

A failure can arise anywhere: in any item of any file, or in an answer. An answer may then hide it,
replace it by another one, or go on and parse further files. None of this matters: the session keeps
the failure that was reported first, gives it as its result, and finds nothing any more.

* `Answer.ParsesOnly`: the answers that do nothing in a session but parse files.
* `FirstFailure`: a history in which a failure is the first one to be reported, after which the
  report on the session stays as it is.
* `Runs.idles`: once a failure is known, an answer changes nothing that is reported.
* `Runs.settled`: a part that starts without a failure either ends without one or at the first one.
* **`session_stops_at_first_failure`**: a session fails exactly if a failure is known at its end,
  and then with the one that was reported first.

An answer may succeed although a failure was reported, and may fail although none was. So the
invariant says less of an answer than of a file: whether a failure was reported does not depend on
what comes of the answer. The include directive puts the two together again.
-/

namespace ZDecl

variable {ρ μ : Type}

/-- The answers that do nothing in a session but parse files. They may look at the session, and what
they remember is theirs. -/
inductive Answer.ParsesOnly : Answer ρ μ → Prop where
  /-- The end. -/
  | finish (result : Except Failure Unit) : ParsesOnly (.finish result)
  /-- A file is parsed. -/
  | parse {role : ρ} {source : SourceFile} {k : Except Failure Unit → Answer ρ μ}
      (h : ∀ result, ParsesOnly (k result)) : ParsesOnly (.parse role source k)
  /-- A look at the session. -/
  | inspect {k : Session → Answer ρ μ} (h : ∀ s, ParsesOnly (k s)) : ParsesOnly (.inspect k)
  /-- A look at what is remembered. -/
  | memory {k : μ → Answer ρ μ} (h : ∀ m, ParsesOnly (k m)) : ParsesOnly (.memory k)
  /-- Something else is remembered. -/
  | remember {m : μ} {k : Answer ρ μ} (h : ParsesOnly k) : ParsesOnly (.remember m k)

/-- An answer that parses only reads nothing by itself. -/
theorem Answer.ParsesOnly.not_scans {a : Answer ρ μ} (h : a.ParsesOnly) {β : Type} {s : Session}
    {p : Scan β} {k : Except Failure β → Answer ρ μ} : ¬ a.Scans s p k := by
  intro hscans
  cases hscans with
  | expression => cases h
  | block => cases h
  | header => cases h

/-- What an answer that parses only asks for leaves the session alone. -/
theorem Answer.ParsesOnly.of_request? {a a' : Answer ρ μ} (h : a.ParsesOnly) {s s' : Session}
    {m m' : μ} (hrequest : a.request? (s, m) = some (a', s', m')) : a'.ParsesOnly ∧ s' = s := by
  cases h with
  | finish result => cases hrequest
  | parse h => cases hrequest
  | inspect h =>
      cases hrequest
      exact ⟨h s, rfl⟩
  | memory h =>
      cases hrequest
      exact ⟨h m, rfl⟩
  | remember h =>
      cases hrequest
      exact ⟨h, rfl⟩

/-! ## Reports in a history -/

/-- Is the event the report of a failure? -/
def Event.isReport : Event → Bool
  | .reported _ => true
  | _ => false

/-- Is no failure reported in the history? -/
def NoReport (history : List Moment) : Prop := ∀ x ∈ history, x.event.isReport = false

/-- Is the report on the session at every moment of the history that of `s`? -/
def Unchanged (s : Session) (history : List Moment) : Prop :=
  ∀ x ∈ history, Report.ofSession x.session = Report.ofSession s

/-- Is `f` the first failure that is reported in the history, and stays everything that is reported
from then on, up to the session `final`? -/
def FirstFailure (f : Failure) (history : List Moment) (final : Session) : Prop :=
  ∃ before s after, history = before ++ ⟨.reported f, s⟩ :: after ∧ NoReport before ∧
    s.diagnostics.failure = some f ∧ Unchanged s after ∧
      Report.ofSession final = Report.ofSession s

/-- Nothing is reported in an empty history. -/
theorem noReport_nil : NoReport [] := by simp [NoReport]

/-- Nothing is reported in a history if nothing is first and nothing is later. -/
theorem noReport_cons {x : Moment} {history : List Moment} :
    NoReport (x :: history) ↔ x.event.isReport = false ∧ NoReport history := by
  simp [NoReport]

/-- Nothing is reported in a moment whose event is no report. -/
theorem noReport_single {x : Moment} (h : x.event.isReport = false) : NoReport [x] :=
  noReport_cons.mpr ⟨h, noReport_nil⟩

/-- Nothing is reported in two histories, one behind the other, if nothing is in either. -/
theorem noReport_append {first later : List Moment} :
    NoReport (first ++ later) ↔ NoReport first ∧ NoReport later := by
  simp [NoReport, or_imp, forall_and]

/-- The first failure is known at the end. -/
theorem FirstFailure.failure {f : Failure} {history : List Moment} {final : Session}
    (h : FirstFailure f history final) : final.diagnostics.failure = some f := by
  obtain ⟨before, s, after, -, -, hfailure, -, hfinal⟩ := h
  have hsame : final.diagnostics.failure = s.diagnostics.failure := congrArg Report.failure hfinal
  rw [hsame, hfailure]

/-- A failure that is reported where none is known is the first one. -/
theorem firstFailure_report {s : Session} (hs : s.diagnostics.failure = none) (f : Failure) :
    FirstFailure f [⟨.reported f, s.report f⟩] (s.report f) := by
  refine ⟨[], s.report f, [], rfl, noReport_nil, ?_, by simp [Unchanged], rfl⟩
  show s.diagnostics.failure.or (some f) = some f
  rw [hs, Option.none_or]

/-- What comes before the first failure, as far as nothing is reported in it. -/
theorem FirstFailure.prepend {f : Failure} {first history : List Moment} {final : Session}
    (hfirst : NoReport first) (h : FirstFailure f history final) :
    FirstFailure f (first ++ history) final := by
  obtain ⟨before, s, after, rfl, hbefore, h⟩ := h
  exact ⟨first ++ before, s, after, (List.append_assoc _ _ _).symm,
    noReport_append.mpr ⟨hfirst, hbefore⟩, h⟩

/-- What comes after the first failure, as far as it changes nothing. -/
theorem FirstFailure.extend {f : Failure} {history later : List Moment} {s final : Session}
    (h : FirstFailure f history s) (hlater : Unchanged s later)
    (hfinal : Report.ofSession final = Report.ofSession s) :
    FirstFailure f (history ++ later) final := by
  obtain ⟨before, s₁, after, rfl, hbefore, hfailure, hafter, hs⟩ := h
  refine ⟨before, s₁, after ++ later, by simp, hbefore, hfailure, ?_, hfinal.trans hs⟩
  intro x hx
  rcases List.mem_append.mp hx with hx | hx
  · exact hafter x hx
  · exact (hlater x hx).trans hs

/-! ## After the first failure -/

/-- The report on a session in which a failure is known stays when another one is reported. -/
theorem report_eq_of_failure {s : Session} {f : Failure} (hs : s.diagnostics.failure = some f)
    (g : Failure) : s.report g = s := by
  unfold Session.report Diagnostics.report
  rw [hs, Option.some_or, ← hs]

/-- The parts that can start once a failure is known: files, and answers that parse only. -/
def Task.Idle : Task ρ μ → Prop
  | .file _ _ => True
  | .answer a => a.ParsesOnly
  | _ => False

/-- Does nothing happen from the session `s` to `final` but that answers ask for something that
changes no report? -/
def Idles (s : Session) (history : List Moment) (final : Session) : Prop :=
  (∀ x ∈ history, x.event = .requested) ∧ Unchanged s history ∧
    Report.ofSession final = Report.ofSession s

/-- A session idles while nothing happens. -/
theorem idles_nil (s : Session) : Idles s [] s := by simp [Idles, Unchanged]

/-- Nothing happens in two stretches one after the other. -/
theorem Idles.append {s s' s'' : Session} {history later : List Moment} (h : Idles s history s')
    (h' : Idles s' later s'') : Idles s (history ++ later) s'' := by
  obtain ⟨hevents, hunchanged, hreport⟩ := h
  obtain ⟨hevents', hunchanged', hreport'⟩ := h'
  refine ⟨?_, ?_, hreport'.trans hreport⟩
  · intro x hx
    exact (List.mem_append.mp hx).elim (hevents x) (hevents' x)
  · intro x hx
    rcases List.mem_append.mp hx with hx | hx
    · exact hunchanged x hx
    · exact (hunchanged' x hx).trans hreport

/-- **Once a failure is known**, nothing happens any more that changes what is reported. -/
theorem Runs.idles {handlers : Handlers ρ μ} {task : Task ρ μ} {st st' : Session × μ}
    {history : List Moment} {result : Except Failure Unit}
    (h : Runs handlers task st history result st') {f : Failure}
    (hst : st.1.diagnostics.failure = some f) (htask : task.Idle) :
    Idles st.1 history st'.1 := by
  induction h with
  | known _ => exact idles_nil _
  | opened hfailure _ _ =>
      rw [hst] at hfailure
      cases hfailure
  | ended => exact idles_nil _
  | @parsed _ _ _ s _ _ _ _ _ st _ _ _ ihfile ihrest =>
      cases htask with
      | parse hk =>
          have hidles := ihfile hst trivial
          have hfailure : st.1.diagnostics.failure = s.diagnostics.failure :=
            congrArg Report.failure hidles.2.2
          exact hidles.append (ihrest (hfailure.trans hst) (hk _))
  | scanned hscans _ _ _ => exact (Answer.ParsesOnly.not_scans htask hscans).elim
  | missed hscans _ _ _ _ => exact (Answer.ParsesOnly.not_scans htask hscans).elim
  | requested hrequest _ ih =>
      obtain ⟨ha, rfl⟩ := Answer.ParsesOnly.of_request? htask hrequest
      have hfirst : ∀ s, Idles s [⟨.requested, s⟩] s := by simp [Idles, Unchanged]
      exact (hfirst _).append (ih hst ha)
  | _ => exact htask.elim

/-! ## Up to the first failure -/

/-- The invariant of a part that starts without a failure. Either nothing is reported, and then no
failure is known at the end; or there is a first failure. Any part but an answer succeeds in the
first case, and fails with the first failure in the second one. -/
inductive Settled (history : List Moment) (final : Session) :
    Task ρ μ → Except Failure Unit → Prop where
  /-- A part succeeds and nothing was reported. -/
  | quiet {task : Task ρ μ} (hquiet : NoReport history)
      (hfinal : final.diagnostics.failure = none) : Settled history final task (.ok ())
  /-- A part fails with the first failure. -/
  | failed {task : Task ρ μ} {f : Failure} (hfirst : FirstFailure f history final) :
      Settled history final task (.error f)
  /-- An answer fails although nothing was reported. -/
  | refused {a : Answer ρ μ} {f : Failure} (hquiet : NoReport history)
      (hfinal : final.diagnostics.failure = none) : Settled history final (.answer a) (.error f)
  /-- An answer hides the first failure or gives another one in its place. -/
  | hidden {a : Answer ρ μ} {f : Failure} {result : Except Failure Unit}
      (hfirst : FirstFailure f history final) : Settled history final (.answer a) result

/-- What a part has settled whose history is preceded by moments without a report. -/
theorem Settled.prepend {first history : List Moment} {final : Session} {task task' : Task ρ μ}
    {result : Except Failure Unit} (h : Settled history final task result)
    (htask : ∀ a, task = .answer a → ∃ a', task' = .answer a') (hfirst : NoReport first) :
    Settled (first ++ history) final task' result := by
  cases h with
  | quiet hquiet hfinal => exact .quiet (noReport_append.mpr ⟨hfirst, hquiet⟩) hfinal
  | failed hf => exact .failed (hf.prepend hfirst)
  | refused hquiet hfinal =>
      obtain ⟨a', rfl⟩ := htask _ rfl
      exact .refused (noReport_append.mpr ⟨hfirst, hquiet⟩) hfinal
  | hidden hf =>
      obtain ⟨a', rfl⟩ := htask _ rfl
      exact .hidden (hf.prepend hfirst)

/-- Nothing is reported in an include, up to when the session comes back from it, if nothing is
reported in its answer. -/
theorem noReport_of_include {history : List Moment} (h : NoReport history) (t : Token)
    (s s' s'' : Session) :
    NoReport (⟨.reached t none, s⟩ :: ⟨.entered t.unquoted, s'⟩ :: (history ++ [⟨.left, s''⟩])) :=
  noReport_cons.mpr ⟨rfl, noReport_cons.mpr ⟨rfl, noReport_append.mpr ⟨h, noReport_single rfl⟩⟩⟩

/-- The parts of sessions with answers that parse only. -/
def Task.ParsesOnly : Task ρ μ → Prop
  | .answer a => a.ParsesOnly
  | _ => True

/-- **A part that starts without a failure** ends without one or at the first one. -/
theorem Runs.settled {handlers : Handlers ρ μ}
    (hhandlers : ∀ role path, (handlers role path).ParsesOnly) {task : Task ρ μ}
    {st st' : Session × μ} {history : List Moment} {result : Except Failure Unit}
    (h : Runs handlers task st history result st') (hst : st.1.diagnostics.failure = none)
    (htask : task.ParsesOnly) : Settled history st'.1 task result := by
  induction h with
  | known hfailure =>
      rw [hst] at hfailure
      cases hfailure
  | opened _ _ ih =>
      refine (ih hst trivial).prepend ?_ (noReport_single rfl)
      intro a ha
      cases ha
  | finished _ => exact .quiet (noReport_single rfl) hst
  | @stopped _ _ s _ _ r _ =>
      have hfirst := firstFailure_report (s := s.advance r) hst
      exact .failed ((hfirst _).prepend (noReport_single rfl))
  | more _ _ _ ihitem ihrest =>
      cases ihitem hst trivial with
      | quiet hquiet hfinal =>
          refine (ihrest hfinal trivial).prepend ?_ (noReport_cons.mpr ⟨rfl, hquiet⟩)
          intro a ha
          cases ha
  | broken _ _ ih =>
      cases ih hst trivial with
      | failed hfirst => exact .failed (hfirst.prepend (noReport_single rfl))
  | performed hitem =>
      exact .quiet (noReport_single rfl) ((Session.failure_of_plain? hitem).trans hst)
  | rejected _ _ => exact .failed ((firstFailure_report hst _).prepend (noReport_single rfl))
  | included _ _ hfailure ih =>
      cases ih hst (hhandlers _ _) with
      | quiet hquiet _ => exact .quiet (noReport_of_include hquiet _ _ _ _) hfailure
      | hidden hfirst =>
          rw [hfirst.failure] at hfailure
          cases hfailure
  | @spoiled _ t s s' _ _ _ _ _ _ hfailure ih =>
      cases ih hst (hhandlers _ _) with
      | quiet _ hfinal =>
          rw [hfinal] at hfailure
          cases hfailure
      | hidden hfirst =>
          rw [hfirst.failure] at hfailure
          cases hfailure
          have hleft : Unchanged s' [⟨.left, s'.leave⟩] := by
            simp [Unchanged, Report.ofSession, Session.leave]
          exact .failed ((hfirst.extend hleft rfl).prepend
            (noReport_cons.mpr ⟨rfl, noReport_single rfl⟩))
  | @refused _ t s s' _ _ history _ placed _ _ _ ih =>
      have hlate : ∀ g, FirstFailure g history s' →
          FirstFailure g (⟨.reached t none, s⟩ :: ⟨.entered t.unquoted, s.enter t.unquoted⟩ ::
            (history ++ [⟨.left, s'.leave⟩, ⟨.reported placed, s'.leave.report placed⟩]))
            (s'.leave.report placed) := by
        intro g hfirst
        have hreport : s'.leave.report placed = s'.leave :=
          report_eq_of_failure (s := s'.leave) hfirst.failure placed
        have hlater : Unchanged s' [⟨.left, s'.leave⟩, ⟨.reported placed, s'.leave⟩] := by
          simp [Unchanged, Report.ofSession, Session.leave]
        rw [hreport]
        exact (hfirst.extend hlater rfl).prepend (noReport_cons.mpr ⟨rfl, noReport_single rfl⟩)
      cases ih hst (hhandlers _ _) with
      | failed hfirst | hidden hfirst =>
          rw [hfirst.failure]
          exact .failed (hlate _ hfirst)
      | refused hquiet hfinal =>
          rw [hfinal]
          have hreport : FirstFailure placed [⟨.reported placed, s'.leave.report placed⟩]
              (s'.leave.report placed) :=
            firstFailure_report (s := s'.leave) hfinal placed
          have hfirst := hreport.prepend
            (noReport_of_include hquiet t s (s.enter t.unquoted) s'.leave)
          exact .failed (by simpa using hfirst)
  | @ended result _ _ =>
      cases result with
      | ok u => exact .quiet noReport_nil hst
      | error f => exact .refused noReport_nil hst
  | parsed _ hrest ihfile ihrest =>
      cases htask with
      | parse hk =>
          cases ihfile hst trivial with
          | quiet hquiet hfinal =>
              refine (ihrest hfinal (hk _)).prepend ?_ hquiet
              intro a ha
              exact ⟨_, rfl⟩
          | failed hfirst =>
              obtain ⟨-, hlater, hreport⟩ := hrest.idles hfirst.failure (hk _)
              exact .hidden (hfirst.extend hlater hreport)
  | scanned hscans _ _ _ => exact (Answer.ParsesOnly.not_scans htask hscans).elim
  | missed hscans _ _ _ _ => exact (Answer.ParsesOnly.not_scans htask hscans).elim
  | requested hrequest _ ih =>
      obtain ⟨ha, rfl⟩ := Answer.ParsesOnly.of_request? htask hrequest
      refine (ih hst ha).prepend ?_ (noReport_single rfl)
      intro a ha
      exact ⟨_, rfl⟩

/-! ## Sessions -/

/-- If the root file of a session without a failure settles as any part does, then the session has
the outcome of its root file. -/
theorem start_eq_file {handlers : Handlers ρ μ}
    (hhandlers : ∀ role path, (handlers role path).ParsesOnly) (role : ρ) (source : SourceFile)
    {st : Session × μ} (hst : st.1.diagnostics.failure = none) :
    Parse.start handlers role source st = Parse.file handlers role source st := by
  obtain ⟨history, hrun⟩ := exists_runs handlers role source st
  have hsettled := hrun.settled hhandlers hst trivial
  unfold Parse.start
  cases hfile : Parse.file handlers role source st with
  | ok u st' =>
      rw [hfile] at hsettled
      cases hsettled with
      | quiet _ hfinal =>
          have hnone : st'.1.diagnostics.failure = none := hfinal
          simp only [hnone]
  | error f st' =>
      rw [hfile] at hsettled
      cases hsettled with
      | failed hfirst =>
          have hsome : st'.1.diagnostics.failure = some f := hfirst.failure
          simp only [hsome, Option.getD_some]

/-- Does a session stop at its first failure? It runs the root file from the state `st` and ends as
`r` says: with a failure exactly if that one is known at the end, which then is the one that was
reported first, and from when on the report on the session stayed as it is. -/
def StopsAtFirstFailure (handlers : Handlers ρ μ) (role : ρ) (source : SourceFile)
    (st : Session × μ) (r : EStateM.Result Failure (Session × μ) Unit) : Prop :=
  (∃ history, Runs handlers (.file role source) st history (outcome r).1 (outcome r).2) ∧
    (∀ f, (outcome r).1 = .error f ↔ (outcome r).2.1.diagnostics.failure = some f) ∧
      ∀ f history, (outcome r).1 = .error f →
        Runs handlers (.file role source) st history (outcome r).1 (outcome r).2 →
          FirstFailure f history (outcome r).2.1

/-- A session that starts without a failure stops at its first one. -/
theorem stopsAtFirstFailure_start {handlers : Handlers ρ μ}
    (hhandlers : ∀ role path, (handlers role path).ParsesOnly) (role : ρ) (source : SourceFile)
    {st : Session × μ} (hst : st.1.diagnostics.failure = none) :
    StopsAtFirstFailure handlers role source st (Parse.start handlers role source st) := by
  rw [start_eq_file hhandlers role source hst]
  obtain ⟨history, hrun⟩ := exists_runs handlers role source st
  refine ⟨⟨history, hrun⟩, ?_, ?_⟩
  · intro f
    have hsettled := hrun.settled hhandlers hst trivial
    generalize (outcome (Parse.file handlers role source st)).1 = result at hsettled
    cases hsettled with
    | quiet _ hfinal => simp [hfinal]
    | failed hfirst => simp [hfirst.failure]
  · intro f history hf hrun
    have hsettled := hrun.settled hhandlers hst trivial
    rw [hf] at hsettled
    cases hsettled with
    | failed hfirst => exact hfirst

/-- **A session stops at its first failure**, whatever session came before and wherever its root
file comes from, if the answers do nothing but parse files: as many as they like, with what comes of
it as they like. -/
theorem session_stops_at_first_failure (handlers : Handlers ρ μ)
    (hhandlers : ∀ role path, (handlers role path).ParsesOnly) (role : ρ) (source : SourceFile)
    (s : Session) (m : μ) :
    StopsAtFirstFailure handlers role source (s.reset, m)
        (Parse.root handlers role source (s, m)) ∧
      StopsAtFirstFailure handlers role source (s.reset.visitRoot source.name, m)
        (Parse.archiveRoot handlers role source (s, m)) :=
  ⟨stopsAtFirstFailure_start hhandlers role source rfl,
    stopsAtFirstFailure_start hhandlers role source rfl⟩

/-- The first failure of an included file, hidden by the answer, ends the session all the same. -/
theorem hidden_failure_ends_session :
    let included : SourceFile := { name := "broken.zs", contents := "enum \x7d".toUTF8.toList }
    let source : SourceFile := {
      name := "main.zs", contents := "#include \"broken.zs\" class A \x7b \x7d".toUTF8.toList }
    let handlers : Handlers Unit Unit := fun _ _ => .parse () included fun _ => .finish (.ok ())
    (∀ role path, (handlers role path).ParsesOnly) ∧
      ∃ f history, f.source = some "broken.zs" ∧
        Runs handlers (.file () source) (Session.new, ()) history (.error f)
          (outcome (Parse.root handlers () source (Session.new, ()))).2 ∧
        FirstFailure f history (outcome (Parse.root handlers () source (Session.new, ()))).2.1 := by
  intro included source handlers
  have hhandlers : ∀ role path, (handlers role path).ParsesOnly :=
    fun _ _ => .parse fun _ => .finish _
  refine ⟨hhandlers, ?_⟩
  obtain ⟨⟨history, hrun⟩, hiff, hfirst⟩ :=
    (session_stops_at_first_failure handlers hhandlers () source Session.new ()).1
  have hknown : (outcome (Parse.root handlers () source
      (Session.new, ()))).2.1.diagnostics.failure.bind Failure.source = some "broken.zs" := by
    decide +kernel
  obtain ⟨f, hf, hsource⟩ := Option.bind_eq_some_iff.mp hknown
  have herror := (hiff f).mpr hf
  refine ⟨f, history, hsource, ?_, hfirst f history herror hrun⟩
  rw [← herror]
  exact hrun

end ZDecl
