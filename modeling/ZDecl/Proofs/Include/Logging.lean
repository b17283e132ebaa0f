import ZDecl.Proofs.Include.Restrictions

/-!
# Logging declarations only adds lines

What a session warns of is decided where it reads its items: the stray tokens of the item, and, if
declarations are logged and the item is one, its summary. So the log of a session over an archive is
put together from the places at which it reads, one after the other, whichever files they belong to
and whatever becomes of the session in the end.

* `readings`: the places at which something is read in a history, in order.
* `Context.strays`, `Context.declaration?`: what is to be warned of and recorded at such a place.
* `Context.log`: what is logged there.
* **`Runs.logged`**: what a part of a session finds and warns of, place by place.
* `ReadsAt`: the places of a whole session.
* **`parseArchive_reportDeclarations_eq`**: the reports with and without the summaries of
  declarations.

The summary of a declaration belongs to the place where the declaration was read, but is logged by
the part behind that, which performs the item. So an item counts what it is itself apart from the
places that are read while it is performed.
-/

namespace ZDecl

open Grammar

/-! ## Places that are read -/

/-- The places at which something is read in a history that starts at the place `c`, in order. -/
def readings (c : Context) : List Moment → List Context
  | [] => []
  | x :: history =>
    (match x.event with
      | .read => [c]
      | _ => []) ++ readings x.session.context history

/-- The places of two histories one behind the other. -/
theorem Chain.readings_append {s s' : Session} {history : List Moment} (h : Chain s history s')
    (later : List Moment) : readings s.context (history ++ later) =
      readings s.context history ++ readings s'.context later := by
  induction h with
  | nil s => rfl
  | cons _ _ ih => rw [List.cons_append, readings, readings, ih, List.append_assoc]

/-- Histories that are alike read at the same places. -/
theorem readings_eq_of_alike {history history' : List Moment}
    (h : List.Forall₂ Moment.Alike history history') (c : Context) :
    readings c history' = readings c history := by
  induction h generalizing c with
  | nil => rfl
  | cons hx _ ih => rw [readings, readings, hx.event, hx.context, ih]

namespace Context

/-- What is warned of when the item at the place is read, whatever comes of it. -/
def strays (strict : Bool) (c : Context) : List String :=
  (Scan.endState (Item.next? strict c.name ⟨c.cursor, []⟩)).warnings c.name

/-- The declaration that is read at the place, if the item there is one. -/
def declaration? (strict : Bool) (c : Context) : Option Declaration :=
  match Item.next? strict c.name ⟨c.cursor, []⟩ with
  | .ok (some (.declaration d)) _ => some d
  | _ => none

/-- What is logged of the item at the place: what is warned of, and then, with `report`, what is
declared. -/
def log (report strict : Bool) (c : Context) : List String :=
  c.strays strict ++
    if report then ((c.declaration? strict).map Declaration.summary).toList else []

/-- Without the declarations, only what is warned of is logged. -/
theorem log_false (strict : Bool) : log false strict = strays strict :=
  funext fun _ => List.append_nil _

variable {strict : Bool} (report : Bool) {c : Context} {r : Scan.State}

/-- What is found and logged where the next item is read. -/
theorem log_of_next?_eq_some {item : Item}
    (h : Item.next? strict c.name ⟨c.cursor, []⟩ = .ok (some item) r) :
    c.log report strict = r.warnings c.name ++ item.logged report ∧
      (c.declaration? strict).toList = declared [item] := by
  unfold log strays declaration?
  rw [h]
  cases item with
  | declaration d => cases report <;> exact ⟨rfl, rfl⟩
  | word t | inclusion t | version v => cases report <;> exact ⟨rfl, rfl⟩

/-- Nothing is found where no item is read. -/
theorem log_of_next? (h : ∀ item r, Item.next? strict c.name ⟨c.cursor, []⟩ ≠ .ok (some item) r) :
    c.log report strict =
        (Scan.endState (Item.next? strict c.name ⟨c.cursor, []⟩)).warnings c.name ∧
      c.declaration? strict = none := by
  unfold log strays declaration?
  cases hread : Item.next? strict c.name ⟨c.cursor, []⟩ with
  | error f r => cases report <;> exact ⟨List.append_nil _, rfl⟩
  | ok item? r =>
      cases item? with
      | none => cases report <;> exact ⟨List.append_nil _, rfl⟩
      | some item => exact absurd hread (h item r)

end Context

/-! ## The log of a run -/

/-- The item that a part is, if it is one. -/
def Task.own {ρ μ : Type} : Task ρ μ → List Item
  | .item _ i => [i]
  | _ => []

/-- What is logged of some items, if declarations are logged. -/
def loggedOf (report : Bool) (items : List Item) : List String :=
  items.flatMap (Item.logged report)

/-- **What happens from the session `s` to `s'`**, seen from the log: the items that are performed
are found and logged, and then what is read at some places. -/
structure Session.Logs (s s' : Session) (items : List Item) (places : List Context) : Prop where
  /-- The declarations. -/
  declarations : s'.declarations = s.declarations ++ declared items ++
    places.filterMap (Context.declaration? s.options.strictHeader)
  /-- The warnings. -/
  warnings : s'.diagnostics.warnings = s.diagnostics.warnings ++
    loggedOf s.options.reportDeclarations items ++
      places.flatMap (Context.log s.options.reportDeclarations s.options.strictHeader)
  /-- The options do not change. -/
  options : s'.options = s.options

namespace Session

variable {s s' s'' : Session} {items : List Item} {places more : List Context}

/-- Nothing is logged where nothing is found and warned of. -/
theorem Logs.quiet (hdeclarations : s'.declarations = s.declarations)
    (hwarnings : s'.diagnostics.warnings = s.diagnostics.warnings)
    (hoptions : s'.options = s.options) : s.Logs s' [] [] := by
  refine ⟨?_, ?_, hoptions⟩
  · rw [hdeclarations]
    exact ((List.append_nil _).trans (List.append_nil _)).symm
  · rw [hwarnings]
    exact ((List.append_nil _).trans (List.append_nil _)).symm

/-- What is read in two stretches. -/
theorem Logs.append (h : s.Logs s' items places) (h' : s'.Logs s'' [] more) :
    s.Logs s'' items (places ++ more) := by
  obtain ⟨hdeclarations, hwarnings, hoptions⟩ := h
  obtain ⟨hdeclarations', hwarnings', hoptions'⟩ := h'
  refine ⟨?_, ?_, hoptions'.trans hoptions⟩
  · rw [hdeclarations', hdeclarations, hoptions, List.filterMap_append]
    simp [declared]
  · rw [hwarnings', hwarnings, hoptions, List.flatMap_append]
    simp [loggedOf]

/-- An item is logged where it was read. -/
theorem Logs.read {item : Item} {r : Scan.State}
    (hread : Item.next? s.options.strictHeader s.context.name ⟨s.context.cursor, []⟩ =
      .ok (some item) r) (h : (s.advance r).Logs s' [item] places) :
    s.Logs s' [] (s.context :: places) := by
  obtain ⟨hlog, hfound⟩ := Context.log_of_next?_eq_some s.options.reportDeclarations hread
  obtain ⟨hdeclarations, hwarnings, hoptions⟩ := h
  refine ⟨?_, ?_, hoptions⟩
  · have hplaces : (s.context :: places).filterMap (Context.declaration? s.options.strictHeader) =
        declared [item] ++ places.filterMap (Context.declaration? s.options.strictHeader) := by
      rw [← hfound]
      cases hd : s.context.declaration? s.options.strictHeader <;> simp [hd]
    rw [hplaces, hdeclarations]
    simp [advance, declared]
  · rw [List.flatMap_cons, hlog, hwarnings]
    simp [advance, loggedOf, Diagnostics.warnAll, Scan.State.warnings]

/-- Where no item is read, only stray tokens are logged. -/
theorem Logs.stop {out : EStateM.Result Failure Scan.State (Option Item)}
    (hread : Item.next? s.options.strictHeader s.context.name ⟨s.context.cursor, []⟩ = out)
    (hout : ∀ item r, out ≠ .ok (some item) r) :
    s.Logs (s.advance (Scan.endState out)) [] [s.context] := by
  obtain ⟨hlog, hfound⟩ := Context.log_of_next? s.options.reportDeclarations (hread ▸ hout)
  refine ⟨?_, ?_, rfl⟩
  · simp [hfound, declared, advance]
  · simp [hlog, hread, loggedOf, advance, Diagnostics.warnAll, Scan.State.warnings]

/-- An item that is no include directive is found and logged. -/
theorem Logs.plain? {item : Item} (h : s.plain? item = some s') : s.Logs s' [item] [] := by
  refine ⟨?_, ?_, (depth_options_of_plain? h).2⟩
  · rw [(finds_of_plain? h).declarations]
    exact (List.append_nil _).symm
  · rw [warnings_of_plain? h]
    simp [loggedOf]

/-- An include directive itself is not logged. -/
theorem Logs.inclusion {t : Token} (h : s.Logs s' [] places) : s.Logs s' [.inclusion t] places :=
  ⟨h.declarations, h.warnings, h.options⟩

/-- What is read in an include is logged between going into it and leaving it. -/
theorem Logs.include {path : String} (h : (s.enter path).Logs s' [] places)
    (hdeclarations : s''.declarations = s'.declarations)
    (hwarnings : s''.diagnostics.warnings = s'.diagnostics.warnings)
    (hoptions : s''.options = s'.options) : s.Logs s'' [] places := by
  have hafter := h.append (.quiet hdeclarations hwarnings hoptions)
  rw [List.append_nil] at hafter
  exact ⟨hafter.declarations, hafter.warnings, hafter.options⟩

end Session

/-- The places of an include are those of its answer. -/
theorem readings_of_answer {s s' : Session} {t : Token} {verdict : Option Cause} {path : String}
    {inner later : List Moment} (h : Chain (s.enter path) inner s')
    (hlater : readings s'.context later = []) :
    readings s.context (⟨.reached t verdict, s⟩ :: ⟨.entered path, s.enter path⟩ ::
      (inner ++ later)) = readings s.context inner := by
  show readings (s.enter path).context (inner ++ later) = _
  rw [h.readings_append, hlater, List.append_nil]
  rfl

/-- The parts that are looked at: items where the session stands, and answers that parse only. -/
def Task.LogsFrom {ρ μ : Type} (s : Session) : Task ρ μ → Prop
  | .items _ cursor => s.context.cursor = cursor
  | .answer a => a.ParsesOnly
  | _ => True

/-- **What a part of a session finds and warns of**: the item that it is, and what is read in its
course. -/
theorem Runs.logged {ρ μ : Type} {handlers : Handlers ρ μ}
    (hhandlers : ∀ role path, (handlers role path).ParsesOnly) {task : Task ρ μ}
    {st st' : Session × μ} {history : List Moment} {result : Except Failure Unit}
    (h : Runs handlers task st history result st') (htask : task.LogsFrom st.1) :
    st.1.Logs st'.1 task.own (readings st.1.context history) := by
  induction h with
  | known _ | ended => exact .quiet rfl rfl rfl
  | @opened _ source s _ _ _ _ _ _ ih =>
      have hopen : s.Logs (s.resume (Context.ofFile source)) [] [] := .quiet rfl rfl rfl
      exact hopen.append (ih rfl)
  | finished hread =>
      obtain rfl := htask
      exact .stop hread fun item r h => nomatch h
  | stopped hread =>
      obtain rfl := htask
      exact (Session.Logs.stop hread fun item r h => nomatch h).append (.quiet rfl rfl rfl)
  | @more role cursor s _ item r history later _ st _ hread hitem hrest ihitem ihrest =>
      obtain rfl := htask
      have hcontext : st.1.context = (s.advance r).context := hitem.context_of_item_ok
      have hplace : st.1.context.cursor = r.cursor := congrArg Context.cursor hcontext
      have hplaces : readings (s.advance r).context (history ++ later) =
          readings (s.advance r).context history ++ readings st.1.context later :=
        hitem.chain.readings_append later
      show s.Logs _ [] (s.context :: readings (s.advance r).context (history ++ later))
      rw [hplaces]
      exact .read hread ((ihitem trivial).append (ihrest hplace))
  | broken hread _ ih =>
      obtain rfl := htask
      exact .read hread (ih trivial)
  | performed hitem => exact .plain? hitem
  | rejected _ _ => exact Session.Logs.inclusion (.quiet rfl rfl rfl)
  | included _ hanswer _ ih | spoiled _ hanswer _ ih | refused _ hanswer _ ih =>
      rw [readings_of_answer hanswer.chain rfl]
      exact Session.Logs.inclusion (.include (ih (hhandlers _ _)) rfl rfl rfl)
  | parsed hfile _ ihfile ihrest =>
      cases htask with
      | parse hk =>
          rw [hfile.chain.readings_append]
          exact (ihfile trivial).append (ihrest (hk _))
  | scanned hscans _ _ _ => exact (Answer.ParsesOnly.not_scans htask hscans).elim
  | missed hscans _ _ _ _ => exact (Answer.ParsesOnly.not_scans htask hscans).elim
  | requested hrequest _ ih =>
      obtain ⟨ha, rfl⟩ := Answer.ParsesOnly.of_request? htask hrequest
      exact ih ha

/-! ## Sessions over an archive -/

/-- Are these the places at which the session over an archive reads items, in order? There is none
if the root file cannot be opened. -/
def ReadsAt {α : Type} [Archive α] (archive : α) (path : String) (o : Options)
    (places : List Context) : Prop :=
  match Archive.openFile archive path with
  | .error _ => places = []
  | .ok root => ∃ history result st', Runs (Archive.handlers archive) (.file () root)
      (.atRoot o root, ()) history result st' ∧ places = readings Context.empty history

/-- **Logging declarations only adds lines**: the same items are read at the same places, and the
reports are the same but for the warnings. Those of the session that logs no declarations are what
is warned of at each place; those of the other one are the same with one more line behind the
warnings of a place for the declaration that is read there, and these are the declarations in
order. -/
theorem parseArchive_reportDeclarations_eq {α : Type} [Archive α] (archive : α) (path : String)
    (o : Options) :
    ∃ places, ReadsAt archive path { o with reportDeclarations := false } places ∧
      ReadsAt archive path { o with reportDeclarations := true } places ∧
      (parseArchive archive path { o with reportDeclarations := false }).declarations =
        places.filterMap (Context.declaration? o.strictHeader) ∧
      (parseArchive archive path { o with reportDeclarations := false }).warnings =
        places.flatMap (Context.strays o.strictHeader) ∧
      parseArchive archive path { o with reportDeclarations := true } =
        { parseArchive archive path { o with reportDeclarations := false } with
          warnings := places.flatMap fun c => c.strays o.strictHeader ++
            ((c.declaration? o.strictHeader).map Declaration.summary).toList } := by
  have hwithin : Options.Within { o with reportDeclarations := false }
      { o with reportDeclarations := true } := ⟨id, Nat.le_refl _⟩
  cases hroot : Archive.openFile archive path with
  | error error =>
      refine ⟨[], ?_, ?_, ?_, ?_, ?_⟩
      all_goals
        simp [ReadsAt, parseArchive, hroot]
  | ok root =>
      obtain ⟨history, history', result, result', s, s', hrun, hrun', hreport, hreport',
        hcompared⟩ := exists_compared archive path hwithin hroot
      have hparses := Archive.parsesOnly_handlers archive
      have hlogs := hrun.logged hparses trivial
      have hlogs' := hrun'.logged hparses trivial
      rw [hreport, hreport']
      rcases hcompared with ⟨-, ⟨warnings, rfl, -⟩, hmoments⟩ | ⟨hplace, hparting, -, -⟩
      · have hplaces : readings Context.empty history' = readings Context.empty history :=
          readings_eq_of_alike hmoments _
        have hfound : s.declarations =
            (readings Context.empty history).filterMap (Context.declaration? o.strictHeader) :=
          hlogs.declarations
        have hquiet : s.diagnostics.warnings =
            (readings Context.empty history).flatMap (Context.log false o.strictHeader) :=
          hlogs.warnings
        have hloud : warnings =
            (readings Context.empty history').flatMap (Context.log true o.strictHeader) :=
          hlogs'.warnings
        rw [hplaces] at hloud
        rw [Context.log_false] at hquiet
        refine ⟨readings Context.empty history, ?_, ?_, hfound, hquiet, ?_⟩
        · unfold ReadsAt
          rw [hroot]
          exact ⟨history, result, _, hrun, rfl⟩
        · unfold ReadsAt
          rw [hroot]
          exact ⟨history', result', _, hrun', hplaces.symm⟩
        · rw [hloud]
          rfl
      · -- the options differ in nothing that could make the sessions part
        have hoptions := hplace.depth_options_eq.2
        cases hparting with
        | header hstrict hother _ _ =>
            rw [hoptions] at hstrict
            cases hstrict.symm.trans hother
        | depth _ hlimit _ =>
            rw [hoptions] at hlimit
            exact absurd hlimit (Nat.lt_irrefl _)

end ZDecl
