import ZDecl.Proofs.Session.FirstFailure

/-!
# Nothing is taken back

What a session has found and warned of stays, as long as its answers do nothing but parse files:
what comes later is put behind it. So wherever two sessions part, what they have in common is the
beginning of what each of them reports in the end.

* `Report.Begins`: the declarations, included paths and warnings of a report are the beginning of
  those of another one. `Session.Begins`: so it is with the reports on two sessions.
* **`Runs.begins`**: those of a session before a part and after it.
* `Runs.begins_of_items`: a part that reads items has read the first of them in any case.
-/

namespace ZDecl

variable {ρ μ : Type}

/-- Does the report go no further than the other one? -/
structure Report.Begins (r r' : Report) : Prop where
  /-- The declarations are the first ones of the other report. -/
  declarations : r.declarations <+: r'.declarations
  /-- So are the included paths. -/
  included : r.included <+: r'.included
  /-- So are the warnings. -/
  warnings : r.warnings <+: r'.warnings

/-- A report begins as itself. -/
theorem Report.Begins.refl (r : Report) : r.Begins r :=
  ⟨List.prefix_refl _, List.prefix_refl _, List.prefix_refl _⟩

/-- A report begins as the beginnings of its beginnings. -/
theorem Report.Begins.trans {r r' r'' : Report} (h : r.Begins r') (h' : r'.Begins r'') :
    r.Begins r'' :=
  ⟨h.declarations.trans h'.declarations, h.included.trans h'.included,
    h.warnings.trans h'.warnings⟩

/-- Is what was found and warned of in the session `s` the beginning of what was in `s'`? -/
abbrev Session.Begins (s s' : Session) : Prop := (Report.ofSession s).Begins (Report.ofSession s')

namespace Session

variable {s s' : Session}

/-- A session in which the same was found and warned of. -/
theorem begins_of_eq (hdeclarations : s'.declarations = s.declarations)
    (hpaths : s'.visited.paths = s.visited.paths)
    (hwarnings : s'.diagnostics.warnings = s.diagnostics.warnings) : s.Begins s' := by
  have hsame : ∀ {β : Type} {xs ys : List β}, ys = xs → xs <+: ys := fun h =>
    h ▸ List.prefix_refl _
  exact ⟨hsame hdeclarations, hsame hpaths, hsame hwarnings⟩

/-- Taking up another file adds nothing. -/
theorem begins_resume (s : Session) (context : Context) : s.Begins (s.resume context) :=
  begins_of_eq rfl rfl rfl

/-- A report adds nothing but the failure. -/
theorem begins_report (s : Session) (f : Failure) : s.Begins (s.report f) :=
  begins_of_eq rfl rfl rfl

/-- Reading on adds warnings. -/
theorem begins_advance (s : Session) (r : Scan.State) : s.Begins (s.advance r) :=
  ⟨List.prefix_refl _, List.prefix_refl _, List.prefix_append _ _⟩

/-- An include adds its path. -/
theorem begins_enter (s : Session) (path : String) : s.Begins (s.enter path) := by
  refine ⟨List.prefix_refl _, ?_, List.prefix_refl _⟩
  show s.visited.paths <+: (s.visited.insert path).paths
  rw [Visited.insert_eq]
  split
  · exact List.prefix_refl _
  · exact List.prefix_append _ _

/-- An item that is no include directive may add a declaration and log it. -/
theorem begins_of_plain? {item : Item} (h : s.plain? item = some s') : s.Begins s' := by
  cases item with
  | inclusion t => cases h
  | word t =>
      cases h
      exact .refl _
  | version v =>
      cases h
      exact begins_of_eq rfl rfl rfl
  | declaration d =>
      cases h
      rw [record_eq]
      exact ⟨List.prefix_append _ _, List.prefix_refl _, List.prefix_append _ _⟩

end Session

open Session

/-- **Nothing is taken back** in the course of a part, if answers do nothing but parse files. -/
theorem Runs.begins {handlers : Handlers ρ μ}
    (hhandlers : ∀ role path, (handlers role path).ParsesOnly) {task : Task ρ μ}
    {st st' : Session × μ} {history : List Moment} {result : Except Failure Unit}
    (h : Runs handlers task st history result st') (htask : task.ParsesOnly) :
    st.1.Begins st'.1 := by
  induction h with
  | known _ | ended => exact .refl _
  | opened _ _ ih => exact (begins_resume _ _).trans (ih trivial)
  | finished _ => exact begins_advance _ _
  | stopped _ => exact (begins_advance _ _).trans (begins_report _ _)
  | more _ _ _ ihitem ihrest =>
      exact (begins_advance _ _).trans ((ihitem trivial).trans (ihrest trivial))
  | broken _ _ ih => exact (begins_advance _ _).trans (ih trivial)
  | performed hitem => exact begins_of_plain? hitem
  | rejected _ _ => exact begins_report _ _
  | included _ _ _ ih | spoiled _ _ _ ih | refused _ _ _ ih =>
      exact (begins_enter _ _).trans ((ih (hhandlers _ _)).trans (begins_of_eq rfl rfl rfl))
  | parsed _ _ ihfile ihrest =>
      cases htask with
      | parse hk => exact (ihfile trivial).trans (ihrest (hk _))
  | scanned hscans _ _ _ => exact (Answer.ParsesOnly.not_scans htask hscans).elim
  | missed hscans _ _ _ _ => exact (Answer.ParsesOnly.not_scans htask hscans).elim
  | requested hrequest _ ih =>
      obtain ⟨ha, rfl⟩ := Answer.ParsesOnly.of_request? htask hrequest
      exact ih ha

/-- What the first reader of some items has met is there at their end. -/
theorem Runs.begins_of_items {handlers : Handlers ρ μ}
    (hhandlers : ∀ role path, (handlers role path).ParsesOnly) {role : ρ} {cursor : Cursor}
    {s : Session} {m : μ} {st' : Session × μ} {history : List Moment}
    {result : Except Failure Unit}
    (h : Runs handlers (.items role cursor) (s, m) history result st') :
    (s.advance (Scan.endState (Item.next? s.options.strictHeader s.context.name
      ⟨cursor, []⟩))).Begins st'.1 := by
  cases h with
  | finished hread =>
      rw [hread]
      exact .refl _
  | stopped hread =>
      rw [hread]
      exact begins_report _ _
  | more hread hitem hrest =>
      rw [hread]
      exact (hitem.begins hhandlers trivial).trans (hrest.begins hhandlers trivial)
  | broken hread hitem =>
      rw [hread]
      exact hitem.begins hhandlers trivial

end ZDecl
