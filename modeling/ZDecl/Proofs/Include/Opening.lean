import ZDecl.Proofs.Session.FirstFailure
import ZDecl.Proofs.Session.Steps

/-!
# Files are opened as they are included

In a session over an archive that finds every file under the name that it gives to it, the file of
an include is opened as soon as the include is entered, or the session fails. So whenever an include
directive is reached, the files that were opened are the root and the files of the paths that were
included, in this order.

* `opened`: the names of the files that are opened in a history.
* `OpensAtOnce`: what a part of a session over an archive opens.
* **`Runs.opensAtOnce`**: every part opens its files so.
* `exists_runs_of_openFile`: the report on a file of an archive is that of a run.
-/

namespace ZDecl

variable {α : Type} [Archive α] {archive : α}

/-! ## Answers from an archive -/

/-- The handlers of a session over an archive of any kind. -/
abbrev Archive.handlers (archive : α) : Handlers Unit Unit :=
  fun _ path => .fromArchive archive () path

/-- An answer from an archive parses a file and passes its result on, or has failed. -/
theorem fromArchive_cases (archive : α) (path : String) :
    (∃ source, Archive.openFile archive path = .ok source ∧
        (Answer.fromArchive archive () path : Answer Unit Unit) = .parse () source .finish) ∨
      ∃ f, (Answer.fromArchive archive () path : Answer Unit Unit) = .finish (.error f) := by
  unfold Answer.fromArchive
  cases h : Archive.openFile archive path with
  | ok source => exact .inl ⟨source, rfl, rfl⟩
  | error error => exact .inr ⟨_, rfl⟩

/-- It does nothing else. -/
theorem Archive.parsesOnly_handlers (archive : α) (role : Unit) (path : String) :
    (Archive.handlers archive role path).ParsesOnly := by
  rcases fromArchive_cases archive path with ⟨source, -, h⟩ | ⟨f, h⟩
  · rw [Archive.handlers, h]
    exact .parse fun result => .finish result
  · rw [Archive.handlers, h]
    exact .finish _

/-! ## What is opened -/

/-- The names of the files that are opened in a history, in order. -/
def opened (history : List Moment) : List String := (openings history).map SourceFile.name

/-- The files opened in two histories, one behind the other. -/
@[simp] theorem opened_append (history later : List Moment) :
    opened (history ++ later) = opened history ++ opened later := by
  simp [opened]

/-- What is opened in a part of a session over an archive: first the files of the given names and
then, at once, those that are included. -/
structure OpensAtOnce (archive : α) (start : List String) (history : List Moment)
    (result : Except Failure Unit) : Prop where
  /-- The files come from the archive. -/
  found : ∀ source ∈ openings history, Archive.openFile archive source.name = .ok source
  /-- No others are opened. -/
  among : (opened history).Sublist (start ++ entered history)
  /-- Where an include directive is reached, all of them are opened. -/
  reached : ∀ before t verdict s after, history = before ++ ⟨.reached t verdict, s⟩ :: after →
    opened before = start ++ entered before
  /-- So they are at the end, if there was no failure. -/
  all : result = .ok () → opened history = start ++ entered history

namespace OpensAtOnce

variable {start : List String} {history later : List Moment} {result result' : Except Failure Unit}
  {source : SourceFile} {path : String} {s : Session} {x : Moment}

/-- Nothing is opened where nothing happens. -/
theorem nil (hresult : result = .ok () → start = []) : OpensAtOnce archive start [] result where
  found _ hsource := (List.not_mem_nil hsource).elim
  among := List.nil_sublist _
  reached := by
    intro before t verdict s after h
    exact absurd h.symm (List.append_ne_nil_of_right_ne_nil _ (List.cons_ne_nil _ _))
  all hok := by
    rw [hresult hok]
    rfl

/-- A moment in which nothing is opened and included. No include directive is reached before the
first files are opened. -/
theorem cons (h : OpensAtOnce archive start history result) (hopenings : openings [x] = [])
    (hentered : entered [x] = []) (hx : start = [] ∨ ZDecl.reached [x] = []) :
    OpensAtOnce archive start (x :: history) result := by
  have hopenings' : ∀ history, openings (x :: history) = openings history := by
    intro history
    rw [← List.singleton_append, openings_append, hopenings, List.nil_append]
  have hentered' : ∀ history, entered (x :: history) = entered history := by
    intro history
    rw [← List.singleton_append, entered_append, hentered, List.nil_append]
  have hopened' : ∀ history, opened (x :: history) = opened history := by
    intro history
    rw [opened, hopenings', opened]
  refine ⟨?_, ?_, ?_, ?_⟩
  · rw [hopenings']
    exact h.found
  · rw [hopened', hentered']
    exact h.among
  · intro before t verdict s after hsplit
    cases before with
    | nil =>
        obtain ⟨rfl, rfl⟩ := List.cons.inj hsplit
        obtain rfl := hx.resolve_right (List.cons_ne_nil _ _)
        rfl
    | cons y before =>
        obtain ⟨rfl, hrest⟩ := List.cons.inj hsplit
        rw [hopened', hentered']
        exact h.reached before t verdict s after hrest
  · rw [hopened', hentered']
    exact h.all

/-- A file is opened. -/
theorem opened (h : OpensAtOnce archive [] history result)
    (hsource : Archive.openFile archive source.name = .ok source) :
    OpensAtOnce archive [source.name] (⟨.opened source, s⟩ :: history) result := by
  refine ⟨?_, h.among.cons_cons source.name, ?_, fun hok => congrArg _ (h.all hok)⟩
  · rintro other hother
    rcases List.mem_cons.mp hother with rfl | hother
    · exact hsource
    · exact h.found other hother
  · intro before t verdict s after hsplit
    cases before with
    | nil => cases (List.cons.inj hsplit).1
    | cons y before =>
        obtain ⟨rfl, hrest⟩ := List.cons.inj hsplit
        exact congrArg _ (h.reached before t verdict s after hrest)

/-- An include is entered, and its file is what is opened next. -/
theorem entered (h : OpensAtOnce archive [path] history result) :
    OpensAtOnce archive [] (⟨.entered path, s⟩ :: history) result := by
  refine ⟨h.found, h.among, ?_, h.all⟩
  intro before t verdict s after hsplit
  cases before with
  | nil => cases (List.cons.inj hsplit).1
  | cons y before =>
      obtain ⟨rfl, hrest⟩ := List.cons.inj hsplit
      exact h.reached before t verdict s after hrest

/-- Nothing is opened in a moment in which nothing is opened and included. -/
theorem single (hopenings : openings [x] = []) (hentered : ZDecl.entered [x] = []) :
    OpensAtOnce archive [] [x] result :=
  (nil fun _ => rfl).cons hopenings hentered (.inl rfl)

/-- Two parts one after the other. If the first one fails, no include directive is reached in the
second. -/
theorem append (h : OpensAtOnce archive start history result)
    (h' : OpensAtOnce archive [] later result')
    (hreached : result = .ok () ∨ ZDecl.reached later = [])
    (hresult : result' = .ok () → result = .ok ()) :
    OpensAtOnce archive start (history ++ later) result' := by
  refine ⟨?_, ?_, ?_, ?_⟩
  · intro source hsource
    rw [openings_append] at hsource
    exact (List.mem_append.mp hsource).elim (h.found source) (h'.found source)
  · rw [opened_append, entered_append, ← List.append_assoc]
    exact h.among.append h'.among
  · intro before t verdict s after hsplit
    have hlater : ∀ more, later = more ++ ⟨.reached t verdict, s⟩ :: after →
        ZDecl.opened (history ++ more) = start ++ ZDecl.entered (history ++ more) := by
      rintro more rfl
      have hok : result = .ok () := by
        refine hreached.resolve_right ?_
        simp [ZDecl.reached]
      rw [opened_append, entered_append, h.all hok, h'.reached more t verdict s after rfl,
        List.nil_append, List.append_assoc]
    rcases List.append_eq_append_iff.mp hsplit with ⟨more, rfl, hmore⟩ | ⟨more, rfl, hmore⟩
    · exact hlater more hmore
    · cases more with
      | nil =>
          have hall := hlater [] hmore.symm
          rw [List.append_nil, List.append_nil] at hall
          exact hall
      | cons y more =>
          obtain ⟨rfl, -⟩ := List.cons.inj hmore
          exact h.reached before t verdict s more rfl
  · intro hok
    rw [opened_append, entered_append, h.all (hresult hok), h'.all hok, List.nil_append,
      List.append_assoc]

end OpensAtOnce

/-- The parts of a session over an archive, as far as they open files: after a file of the archive,
or the one of the path that is answered, those that are included. -/
def Task.OpensAtOnce (archive : α) : Task Unit Unit → List Moment → Except Failure Unit → Prop
  | .file _ source, history, result => Archive.openFile archive source.name = .ok source →
      ZDecl.OpensAtOnce archive [source.name] history result
  | .answer a, history, result => ∀ path, a = .fromArchive archive () path →
      ZDecl.OpensAtOnce archive [path] history result
  | _, history, result => ZDecl.OpensAtOnce archive [] history result

/-- **Every part of a session over an archive opens its files at once**, if the archive gives them
the names that they are asked for by. -/
theorem Runs.opensAtOnce
    (hnamed : ∀ path source, Archive.openFile archive path = .ok source → source.name = path)
    {task : Task Unit Unit} {st st' : Session × Unit} {history : List Moment}
    {result : Except Failure Unit}
    (h : Runs (Archive.handlers archive) task st history result st') :
    task.OpensAtOnce archive history result := by
  induction h with
  | known _ => exact fun _ => .nil fun h => nomatch h
  | opened _ _ ih => exact fun hsource => ih.opened hsource
  | finished _ => exact .single rfl rfl
  | stopped _ => exact (OpensAtOnce.single rfl rfl).cons rfl rfl (.inl rfl)
  | more _ _ _ ihitem ihrest =>
      exact (ihitem.append ihrest (.inl rfl) fun _ => rfl).cons rfl rfl (.inl rfl)
  | broken _ _ ih => exact ih.cons rfl rfl (.inl rfl)
  | performed _ => exact .single rfl rfl
  | rejected _ _ => exact (OpensAtOnce.single rfl rfl).cons rfl rfl (.inl rfl)
  | included _ _ _ ih =>
      refine (OpensAtOnce.entered ?_).cons rfl rfl (.inl rfl)
      exact (ih _ rfl).append (.single rfl rfl) (.inr rfl) id
  | spoiled _ _ _ ih =>
      refine (OpensAtOnce.entered ?_).cons rfl rfl (.inl rfl)
      exact (ih _ rfl).append (.single rfl rfl) (.inr rfl) fun _ => rfl
  | refused _ _ _ ih =>
      refine (OpensAtOnce.entered ?_).cons rfl rfl (.inl rfl)
      refine (ih _ rfl).append ?_ (.inr rfl) fun hok => nomatch hok
      exact (OpensAtOnce.single rfl rfl).cons rfl rfl (.inl rfl)
  | ended =>
      intro path ha
      rcases fromArchive_cases archive path with ⟨source, -, h⟩ | ⟨f, h⟩
      · cases ha.trans h
      · cases ha.trans h
        exact .nil fun h => nomatch h
  | parsed _ hrest ihfile _ =>
      intro path ha
      rcases fromArchive_cases archive path with ⟨source, hsource, h⟩ | ⟨f, h⟩
      · cases ha.trans h
        obtain ⟨rfl, rfl, -⟩ := hrest.of_finish
        have hname := hnamed path _ hsource
        rw [List.append_nil, ← hname]
        exact ihfile (hname.symm ▸ hsource)
      · cases ha.trans h
  | scanned hscans _ _ _ =>
      intro path ha
      subst ha
      exact ((Archive.parsesOnly_handlers archive () path).not_scans hscans).elim
  | missed hscans _ _ _ _ =>
      intro path ha
      subst ha
      exact ((Archive.parsesOnly_handlers archive () path).not_scans hscans).elim
  | requested hrequest _ _ =>
      intro path ha
      rcases fromArchive_cases archive path with ⟨source, -, h⟩ | ⟨f, h⟩
      · cases ha.trans h
        cases hrequest
      · cases ha.trans h
        cases hrequest

/-! ## Reports -/

/-- The report on a file of an archive is that of a run of the file. -/
theorem exists_runs_of_openFile (archive : α) (path : String) (options : Options)
    {root : SourceFile} (hroot : Archive.openFile archive path = .ok root) :
    ∃ history result s', Runs (Archive.handlers archive) (.file () root)
        ((Session.new options).visitRoot root.name, ()) history result (s', ()) ∧
      parseArchive archive path options = Report.ofSession s' := by
  have hreport : parseArchive archive path options = .ofSession (sessionAfter
      (Parse.file (Archive.handlers archive) () root
        ((Session.new options).visitRoot root.name, ()))) := by
    unfold parseArchive
    rw [hroot]
    exact congrArg (fun r => Report.ofSession (sessionAfter r))
      (start_eq_file (Archive.parsesOnly_handlers archive) () root rfl)
  obtain ⟨history, hrun⟩ := exists_runs (Archive.handlers archive) () root
    ((Session.new options).visitRoot root.name, ())
  rw [hreport]
  cases hfile : Parse.file (Archive.handlers archive) () root
      ((Session.new options).visitRoot root.name, ()) with
  | ok u st =>
      rw [hfile] at hrun
      exact ⟨history, _, st.1, hrun, rfl⟩
  | error f st =>
      rw [hfile] at hrun
      exact ⟨history, _, st.1, hrun, rfl⟩

end ZDecl
