import ZDecl.Archive.Memory
import ZDecl.Proofs.Include.Lockstep

/-!
# Stricter options only refuse

Two options can make a session fail: strict headers, and a limit on nested includes. Whoever makes
them stricter gets the report that was there before, or one that ends with just that failure: a
beginning of the other report, up to where it went on.

* `Involves.stored`: wherever items are parsed in a session over an archive, it is in a file of that
  archive.
* `exists_compared`: the reports on one file under two options are those of two runs in lockstep.
* `parseArchive_eq_or_parts`: the reports are the same, or one of the sessions failed where the
  other one went on.
* **`parseArchive_strict_eq_or_stops`**: strict headers change nothing, or fail at a token behind
  the mark for native types that is warned of otherwise.
* **`parseArchive_depth_eq_or_stops`**: a lower limit changes nothing, or fails at an include
  directive that is nested as deep as the limit.
-/

namespace ZDecl

variable {α : Type} [Archive α] {archive : α}

/-! ## Where items are parsed -/

/-- What belongs to the archive where a part starts: a file, and the file in which items are. -/
def Task.Stored (archive : α) (s : Session) : Task Unit Unit → Prop
  | .file _ source => ∃ path, Archive.openFile archive path = .ok source
  | .items _ cursor => ∃ path source, Archive.openFile archive path = .ok source ∧
      s.StandsAt source cursor
  | .item _ i => ∃ path source, Archive.openFile archive path = .ok source ∧
      s.StandsAt source s.context.cursor ∧
        i.EndsAtPath (Cursor.ofBytes source.contents) s.context.cursor
  | .answer a => (∃ path, a = .fromArchive archive () path) ∨ ∃ result, a = .finish result

/-- An answer that parses a file from the archive has opened it there, and is over then. -/
theorem openFile_of_stored {s : Session} {role : Unit} {source : SourceFile}
    {k : Except Failure Unit → Answer Unit Unit}
    (h : (Task.answer (.parse role source k)).Stored archive s) :
    (∃ path, Archive.openFile archive path = .ok source) ∧ k = .finish := by
  rcases h with ⟨path, ha⟩ | ⟨result, ha⟩
  · rcases fromArchive_cases archive path with ⟨source', hopen, hparse⟩ | ⟨f, hfinish⟩
    · cases ha.trans hparse
      exact ⟨⟨path, hopen⟩, rfl⟩
    · cases ha.trans hfinish
  · cases ha

/-- An answer from the archive does nothing but parse a file. -/
theorem parsesOnly_of_stored {s : Session} {a : Answer Unit Unit}
    (h : (Task.answer a).Stored archive s) : a.ParsesOnly ∧ ∀ st, a.request? st = none := by
  rcases h with ⟨path, rfl⟩ | ⟨result, rfl⟩
  · refine ⟨Archive.parsesOnly_handlers archive () path, fun st => ?_⟩
    rcases fromArchive_cases archive path with ⟨source, -, h⟩ | ⟨f, h⟩
    · rw [h]
      rfl
    · rw [h]
      rfl
  · exact ⟨.finish result, fun st => rfl⟩

/-- **Wherever items are parsed** in a session over an archive, it stands in a file of the archive,
right behind what was read of it. -/
theorem Involves.stored {task part : Task Unit Unit} {st st' : Session × Unit} {level : Nat}
    (h : Involves (Archive.handlers archive) task st level part st')
    (htask : task.Stored archive st.1) : part.Stored archive st'.1 := by
  induction h with
  | self => exact htask
  | items _ hfailure ih =>
      obtain ⟨path, hopen⟩ := ih
      exact ⟨path, _, hopen, Session.standsAt_ofFile hfailure _⟩
  | item _ hread ih =>
      obtain ⟨path, source, hopen, hstands⟩ := ih
      exact ⟨path, source, hopen, hstands.item hread⟩
  | rest _ hread hitem ih =>
      obtain ⟨path, source, hopen, hstands⟩ := ih
      exact ⟨path, source, hopen, (hstands.item hread).1.rest hitem⟩
  | answer _ _ _ => exact .inl ⟨_, rfl⟩
  | file _ ih => exact (openFile_of_stored ih).1
  | parsed _ _ ih =>
      obtain ⟨-, rfl⟩ := openFile_of_stored ih
      exact .inr ⟨_, rfl⟩
  | scanned _ hscans _ ih | missed _ hscans _ ih =>
      exact ((parsesOnly_of_stored ih).1.not_scans hscans).elim
  | requested _ hrequest ih => cases ((parsesOnly_of_stored ih).2 _).symm.trans hrequest

/-! ## Two reports -/

/-- The session in which nothing has been read of the root file. -/
def Session.atRoot (o : Options) (root : SourceFile) : Session :=
  (Session.new o).visitRoot root.name

/-- **The reports on one file under two options**, of which the first refuse whatever the second do,
are those of two runs in lockstep. -/
theorem exists_compared (archive : α) (path : String) {o o' : Options} (hwithin : o.Within o')
    {root : SourceFile} (hroot : Archive.openFile archive path = .ok root) :
    ∃ history history' result result' s s',
      Runs (Archive.handlers archive) (.file () root) (.atRoot o root, ()) history result (s, ()) ∧
      Runs (Archive.handlers archive) (.file () root) (.atRoot o' root, ()) history' result'
        (s', ()) ∧
      parseArchive archive path o = Report.ofSession s ∧
      parseArchive archive path o' = Report.ofSession s' ∧
      Compared archive o' (.file () root) (.atRoot o root, ()) history history' result result' s
        s' := by
  obtain ⟨history, result, s, hrun, hreport⟩ := exists_runs_of_openFile archive path o hroot
  obtain ⟨history', result', s', hrun', hreport'⟩ := exists_runs_of_openFile archive path o' hroot
  refine ⟨history, history', result, result', s, s', hrun, hrun', hreport, hreport', ?_⟩
  exact hrun.compare hrun' ⟨hwithin, Nat.zero_le _, rfl⟩ ⟨[], rfl, fun _ => rfl⟩ trivial

/-- Two sessions that log alike and are the same but for their options have the same report. -/
theorem Session.Matches.report_eq {s s' : Session} {o : Options} (h : s.Matches o s')
    (hreport : o.reportDeclarations = s.options.reportDeclarations) :
    Report.ofSession s' = Report.ofSession s := by
  obtain ⟨warnings, rfl, hwarnings⟩ := h
  rw [hwarnings hreport]
  rfl

/-- **Either report is the same**, or the first session failed where the other one went on. -/
theorem parseArchive_eq_or_parts (archive : α) (path : String) {o o' : Options}
    (hwithin : o.Within o') (hlog : o'.reportDeclarations = o.reportDeclarations) :
    parseArchive archive path o = parseArchive archive path o' ∨
      ∃ root level part place f next, Archive.openFile archive path = .ok root ∧
        Involves (Archive.handlers archive) (.file () root) (.atRoot o root, ()) level part
          (place, ()) ∧ Parting o' part place f next ∧
        (parseArchive archive path o).failure = some f ∧
        (parseArchive archive path o).Begins (parseArchive archive path o') ∧
        ((parseArchive archive path o).warnings ++ next) <+:
          (parseArchive archive path o').warnings := by
  cases hroot : Archive.openFile archive path with
  | error error =>
      left
      unfold parseArchive
      rw [hroot]
  | ok root =>
      obtain ⟨history, history', result, result', s, s', hrun, -, hreport, hreport', hcompared⟩ :=
        exists_compared archive path hwithin hroot
      have hoptions : s.options = o := hrun.depth_options_eq.2
      rw [hreport, hreport']
      rcases hcompared with ⟨-, hmatches, -⟩ | ⟨hplace, hparting, -, hbehind⟩
      · rw [← hoptions] at hlog
        exact .inl (hmatches.report_eq hlog).symm
      · rw [← hoptions] at hlog
        have hwarnings := hbehind.warnings hlog
        refine .inr ⟨root, _, _, _, _, _, rfl, hplace, hparting, hbehind.failure, ?_, hwarnings⟩
        exact ⟨hbehind.declarations, hbehind.paths, (List.prefix_append _ _).trans hwarnings⟩

/-! ## Strict headers -/

/-- **Does the strict report end in a header** in which the other one goes on? In a file of the
archive stands the header of a type with a stray token behind the mark for native types. The strict
session stops there, so it has not warned of the token, as the other one does next. -/
def StopsInHeader (archive : α) (o : Options) (path : String) (strict lenient : Report) : Prop :=
  ∃ root level s cursor file source stray, Archive.openFile archive path = .ok root ∧
    Involves (Archive.handlers archive) (.file () root) (.atRoot o root, ()) level
      (.items () cursor) (s, ()) ∧
    Archive.openFile archive file = .ok source ∧ s.StandsAt source cursor ∧
    StrayAfterNative (unskipped cursor.tokens) stray ∧
    strict.failure = some {
      cause := .invalidHeader stray.subject (.afterNative stray.token.describe)
      span := stray.token.span
      source := some source.name } ∧
    strict.Begins lenient ∧ (strict.warnings ++ [stray.warning source.name]) <+: lenient.warnings

/-- **Strict headers only refuse**: the reports on a file of an archive are the same, or the strict
one ends in a header in which the other one goes on. -/
theorem parseArchive_strict_eq_or_stops (archive : α) (path : String) (o : Options) :
    parseArchive archive path { o with strictHeader := true } =
        parseArchive archive path { o with strictHeader := false } ∨
      StopsInHeader archive { o with strictHeader := true } path
        (parseArchive archive path { o with strictHeader := true })
        (parseArchive archive path { o with strictHeader := false }) := by
  have hwithin : Options.Within { o with strictHeader := true } { o with strictHeader := false } :=
    ⟨fun _ => rfl, Nat.le_refl _⟩
  rcases parseArchive_eq_or_parts archive path hwithin rfl with
    hsame | ⟨root, level, part, place, f, next, hroot, hplace, hparting, hfailure, hbegins,
      hwarnings⟩
  · exact .inl hsame
  · cases hparting with
    | depth _ hlimit _ =>
        -- the limit is the same
        rw [hplace.depth_options_eq.2] at hlimit
        exact absurd hlimit (Nat.lt_irrefl _)
    | header _ _ _ hstray =>
        obtain ⟨file, source, hopen, hstands⟩ := hplace.stored ⟨path, hroot⟩
        have hname : place.context.name = source.name := hstands.standsIn.name
        rw [hname] at hfailure hwarnings
        exact .inr ⟨root, level, place, _, file, source, _, hroot, hplace, hopen, hstands, hstray,
          hfailure, hbegins, hwarnings⟩

/-- A header that is read with a warning, and refused if it is read strictly. -/
example :
    let archive := (MemoryArchive.mk "project" [] (by simp)).insert "main.zs"
      "class A native Other \x7b \x7d".toUTF8.toList
    let lenient := parseArchive archive "main.zs" { reportDeclarations := false }
    let strict := parseArchive archive "main.zs"
      { strictHeader := true, reportDeclarations := false }
    lenient.warnings = ["main.zs:1:16: unexpected identifier \"Other\" in class A header"] ∧
      lenient.failure = none ∧ strict.warnings = [] ∧ strict.failure.isSome = true := by
  decide +kernel

/-! ## Limits on nested includes -/

/-- **Does the report end at the limit `d`** for nested includes, where the other one goes on? An
include directive of a file of the archive is nested in `d` includes. -/
def StopsAtDepth (archive : α) (o : Options) (path : String) (d : Nat) (report other : Report) :
    Prop :=
  ∃ root s file source t, Archive.openFile archive path = .ok root ∧
    Involves (Archive.handlers archive) (.file () root) (.atRoot o root, ()) d
      (.item () (.inclusion t)) (s, ()) ∧
    Archive.openFile archive file = .ok source ∧ s.StandsAt source s.context.cursor ∧
    (Cursor.ofBytes source.contents).LastRead t s.context.cursor ∧
    report.failure = some {
      cause := .tooDeep t.unquoted d
      span := t.span
      source := some source.name } ∧
    report.Begins other

/-- **A limit on nested includes only refuses**: under a higher one, the report on a file of an
archive is the same, or it ended at the lower one. -/
theorem parseArchive_depth_eq_or_stops (archive : α) (path : String) (o : Options) {d d' : Nat}
    (hd : d ≤ d') :
    parseArchive archive path { o with maxIncludeDepth := d } =
        parseArchive archive path { o with maxIncludeDepth := d' } ∨
      StopsAtDepth archive { o with maxIncludeDepth := d } path d
        (parseArchive archive path { o with maxIncludeDepth := d })
        (parseArchive archive path { o with maxIncludeDepth := d' }) := by
  have hwithin : Options.Within { o with maxIncludeDepth := d } { o with maxIncludeDepth := d' } :=
    ⟨id, hd⟩
  rcases parseArchive_eq_or_parts archive path hwithin rfl with
    hsame | ⟨root, level, part, place, f, next, hroot, hplace, hparting, hfailure, hbegins,
      hwarnings⟩
  · exact .inl hsame
  · obtain ⟨hlevel, hoptions⟩ := hplace.depth_options_eq
    cases hparting with
    | header hstrict hother _ _ =>
        -- headers are read the same
        rw [hoptions] at hstrict
        cases hstrict.symm.trans hother
    | @depth t _ hdepth _ _ =>
        have hlimit : place.options.maxIncludeDepth = d := congrArg Options.maxIncludeDepth hoptions
        have hnested : level = d := by
          rw [← hlimit, ← hdepth, hlevel]
          exact (Nat.zero_add _).symm
        subst hnested
        obtain ⟨file, source, hopen, hstands, hpath⟩ := hplace.stored ⟨path, hroot⟩
        have hname : place.context.name = source.name := hstands.standsIn.name
        rw [hname, hlimit] at hfailure
        exact .inr ⟨root, place, file, source, t, hroot, hplace, hopen, hstands, hpath t rfl,
          hfailure, hbegins⟩

/-- An included file that includes another one, under a limit of one include. -/
theorem parseArchive_stops_at_depth_of_nested_files :
    let archive := (((MemoryArchive.mk "project" [] (by simp)).insert "main.zs"
      "class A \x7b \x7d #include \"b.zs\"".toUTF8.toList).insert "b.zs"
        "enum B \x7b \x7d #include \"c.zs\"".toUTF8.toList).insert "c.zs"
          "enum C \x7b \x7d".toUTF8.toList
    1 ≤ 2 ∧ (parseArchive archive "main.zs" { maxIncludeDepth := 2 }).failure = none ∧
      StopsAtDepth archive { maxIncludeDepth := 1 } "main.zs" 1
        (parseArchive archive "main.zs" { maxIncludeDepth := 1 })
        (parseArchive archive "main.zs" { maxIncludeDepth := 2 }) := by
  intro archive
  have hdeep : (parseArchive archive "main.zs" { maxIncludeDepth := 2 }).failure = none := by
    decide +kernel
  have hshallow : (parseArchive archive "main.zs" { maxIncludeDepth := 1 }).failure ≠ none := by
    decide +kernel
  have hle : 1 ≤ 2 := by decide
  rcases parseArchive_depth_eq_or_stops archive "main.zs" {} hle with hsame | hstops
  · exact absurd ((congrArg Report.failure hsame).trans hdeep) hshallow
  · exact ⟨hle, hdeep, hstops⟩

end ZDecl
