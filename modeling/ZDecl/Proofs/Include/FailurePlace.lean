import ZDecl.Proofs.Include.Expansion
import ZDecl.Proofs.Session.Parts
import ZDecl.Proofs.Token.Tiling

/-!
# The place of a failure

A failure is reported by a reader in the middle of some file, by an include directive that is
rejected, or for an answer that has no file to parse, and then on behalf of the directive. In each
case the name of the file and the span are put together from different places: the session knows the
file, the tokens know their spans. Over an archive they belong together.

* `Failure.PlacedIn`: a failure with the name of a stored file and a span of its stream, and a
  session that stands in that file.
* `Task.FailsInPlace`: what that means for the parts of a session.
* **`Runs.failsInPlace`**: every part of a session over an archive fails in its place.
* **`parseArchive_failure_placed`**: so does the whole session.

A failure that is known never changes, so it is enough to look at the end of a part. Only the answer
that finds no file ends with a failure that nobody has reported, and which has no place yet.
-/

namespace ZDecl

variable {archive : MemoryArchive}

/-! ## Places -/

/-- Does the failure name a file of the archive and a place of it, and does the session with the
context `c` stand in that file? -/
def Failure.PlacedIn (archive : MemoryArchive) (f : Failure) (c : Context) : Prop :=
  ∃ entry ∈ archive.files, f.source = some entry.path ∧
    (Cursor.ofBytes entry.contents).Locates f.span ∧ c.StandsIn (archive.source entry)

/-- A failure without a file gets the one that it is given. -/
theorem Failure.source_inSource {f : Failure} (hf : f.source = none) (name : String) :
    (f.inSource name).source = some name := by
  unfold inSource
  rw [hf, Option.none_or]

/-- A failure without a place gets the one that it is given. -/
theorem Failure.span_placedAt {f : Failure} (hf : f.span = Span.unknown) (span : Span) :
    (f.placedAt span).span = span := by
  unfold placedAt
  exact if_pos hf

/-- Is the failure that is known in the session, if there is one, a failure in its place? -/
def Session.FailsInPlace (archive : MemoryArchive) (s : Session) : Prop :=
  ∀ f, s.diagnostics.failure = some f → f.PlacedIn archive s.context

/-- Nothing is to be shown of a session without a failure. -/
theorem Session.failsInPlace_of_failure_eq_none {s : Session} (hs : s.diagnostics.failure = none) :
    s.FailsInPlace archive := by
  intro f hf
  cases hs.symm.trans hf

/-- The failure that is reported in a session without one is in its place if the session stands in a
file of the archive, from which the failure has its name and its span. -/
theorem Session.failsInPlace_report {s : Session} {entry : StoredFile} {f : Failure}
    (hs : s.diagnostics.failure = none) (hentry : entry ∈ archive.files)
    (hstands : s.context.StandsIn (archive.source entry)) (hsource : f.source = some entry.path)
    (hspan : (Cursor.ofBytes entry.contents).Locates f.span) :
    (s.report f).FailsInPlace archive := by
  intro known hknown
  rw [failure_report, hs, Option.getD_none] at hknown
  cases hknown
  exact ⟨entry, hentry, hsource, hspan, hstands⟩

/-- What is said of a part of a session over an archive: it fails in its place. An answer that fails
without a report has changed nothing, and its failure has no place. -/
def Task.FailsInPlace (archive : MemoryArchive) :
    Task Unit Unit → Session → Except Failure Unit → Session → Prop
  | .file _ source, s, _, s' => s.diagnostics.failure = none →
      ∀ entry ∈ archive.files, source = archive.source entry → s'.FailsInPlace archive
  | .items _ cursor, s, _, s' => ∀ entry ∈ archive.files,
      s.StandsAt (archive.source entry) cursor → s'.FailsInPlace archive
  | .item _ i, s, _, s' => ∀ entry ∈ archive.files,
      s.StandsAt (archive.source entry) s.context.cursor →
        i.EndsAtPath (Cursor.ofBytes entry.contents) s.context.cursor → s'.FailsInPlace archive
  | .answer a, s, result, s' => s.diagnostics.failure = none →
      ∀ path, a = .fromArchive archive () path → s'.FailsInPlace archive ∧
        ∀ f, result = .error f → s'.diagnostics.failure = none →
          f.source = none ∧ f.span = Span.unknown ∧ s'.context = s.context

/-- An answer from an archive that fails at once has no file to parse. -/
theorem eq_of_finish_eq_fromArchive {path : String} {f : Failure}
    (ha : .finish (.error f) = Answer.fromArchive (ρ := Unit) (μ := Unit) archive () path) :
    f = { cause := .cannotInclude path (.notFound path), span := Span.unknown } := by
  cases h : archive.find? path with
  | some entry =>
      rw [fromArchive_of_find? h] at ha
      cases ha
  | none =>
      rw [fromArchive_of_find?_eq_none h] at ha
      cases ha
      rfl

/-- **Every part of a session over an archive fails in its place.** -/
theorem Runs.failsInPlace {task : Task Unit Unit} {st st' : Session × Unit}
    {history : List Moment} {result : Except Failure Unit}
    (h : Runs archive.handlers task st history result st') :
    task.FailsInPlace archive st.1 result st'.1 := by
  induction h with
  | known hfailure =>
      intro hs
      cases hs.symm.trans hfailure
  | opened _ _ ih =>
      rintro hs entry hentry rfl
      exact ih entry hentry (Session.standsAt_ofFile hs _)
  | finished _ =>
      intro entry _ hstands
      exact Session.failsInPlace_of_failure_eq_none hstands.failure
  | stopped hread =>
      intro entry hentry hstands
      obtain ⟨hstandsIn, hsource, hspan⟩ := hstands.next? hread
      refine Session.failsInPlace_report hstands.failure hentry hstandsIn ?_ hspan
      rw [Failure.source_inSource hsource, hstands.standsIn.name]
      rfl
  | more hread hitem _ _ ihrest =>
      intro entry hentry hstands
      exact ihrest entry hentry ((hstands.item hread).1.rest hitem)
  | broken hread _ ih =>
      intro entry hentry hstands
      obtain ⟨hbehind, hpath⟩ := hstands.item hread
      exact ih entry hentry hbehind hpath
  | performed hitem =>
      intro entry _ hstands _
      exact Session.failsInPlace_of_failure_eq_none
        ((Session.failure_of_plain? hitem).trans hstands.failure)
  | @rejected _ t s _ cause f _ hf =>
      intro entry hentry hstands hpath
      refine Session.failsInPlace_report hstands.failure hentry hstands.standsIn ?_ ?_
      · rw [hf, Failure.source_inSource rfl, hstands.standsIn.name]
        rfl
      · rw [hf]
        exact .inl ⟨t, (hpath t rfl).mem, rfl⟩
  | included _ _ hfailure _ =>
      intro entry _ _ _
      exact Session.failsInPlace_of_failure_eq_none hfailure
  | spoiled _ _ _ ih =>
      intro entry _ hstands _
      exact (ih hstands.failure _ rfl).1
  | @refused _ t s s' _ _ _ f placed _ _ hplaced ih =>
      intro entry hentry hstands hpath
      obtain ⟨hinside, hunplaced⟩ := ih hstands.failure _ rfl
      cases hfailure : s'.diagnostics.failure with
      | some first =>
          have hreport : s'.leave.report placed = s'.leave :=
            report_eq_of_failure (s := s'.leave) hfailure placed
          rw [hreport]
          exact hinside
      | none =>
          obtain ⟨hsource, hspan, hcontext⟩ := hunplaced f rfl hfailure
          have hstandsIn : s'.leave.context.StandsIn (archive.source entry) := by
            show s'.context.StandsIn (archive.source entry)
            rw [hcontext]
            exact hstands.standsIn
          refine Session.failsInPlace_report hfailure hentry hstandsIn ?_ ?_
          · have hfile : (f.placedAt t.span).source = none := hsource
            rw [hplaced, Failure.source_inSource hfile, hstands.standsIn.name]
            rfl
          · have hplacedAt : placed.span = t.span := by
              rw [hplaced]
              exact Failure.span_placedAt hspan t.span
            rw [hplacedAt]
            exact .inl ⟨t, (hpath t rfl).mem, rfl⟩
  | @ended result s _ =>
      intro hs path ha
      refine ⟨Session.failsInPlace_of_failure_eq_none hs, ?_⟩
      rintro f rfl _
      rw [eq_of_finish_eq_fromArchive ha]
      exact ⟨rfl, rfl, rfl⟩
  | parsed hfile hrest ihfile _ =>
      intro hs path ha
      obtain ⟨entry, hentry, rfl, rfl⟩ := parse_eq_fromArchive ha
      obtain ⟨-, rfl, rfl⟩ := hrest.of_finish
      refine ⟨ihfile hs entry (List.mem_of_find?_eq_some hentry) rfl, ?_⟩
      rintro f rfl hnone
      -- A file that fails has reported its failure.
      have hsettled := hfile.settled (fun _ => parsesOnly_fromArchive archive) hs trivial
      cases hsettled with
      | failed hfirst => cases hnone.symm.trans hfirst.failure
  | scanned hscans _ _ _ =>
      intro _ path ha
      rw [ha] at hscans
      exact (not_scans_fromArchive hscans).elim
  | missed hscans _ _ _ _ =>
      intro _ path ha
      rw [ha] at hscans
      exact (not_scans_fromArchive hscans).elim
  | requested hrequest _ _ =>
      intro _ path ha
      rw [ha, request?_fromArchive] at hrequest
      cases hrequest

/-! ## Sessions over an archive -/

/-- The session over an archive in which a root file is parsed, at its end. -/
def MemoryArchive.finalSession (archive : MemoryArchive) (root : StoredFile) (options : Options) :
    Session :=
  sessionAfter (Parse.archiveRoot archive.handlers () (archive.source root)
    (Session.new options, ()))

/-- The report on the root file of an archive is that on the session at its end. -/
theorem parseArchive_eq_ofSession {path : String} {root : StoredFile}
    (hroot : archive.find? path = some root) (options : Options) :
    parseArchive archive path options = Report.ofSession (archive.finalSession root options) := by
  unfold parseArchive
  rw [MemoryArchive.openFile_of_find? hroot]
  rfl

/-- The root file of an archive fails in its place. -/
theorem failsInPlace_finalSession {root : StoredFile} (hroot : root ∈ archive.files)
    (options : Options) : (archive.finalSession root options).FailsInPlace archive := by
  obtain ⟨history, hrun⟩ := exists_runs archive.handlers () (archive.source root)
    (Session.rooted options root, ())
  have hplace := hrun.failsInPlace rfl root hroot rfl
  rw [← outcome_start] at hplace
  have hfinal : archive.finalSession root options = (outcome (Parse.start archive.handlers ()
      (archive.source root) (Session.rooted options root, ()))).2.1 := by
    show sessionAfter (Parse.start archive.handlers () (archive.source root)
      (Session.rooted options root, ())) = _
    cases Parse.start archive.handlers () (archive.source root)
        (Session.rooted options root, ()) with
    | ok u st => rfl
    | error f st => rfl
  rw [hfinal]
  exact hplace

/-- **A failure over an archive names its place**: a file of the archive, and there a token or the
end of the file, where another token was expected. It is the file in which the session stands at its
end. -/
theorem parseArchive_failure_placed (archive : MemoryArchive) (path : String) (options : Options)
    {root : StoredFile} (hroot : archive.find? path = some root) {f : Failure}
    (hf : (parseArchive archive path options).failure = some f) :
    ∃ entry ∈ archive.files, f.source = some entry.path ∧
      ((∃ t ∈ (Cursor.ofBytes entry.contents).tokens, f.span = t.span) ∨
        ∃ place, f.span = Span.point place ∧ place = (Cursor.ofBytes entry.contents).stop ∧
          place.offset = entry.contents.length) ∧
      (archive.finalSession root options).context.StandsIn (archive.source entry) := by
  rw [parseArchive_eq_ofSession hroot] at hf
  obtain ⟨entry, hentry, hsource, hspan, hstands⟩ :=
    failsInPlace_finalSession (List.mem_of_find?_eq_some hroot) options f hf
  refine ⟨entry, hentry, hsource, ?_, hstands⟩
  rcases hspan with htoken | hstop
  · exact .inl htoken
  · exact .inr ⟨_, hstop, rfl, offset_stop_ofBytes entry.contents⟩

/-- A block that is not closed in an included file. -/
theorem parseArchive_failure_placed_in_included_file :
    let archive := ((MemoryArchive.mk "project" [] (by simp)).insert "Main.zs"
      "class A \x7b \x7d #include \"b.zs\"".toUTF8.toList).insert "B.zs"
        "enum C \x7b x".toUTF8.toList
    let root : StoredFile := ⟨"Main.zs", "class A \x7b \x7d #include \"b.zs\"".toUTF8.toList⟩
    archive.find? "main.zs" = some root ∧ ∃ f, (parseArchive archive "main.zs").failure = some f ∧
      f.source = some "B.zs" ∧ f.span = Span.point ⟨10, 1, 11⟩ ∧ ∃ entry ∈ archive.files,
        f.source = some entry.path ∧
          (archive.finalSession root {}).context.StandsIn (archive.source entry) := by
  intro archive root
  have hroot : archive.find? "main.zs" = some root := by decide +kernel
  have hf : ∃ f, (parseArchive archive "main.zs").failure = some f ∧ f.source = some "B.zs" ∧
      f.span = Span.point ⟨10, 1, 11⟩ := by
    refine ⟨{ cause := .endOfStream, span := Span.point ⟨10, 1, 11⟩, source := some "B.zs" }, ?_⟩
    decide +kernel
  obtain ⟨f, hf, hsource, hspan⟩ := hf
  obtain ⟨entry, hentry, hnamed, -, hstands⟩ :=
    parseArchive_failure_placed archive "main.zs" {} hroot hf
  exact ⟨hroot, f, hf, hsource, hspan, entry, hentry, hnamed, hstands⟩

end ZDecl
