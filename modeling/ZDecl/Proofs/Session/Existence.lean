import ZDecl.Proofs.Session.Run

/-!
# Whatever is parsed has a run

The parser and its runs say the same. In particular parsing comes to an end whatever the answers
are: the derivation of a run is a finite tree.

* `outcome`: what comes of a computation and the state that it ends in.
* `Answer.perform_of_scans`, `Answer.perform_of_request?`: the first thing that an answer does.
* `Parse.hasRun_answer`, `Parse.hasRun_inclusion`, `Parse.hasRun_items`, `Parse.hasRun_fileAt`: the
  parts of a session, each from those it is made of.
* **`exists_runs`**: a file that is parsed has a run, whose result and final state are those of the
  parser.

The fuel of the parser is how many more includes may be nested. A run needs no fuel since the
session itself knows how deep it is nested: the two agree because every part leaves the nesting as
it was.
-/

namespace ZDecl

variable {ρ μ : Type}

/-! ## Outcomes -/

/-- What comes of a computation, and the state that it ends in. -/
def outcome {σ : Type} : EStateM.Result Failure σ Unit → Except Failure Unit × σ
  | .ok _ st => (.ok (), st)
  | .error f st => (.error f, st)

/-- Is there a run of the part with this outcome? -/
def HasRun (handlers : Handlers ρ μ) (task : Task ρ μ) (st : Session × μ)
    (r : EStateM.Result Failure (Session × μ) Unit) : Prop :=
  ∃ history, Runs handlers task st history (outcome r).1 (outcome r).2

/-! ## Levels -/

/-- How many more includes may be nested. -/
def Session.levels (s : Session) : Nat := s.options.maxIncludeDepth - s.depth

/-- A part leaves alone how many more includes may be nested. -/
theorem Runs.levels_eq {handlers : Handlers ρ μ} {task : Task ρ μ} {st st' : Session × μ}
    {history : List Moment} {result : Except Failure Unit}
    (h : Runs handlers task st history result st') : st'.1.levels = st.1.levels := by
  obtain ⟨hdepth, hoptions⟩ := h.depth_options_eq
  rw [Session.levels, hdepth, hoptions, Session.levels]

/-! ## The first thing that an answer does -/

namespace Answer

variable (parseFile : ρ → SourceFile → Parse μ Unit)

/-- An answer that reads first does so and goes on. -/
theorem perform_of_scans {β : Type} {a : Answer ρ μ} {s : Session} {p : Scan β}
    {k : Except Failure β → Answer ρ μ} (h : a.Scans s p k) (m : μ) :
    a.perform parseFile (s, m) =
      match p ⟨s.context.cursor, []⟩ with
      | .ok b r => (k (.ok b)).perform parseFile (s.advance r, m)
      | .error f r =>
        let named := f.inSource s.context.name
        (k (.error named)).perform parseFile ((s.advance r).report named, m) := by
  have hscan : ∀ q : EStateM Failure Session β, q s = Session.scan p s →
      ((Parse.inSession q).attempt >>= fun r => (k r).perform parseFile) (s, m) =
        match p ⟨s.context.cursor, []⟩ with
        | .ok b r => (k (.ok b)).perform parseFile (s.advance r, m)
        | .error f r =>
          let named := f.inSource s.context.name
          (k (.error named)).perform parseFile ((s.advance r).report named, m) := by
    intro q hq
    show EStateM.bind _ _ _ = _
    simp only [EStateM.bind, Parse.attempt, Parse.inSession, hq, Session.scan]
    cases p ⟨s.context.cursor, []⟩ with
    | ok b r => rfl
    | error f r => rfl
  cases h with
  | expression => exact hscan _ rfl
  | block => exact hscan _ rfl
  | header => exact hscan _ rfl

/-- An answer that asks for something else first does so and goes on. -/
theorem perform_of_request? {a a' : Answer ρ μ} {s s' : Session} {m m' : μ}
    (h : a.request? (s, m) = some (a', s', m')) :
    a.perform parseFile (s, m) = a'.perform parseFile (s', m') := by
  cases a with
  | inspect k | resume context k | takeDeclarations k | memory k | remember m₀ k =>
      cases h
      rfl
  | _ => cases h

end Answer

/-! ## Every part has a run -/

/-- The first failure of a session in which `f` is reported, if it is `f` that is to be given where
none is known. -/
theorem Session.getD_failure_report (s : Session) (f : Failure) :
    (s.report f).diagnostics.failure.getD f = s.diagnostics.failure.getD f := by
  rw [failure_report, Option.getD_some]

namespace Parse

variable {handlers : Handlers ρ μ}

/-- How include directives are performed where `levels` more includes may be nested. -/
def includes (handlers : Handlers ρ μ) (role : ρ) : Nat → Token → Parse μ Unit
  | 0 => inclusion none
  | levels + 1 => inclusion <| some fun path =>
      (handlers role path).perform (fileAt handlers levels)

/-- Where `levels` more includes may be nested, a file is parsed with the include directives that
this allows. -/
theorem fileAt_eq (levels : Nat) (role : ρ) :
    fileAt handlers levels role = fileWith (includes handlers role levels) := by
  cases levels with
  | zero => rfl
  | succ levels => rfl

/-- An answer has a run if the files that it parses have. -/
theorem hasRun_answer {levels : Nat}
    (hfile : ∀ (role : ρ) (source : SourceFile) (s : Session) (m : μ), s.levels = levels →
      HasRun handlers (.file role source) (s, m) (fileAt handlers levels role source (s, m)))
    (a : Answer ρ μ) (s : Session) (m : μ) (hs : s.levels = levels) :
    HasRun handlers (.answer a) (s, m) (a.perform (fileAt handlers levels) (s, m)) := by
  have hscans : ∀ {β : Type} {a : Answer ρ μ} {s : Session} {p : Scan β}
      {k : Except Failure β → Answer ρ μ} (m : μ), a.Scans s p k → s.levels = levels →
      (∀ r s m, s.levels = levels →
        HasRun handlers (.answer (k r)) (s, m) ((k r).perform (fileAt handlers levels) (s, m))) →
      HasRun handlers (.answer a) (s, m) (a.perform (fileAt handlers levels) (s, m)) := by
    intro β a s p k m h hs ih
    rw [Answer.perform_of_scans _ h]
    cases hread : p ⟨s.context.cursor, []⟩ with
    | ok b r =>
        obtain ⟨history, hrun⟩ := ih (.ok b) (s.advance r) m hs
        exact ⟨_, .scanned h hread hrun⟩
    | error f r =>
        obtain ⟨history, hrun⟩ := ih (.error (f.inSource s.context.name))
          ((s.advance r).report (f.inSource s.context.name)) m hs
        exact ⟨_, .missed h hread rfl hrun⟩
  have hrequests : ∀ {a a' : Answer ρ μ} {s s' : Session} {m m' : μ},
      a.request? (s, m) = some (a', s', m') →
      HasRun handlers (.answer a') (s', m') (a'.perform (fileAt handlers levels) (s', m')) →
      HasRun handlers (.answer a) (s, m) (a.perform (fileAt handlers levels) (s, m)) := by
    intro a a' s s' m m' h hrun
    rw [Answer.perform_of_request? _ h]
    obtain ⟨history, hrun⟩ := hrun
    exact ⟨_, .requested h hrun⟩
  induction a generalizing s m with
  | finish result =>
      cases result with
      | ok u => exact ⟨_, .ended⟩
      | error f => exact ⟨_, .ended⟩
  | parse role source k ih =>
      obtain ⟨history, hrun⟩ := hfile role source s m hs
      have hlevels := hrun.levels_eq.trans hs
      show HasRun handlers _ _ (EStateM.bind _ _ _)
      simp only [EStateM.bind, attempt]
      cases hread : fileAt handlers levels role source (s, m) with
      | ok u st =>
          rw [hread] at hrun hlevels
          obtain ⟨later, hrest⟩ := ih (.ok u) st.1 st.2 hlevels
          exact ⟨_, .parsed hrun hrest⟩
      | error f st =>
          rw [hread] at hrun hlevels
          obtain ⟨later, hrest⟩ := ih (.error f) st.1 st.2 hlevels
          exact ⟨_, .parsed hrun hrest⟩
  | expression k ih => exact hscans m .expression hs ih
  | block single k ih => exact hscans m .block hs ih
  | header kind k ih => exact hscans m .header hs ih
  | inspect k ih => exact hrequests rfl (ih s s m hs)
  | resume context k ih => exact hrequests rfl (ih (s.resume context) m hs)
  | takeDeclarations k ih => exact hrequests rfl (ih _ _ m hs)
  | memory k ih => exact hrequests rfl (ih m s m hs)
  | remember m' k ih => exact hrequests rfl (ih s m' hs)

/-- Performing an include directive where `levels` more may be nested has a run if the answers have
where one less may be. -/
theorem hasRun_inclusion {levels : Nat}
    (hanswer : ∀ n, levels = n + 1 → ∀ (a : Answer ρ μ) (s : Session) (m : μ), s.levels = n →
      HasRun handlers (.answer a) (s, m) (a.perform (fileAt handlers n) (s, m)))
    (role : ρ) (t : Token) (s : Session) (m : μ) (hs : s.levels = levels) :
    HasRun handlers (.item role (.inclusion t)) (s, m)
      (includes handlers role levels t (s, m)) := by
  cases levels with
  | zero =>
      have hdepth : ¬ s.depth < s.options.maxIncludeDepth := by
        unfold Session.levels at hs
        omega
      cases hobjection : s.objection? t.unquoted with
      | some cause =>
          simp only [includes, inclusion, hobjection]
          exact ⟨_, .rejected (by simp [Session.rejection?, hobjection]) rfl⟩
      | none =>
          simp only [includes, inclusion, hobjection]
          exact ⟨_, .rejected (by simp [Session.rejection?, hobjection, hdepth]) rfl⟩
  | succ n =>
      have hdepth : s.depth < s.options.maxIncludeDepth := by
        unfold Session.levels at hs
        omega
      cases hobjection : s.objection? t.unquoted with
      | some cause =>
          simp only [includes, inclusion, hobjection]
          exact ⟨_, .rejected (by simp [Session.rejection?, hobjection]) rfl⟩
      | none =>
          have hcause : s.rejection? t.unquoted = none := by
            simp [Session.rejection?, hobjection, hdepth]
          have hlevels : (s.enter t.unquoted).levels = n := by
            show s.options.maxIncludeDepth - (s.depth + 1) = n
            unfold Session.levels at hs
            omega
          obtain ⟨history, hrun⟩ := hanswer n rfl (handlers role t.unquoted) _ m hlevels
          simp only [includes, inclusion, hobjection]
          cases hresult : (handlers role t.unquoted).perform (fileAt handlers n)
              (s.enter t.unquoted, m) with
          | error f st =>
              rw [hresult] at hrun
              simp only [Session.getD_failure_report]
              exact ⟨_, .refused hcause hrun rfl⟩
          | ok u st =>
              rw [hresult] at hrun
              cases hfailure : st.1.diagnostics.failure with
              | some f =>
                  simp only [hfailure]
                  exact ⟨_, .spoiled hcause hrun hfailure⟩
              | none =>
                  simp only [hfailure]
                  exact ⟨_, .included hcause hrun hfailure⟩

/-- Items have a run if include directives have. -/
theorem hasRun_items {levels : Nat} {role : ρ}
    (hinclusion : ∀ (t : Token) (s : Session) (m : μ), s.levels = levels →
      HasRun handlers (.item role (.inclusion t)) (s, m) (includes handlers role levels t (s, m)))
    (cursor : Cursor) (s : Session) (m : μ) (hs : s.levels = levels) :
    HasRun handlers (.items role cursor) (s, m)
      (items (includes handlers role levels) cursor (s, m)) := by
  have hitem : ∀ (item : Item) (s : Session) (m : μ), s.levels = levels →
      HasRun handlers (.item role item) (s, m)
        (perform (includes handlers role levels) item (s, m)) := by
    intro item s m hs
    cases item with
    | inclusion t => exact hinclusion t s m hs
    | word t => exact ⟨_, .performed rfl⟩
    | version v => exact ⟨_, .performed rfl⟩
    | declaration d => exact ⟨_, .performed rfl⟩
  induction hn : cursor.tokens.length using Nat.strongRecOn generalizing cursor s m with
  | ind n ih =>
      cases hread : Item.next? s.options.strictHeader s.context.name ⟨cursor, []⟩ with
      | error f r =>
          rw [items_of_error hread]
          exact ⟨_, .stopped hread⟩
      | ok item? r =>
          cases item? with
          | none =>
              rw [items_of_none hread]
              exact ⟨_, .finished hread⟩
          | some item =>
              rw [items_of_some hread]
              show HasRun handlers _ _ (EStateM.bind _ _ _)
              obtain ⟨history, hrun⟩ := hitem item (s.advance r) m hs
              have hlevels := hrun.levels_eq.trans hs
              unfold EStateM.bind
              cases hresult : perform (includes handlers role levels) item (s.advance r, m) with
              | error f st =>
                  rw [hresult] at hrun
                  exact ⟨_, .broken hread hrun⟩
              | ok u st =>
                  rw [hresult] at hrun hlevels
                  have hlength : r.cursor.tokens.length < n := hn ▸ Item.length_lt_of_next? hread
                  obtain ⟨later, hrest⟩ := ih _ hlength r.cursor st.1 st.2 hlevels rfl
                  exact ⟨_, .more hread hrun hrest⟩

/-- A file has a run if the answers to its includes have. -/
theorem hasRun_fileAt_of_answers {levels : Nat}
    (hanswer : ∀ n, levels = n + 1 → ∀ (a : Answer ρ μ) (s : Session) (m : μ), s.levels = n →
      HasRun handlers (.answer a) (s, m) (a.perform (fileAt handlers n) (s, m)))
    (role : ρ) (source : SourceFile) (s : Session) (m : μ) (hs : s.levels = levels) :
    HasRun handlers (.file role source) (s, m) (fileAt handlers levels role source (s, m)) := by
  rw [fileAt_eq]
  unfold fileWith
  dsimp only
  cases hfailure : s.diagnostics.failure with
  | some f => exact ⟨_, .known hfailure⟩
  | none =>
      obtain ⟨history, hrun⟩ := hasRun_items (fun t => hasRun_inclusion hanswer role t)
        (Cursor.ofBytes source.contents) (s.resume (Context.ofFile source)) m hs
      exact ⟨_, .opened hfailure hrun⟩

/-- A file has a run where as many more includes may be nested as the session says. -/
theorem hasRun_fileAt (levels : Nat) (role : ρ) (source : SourceFile) (s : Session) (m : μ)
    (hs : s.levels = levels) :
    HasRun handlers (.file role source) (s, m) (fileAt handlers levels role source (s, m)) := by
  induction levels generalizing role source s m with
  | zero => exact hasRun_fileAt_of_answers (fun n hn => absurd hn (by omega)) role source s m hs
  | succ levels ih =>
      refine hasRun_fileAt_of_answers (fun n hn => ?_) role source s m hs
      obtain rfl : levels = n := by omega
      exact hasRun_answer ih

end Parse

/-- **Whatever file is parsed in a session has a run**, whose result and final state are those of
the parser. -/
theorem exists_runs (handlers : Handlers ρ μ) (role : ρ) (source : SourceFile)
    (st : Session × μ) : ∃ history,
    Runs handlers (.file role source) st history (outcome (Parse.file handlers role source st)).1
      (outcome (Parse.file handlers role source st)).2 :=
  Parse.hasRun_fileAt _ role source st.1 st.2 rfl

/-- A session ends in the state in which its root file does. -/
theorem outcome_start (handlers : Handlers ρ μ) (role : ρ) (source : SourceFile)
    (st : Session × μ) :
    (outcome (Parse.start handlers role source st)).2 =
      (outcome (Parse.file handlers role source st)).2 := by
  unfold Parse.start
  cases Parse.file handlers role source st with
  | error f st' => rfl
  | ok u st' =>
      dsimp only
      split <;> rfl

end ZDecl
