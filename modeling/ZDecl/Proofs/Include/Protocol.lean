import ZDecl.Proofs.Session.Existence
import ZDecl.Proofs.Session.Parts
import ZDecl.Proofs.Session.Steps

/-!
# The include protocol

Whoever answers an include directive has the session at hand: an answer may parse any files, in
which further includes are answered, read on anywhere, take up any file at any place, and end with
success or a failure of its own making. This file says what holds all the same.

* `Visited.Orderly`: the included paths are valid, and no two of them, nor one of them and the root,
  have the same key.
* **`Chain.orderly`**: that is so at any time, and included paths are only ever added at the end.
* `Session.Calls`: the conditions in which an answer is asked for.
* `Settles`, `Concludes`: what comes of an include directive, answered or not.
* `Guarded`: the protocol, for all parts of a run and all moments of its history.
* **`includes_guarded`**: it is kept in every session, whatever the answers are.

What an answer leaves behind is not known. So what an include directive finds is told from where its
own file was taken up, and what it leaves from the session that it remembers, never from the session
in between.
-/

namespace ZDecl

variable {ρ μ : Type} {handlers : Handlers ρ μ} {task : Task ρ μ} {st st' : Session × μ}
  {root : Option String}

/-! ## What is visited -/

/-- Are the visited paths those of a session with the given root, if that counts as visited, in
which no file comes twice? -/
structure Visited.Orderly (root : Option String) (v : Visited) : Prop where
  /-- Every included path is valid. -/
  valid : ∀ path ∈ v.paths, IncludePath.fault? path = none
  /-- The visited keys are those of the included paths, the last one first, and of the root. -/
  keys : v.keys = (v.paths.map IncludePath.key).reverse ++ root.toList.map IncludePath.key
  /-- No key comes twice. -/
  nodup : v.keys.Nodup

/-- Order is kept when a valid path is visited that names no visited file. -/
theorem Visited.Orderly.insert {v : Visited} (h : v.Orderly root) {path : String}
    (hvalid : IncludePath.fault? path = none) (hkey : IncludePath.key path ∉ v.keys) :
    (v.insert path).Orderly root := by
  have hpaths := Visited.paths_insert hkey
  have hkeys := Visited.keys_insert hkey
  refine ⟨?_, ?_, ?_⟩
  · rw [hpaths]
    intro path' hpath'
    rcases List.mem_append.mp hpath' with hpath' | hpath'
    · exact h.valid path' hpath'
    · rw [List.mem_singleton.mp hpath']
      exact hvalid
  · rw [hkeys, hpaths, h.keys]
    simp
  · rw [hkeys]
    exact List.nodup_cons.mpr ⟨hkey, h.nodup⟩

/-- A path that is included in a step is valid. -/
theorem Moment.Follows.valid {s : Session} {x : Moment} (h : x.Follows s) {path : String}
    (hpath : path ∈ entered [x]) : IncludePath.fault? path = none := by
  obtain ⟨event, s'⟩ := x
  cases event with
  | entered path' =>
      obtain rfl : path = path' := by simpa [entered] using hpath
      have hobjection := Session.objection?_of_rejection? h.1
      exact (Session.objection?_eq_none_iff.mp hobjection).1
  | _ => simp [entered] at hpath

/-- **A step keeps the visited paths in order**, and at most adds one at their end. -/
theorem Moment.Follows.orderly {s : Session} {x : Moment} (h : x.Follows s)
    (hs : s.visited.Orderly root) :
    x.session.visited.Orderly root ∧ s.visited.paths <+: x.session.visited.paths := by
  rcases h.visited with ⟨-, hvisited⟩ | ⟨path, hentered, hkey, hvisited⟩
  · rw [hvisited]
    exact ⟨hs, List.prefix_rfl⟩
  · have hvalid : IncludePath.fault? path = none := h.valid (by simp [hentered])
    rw [hvisited]
    refine ⟨hs.insert hvalid hkey, ?_⟩
    rw [Visited.paths_insert hkey]
    exact List.prefix_append _ _

/-- The sessions of a history, from its start on. -/
def sessions (s : Session) (history : List Moment) : List Session :=
  s :: history.map Moment.session

/-- A history ends with its last session. -/
theorem Chain.getLast?_sessions {s s' : Session} {history : List Moment}
    (h : Chain s history s') : (sessions s history).getLast? = some s' := by
  induction h with
  | nil s => rfl
  | cons _ _ ih => exact List.getLast?_cons_cons.trans ih

/-- **The visited paths are in order at any time**, and later ones are added at their end. -/
theorem Chain.orderly {s s' : Session} {history : List Moment} (h : Chain s history s')
    (hs : s.visited.Orderly root) :
    (∀ s₁ ∈ sessions s history, s₁.visited.Orderly root) ∧
      (sessions s history).Pairwise fun s₁ s₂ => s₁.visited.paths <+: s₂.visited.paths := by
  induction h with
  | nil s => simp [sessions, hs]
  | @cons s _ x history hx _ ih =>
      obtain ⟨hnext, hgrows⟩ := hx.orderly hs
      obtain ⟨hall, hpairs⟩ := ih hnext
      have hcons : sessions s (x :: history) = s :: sessions x.session history := rfl
      rw [hcons]
      refine ⟨?_, List.pairwise_cons.mpr ⟨?_, hpairs⟩⟩
      · intro s₁ hs₁
        rcases List.mem_cons.mp hs₁ with rfl | hs₁
        · exact hs
        · exact hall s₁ hs₁
      · intro s₂ hs₂
        rcases List.mem_cons.mp hs₂ with rfl | hs₂
        · exact hgrows
        · exact hgrows.trans ((List.pairwise_cons.mp hpairs).1 s₂ hs₂)

/-- The visited paths are in order wherever a part starts, too. -/
theorem Involves.orderly {part : Task ρ μ} {level : Nat}
    (h : Involves handlers task st level part st') (hst : st.1.visited.Orderly root) :
    st'.1.visited.Orderly root := by
  induction h with
  | self => exact hst
  | items _ _ ih | item _ _ ih | file _ ih | scanned _ _ _ ih | missed _ _ _ ih => exact ih
  | rest _ _ hitem ih =>
      have hlast := List.mem_of_getLast? hitem.chain.getLast?_sessions
      exact (hitem.chain.orderly ih).1 _ hlast
  | answer _ hcause ih =>
      have hobjection := Session.objection?_of_rejection? hcause
      obtain ⟨hvalid, hkey⟩ := Session.objection?_eq_none_iff.mp hobjection
      exact ih.insert hvalid hkey
  | parsed _ hfile ih =>
      have hlast := List.mem_of_getLast? hfile.chain.getLast?_sessions
      exact (hfile.chain.orderly ih).1 _ hlast
  | requested _ hrequest ih =>
      exact (Moment.Follows.orderly (Answer.follows_of_request? hrequest) ih).1

/-! ## Include directives -/

/-- What holds where an answer is asked for: an include of `path` in the session `s`, inside of
which the session is `inside`, nested in `level` includes. -/
structure Session.Calls (s : Session) (path : String) (inside : Session) (level : Nat) : Prop where
  /-- The path is valid. -/
  valid : IncludePath.fault? path = none
  /-- It names no file that was visited. -/
  fresh : IncludePath.key path ∉ s.visited.keys
  /-- It has just been visited. -/
  visited : inside.visited =
    { keys := IncludePath.key path :: s.visited.keys, paths := s.visited.paths ++ [path] }
  /-- The session knows how deep it is nested. -/
  depth : inside.depth = level
  /-- It is nested in one include at least. -/
  pos : 1 ≤ level
  /-- It is nested no deeper than allowed. -/
  le : level ≤ inside.options.maxIncludeDepth

/-- An answer is asked for only where a path is not rejected. -/
theorem Session.calls_enter {s : Session} {path : String} (h : s.rejection? path = none) :
    s.Calls path (s.enter path) (s.depth + 1) := by
  have hobjection := objection?_of_rejection? h
  obtain ⟨hvalid, hkey⟩ := objection?_eq_none_iff.mp hobjection
  refine ⟨hvalid, hkey, ?_, rfl, Nat.le_add_left 1 _, depth_lt_of_rejection? h⟩
  show s.visited.insert path = _
  simp [Visited.insert_eq, Visited.contains, hkey]

/-- What comes of an include directive in the session `s` whose answer ends with `answer` in the
session `s₁`. -/
structure Settles (s s₁ : Session) (answer result : Except Failure Unit) (s' : Session) :
    Prop where
  /-- If the answer succeeds and no failure is known, the directive succeeds, and its file is taken
  up again where it was left. -/
  resumed : answer = .ok () → s₁.diagnostics.failure = none →
    result = .ok () ∧ s'.context = s.context ∧ s'.diagnostics.failure = none
  /-- Otherwise the directive fails with the failure that is known, which is the one that was known
  when the answer ended, if there was one. -/
  failed : ¬ (answer = .ok () ∧ s₁.diagnostics.failure = none) →
    ∃ f, result = .error f ∧ s'.diagnostics.failure = some f ∧
      ∀ first, s₁.diagnostics.failure = some first → f = first

/-- What comes of an include directive with the path token `t`: the nesting is what it was before. A
path that is rejected is a failure in its own place, and nothing else happens; otherwise the answer
comes to an end and decides. -/
def Concludes (handlers : Handlers ρ μ) (role : ρ) (t : Token) (st : Session × μ)
    (result : Except Failure Unit) (st' : Session × μ) : Prop :=
  st'.1.depth = st.1.depth ∧
    match st.1.rejection? t.unquoted with
    | some cause => ∃ f : Failure,
        f = { cause, span := t.span, source := some st.1.context.name } ∧ result = .error f ∧
          st' = (st.1.report f, st.2) ∧ st'.1.diagnostics.failure = some f
    | none => ∃ inside answer st₁,
        Runs handlers (.answer (handlers role t.unquoted)) (st.1.enter t.unquoted, st.2) inside
          answer st₁ ∧ Settles st.1 st₁.1 answer result st'.1

/-- **What comes of an include directive** in a session without a failure. -/
theorem Runs.concludes {role : ρ} {t : Token} {history : List Moment}
    {result : Except Failure Unit}
    (h : Runs handlers (.item role (.inclusion t)) st history result st')
    (hst : st.1.diagnostics.failure = none) : Concludes handlers role t st result st' := by
  refine ⟨h.depth_options_eq.1, ?_⟩
  cases h with
  | performed hitem => cases hitem
  | @rejected _ _ s _ _ f hcause hf =>
      dsimp only
      rw [hcause]
      refine ⟨f, hf, rfl, rfl, ?_⟩
      rw [Session.failure_report, hst, Option.getD_none]
  | included hcause hanswer hfailure =>
      dsimp only
      rw [hcause]
      refine ⟨_, _, _, hanswer, ?_, ?_⟩
      · intro _ _
        exact ⟨rfl, rfl, hfailure⟩
      · intro hfails
        exact absurd ⟨rfl, hfailure⟩ hfails
  | spoiled hcause hanswer hfailure =>
      dsimp only
      rw [hcause]
      refine ⟨_, _, _, hanswer, ?_, ?_⟩
      · intro _ hnone
        cases hfailure.symm.trans hnone
      · intro _
        refine ⟨_, rfl, hfailure, ?_⟩
        intro first hfirst
        cases hfailure.symm.trans hfirst
        rfl
  | @refused _ _ _ s₁ _ _ _ _ placed hcause hanswer _ =>
      dsimp only
      rw [hcause]
      refine ⟨_, _, _, hanswer, ?_, ?_⟩
      · intro hok _
        cases hok
      · intro _
        refine ⟨s₁.diagnostics.failure.getD placed, rfl, ?_, ?_⟩
        · exact s₁.leave.failure_report placed
        · intro first hfirst
          rw [hfirst, Option.getD_some]

/-! ## Sessions -/

/-- What is said of an include directive with the path token `t` that is performed in the session
`s`, nested in `level` includes. -/
structure Handled (handlers : Handlers ρ μ) (level : Nat) (role : ρ) (t : Token) (s : Session)
    (m : μ) : Prop where
  /-- No failure is known, and the session stands in the file of the directive, right behind its
  path. -/
  place : ∃ source, s.StandsAt source s.context.cursor ∧
    (Cursor.ofBytes source.contents).LastRead t s.context.cursor
  /-- An answer is asked for as it should be. -/
  called : s.rejection? t.unquoted = none →
    s.Calls t.unquoted (s.enter t.unquoted) (level + 1)
  /-- The directive comes to an end as it should. -/
  ends : ∃ history result st',
    Runs handlers (.item role (.inclusion t)) (s, m) history result st' ∧
      Concludes handlers role t (s, m) result st'

/-- **The include protocol**, as kept in a run of a part of a session and told by its history. -/
structure Guarded (handlers : Handlers ρ μ) (root : Option String) (task : Task ρ μ)
    (st : Session × μ) (history : List Moment) (st' : Session × μ) : Prop where
  /-- The part has this history and ends in this state. -/
  runs : ∃ result, Runs handlers task st history result st'
  /-- The history ends in the last state, too. -/
  last : (sessions st.1 history).getLast? = some st'.1
  /-- Wherever a part of it starts, the session knows how deep it is nested, and the visited paths
  are in order. -/
  nested : ∀ level part s m, Involves handlers task st level part (s, m) →
    s.depth = level ∧ s.visited.Orderly root
  /-- Every include directive that the history tells of is a part of it. -/
  performed : ∀ t verdict s, ⟨.reached t verdict, s⟩ ∈ history →
    PerformsInclude handlers task st t s
  /-- Every include directive is handled as it should be. -/
  handled : ∀ level role t s m,
    Involves handlers task st level (.item role (.inclusion t)) (s, m) →
      Handled handlers level role t s m
  /-- The visited paths are in order at any time. -/
  orderly : ∀ s ∈ sessions st.1 history, s.visited.Orderly root
  /-- Included paths are only added at the end. -/
  grows : (sessions st.1 history).Pairwise fun s s' => s.visited.paths <+: s'.visited.paths

/-- An include directive is handled as it should be, whatever it is a part of. -/
theorem Involves.handled {level : Nat} {role : ρ} {t : Token} {s : Session} {m : μ}
    (h : Involves handlers task st level (.item role (.inclusion t)) (s, m))
    (hrun : CanRun handlers task st) (hstart : task.Starts st.1) (hdepth : st.1.depth = 0) :
    Handled handlers level role t s m := by
  obtain ⟨source, hstands, hbehind⟩ := h.starts hstart
  obtain ⟨history, result, st', hitem⟩ := h.canRun hrun
  have hlevel : s.depth = level := by
    have hcounted := h.depth_options_eq.1
    rw [hdepth, Nat.zero_add] at hcounted
    exact hcounted
  refine ⟨⟨source, hstands, hbehind t rfl⟩, ?_, history, result, st', hitem, ?_⟩
  · intro hcause
    rw [← hlevel]
    exact Session.calls_enter hcause
  · exact hitem.concludes hstands.failure

/-- The protocol is kept in every run that starts outside of all includes. -/
theorem Runs.guarded {history : List Moment} {result : Except Failure Unit}
    (h : Runs handlers task st history result st') (hstart : task.Starts st.1)
    (hdepth : st.1.depth = 0) (hst : st.1.visited.Orderly root) :
    Guarded handlers root task st history st' := by
  have hrun : CanRun handlers task st := ⟨history, result, st', h⟩
  obtain ⟨horderly, hgrows⟩ := h.chain.orderly hst
  refine ⟨⟨result, h⟩, h.chain.getLast?_sessions, ?_, ?_, ?_, horderly, hgrows⟩
  · intro level part s m hpart
    have hcounted := hpart.depth_options_eq.1
    rw [hdepth, Nat.zero_add] at hcounted
    exact ⟨hcounted, hpart.orderly hst⟩
  · intro t verdict s hx
    exact h.performsInclude_of_reached hx
  · intro level role t s m hpart
    exact hpart.handled hrun hstart hdepth

/-- A new session in which nothing has been read, and in which the root counts as visited if one is
given. -/
def Session.begin (s : Session) : Option String → Session
  | none => s.reset
  | some path => s.reset.visitRoot path

/-- The visited paths of a new session are in order. -/
theorem Session.orderly_begin (s : Session) (root : Option String) :
    (s.begin root).visited.Orderly root := by
  have hpaths : (s.begin root).visited.paths = [] := by
    cases root <;> rfl
  have hkeys : (s.begin root).visited.keys = root.toList.map IncludePath.key := by
    cases root <;> rfl
  refine ⟨?_, ?_, ?_⟩
  · simp [hpaths]
  · simp [hpaths, hkeys]
  · rw [hkeys]
    cases root <;> simp

/-- **The include protocol is kept whatever the answers are**: in every session that parses a root
file, whether or not that counts as visited, and in every session in which other things are done in
any order, of which parsing a file is only one. -/
theorem includes_guarded (handlers : Handlers ρ μ) (s : Session) (m : μ) :
    (∀ role source, ∃ history, Guarded handlers none (.file role source) (s.reset, m) history
      (outcome (Parse.root handlers role source (s, m))).2) ∧
    (∀ role source, ∃ history, Guarded handlers (some source.name) (.file role source)
      (s.reset.visitRoot source.name, m) history
      (outcome (Parse.archiveRoot handlers role source (s, m))).2) ∧
    ∀ (root : Option String) (a : Answer ρ μ), ∃ history,
      Guarded handlers root (.answer a) (s.begin root, m) history
        (outcome (a.perform (Parse.fileAt handlers s.options.maxIncludeDepth)
          (s.begin root, m))).2 := by
  have hfile : ∀ (root : Option String) (role : ρ) (source : SourceFile), ∃ history,
      Guarded handlers root (.file role source) (s.begin root, m) history
        (outcome (Parse.start handlers role source (s.begin root, m))).2 := by
    intro root role source
    obtain ⟨history, hrun⟩ := exists_runs handlers role source (s.begin root, m)
    rw [outcome_start]
    refine ⟨history, hrun.guarded trivial ?_ (s.orderly_begin root)⟩
    cases root <;> rfl
  refine ⟨hfile none, fun role source => hfile (some source.name) role source, ?_⟩
  intro root a
  have hlevels : (s.begin root).levels = s.options.maxIncludeDepth := by
    cases root <;> rfl
  have hanswer : HasRun handlers (.answer a) (s.begin root, m)
      (a.perform (Parse.fileAt handlers s.options.maxIncludeDepth) (s.begin root, m)) :=
    Parse.hasRun_answer (Parse.hasRun_fileAt _) a (s.begin root) m hlevels
  obtain ⟨history, hrun⟩ := hanswer
  refine ⟨history, hrun.guarded trivial ?_ (s.orderly_begin root)⟩
  cases root <;> rfl

/-- An answer that parses a file and leaves it for another place does not disturb the file of the
directive, which is read on behind it. -/
example :
    let other : SourceFile := { name := "b.zs", contents := "enum B \x7b \x7d".toUTF8.toList }
    let handlers : Handlers Unit Unit :=
      fun _ _ => .parse () other fun _ => .resume Context.empty (.finish (.ok ()))
    let source : SourceFile := {
      name := "a.zs", contents := "#include \"b.zs\" class A \x7b \x7d".toUTF8.toList }
    let final := (outcome (Parse.root handlers () source (Session.new, ()))).2.1
    final.declarations.map Declaration.name = ["B", "A"] ∧ final.context.name = "a.zs" := by
  decide +kernel

end ZDecl
