import ZDecl.Proofs.Session.Finds
import ZDecl.Proofs.Session.Run

/-!
# Histories step by step

Every moment of a history follows from the session right before it by one step. What a session has
visited can so be told from its history alone, whatever was parsed and however includes were
answered.

* `Moment.Follows`: the steps, one for each kind of event.
* `Chain`: the histories in which every moment follows from the one before.
* **`Runs.chain`**: histories of runs are chains.
* `entered`, `reached`, `openings`: the included paths, the include directives and the parsed files
  of a history, in order.
* **`Chain.visited`**: what was visited is what was visited before together with what was included,
  and nothing is included twice.
-/

namespace ZDecl

variable {ρ μ : Type}

/-! ## Steps -/

/-- Does the moment follow from the session `s` by the step that its event stands for? -/
def Moment.Follows (s : Session) (x : Moment) : Prop :=
  match x.event with
  | .opened source => s.diagnostics.failure = none ∧ x.session = s.resume (Context.ofFile source)
  | .read => ∃ r, x.session = s.advance r
  | .performed item => s.plain? item = some x.session
  | .reached t verdict => verdict = s.rejection? t.unquoted ∧ x.session = s
  | .entered path => s.rejection? path = none ∧ x.session = s.enter path
  | .left => ∃ context, x.session = s.leave.resume context
  | .reported f => x.session = s.report f
  | .requested => ∃ context declarations, x.session = { s with context, declarations }

/-- From the session `s`, one step after the other leads along the history to `s'`. -/
inductive Chain : Session → List Moment → Session → Prop where
  /-- No step. -/
  | nil (s : Session) : Chain s [] s
  /-- A step and those after it. -/
  | cons {s s' : Session} {x : Moment} {history : List Moment} (hx : x.Follows s)
      (h : Chain x.session history s') : Chain s (x :: history) s'

/-- One step. -/
theorem Chain.single {s : Session} {x : Moment} (hx : x.Follows s) : Chain s [x] x.session :=
  .cons hx (.nil _)

/-- Two chains one after the other. -/
theorem Chain.append {s s' s'' : Session} {history later : List Moment} (h : Chain s history s')
    (h' : Chain s' later s'') : Chain s (history ++ later) s'' := by
  induction h with
  | nil s => exact h'
  | cons hx _ ih => exact .cons hx (ih h')

/-- A chain up to some moment, and that moment's step. -/
theorem Chain.split {s s' : Session} {before after : List Moment} {x : Moment}
    (h : Chain s (before ++ x :: after) s') :
    ∃ s₁, Chain s before s₁ ∧ x.Follows s₁ ∧ Chain x.session after s' := by
  induction before generalizing s with
  | nil =>
      cases h with
      | cons hx h => exact ⟨s, .nil s, hx, h⟩
  | cons y before ih =>
      cases h with
      | cons hy h =>
          obtain ⟨s₁, hbefore, hx, hafter⟩ := ih h
          exact ⟨s₁, .cons hy hbefore, hx, hafter⟩

/-- What an answer asks for is a step. -/
theorem Answer.follows_of_request? {a a' : Answer ρ μ} {s s' : Session} {m m' : μ}
    (h : a.request? (s, m) = some (a', s', m')) : (Moment.mk .requested s').Follows s := by
  cases a with
  | inspect k | resume context k | takeDeclarations k | memory k | remember m₀ k =>
      cases h
      exact ⟨_, _, rfl⟩
  | _ => cases h

/-- **Histories of runs are chains.** -/
theorem Runs.chain {handlers : Handlers ρ μ} {task : Task ρ μ} {st st' : Session × μ}
    {history : List Moment} {result : Except Failure Unit}
    (h : Runs handlers task st history result st') : Chain st.1 history st'.1 := by
  induction h with
  | known _ => exact .nil _
  | opened hfailure _ ih => exact .cons ⟨hfailure, rfl⟩ ih
  | finished _ => exact .single ⟨_, rfl⟩
  | stopped _ => exact .cons ⟨_, rfl⟩ (.single rfl)
  | more _ _ _ ihitem ihrest => exact .cons ⟨_, rfl⟩ (ihitem.append ihrest)
  | broken _ _ ih => exact .cons ⟨_, rfl⟩ ih
  | performed hitem => exact .single hitem
  | rejected hcause _ => exact .cons ⟨hcause.symm, rfl⟩ (.single rfl)
  | included hcause _ _ ih =>
      exact .cons ⟨hcause.symm, rfl⟩ (.cons ⟨hcause, rfl⟩ (ih.append (.single ⟨_, rfl⟩)))
  | @spoiled _ _ _ s' _ _ _ _ hcause _ _ ih =>
      exact .cons ⟨hcause.symm, rfl⟩
        (.cons ⟨hcause, rfl⟩ (ih.append (.single ⟨s'.leave.context, rfl⟩)))
  | @refused _ _ _ s' _ _ _ _ _ hcause _ _ ih =>
      exact .cons ⟨hcause.symm, rfl⟩ (.cons ⟨hcause, rfl⟩
        (ih.append (.cons ⟨s'.leave.context, rfl⟩ (.single rfl))))
  | ended => exact .nil _
  | parsed _ _ ihfile ihrest => exact ihfile.append ihrest
  | scanned _ _ _ ih => exact .cons ⟨_, rfl⟩ ih
  | missed _ _ _ _ ih => exact .cons ⟨_, rfl⟩ (.cons rfl ih)
  | requested hrequest _ ih => exact .cons (Answer.follows_of_request? hrequest) ih

/-! ## What a history visits -/

/-- The paths that are included in a history, in order. -/
def entered (history : List Moment) : List String :=
  history.filterMap fun x =>
    match x.event with
    | .entered path => some path
    | _ => none

/-- The include directives that a history reaches, in order. -/
def reached (history : List Moment) : List Token :=
  history.filterMap fun x =>
    match x.event with
    | .reached t _ => some t
    | _ => none

/-- The files that are parsed in a history, in the order in which they are opened. -/
def openings (history : List Moment) : List SourceFile :=
  history.filterMap fun x =>
    match x.event with
    | .opened source => some source
    | _ => none

section Append

variable (history later : List Moment)

/-- The paths entered in two histories, one behind the other. -/
@[simp] theorem entered_append : entered (history ++ later) = entered history ++ entered later :=
  List.filterMap_append

/-- The files reached in two histories, one behind the other. -/
@[simp] theorem reached_append : reached (history ++ later) = reached history ++ reached later :=
  List.filterMap_append

/-- The openings in two histories, one behind the other. -/
@[simp] theorem openings_append :
    openings (history ++ later) = openings history ++ openings later :=
  List.filterMap_append

end Append

/-- A path that is not rejected is valid and names no visited file. -/
theorem Session.objection?_of_rejection? {s : Session} {path : String}
    (h : s.rejection? path = none) : s.objection? path = none := by
  unfold rejection? at h
  cases hobjection : s.objection? path with
  | none => rfl
  | some cause =>
      rw [hobjection] at h
      cases h

/-- A path that is not rejected may be included one level deeper. -/
theorem Session.depth_lt_of_rejection? {s : Session} {path : String}
    (h : s.rejection? path = none) : s.depth < s.options.maxIncludeDepth := by
  have hobjection := objection?_of_rejection? h
  unfold rejection? at h
  rw [hobjection] at h
  by_cases hdepth : s.depth < s.options.maxIncludeDepth
  · exact hdepth
  · simp [hdepth] at h

/-- What one step visits. -/
theorem Moment.Follows.visited {s : Session} {x : Moment} (h : x.Follows s) :
    (entered [x] = [] ∧ x.session.visited = s.visited) ∨
      ∃ path, entered [x] = [path] ∧ IncludePath.key path ∉ s.visited.keys ∧
        x.session.visited = s.visited.insert path := by
  obtain ⟨event, s'⟩ := x
  cases event with
  | entered path =>
      obtain ⟨hcause, rfl⟩ := h
      have hobjection := Session.objection?_of_rejection? hcause
      exact .inr ⟨path, rfl, (Session.objection?_eq_none_iff.mp hobjection).2, rfl⟩
  | opened source =>
      obtain ⟨-, rfl⟩ := h
      exact .inl ⟨rfl, rfl⟩
  | read =>
      obtain ⟨r, rfl⟩ := h
      exact .inl ⟨rfl, rfl⟩
  | performed item =>
      refine .inl ⟨rfl, ?_⟩
      cases item with
      | inclusion t => cases h
      | word t => cases h; rfl
      | version v => cases h; rfl
      | declaration d =>
          cases h
          show (s.record d).visited = s.visited
          rw [Session.record_eq]
  | reached t verdict =>
      obtain ⟨-, rfl⟩ := h
      exact .inl ⟨rfl, rfl⟩
  | left =>
      obtain ⟨context, rfl⟩ := h
      exact .inl ⟨rfl, rfl⟩
  | reported f =>
      obtain rfl := h
      exact .inl ⟨rfl, rfl⟩
  | requested =>
      obtain ⟨context, declarations, rfl⟩ := h
      exact .inl ⟨rfl, rfl⟩

/-- **What a history visits**: the keys of the included paths join the visited keys, all of them
different, and the paths are listed as they were written. -/
theorem Chain.visited {s s' : Session} {history : List Moment} (h : Chain s history s')
    (hs : s.visited.keys.Nodup) :
    s'.visited.keys = ((entered history).map IncludePath.key).reverse ++ s.visited.keys ∧
      s'.visited.paths = s.visited.paths ++ entered history ∧ s'.visited.keys.Nodup := by
  induction h with
  | nil s => exact ⟨rfl, (List.append_nil _).symm, hs⟩
  | @cons s s' x history hx _ ih =>
      have hcons : entered (x :: history) = entered [x] ++ entered history :=
        entered_append [x] history
      rw [hcons]
      rcases hx.visited with ⟨hentered, hvisited⟩ | ⟨path, hentered, hkey, hvisited⟩
      · rw [hvisited] at ih
        rw [hentered]
        exact ih hs
      · rw [hvisited, Visited.keys_insert hkey, Visited.paths_insert hkey] at ih
        obtain ⟨hkeys, hpaths, hnodup⟩ := ih (List.nodup_cons.mpr ⟨hkey, hs⟩)
        rw [hentered]
        refine ⟨?_, ?_, hnodup⟩
        · rw [hkeys]
          simp
        · rw [hpaths, List.append_assoc]

end ZDecl
