import ZDecl.Proofs.Include.Protocol
import ZDecl.Proofs.Include.Recording

/-!
# What is recorded is derived

A session parses files, goes back and forth between them, and answers may make it do other things on
the way. But declarations are recorded in one place only: behind the item of a file that was just
read. So whatever the grammar says of the tokens of a declaration is true of every declaration that
any session records.

* `Declaration.DerivedFrom`, `Declaration.DerivedIn`: a declaration is derived from a stretch of
  tokens, or from a stretch of a file.
* `RecordsDerived`: what a part of a session records. `Task.derivable`: what it may record besides
  what is derived in the files that are opened in it.
* **`Runs.recordsDerived`**: every part records nothing else.
* `Runs.mem_declarations`: what a session has found is what was recorded.
* `EveryRecorded`: a property of all declarations that are recorded in any use of a new session.
* **`everyRecorded_of_derivedIn`**: what is derived has the property, so what is recorded has it.
-/

namespace ZDecl

open Grammar

variable {ρ μ : Type} {handlers : Handlers ρ μ}

/-! ## Derived declarations -/

namespace Declaration

/-- Is the declaration derived from a stretch of these tokens, as one of the file `name`? -/
def DerivedFrom (d : Declaration) (strict : Bool) (name : String) (tokens : List Token) : Prop :=
  ∃ used, used <:+: tokens ∧ (∀ t ∈ used, t.valid = true) ∧
    Derives strict name used (.declaration d)

/-- Is the declaration derived from a stretch of the significant tokens of the file? -/
def DerivedIn (d : Declaration) (strict : Bool) (source : SourceFile) : Prop :=
  d.DerivedFrom strict source.name (unskipped (Cursor.ofBytes source.contents).tokens)

/-- It is derived from more tokens as well. -/
theorem DerivedFrom.mono {d : Declaration} {strict : Bool} {name : String}
    {tokens more : List Token} (h : d.DerivedFrom strict name tokens) (hmore : tokens <:+: more) :
    d.DerivedFrom strict name more := by
  obtain ⟨used, hused, hderives⟩ := h
  exact ⟨used, hused.trans hmore, hderives⟩

end Declaration

/-- A declaration that was read is derived from what was to be read. -/
theorem derivedFrom_of_next? {strict : Bool} {name : String} {cursor : Cursor} {d : Declaration}
    {r : Scan.State}
    (h : Item.next? strict name ⟨cursor, []⟩ = .ok (some (.declaration d)) r) :
    d.DerivedFrom strict name (unskipped cursor.tokens) := by
  obtain ⟨used, hused, hvalid, hderives⟩ := exists_derives_of_next? h
  have htokens : unskipped cursor.tokens = used ++ unskipped r.cursor.tokens := hused
  exact ⟨used, htokens ▸ (List.prefix_append _ _).isInfix, hvalid, hderives⟩

/-- What is still to be read behind an item is the end of what was to be read before. -/
theorem suffix_of_next? {strict : Bool} {name : String} {cursor : Cursor} {item : Item}
    {r : Scan.State} (h : Item.next? strict name ⟨cursor, []⟩ = .ok (some item) r) :
    unskipped r.cursor.tokens <:+ unskipped cursor.tokens := by
  obtain ⟨used, hused, -⟩ := exists_derives_of_next? h
  have htokens : unskipped cursor.tokens = used ++ unskipped r.cursor.tokens := hused
  exact htokens ▸ List.suffix_append _ _

/-! ## Histories -/

/-- Is everything that is recorded in the history derived in a file that is opened in it, or one of
the part's own? -/
def RecordsDerived (strict : Bool) (own : Declaration → Prop) (history : List Moment) : Prop :=
  ∀ d ∈ recorded history, own d ∨ ∃ source ∈ openings history, d.DerivedIn strict source

namespace RecordsDerived

variable {strict : Bool} {own more : Declaration → Prop} {history later : List Moment}

/-- Where nothing is recorded. -/
theorem quiet (h : recorded history = []) : RecordsDerived strict own history := by
  unfold RecordsDerived
  rw [h]
  exact fun _ hd => (List.not_mem_nil hd).elim

/-- A part may have more of its own. -/
theorem mono (h : RecordsDerived strict own history) (hmore : ∀ d, own d → more d) :
    RecordsDerived strict more history :=
  fun d hd => (h d hd).imp_left (hmore d)

/-- What is recorded in two stretches. -/
theorem append (h : RecordsDerived strict own history) (h' : RecordsDerived strict own later) :
    RecordsDerived strict own (history ++ later) := by
  intro d hd
  rw [recorded_append] at hd
  rw [openings_append]
  rcases List.mem_append.mp hd with hd | hd
  · exact (h d hd).imp_right fun ⟨source, hsource, hderived⟩ =>
      ⟨source, List.mem_append_left _ hsource, hderived⟩
  · exact (h' d hd).imp_right fun ⟨source, hsource, hderived⟩ =>
      ⟨source, List.mem_append_right _ hsource, hderived⟩

/-- A moment in which nothing is recorded. -/
theorem cons {x : Moment} (h : RecordsDerived strict own history) (hx : recorded [x] = []) :
    RecordsDerived strict own (x :: history) :=
  (quiet hx).append h

/-- A file is opened, and what is derived in it is recorded. -/
theorem opened {source : SourceFile} {s : Session}
    (h : RecordsDerived strict (fun d => d.DerivedIn strict source) history) :
    RecordsDerived strict own (⟨.opened source, s⟩ :: history) := by
  intro d hd
  right
  rcases h d hd with hderived | ⟨other, hother, hderived⟩
  · exact ⟨source, List.mem_cons_self, hderived⟩
  · exact ⟨other, List.mem_cons_of_mem _ hother, hderived⟩

end RecordsDerived

/-! ## Runs -/

/-- What a part of a session may record of its own: the items of a file what is derived from the
tokens that are still to be read, an item itself. -/
def Task.derivable (s : Session) : Task ρ μ → Declaration → Prop
  | .items _ cursor, d =>
    d.DerivedFrom s.options.strictHeader s.context.name (unskipped cursor.tokens)
  | .item _ i, d => i = .declaration d
  | _, _ => False

/-- **A run records what is derived in the files that it opens**, besides what its part has of its
own. -/
theorem Runs.recordsDerived {task : Task ρ μ} {st st' : Session × μ} {history : List Moment}
    {result : Except Failure Unit} (h : Runs handlers task st history result st') :
    RecordsDerived st.1.options.strictHeader (task.derivable st.1) history := by
  induction h with
  | known _ | finished _ | stopped _ | rejected _ _ | ended => exact .quiet rfl
  | opened _ _ ih => exact ih.opened
  | @more _ _ s _ item r _ later _ st _ hread hitem _ ihitem ihrest =>
      have hname : st.1.context.name = s.context.name :=
        congrArg (·.name) hitem.context_of_item_ok
      have hoptions : st.1.options = s.options := hitem.depth_options_eq.2
      rw [hoptions] at ihrest
      refine ((ihitem.mono fun d hd => ?_).append (ihrest.mono fun d hd => ?_)).cons rfl
      · subst hd
        exact derivedFrom_of_next? hread
      · have hrest : d.DerivedFrom s.options.strictHeader s.context.name
            (unskipped r.cursor.tokens) := hoptions ▸ hname ▸ hd
        exact hrest.mono (suffix_of_next? hread).isInfix
  | broken hread _ ih =>
      refine RecordsDerived.cons (ih.mono fun d hd => ?_) rfl
      subst hd
      exact derivedFrom_of_next? hread
  | @performed _ item s s' _ _ =>
      intro d hd
      rw [recorded_performed] at hd
      left
      cases item with
      | declaration d' =>
          obtain rfl : d = d' := List.mem_singleton.mp hd
          rfl
      | word t | version v | inclusion t => cases hd
  | included _ _ _ ih | spoiled _ _ _ ih | refused _ _ _ ih =>
      refine RecordsDerived.cons (RecordsDerived.cons (.append (ih.mono ?_) (.quiet rfl)) rfl) rfl
      exact fun d hd => hd.elim
  | parsed hfile _ ihfile ihrest =>
      rw [hfile.depth_options_eq.2] at ihrest
      exact ihfile.append ihrest
  | scanned _ _ _ ih => exact ih.cons rfl
  | missed _ _ _ _ ih => exact (ih.cons rfl).cons rfl
  | requested hrequest _ ih =>
      rw [(Answer.depth_options_of_request? hrequest).2] at ih
      exact ih.cons rfl

/-- What an answer asks for adds no declarations. -/
theorem Answer.declarations_of_request? {a a' : Answer ρ μ} {s s' : Session} {m m' : μ}
    (h : a.request? (s, m) = some (a', s', m')) : s'.declarations ⊆ s.declarations := by
  cases a with
  | inspect k | resume context k | memory k | remember m₀ k =>
      cases h
      exact List.Subset.refl _
  | takeDeclarations k =>
      cases h
      exact List.nil_subset _
  | _ => cases h

/-- **What a session has found** in the end was there or was recorded. -/
theorem Runs.mem_declarations {task : Task ρ μ} {st st' : Session × μ} {history : List Moment}
    {result : Except Failure Unit} (h : Runs handlers task st history result st') :
    ∀ d ∈ st'.1.declarations, d ∈ st.1.declarations ∨ d ∈ recorded history := by
  induction h with
  | known _ | finished _ | stopped _ | rejected _ _ | ended => exact fun d hd => .inl hd
  | opened _ _ ih => exact ih
  | broken _ _ ih | scanned _ _ _ ih | missed _ _ _ _ ih => exact ih
  | @more _ _ _ _ _ _ history later _ _ _ _ _ _ ihfirst ihrest
  | @parsed _ _ _ _ _ history later _ _ _ _ _ _ ihfirst ihrest =>
      intro d hd
      show _ ∨ d ∈ recorded (history ++ later)
      rw [recorded_append]
      rcases ihrest d hd with hd | hd
      · exact (ihfirst d hd).imp_right (List.mem_append_left _)
      · exact .inr (List.mem_append_right _ hd)
  | performed hitem =>
      intro d hd
      rw [recorded_performed]
      rw [(finds_of_plain? hitem).declarations] at hd
      exact List.mem_append.mp hd
  | @included _ _ _ _ _ _ inside _ _ _ ih | @spoiled _ _ _ _ _ _ inside _ _ _ _ ih
  | @refused _ _ _ _ _ _ inside _ _ _ _ _ ih =>
      intro d hd
      show _ ∨ d ∈ recorded (inside ++ _)
      rw [recorded_append]
      exact (ih d hd).imp_right (List.mem_append_left _)
  | requested hrequest _ ih =>
      intro d hd
      exact (ih d hd).imp_left fun hd => Answer.declarations_of_request? hrequest hd

/-! ## Sessions -/

/-- Is there a run of the part between the two states, in which every declaration that is recorded
has the property together with a file that is opened, and are all that are there in the end among
these? -/
def Records (P : SourceFile → Declaration → Prop) (handlers : Handlers ρ μ) (task : Task ρ μ)
    (st st' : Session × μ) : Prop :=
  ∃ history result, Runs handlers task st history result st' ∧
    (∀ d ∈ recorded history, ∃ source ∈ openings history, P source d) ∧
      ∀ d ∈ st'.1.declarations, d ∈ recorded history

/-- Has every declaration the property, together with a file that is opened, that is recorded in a
new session with the options of `s`: when a root file is parsed, whether or not that counts as
visited, or when other things are done in any order, of which parsing a file is only one? -/
structure EveryRecorded (P : SourceFile → Declaration → Prop) (handlers : Handlers ρ μ)
    (s : Session) (m : μ) : Prop where
  /-- A root file is parsed. -/
  root : ∀ role source, Records P handlers (.file role source) (s.begin none, m)
    (outcome (Parse.root handlers role source (s, m))).2
  /-- A root file is parsed that counts as visited. -/
  archiveRoot : ∀ role source, Records P handlers (.file role source)
    (s.begin (some source.name), m) (outcome (Parse.archiveRoot handlers role source (s, m))).2
  /-- Anything else is done. -/
  answer : ∀ (root : Option String) (a : Answer ρ μ), Records P handlers (.answer a)
    (s.begin root, m) (outcome (a.perform (Parse.fileAt handlers s.options.maxIncludeDepth)
      (s.begin root, m))).2

/-- A run from a new session records what is derived. -/
theorem Runs.records {P : SourceFile → Declaration → Prop} {s : Session} {root : Option String}
    (hP : ∀ source d, d.DerivedIn s.options.strictHeader source → P source d) {task : Task ρ μ}
    {m : μ} {st' : Session × μ} {history : List Moment} {result : Except Failure Unit}
    (h : Runs handlers task (s.begin root, m) history result st')
    (hown : ∀ d, ¬task.derivable (s.begin root) d) :
    Records P handlers task (s.begin root, m) st' := by
  have hoptions : (s.begin root).options = s.options := by
    cases root <;> rfl
  have hnone : (s.begin root).declarations = [] := by
    cases root <;> rfl
  have hderived := h.recordsDerived
  rw [hoptions] at hderived
  refine ⟨history, result, h, fun d hd => ?_, fun d hd => ?_⟩
  · obtain ⟨source, hsource, hd⟩ := (hderived d hd).resolve_left (hown d)
    exact ⟨source, hsource, hP source d hd⟩
  · refine (h.mem_declarations d hd).resolve_left fun hd => ?_
    rw [hnone] at hd
    cases hd

/-- **What is true of all derived declarations** is true of all that a session records. -/
theorem everyRecorded_of_derivedIn {P : SourceFile → Declaration → Prop} {s : Session}
    (hP : ∀ source d, d.DerivedIn s.options.strictHeader source → P source d)
    (handlers : Handlers ρ μ) (m : μ) : EveryRecorded P handlers s m := by
  have hfile : ∀ (root : Option String) (role : ρ) (source : SourceFile),
      Records P handlers (.file role source) (s.begin root, m)
        (outcome (Parse.start handlers role source (s.begin root, m))).2 := by
    intro root role source
    obtain ⟨history, hrun⟩ := exists_runs handlers role source (s.begin root, m)
    rw [outcome_start]
    exact hrun.records hP fun _ hd => hd
  refine ⟨hfile none, fun role source => hfile (some source.name) role source, fun root a => ?_⟩
  have hlevels : (s.begin root).levels = s.options.maxIncludeDepth := by
    cases root <;> rfl
  obtain ⟨history, hrun⟩ := Parse.hasRun_answer (Parse.hasRun_fileAt _) a (s.begin root) m hlevels
  exact hrun.records hP fun _ hd => hd

end ZDecl
