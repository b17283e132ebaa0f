import ZDecl.Proofs.Scan.Places
import ZDecl.Proofs.Session.Run

/-!
# The parts of a run

A run of a session consists of runs of its parts: of the files that are parsed, of their items, of
the answers to include directives, and again of the files that these parse. This file names the
parts with the state in which each of them starts, and says how deep it is nested in includes, which
is counted here and not read off the session.

* `Involves`: the parts that run in the course of a part.
* `Involves.canRun`: every part of something that runs has a run itself.
* `Runs.performsInclude_of_reached`: no include directive of a history is missing among them.
* `Involves.depth_options_eq`: the session knows how deep it is nested.
* `Runs.of_item_ok`: an item that succeeds leaves the reading of its file where it was.
* **`Involves.starts`**: wherever the items of a file are parsed, the session stands in that file
  right behind what was read of it, and no failure is known.

The last point is what an include directive owes to the file that it stands in. Between two items
any file may have been opened, read in part and left, so it is no fact about single steps.
-/

namespace ZDecl

variable {ρ μ : Type} {handlers : Handlers ρ μ} {task part : Task ρ μ} {st st' : Session × μ}
  {level : Nat}

/-- **The parts of a run**: in the course of the part `task`, which starts in `st`, another part
starts in some state, nested in `level` includes more. -/
inductive Involves (handlers : Handlers ρ μ) (task : Task ρ μ) (st : Session × μ) :
    Nat → Task ρ μ → Session × μ → Prop where
  /-- The part itself. -/
  | self : Involves handlers task st 0 task st
  /-- The items of a file. -/
  | items {level : Nat} {role : ρ} {source : SourceFile} {s : Session} {m : μ}
      (h : Involves handlers task st level (.file role source) (s, m))
      (hfailure : s.diagnostics.failure = none) :
      Involves handlers task st level (.items role (Cursor.ofBytes source.contents))
        (s.resume (Context.ofFile source), m)
  /-- The next item. -/
  | item {level : Nat} {role : ρ} {cursor : Cursor} {s : Session} {m : μ} {item : Item}
      {r : Scan.State} (h : Involves handlers task st level (.items role cursor) (s, m))
      (hread : Item.next? s.options.strictHeader s.context.name ⟨cursor, []⟩ = .ok (some item) r) :
      Involves handlers task st level (.item role item) (s.advance r, m)
  /-- The items after an item. -/
  | rest {level : Nat} {role : ρ} {cursor : Cursor} {s : Session} {m : μ} {item : Item}
      {r : Scan.State} {history : List Moment} {st' : Session × μ}
      (h : Involves handlers task st level (.items role cursor) (s, m))
      (hread : Item.next? s.options.strictHeader s.context.name ⟨cursor, []⟩ = .ok (some item) r)
      (hitem : Runs handlers (.item role item) (s.advance r, m) history (.ok ()) st') :
      Involves handlers task st level (.items role r.cursor) st'
  /-- The answer to an include directive. -/
  | answer {level : Nat} {role : ρ} {t : Token} {s : Session} {m : μ}
      (h : Involves handlers task st level (.item role (.inclusion t)) (s, m))
      (hcause : s.rejection? t.unquoted = none) :
      Involves handlers task st (level + 1) (.answer (handlers role t.unquoted))
        (s.enter t.unquoted, m)
  /-- A file that an answer parses. -/
  | file {level : Nat} {role : ρ} {source : SourceFile} {k : Except Failure Unit → Answer ρ μ}
      {st' : Session × μ}
      (h : Involves handlers task st level (.answer (.parse role source k)) st') :
      Involves handlers task st level (.file role source) st'
  /-- An answer after a file that it has parsed. -/
  | parsed {level : Nat} {role : ρ} {source : SourceFile} {k : Except Failure Unit → Answer ρ μ}
      {history : List Moment} {result : Except Failure Unit} {st' st'' : Session × μ}
      (h : Involves handlers task st level (.answer (.parse role source k)) st')
      (hfile : Runs handlers (.file role source) st' history result st'') :
      Involves handlers task st level (.answer (k result)) st''
  /-- An answer after something that it has read. -/
  | scanned {level : Nat} {β : Type} {a : Answer ρ μ} {p : Scan β}
      {k : Except Failure β → Answer ρ μ} {s : Session} {m : μ} {b : β} {r : Scan.State}
      (h : Involves handlers task st level (.answer a) (s, m)) (hscans : a.Scans s p k)
      (hread : p ⟨s.context.cursor, []⟩ = .ok b r) :
      Involves handlers task st level (.answer (k (.ok b))) (s.advance r, m)
  /-- An answer after something that it could not read. -/
  | missed {level : Nat} {β : Type} {a : Answer ρ μ} {p : Scan β}
      {k : Except Failure β → Answer ρ μ} {s : Session} {m : μ} {f : Failure} {r : Scan.State}
      (h : Involves handlers task st level (.answer a) (s, m)) (hscans : a.Scans s p k)
      (hread : p ⟨s.context.cursor, []⟩ = .error f r) :
      Involves handlers task st level (.answer (k (.error (f.inSource s.context.name))))
        ((s.advance r).report (f.inSource s.context.name), m)
  /-- An answer after something else that it has asked for. -/
  | requested {level : Nat} {a a' : Answer ρ μ} {s s' : Session} {m m' : μ}
      (h : Involves handlers task st level (.answer a) (s, m))
      (hrequest : a.request? (s, m) = some (a', s', m')) :
      Involves handlers task st level (.answer a') (s', m')

/-! ## Parts run -/

/-- Does the part have a run from this state? -/
def CanRun (handlers : Handlers ρ μ) (task : Task ρ μ) (st : Session × μ) : Prop :=
  ∃ history result st', Runs handlers task st history result st'

/-- Items run if the next of them does, and the others behind it. -/
theorem canRun_of_items {role : ρ} {cursor : Cursor} {s : Session} {m : μ} {item : Item}
    {r : Scan.State}
    (hread : Item.next? s.options.strictHeader s.context.name ⟨cursor, []⟩ = .ok (some item) r)
    (h : CanRun handlers (.items role cursor) (s, m)) :
    CanRun handlers (.item role item) (s.advance r, m) ∧
      ∀ history st', Runs handlers (.item role item) (s.advance r, m) history (.ok ()) st' →
        CanRun handlers (.items role r.cursor) st' := by
  obtain ⟨history, result, st', h⟩ := h
  cases h with
  | finished hread' => cases hread.symm.trans hread'
  | stopped hread' => cases hread.symm.trans hread'
  | more hread' hitem hrest =>
      cases hread.symm.trans hread'
      refine ⟨⟨_, _, _, hitem⟩, ?_⟩
      intro history st' hitem'
      obtain ⟨-, -, rfl⟩ := hitem.unique hitem'
      exact ⟨_, _, _, hrest⟩
  | broken hread' hitem =>
      cases hread.symm.trans hread'
      refine ⟨⟨_, _, _, hitem⟩, ?_⟩
      intro history st' hitem'
      obtain ⟨-, hresult, -⟩ := hitem.unique hitem'
      cases hresult

/-- An include directive that is not rejected runs if its answer does. -/
theorem canRun_of_inclusion {role : ρ} {t : Token} {s : Session} {m : μ}
    (hcause : s.rejection? t.unquoted = none)
    (h : CanRun handlers (.item role (.inclusion t)) (s, m)) :
    CanRun handlers (.answer (handlers role t.unquoted)) (s.enter t.unquoted, m) := by
  obtain ⟨history, result, st', h⟩ := h
  cases h with
  | performed hitem => cases hitem
  | rejected hcause' _ => cases hcause.symm.trans hcause'
  | included _ hanswer _ => exact ⟨_, _, _, hanswer⟩
  | spoiled _ hanswer _ => exact ⟨_, _, _, hanswer⟩
  | refused _ hanswer _ => exact ⟨_, _, _, hanswer⟩

/-- An answer that parses a file runs if the file does, and the rest of the answer behind it. -/
theorem canRun_of_parse {role : ρ} {source : SourceFile} {k : Except Failure Unit → Answer ρ μ}
    (h : CanRun handlers (.answer (.parse role source k)) st) :
    CanRun handlers (.file role source) st ∧
      ∀ history result st', Runs handlers (.file role source) st history result st' →
        CanRun handlers (.answer (k result)) st' := by
  obtain ⟨history, result, st', h⟩ := h
  cases h with
  | parsed hfile hrest =>
      refine ⟨⟨_, _, _, hfile⟩, ?_⟩
      intro history result st' hfile'
      obtain ⟨-, rfl, rfl⟩ := hfile.unique hfile'
      exact ⟨_, _, _, hrest⟩
  | scanned hscans _ _ => cases hscans
  | missed hscans _ _ _ => cases hscans
  | requested hrequest _ => cases hrequest

/-- An answer that reads runs if the rest of the answer does behind what it has read. -/
theorem canRun_of_scans {β : Type} {a : Answer ρ μ} {p : Scan β}
    {k : Except Failure β → Answer ρ μ} {s : Session} {m : μ} (hscans : a.Scans s p k)
    (h : CanRun handlers (.answer a) (s, m)) :
    match p ⟨s.context.cursor, []⟩ with
    | .ok b r => CanRun handlers (.answer (k (.ok b))) (s.advance r, m)
    | .error f r => CanRun handlers (.answer (k (.error (f.inSource s.context.name))))
        ((s.advance r).report (f.inSource s.context.name), m) := by
  obtain ⟨history, result, st', h⟩ := h
  cases h with
  | ended => cases hscans
  | parsed _ _ => cases hscans
  | scanned hscans' hread hrest =>
      obtain ⟨rfl, hp, hk⟩ := hscans.unique hscans'
      cases hp
      cases hk
      rw [hread]
      exact ⟨_, _, _, hrest⟩
  | missed hscans' hread hnamed hrest =>
      obtain ⟨rfl, hp, hk⟩ := hscans.unique hscans'
      cases hp
      cases hk
      cases hnamed
      rw [hread]
      exact ⟨_, _, _, hrest⟩
  | requested hrequest _ => cases (hscans.not_request? _).symm.trans hrequest

/-- An answer that asks for something else runs if the rest of the answer does. -/
theorem canRun_of_request {a a' : Answer ρ μ} (hrequest : a.request? st = some (a', st'))
    (h : CanRun handlers (.answer a) st) : CanRun handlers (.answer a') st' := by
  obtain ⟨history, result, st'', h⟩ := h
  cases h with
  | ended => cases hrequest
  | parsed _ _ => cases hrequest
  | scanned hscans _ _ => cases (hscans.not_request? _).symm.trans hrequest
  | missed hscans _ _ _ => cases (hscans.not_request? _).symm.trans hrequest
  | requested hrequest' hrest =>
      cases hrequest.symm.trans hrequest'
      exact ⟨_, _, _, hrest⟩

/-- **Every part of something that runs** has a run itself. -/
theorem Involves.canRun (h : Involves handlers task st level part st')
    (hrun : CanRun handlers task st) : CanRun handlers part st' := by
  induction h with
  | self => exact hrun
  | items _ hfailure ih =>
      obtain ⟨history, result, st', h⟩ := ih
      cases h with
      | known hfailure' => cases hfailure.symm.trans hfailure'
      | opened _ hitems => exact ⟨_, _, _, hitems⟩
  | item _ hread ih => exact (canRun_of_items hread ih).1
  | rest _ hread hitem ih => exact (canRun_of_items hread ih).2 _ _ hitem
  | answer _ hcause ih => exact canRun_of_inclusion hcause ih
  | file _ ih => exact (canRun_of_parse ih).1
  | parsed _ hfile ih => exact (canRun_of_parse ih).2 _ _ _ hfile
  | scanned _ hscans hread ih =>
      have hrest := canRun_of_scans hscans ih
      rw [hread] at hrest
      exact hrest
  | missed _ hscans hread ih =>
      have hrest := canRun_of_scans hscans ih
      rw [hread] at hrest
      exact hrest
  | requested _ hrequest ih => exact canRun_of_request hrequest ih

/-! ## Parts of parts -/

/-- A part of a part is a part, nested in the includes around both. -/
theorem Involves.trans (h : Involves handlers task st level part st') {inner : Task ρ μ}
    {more : Nat} {st'' : Session × μ} (h' : Involves handlers part st' more inner st'') :
    Involves handlers task st (level + more) inner st'' := by
  induction h' with
  | self => exact h
  | items _ hfailure ih => exact .items ih hfailure
  | item _ hread ih => exact .item ih hread
  | rest _ hread hitem ih => exact .rest ih hread hitem
  | answer _ hcause ih => exact .answer ih hcause
  | file _ ih => exact .file ih
  | parsed _ hfile ih => exact .parsed ih hfile
  | scanned _ hscans hread ih => exact .scanned ih hscans hread
  | missed _ hscans hread ih => exact .missed ih hscans hread
  | requested _ hrequest ih => exact .requested ih hrequest

/-- Is the include directive with the path token `t` performed in the session `s` in the course of
the part? -/
def PerformsInclude (handlers : Handlers ρ μ) (task : Task ρ μ) (st : Session × μ) (t : Token)
    (s : Session) : Prop :=
  ∃ level role m, Involves handlers task st level (.item role (.inclusion t)) (s, m)

/-- An include directive that a part of a part performs. -/
theorem Involves.performsInclude (h : Involves handlers task st level part st') {t : Token}
    {s : Session} (h' : PerformsInclude handlers part st' t s) :
    PerformsInclude handlers task st t s := by
  obtain ⟨more, role, m, hinner⟩ := h'
  exact ⟨_, role, m, h.trans hinner⟩

/-- **Every include directive that a history tells of** is a part of its run. -/
theorem Runs.performsInclude_of_reached {history : List Moment} {result : Except Failure Unit}
    (h : Runs handlers task st history result st') {t : Token} {verdict : Option Cause}
    {s : Session} (hx : ⟨.reached t verdict, s⟩ ∈ history) :
    PerformsInclude handlers task st t s := by
  induction h with
  | known _ | ended => cases hx
  | finished _ | stopped _ | performed _ => simp at hx
  | opened hfailure _ ih =>
      rcases List.mem_cons.mp hx with hx | hx
      · cases hx
      · exact (Involves.self.items hfailure).performsInclude (ih hx)
  | more hread hitem _ ihitem ihrest =>
      rcases List.mem_cons.mp hx with hx | hx
      · cases hx
      · rcases List.mem_append.mp hx with hx | hx
        · exact (Involves.self.item hread).performsInclude (ihitem hx)
        · exact (Involves.self.rest hread hitem).performsInclude (ihrest hx)
  | broken hread _ ih =>
      rcases List.mem_cons.mp hx with hx | hx
      · cases hx
      · exact (Involves.self.item hread).performsInclude (ih hx)
  | rejected _ _ =>
      obtain ⟨⟨rfl, -⟩, rfl⟩ : (t = _ ∧ verdict = _) ∧ s = _ := by simpa using hx
      exact ⟨_, _, _, .self⟩
  | included hcause _ _ ih | spoiled hcause _ _ ih | refused hcause _ _ ih =>
      rcases List.mem_cons.mp hx with hx | hx
      · cases hx
        exact ⟨_, _, _, .self⟩
      · exact (Involves.self.answer hcause).performsInclude (ih (by simpa using hx))
  | parsed hfile _ ihfile ihrest =>
      rcases List.mem_append.mp hx with hx | hx
      · exact (Involves.self.file).performsInclude (ihfile hx)
      · exact (Involves.self.parsed hfile).performsInclude (ihrest hx)
  | scanned hscans hread _ ih =>
      rcases List.mem_cons.mp hx with hx | hx
      · cases hx
      · exact (Involves.self.scanned hscans hread).performsInclude (ih hx)
  | missed hscans hread hnamed _ ih =>
      subst hnamed
      have hlater := (List.mem_cons.mp hx).resolve_left (by simp)
      exact (Involves.self.missed hscans hread).performsInclude (ih (by simpa using hlater))
  | requested hrequest _ ih =>
      rcases List.mem_cons.mp hx with hx | hx
      · cases hx
      · exact (Involves.self.requested hrequest).performsInclude (ih hx)

/-- **The session knows how deep it is nested**: by as many includes as there are around a part. The
options stay as they were. -/
theorem Involves.depth_options_eq (h : Involves handlers task st level part st') :
    st'.1.depth = st.1.depth + level ∧ st'.1.options = st.1.options := by
  induction h with
  | self => exact ⟨rfl, rfl⟩
  | items _ _ ih | item _ _ ih | file _ ih | scanned _ _ _ ih | missed _ _ _ ih => exact ih
  | answer _ _ ih => exact ⟨congrArg (· + 1) ih.1, ih.2⟩
  | rest _ _ hitem ih =>
      obtain ⟨hdepth, hoptions⟩ := hitem.depth_options_eq
      exact ⟨hdepth.trans ih.1, hoptions.trans ih.2⟩
  | parsed _ hfile ih =>
      obtain ⟨hdepth, hoptions⟩ := hfile.depth_options_eq
      exact ⟨hdepth.trans ih.1, hoptions.trans ih.2⟩
  | requested _ hrequest ih =>
      obtain ⟨hdepth, hoptions⟩ := Answer.depth_options_of_request? hrequest
      exact ⟨hdepth.trans ih.1, hoptions.trans ih.2⟩

/-! ## Where items are parsed -/

/-- Is the file `source` being read, with the reading somewhere in its stream? -/
structure Context.StandsIn (c : Context) (source : SourceFile) : Prop where
  /-- The file is known by its name. -/
  name : c.name = source.name
  /-- It comes from where the file comes from. -/
  location : c.location = source.location
  /-- What is still to be read is left over from the file. -/
  reaches : (Cursor.ofBytes source.contents).Reaches c.cursor

/-- Does the session stand at the cursor in the file `source`, and is no failure known? -/
structure Session.StandsAt (s : Session) (source : SourceFile) (cursor : Cursor) : Prop where
  /-- No failure is known. -/
  failure : s.diagnostics.failure = none
  /-- The session stands at the cursor. -/
  cursor : s.context.cursor = cursor
  /-- It stands in the file. -/
  standsIn : s.context.StandsIn source

/-- A session stands at the start of a file that it takes up. -/
theorem Session.standsAt_ofFile {s : Session} (hs : s.diagnostics.failure = none)
    (source : SourceFile) :
    (s.resume (Context.ofFile source)).StandsAt source (Cursor.ofBytes source.contents) :=
  ⟨hs, rfl, rfl, rfl, Cursor.Reaches.refl _⟩

/-- Reading an item stays in the file where a session stands, whatever comes of it. -/
theorem Session.StandsAt.next? {s : Session} {source : SourceFile} {cursor : Cursor}
    (h : s.StandsAt source cursor) {out : EStateM.Result Failure Scan.State (Option Item)}
    (hread : Item.next? s.options.strictHeader s.context.name ⟨cursor, []⟩ = out) :
    (s.advance (Scan.endState out)).context.StandsIn source ∧
      Scan.Sound (Cursor.ofBytes source.contents) (fun item? c' => ∀ item ∈ item?,
        item.EndsAtPath (Cursor.ofBytes source.contents) c') out := by
  have hreaches : (Cursor.ofBytes source.contents).Reaches cursor := h.cursor ▸ h.standsIn.reaches
  have hforward := Item.advances_next? s.options.strictHeader s.context.name ⟨cursor, []⟩
  have hsound := Item.keeps_next? s.options.strictHeader s.context.name ⟨cursor, []⟩ hreaches
  rw [hread] at hforward hsound
  exact ⟨⟨h.standsIn.name, h.standsIn.location, hreaches.trans hforward⟩, hsound⟩

/-- A session that has read an item stands right behind it, after an include directive right behind
its path. -/
theorem Session.StandsAt.item {s : Session} {source : SourceFile} {cursor : Cursor} {item : Item}
    {r : Scan.State} (h : s.StandsAt source cursor)
    (hread : Item.next? s.options.strictHeader s.context.name ⟨cursor, []⟩ = .ok (some item) r) :
    (s.advance r).StandsAt source r.cursor ∧
      item.EndsAtPath (Cursor.ofBytes source.contents) r.cursor := by
  obtain ⟨hstands, hsound⟩ := h.next? hread
  exact ⟨⟨h.failure, rfl, hstands⟩, hsound item rfl⟩

/-- **An item that succeeds** leaves the reading of its file where it was, and no failure is known
after it if none was before. -/
theorem Runs.of_item_ok {role : ρ} {item : Item} {s : Session} {m : μ} {history : List Moment}
    (h : Runs handlers (.item role item) (s, m) history (.ok ()) st')
    (hs : s.diagnostics.failure = none) :
    st'.1.context = s.context ∧ st'.1.diagnostics.failure = none := by
  refine ⟨h.context_of_item_ok, ?_⟩
  cases h with
  | performed hitem => exact (Session.failure_of_plain? hitem).trans hs
  | included _ _ hfailure => exact hfailure

/-- A session stands where it stood when an item has succeeded. -/
theorem Session.StandsAt.rest {role : ρ} {item : Item} {s : Session} {m : μ}
    {history : List Moment} {source : SourceFile} {cursor : Cursor} (h : s.StandsAt source cursor)
    (hitem : Runs handlers (.item role item) (s, m) history (.ok ()) st') :
    st'.1.StandsAt source cursor := by
  obtain ⟨hcontext, hfailure⟩ := hitem.of_item_ok h.failure
  exact ⟨hfailure, hcontext ▸ h.cursor, hcontext ▸ h.standsIn⟩

/-- Where a part starts that belongs to a file: the items from some place on right there, an item
right behind itself. -/
def Task.Starts (part : Task ρ μ) (s : Session) : Prop :=
  match part with
  | .items _ cursor => ∃ source, s.StandsAt source cursor
  | .item _ i => ∃ source, s.StandsAt source s.context.cursor ∧
      i.EndsAtPath (Cursor.ofBytes source.contents) s.context.cursor
  | _ => True

/-- **Wherever the items of a file are parsed**, the session stands in that file right behind what
was read of it, and no failure is known. -/
theorem Involves.starts (h : Involves handlers task st level part st') (htask : task.Starts st.1) :
    part.Starts st'.1 := by
  induction h with
  | self => exact htask
  | items _ hfailure _ => exact ⟨_, Session.standsAt_ofFile hfailure _⟩
  | item _ hread ih =>
      obtain ⟨source, hstands⟩ := ih
      exact ⟨source, hstands.item hread⟩
  | rest _ hread hitem ih =>
      obtain ⟨source, hstands⟩ := ih
      exact ⟨source, (hstands.item hread).1.rest hitem⟩
  | answer | file | parsed | scanned | missed | requested => trivial

end ZDecl
