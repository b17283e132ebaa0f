import Mathlib.Data.List.Nodup
import Mathlib.Data.Prod.Basic
import ZDecl.Proofs.Include.Expansion
import ZDecl.Proofs.Token.Tiling

/-!
# Declarations are recorded where they stand

A session records a declaration under the name of its file and the span of its own name. The items
of a file are read one behind the other, so a file is recorded without repetition each time it is
parsed. Therefore no declaration is recorded twice as long as no two files of the same name are
parsed, in whatever way they include each other.

* `recorded`: the declarations that are recorded in a history, in order.
* `Runs.declarations_eq`: if answers parse only, these are the declarations that a session finds.
* `RecordsOnce`: what a part of a session records.
* **`Runs.recordsOnce`**: every part records its declarations so.

The items of a file that are still to be read and the files that they include take turns. The
invariant says of the former by their spans, and of the latter by their names, that they come once,
so that what is recorded in two stretches adds up.
-/

namespace ZDecl

open Grammar

variable {ρ μ : Type} {handlers : Handlers ρ μ}

/-! ## What is recorded -/

/-- The declarations that are recorded in a history, in order. -/
def recorded (history : List Moment) : List Declaration :=
  history.filterMap fun x =>
    match x.event with
    | .performed (.declaration d) => some d
    | _ => none

/-- The declarations recorded in two histories, one behind the other. -/
@[simp] theorem recorded_append (history later : List Moment) :
    recorded (history ++ later) = recorded history ++ recorded later :=
  List.filterMap_append

/-- An item is recorded if it is a declaration. -/
theorem recorded_performed (item : Item) (s : Session) :
    recorded [⟨.performed item, s⟩] = declared [item] := by
  cases item with
  | _ => rfl

/-- **What a session finds** is what is recorded, if answers do nothing but parse files. -/
theorem Runs.declarations_eq (hhandlers : ∀ role path, (handlers role path).ParsesOnly)
    {task : Task ρ μ} {st st' : Session × μ} {history : List Moment} {result : Except Failure Unit}
    (h : Runs handlers task st history result st') (htask : task.ParsesOnly) :
    st'.1.declarations = st.1.declarations ++ recorded history := by
  induction h with
  | known _ | finished _ | stopped _ | rejected _ _ | ended => exact (List.append_nil _).symm
  | opened _ _ ih => exact ih trivial
  | more _ _ _ ihitem ihrest =>
      rw [ihrest trivial, ihitem trivial, List.append_assoc, ← recorded_append]
      rfl
  | broken _ _ ih => exact ih trivial
  | performed hitem =>
      rw [recorded_performed]
      exact (finds_of_plain? hitem).declarations
  | included _ _ _ ih | spoiled _ _ _ ih | refused _ _ _ ih =>
      refine (ih (hhandlers _ _)).trans (congrArg _ ?_)
      exact ((recorded_append _ _).trans (List.append_nil _)).symm
  | parsed _ _ ihfile ihrest =>
      cases htask with
      | parse hk =>
          rw [ihrest (hk _), ihfile trivial, List.append_assoc, ← recorded_append]
  | scanned hscans _ _ _ => exact (Answer.ParsesOnly.not_scans htask hscans).elim
  | missed hscans _ _ _ _ => exact (Answer.ParsesOnly.not_scans htask hscans).elim
  | requested hrequest _ ih =>
      obtain ⟨ha, rfl⟩ := Answer.ParsesOnly.of_request? htask hrequest
      exact ih ha

/-! ## Places of declarations -/

/-- Tokens that tile a stretch start in it. -/
theorem Tiles.le_start {start stop : Nat} {tokens : List Token} (h : Tiles start tokens stop) :
    ∀ t ∈ tokens, start ≤ t.start.offset := by
  induction h with
  | nil stop => simp
  | cons hstart _ _ ih =>
      refine List.forall_mem_cons.mpr ⟨hstart.ge, ?_⟩
      exact fun u hu => Nat.le_of_add_right_le (ih u hu)

/-- No two of them have the same span. -/
theorem Tiles.nodup_map_span {start stop : Nat} {tokens : List Token}
    (h : Tiles start tokens stop) : (tokens.map Token.span).Nodup := by
  induction h with
  | nil stop => exact List.nodup_nil
  | @cons start stop t tokens hstart hlength hrest ih =>
      refine List.nodup_cons.mpr ⟨?_, ih⟩
      intro hmem
      obtain ⟨u, hu, hspan⟩ := List.mem_map.mp hmem
      have hsame : u.start.offset = t.start.offset := congrArg (·.start.offset) hspan
      have hbehind := hrest.le_start u hu
      omega

/-- Where a declaration stands: in which file and where in it. -/
def Declaration.place (d : Declaration) : String × Span := (d.source, d.span)

/-- The places of the tokens of a file at which a declaration can stand. -/
def places (name : String) (tokens : List Token) : List (String × Span) :=
  (unskipped tokens).map fun t => (name, t.span)

/-- They are places in the file. -/
theorem fst_of_mem_places {name : String} {tokens : List Token} {place : String × Span}
    (h : place ∈ places name tokens) : place.1 = name := by
  obtain ⟨t, -, rfl⟩ := List.mem_map.mp h
  rfl

/-- No two tokens of a stream have the same place. -/
theorem nodup_places (name : String) (contents : Bytes) :
    (places name (Cursor.ofBytes contents).tokens).Nodup := by
  have htokens : ((unskipped (Cursor.ofBytes contents).tokens).map Token.span).Nodup :=
    (tiles_ofBytes contents).nodup_map_span.sublist (List.filter_sublist.map _)
  have hplaces : places name (Cursor.ofBytes contents).tokens =
      ((unskipped (Cursor.ofBytes contents).tokens).map Token.span).map (Prod.mk name) := by
    rw [List.map_map]
    rfl
  rw [hplaces]
  exact htokens.map (Prod.mk_right_injective name)

/-- What is recorded in a part of a session: declarations at some places of its own, and others in
the files that are opened in it; each of them once if its own places are different, and no file is
opened twice or has a place among them. -/
structure RecordsOnce (own : List (String × Span)) (history : List Moment) : Prop where
  /-- Nothing else is recorded. -/
  placed : ∀ d ∈ recorded history, d.place ∈ own ∨ d.source ∈ opened history
  /-- Nothing is recorded twice. -/
  once : own.Nodup → (opened history).Nodup → (∀ place ∈ own, place.1 ∉ opened history) →
    ((recorded history).map Declaration.place).Nodup

namespace RecordsOnce

variable {own more : List (String × Span)} {history later : List Moment}

/-- Whatever is recorded may have places of its own. -/
theorem all (history : List Moment) :
    RecordsOnce ((recorded history).map Declaration.place) history where
  placed _ hd := .inl (List.mem_map_of_mem hd)
  once hnodup _ _ := hnodup

/-- Where nothing is recorded, nothing is recorded twice. -/
theorem quiet (h : recorded history = []) : RecordsOnce [] history where
  placed := by
    rw [h]
    exact fun _ hd => (List.not_mem_nil hd).elim
  once _ _ _ := by
    rw [h]
    exact List.nodup_nil

/-- There may be more places of its own. -/
theorem mono (h : RecordsOnce own history) (hmore : own.Sublist more) :
    RecordsOnce more history where
  placed d hd := (h.placed d hd).imp_left fun hplace => hmore.subset hplace
  once hnodup hopened hapart := h.once (hnodup.sublist hmore) hopened fun place hplace =>
    hapart place (hmore.subset hplace)

/-- A moment in which nothing is opened and recorded. -/
theorem cons {x : Moment} (h : RecordsOnce own history) (hopened : ZDecl.opened [x] = [])
    (hrecorded : recorded [x] = []) : RecordsOnce own (x :: history) := by
  have hopened' : ZDecl.opened (x :: history) = ZDecl.opened history := by
    rw [← List.singleton_append, opened_append, hopened, List.nil_append]
  have hrecorded' : recorded (x :: history) = recorded history := by
    rw [← List.singleton_append, recorded_append, hrecorded, List.nil_append]
  refine ⟨?_, ?_⟩
  · rw [hrecorded', hopened']
    exact h.placed
  · rw [hrecorded', hopened']
    exact h.once

/-- What is recorded in two stretches. -/
theorem append (h : RecordsOnce own history) (h' : RecordsOnce more later) :
    RecordsOnce (own ++ more) (history ++ later) := by
  refine ⟨?_, ?_⟩
  · intro d hd
    rw [recorded_append] at hd
    rw [opened_append, List.mem_append, List.mem_append]
    rcases List.mem_append.mp hd with hd | hd
    · exact (h.placed d hd).imp .inl .inl
    · exact (h'.placed d hd).imp .inr .inr
  · intro hnodup hopened hapart
    rw [opened_append] at hopened hapart
    obtain ⟨hown, hmore, hdisjoint⟩ := List.nodup_append.mp hnodup
    obtain ⟨hhistory, hlater, hfiles⟩ := List.nodup_append.mp hopened
    rw [recorded_append, List.map_append]
    refine List.nodup_append.mpr ⟨?_, ?_, ?_⟩
    · refine h.once hown hhistory fun place hplace hmem => ?_
      exact hapart place (List.mem_append_left _ hplace) (List.mem_append_left _ hmem)
    · refine h'.once hmore hlater fun place hplace hmem => ?_
      exact hapart place (List.mem_append_right _ hplace) (List.mem_append_right _ hmem)
    · intro place hplace place' hplace' hsame
      obtain ⟨d, hd, rfl⟩ := List.mem_map.mp hplace
      obtain ⟨d', hd', rfl⟩ := List.mem_map.mp hplace'
      have hsource : d.source = d'.source := congrArg Prod.fst hsame
      rcases h.placed d hd with hd | hd
      · rcases h'.placed d' hd' with hd' | hd'
        · exact hdisjoint _ hd _ hd' hsame
        · rw [← hsource] at hd'
          exact hapart d.place (List.mem_append_left _ hd) (List.mem_append_right _ hd')
      · rcases h'.placed d' hd' with hd' | hd'
        · rw [hsource] at hd
          exact hapart d'.place (List.mem_append_right _ hd') (List.mem_append_left _ hd)
        · exact hfiles _ hd _ hd' hsource

/-- A file is opened, and has the places of its tokens. -/
theorem opened {source : SourceFile} {s : Session}
    (h : RecordsOnce (places source.name (Cursor.ofBytes source.contents).tokens) history) :
    RecordsOnce [] (⟨.opened source, s⟩ :: history) := by
  refine ⟨?_, ?_⟩
  · intro d hd
    right
    rcases h.placed d hd with hplace | hsource
    · exact List.mem_cons.mpr (.inl (fst_of_mem_places hplace))
    · exact List.mem_cons_of_mem _ hsource
  · intro _ hopened _
    obtain ⟨hnew, hopened⟩ := List.nodup_cons.mp hopened
    refine h.once (nodup_places _ _) hopened fun place hplace => ?_
    rw [fst_of_mem_places hplace]
    exact hnew

end RecordsOnce

/-! ## Runs -/

/-- The part of a session, as far as it records declarations: the items of a file have the places
of the tokens that are still to be read, an item has its own. -/
def Task.RecordsOnce (s : Session) : Task ρ μ → List Moment → Prop
  | .items _ cursor, history => ZDecl.RecordsOnce (places s.context.name cursor.tokens) history
  | .item _ i, history => ZDecl.RecordsOnce ((declared [i]).map Declaration.place) history
  | _, history => ZDecl.RecordsOnce [] history

/-- An item stands before those that are read after it. -/
theorem places_of_next? {strict : Bool} {name : String} {cursor : Cursor} {item : Item}
    {r : Scan.State} (hread : Item.next? strict name ⟨cursor, []⟩ = .ok (some item) r) :
    ∃ used, places name cursor.tokens = used ++ places name r.cursor.tokens ∧
      ((declared [item]).map Declaration.place).Sublist used := by
  obtain ⟨used, hused, -, hderives⟩ := exists_derives_of_next? hread
  have htokens : unskipped cursor.tokens = used ++ unskipped r.cursor.tokens := hused
  refine ⟨used.map fun t => (name, t.span), ?_, ?_⟩
  · rw [places, htokens, List.map_append]
    rfl
  · cases item with
    | declaration d =>
        have hstands := standsIn_of_derives hderives
        obtain ⟨t, ht, -, hspan⟩ := hstands.name
        refine List.singleton_sublist.mpr (List.mem_map.mpr ⟨t, ht, ?_⟩)
        rw [← hstands.source, ← hspan]
        rfl
    | word t | version v | inclusion t => exact List.nil_sublist _

/-- **A run records no declaration twice**, unless it opens two files of the same name. -/
theorem Runs.recordsOnce {task : Task ρ μ} {st st' : Session × μ} {history : List Moment}
    {result : Except Failure Unit} (h : Runs handlers task st history result st') :
    task.RecordsOnce st.1 history := by
  induction h with
  | known _ | ended => exact .quiet rfl
  | opened _ _ ih => exact ih.opened
  | finished _ | stopped _ => exact (RecordsOnce.quiet rfl).mono (List.nil_sublist _)
  | @more _ _ s _ item r history later _ st _ hread hitem _ ihitem ihrest =>
      obtain ⟨used, hplaces, hown⟩ := places_of_next? hread
      have hname : st.1.context.name = s.context.name :=
        congrArg (·.name) hitem.context_of_item_ok
      have hrest : RecordsOnce (places s.context.name r.cursor.tokens) later := hname ▸ ihrest
      show RecordsOnce (places s.context.name _) _
      rw [hplaces]
      exact ((ihitem.mono hown).append hrest).cons rfl rfl
  | broken hread _ ih =>
      obtain ⟨used, hplaces, hown⟩ := places_of_next? hread
      show RecordsOnce (places _ _) _
      rw [hplaces]
      exact (ih.mono (hown.trans (List.sublist_append_left _ _))).cons rfl rfl
  | @performed _ item s s' _ _ =>
      have hown := RecordsOnce.all [⟨.performed item, s'⟩]
      rw [recorded_performed] at hown
      exact hown
  | rejected _ _ => exact .quiet rfl
  | included _ _ _ ih | spoiled _ _ _ ih | refused _ _ _ ih =>
      exact ((ih.append (.quiet rfl)).cons rfl rfl).cons rfl rfl
  | parsed _ _ ihfile ihrest => exact ihfile.append ihrest
  | scanned _ _ _ ih | requested _ _ ih => exact ih.cons rfl rfl
  | missed _ _ _ _ ih => exact (ih.cons rfl rfl).cons rfl rfl

end ZDecl
