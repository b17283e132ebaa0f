import ZDecl.Proofs.Grammar.Promptness
import ZDecl.Proofs.Session.Balance

/-!
# Where a single file fails

The failure of a single file is that of its first item that cannot be read, or of its first include
directive. In both cases it points at something that is there to be seen: a token that is neither
white space nor a comment, or the end of the file, where a token is missing.

* `Cursor.PointsAt`: the spans that such a failure may have.
* `Item.pointsAt_of_error`: an item that cannot be read.
* `Parse.exists_failure_of_refusing`: an include directive, whatever is wrong with it.
* `Parse.perform_refusing`, `Parse.pointsAt_of_items`: one item of a file, and all of them.
* **`parseSource_pointsAt`**: the whole file. An empty file does not fail.
-/

namespace ZDecl

/-- Is the span that of a token that is not passed over, or the end of the stream? -/
def Cursor.PointsAt (c : Cursor) (span : Span) : Prop :=
  (∃ t ∈ unskipped c.tokens, span = t.span) ∨ span = Span.point c.stop

/-- What comes later comes before the end of the same stream. -/
theorem Cursor.PointsAt.before {c c' : Cursor} {span : Span} (h : c'.PointsAt span)
    (htokens : unskipped c'.tokens ⊆ unskipped c.tokens) (hstop : c'.stop = c.stop) :
    c.PointsAt span := by
  rcases h with ⟨t, ht, hspan⟩ | hspan
  · exact .inl ⟨t, htokens ht, hspan⟩
  · exact .inr (hstop ▸ hspan)

/-- An item that cannot be read. The failure does not name the file yet. -/
theorem Item.pointsAt_of_error {strict : Bool} {source : String} {cursor : Cursor} {f : Failure}
    {r : Scan.State} (h : Item.next? strict source ⟨cursor, []⟩ = .error f r) :
    f.source = none ∧ unskipped cursor.tokens ≠ [] ∧ cursor.PointsAt f.span := by
  have hsound := Item.keeps_next? strict source ⟨cursor, []⟩ (.refl cursor)
  rw [h] at hsound
  have hsome : unskipped cursor.tokens ≠ [] := by
    intro hnone
    obtain ⟨r', hr'⟩ := (Grammar.next?_eq_none_iff (s := ⟨cursor, []⟩)).mpr hnone
    cases h.symm.trans hr'
  obtain ⟨front, tail, hpending, hspan, -, -⟩ :=
    Grammar.prompt_next? (Token.writable_sample .string) (Token.kind_sample .string rfl)
      ⟨cursor, []⟩ r f h
  refine ⟨hsound.1, hsome, ?_⟩
  have htokens : unskipped cursor.tokens = front ++ tail := hpending
  cases tail with
  | nil => exact .inr hspan
  | cons t tail => exact .inl ⟨t, by simp [htokens], hspan⟩

/-- The tokens of an item that was read, and those behind it. -/
theorem Item.tokens_of_ok {strict : Bool} {source : String} {cursor : Cursor} {item : Item}
    {r : Scan.State} (h : Item.next? strict source ⟨cursor, []⟩ = .ok (some item) r) :
    unskipped r.cursor.tokens ⊆ unskipped cursor.tokens ∧ unskipped cursor.tokens ≠ [] ∧
      ∀ t, item = .inclusion t → t ∈ unskipped cursor.tokens := by
  obtain ⟨used, hused, -, hderives⟩ := Grammar.exists_derives_of_next? h
  have htokens : unskipped cursor.tokens = used ++ unskipped r.cursor.tokens := hused
  rw [htokens]
  refine ⟨List.subset_append_right _ _, ?_, ?_⟩
  · intro hnone
    rw [(List.append_eq_nil_iff.mp hnone).1] at hderives
    cases hderives
  · rintro t rfl
    cases hderives with
    | inclusion _ _ _ => simp

namespace Parse

/-- **An include directive of a single file** fails at its path. -/
theorem exists_failure_of_refusing (levels : Nat) (t : Token) {s : Session}
    (hs : s.diagnostics.failure = none) :
    ∃ f g s', refusing levels t (s, ()) = .error g (s', ()) ∧ s'.diagnostics.failure = some f ∧
      f.source = some s.context.name ∧ f.span = t.span := by
  have hfail : ∀ cause : Cause, ∃ f g s',
      (inSession (Session.fail { cause, span := t.span }) : Parse Unit Unit) (s, ()) =
        .error g (s', ()) ∧ s'.diagnostics.failure = some f ∧ f.source = some s.context.name ∧
          f.span = t.span := by
    intro cause
    refine ⟨Failure.inSource { cause, span := t.span } s.context.name, _, _, rfl, ?_, rfl, rfl⟩
    rw [Session.failure_report, hs, Option.getD_none]
  cases hobjection : s.objection? t.unquoted with
  | some cause =>
      have h : refusing levels t (s, ()) =
          inSession (Session.fail { cause, span := t.span }) (s, ()) := by
        cases levels <;> simp only [refusing, includes, inclusion, hobjection]
      rw [h]
      exact hfail cause
  | none =>
      cases levels with
      | zero =>
          simp only [refusing, includes, inclusion, hobjection]
          exact hfail _
      | succ levels =>
          simp only [refusing, includes, inclusion, hobjection]
          refine ⟨(Failure.placedAt { cause := .includesRefused t.unquoted, span := Span.unknown }
            t.span).inSource s.context.name, _, _, rfl, ?_, rfl, rfl⟩
          have hinside : (s.enter t.unquoted).leave.diagnostics.failure = none := hs
          rw [Session.failure_report, hinside, Option.getD_none]

/-- **One item of a file** is performed without a failure, or it is an include directive and fails
at its path. -/
theorem perform_refusing (levels : Nat) (item : Item) {s : Session}
    (hs : s.diagnostics.failure = none) :
    (∃ s', s.plain? item = some s' ∧ perform (refusing levels) item (s, ()) = .ok () (s', ())) ∨
      ∃ t f g s', item = .inclusion t ∧
        perform (refusing levels) item (s, ()) = .error g (s', ()) ∧
          s'.diagnostics.failure = some f ∧ f.source = some s.context.name ∧ f.span = t.span := by
  cases item with
  | word t => exact .inl ⟨_, rfl, rfl⟩
  | version v => exact .inl ⟨_, rfl, rfl⟩
  | declaration d => exact .inl ⟨_, rfl, rfl⟩
  | inclusion t =>
      obtain ⟨f, g, s', hrefused, hplace⟩ := exists_failure_of_refusing levels t hs
      exact .inr ⟨t, f, g, s', rfl, hrefused, hplace⟩

/-- **The items of a file** fail at a token that is not passed over, or at the end of the file. -/
theorem pointsAt_of_items (levels : Nat) {cursor : Cursor} {s : Session}
    (hs : s.diagnostics.failure = none) {f : Failure}
    (hf : (sessionAfter (items (refusing levels) cursor (s, ()))).diagnostics.failure = some f) :
    f.source = some s.context.name ∧ unskipped cursor.tokens ≠ [] ∧ cursor.PointsAt f.span := by
  -- On the tokens that are left; every item takes some of them.
  induction hn : cursor.tokens.length using Nat.strongRecOn generalizing cursor s with
  | ind n ih =>
      cases hread : Item.next? s.options.strictHeader s.context.name ⟨cursor, []⟩ with
      | error g r =>
          obtain ⟨hsource, hsome, hspan⟩ := Item.pointsAt_of_error hread
          rw [items_of_error hread] at hf
          have hfinal : ((s.advance r).report (g.inSource s.context.name)).diagnostics.failure =
              some f := hf
          have hadvance : (s.advance r).diagnostics.failure = none := hs
          rw [Session.failure_report, hadvance, Option.getD_none] at hfinal
          obtain rfl := Option.some.inj hfinal
          refine ⟨?_, hsome, hspan⟩
          unfold Failure.inSource
          rw [hsource, Option.none_or]
      | ok item? r =>
          cases item? with
          | none =>
              rw [items_of_none hread] at hf
              cases hs.symm.trans hf
          | some item =>
              obtain ⟨hsubset, hsome, hpath⟩ := Item.tokens_of_ok hread
              have hadvance : (s.advance r).diagnostics.failure = none := hs
              rw [items_of_some hread] at hf
              rcases perform_refusing levels item hadvance with
                ⟨s', hplain, hperform⟩ | ⟨t, f', g, s', rfl, hperform, hknown, hsource, hspan⟩
              · rw [bind_of_ok hperform] at hf
                have hlength : r.cursor.tokens.length < n := hn ▸ Item.length_lt_of_next? hread
                have hstill := (Session.failure_of_plain? hplain).trans hadvance
                obtain ⟨hsource, -, hspan⟩ := ih _ hlength hstill hf rfl
                have hstop : r.cursor.stop = cursor.stop :=
                  Scan.stop_of_ok (Item.advances_next? _ _) hread
                rw [Session.context_of_plain? hplain] at hsource
                exact ⟨hsource, hsome, hspan.before hsubset hstop⟩
              · rw [bind_of_error hperform] at hf
                obtain rfl := Option.some.inj (hknown.symm.trans hf)
                exact ⟨hsource, hsome, .inl ⟨t, hpath t rfl, hspan⟩⟩

end Parse

/-- **A single file fails at a token that is not passed over, or at its end**, and it is not
empty. -/
theorem parseSource_pointsAt {name : String} {contents : Bytes} {options : Options} {f : Failure}
    (hf : (parseSource name contents options).failure = some f) :
    f.source = some name ∧ contents ≠ [] ∧ (Cursor.ofBytes contents).PointsAt f.span := by
  rw [parseSource_eq] at hf
  obtain ⟨hsource, hsome, hspan⟩ := Parse.pointsAt_of_items options.maxIncludeDepth rfl hf
  refine ⟨hsource, ?_, hspan⟩
  rintro rfl
  have hnone : (Cursor.ofBytes []).tokens = [] := by
    show tokensFrom (firstPosition []) [] = []
    rw [tokensFrom]
  rw [hnone] at hsome
  exact hsome rfl

end ZDecl
