import ZDecl.Proofs.Grammar.Promptness
import ZDecl.Proofs.Include.FreshPath
import ZDecl.Proofs.Include.Recording
import ZDecl.Proofs.Session.Acceptable
import ZDecl.Proofs.Token.Printing
import ZDecl.Proofs.Token.Splice

/-!
# Sessions fail as early as they can

Where includes are accepted as they are, a failure names the first place at which the file was lost.
What stands before it could still have become a file that is accepted, and with the token that
stands there it cannot.

* `Grammar.Earliest`: the place between two parts of the significant tokens.
* `exists_earliest_of_error`, `exists_earliest_of_objection`: items that cannot be read, and include
  directives that may not be performed.
* `Earliest.prepend`: the place stays the same where an item is put in front.
* **`Parse.failsEarliest_of_items`**: the items of a file, one after the other.
* `Begins`: how the significant tokens of a source begin; by `exists_written` there is a source for
  all tokens that a completion may consist of.
* **`root_fails_earliest`**: the failure of a root file.
-/

namespace ZDecl

open Grammar

variable {ρ μ : Type}

/-! ## The earliest place -/

/-- Is the place before `tail` the first one at which there is no hope for the file? -/
structure Grammar.Earliest (strict : Bool) (v : Visited) (front tail : List Token) : Prop where
  /-- What stands before it can be completed. -/
  begins : ∃ more, (∀ t ∈ more, t.Writable) ∧ Acceptable strict v (front ++ more)
  /-- With the token that stands there it cannot. -/
  lost : ∀ t ∈ tail.head?, ∀ rest, ¬Acceptable strict v (front ++ t :: rest)

namespace Grammar

variable {strict : Bool} {source : String} {s : Session} {st st' : Scan.State} {item : Item}
  {front tail : List Token}

/-- The path of a file that may be included may be included on its own. -/
theorem includable_of_includesOnly {u : Token} (hvalid : IncludePath.fault? u.unquoted = none)
    (hfresh : IncludePath.key u.unquoted ∉ s.visited.keys) (hitem : IncludesOnly u item) :
    ∀ p ∈ includedPaths [item], s.objection? p = none := by
  intro p hp
  cases item with
  | inclusion t =>
      obtain rfl := hitem t rfl
      obtain rfl : p = t.unquoted := by simpa [includedPaths] using hp
      exact Session.objection?_eq_none_iff.mpr ⟨hvalid, hfresh⟩
  | word t | version v | declaration d => simp [includedPaths] at hp

/-- An item that cannot be read fails at the earliest place. -/
theorem exists_earliest_of_error {f : Failure}
    (hread : Item.next? strict source st = .error f st') :
    ∃ front tail, st.pending = front ++ tail ∧ f.span = st.cursor.spanAt tail ∧
      Earliest strict s.visited front tail := by
  obtain ⟨u, hu, hkind, hvalid, hfresh⟩ := exists_fresh_path s.visited.keys
  obtain ⟨front, tail, hpending, hspan, ⟨more, found, hmore, ⟨item, rfl, honly⟩, hok⟩, hlost⟩ :=
    prompt_next? hu hkind st st' f hread
  refine ⟨front, tail, hpending, hspan, ⟨more, hmore, ?_⟩, fun t ht rest h => ?_⟩
  · have hfront : ∀ t ∈ front, t.isSkipped = false := fun t ht =>
      st.isSkipped_of_mem_pending (hpending ▸ List.mem_append_left tail ht)
    obtain ⟨st₁, hst₁⟩ := Scan.State.exists_pending
      (List.forall_mem_append.mpr ⟨hfront, fun t ht => (hmore t ht).isSkipped⟩)
    obtain ⟨st₂, hread₂, hst₂⟩ := hok st₁ [] (by rw [hst₁, List.append_nil]) rfl
    rw [← hst₁, acceptable_iff_of_next? hread₂, hst₂]
    exact ⟨includable_of_includesOnly hvalid hfresh honly, acceptable_nil _ _⟩
  · obtain ⟨st₁, hst₁⟩ := Scan.State.exists_pending h.isSkipped
    rw [← hst₁] at h
    obtain ⟨item', st₂, hread₂, -⟩ := h.exists_next? (by simp [hst₁]) source
    obtain ⟨g, st₃, hfails⟩ := hlost t ht st₁ rest (by rw [hst₁, List.append_assoc]; rfl)
    cases hfails.symm.trans hread₂

/-- An include directive starts with a number sign, and nothing else does. -/
theorem exists_of_derives_hash {hash : Token} {more : List Token}
    (h : Derives strict source (hash :: more) item) (hhash : hash.kind = .hash) :
    ∃ word path, more = [word, path] ∧ item = .inclusion path := by
  have hword : ∀ word : String, hash.isWord word = false := by simp [Token.isWord, hhash]
  cases h with
  | inclusion _ _ _ => exact ⟨_, _, rfl, rfl⟩
  | version hw | constant hw | enumeration hw | type hw =>
      rw [hword] at hw
      cases hw
  | word hkind =>
      rw [hhash] at hkind
      cases hkind

/-- An include directive that may not be performed fails at its path, which is the earliest place:
another path could stand there. -/
theorem exists_earliest_of_objection {t : Token}
    (hread : Item.next? strict source st = .ok (some (.inclusion t)) st')
    (hobjection : s.objection? t.unquoted ≠ none) :
    ∃ front tail, st.pending = front ++ t :: tail ∧
      Earliest strict s.visited front (t :: tail) := by
  obtain ⟨u, hu, hkind, hvalid, hfresh⟩ := exists_fresh_path s.visited.keys
  obtain ⟨used, hused, hok, hitem⟩ := exists_derives_of_next? hread
  cases hitem with
  | @inclusion hash word _ hhash hword _ =>
      have hpending : st.pending = [hash, word] ++ t :: st'.pending := hused
      refine ⟨[hash, word], st'.pending, hpending, ⟨[u], by simpa using hu, ?_⟩, ?_⟩
      · have hfile : DerivesFile strict source ([hash, word, u] ++ []) [.inclusion u] :=
          .cons (.inclusion hhash hword hkind) .nil
        have honly : IncludesOnly u (.inclusion u) := by simp [IncludesOnly]
        have hfront : ∀ x ∈ [hash, word], x.isSkipped = false := fun x hx =>
          st.isSkipped_of_mem_pending (hpending ▸ List.mem_append_left _ hx)
        refine acceptable_of_derivesFile ?_ ?_ hfile (includable_cons_item.mpr
          ⟨includable_of_includesOnly hvalid hfresh honly, includable_nil _⟩)
        · exact List.forall_mem_append.mpr
            ⟨fun x hx => hok x (List.mem_append_left [t] hx), by simpa using hu.valid⟩
        · exact List.forall_mem_append.mpr ⟨hfront, by simpa using hu.isSkipped⟩
      · intro t' ht' rest h
        obtain rfl := Option.some.inj ht'
        obtain ⟨st₁, hst₁⟩ := Scan.State.exists_pending h.isSkipped
        rw [← hst₁] at h
        obtain ⟨item, st₂, hread₂, hpaths, -⟩ := h.exists_next? (by simp [hst₁]) source
        obtain ⟨used, hused₂, -, hitem⟩ := exists_derives_of_next? hread₂
        obtain ⟨first, more, rfl, -⟩ := exists_cons_of_derives hitem
        rw [hst₁] at hused₂
        obtain ⟨rfl, hmore⟩ := List.cons.inj hused₂
        obtain ⟨word', path, rfl, rfl⟩ := exists_of_derives_hash hitem hhash
        cases hmore
        exact hobjection (hpaths _ (by simp [includedPaths]))

/-- The earliest place behind an item is the earliest place in the whole file. -/
theorem Earliest.prepend (h : Earliest strict (s.pass item).visited front tail)
    (hread : Item.next? strict source st = .ok (some item) st')
    (hpaths : ∀ p ∈ includedPaths [item], s.objection? p = none)
    (hpending : st'.pending = front ++ tail) :
    ∃ used, st.pending = used ++ front ++ tail ∧
      Earliest strict s.visited (used ++ front) tail := by
  obtain ⟨used, strays, hused, -, hagain⟩ := Item.local_next? hread
  have hskipped : ∀ t ∈ used, t.isSkipped = false := fun t ht =>
    st.isSkipped_of_mem_pending (hused ▸ List.mem_append_left _ ht)
  rw [hpending] at hused hagain
  refine ⟨used, by rw [hused, List.append_assoc], ?_, fun t ht rest hall => ?_⟩
  · obtain ⟨more, hmore, hrest⟩ := h.begins
    obtain ⟨st₁, hst₁⟩ := Scan.State.exists_pending
      (List.forall_mem_append.mpr ⟨hskipped, hrest.isSkipped⟩)
    obtain ⟨st₂, hread₂, hst₂, -⟩ := hagain st₁ _ hst₁ (.inl hrest.noSemicolon)
    refine ⟨more, hmore, ?_⟩
    rw [List.append_assoc, ← hst₁, acceptable_iff_of_next? hread₂, hst₂]
    exact ⟨hpaths, hrest⟩
  · obtain ⟨tail, rfl⟩ := List.head?_eq_some_iff.mp ht
    have hhead : (front ++ t :: rest).head? = (front ++ t :: tail).head? := by
      cases front <;> rfl
    obtain ⟨st₁, hst₁⟩ := Scan.State.exists_pending hall.isSkipped
    rw [List.append_assoc] at hst₁ hall
    obtain ⟨st₂, hread₂, hst₂, -⟩ := hagain st₁ _ hst₁ (.inr hhead)
    rw [← hst₁, acceptable_iff_of_next? hread₂, hst₂] at hall
    exact h.lost t rfl rest hall.2

end Grammar

/-! ## Where a session fails -/

namespace Parse

variable {handlers : Handlers ρ μ} {role : ρ} {parseFile : ρ → SourceFile → Parse μ Unit}

/-- Is the failure known in the final session, and does it name the earliest place from the cursor
on? -/
structure FailsEarliest (cursor : Cursor) (s : Session) (f : Failure) (final : Session) : Prop where
  /-- It is the first failure. -/
  known : final.diagnostics.failure = some f
  /-- It names the token at the earliest place, or the end of the stream. -/
  place : ∃ front tail, unskipped cursor.tokens = front ++ tail ∧ f.span = cursor.spanAt tail ∧
    Earliest s.options.strictHeader s.visited front tail

section Item

variable {cursor : Cursor} {s : Session} {f : Failure} {r : Scan.State}

/-- The first failure that is reported is known. -/
theorem failure_report_advance (hs : s.diagnostics.failure = none) (r : Scan.State) (f : Failure) :
    ((s.advance r).report f).diagnostics.failure = some f := by
  have hadvance : (s.advance r).diagnostics.failure = none := hs
  rw [Session.failure_report, hadvance]
  rfl

/-- An item that cannot be read. -/
theorem failsEarliest_of_error (hs : s.diagnostics.failure = none)
    (hread : Item.next? s.options.strictHeader s.context.name ⟨cursor, []⟩ = .error f r) :
    FailsEarliest cursor s (f.inSource s.context.name)
      ((s.advance r).report (f.inSource s.context.name)) :=
  ⟨failure_report_advance hs r _, exists_earliest_of_error hread⟩

/-- An include directive whose path may not be included. -/
theorem failsEarliest_of_objection (hs : s.diagnostics.failure = none) {t : Token} {cause : Cause}
    (hread : Item.next? s.options.strictHeader s.context.name ⟨cursor, []⟩ =
      .ok (some (.inclusion t)) r)
    (hobjection : (s.advance r).objection? t.unquoted = some cause) (m : μ) :
    ∃ f final, perform (accepting handlers role parseFile) (.inclusion t) (s.advance r, m) =
      .error f (final, m) ∧ FailsEarliest cursor s f final := by
  have hperform : perform (accepting handlers role parseFile) (.inclusion t) (s.advance r, m) =
      inSession (Session.fail { cause, span := t.span }) (s.advance r, m) := by
    simp only [perform, accepting, inclusion, hobjection]
  have hrefused : (s.advance r).objection? t.unquoted ≠ none := by simp [hobjection]
  obtain ⟨front, tail, hpending, hearliest⟩ := exists_earliest_of_objection hread hrefused
  exact ⟨_, _, hperform, failure_report_advance hs r _, front, t :: tail, hpending, rfl, hearliest⟩

/-- What fails behind an item that is passed. -/
theorem FailsEarliest.behind {item : Item} {final : Session}
    (h : FailsEarliest r.cursor ((s.advance r).pass item) f final)
    (hread : Item.next? s.options.strictHeader s.context.name ⟨cursor, []⟩ = .ok (some item) r)
    (hpaths : ∀ p ∈ includedPaths [item], (s.advance r).objection? p = none) :
    FailsEarliest cursor s f final := by
  obtain ⟨hknown, front, tail, hpending, hspan, hearliest⟩ := h
  rw [Session.pass_options] at hearliest
  obtain ⟨used, hused, hwhole⟩ := hearliest.prepend (s := s.advance r) hread hpaths hpending
  have hstop := Scan.stop_of_ok (Item.advances_next? _ _) hread
  exact ⟨hknown, used ++ front, tail, hused, hspan.trans (Scan.spanAt_of_stop hstop tail), hwhole⟩

/-- Only an include directive can fail, if there is an objection to its path. -/
theorem exists_objection_of_perform (hhandlers : ∀ role path, (handlers role path).Accepting)
    (hs : s.diagnostics.failure = none) {item : Item} {m : μ} {st : Session × μ}
    (h : perform (accepting handlers role parseFile) item (s.advance r, m) = .error f st) :
    ∃ t cause, item = .inclusion t ∧ (s.advance r).objection? t.unquoted = some cause := by
  cases item with
  | word t | version v | declaration d => cases h
  | inclusion t =>
      cases hobjection : (s.advance r).objection? t.unquoted with
      | some cause => exact ⟨t, cause, rfl, hobjection⟩
      | none =>
          have hpaths : ∀ p ∈ includedPaths [.inclusion t], (s.advance r).objection? p = none := by
            simpa [includedPaths] using hobjection
          have hadvance : (s.advance r).diagnostics.failure = none := hs
          obtain ⟨m', hok⟩ := perform_accepting hhandlers hadvance m hpaths
          cases h.symm.trans hok

end Item

/-- **Items fail at the earliest place**, if includes are accepted as they are. -/
theorem failsEarliest_of_items (hhandlers : ∀ role path, (handlers role path).Accepting)
    {cursor : Cursor} {s : Session} (hs : s.diagnostics.failure = none) {m : μ} {f : Failure}
    {st : Session × μ} (h : items (accepting handlers role parseFile) cursor (s, m) = .error f st) :
    FailsEarliest cursor s f st.1 := by
  -- On the tokens that are left; every item takes some of them.
  induction hn : cursor.tokens.length using Nat.strongRecOn generalizing cursor s m with
  | ind n ih =>
      cases hread : Item.next? s.options.strictHeader s.context.name ⟨cursor, []⟩ with
      | error g r =>
          rw [items_of_error hread] at h
          cases h
          exact failsEarliest_of_error hs hread
      | ok item? r =>
          cases item? with
          | none =>
              rw [items_of_none hread] at h
              cases h
          | some item =>
              rw [items_of_some hread] at h
              cases hperform : perform (accepting handlers role parseFile) item
                  (s.advance r, m) with
              | ok u st' =>
                  obtain ⟨s', m'⟩ := st'
                  rw [bind_of_ok hperform] at h
                  have hadvance : (s.advance r).diagnostics.failure = none := hs
                  obtain ⟨hpaths, rfl⟩ := eq_pass_of_perform_accepting hhandlers hadvance hperform
                  have hrest := ih _ (hn ▸ Item.length_lt_of_next? hread) (by simpa using hadvance)
                    h rfl
                  exact hrest.behind hread hpaths
              | error g st' =>
                  rw [bind_of_error hperform] at h
                  cases h
                  obtain ⟨t, cause, rfl, hobjection⟩ :=
                    exists_objection_of_perform hhandlers hs hperform
                  obtain ⟨f', final, hfails, hearliest⟩ :=
                    failsEarliest_of_objection hs hread hobjection m
                  cases hperform.symm.trans hfails
                  exact hearliest

/-- **A root file fails at the earliest place.** -/
theorem failsEarliest_of_root (hhandlers : ∀ role path, (handlers role path).Accepting)
    {file : SourceFile} {s : Session} (hdepth : 1 ≤ s.options.maxIncludeDepth) {m : μ}
    {f : Failure} {st : Session × μ} (h : root handlers role file (s, m) = .error f st) :
    FailsEarliest (Cursor.ofBytes file.contents) (s.reset.resume (Context.ofFile file)) f st.1 := by
  have hfile : Parse.file handlers role file (s.reset, m) = _ := file_reset_eq hdepth m file
  have hreset : (s.reset.resume (Context.ofFile file)).diagnostics.failure = none := rfl
  cases hitems : items (accepting handlers role (fileAt handlers (s.options.maxIncludeDepth - 1)))
      (Cursor.ofBytes file.contents) (s.reset.resume (Context.ofFile file), m) with
  | ok u st' =>
      obtain ⟨st₁, hok⟩ : ∃ st₁, root handlers role file (s, m) = .ok () st₁ :=
        (root_ok_iff hhandlers hdepth).mpr (acceptable_of_items hhandlers hreset hitems)
      cases h.symm.trans hok
  | error g st' =>
      have hearliest := failsEarliest_of_items hhandlers hreset hitems
      have hroot : root handlers role file (s, m) = .error g st' := by
        show start handlers role file (s.reset, m) = _
        unfold start
        rw [hfile, hitems]
        dsimp only
        rw [hearliest.known, Option.getD_some]
      cases h.symm.trans hroot
      exact hearliest

end Parse

/-! ## Sources -/

/-- Do two tokens read the same, wherever they stand? -/
structure Token.ReadsLike (t u : Token) : Prop where
  /-- They are of the same kind. -/
  kind : u.kind = t.kind
  /-- They are both well formed, or both are not. -/
  valid : u.valid = t.valid
  /-- They have the same text. -/
  lexeme : u.lexeme = t.lexeme

/-- Two tokens that read the same do so in either order. -/
theorem Token.ReadsLike.symm {t u : Token} (h : t.ReadsLike u) : u.ReadsLike t :=
  ⟨h.kind.symm, h.valid.symm, h.lexeme.symm⟩

/-- The tokens that are no white space and no comment. -/
def significant (tokens : List Token) : List Token := tokens.filter (!·.isTrivia)

/-- Do the significant tokens of the source begin like these? -/
def Begins (contents : Bytes) (front : List Token) : Prop :=
  List.Forall₂ Token.ReadsLike
    ((significant (Cursor.ofBytes contents).tokens).take front.length) front

/-- The members of two lists may be looked at one by one. -/
theorem forall₂_of_mem {R S : Token → Token → Prop} {tokens tokens' : List Token}
    (h : List.Forall₂ R tokens tokens')
    (hRS : ∀ t ∈ tokens, ∀ u ∈ tokens', R t u → S t u) : List.Forall₂ S tokens tokens' := by
  rw [List.forall₂_iff_zip] at h ⊢
  refine ⟨h.1, fun {t u} hmem => ?_⟩
  exact hRS t (List.of_mem_zip hmem).1 u (List.of_mem_zip hmem).2 (h.2 hmem)

/-- Tokens of streams that read the same have the same text without their quotes, too. -/
theorem Token.ReadsLike.sameText {t u : Token} (h : t.ReadsLike u) (hvalid : t.valid = true)
    (ht : ∃ b rest, t.StartsStream b rest) (hu : ∃ b rest, u.StartsStream b rest) :
    t.SameText u := by
  obtain ⟨b, rest, ht⟩ := ht
  obtain ⟨b', rest', hu⟩ := hu
  have huvalid := h.valid.trans hvalid
  refine ⟨hvalid, huvalid, h.kind, h.lexeme, ?_⟩
  rw [unquoted_eq ht hvalid, unquoted_eq hu huvalid, h.kind, h.lexeme]

/-- Every token of a stream could stand at its start. -/
theorem exists_starts {contents : Bytes} {t : Token} (h : t ∈ (Cursor.ofBytes contents).tokens) :
    ∃ b rest, t.StartsStream b rest := exists_first_of_mem h

/-- There is a source for every list of tokens that could stand in streams. -/
theorem exists_written {tokens : List Token} (h : ∀ t ∈ tokens, t.Writable) :
    ∃ contents, (∀ u ∈ (Cursor.ofBytes contents).tokens, u.valid = true) ∧
      List.Forall₂ Token.ReadsLike (significant (Cursor.ofBytes contents).tokens) tokens := by
  have hagain : ∀ t ∈ tokens, t.isTrivia = false ∧
      Token.ReadsAgain t.kind (Utf8.encode t.lexeme) := by
    intro t ht
    obtain ⟨hvalid, htrivia, b, rest, hstarts⟩ := h t ht
    exact ⟨htrivia, Token.readsAgain_encode_lexeme hstarts hvalid htrivia⟩
  have htokens := tokens_ofBytes_of_ascii fun c hc =>
    (head?_encode_printed (fun t ht => (hagain t ht).2) c hc).1
  obtain ⟨hvalid, hlike⟩ := tokensFrom_printed hagain .start
  rw [← htokens] at hvalid hlike
  refine ⟨_, hvalid, List.Forall₂.flip (forall₂_of_mem hlike fun t ht u hu hsame => ?_)⟩
  refine ⟨hsame.1.symm, ?_, hsame.2.symm⟩
  rw [(h t ht).valid, hvalid u (List.mem_filter.mp hu).1]

section Earliest

variable {strict : Bool} {v : Visited} {front tail : List Token} {t : Token}

/-- Before the earliest place every token is well formed, so only white space and comments were
passed over. -/
theorem Grammar.Earliest.unskipped_eq {tokens : List Token}
    (h : Earliest strict v (unskipped tokens) tail) : unskipped tokens = significant tokens := by
  obtain ⟨more, -, hacceptable⟩ := h.begins
  exact unskipped_of_valid (valid_of_unskipped fun t ht =>
    hacceptable.valid t (List.mem_append_left more ht))

/-- What stands before the earliest place is the beginning of an acceptable source. -/
theorem Grammar.Earliest.exists_begins (h : Earliest strict v front tail)
    (hstarts : ∀ x ∈ front, ∃ b rest, x.StartsStream b rest) :
    ∃ contents, Acceptable strict v (unskipped (Cursor.ofBytes contents).tokens) ∧
      Begins contents front := by
  obtain ⟨more, hmore, hacceptable⟩ := h.begins
  have hwritable : ∀ x ∈ front ++ more, x.Writable := by
    refine List.forall_mem_append.mpr ⟨fun x hx => ?_, hmore⟩
    have hall := List.mem_append_left more hx
    exact ⟨hacceptable.valid x hall, hacceptable.significant x hall, hstarts x hx⟩
  obtain ⟨contents, hvalid, hlike⟩ := exists_written hwritable
  refine ⟨contents, ?_, List.forall₂_take_append _ front more hlike⟩
  rw [unskipped_of_valid hvalid]
  refine hacceptable.alike Token.likeness_sameText
    (List.Forall₂.flip (forall₂_of_mem hlike fun t ht u hu hsame => ?_))
  exact hsame.symm.sameText (hacceptable.valid u hu) (hwritable u hu).starts
    (exists_starts (List.mem_filter.mp ht).1)

/-- No acceptable source begins with the token at which all is lost. -/
theorem Grammar.Earliest.not_begins (hearliest : Earliest strict v front (t :: tail))
    (hstarts : ∀ x ∈ front ++ [t], ∃ b rest, x.StartsStream b rest) {contents : Bytes}
    (h : Acceptable strict v (unskipped (Cursor.ofBytes contents).tokens)) :
    ¬Begins contents (front ++ [t]) := by
  intro hbegins
  have hvalid := valid_of_unskipped h.valid
  have htokens : unskipped (Cursor.ofBytes contents).tokens = _ := unskipped_of_valid hvalid
  have hmem : ∀ x ∈ significant (Cursor.ofBytes contents).tokens,
      x ∈ (Cursor.ofBytes contents).tokens := fun x hx => (List.mem_filter.mp hx).1
  rw [htokens] at h
  change Acceptable strict v (significant _) at h
  unfold Begins at hbegins
  generalize significant (Cursor.ofBytes contents).tokens = tokens at h hmem hbegins
  -- Its own tokens go on behind those that read the same.
  have hsame : ∀ x ∈ tokens, x.SameText x := fun x hx => ⟨h.valid x hx, h.valid x hx, rfl, rfl, rfl⟩
  have hfront : List.Forall₂ Token.SameText (tokens.take (front ++ [t]).length) (front ++ [t]) :=
    forall₂_of_mem hbegins fun x hx y hy hlike =>
      have hx := List.mem_of_mem_take hx
      hlike.sameText (h.valid x hx) (exists_starts (hmem x hx)) (hstarts y hy)
  have hrest : ∀ n, List.Forall₂ Token.SameText (tokens.drop n) (tokens.drop n) := fun n =>
    List.forall₂_same.mpr fun x hx => hsame x (List.mem_of_mem_drop hx)
  have hwhole := List.rel_append hfront (hrest (front ++ [t]).length)
  dsimp only at hwhole
  rw [List.take_append_drop] at hwhole
  have hacceptable := h.alike Token.likeness_sameText hwhole
  rw [List.append_assoc] at hacceptable
  exact hearliest.lost t rfl _ hacceptable

end Earliest

/-- No two tokens of a source have the same span. -/
theorem eq_of_span_eq {contents : Bytes} {before after left right : List Token} {t u : Token}
    (ht : (Cursor.ofBytes contents).tokens = before ++ t :: after)
    (hu : (Cursor.ofBytes contents).tokens = left ++ u :: right) (hspan : t.span = u.span) :
    before = left ∧ t = u := by
  have hnodup := (tiles_ofBytes contents).nodup_map_span
  obtain rfl : t = u := List.inj_on_of_nodup_map hnodup (by simp [ht]) (by simp [hu]) hspan
  have hmiddle := List.Nodup.of_map _ hnodup
  rw [ht, List.nodup_middle, List.nodup_cons, List.mem_append, not_or] at hmiddle
  rw [ht, List.append_cons_inj_of_notMem hmiddle.1.1 hmiddle.1.2] at hu
  exact ⟨hu.1, rfl⟩

/-- A token of a source covers something, so its span is no single place. -/
theorem span_ne_point {contents : Bytes} {t : Token} (ht : t ∈ (Cursor.ofBytes contents).tokens)
    (place : Position) : t.span ≠ .point place := by
  obtain ⟨b, rest, -, -, hbytes⟩ := exists_starts ht
  intro h
  have hlength := congrArg Span.length h
  rw [Token.span, hbytes] at hlength
  cases hlength

/-! ## The earliest failure -/

/-- **A session fails as early as it can**, whatever session came before, if includes are accepted
as they are and at least one may be nested. A failure names a token or the end of the file. The
significant tokens before that place are the beginning of a file that is accepted, and with the
token at that place they are not. -/
theorem root_fails_earliest (handlers : Handlers ρ μ)
    (hhandlers : ∀ role path, (handlers role path).Accepting) (role : ρ) (file : SourceFile)
    (s : Session) (hdepth : 1 ≤ s.options.maxIncludeDepth) (m : μ) {f : Failure} {st : Session × μ}
    (hfails : Parse.root handlers role file (s, m) = .error f st) :
    let cursor := Cursor.ofBytes file.contents
    let accepted (c : SourceFile) := ∃ st', Parse.root handlers role c (s, m) = .ok () st'
    ((∃ t ∈ cursor.tokens, t.isSkipped = false ∧ f.span = t.span) ∨ f.span = .point cursor.stop) ∧
      (∀ before t after, cursor.tokens = before ++ t :: after → f.span = t.span →
        (∃ c, accepted c ∧ Begins c.contents (significant before)) ∧
          ∀ c, accepted c → ¬Begins c.contents (significant before ++ [t])) ∧
      (f.span = .point cursor.stop →
        ∃ c, accepted c ∧ Begins c.contents (significant cursor.tokens)) := by
  intro cursor accepted
  obtain ⟨-, front, tail, hpending, hspan, hearliest⟩ :=
    Parse.failsEarliest_of_root hhandlers hdepth hfails
  have haccepted : ∀ c, accepted c ↔ Acceptable s.options.strictHeader {}
      (unskipped (Cursor.ofBytes c.contents).tokens) := fun c =>
    Parse.root_ok_iff hhandlers hdepth
  have hmem : ∀ t ∈ front ++ tail, t ∈ cursor.tokens ∧ t.isSkipped = false := by
    intro t ht
    rw [← hpending] at ht
    obtain ⟨hin, hkept⟩ := List.mem_filter.mp ht
    exact ⟨hin, by simpa using hkept⟩
  -- What stands before the place is the beginning of an accepted file.
  have hbegins : ∃ c, accepted c ∧ Begins c.contents front := by
    obtain ⟨contents, hacceptable, hbegins⟩ := hearliest.exists_begins fun x hx =>
      exists_starts (hmem x (List.mem_append_left _ hx)).1
    exact ⟨{ name := file.name, contents }, (haccepted _).mpr hacceptable, hbegins⟩
  cases tail with
  | nil =>
      have hend : f.span = .point cursor.stop := hspan
      refine ⟨.inr hend, fun before t after htokens ht => ?_, fun _ => ?_⟩
      · have hin : t ∈ cursor.tokens := by simp [htokens]
        exact absurd (ht.symm.trans hend) (span_ne_point hin _)
      · rw [List.append_nil] at hpending
        subst hpending
        rwa [← hearliest.unskipped_eq]
  | cons t tail =>
      have hat : f.span = t.span := hspan
      have hfound := hmem t (List.mem_append_right front List.mem_cons_self)
      obtain ⟨left, right, htokens, hleft⟩ := exists_of_unskipped_eq hpending
      refine ⟨.inl ⟨t, hfound.1, hfound.2, hat⟩, fun before u after hu husp => ?_, fun hend => ?_⟩
      · obtain ⟨rfl, rfl⟩ := eq_of_span_eq hu htokens (husp.symm.trans hat)
        subst hleft
        rw [← hearliest.unskipped_eq]
        have hstarts : ∀ x ∈ unskipped before ++ [u], ∃ b rest, x.StartsStream b rest := by
          refine List.forall_mem_append.mpr ⟨fun x hx => ?_, ?_⟩
          · exact exists_starts (hmem x (List.mem_append_left _ hx)).1
          · simpa using exists_starts hfound.1
        exact ⟨hbegins, fun c hc => hearliest.not_begins hstarts ((haccepted c).mp hc)⟩
      · exact absurd (hat.symm.trans hend) (span_ne_point hfound.1 _)

/-- A path that is included a second time, in capital letters: another path could stand there. -/
theorem root_fails_earliest_at_repeated_path :
    let file : SourceFile := {
      name := "main.zs", contents := Ascii.bytes "#include \"a.zs\" #include \"A.zs\"".toList }
    let handlers : Handlers Unit Unit := fun _ _ => .finish (.ok ())
    let tokens := (Cursor.ofBytes file.contents).tokens
    let accepted (c : SourceFile) := ∃ st, Parse.root handlers () c (Session.new, ()) = .ok () st
    (∃ c, accepted c ∧ Begins c.contents (significant tokens.dropLast)) ∧
      ∀ c, accepted c → ¬Begins c.contents (significant tokens) := by
  intro file handlers tokens accepted
  let path : Token := ⟨.string, true, ⟨25, 1, 26⟩, Ascii.bytes "\"A.zs\"".toList⟩
  have htokens : tokens = tokens.dropLast ++ [path] := by decide +kernel
  have hsignificant : significant tokens = significant tokens.dropLast ++ [path] := by
    decide +kernel
  have hspan : (match Parse.root handlers () file (Session.new, ()) with
      | .ok _ _ => none
      | .error f _ => some f.span) = some path.span := by decide +kernel
  rw [hsignificant]
  cases hroot : Parse.root handlers () file (Session.new, ()) with
  | ok u st =>
      rw [hroot] at hspan
      cases hspan
  | error f st =>
      rw [hroot] at hspan
      exact (root_fails_earliest handlers (fun _ _ => .finish ()) () file Session.new (by decide) ()
        hroot).2.1 _ _ _ htokens (Option.some.inj hspan)

end ZDecl
