import ZDecl.Proofs.Session.Stretch
import ZDecl.Proofs.Token.Splice

/-!
# A failing item leaves no trace

Everything that an item does, it does after all its tokens were read. So a single file that fails
has the results of the items before the one that fails, and no others: cut before that item, it
succeeds with the same results. Only warnings may come from the failing item, about the stray tokens
of a header, and they come last.

* `Item.exists_cut`: where a file that fails is cut, and the tokens that stay.
* **`parseSource_of_cut`**: the report on the cut file.
-/

namespace ZDecl

open Grammar

/-- Up to the first token of the item where the items of a file stop, the significant tokens are the
same when everything from that token on is cut off. -/
theorem Item.exists_cut {contents : Bytes} {strict : Bool} {source : String} {stop : Cursor}
    {tokens : List Token} {reads : List Item.Read}
    (htokens : unskipped (Cursor.ofBytes contents).tokens = tokens ++ unskipped stop.tokens)
    (hstretch : Item.Stretch strict source tokens reads) (hstop : unskipped stop.tokens ≠ []) :
    ∃ t ∈ (Cursor.ofBytes contents).tokens, stop.significant.1 = some t ∧
      unskipped (Cursor.ofBytes (contents.take t.start.offset)).tokens = tokens := by
  obtain ⟨t, later, hlater⟩ := List.exists_cons_of_ne_nil hstop
  rw [hlater] at htokens
  obtain ⟨left, right, hall, rfl⟩ := exists_of_unskipped_eq htokens
  refine ⟨t, by simp [hall], ?_, ?_⟩
  · have hfirst := (Scan.State.mk stop []).significant_fst.1
    rw [hfirst]
    show (unskipped stop.tokens).head? = some t
    rw [hlater, List.head?_cons]
  · have hvalid := valid_of_unskipped hstretch.valid
    have hlast := kind_ne_dot_of_unskipped hstretch.kind_ne_dot_of_getLast?
    have hend : Token.LineEnd [] := fun c hc => nomatch hc
    have hcut := tokens_ofBytes_splice hall (start_of_tokensFrom hall) hvalid hlast hend
    rw [List.append_nil, tokensFrom, List.append_nil] at hcut
    rw [hcut]

/-- **A failing item leaves no trace among the results.** A single file that fails is cut before the
first token of the item at which its items stop: what is left succeeds with the same declarations
and the same version, and its warnings come first among those of the whole file. -/
theorem parseSource_of_cut (name : String) (contents : Bytes) (options : Options)
    (hfails : (parseSource name contents options).success = false) :
    ∃ t ∈ (Cursor.ofBytes contents).tokens,
      (Item.stopIn options.strictHeader name (Cursor.ofBytes contents)).significant.1 = some t ∧
      let whole := parseSource name contents options
      let cut := parseSource name (contents.take t.start.offset) options
      cut.success = true ∧ cut.declarations = whole.declarations ∧
        cut.languageVersion = whole.languageVersion ∧ cut.warnings <+: whole.warnings := by
  obtain ⟨tokens, reads, htokens, hstretch, htells, hsuccess⟩ :=
    parseSource_stretch name contents options
  rw [hfails] at hsuccess
  have hstop := fun hnil => Bool.false_ne_true (hsuccess.mpr hnil)
  obtain ⟨t, ht, hfirst, hcut⟩ := Item.exists_cut htokens hstretch hstop
  obtain ⟨hok, htells', hwarnings⟩ := parseSource_of_stretch hstretch hcut
  refine ⟨t, ht, hfirst, hok, ?_, ?_, ?_⟩
  · rw [htells'.declarations, htells.declarations]
  · rw [htells'.languageVersion, htells.languageVersion]
  · rw [hwarnings]
    exact htells.warnings

/-- A class, and one that is never closed after a stray token in its header. -/
theorem parseSource_of_cut_in_class :
    let contents := Ascii.bytes "class A \x7b \x7d class B 7 \x7b".toList
    (parseSource "a.zs" contents).success = false ∧
      ∃ t ∈ (Cursor.ofBytes contents).tokens,
        let cut := parseSource "a.zs" (contents.take t.start.offset)
        cut.success = true ∧
          cut.declarations = (parseSource "a.zs" contents).declarations ∧
          cut.warnings <+: (parseSource "a.zs" contents).warnings := by
  intro contents
  have hfails : (parseSource "a.zs" contents).success = false := by decide +kernel
  obtain ⟨t, ht, -, hok, hdeclarations, -, hwarnings⟩ :=
    parseSource_of_cut "a.zs" contents {} hfails
  exact ⟨hfails, t, ht, hok, hdeclarations, hwarnings⟩

end ZDecl
