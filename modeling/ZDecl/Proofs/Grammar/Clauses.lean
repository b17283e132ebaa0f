import ZDecl.Proofs.Grammar.Headers

/-!
# The tokens of a header

A header keeps four of the tokens that it is read from: its name, the names in its clauses, and the
mark for native types. Its parts come in a fixed order, so these are the tokens of its parts, one
for each clause, and they stand in the stream in the order in which a header lists them.

* `Header.kept`: the tokens that a header keeps, in order. **`kept_headerOf_sublist`**: they are
  some of those of its parts, in the same order.
* `Header.token?`, `HeaderPart.kept?`: the token of a clause in a header, and the one that a part
  gives to it. **`token?_headerOf_eq_some_iff`**: a header keeps just what its parts give to it.
* `exists_front_of_native_mem`: in a strict header the mark for native types comes last.

All three are shown for a header that was begun before, part by part. The invariant is that each
part is admissible in its turn, so that what it gives is not there yet and is not given again.
-/

namespace ZDecl

open Grammar HeaderPart

/-! ## Tokens in order -/

/-- The tokens that a header keeps: its name, the name of the parent, that of the replaced class,
and the mark for native types. -/
def Header.kept (h : Header) : List Token :=
  h.name :: (h.parent.toList ++ (h.replaces.toList ++ h.native.toList))

/-- The token of a clause. -/
def Header.token? (h : Header) : Clause → Option Token
  | .parent => h.parent
  | .replaces => h.replaces
  | .native => h.native

namespace Grammar

/-- What a part gives to a header: the clause, and the token of the clause. -/
def HeaderPart.kept? : HeaderPart → Option (Clause × Token)
  | parent _ name => some (.parent, name)
  | replaces _ name => some (.replaces, name)
  | native word => some (.native, word)
  | other _ => none

variable {strict : Bool} {kind : TypeKind} {h : Header} {name : Token} {part : HeaderPart}
  {parts : List HeaderPart}

/-- A part that is admissible puts its token behind those that the header has. -/
theorem kept_addTo_sublist (hpart : part.Admissible strict h) :
    (part.addTo h).kept.Sublist (h.kept ++ part.tokens) := by
  unfold Header.kept
  cases part with
  | parent colon name =>
      obtain ⟨hparent, hreplaces, hnative⟩ := hpart
      simp [addTo, HeaderPart.tokens, hparent, hreplaces, hnative]
  | replaces word name =>
      obtain ⟨hreplaces, hnative⟩ := hpart
      simp [addTo, HeaderPart.tokens, hreplaces, hnative]
  | native word =>
      have hnative : h.native = none := hpart
      simp [addTo, HeaderPart.tokens, hnative]
  | other t => exact List.sublist_append_left _ _

/-- So do several parts. -/
theorem kept_foldl_sublist (hparts : AdmissibleAll strict h parts) :
    (parts.foldl addTo h).kept.Sublist (h.kept ++ parts.flatMap HeaderPart.tokens) := by
  induction parts generalizing h with
  | nil => simp
  | cons part parts ih =>
      have hfirst := (kept_addTo_sublist hparts.1).append_right (parts.flatMap HeaderPart.tokens)
      rw [List.append_assoc] at hfirst
      rw [List.foldl_cons, List.flatMap_cons]
      exact (ih hparts.2).trans hfirst

/-- Parts in the right order are admissible in a header that has nothing but a name. -/
theorem admissibleAll_ofName (kind : TypeKind) (name : Token)
    (horder : parts.Pairwise (MayPrecede strict)) :
    AdmissibleAll strict (Header.ofName kind name) parts :=
  admissibleAll_iff.mpr ⟨fun part _ => admissible_ofName strict kind name part, horder⟩

/-- **What a header keeps** stands in the stream in the order of the header. -/
theorem kept_headerOf_sublist (kind : TypeKind) (name : Token)
    (horder : parts.Pairwise (MayPrecede strict)) :
    (headerOf kind name parts).kept.Sublist (name :: parts.flatMap HeaderPart.tokens) :=
  kept_foldl_sublist (admissibleAll_ofName kind name horder)

/-! ## Tokens of clauses -/

/-- What a header has after one more part that is admissible. -/
theorem token?_addTo_eq_some_iff (hpart : part.Admissible strict h) {c : Clause} {t : Token} :
    (part.addTo h).token? c = some t ↔ h.token? c = some t ∨ part.kept? = some (c, t) := by
  cases part with
  | parent colon name =>
      have hparent : h.parent = none := hpart.1
      cases c <;> simp [addTo, Header.token?, kept?, hparent]
  | replaces word name =>
      have hreplaces : h.replaces = none := hpart.1
      cases c <;> simp [addTo, Header.token?, kept?, hreplaces]
  | native word =>
      have hnative : h.native = none := hpart
      cases c <;> simp [addTo, Header.token?, kept?, hnative]
  | other t => simp [addTo, kept?]

/-- What it has after several parts. -/
theorem token?_foldl_eq_some_iff (hparts : AdmissibleAll strict h parts) {c : Clause} {t : Token} :
    (parts.foldl addTo h).token? c = some t ↔
      h.token? c = some t ∨ ∃ part ∈ parts, part.kept? = some (c, t) := by
  induction parts generalizing h with
  | nil => simp
  | cons part parts ih =>
      rw [List.foldl_cons, ih hparts.2, token?_addTo_eq_some_iff hparts.1]
      simp only [List.mem_cons, exists_eq_or_imp]
      exact or_assoc

/-- **What a header keeps** is what its parts give to it. -/
theorem token?_headerOf_eq_some_iff (horder : parts.Pairwise (MayPrecede strict)) {c : Clause}
    {t : Token} :
    (headerOf kind name parts).token? c = some t ↔ ∃ part ∈ parts, part.kept? = some (c, t) := by
  have hnone : (Header.ofName kind name).token? c = none := by
    cases c <;> rfl
  refine (token?_foldl_eq_some_iff (admissibleAll_ofName kind name horder)).trans ?_
  rw [hnone]
  exact or_iff_right (by simp)

/-! ## The mark for native types -/

/-- **In a strict header the mark for native types comes last.** -/
theorem exists_front_of_native_mem {mark : Token} (horder : parts.Pairwise (MayPrecede true))
    (hmark : HeaderPart.native mark ∈ parts) : ∃ front, parts = front ++ [.native mark] := by
  obtain ⟨front, behind, rfl⟩ := List.append_of_mem hmark
  have hbehind := (List.pairwise_cons.mp (List.pairwise_append.mp horder).2.1).1
  cases behind with
  | nil => exact ⟨front, rfl⟩
  | cons next behind =>
      have hnext := hbehind next List.mem_cons_self
      cases next with
      | parent _ _ | replaces _ _ | native _ => exact hnext.elim
      | other t => cases hnext

end Grammar

end ZDecl
