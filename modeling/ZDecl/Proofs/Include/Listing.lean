import Mathlib.Data.List.DropRight
import ZDecl.Proofs.Include.Spelling

/-!
# What is visited and what is listed

The visited files are kept twice, by the keys of their paths and as a list of the paths that were
included. The two part at a root: its key is kept and its path is not listed, also when a file with
that key is listed already. And neither tells how it came about. So both are described here by a
history, the operations since the last clearing with the answers they were given.

* `Visited.answer`: what an operation answers. `Visited.Operation.Marks`: does it mark a file?
* `Visited.sinceClear`, `Visited.history`: the operations since the last clearing, alone and with
  their answers.
* `Visited.contains_apply_iff`, `Visited.paths_apply`: what one operation does.
* `Visited.contains_after_iff`, `Visited.paths_after`, `Visited.pairwise_history`: what any number
  of them does.
* `Visited.IsOrderedSet`: paths in order, each key once, with roots that are hidden.
* **`Visited.isOrderedSet_after`**: that is so after any operations.
-/

namespace ZDecl.Visited

/-! ## Operations and their answers -/

/-- What an operation answers: an insertion, whether its file is a new one; the others nothing. -/
def answer (v : Visited) : Operation → Option Bool
  | .insert path => some (v.visit path).1
  | .insertRoot _ => none
  | .clear => none

/-- Does an operation mark the file of this path as visited? -/
inductive Operation.Marks (path : String) : Operation → Prop where
  /-- An insertion. -/
  | insert {path' : String} (h : IncludePath.key path' = IncludePath.key path) :
      Marks path (.insert path')
  /-- The insertion of a root. -/
  | insertRoot {path' : String} (h : IncludePath.key path' = IncludePath.key path) :
      Marks path (.insertRoot path')

/-- An insertion marks the paths that share its key. -/
@[simp] theorem Operation.marks_insert_iff {path path' : String} :
    (insert path').Marks path ↔ IncludePath.key path' = IncludePath.key path :=
  ⟨fun | .insert h => h, .insert⟩

/-- The insertion of a root marks the paths that share its key, too. -/
@[simp] theorem Operation.marks_insertRoot_iff {path path' : String} :
    (insertRoot path').Marks path ↔ IncludePath.key path' = IncludePath.key path :=
  ⟨fun | .insertRoot h => h, .insertRoot⟩

/-- Operations with the answers that they are given one after the other. -/
def answered (v : Visited) : List Operation → List (Operation × Option Bool)
  | [] => []
  | op :: ops => (op, v.answer op) :: (v.apply op).answered ops

/-- The operations since the last clearing. -/
def sinceClear (ops : List Operation) : List Operation := ops.rtakeWhile (· != .clear)

/-- The operations since the last clearing, with their answers. -/
def history (ops : List Operation) : List (Operation × Option Bool) :=
  (empty.answered ops).rtakeWhile (·.1 != .clear)

/-- The path of an insertion that was answered with yes. -/
def listed? : Operation × Option Bool → Option String
  | (.insert path, some true) => some path
  | _ => none

/-! ## One operation -/

section Step

variable {v : Visited} {path : String}

/-- A set contains a path exactly if it keeps the path's key. -/
theorem contains_iff_mem : v.contains path = true ↔ IncludePath.key path ∈ v.keys :=
  List.contains_iff_mem

/-- Both ways to visit a path mark the same file. -/
theorem keys_insert_eq (v : Visited) (path : String) :
    (v.insert path).keys = (v.insertRoot path).keys := by
  rw [insert_eq, insertRoot_eq]
  split <;> rfl

/-- A visit marks the file of its path, and no other. -/
theorem mem_keys_insertRoot (v : Visited) (path key : String) :
    key ∈ (v.insertRoot path).keys ↔ IncludePath.key path = key ∨ key ∈ v.keys := by
  rw [insertRoot_eq]
  split
  · next h =>
      have hmem : IncludePath.key path ∈ v.keys := contains_iff_mem.mp h
      exact ⟨Or.inr, fun hkey => hkey.elim (fun heq => heq ▸ hmem) id⟩
  · rw [List.mem_cons, eq_comm]

/-- An insertion lists its path last, unless the set contains it already. -/
theorem paths_insert_eq (v : Visited) (path : String) :
    (v.insert path).paths = if v.contains path then v.paths else v.paths ++ [path] := by
  rw [insert_eq]
  split <;> rfl

/-- A root is marked, but never listed. -/
theorem paths_insertRoot (v : Visited) (path : String) : (v.insertRoot path).paths = v.paths := by
  rw [insertRoot_eq]
  split <;> rfl

/-- **What one operation does to the keys**: a clearing forgets all of them, and any other operation
marks one file. -/
theorem contains_apply_iff (v : Visited) (op : Operation) (path : String) :
    (v.apply op).contains path = true ↔
      op ≠ .clear ∧ (op.Marks path ∨ v.contains path = true) := by
  rw [contains_iff_mem, contains_iff_mem]
  cases op with
  | clear => simp [apply, empty]
  | insert path' => simp [apply, keys_insert_eq, mem_keys_insertRoot]
  | insertRoot path' => simp [apply, mem_keys_insertRoot]

/-- An insertion answers whether its path is new. -/
theorem answer_insert (v : Visited) (path : String) :
    v.answer (.insert path) = some (!v.contains path) := by
  show some (v.visit path).1 = _
  rw [visit_eq]

/-- Only the insertion of a new path lists one. -/
theorem listed?_eq_some_iff {done : Operation × Option Bool} :
    listed? done = some path ↔ done = (.insert path, some true) := by
  constructor
  · intro h
    unfold listed? at h
    split at h
    · rw [Option.some.inj h]
    · cases h
  · rintro rfl
    rfl

/-- A path is listed by its own insertion alone, if its file is a new one. -/
theorem listed?_answer_eq_some_iff {op : Operation} :
    listed? (op, v.answer op) = some path ↔ op = .insert path ∧ v.contains path = false := by
  rw [listed?_eq_some_iff, Prod.mk.injEq, and_congr_right_iff]
  rintro rfl
  rw [answer_insert, Option.some.injEq, Bool.not_eq_true']

/-- **What one operation does to the list**: a clearing forgets it, an insertion that is answered
with yes adds its path at the end, and nothing else changes it. -/
theorem paths_apply (v : Visited) (op : Operation) :
    (v.apply op).paths =
      if op = .clear then [] else v.paths ++ (listed? (op, v.answer op)).toList := by
  cases op with
  | clear => rfl
  | insertRoot path => simp [apply, listed?, paths_insertRoot]
  | insert path =>
      rw [answer_insert]
      cases hcontains : v.contains path <;> simp [apply, paths_insert_eq, hcontains, listed?]

end Step

/-! ## Any number of operations -/

section Run

variable (ops : List Operation) (op : Operation)

/-- The last operation is applied to what the others leave. -/
theorem after_concat : after (ops ++ [op]) = (after ops).apply op :=
  List.foldl_concat ..

/-- The last operation counts, or it clears the set and nothing does. -/
theorem sinceClear_concat :
    sinceClear (ops ++ [op]) = if op = .clear then [] else sinceClear ops ++ [op] := by
  unfold sinceClear
  rw [List.rtakeWhile_concat]
  simp

/-- The last operation is answered by what the others leave. -/
theorem answered_concat (v : Visited) :
    v.answered (ops ++ [op]) = v.answered ops ++ [(op, (ops.foldl apply v).answer op)] := by
  induction ops generalizing v with
  | nil => rfl
  | cons op' ops ih => simp [answered, ih]

/-- The last operation is answered, or it clears the history. -/
theorem history_concat :
    history (ops ++ [op]) =
      if op = .clear then [] else history ops ++ [(op, (after ops).answer op)] := by
  unfold history
  rw [answered_concat, List.rtakeWhile_concat]
  simp [after]

/-- The history is about the operations since the last clearing. -/
theorem map_fst_history : (history ops).map Prod.fst = sinceClear ops := by
  induction ops using List.reverseRecOn with
  | nil => rfl
  | append_singleton ops op ih =>
      rw [history_concat, sinceClear_concat]
      split
      · rfl
      · simp [ih]

/-- **A file is visited** if and only if some operation since the last clearing marked it. -/
theorem contains_after_iff (path : String) :
    (after ops).contains path = true ↔ ∃ op ∈ sinceClear ops, op.Marks path := by
  induction ops using List.reverseRecOn with
  | nil => simp [after, empty, contains, sinceClear]
  | append_singleton ops op ih =>
      rw [after_concat, contains_apply_iff, ih, sinceClear_concat]
      split
      · next hclear => simp [hclear]
      · next hclear => simp [hclear, or_and_right, exists_or, or_comm]

/-- **The listed paths** are those of the insertions that were answered with yes. -/
theorem paths_after : (after ops).paths = (history ops).filterMap listed? := by
  induction ops using List.reverseRecOn with
  | nil => rfl
  | append_singleton ops op ih =>
      rw [after_concat, paths_apply, ih, history_concat]
      split
      · rfl
      · rw [List.filterMap_append]
        cases hlisted : listed? (op, (after ops).answer op) <;> simp [hlisted]

/-- **A listed path is the first one of its file**: no operation before its insertion marked the
same file, whether it listed a path or not. -/
theorem pairwise_history :
    (history ops).Pairwise fun earlier later =>
      ∀ path, listed? later = some path → ¬ earlier.1.Marks path := by
  induction ops using List.reverseRecOn with
  | nil => exact .nil
  | append_singleton ops op ih =>
      rw [history_concat]
      split
      · exact .nil
      · refine List.pairwise_append.mpr ⟨ih, List.pairwise_singleton .., ?_⟩
        intro earlier hearlier later hlater path hlisted hmarks
        -- The answer would have been no, as the earlier operation marked the file.
        rw [List.mem_singleton.mp hlater, listed?_answer_eq_some_iff] at hlisted
        have hmem : earlier.1 ∈ sinceClear ops := by
          rw [← map_fst_history]
          exact List.mem_map_of_mem hearlier
        have hcontains := (contains_after_iff ops path).mpr ⟨earlier.1, hmem, hmarks⟩
        rw [hlisted.2] at hcontains
        cases hcontains

end Run

/-! ## The ordered set -/

/-- Is this the set that some operations lead to, with its paths in order, each key once, and the
roots hidden? A clearing makes it forget the roots as well. -/
structure IsOrderedSet (v : Visited) (ops : List Operation) : Prop where
  /-- It contains a path if and only if a path with the same key was inserted since the last
  clearing, as a root or not. -/
  contains_iff : ∀ path, v.contains path = true ↔
    ∃ path', (.insert path' ∈ sinceClear ops ∨ .insertRoot path' ∈ sinceClear ops) ∧
      IncludePath.key path' = IncludePath.key path
  /-- An insertion answers with yes if and only if the path was not contained before. -/
  visit_fst : ∀ path, (v.visit path).1 = true ↔ v.contains path = false
  /-- Exactly then it adds the path at the end of the list. -/
  paths_visit : ∀ path,
    (v.visit path).2.paths = if (v.visit path).1 then v.paths ++ [path] else v.paths
  /-- In the list are, in order and as they were spelled, the paths whose insertion was answered
  with yes since the last clearing. -/
  paths_eq : v.paths = (history ops).filterMap listed?
  /-- No two of them have the same key. -/
  keys_nodup : (v.paths.map IncludePath.key).Nodup
  /-- None has the key of a root that was marked before the path was inserted. -/
  roots_apart : ∀ front path behind,
    history ops = front ++ (.insert path, some true) :: behind →
      ∀ root, .insertRoot root ∈ front.map Prod.fst →
        IncludePath.key root ≠ IncludePath.key path

/-- **The visited files are an ordered set up to keys, with hidden roots**, after any operations. -/
theorem isOrderedSet_after (ops : List Operation) : (after ops).IsOrderedSet ops where
  contains_iff path := by
    rw [contains_after_iff]
    constructor
    · rintro ⟨_, hmem, @⟨path', hkey⟩ | @⟨path', hkey⟩⟩
      · exact ⟨path', .inl hmem, hkey⟩
      · exact ⟨path', .inr hmem, hkey⟩
    · rintro ⟨path', hmem | hmem, hkey⟩
      · exact ⟨_, hmem, .insert hkey⟩
      · exact ⟨_, hmem, .insertRoot hkey⟩
  visit_fst path := by
    rw [visit_eq, Bool.not_eq_true']
  paths_visit path := by
    rw [visit_eq, paths_insert_eq]
    cases (after ops).contains path <;> rfl
  paths_eq := paths_after ops
  keys_nodup := by
    rw [paths_after, List.Nodup, List.pairwise_map]
    refine (pairwise_history ops).filterMap listed? ?_
    intro earlier later hfirst path hpath path' hpath' hkey
    apply hfirst path' hpath'
    rw [listed?_eq_some_iff.mp hpath]
    exact Operation.marks_insert_iff.mpr hkey
  roots_apart front path behind hhistory root hroot hkey := by
    have hpairs := pairwise_history ops
    rw [hhistory] at hpairs
    obtain ⟨done, hdone, hop⟩ := List.mem_map.mp hroot
    apply (List.pairwise_append.mp hpairs).2.2 done hdone _ List.mem_cons_self path rfl
    rw [hop]
    exact Operation.marks_insertRoot_iff.mpr hkey

/-- A file that was included before stays listed when it is marked as a root. A root that is marked
first is never listed. -/
example : (after [.insertRoot "main.zs", .insert "Actors.zs", .insertRoot "actors.zs",
    .insert "MAIN.zs"]).paths = ["Actors.zs"] := by
  decide +kernel

end ZDecl.Visited
