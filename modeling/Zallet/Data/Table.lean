/-
# `Zallet.Data.Table` — rows that are inserted once

A table is its rows, a key with a value, in the order they came.  `insertNew` is
`INSERT … ON CONFLICT (key) DO NOTHING`: a row whose key is there already is
dropped.  So inserting rows again changes nothing (`insertAll_again`), and a
sequence of inserts that was broken off can be done over from its start
(`insertAll_prefix`).
-/
import Mathlib.Data.List.Basic

/-- The rows of a table. -/
abbrev Table (κ ν : Type) := List (κ × ν)

namespace Table

variable {κ ν μ : Type} [DecidableEq κ]

def insertNew (t : Table κ ν) (row : κ × ν) : Table κ ν :=
  if row.1 ∈ t.map (·.1) then t else t ++ [row]

/-- Insert one after the other. -/
def insertAll (t : Table κ ν) (rows : List (κ × ν)) : Table κ ν := rows.foldl insertNew t

/-- What a query for the row of a key may find. -/
def Finds (t : Table κ ν) (k : κ) : Option ν → Prop
  | some v => (k, v) ∈ t
  | none => k ∉ t.map (·.1)

/-- The same keys, the values seen through `f`. -/
def mapValues (f : ν → μ) (t : Table κ ν) : Table κ μ := t.map fun row => (row.1, f row.2)

section
variable {t : Table κ ν} {row : κ × ν} {rows : List (κ × ν)}

@[simp] theorem insertAll_nil : insertAll t [] = t := rfl

@[simp] theorem insertAll_cons : insertAll t (row :: rows) = insertAll (insertNew t row) rows := rfl

theorem insertAll_append {rest : List (κ × ν)} :
    insertAll t (rows ++ rest) = insertAll (insertAll t rows) rest := List.foldl_append

theorem insertNew_of_mem (h : row.1 ∈ t.map (·.1)) : insertNew t row = t := if_pos h

theorem insertNew_of_notMem (h : row.1 ∉ t.map (·.1)) : insertNew t row = t ++ [row] := if_neg h

theorem key_mem_insertNew : row.1 ∈ (insertNew t row).map (·.1) := by
  by_cases h : row.1 ∈ t.map (·.1)
  · rwa [insertNew_of_mem h]
  · rw [insertNew_of_notMem h]
    simp

/-- Keys stay. -/
theorem keys_insertNew {k : κ} (h : k ∈ t.map (·.1)) : k ∈ (insertNew t row).map (·.1) := by
  by_cases hrow : row.1 ∈ t.map (·.1)
  · rwa [insertNew_of_mem hrow]
  · rw [insertNew_of_notMem hrow, List.map_append]
    exact List.mem_append_left _ h

theorem keys_insertAll {k : κ} (h : k ∈ t.map (·.1)) : k ∈ (insertAll t rows).map (·.1) := by
  induction rows generalizing t with
  | nil => exact h
  | cons row rows ih => exact ih (keys_insertNew h)

theorem key_mem_insertAll (h : row ∈ rows) : row.1 ∈ (insertAll t rows).map (·.1) := by
  induction rows generalizing t with
  | nil => cases h
  | cons row' rows ih =>
      rcases List.mem_cons.mp h with rfl | h
      · exact keys_insertAll (t := insertNew t row) key_mem_insertNew
      · exact ih h

/-- Rows whose keys are all there change nothing. -/
theorem insertAll_of_mem (h : ∀ row ∈ rows, row.1 ∈ t.map (·.1)) : insertAll t rows = t := by
  induction rows with
  | nil => rfl
  | cons row rows ih =>
      rw [insertAll_cons, insertNew_of_mem (h row List.mem_cons_self)]
      exact ih fun row' hrow' => h row' (List.mem_cons_of_mem _ hrow')

theorem insertAll_again : insertAll (insertAll t rows) rows = insertAll t rows :=
  insertAll_of_mem fun _ => key_mem_insertAll

theorem prefix_insertNew : t <+: insertNew t row := by
  by_cases h : row.1 ∈ t.map (·.1)
  · simp [insertNew_of_mem h]
  · simp [insertNew_of_notMem h]

/-- Rows stay, in their order. -/
theorem prefix_insertAll : t <+: insertAll t rows := by
  induction rows generalizing t with
  | nil => exact List.prefix_rfl
  | cons row rows ih => exact prefix_insertNew.trans ih

theorem mem_insertNew {r : κ × ν} (h : r ∈ insertNew t row) : r ∈ t ∨ r = row := by
  by_cases hrow : row.1 ∈ t.map (·.1)
  · rw [insertNew_of_mem hrow] at h
    exact .inl h
  · rw [insertNew_of_notMem hrow, List.mem_append, List.mem_singleton] at h
    exact h

/-- No row comes from elsewhere. -/
theorem mem_insertAll {r : κ × ν} (h : r ∈ insertAll t rows) : r ∈ t ∨ r ∈ rows := by
  induction rows generalizing t with
  | nil => exact .inl h
  | cons row rows ih =>
      rcases ih h with h | h
      · rcases mem_insertNew h with h | rfl
        · exact .inl h
        · exact .inr List.mem_cons_self
      · exact .inr (List.mem_cons_of_mem _ h)

theorem nodup_insertNew (h : (t.map (·.1)).Nodup) : ((insertNew t row).map (·.1)).Nodup := by
  by_cases hrow : row.1 ∈ t.map (·.1)
  · rwa [insertNew_of_mem hrow]
  · rw [insertNew_of_notMem hrow, List.map_append]
    refine List.nodup_append.mpr ⟨h, List.pairwise_singleton _ _, ?_⟩
    intro k hk k' hk' heq
    obtain rfl := List.mem_singleton.mp hk'
    have hkey : k = row.1 := heq
    rw [hkey] at hk
    exact hrow hk

/-- No key comes twice. -/
theorem nodup_insertAll (h : (t.map (·.1)).Nodup) : ((insertAll t rows).map (·.1)).Nodup := by
  induction rows generalizing t with
  | nil => exact h
  | cons row rows ih => exact ih (nodup_insertNew h)

/-- Some of the rows, and then all of them, is all of them. -/
theorem insertAll_prefix {done : List (κ × ν)} (h : done <+: rows) :
    insertAll (insertAll t done) rows = insertAll t rows := by
  obtain ⟨rest, rfl⟩ := h
  rw [insertAll_append, insertAll_again, ← insertAll_append]

end

section
variable {f : ν → μ} {t : Table κ ν}

omit [DecidableEq κ] in
theorem keys_mapValues : (mapValues f t).map (·.1) = t.map (·.1) := by
  simp [mapValues, Function.comp_def]

/-- What is inserted goes by the keys alone. -/
theorem mapValues_insertNew {row : κ × ν} :
    mapValues f (insertNew t row) = insertNew (mapValues f t) (row.1, f row.2) := by
  by_cases h : row.1 ∈ t.map (·.1)
  · rw [insertNew_of_mem h, insertNew_of_mem (by rwa [keys_mapValues])]
  · rw [insertNew_of_notMem h, insertNew_of_notMem (by rwa [keys_mapValues])]
    simp [mapValues]

end

end Table
