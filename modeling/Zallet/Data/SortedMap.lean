/-
# `Zallet.Data.SortedMap` — maps kept in the order of their keys

The part of an ordered map that code uses when it asks for an entry, for the
first entry from a key on, and adds entries.  The entries are a list whose keys
ascend strictly, so a key has one value; that is a field of the map.
Everything is stated through `get?`.
-/
import Mathlib.Order.Lattice

/-- Entries with strictly ascending keys. -/
structure SortedMap (κ α : Type) [LT κ] where
  entries : List (κ × α)
  ascending : entries.Pairwise fun x y => x.1 < y.1

namespace SortedMap

variable {κ α : Type} [LinearOrder κ] {m : SortedMap κ α} {k : κ} {a : α}

/-- The value of a key. -/
def get? (m : SortedMap κ α) (k : κ) : Option α := (m.entries.find? (·.1 = k)).map (·.2)

/-- The first entry whose key is at least `k`. -/
def firstFrom (m : SortedMap κ α) (k : κ) : Option (κ × α) := m.entries.find? (k ≤ ·.1)

def empty : SortedMap κ α := ⟨[], .nil⟩

/-- Set the value of a key. -/
def insert (m : SortedMap κ α) (k : κ) (a : α) : SortedMap κ α where
  entries := m.entries.filter (·.1 < k) ++ (k, a) :: m.entries.filter (k < ·.1)
  ascending := by
    refine List.pairwise_append.mpr ⟨m.ascending.filter _, .cons ?_ (m.ascending.filter _), ?_⟩
    · intro x hx
      simpa using (List.mem_filter.mp hx).2
    · intro x hx y hy
      have hxk : x.1 < k := by simpa using (List.mem_filter.mp hx).2
      rcases List.mem_cons.mp hy with rfl | hy
      · exact hxk
      · have hky : k < y.1 := by simpa using (List.mem_filter.mp hy).2
        exact lt_trans hxk hky

/-- A key has one entry. -/
theorem entry_unique {x y : κ × α} (hx : x ∈ m.entries) (hy : y ∈ m.entries) (h : x.1 = y.1) :
    x = y := by
  have hdistinct : m.entries.Pairwise fun x y => x.1 = y.1 → x = y :=
    m.ascending.imp fun hlt heq => absurd heq (ne_of_lt hlt)
  have hdistinct' : m.entries.Pairwise (flip fun x y => x.1 = y.1 → x = y) :=
    m.ascending.imp fun hlt heq => absurd heq.symm (ne_of_lt hlt)
  exact hdistinct.forall_of_forall_of_flip (fun _ _ _ => rfl) hdistinct' hx hy h

theorem get?_eq_some : m.get? k = some a ↔ (k, a) ∈ m.entries := by
  rw [get?, Option.map_eq_some_iff]
  constructor
  · rintro ⟨x, hx, rfl⟩
    have hkey : x.1 = k := by simpa using List.find?_some hx
    exact hkey ▸ List.mem_of_find?_eq_some hx
  · intro h
    cases hx : m.entries.find? (·.1 = k) with
    | none => exact absurd (List.find?_eq_none.mp hx _ h) (by simp)
    | some x =>
        have hkey : x.1 = k := by simpa using List.find?_some hx
        refine ⟨x, rfl, ?_⟩
        rw [entry_unique (List.mem_of_find?_eq_some hx) h hkey]

theorem get?_insert {k' : κ} :
    (m.insert k a).get? k' = if k' = k then some a else m.get? k' := by
  refine Option.ext fun b => ?_
  rw [get?_eq_some]
  simp only [insert, List.mem_append, List.mem_cons, List.mem_filter, decide_eq_true_eq]
  split
  · rename_i heq
    subst heq
    simp [eq_comm]
  · rename_i hne
    rw [get?_eq_some]
    constructor
    · rintro (⟨hmem, -⟩ | heq | ⟨hmem, -⟩)
      · exact hmem
      · exact absurd (congrArg Prod.fst heq) hne
      · exact hmem
    · intro hmem
      rcases lt_or_gt_of_ne hne with hlt | hlt
      · exact .inl ⟨hmem, hlt⟩
      · exact .inr (.inr ⟨hmem, hlt⟩)

@[simp] theorem get?_insert_self : (m.insert k a).get? k = some a := by
  rw [get?_insert, if_pos rfl]

@[simp] theorem get?_empty : (empty : SortedMap κ α).get? k = none := rfl

/-- What `firstFrom` finds is an entry of the map. -/
theorem firstFrom_some {x : κ × α} (h : m.firstFrom k = some x) :
    k ≤ x.1 ∧ m.get? x.1 = some x.2 :=
  ⟨by simpa using List.find?_some h, get?_eq_some.mpr (List.mem_of_find?_eq_some h)⟩

/-- If `firstFrom` finds nothing there is nothing to find. -/
theorem firstFrom_none (h : m.firstFrom k = none) {k' : κ} (hle : k ≤ k') : m.get? k' = none := by
  cases hget : m.get? k' with
  | none => rfl
  | some a =>
      have hnot := List.find?_eq_none.mp h _ (get?_eq_some.mp hget)
      exact absurd hle (by simpa using hnot)

end SortedMap
