/-
# `Zallet.Prog.Threads` — programs that run concurrently

`Interleave ps tr qs`: the threads `ps` have become `qs`, and `tr` lists what
each of them did in the order in which it happened.  The order is arbitrary:
at every step any thread may go on for as long as it likes.  What one thread
did is a run of that thread alone (`Interleave.own`), so a fact about all runs
of a thread is a fact about it in every interleaving, as long as the
environment it was proved for admits what the other threads do.
-/
import Zallet.Prog.Wp
import Mathlib.Logic.Function.Basic

namespace Prog

variable {E : Sig} {ε α ι : Type} [DecidableEq ι]

/-- The threads `ps` become `qs` along the labelled events. -/
inductive Interleave : (ι → Prog E ε α) → List (ι × Event E) → (ι → Prog E ε α) → Prop
  | refl (ps : ι → Prog E ε α) : Interleave ps [] ps
  | step {ps qs : ι → Prog E ε α} {q : Prog E ε α} {tr : Trace E} {tr' : List (ι × Event E)}
      (i : ι) : Run (ps i) tr q → Interleave (Function.update ps i q) tr' qs →
      Interleave ps (tr.map (fun e => (i, e)) ++ tr') qs

/-- What thread `i` did. -/
def own (i : ι) (tr : List (ι × Event E)) : Trace E :=
  tr.filterMap fun e => if e.1 = i then some e.2 else none

theorem own_append (i : ι) (tr tr' : List (ι × Event E)) :
    own i (tr ++ tr') = own i tr ++ own i tr' := by
  simp [own, List.filterMap_append]

theorem own_map_self (i : ι) (tr : Trace E) : own i (tr.map fun e => (i, e)) = tr := by
  induction tr with
  | nil => rfl
  | cons e tr ih =>
      rw [List.map_cons, own, List.filterMap_cons, if_pos rfl]
      exact congrArg (e :: ·) ih

theorem own_map_ne {i j : ι} (h : j ≠ i) (tr : Trace E) :
    own i (tr.map fun e => (j, e)) = [] := by
  induction tr with
  | nil => rfl
  | cons e tr ih =>
      rw [List.map_cons, own, List.filterMap_cons, if_neg h]
      exact ih

theorem mem_own {i : ι} {tr : List (ι × Event E)} {e : Event E} :
    e ∈ own i tr ↔ (i, e) ∈ tr := by
  simp only [own, List.mem_filterMap]
  constructor
  · rintro ⟨⟨j, e'⟩, hmem, he⟩
    by_cases hj : j = i
    · subst hj
      simp only [if_true, Option.some.injEq] at he
      exact he ▸ hmem
    · simp [hj] at he
  · intro h
    exact ⟨(i, e), h, by simp⟩

/-- An event of a thread has its place among those of the others. -/
theorem own_split {i : ι} {tr : List (ι × Event E)} {l r : Trace E} {e : Event E}
    (h : own i tr = l ++ e :: r) :
    ∃ l' r', tr = l' ++ (i, e) :: r' ∧ own i l' = l ∧ own i r' = r := by
  obtain ⟨l₁, l₂, rfl, rfl, hrest⟩ := List.filterMap_eq_append_iff.mp h
  obtain ⟨m, ⟨j, e'⟩, r', rfl, hm, he, rfl⟩ := List.filterMap_eq_cons_iff.mp hrest
  split at he
  case isTrue hj =>
    obtain rfl : j = i := hj
    cases he
    refine ⟨l₁ ++ m, r', (List.append_assoc _ _ _).symm, ?_, rfl⟩
    rw [own_append]
    have hnone : own j m = [] := List.filterMap_eq_nil_iff.mpr hm
    rw [hnone, List.append_nil]
    rfl
  case isFalse => cases he

/-- What a thread did among the others is a run of it alone. -/
theorem Interleave.own {ps qs : ι → Prog E ε α} {tr : List (ι × Event E)}
    (h : Interleave ps tr qs) (i : ι) : Run (ps i) (own i tr) (qs i) := by
  induction h with
  | refl ps => exact .refl _
  | @step ps qs q tr tr' j hr _ ih =>
      rw [own_append]
      by_cases hj : j = i
      · subst hj
        rw [own_map_self]
        rw [Function.update_self] at ih
        exact hr.trans ih
      · rw [own_map_ne hj, List.nil_append]
        rwa [Function.update_of_ne (Ne.symm hj)] at ih

/-- In every interleaving, a thread only does what its own world allows. -/
theorem Interleave.allowed {A : Event E → Prop} {G : E.Op → Prop} {c : Trace E → Prop}
    {Q : Trace E → α → Prop} {R : Trace E → ε → Prop} {ps qs : ι → Prog E ε α}
    {tr : List (ι × Event E)} {i : ι} {e : Event E} (h : Interleave ps tr qs)
    (hw : wp (World.recall A (fun _ => G) c) (ps i) Q R []) (hA : ∀ e, (i, e) ∈ tr → A e)
    (he : (i, e) ∈ tr) : G e.op := by
  have hrun := h.own i
  obtain ⟨l, r, hlr⟩ := List.append_of_mem (mem_own.mpr he)
  rw [hlr] at hrun
  refine hw.allowed hrun fun e' he' => hA e' (mem_own.mp ?_)
  rw [hlr]
  exact List.mem_append_left _ he'

end Prog
