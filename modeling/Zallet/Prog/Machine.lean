/-
# `Zallet.Prog.Machine` — machines that take one action at a time

A machine says which actions it can take in a state, and what state follows.
The action names whatever is left open, who moves and what the outside gives,
so a run is a list of actions: `Runs s as` is that they can be taken one after
the other from `s`, and `after s as` is where that leads.  Invariants are shown
once, by `Machine.invariant`.  A machine restricted by a condition takes only
the actions that meet it, in the states in which they do.
-/

/-- Actions on states, some of them enabled. -/
structure Machine (S A : Type) where
  enabled : S → A → Prop
  next : S → A → S

namespace Machine

variable {S A : Type} {m : Machine S A} {C D : S → A → Prop} {s : S} {a : A} {as bs : List A}

/-- The actions can be taken, one after the other. -/
def Runs (m : Machine S A) : S → List A → Prop
  | _, [] => True
  | s, a :: as => m.enabled s a ∧ m.Runs (m.next s a) as

instance decRuns [∀ s a, Decidable (m.enabled s a)] : ∀ s as, Decidable (m.Runs s as)
  | _, [] => .isTrue trivial
  | s, a :: as =>
      have := decRuns (m.next s a) as
      inferInstanceAs (Decidable (m.enabled s a ∧ m.Runs (m.next s a) as))

/-- The state after some actions. -/
def after (m : Machine S A) (s : S) (as : List A) : S := as.foldl m.next s

/-- The machine that takes only actions that meet `C`. -/
def restrict (m : Machine S A) (C : S → A → Prop) : Machine S A where
  enabled s a := m.enabled s a ∧ C s a
  next := m.next

instance decRestrict [∀ s a, Decidable (m.enabled s a)] [∀ s a, Decidable (C s a)] :
    ∀ s a, Decidable ((m.restrict C).enabled s a) :=
  fun s a => inferInstanceAs (Decidable (m.enabled s a ∧ C s a))

@[simp] theorem after_nil : m.after s [] = s := rfl

@[simp] theorem after_cons : m.after s (a :: as) = m.after (m.next s a) as := rfl

@[simp] theorem after_restrict : (m.restrict C).after s as = m.after s as := rfl

theorem after_append : m.after s (as ++ bs) = m.after (m.after s as) bs := List.foldl_append

/-- What holds at first and is kept by every action holds after every run. -/
theorem invariant {I : S → Prop} (hstep : ∀ s a, I s → m.enabled s a → I (m.next s a)) (h : I s)
    (hrun : m.Runs s as) : I (m.after s as) := by
  induction as generalizing s with
  | nil => exact h
  | cons a as ih =>
      rw [after_cons]
      exact ih (hstep s a h hrun.1) hrun.2

/-- The same for the actions that meet a condition. -/
theorem invariant_of {I : S → Prop} (hstep : ∀ s a, I s → m.enabled s a → C s a → I (m.next s a))
    (h : I s) (hrun : (m.restrict C).Runs s as) : I (m.after s as) :=
  (m.restrict C).invariant (fun s a hs ha => hstep s a hs ha.1 ha.2) h hrun

theorem Runs.imp (hstep : ∀ s a, C s a → D s a) (hrun : (m.restrict C).Runs s as) :
    (m.restrict D).Runs s as := by
  induction as generalizing s with
  | nil => trivial
  | cons a as ih => exact ⟨⟨hrun.1.1, hstep s a hrun.1.2⟩, ih hrun.2⟩

theorem Runs.unrestrict (hrun : (m.restrict C).Runs s as) : m.Runs s as := by
  induction as generalizing s with
  | nil => trivial
  | cons a as ih => exact ⟨hrun.1.1, ih hrun.2⟩

end Machine
