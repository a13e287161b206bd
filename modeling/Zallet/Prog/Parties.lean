/-
# `Zallet.Prog.Parties` — threads that may not all do the same

Threads share a state, but each lives in a world of its own: what it may do,
and what it knows the others to leave alone, is not the same for all of them.
So the rely is a family here, one relation `Rel i` for what the others do to
what thread `i` has, and a step of one thread must be within the relies of all
others only, not within its own.  Beside the relies there is an invariant of
the shared state, which every step keeps and every thread may use
(`World.among`):

    wp ((W i).among Inv (Rel i)) (ps i) (Q i) (R i) s     for every thread i
    Interleave ps tr qs  →  Paths (steps of W) s tr s'
      →  the same for `qs` in `s'`, and `Inv s'`           (`Interleave.relies`)
-/
import Zallet.Prog.Rely
import Zallet.Prog.Schedule

namespace Prog

variable {E : Sig} {ε α ι S : Type}

/-! ## The environment of several threads -/

/-- The environment answers every thread as it answers that thread. -/
inductive Paths (step : ι → S → (op : E.Op) → E.Ans op → S → Prop) :
    S → List (ι × Event E) → S → Prop
  | nil (s : S) : Paths step s [] s
  | cons {i : ι} {s s₁ s' : S} {op : E.Op} {a : E.Ans op} {tr : List (ι × Event E)} :
      step i s op a s₁ → Paths step s₁ tr s' → Paths step s ((i, ⟨op, a⟩) :: tr) s'

section
variable {step : ι → S → (op : E.Op) → E.Ans op → S → Prop} {s s₁ s' : S}
  {l r : List (ι × Event E)}

theorem Paths.split (h : Paths step s (l ++ r) s') :
    ∃ s₁, Paths step s l s₁ ∧ Paths step s₁ r s' := by
  induction l generalizing s with
  | nil => exact ⟨s, .nil s, h⟩
  | cons e l ih =>
      cases h with
      | cons hstep hrest =>
          obtain ⟨s₁, hl, hr⟩ := ih hrest
          exact ⟨s₁, .cons hstep hl, hr⟩

theorem Paths.append (h : Paths step s l s₁) (h' : Paths step s₁ r s') :
    Paths step s (l ++ r) s' := by
  induction h with
  | nil s => exact h'
  | cons hstep _ ih => exact .cons hstep (ih h')

/-- Each step has with it what holds of every event. -/
theorem Paths.with_events {tr : List (ι × Event E)} {G : ι × Event E → Prop}
    (h : Paths step s tr s') (hG : ∀ e ∈ tr, G e) :
    Paths (fun i s op a s' => step i s op a s' ∧ G (i, ⟨op, a⟩)) s tr s' := by
  induction h with
  | nil s => exact .nil s
  | cons hstep _ ih =>
      have hrest := ih fun e he => hG e (List.mem_cons_of_mem _ he)
      exact .cons ⟨hstep, hG _ List.mem_cons_self⟩ hrest

/-- What one thread does is a path of its own environment. -/
theorem paths_own {i : ι} {tr : Trace E} (h : Path (step i) s tr s') :
    Paths step s (tr.map fun e => (i, e)) s' := by
  induction h with
  | nil s => exact .nil s
  | cons hstep _ ih => exact .cons hstep ih

end

/-! ## A thread among others -/

/-- The world `W` with others that move its state by `Rel`, and keep `Inv` throughout. -/
def World.among (W : World E S) (Inv : S → Prop) (Rel : S → S → Prop) : World E S where
  step s op a s' := ∃ s₁, Rel s s₁ ∧ Inv s₁ ∧ W.step s₁ op a s'
  guard s op := ∀ s₁, Rel s s₁ → Inv s₁ → W.guard s₁ op
  crash s := ∀ s₁, Rel s s₁ → Inv s₁ → W.crash s₁

/-- Relies that the threads can give each other, and an invariant that they keep together. -/
structure Relies (W : ι → World E S) (Inv : S → Prop) (Rel : ι → S → S → Prop) : Prop where
  refl : ∀ i s, Rel i s s
  trans : ∀ i s₁ s₂ s₃, Rel i s₁ s₂ → Rel i s₂ s₃ → Rel i s₁ s₃
  keeps : ∀ i s op a s', Inv s → (W i).guard s op → (W i).step s op a s' → Inv s'
  step : ∀ i j s op a s', j ≠ i → Inv s → (W i).guard s op → (W i).step s op a s' → Rel j s s'

section
variable {W : ι → World E S} {Inv : S → Prop} {Rel : ι → S → S → Prop} {s s' : S}

/-- What a thread needs is not taken away by the others. -/
theorem Relies.stable (h : Relies W Inv Rel) {i : ι} {Q : S → α → Prop} {R : S → ε → Prop}
    (hQ : ∀ a, Stable (Rel i) fun s => Q s a) (hR : ∀ e, Stable (Rel i) fun s => R s e)
    {p : Prog E ε α} : Stable (Rel i) fun s => wp ((W i).among Inv (Rel i)) p Q R s := by
  induction p with
  | ret a => exact hQ a
  | fail e => exact hR e
  | crash m =>
      intro s s' hs hc s₁ hs₁
      exact hc s₁ (h.trans i s s' s₁ hs hs₁)
  | call op k ih =>
      rintro s s' hs ⟨hguard, hk⟩
      refine ⟨fun s₁ hs₁ => hguard s₁ (h.trans i s s' s₁ hs hs₁), ?_⟩
      rintro a t ⟨s₁, hs₁, hstep⟩
      exact hk a t ⟨s₁, h.trans i s s' s₁ hs hs₁, hstep⟩
  | loop body x k ihb ihk =>
      rintro s s' hs ⟨I, hI, hbody⟩
      -- the invariant, as it was when some others had not yet moved
      refine ⟨fun y t => ∃ t₀, Rel i t₀ t ∧ I y t₀, ⟨s, hs, hI⟩, ?_⟩
      rintro y t ⟨t₀, ht, hy⟩
      refine ihb y ?_ t₀ t ht (wp_mono ?_ (fun _ _ h => h) (hbody y t₀ hy))
      · intro r u u' hu hr
        cases r with
        | inl z =>
            obtain ⟨u₀, hu₀, hz⟩ := hr
            exact ⟨u₀, h.trans i u₀ u u' hu₀ hu, hz⟩
        | inr b => exact ihk b hQ u u' hu hr
      · intro u r hr
        cases r with
        | inl z => exact ⟨u, h.refl i u, hr⟩
        | inr b => exact hr

/-- A thread that goes on alone keeps what was proved of it and the invariant, and all the others
can rely on it. -/
theorem Relies.run (h : Relies W Inv Rel) {i : ι} {Q : S → α → Prop} {R : S → ε → Prop}
    {p q : Prog E ε α} {tr : Trace E} (hp : wp ((W i).among Inv (Rel i)) p Q R s) (hs : Inv s)
    (hr : Run p tr q) (hpath : Paths (fun i => (W i).step) s (tr.map fun e => (i, e)) s') :
    wp ((W i).among Inv (Rel i)) q Q R s' ∧ Inv s' ∧ ∀ j ≠ i, Rel j s s' := by
  induction hr generalizing s with
  | refl p =>
      cases hpath
      exact ⟨hp, hs, fun j _ => h.refl j _⟩
  | @call op k a tr q _ ih =>
      cases hpath with
      | cons hstep hpath =>
          have hguard := hp.1 _ (h.refl i _) hs
          have hs₁ := h.keeps i _ op a _ hs hguard hstep
          obtain ⟨hq, hs', hrel⟩ := ih (hp.2 a _ ⟨_, h.refl i _, hs, hstep⟩) hs₁ hpath
          refine ⟨hq, hs', ?_⟩
          intro j hj
          exact h.trans j _ _ _ (h.step i j _ op a _ hj hs hguard hstep) (hrel j hj)
  | @loop σ β body x k tr q _ ih =>
      obtain ⟨I, hI, hbody⟩ := hp
      refine ih (wp_bind'.mpr (wp_mono (fun t r hr => ?_) (fun _ _ h => h) (hbody x s hI))) hs hpath
      cases r with
      | inl y => exact ⟨I, hr, hbody⟩
      | inr b => exact hr

end

/-- Threads proved alone, each in its own world, together. -/
theorem Interleave.relies [DecidableEq ι] {W : ι → World E S} {Inv : S → Prop}
    {Rel : ι → S → S → Prop} (h : Relies W Inv Rel) {Q : ι → S → α → Prop} {R : ι → S → ε → Prop}
    (hQ : ∀ i a, Stable (Rel i) fun s => Q i s a) (hR : ∀ i e, Stable (Rel i) fun s => R i s e)
    {ps qs : ι → Prog E ε α} {tr : List (ι × Event E)} {s s' : S} (hi : Interleave ps tr qs)
    (hw : ∀ i, wp ((W i).among Inv (Rel i)) (ps i) (Q i) (R i) s) (hs : Inv s)
    (hpath : Paths (fun i => (W i).step) s tr s') :
    (∀ i, wp ((W i).among Inv (Rel i)) (qs i) (Q i) (R i) s') ∧ Inv s' := by
  induction hi generalizing s with
  | refl ps =>
      cases hpath
      exact ⟨hw, hs⟩
  | @step ps qs q tr tr' i hr _ ih =>
      obtain ⟨s₁, hpath₁, hpath₂⟩ := hpath.split
      obtain ⟨hq, hs₁, hrel⟩ := h.run (hw i) hs hr hpath₁
      refine ih ?_ hs₁ hpath₂
      intro j
      by_cases hj : j = i
      · subst hj
        rwa [Function.update_self]
      · rw [Function.update_of_ne hj]
        exact h.stable (hQ j) (hR j) s s₁ (hrel j hj) (hw j)

/-! ## Running them by a schedule -/

/-- `schedule` in an environment that tells the threads apart. -/
def scheduleAs [DecidableEq ι] (answer : ι → Answer E S) :
    List (ι × Nat) → S → (ι → Prog E ε α) → List (ι × Event E) × S × (ι → Prog E ε α)
  | [], s, ps => ([], s, ps)
  | (i, n) :: turns, s, ps =>
      let r := exec (answer i) n s (ps i)
      let rest := scheduleAs answer turns r.2.1 (Function.update ps i r.2.2)
      (r.1.map (fun e => (i, e)) ++ rest.1, rest.2)

theorem scheduleAs_interleave [DecidableEq ι] (answer : ι → Answer E S) :
    ∀ (turns : List (ι × Nat)) (s : S) (ps : ι → Prog E ε α),
      Interleave ps (scheduleAs answer turns s ps).1 (scheduleAs answer turns s ps).2.2
  | [], _, ps => .refl ps
  | (i, n) :: turns, s, ps =>
      .step i (exec_run (answer i) n s (ps i)) (scheduleAs_interleave answer turns _ _)

/-- What holds of every event may be added to the steps. -/
theorem Paths.restrict {step : ι → S → (op : E.Op) → E.Ans op → S → Prop} {G : E.Op → Prop}
    {tr : List (ι × Event E)} {s s' : S}
    (h : Paths (fun i s op a s' => G op → step i s op a s') s tr s') (hG : ∀ e ∈ tr, G e.2.op) :
    Paths step s tr s' := by
  induction h with
  | nil s => exact .nil s
  | cons hstep _ ih =>
      exact .cons (hstep (hG _ List.mem_cons_self)) (ih fun e he => hG e (List.mem_cons_of_mem _ he))

/-- If every answer to the operations that are asked is a step, of the states as seen through `f`,
then the schedule gives a path. -/
theorem scheduleAs_paths [DecidableEq ι] {T : Type}
    {step : ι → T → (op : E.Op) → E.Ans op → T → Prop} {answer : ι → Answer E S} (f : S → T)
    {G : E.Op → Prop}
    (h : ∀ i s op, G op → step i (f s) op (answer i s op).1 (f (answer i s op).2))
    (turns : List (ι × Nat)) (s : S) (ps : ι → Prog E ε α)
    (hG : ∀ e ∈ (scheduleAs answer turns s ps).1, G e.2.op) :
    Paths step (f s) (scheduleAs answer turns s ps).1 (f (scheduleAs answer turns s ps).2.1) := by
  refine Paths.restrict ?_ hG
  clear hG
  induction turns generalizing s ps with
  | nil => exact .nil (f s)
  | cons turn turns ih =>
      obtain ⟨i, n⟩ := turn
      have hturn : Paths (fun i s op a s' => G op → step i s op a s') (f s)
          ((exec (answer i) n s (ps i)).1.map fun e => (i, e)) (f (exec (answer i) n s (ps i)).2.1) :=
        paths_own (exec_path f (h i) n s (ps i))
      exact hturn.append (ih _ _)

end Prog
