/-
# `Zallet.Prog.Rely` — threads that share a state

The state of a world is shared when, between two operations of one thread, the
others may have moved it.  All that is known of those moves is a relation
`Rel`, the rely; `W.shared Rel` is the world a thread lives in then.  Every
thread's precondition is proved there, alone.  If whatever a guard allows moves
the state within `Rel`, the threads are each other's environment, and what was
proved of each holds of it in every interleaving of all of them:

    wp (W.shared Rel) (ps i) (Q i) (R i) s        for every thread i
    Interleave ps tr qs  →  Path W.step s (events of tr) s'
      →  wp (W.shared Rel) (qs i) (Q i) (R i) s'   (`Interleave.rely`)
-/
import Zallet.Prog.Threads

namespace Prog

variable {E : Sig} {ε α ι S : Type}

/-- The world `W` with others that move its state by `Rel`. -/
def World.shared (W : World E S) (Rel : S → S → Prop) : World E S where
  step s op a s' := ∃ s₁, Rel s s₁ ∧ W.step s₁ op a s'
  guard s op := ∀ s₁, Rel s s₁ → W.guard s₁ op
  crash s := ∀ s₁, Rel s s₁ → W.crash s₁

/-- A condition that the moves of others keep. -/
def Stable (Rel : S → S → Prop) (P : S → Prop) : Prop := ∀ s s', Rel s s' → P s → P s'

/-- A relation the threads of `W` can rely on: doing nothing and doing one thing after another
are moves, and so is whatever a guard allows. -/
structure Rely (W : World E S) (Rel : S → S → Prop) : Prop where
  refl : ∀ s, Rel s s
  trans : ∀ s₁ s₂ s₃, Rel s₁ s₂ → Rel s₂ s₃ → Rel s₁ s₃
  step : ∀ s op a s', W.guard s op → W.step s op a s' → Rel s s'

section
variable {W : World E S} {Rel : S → S → Prop} {Q : S → α → Prop} {R : S → ε → Prop} {s s' : S}

/-- What a program needs is not taken away by the others. -/
theorem Rely.stable (h : Rely W Rel) {p : Prog E ε α} (hQ : ∀ a, Stable Rel fun s => Q s a)
    (hR : ∀ e, Stable Rel fun s => R s e) :
    Stable Rel fun s => wp (W.shared Rel) p Q R s := by
  induction p with
  | ret a => exact hQ a
  | fail e => exact hR e
  | crash m =>
      intro s s' hs hc s₁ hs₁
      exact hc s₁ (h.trans s s' s₁ hs hs₁)
  | call op k ih =>
      rintro s s' hs ⟨hguard, hk⟩
      refine ⟨fun s₁ hs₁ => hguard s₁ (h.trans s s' s₁ hs hs₁), ?_⟩
      rintro a t ⟨s₁, hs₁, hstep⟩
      exact hk a t ⟨s₁, h.trans s s' s₁ hs hs₁, hstep⟩
  | loop body x k ihb ihk =>
      rintro s s' hs ⟨I, hI, hbody⟩
      -- the invariant, as it was when some others had not yet moved
      refine ⟨fun y t => ∃ t₀, Rel t₀ t ∧ I y t₀, ⟨s, hs, hI⟩, ?_⟩
      rintro y t ⟨t₀, ht, hy⟩
      refine ihb y ?_ t₀ t ht (wp_mono ?_ (fun _ _ h => h) (hbody y t₀ hy))
      · intro r u u' hu hr
        cases r with
        | inl z =>
            obtain ⟨u₀, hu₀, hz⟩ := hr
            exact ⟨u₀, h.trans u₀ u u' hu₀ hu, hz⟩
        | inr b => exact ihk b hQ u u' hu hr
      · intro u r hr
        cases r with
        | inl z => exact ⟨u, h.refl u, hr⟩
        | inr b => exact hr

/-- A thread that goes on alone keeps what was proved of it, and the others can rely on that. -/
theorem Rely.run (h : Rely W Rel) {p q : Prog E ε α} {tr : Trace E}
    (hp : wp (W.shared Rel) p Q R s) (hr : Run p tr q) (hpath : Path W.step s tr s') :
    wp (W.shared Rel) q Q R s' ∧ Rel s s' := by
  induction hr generalizing s with
  | refl p =>
      cases hpath
      exact ⟨hp, h.refl _⟩
  | @call op k a tr q _ ih =>
      cases hpath with
      | @cons _ s₁ _ _ _ _ hstep hpath =>
          have hguard := hp.1 s (h.refl s)
          obtain ⟨hq, hrel⟩ := ih (hp.2 a s₁ ⟨s, h.refl s, hstep⟩) hpath
          exact ⟨hq, h.trans s s₁ s' (h.step s op a s₁ hguard hstep) hrel⟩
  | @loop σ β body x k tr q _ ih =>
      obtain ⟨I, hI, hbody⟩ := hp
      refine ih (wp_bind'.mpr (wp_mono (fun t r hr => ?_) (fun _ _ h => h) (hbody x s hI))) hpath
      cases r with
      | inl y => exact ⟨I, hr, hbody⟩
      | inr b => exact hr

end

/-- Threads proved alone, together. -/
theorem Interleave.rely [DecidableEq ι] {W : World E S} {Rel : S → S → Prop} (h : Rely W Rel)
    {Q : ι → S → α → Prop} {R : ι → S → ε → Prop} (hQ : ∀ i a, Stable Rel fun s => Q i s a)
    (hR : ∀ i e, Stable Rel fun s => R i s e) {ps qs : ι → Prog E ε α}
    {tr : List (ι × Event E)} {s s' : S} (hi : Interleave ps tr qs)
    (hw : ∀ i, wp (W.shared Rel) (ps i) (Q i) (R i) s)
    (hpath : Path W.step s (tr.map Prod.snd) s') :
    (∀ i, wp (W.shared Rel) (qs i) (Q i) (R i) s') ∧ Rel s s' := by
  induction hi generalizing s with
  | refl ps =>
      cases hpath
      exact ⟨hw, h.refl _⟩
  | @step ps qs q tr tr' i hr _ ih =>
      have hown : (tr.map fun e => (i, e)).map Prod.snd = tr := by
        rw [List.map_map]
        exact List.map_id tr
      rw [List.map_append, hown] at hpath
      obtain ⟨s₁, hpath₁, hpath₂⟩ := hpath.split
      obtain ⟨hq, hrel⟩ := h.run (hw i) hr hpath₁
      have hothers : ∀ j, wp (W.shared Rel) (Function.update ps i q j) (Q j) (R j) s₁ := by
        intro j
        by_cases hj : j = i
        · subst hj
          rwa [Function.update_self]
        · rw [Function.update_of_ne hj]
          exact h.stable (hQ j) (hR j) s s₁ hrel (hw j)
      obtain ⟨hqs, hrel'⟩ := ih hothers hpath₂
      exact ⟨hqs, h.trans s s₁ s' hrel hrel'⟩

end Prog
