/-
# `Zallet.Prog.Wp` — weakest preconditions

A `World` is what a proof assumes of the environment and demands of the
program: how the environment's state may move when it answers an operation
(`step`), what must hold for the program to be allowed to ask (`guard`), and
where it may crash (`crash`).

`wp W p Q R s` is read off the program tree: from state `s`, `p` only asks
what the guard allows, returns in `Q`, fails in `R`, and crashes only where
`W.crash` holds.  A loop needs an invariant, and the definition says so.  It is
partial correctness, and `wp.sound` says of what: of all runs of `p` whose
answers follow the world's steps.

    wp W p Q R s  →  Run p tr q  →  Path W.step s tr s'  →  Fits W Q R s' q

Proofs about one program in two worlds are related by `wp.sim`.  The world that
remembers everything, `World.history`, is where a function is best described
once: what it did is then in its postcondition, and `wp.of_history` carries
the description to any world its caller lives in.
-/
import Zallet.Prog.Run

namespace Prog

variable {E : Sig} {ε ε' δ α β γ σ S : Type}

/-- An environment with state `S`, and what it asks of the programs that use it. -/
structure World (E : Sig) (S : Type) where
  step : S → (op : E.Op) → E.Ans op → S → Prop
  guard : S → E.Op → Prop
  crash : S → Prop

/-- The weakest precondition of a program. -/
def wp (W : World E S) : {α : Type} → Prog E ε α → (S → α → Prop) → (S → ε → Prop) → S → Prop
  | _, .ret a, Q, _, s => Q s a
  | _, .fail e, _, R, s => R s e
  | _, .crash _, _, _, s => W.crash s
  | _, .call op k, Q, R, s =>
      W.guard s op ∧ ∀ a s', W.step s op a s' → wp W (k a) Q R s'
  | _, .loop (σ := σ) body x k, Q, R, s =>
      ∃ I : σ → S → Prop, I x s ∧ ∀ y t, I y t →
        wp W (body y) (fun t => Sum.elim (fun z => I z t) (fun b => wp W (k b) Q R t)) R t

/-- A postcondition of a `Result`. -/
def Ends (Q : α → Prop) (R : ε → Prop) : Except ε α → Prop
  | .ok a => Q a
  | .error e => R e

@[simp] theorem ends_ok {Q : α → Prop} {R : ε → Prop} {a : α} : Ends Q R (.ok a) ↔ Q a := Iff.rfl

@[simp] theorem ends_error {Q : α → Prop} {R : ε → Prop} {e : ε} :
    Ends Q R (.error e) ↔ R e := Iff.rfl

theorem ends_mapError {Q : α → Prop} {R : ε → Prop} {f : δ → ε} {x : Except δ α} :
    Ends Q R (x.mapError f) ↔ Ends Q (fun e => R (f e)) x := by
  cases x <;> rfl

section
variable {W : World E S} {Q : S → α → Prop} {R : S → ε → Prop} {s : S}

/-! ## Rules -/

@[simp] theorem wp_ret {a : α} : wp W (.ret a) Q R s ↔ Q s a := Iff.rfl

@[simp] theorem wp_pure {a : α} : wp W (pure a : Prog E ε α) Q R s ↔ Q s a := Iff.rfl

@[simp] theorem wp_fail {e : ε} : wp W (.fail e) Q R s ↔ R s e := Iff.rfl

theorem wp_call {op : E.Op} {k : E.Ans op → Prog E ε α} :
    wp W (.call op k) Q R s ↔ W.guard s op ∧ ∀ a s', W.step s op a s' → wp W (k a) Q R s' :=
  Iff.rfl

@[simp] theorem wp_ask {op : E.Op} {Q : S → E.Ans op → Prop} :
    wp W (ask op : Prog E ε _) Q R s ↔
      W.guard s op ∧ ∀ a s', W.step s op a s' → Q s' a := Iff.rfl

@[simp] theorem wp_ofExcept {f : δ → ε} {x : Except δ α} :
    wp W (ofExcept f x) Q R s ↔ Ends (Q s) (fun e => R s (f e)) x := by
  cases x <;> rfl

@[simp] theorem wp_query {op : E.Op} {f : E.Ans op → Except ε α} :
    wp W (query op f) Q R s ↔
      W.guard s op ∧ ∀ a s', W.step s op a s' → Ends (Q s') (R s') (f a) := by
  simp only [query, wp_call, wp_ofExcept, id]

@[simp] theorem wp_check {c : Prop} [Decidable c] {msg : String} {Q : S → Unit → Prop} :
    wp W (check c msg : Prog E ε Unit) Q R s ↔ (c → Q s ()) ∧ (¬ c → W.crash s) := by
  by_cases h : c
  · simp [check, h]
  · simp [check, h, wp]

theorem wp_bind' {f : α → Prog E ε β} {Q : S → β → Prop} {p : Prog E ε α} :
    wp W (p.bind f) Q R s ↔ wp W p (fun t a => wp W (f a) Q R t) R s := by
  induction p generalizing s with
  | ret a => rfl
  | fail e => rfl
  | crash m => rfl
  | call op k ih => simp only [bind, wp, ih]
  | loop body x k _ ihk => simp only [bind, wp, ihk]

@[simp] theorem wp_bind {f : α → Prog E ε β} {Q : S → β → Prop} {p : Prog E ε α} :
    wp W (p >>= f) Q R s ↔ wp W p (fun t a => wp W (f a) Q R t) R s := wp_bind'

@[simp] theorem wp_map {f : α → β} {Q : S → β → Prop} {p : Prog E ε α} :
    wp W (f <$> p) Q R s ↔ wp W p (fun t a => Q t (f a)) R s := wp_bind'

theorem wp_mono {Q' : S → α → Prop} {R' : S → ε → Prop} (hQ : ∀ t a, Q t a → Q' t a)
    (hR : ∀ t e, R t e → R' t e) {p : Prog E ε α} (h : wp W p Q R s) : wp W p Q' R' s := by
  induction p generalizing s with
  | ret a => exact hQ s a h
  | fail e => exact hR s e h
  | crash m => exact h
  | call op k ih => exact ⟨h.1, fun a s' hs => ih a hQ (h.2 a s' hs)⟩
  | loop body x k ihb ihk =>
      obtain ⟨I, hI, hstep⟩ := h
      refine ⟨I, hI, fun y t hy => ihb y ?_ (hstep y t hy)⟩
      intro t r hr
      cases r with
      | inl z => exact hr
      | inr b => exact ihk b hQ hr

@[simp] theorem wp_mapErr {f : ε → ε'} {R : S → ε' → Prop} {p : Prog E ε α} :
    wp W (p.mapErr f) Q R s ↔ wp W p Q (fun t e => R t (f e)) s := by
  induction p generalizing s with
  | ret a => rfl
  | fail e => rfl
  | crash m => rfl
  | call op k ih => simp only [mapErr, wp, ih]
  | loop body x k ihb ihk => simp only [mapErr, wp, ihb, ihk]

@[simp] theorem wp_attempt {Q : S → Except ε α → Prop} {R : S → ε' → Prop}
    {p : Prog E ε α} :
    wp W (p.attempt : Prog E ε' _) Q R s ↔
      wp W p (fun t a => Q t (.ok a)) (fun t e => Q t (.error e)) s := by
  induction p generalizing s with
  | ret a => rfl
  | fail e => rfl
  | crash m => rfl
  | call op k ih => simp only [attempt, wp, ih]
  | loop body x k ihb ihk =>
      simp only [attempt, wp, wp_bind', ihb]
      -- the two bodies differ in how a turn's outcome is wrapped, not in the invariant
      refine exists_congr fun I => and_congr_right fun _ => forall_congr' fun y =>
        forall_congr' fun t => imp_congr_right fun _ => ?_
      constructor
      · refine wp_mono (fun t r hr => ?_) fun _ _ h => h
        cases r with
        | inl z => exact hr
        | inr b => exact (ihk b).mp hr
      · refine wp_mono (fun t r hr => ?_) fun _ _ h => h
        cases r with
        | inl z => exact hr
        | inr b => exact (ihk b).mpr hr

/-- The loop rule: an invariant of the loop variables and the state. -/
theorem wp_iterate {x : σ} {body : σ → Prog E ε (σ ⊕ α)} (I : σ → S → Prop) (h₀ : I x s)
    (h : ∀ y t, I y t → wp W (body y) (fun t => Sum.elim (fun z => I z t) (Q t)) R t) :
    wp W (iterate x body) Q R s :=
  ⟨I, h₀, h⟩

/-- The rule for a fold over a list: an invariant of the elements already visited, the
accumulator and the state. -/
theorem wp_foldlM {f : σ → γ → Prog E ε σ} {xs : List γ} {x : σ}
    (I : List γ → σ → S → Prop) (h₀ : I [] x s)
    (h : ∀ l c r y t, xs = l ++ c :: r → I l y t →
      wp W (f y c) (fun t z => I (l ++ [c]) z t) R t) :
    wp W (xs.foldlM f x) (fun t z => I xs z t) R s := by
  suffices H : ∀ (r l : List γ) (y : σ) (t : S), xs = l ++ r → I l y t →
      wp W (r.foldlM f y) (fun t z => I xs z t) R t from H xs [] x s rfl h₀
  intro r
  induction r with
  | nil =>
      intro l y t hxs hy
      rw [List.append_nil] at hxs
      exact hxs ▸ hy
  | cons c r ih =>
      intro l y t hxs hy
      rw [List.foldlM_cons, wp_bind]
      refine wp_mono (fun t z hz => ih (l ++ [c]) z t ?_ hz) (fun _ _ h => h) (h l c r y t hxs hy)
      rw [hxs, List.append_assoc, List.singleton_append]

/-- The rule for a loop over a list that keeps no accumulator: an invariant of the elements
already visited and the state. -/
theorem wp_forM {f : γ → Prog E ε PUnit} {xs : List γ} (I : List γ → S → Prop)
    (h₀ : I [] s)
    (h : ∀ l c r t, xs = l ++ c :: r → I l t → wp W (f c) (fun t _ => I (l ++ [c]) t) R t) :
    wp W (forM xs f) (fun t _ => I xs t) R s := by
  suffices H : ∀ (r l : List γ) (t : S), xs = l ++ r → I l t →
      wp W (forM r f) (fun t _ => I xs t) R t from H xs [] s rfl h₀
  intro r
  induction r with
  | nil =>
      intro l t hxs ht
      rw [List.append_nil] at hxs
      exact hxs ▸ ht
  | cons c r ih =>
      intro l t hxs ht
      rw [List.forM_cons, wp_bind]
      refine wp_mono (fun t _ ht => ih (l ++ [c]) t ?_ ht) (fun _ _ h => h) (h l c r t hxs ht)
      rw [hxs, List.append_assoc, List.singleton_append]

end

/-! ## What it means for runs -/

/-- Where a run may have got to. -/
def Fits (W : World E S) (Q : S → α → Prop) (R : S → ε → Prop) (s : S) : Prog E ε α → Prop
  | .ret a => Q s a
  | .fail e => R s e
  | .crash _ => W.crash s
  | .call op _ => W.guard s op
  | .loop _ _ _ => True

section
variable {W : World E S} {Q : S → α → Prop} {R : S → ε → Prop} {s s' : S}

theorem wp.fits : ∀ {p : Prog E ε α}, wp W p Q R s → Fits W Q R s p
  | .ret _, h => h
  | .fail _, h => h
  | .crash _, h => h
  | .call _ _, h => h.1
  | .loop _ _ _, _ => trivial

/-- The precondition follows the program along its runs. -/
theorem wp.run {p q : Prog E ε α} {tr : Trace E} (h : wp W p Q R s) (hr : Run p tr q)
    (hp : Path W.step s tr s') : wp W q Q R s' := by
  induction hr generalizing s with
  | refl p => cases hp; exact h
  | call _ ih =>
      cases hp with
      | cons hs hp => exact ih (h.2 _ _ hs) hp
  | @loop σ β body x k tr q _ ih =>
      obtain ⟨I, hI, hstep⟩ := h
      refine ih (wp_bind'.mpr (wp_mono (fun t r hr => ?_) (fun _ _ h => h) (hstep x s hI))) hp
      cases r with
      | inl y => exact ⟨I, hr, hstep⟩
      | inr b => exact hr

/-- Soundness: every run of `p` stays where `wp` put it. -/
theorem wp.sound {p q : Prog E ε α} {tr : Trace E} (h : wp W p Q R s) (hr : Run p tr q)
    (hp : Path W.step s tr s') : Fits W Q R s' q :=
  (h.run hr hp).fits

/-- Every operation on a run was asked for in a state its guard allows. -/
theorem wp.guarded {p q : Prog E ε α} {l r : Trace E} {e : Event E} (h : wp W p Q R s)
    (hr : Run p (l ++ e :: r) q) (hp : Path W.step s l s') : W.guard s' e.op := by
  obtain ⟨k, hr', -⟩ := hr.split
  exact h.sound hr' hp

/-- What every allowed step keeps is kept along every run. -/
theorem wp.keeps {I : S → Prop} {p q : Prog E ε α} {tr : Trace E} (h : wp W p Q R s)
    (hr : Run p tr q) (hp : Path W.step s tr s')
    (hstep : ∀ s op a s', I s → W.guard s op → W.step s op a s' → I s') : I s → I s' := by
  induction hr generalizing s with
  | refl p =>
      cases hp
      exact id
  | call _ ih =>
      cases hp with
      | cons hs hp =>
          intro hI
          exact ih (h.2 _ _ hs) hp (hstep _ _ _ _ hI h.1 hs)
  | @loop σ β body x k tr q _ ih =>
      obtain ⟨J, hJ, hbody⟩ := h
      refine ih (wp_bind'.mpr (wp_mono (fun t r hr => ?_) (fun _ _ h => h) (hbody x s hJ))) hp
      cases r with
      | inl y => exact ⟨J, hr, hbody⟩
      | inr b => exact hr

end

/-! ## From one world to another -/

/-- If `W₂` moves only as `W₁` does, up to a relation of their states, and demands no more,
then a precondition in `W₁` is one in `W₂`. -/
theorem wp.sim {S₁ S₂ : Type} {W₁ : World E S₁} {W₂ : World E S₂} (Sim : S₁ → S₂ → Prop)
    (hguard : ∀ s t op, Sim s t → W₁.guard s op → W₂.guard t op)
    (hstep : ∀ s t op a t', Sim s t → W₁.guard s op → W₂.step t op a t' →
      ∃ s', W₁.step s op a s' ∧ Sim s' t')
    (hcrash : ∀ s t, Sim s t → W₁.crash s → W₂.crash t)
    {Q₁ : S₁ → α → Prop} {R₁ : S₁ → ε → Prop} {Q₂ : S₂ → α → Prop} {R₂ : S₂ → ε → Prop}
    (hQ : ∀ s t a, Sim s t → Q₁ s a → Q₂ t a) (hR : ∀ s t e, Sim s t → R₁ s e → R₂ t e)
    {p : Prog E ε α} {s : S₁} {t : S₂} (h : wp W₁ p Q₁ R₁ s) (hst : Sim s t) :
    wp W₂ p Q₂ R₂ t := by
  induction p generalizing s t with
  | ret a => exact hQ s t a hst h
  | fail e => exact hR s t e hst h
  | crash m => exact hcrash s t hst h
  | call op k ih =>
      refine ⟨hguard s t op hst h.1, fun a t' ht => ?_⟩
      obtain ⟨s', hs, hst'⟩ := hstep s t op a t' hst h.1 ht
      exact ih a hQ (h.2 a s' hs) hst'
  | loop body x k ihb ihk =>
      obtain ⟨I, hI, hbody⟩ := h
      refine ⟨fun y t => ∃ s, Sim s t ∧ I y s, ⟨s, hst, hI⟩, fun y t hy => ?_⟩
      obtain ⟨s, hst, hy⟩ := hy
      refine ihb y (fun s t r hst hr => ?_) (hbody y s hy) hst
      cases r with
      | inl z => exact ⟨s, hst, hr⟩
      | inr b => exact ihk b hQ hr hst

/-! ## Worlds that remember

The state is everything that happened so far. -/

/-- Answers restricted by `A`, operations by `G`, which may look back at the run. -/
def World.recall (A : Event E → Prop) (G : Trace E → E.Op → Prop)
    (crash : Trace E → Prop) : World E (Trace E) where
  step tr op a tr' := A ⟨op, a⟩ ∧ tr' = tr ++ [⟨op, a⟩]
  guard := G
  crash := crash

/-- The world for describing a program: any answer may come, and nothing may crash. -/
abbrev World.history (G : E.Op → Prop) : World E (Trace E) :=
  World.recall (fun _ => True) (fun _ => G) fun _ => False

section
variable {A : Event E → Prop} {G : Trace E → E.Op → Prop} {c : Trace E → Prop}

theorem World.recall_step {tr tr' : Trace E} {op : E.Op} {a : E.Ans op}
    (h : (World.recall A G c).step tr op a tr') : A ⟨op, a⟩ ∧ tr <+: tr' ∧ ⟨op, a⟩ ∈ tr' := by
  obtain ⟨hA, rfl⟩ := h
  exact ⟨hA, List.prefix_append _ _, List.mem_append_right _ (List.mem_singleton_self _)⟩

theorem World.history_step {G : E.Op → Prop} {tr tr' : Trace E} {op : E.Op} {a : E.Ans op}
    (h : (World.history G).step tr op a tr') : tr <+: tr' ∧ ⟨op, a⟩ ∈ tr' :=
  (World.recall_step h).2

theorem Path.recall {tr tr' : Trace E} (h : ∀ e ∈ tr', A e) :
    Path (World.recall A G c).step tr tr' (tr ++ tr') := by
  induction tr' generalizing tr with
  | nil =>
      rw [List.append_nil]
      exact .nil tr
  | cons e tr' ih =>
      have hrest := @ih (tr ++ [e]) fun e' he' => h e' (List.mem_cons_of_mem _ he')
      rw [List.append_assoc, List.singleton_append] at hrest
      exact .cons ⟨h e List.mem_cons_self, rfl⟩ hrest

theorem Path.recall_inv {tr t s : Trace E} (h : Path (World.recall A G c).step s tr t) :
    t = s ++ tr ∧ ∀ e ∈ tr, A e := by
  induction h with
  | nil s => exact ⟨(List.append_nil s).symm, by simp⟩
  | cons hstep _ ih =>
      obtain ⟨hA, rfl⟩ := hstep
      obtain ⟨rfl, hrest⟩ := ih
      refine ⟨by simp, fun e he => ?_⟩
      rcases List.mem_cons.mp he with rfl | he
      · exact hA
      · exact hrest e he

/-- Every operation on a run was allowed by what happened before it. -/
theorem wp.allowed {Q : Trace E → α → Prop} {R : Trace E → ε → Prop} {p q : Prog E ε α}
    {l r : Trace E} {e : Event E} (h : wp (World.recall A G c) p Q R [])
    (hr : Run p (l ++ e :: r) q) (hA : ∀ e ∈ l, A e) : G l e.op :=
  h.guarded hr (Path.recall hA)

end

/-- The world whose answers are restricted by what happened before them, and in which nothing may
crash. -/
def World.along (A : Trace E → Event E → Prop) : World E (Trace E) where
  step tr op a tr' := A tr ⟨op, a⟩ ∧ tr' = tr ++ [⟨op, a⟩]
  guard _ _ := True
  crash _ := False

theorem Path.along {A : Trace E → Event E → Prop} {l tr : Trace E}
    (h : ∀ m e, m ++ [e] <+: tr → A (l ++ m) e) : Path (World.along A).step l tr (l ++ tr) := by
  induction tr generalizing l with
  | nil =>
      rw [List.append_nil]
      exact .nil l
  | cons e tr ih =>
      have hfirst := h [] e ⟨tr, rfl⟩
      rw [List.append_nil] at hfirst
      have hrest := @ih (l ++ [e]) fun m e' hm => by
        rw [List.append_assoc]
        exact h (e :: m) e' (List.cons_prefix_cons.mpr ⟨rfl, hm⟩)
      rw [List.append_assoc, List.singleton_append] at hrest
      exact .cons ⟨hfirst, rfl⟩ hrest

theorem Path.along_inv {A : Trace E → Event E → Prop} {s t tr : Trace E}
    (h : Path (World.along A).step s tr t) :
    t = s ++ tr ∧ ∀ m e, m ++ [e] <+: tr → A (s ++ m) e := by
  induction h with
  | nil s => exact ⟨(List.append_nil s).symm, fun m e hm => by simp at hm⟩
  | @cons s s₁ t op a tr hstep _ ih =>
      obtain ⟨hA, rfl⟩ := hstep
      obtain ⟨rfl, hrest⟩ := ih
      refine ⟨by simp, fun m e hm => ?_⟩
      cases m with
      | nil =>
          obtain ⟨rfl, -⟩ := List.cons_prefix_cons.mp hm
          rwa [List.append_nil]
      | cons e' m =>
          obtain ⟨rfl, hm'⟩ := List.cons_prefix_cons.mp hm
          have hA := hrest m e hm'
          rwa [List.append_assoc] at hA

/-- A description of what `p` did holds in every world, of what happened there. -/
theorem wp.of_history {G : E.Op → Prop} {Q₁ : Trace E → α → Prop} {R₁ : Trace E → ε → Prop}
    {W : World E S} {Q : S → α → Prop} {R : S → ε → Prop} {p : Prog E ε α} {s : S}
    (h : wp (World.history G) p Q₁ R₁ [])
    (hguard : ∀ tr t op, Path W.step s tr t → (∀ e ∈ tr, G e.op) → G op → W.guard t op)
    (hQ : ∀ tr t a, Path W.step s tr t → (∀ e ∈ tr, G e.op) → Q₁ tr a → Q t a)
    (hR : ∀ tr t e, Path W.step s tr t → (∀ e ∈ tr, G e.op) → R₁ tr e → R t e) :
    wp W p Q R s := by
  refine h.sim (fun tr t => Path W.step s tr t ∧ ∀ e ∈ tr, G e.op)
    (fun tr t op ht hG => hguard tr t op ht.1 ht.2 hG) ?_ (fun _ _ _ => False.elim)
    (fun tr t a ht hq => hQ tr t a ht.1 ht.2 hq) (fun tr t e ht hr => hR tr t e ht.1 ht.2 hr)
    ⟨.nil s, by simp⟩
  intro tr t op a t' ht hG hstep
  refine ⟨_, ⟨trivial, rfl⟩, ht.1.append (.cons hstep (.nil t')), ?_⟩
  intro e he
  rcases List.mem_append.mp he with he | he
  · exact ht.2 e he
  · rw [List.mem_singleton.mp he]
    exact hG

/-! ## Programs that keep to the guard

`Safe W p`: from any state `p` asks only what the guard allows, whatever it returns. -/

def Safe (W : World E S) (p : Prog E ε α) : Prop :=
  ∀ s, wp W p (fun _ _ => True) (fun _ _ => True) s

section
variable {W : World E S}

/-- A program that is safe where nothing may crash does not crash. -/
theorem Safe.no_crash {p : Prog E ε α} {tr : Trace E} {msg : String}
    (h : Safe (World.history fun _ => True) p) : ¬ Run p tr (.crash msg) := fun hrun =>
  (h []).sound hrun (Path.recall fun _ _ => trivial)

/-- What a safe program does is guarded. -/
theorem Safe.asks {G : E.Op → Prop} {p q : Prog E ε α} {tr : Trace E}
    (h : Safe (World.history G) p) (hrun : Run p tr q) : ∀ e ∈ tr, G e.op := by
  intro e he
  obtain ⟨l, r, rfl⟩ := List.append_of_mem he
  exact (h []).allowed hrun fun _ _ => trivial

theorem Safe.pure {a : α} : Safe W (pure a : Prog E ε α) := fun _ => trivial

theorem Safe.fail {e : ε} : Safe W (.fail e : Prog E ε α) := fun _ => trivial

theorem Safe.ask {op : E.Op} (h : ∀ s, W.guard s op) : Safe W (ask op : Prog E ε _) :=
  fun s => ⟨h s, fun _ _ _ => trivial⟩

theorem Safe.query {op : E.Op} {f : E.Ans op → Except ε α} (h : ∀ s, W.guard s op) :
    Safe W (query op f) := fun s => by
  refine wp_query.mpr ⟨h s, fun a s' _ => ?_⟩
  cases f a <;> trivial

theorem Safe.check {p : Prop} [Decidable p] {msg : String} (h : ∀ s, W.crash s) :
    Safe W (check p msg : Prog E ε Unit) :=
  fun s => wp_check.mpr ⟨fun _ => trivial, fun _ => h s⟩

theorem Safe.bind {p : Prog E ε α} {f : α → Prog E ε β} (hp : Safe W p)
    (hf : ∀ a, Safe W (f a)) : Safe W (p >>= f) :=
  fun s => wp_bind.mpr (wp_mono (fun t a _ => hf a t) (fun _ _ h => h) (hp s))

/-- Sequencing when the rest is safe only on the results `p` can return. -/
theorem Safe.bind_of {p : Prog E ε α} {f : α → Prog E ε β} (Q : α → Prop)
    (hp : ∀ s, wp W p (fun _ => Q) (fun _ _ => True) s) (hf : ∀ a, Q a → Safe W (f a)) :
    Safe W (p >>= f) :=
  fun s => wp_bind.mpr (wp_mono (fun t a ha => hf a ha t) (fun _ _ h => h) (hp s))

theorem Safe.mapErr {p : Prog E ε α} {f : ε → ε'} (hp : Safe W p) : Safe W (p.mapErr f) :=
  fun s => wp_mapErr.mpr (hp s)

theorem Safe.attempt {p : Prog E ε α} (hp : Safe W p) :
    Safe W (p.attempt : Prog E ε' _) := fun s => wp_attempt.mpr (hp s)

theorem Safe.iterate {body : σ → Prog E ε (σ ⊕ α)} (h : ∀ y, Safe W (body y)) {x : σ} :
    Safe W (iterate x body) := fun _ =>
  wp_iterate (fun _ _ => True) trivial fun y t _ =>
    wp_mono (fun _ r _ => by cases r <;> trivial) (fun _ _ h => h) (h y t)

theorem Safe.foldlM {f : σ → γ → Prog E ε σ} {xs : List γ} {x : σ}
    (h : ∀ y c, Safe W (f y c)) : Safe W (xs.foldlM f x) := fun _ =>
  wp_foldlM (fun _ _ _ => True) trivial fun _ c _ y t _ _ => h y c t

theorem Safe.forM {f : γ → Prog E ε PUnit} {xs : List γ} (h : ∀ c, Safe W (f c)) :
    Safe W (forM xs f) := fun _ => wp_forM (fun _ _ => True) trivial fun _ c _ t _ _ => h c t

end

/-! ## Programs that leave the state alone -/

section
variable {W : World E S} {G : E.Op → Prop}

/-- If the operations `G` leave the state alone, so does a program that performs no other. -/
theorem Safe.still {p : Prog E ε α} (hp : Safe (World.history G) p)
    (hguard : ∀ s op, G op → W.guard s op)
    (hstill : ∀ s op a s', G op → W.step s op a s' → s' = s) (s : S) :
    wp W p (fun t _ => t = s) (fun t _ => t = s) s :=
  (hp []).of_history (fun _ t op _ _ h => hguard t op h)
    (fun _ _ _ hpath hG _ => (hpath.still hG hstill).1)
    (fun _ _ _ hpath hG _ => (hpath.still hG hstill).1)

theorem wp_still {p : Prog E ε α} {Q : S → α → Prop} {R : S → ε → Prop} {s : S}
    (hp : wp W p (fun t _ => t = s) (fun t _ => t = s) s) (hQ : ∀ a, Q s a) (hR : ∀ e, R s e) :
    wp W p Q R s := by
  refine wp_mono ?_ ?_ hp
  · rintro t a rfl
    exact hQ a
  · rintro t e rfl
    exact hR e

/-- Sequencing after a program that leaves the state alone. -/
theorem wp_bind_still {p : Prog E ε α} {f : α → Prog E ε β} {Q : S → β → Prop}
    {R : S → ε → Prop} {s : S} (hp : wp W p (fun t _ => t = s) (fun t _ => t = s) s)
    (hf : ∀ a, wp W (f a) Q R s) (hR : ∀ e, R s e) : wp W (p >>= f) Q R s :=
  wp_bind.mpr (wp_still hp hf hR)

end

/-! ## Worlds that keep track

The state is what the events so far make of the first one. -/

/-- Answers restricted by `A`; every event moves the state by `f`. -/
def World.track (A : Event E → Prop) (f : S → Event E → S) (G : S → E.Op → Prop)
    (crash : S → Prop) : World E S where
  step s op a s' := A ⟨op, a⟩ ∧ s' = f s ⟨op, a⟩
  guard := G
  crash := crash

theorem Path.track {A : Event E → Prop} {f : S → Event E → S} {G : S → E.Op → Prop}
    {c : S → Prop} {tr : Trace E} (h : ∀ e ∈ tr, A e) {s : S} :
    Path (World.track A f G c).step s tr (tr.foldl f s) := by
  induction tr generalizing s with
  | nil => exact .nil s
  | cons e tr ih =>
      obtain ⟨he, htr⟩ := List.forall_mem_cons.mp h
      exact .cons ⟨he, rfl⟩ (ih htr)

/-- The state is a list; of each event, it keeps what `f` reads off it. -/
abbrev World.collect {β : Type} (A : Event E → Prop) (f : Event E → List β) : World E (List β) :=
  World.track A (fun xs e => xs ++ f e) (fun _ _ => True) fun _ => True

section
variable {β : Type} {A : Event E → Prop} {f : Event E → List β}

theorem foldl_append_flatMap {γ : Type} (f : γ → List β) (ys : List γ) (xs : List β) :
    ys.foldl (fun xs y => xs ++ f y) xs = xs ++ ys.flatMap f := by
  induction ys generalizing xs with
  | nil => exact (List.append_nil xs).symm
  | cons y ys ih => rw [List.foldl_cons, ih, List.flatMap_cons, List.append_assoc]

theorem Path.collect {tr : Trace E} (h : ∀ e ∈ tr, A e) {xs : List β} :
    Path (World.collect A f).step xs tr (xs ++ tr.flatMap f) := by
  rw [← foldl_append_flatMap]
  exact Path.track h

/-- A program that performs only operations of which nothing is kept adds nothing. -/
theorem Safe.collects_nothing {G : E.Op → Prop} {p : Prog E ε α}
    (hp : Safe (World.history G) p) (hf : ∀ op a, G op → f ⟨op, a⟩ = []) (xs : List β) :
    wp (World.collect A f) p (fun t _ => t = xs) (fun t _ => t = xs) xs := by
  refine hp.still (fun _ _ _ => trivial) ?_ xs
  rintro s op a s' hG ⟨-, rfl⟩
  show s ++ f ⟨op, a⟩ = s
  rw [hf op a hG, List.append_nil]

end

/-- Asking what leaves the state alone. -/
theorem wp_query_still {W : World E S} {op : E.Op} {f : E.Ans op → Except ε α}
    {Q : S → α → Prop} {R : S → ε → Prop} {s : S} (hguard : W.guard s op)
    (hstill : ∀ a s', W.step s op a s' → s' = s) (hQ : ∀ a, Q s a) (hR : ∀ e, R s e) :
    wp W (query op f) Q R s := by
  rw [wp_query]
  refine ⟨hguard, fun a s' hstep => ?_⟩
  obtain rfl := hstill a s' hstep
  cases f a with
  | ok a => exact hQ a
  | error e => exact hR e

/-! ## Turns of a loop -/

/-- What every turn preserves holds after any number of them. -/
theorem Turns.invariant {W : World E S} {R : S → ε → Prop} {body : σ → Prog E ε (σ ⊕ α)}
    {x y : σ} {tr : Trace E} {s s' : S} (I : σ → S → Prop)
    (hbody : ∀ z t, I z t →
      wp W (body z) (fun t => Sum.elim (fun z => I z t) fun _ => True) R t)
    (h : Turns body x tr y) (hp : Path W.step s tr s') (h₀ : I x s) : I y s' := by
  induction h generalizing s' with
  | start =>
      cases hp
      exact h₀
  | turn _ hrun ih =>
      obtain ⟨t, hl, hr⟩ := hp.split
      exact (hbody _ t (ih hl)).sound hrun hr

end Prog
