/-
# `Zallet.Prog.Total` — programs that end

`Ensures A Q p`: told only what satisfies `A`, the program `p` always has an
answer to go on from, never crashes, comes to an end, and what it ends with
satisfies `Q`.  It is the least predicate closed under the steps of a program,
so loops have to come to an end too; `Ensures.iterate` asks for a measure.
-/
import Zallet.Prog.Outcome

namespace Prog

variable {E : Sig} {ε α β σ : Type}

/-- `p` comes to an end that satisfies `Q`, when every event satisfies `A`. -/
inductive Ensures (A : Event E → Prop) (Q : Except ε α → Prop) : Prog E ε α → Prop
  | ret {a : α} : Q (.ok a) → Ensures A Q (.ret a)
  | fail {e : ε} : Q (.error e) → Ensures A Q (.fail e)
  | call {op : E.Op} {k : E.Ans op → Prog E ε α} :
      (∃ a, A ⟨op, a⟩) → (∀ a, A ⟨op, a⟩ → Ensures A Q (k a)) → Ensures A Q (.call op k)
  | loop {σ β : Type} {body : σ → Prog E ε (σ ⊕ β)} {x : σ} {k : β → Prog E ε α} :
      Ensures A Q ((body x).bind (next body k)) → Ensures A Q (.loop body x k)

/-- No part of it is a loop. -/
def Straight : {α : Type} → Prog E ε α → Prop
  | _, .call _ k => ∀ a, (k a).Straight
  | _, .loop _ _ _ => False
  | _, _ => True

section
variable {ε' : Type} {p q : Prog E ε α}

theorem Straight.bind {f : α → Prog E ε β} (h : p.Straight) (hf : ∀ a, (f a).Straight) :
    (p.bind f).Straight := by
  induction p with
  | ret a => exact hf a
  | fail e => trivial
  | crash m => trivial
  | call op k ih => exact fun a => ih a (h a) hf
  | loop => exact h.elim

theorem Straight.mapErr {f : ε → ε'} (h : p.Straight) : (p.mapErr f).Straight := by
  induction p with
  | call op k ih => exact fun a => ih a (h a)
  | loop => exact h.elim
  | _ => trivial

theorem Straight.ofExcept {δ : Type} {f : δ → ε} (r : Except δ α) :
    (ofExcept f r : Prog E ε α).Straight := by
  cases r <;> trivial

theorem Straight.query {op : E.Op} {f : E.Ans op → Except ε α} : (query op f).Straight :=
  fun a => Straight.ofExcept (f a)

theorem Straight.ite {c : Prop} [Decidable c] (hp : p.Straight) (hq : q.Straight) :
    (if c then p else q).Straight := by
  by_cases h : c
  · rwa [if_pos h]
  · rwa [if_neg h]

theorem Straight.foldlM {γ : Type} {f : β → γ → Prog E ε β} (h : ∀ y c, (f y c).Straight)
    (xs : List γ) (y : β) : (xs.foldlM f y).Straight := by
  induction xs generalizing y with
  | nil => trivial
  | cons c cs ih => exact Straight.bind (h y c) fun z => ih z

theorem Straight.run {tr : Trace E} (h : p.Straight) (hrun : Run p tr q) : q.Straight := by
  induction hrun with
  | refl => exact h
  | call _ ih => exact ih (h _)
  | loop => exact h.elim

end

/-! ## Ends -/

theorem Run.call_ended {op : E.Op} {k : E.Ans op → Prog E ε α} {tr : Trace E} {r : Except ε α}
    (h : Run (.call op k) tr (ended r)) : ∃ a l, tr = ⟨op, a⟩ :: l ∧ Run (k a) l (ended r) := by
  cases r with
  | ok b =>
      cases h with
      | call h => exact ⟨_, _, rfl, h⟩
  | error e =>
      cases h with
      | call h => exact ⟨_, _, rfl, h⟩

theorem Run.loop_ended {body : σ → Prog E ε (σ ⊕ β)} {x : σ} {k : β → Prog E ε α} {tr : Trace E}
    {r : Except ε α} (h : Run (.loop body x k) tr (ended r)) :
    Run ((body x).bind (next body k)) tr (ended r) := by
  cases r with
  | ok b =>
      cases h with
      | loop h => exact h
  | error e =>
      cases h with
      | loop h => exact h

section
variable {A : Event E → Prop} {Q Q' : Except ε α → Prop} {p : Prog E ε α}

/-- What a program ends with. -/
theorem Ensures.outcome (h : Ensures A Q p) : ∃ r, Outcome A p r ∧ Q r := by
  induction h with
  | @ret a hQ => exact ⟨.ok a, .pure, hQ⟩
  | @fail e hQ => exact ⟨.error e, .fail, hQ⟩
  | call ha _ ih =>
      obtain ⟨a, ha⟩ := ha
      obtain ⟨r, ⟨tr, hrun, hA⟩, hQ⟩ := ih a ha
      exact ⟨r, ⟨_ :: tr, .call hrun, List.forall_mem_cons.mpr ⟨ha, hA⟩⟩, hQ⟩
  | loop _ ih =>
      obtain ⟨r, ⟨tr, hrun, hA⟩, hQ⟩ := ih
      exact ⟨r, ⟨tr, .loop hrun, hA⟩, hQ⟩

/-- A program ends with nothing else. -/
theorem Ensures.sound (h : Ensures A Q p) {r : Except ε α} (hr : Outcome A p r) : Q r := by
  obtain ⟨tr, hrun, hA⟩ := hr
  induction h generalizing tr with
  | ret hQ =>
      cases r with
      | ok b =>
          cases hrun
          exact hQ
      | error e => cases hrun
  | fail hQ =>
      cases r with
      | ok b => cases hrun
      | error e =>
          cases hrun
          exact hQ
  | call _ _ ih =>
      obtain ⟨a, l, rfl, hrest⟩ := hrun.call_ended
      obtain ⟨ha, hl⟩ := List.forall_mem_cons.mp hA
      exact ih a ha l hrest hl
  | loop _ ih => exact ih tr hrun.loop_ended hA

/-- Of two promises about one program, one result keeps both. -/
theorem Ensures.both (h : Ensures A Q p) (h' : Ensures A Q' p) : ∃ r, Q r ∧ Q' r := by
  obtain ⟨r, hr, hQ⟩ := h.outcome
  exact ⟨r, hQ, h'.sound hr⟩

/-! ## Rules -/

theorem Ensures.mono (hQ : ∀ r, Q r → Q' r) (h : Ensures A Q p) : Ensures A Q' p := by
  induction h with
  | ret h => exact .ret (hQ _ h)
  | fail h => exact .fail (hQ _ h)
  | call ha _ ih => exact .call ha ih
  | loop _ ih => exact .loop ih

theorem Ensures.pure {a : α} (h : Q (.ok a)) : Ensures A Q (pure a) := .ret h

theorem Ensures.ofExcept {r : Except ε α} (h : Q r) : Ensures A Q (ofExcept id r) := by
  cases r with
  | ok a => exact .ret h
  | error e => exact .fail h

theorem Ensures.query {op : E.Op} {f : E.Ans op → Except ε α} (ha : ∃ a, A ⟨op, a⟩)
    (h : ∀ a, A ⟨op, a⟩ → Q (f a)) : Ensures A Q (query op f) :=
  .call ha fun a haA => .ofExcept (h a haA)

theorem Ensures.ask {op : E.Op} {Q : Except ε (E.Ans op) → Prop} (ha : ∃ a, A ⟨op, a⟩)
    (h : ∀ a, A ⟨op, a⟩ → Q (.ok a)) : Ensures A Q (ask op) :=
  .call ha fun a haA => .ret (h a haA)

/-- What a sequence has to keep of the end of its first part. -/
def Continues (A : Event E → Prop) (Q : Except ε β → Prop) (f : α → Prog E ε β) :
    Except ε α → Prop
  | .ok a => Ensures A Q (f a)
  | .error e => Q (.error e)

theorem Ensures.bind {Q : Except ε β → Prop} {f : α → Prog E ε β}
    (h : Ensures A (Continues A Q f) p) : Ensures A Q (p.bind f) := by
  induction h with
  | ret h => exact h
  | fail h => exact .fail h
  | call ha _ ih => exact .call ha ih
  | loop _ ih =>
      refine .loop ?_
      simp only [bind_assoc, next_bind] at ih
      exact ih

theorem Ensures.attempt {ε' : Type} {Q : Except ε' (Except ε α) → Prop}
    (h : Ensures A (fun r => Q (.ok r)) p) : Ensures A Q p.attempt := by
  induction h with
  | ret h => exact .ret h
  | fail h => exact .ret h
  | call ha _ ih => exact .call ha ih
  | loop _ ih =>
      rw [attempt_loop]
      rw [attempt_unroll] at ih
      exact .loop ih

/-- A fold whose every step ends as `g` says ends as the fold of `g`. -/
theorem Ensures.foldlM {γ : Type} {f : σ → γ → Prog E ε σ} {g : σ → γ → σ}
    (h : ∀ y c, Ensures A (fun r => r = .ok (g y c)) (f y c)) :
    ∀ {xs : List γ} {x : σ}, Ensures A (fun r => r = .ok (xs.foldl g x)) (xs.foldlM f x)
  | [], _ => .pure rfl
  | c :: cs, x => by
      rw [List.foldlM_cons]
      refine .bind (.mono ?_ (h x c))
      intro r hr
      rw [hr]
      show Ensures A (fun r => r = .ok (cs.foldl g (g x c))) (cs.foldlM f (g x c))
      exact Ensures.foldlM h

/-- What a loop has to keep of the end of a turn. -/
def Progress (I : σ → Prop) (μ : σ → Nat) (Q : Except ε α → Prop) (y : σ) :
    Except ε (σ ⊕ α) → Prop
  | .ok (.inl z) => I z ∧ μ z < μ y
  | .ok (.inr b) => Q (.ok b)
  | .error e => Q (.error e)

theorem Ensures.iterate (I : σ → Prop) (μ : σ → Nat) {body : σ → Prog E ε (σ ⊕ α)} {x : σ}
    (hx : I x) (hbody : ∀ y, I y → Ensures A (Progress I μ Q y) (body y)) :
    Ensures A Q (iterate x body) := by
  suffices H : ∀ n y, μ y = n → I y → Ensures A Q (Prog.iterate y body) from H _ x rfl hx
  intro n
  induction n using Nat.strongRecOn with
  | ind n ih =>
      rintro y rfl hy
      refine .loop (.bind (Ensures.mono ?_ (hbody y hy)))
      rintro (e | z | b) h
      · exact h
      · exact ih _ h.2 z rfl h.1
      · exact .ret h

end

end Prog
