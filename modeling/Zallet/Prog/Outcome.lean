/-
# `Zallet.Prog.Outcome` — operations served by programs

An operation of one interface may be a program over another: what a caller
sees as one call is a run on the lower level.  `Outcome A p r`: the program `p`
may end with the result or error `r` when everything it is told satisfies `A`.
The lower level's rules then bound what the upper level can be answered
(`Outcome.post`).
-/
import Zallet.Prog.Exec

namespace Prog

variable {E : Sig} {ε α β : Type}

/-- A program that is over. -/
def ended (r : Except ε α) : Prog E ε α := ofExcept id r

/-- What `p` may end with, when every event of its run satisfies `A`. -/
def Outcome (A : Event E → Prop) (p : Prog E ε α) (r : Except ε α) : Prop :=
  ∃ tr, Run p tr (ended r) ∧ ∀ e ∈ tr, A e

/-- What the rules say of `p` holds of its outcomes. -/
theorem Outcome.post {A : Event E → Prop} {G : Trace E → E.Op → Prop} {c : Trace E → Prop}
    {Q : Trace E → α → Prop} {R : Trace E → ε → Prop} {p : Prog E ε α} {r : Except ε α}
    (h : Outcome A p r) (hwp : wp (World.recall A G c) p Q R []) :
    ∃ tr, Ends (Q tr) (R tr) r := by
  obtain ⟨tr, hrun, hA⟩ := h
  have hfits := hwp.sound hrun (Path.recall hA)
  cases r with
  | ok a => exact ⟨tr, hfits⟩
  | error e => exact ⟨tr, hfits⟩

/-- Where the events of a run play no part in what is said of its end. -/
theorem Outcome.ends {A : Event E → Prop} {G : Trace E → E.Op → Prop} {c : Trace E → Prop}
    {Q : α → Prop} {R : ε → Prop} {p : Prog E ε α} {r : Except ε α}
    (h : Outcome A p r) (hwp : wp (World.recall A G c) p (fun _ => Q) (fun _ => R) []) :
    Ends Q R r := by
  obtain ⟨_, h⟩ := h.post hwp
  exact h

/-! ## Rules

One for each way a program is built; they say what a program may end with, where the rules of
`wp` say what it can only end with. -/

section
variable {A : Event E → Prop} {σ γ : Type}

theorem Outcome.pure {a : α} : Outcome A (pure a : Prog E ε α) (.ok a) := ⟨[], .refl _, by simp⟩

theorem Outcome.fail {e : ε} : Outcome A (.fail e : Prog E ε α) (.error e) :=
  ⟨[], .refl _, by simp⟩

theorem Outcome.query {op : E.Op} {f : E.Ans op → Except ε α} {a : E.Ans op} {r : Except ε α}
    (ha : A ⟨op, a⟩) (hf : f a = r) : Outcome A (query op f) r := by
  refine ⟨[⟨op, a⟩], .call ?_, by simpa using ha⟩
  rw [hf]
  exact .refl _

theorem Outcome.ask {op : E.Op} {a : E.Ans op} (ha : A ⟨op, a⟩) :
    Outcome A (ask op : Prog E ε _) (.ok a) :=
  ⟨[⟨op, a⟩], .call (.refl _), by simpa using ha⟩

theorem Outcome.bind {p : Prog E ε α} {f : α → Prog E ε β} {a : α} {r : Except ε β}
    (hp : Outcome A p (.ok a)) (hf : Outcome A (f a) r) : Outcome A (p >>= f) r := by
  obtain ⟨l, hl, hA⟩ := hp
  obtain ⟨m, hm, hA'⟩ := hf
  refine ⟨l ++ m, hl.seq hm, fun e he => ?_⟩
  rcases List.mem_append.mp he with he | he
  · exact hA e he
  · exact hA' e he

theorem Outcome.bind_error {p : Prog E ε α} {f : α → Prog E ε β} {e : ε}
    (hp : Outcome A p (.error e)) : Outcome A (p >>= f) (.error e) := by
  obtain ⟨l, hl, hA⟩ := hp
  exact ⟨l, hl.bind f, hA⟩

/-- A program whose errors are caught returns what it would have ended with. -/
theorem Outcome.attempt {ε' : Type} {p : Prog E ε α} {r : Except ε α} (hp : Outcome A p r) :
    Outcome A (p.attempt : Prog E ε' _) (.ok r) := by
  obtain ⟨l, hl, hA⟩ := hp
  refine ⟨l, ?_, hA⟩
  cases r with
  | ok a => exact hl.caught
  | error e => exact hl.caught

/-- One turn, and then the rest of the loop. -/
theorem Outcome.next {body : σ → Prog E ε (σ ⊕ α)} {x y : σ} {r : Except ε α}
    (hbody : Outcome A (body x) (.ok (.inl y))) (hrest : Outcome A (iterate y body) r) :
    Outcome A (iterate x body) r := by
  obtain ⟨l, hl, hA⟩ := hbody
  obtain ⟨m, hm, hA'⟩ := hrest
  refine ⟨l ++ m, .loop (hl.seq hm), fun e he => ?_⟩
  rcases List.mem_append.mp he with he | he
  · exact hA e he
  · exact hA' e he

theorem Outcome.last {body : σ → Prog E ε (σ ⊕ α)} {x : σ} {b : α}
    (hbody : Outcome A (body x) (.ok (.inr b))) : Outcome A (iterate x body) (.ok b) := by
  obtain ⟨l, hl, hA⟩ := hbody
  exact ⟨l, .loop (hl.bind _), hA⟩

theorem Outcome.last_error {body : σ → Prog E ε (σ ⊕ α)} {x : σ} {e : ε}
    (hbody : Outcome A (body x) (.error e)) : Outcome A (iterate x body) (.error e) := by
  obtain ⟨l, hl, hA⟩ := hbody
  exact ⟨l, .loop (hl.bind _), hA⟩

/-- A fold whose every step may end as `g` says ends as the fold of `g`. -/
theorem Outcome.foldlM {f : σ → γ → Prog E ε σ} {g : σ → γ → σ}
    (h : ∀ y c, Outcome A (f y c) (.ok (g y c))) :
    ∀ {xs : List γ} {x : σ}, Outcome A (xs.foldlM f x) (.ok (xs.foldl g x))
  | [], _ => .pure
  | c :: cs, x => by
      rw [List.foldlM_cons]
      exact .bind (h x c) (Outcome.foldlM h)

theorem Outcome.forM {f : γ → Prog E ε PUnit} :
    ∀ {xs : List γ}, (∀ c ∈ xs, Outcome A (f c) (.ok ())) → Outcome A (forM xs f) (.ok ())
  | [], _ => .pure
  | c :: cs, h => by
      rw [List.forM_cons]
      refine .bind (h c List.mem_cons_self) (Outcome.forM ?_)
      intro c' hc'
      exact h c' (List.mem_cons_of_mem c hc')

end

/-! ## Outcomes that are found by running -/

section
variable {S : Type} {A : Event E → Prop} {answer : Answer E S} {n : Nat} {s : S}
  {p : Prog E ε α}

theorem Outcome.of_exec_ok {a : α} (hA : ∀ t op, A ⟨op, (answer t op).1⟩)
    (h : (exec answer n s p).2.2.result? = some a) : Outcome A p (.ok a) :=
  ⟨_, exec_ret h, exec_forall hA n s p⟩

theorem Outcome.of_exec_error {e : ε} (hA : ∀ t op, A ⟨op, (answer t op).1⟩)
    (h : (exec answer n s p).2.2.failed? = some e) : Outcome A p (.error e) :=
  ⟨_, exec_fail h, exec_forall hA n s p⟩

end

end Prog
