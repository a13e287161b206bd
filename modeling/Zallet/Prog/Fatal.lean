/-
# `Zallet.Prog.Fatal` — answers that end a program

`Breaks D R p`: an event in `D` ends the program `p`, with an error in `R`, and
nothing is asked after it.  A program that only ever passes such answers on, by
`?`, is one of these; there is one rule for each way it is built.  Where the
errors of `p` are caught, what follows the event is the handler
(`Breaks.attempt_bind`).

`Fatal F p` is the case of an answer that `F` gives an error for and that ends
the program with that very error.
-/
import Zallet.Prog.Run

namespace Prog

variable {E : Sig} {ε ε' α β γ σ : Type}

/-- A program that is over has no events. -/
theorem Run.ret_event {a : α} {l r : Trace E} {e : Event E} {q : Prog E ε α} :
    ¬ Run (.ret a) (l ++ e :: r) q := by
  intro h
  obtain ⟨_, h', -⟩ := h.split
  cases h'

/-- An answer that a program goes on from. -/
theorem Run.query_ok {op : E.Op} {f : E.Ans op → Except ε α} {g : α → Prog E ε β} {a : E.Ans op}
    {x : α} {tr : Trace E} {q : Prog E ε β} (ha : f a = .ok x) (h : Run (g x) tr q) :
    Run ((query op f).bind g) (⟨op, a⟩ :: tr) q := by
  refine .call ?_
  show Run ((ofExcept id (f a)).bind g) tr q
  rw [ha]
  exact h

/-- The last event of a sequence is one of its first part or, that finished, of its second. -/
theorem Run.bind_event {p : Prog E ε α} {f : α → Prog E ε β} {l : Trace E} {e : Event E}
    {q : Prog E ε β} (h : Run (p.bind f) (l ++ [e]) q) :
    (∃ p', Run p (l ++ [e]) p') ∨
      ∃ a l₁ l₂, l = l₁ ++ l₂ ∧ Run p l₁ (.ret a) ∧ Run (f a) (l₂ ++ [e]) q := by
  rcases h.bind_inv with ⟨p', hp', -⟩ | ⟨a, l₁, r, htr, hfirst, hrest⟩
  · exact .inl ⟨p', hp'⟩
  · rcases List.eq_nil_or_concat r with rfl | ⟨l₂, e', rfl⟩
    · rw [List.append_nil] at htr
      exact .inl ⟨_, htr ▸ hfirst⟩
    · rw [List.concat_eq_append, ← List.append_assoc] at htr
      obtain ⟨rfl, hlast⟩ := List.append_inj' htr rfl
      cases hlast
      exact .inr ⟨a, l₁, l₂, rfl, hfirst, by simpa using hrest⟩

/-- The turns of a loop that are finished. -/
theorem Turns.iterate {body : σ → Prog E ε (σ ⊕ α)} {x y : σ} {tr : Trace E}
    (h : Turns body x tr y) : Run (Prog.iterate x body) tr (Prog.iterate y body) := by
  induction h with
  | start => exact .refl _
  | turn _ hrun ih => exact ih.trans (.loop (hrun.bind _))

/-- A sequence asks what its first part asks, and then what its second does. -/
theorem StopsAt.asks_bind {p : Prog E ε α} {f : α → Prog E ε β} {tr : Trace E} {op : E.Op}
    (h : StopsAt p tr (.asks op)) : StopsAt (p.bind f) tr (.asks op) := by
  obtain ⟨k, hrun⟩ := h.asked
  exact ⟨_, hrun.bind f, rfl⟩

theorem Run.then_stops {p : Prog E ε α} {f : α → Prog E ε β} {a : α} {l r : Trace E}
    {x : Stop E ε} (h : Run p l (.ret a)) (hf : StopsAt (f a) r x) :
    StopsAt (p.bind f) (l ++ r) x := by
  obtain ⟨q, hrun, hq⟩ := hf
  exact ⟨q, h.seq hrun, hq⟩

/-- After finished turns, a loop asks what the next one does. -/
theorem Turns.asks {body : σ → Prog E ε (σ ⊕ α)} {x y : σ} {l r : Trace E} {op : E.Op}
    (h : Turns body x l y) (hbody : StopsAt (body y) r (.asks op)) :
    StopsAt (Prog.iterate x body) (l ++ r) (.asks op) := by
  obtain ⟨q, hrun, hq⟩ := hbody.asks_bind (f := next body .ret)
  exact ⟨q, h.iterate.trans (.loop hrun), hq⟩

/-- An event of a loop is one of its turns'. -/
theorem Run.iterate_event {body : σ → Prog E ε (σ ⊕ α)} {x : σ} {l r : Trace E} {e : Event E}
    {q : Prog E ε α} (h : Run (Prog.iterate x body) (l ++ e :: r) q) :
    ∃ l₁ l₂ y p, l = l₁ ++ l₂ ∧ Turns body x l₁ y ∧ Run (body y) (l₂ ++ [e]) p ∧
      Run (p.bind (next body .ret)) r q := by
  obtain ⟨k, hask, hafter⟩ := h.split
  obtain ⟨l₁, l₂, y, hl, hturns, ⟨-, hloop⟩ | ⟨p', hbody, hp'⟩⟩ := hask.iterate_inv
  · cases hloop
  cases p' with
  | call op k' =>
      cases hp'
      exact ⟨l₁, l₂, y, k' e.ans, hl, hturns, hbody.trans (.call (.refl _)), hafter⟩
  | ret a => cases a <;> cases hp'
  | _ => cases hp'

/-- An event in `D` ends the program, with an error in `R`. -/
def Breaks (D : Event E → Prop) (R : ε → Prop) (p : Prog E ε α) : Prop :=
  ∀ l e r q, Run p (l ++ e :: r) q → D e → r = [] ∧ ∃ err, q = .fail err ∧ R err

section
variable {D : Event E → Prop} {R : ε → Prop}

/-- What is left of the program after the event. -/
theorem Breaks.hit {p q : Prog E ε α} {l : Trace E} {e : Event E} (hp : Breaks D R p)
    (h : Run p (l ++ [e]) q) (he : D e) : ∃ err, q = .fail err ∧ R err := (hp l e [] q h he).2

theorem Breaks.pure {a : α} : Breaks D R (pure a : Prog E ε α) := by
  intro l e r q hrun
  exact absurd hrun Run.ret_event

theorem Breaks.fail {e : ε} : Breaks D R (.fail e : Prog E ε α) := by
  intro l e r q hrun
  obtain ⟨_, hrun', -⟩ := hrun.split
  cases hrun'

theorem Breaks.crash {msg : String} : Breaks D R (.crash msg : Prog E ε α) := by
  intro l e r q hrun
  obtain ⟨_, hrun', -⟩ := hrun.split
  cases hrun'

theorem Breaks.check {c : Prop} [Decidable c] {msg : String} :
    Breaks D R (check c msg : Prog E ε Unit) := by
  by_cases hc : c
  · rw [Prog.check, if_pos hc]
    exact .pure
  · rw [Prog.check, if_neg hc]
    exact .crash

theorem Breaks.ofExcept {δ : Type} {f : δ → ε} {x : Except δ α} :
    Breaks D R (ofExcept f x) := by
  cases x with
  | ok a => exact .pure
  | error e => exact .fail

/-- An answer is passed on as an error. -/
theorem Breaks.query {op : E.Op} {f : E.Ans op → Except ε α}
    (h : ∀ a, D ⟨op, a⟩ → ∃ err, f a = .error err ∧ R err) : Breaks D R (query op f) := by
  intro l e r q hrun he
  obtain ⟨k, hrun', hrest⟩ := hrun.split
  cases hrun' with
  | refl _ =>
      obtain ⟨err, hf, hR⟩ := h e.ans he
      have hrest : Run (Prog.ofExcept id (f e.ans)) r q := hrest
      rw [hf] at hrest
      cases hrest
      exact ⟨rfl, err, rfl, hR⟩
  | @call _ _ a _ _ hafter =>
      have hafter : Run (Prog.ofExcept id (f a)) _ _ := hafter
      cases hf : f a with
      | ok b =>
          rw [hf] at hafter
          cases hafter
      | error e' =>
          rw [hf] at hafter
          cases hafter

/-- An operation whose answers are none of these. -/
theorem Breaks.ask {op : E.Op} (h : ∀ a, ¬ D ⟨op, a⟩) : Breaks D R (ask op : Prog E ε _) := by
  intro l e r q hrun he
  obtain ⟨k, hrun', -⟩ := hrun.split
  cases hrun' with
  | refl _ => exact absurd he (h e.ans)
  | call hafter => cases hafter

theorem Breaks.bind {p : Prog E ε α} {f : α → Prog E ε β} (hp : Breaks D R p)
    (hf : ∀ a, Breaks D R (f a)) : Breaks D R (p >>= f) := by
  intro l e r q hrun he
  rcases Run.bind_inv hrun with ⟨p', hp', rfl⟩ | ⟨a, l', r', htr, hfirst, hsecond⟩
  · obtain ⟨rfl, err, rfl, hR⟩ := hp l e r p' hp' he
    exact ⟨rfl, err, rfl, hR⟩
  · rcases List.append_eq_append_iff.mp htr with ⟨m, hm, hr⟩ | ⟨m, rfl, hr⟩
    · -- the event is in the first part, or the first of the second
      cases m with
      | nil =>
          rw [List.nil_append] at hr
          subst hr
          exact hf a [] e r q hsecond he
      | cons e' m =>
          rw [List.cons_append, List.cons.injEq] at hr
          obtain ⟨rfl, -⟩ := hr
          rw [hm] at hfirst
          obtain ⟨-, err, hret, -⟩ := hp l e m (.ret a) hfirst he
          cases hret
    · rw [hr] at hsecond
      exact hf a m e r q hsecond he

theorem Breaks.mapErr {R : ε' → Prop} {p : Prog E ε α} {g : ε → ε'}
    (hp : Breaks D (fun e => R (g e)) p) : Breaks D R (p.mapErr g) := by
  intro l e r q hrun he
  obtain ⟨p', hp', rfl⟩ := hrun.mapErr_inv
  obtain ⟨rfl, err, rfl, hR⟩ := hp l e r p' hp' he
  exact ⟨rfl, g err, rfl, hR⟩

theorem Breaks.foldlM {f : σ → γ → Prog E ε σ} (h : ∀ y c, Breaks D R (f y c)) :
    ∀ {xs : List γ} {x : σ}, Breaks D R (xs.foldlM f x)
  | [], _ => .pure
  | c :: cs, x => by
      rw [List.foldlM_cons]
      exact .bind (h x c) fun y => Breaks.foldlM h

theorem Breaks.forM {f : γ → Prog E ε PUnit} (h : ∀ c, Breaks D R (f c)) :
    ∀ {xs : List γ}, Breaks D R (xs.forM f)
  | [] => .pure
  | c :: _ => .bind (h c) fun _ => Breaks.forM h

theorem Breaks.iterate {body : σ → Prog E ε (σ ⊕ α)} (h : ∀ y, Breaks D R (body y)) {x : σ} :
    Breaks D R (iterate x body) := by
  intro l e r q hrun he
  obtain ⟨l₁, l₂, y, p, rfl, -, hturn, hafter⟩ := hrun.iterate_event
  -- the turn ends with the event, and the loop with the turn
  obtain ⟨err, rfl, hR⟩ := (h y).hit hturn he
  cases hafter
  exact ⟨rfl, err, rfl, hR⟩

/-- Where errors are caught, the handler goes on from the event, or the event comes after. -/
theorem Breaks.attempt_bind {p : Prog E ε α} {f : Except ε α → Prog E ε' β} {l : Trace E}
    {e : Event E} {q : Prog E ε' β} (hp : Breaks D R p) (he : D e)
    (h : Run (p.attempt.bind f) (l ++ [e]) q) :
    (∃ err, R err ∧ Run p (l ++ [e]) (.fail err)) ∨
      ∃ a l₁ l₂, l = l₁ ++ l₂ ∧ Run (p.attempt : Prog E ε' _) l₁ (.ret a) ∧
        Run (f a) (l₂ ++ [e]) q := by
  rcases h.bind_event with ⟨p', hp'⟩ | hrest
  · obtain ⟨p₀, hrun, -⟩ := hp'.attempt_inv
    obtain ⟨err, rfl, hR⟩ := hp.hit hrun he
    exact .inl ⟨err, hR, hrun⟩
  · exact .inr hrest

end

/-! ## Passing errors on -/

/-- An answer with an error ends the program, with that error. -/
def Fatal (F : Event E → Option ε) (p : Prog E ε α) : Prop :=
  ∀ l e r q err, Run p (l ++ e :: r) q → F e = some err → r = [] ∧ q = .fail err

section
variable {F : Event E → Option ε}

theorem fatal_iff {p : Prog E ε α} :
    Fatal F p ↔ ∀ err, Breaks (fun e => F e = some err) (· = err) p := by
  constructor
  · intro h err l e r q hrun he
    obtain ⟨hr, hq⟩ := h l e r q err hrun he
    exact ⟨hr, err, hq, rfl⟩
  · intro h l e r q err hrun he
    obtain ⟨hr, _, hq, rfl⟩ := h err l e r q hrun he
    exact ⟨hr, hq⟩

theorem Fatal.pure {a : α} : Fatal F (pure a : Prog E ε α) := fatal_iff.mpr fun _ => .pure

theorem Fatal.fail {e : ε} : Fatal F (.fail e : Prog E ε α) := fatal_iff.mpr fun _ => .fail

theorem Fatal.crash {msg : String} : Fatal F (.crash msg : Prog E ε α) :=
  fatal_iff.mpr fun _ => .crash

theorem Fatal.ofExcept {δ : Type} {f : δ → ε} {x : Except δ α} : Fatal F (ofExcept f x) :=
  fatal_iff.mpr fun _ => .ofExcept

/-- An answer is passed on as an error. -/
theorem Fatal.query {op : E.Op} {f : E.Ans op → Except ε α}
    (h : ∀ a err, F ⟨op, a⟩ = some err → f a = .error err) : Fatal F (query op f) :=
  fatal_iff.mpr fun err => .query fun a ha => ⟨err, h a err ha, rfl⟩

theorem Fatal.bind {p : Prog E ε α} {f : α → Prog E ε β} (hp : Fatal F p)
    (hf : ∀ a, Fatal F (f a)) : Fatal F (p >>= f) :=
  fatal_iff.mpr fun err => .bind (fatal_iff.mp hp err) fun a => fatal_iff.mp (hf a) err

theorem Fatal.foldlM {f : σ → γ → Prog E ε σ} (h : ∀ y c, Fatal F (f y c)) {xs : List γ} {x : σ} :
    Fatal F (xs.foldlM f x) :=
  fatal_iff.mpr fun err => .foldlM fun y c => fatal_iff.mp (h y c) err

theorem Fatal.forM {f : γ → Prog E ε PUnit} (h : ∀ c, Fatal F (f c)) {xs : List γ} :
    Fatal F (xs.forM f) :=
  fatal_iff.mpr fun err => .forM fun c => fatal_iff.mp (h c) err

end

end Prog
