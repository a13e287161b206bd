/-
# `Zallet.Prog.Run` — runs of a program and what the environment does along them

`Run p tr q`: after the events `tr` the program `p` has become `q`.  A run may
stop anywhere, so `Run` speaks of the prefixes of infinite executions too; the
execution is over when `q` returns, fails or crashes.  The relation fixes no
answer: any answer of the right type may follow a call.  What an environment
can answer is a condition on the trace, `Path step s tr s'`: from state `s`
the environment gave the answers of `tr` and is now in `s'`.
-/
import Zallet.Prog.Syntax

namespace Prog

variable {E : Sig} {ε α β σ S : Type}

/-- An operation and the answer it got. -/
structure Event (E : Sig) where
  op : E.Op
  ans : E.Ans op

instance [DecidableEq E.Op] [∀ op, DecidableEq (E.Ans op)] : DecidableEq (Event E)
  | ⟨op, a⟩, ⟨op', a'⟩ =>
      if h : op = op' then
        decidable_of_iff (h ▸ a = a') (by subst h; simp)
      else isFalse fun he => h (congrArg Event.op he)

/-- The events of a run, first to last. -/
abbrev Trace (E : Sig) := List (Event E)

/-- `p` becomes `q` along the events `tr`. -/
inductive Run : Prog E ε α → Trace E → Prog E ε α → Prop
  | refl (p : Prog E ε α) : Run p [] p
  | call {op : E.Op} {k : E.Ans op → Prog E ε α} {a : E.Ans op} {tr : Trace E}
      {q : Prog E ε α} : Run (k a) tr q → Run (.call op k) (⟨op, a⟩ :: tr) q
  | loop {σ β : Type} {body : σ → Prog E ε (σ ⊕ β)} {x : σ} {k : β → Prog E ε α}
      {tr : Trace E} {q : Prog E ε α} :
      Run ((body x).bind (next body k)) tr q → Run (.loop body x k) tr q

theorem Run.trans {p q r : Prog E ε α} {tr tr' : Trace E} (h : Run p tr q)
    (h' : Run q tr' r) : Run p (tr ++ tr') r := by
  induction h with
  | refl p => exact h'
  | call _ ih => exact .call (ih h')
  | loop _ ih => exact .loop (ih h')

/-- The run up to one of its events: the program was about to perform it. -/
theorem Run.split {p q : Prog E ε α} {e : Event E} {r : Trace E} :
    ∀ {l : Trace E}, Run p (l ++ e :: r) q → ∃ k, Run p l (.call e.op k) ∧ Run (k e.ans) r q := by
  intro l h
  generalize htr : l ++ e :: r = tr at h
  induction h generalizing l with
  | refl p => exact absurd htr (by simp)
  | @call op k a tr q h ih =>
      cases l with
      | nil =>
          obtain ⟨rfl, rfl⟩ := List.cons.inj htr
          exact ⟨k, .refl _, h⟩
      | cons e' l =>
          obtain ⟨rfl, rfl⟩ := List.cons.inj htr
          obtain ⟨k', h₁, h₂⟩ := ih rfl
          exact ⟨k', .call h₁, h₂⟩
  | loop _ ih =>
      obtain ⟨k', h₁, h₂⟩ := ih htr
      exact ⟨k', .loop h₁, h₂⟩

/-- The answers determine the run: of two runs along one list of events, one continues the
other. -/
theorem Run.comparable {p q q' : Prog E ε α} {l l' r r' : Trace E} (h : Run p l q)
    (h' : Run p l' q') (htr : l ++ r = l' ++ r') :
    (∃ m, l' = l ++ m ∧ Run q m q') ∨ ∃ m, l = l' ++ m ∧ Run q' m q := by
  induction h generalizing l' q' with
  | refl p => exact .inl ⟨l', rfl, h'⟩
  | @call op k a tr q h ih =>
      cases h' with
      | refl _ => exact .inr ⟨_, rfl, .call h⟩
      | call h' =>
          rw [List.cons_append, List.cons_append, List.cons.injEq] at htr
          obtain ⟨he, htr⟩ := htr
          cases he
          rcases ih h' htr with ⟨m, rfl, hm⟩ | ⟨m, rfl, hm⟩
          · exact .inl ⟨m, rfl, hm⟩
          · exact .inr ⟨m, rfl, hm⟩
  | @loop σ β body x k tr q h ih =>
      cases h' with
      | refl _ => exact .inr ⟨_, rfl, .loop h⟩
      | loop h' => exact ih h' htr

theorem Run.ret_unique {p : Prog E ε α} {a b : α} {l l' r r' : Trace E} (h : Run p l (.ret a))
    (h' : Run p l' (.ret b)) (htr : l ++ r = l' ++ r') : l = l' ∧ a = b := by
  rcases h.comparable h' htr with ⟨m, rfl, hm⟩ | ⟨m, rfl, hm⟩ <;> cases hm
  · exact ⟨(List.append_nil l).symm, rfl⟩
  · exact ⟨List.append_nil l', rfl⟩

/-! ## The environment along a run -/

/-- The environment, answering by `step`, goes from one state to another along a trace. -/
inductive Path (step : S → (op : E.Op) → E.Ans op → S → Prop) : S → Trace E → S → Prop
  | nil (s : S) : Path step s [] s
  | cons {s s₁ s' : S} {op : E.Op} {a : E.Ans op} {tr : Trace E} :
      step s op a s₁ → Path step s₁ tr s' → Path step s (⟨op, a⟩ :: tr) s'

section
variable {step : S → (op : E.Op) → E.Ans op → S → Prop}

theorem Path.split {s s' : S} {r : Trace E} :
    ∀ {l : Trace E}, Path step s (l ++ r) s' → ∃ s₁, Path step s l s₁ ∧ Path step s₁ r s' := by
  intro l
  induction l generalizing s with
  | nil => intro h; exact ⟨s, .nil s, h⟩
  | cons e l ih =>
      intro h
      cases h with
      | cons h₁ h₂ =>
          obtain ⟨s₁, h₃, h₄⟩ := ih h₂
          exact ⟨s₁, .cons h₁ h₃, h₄⟩

theorem Path.append {s s₁ s' : S} {l r : Trace E} (h : Path step s l s₁)
    (h' : Path step s₁ r s') : Path step s (l ++ r) s' := by
  induction h with
  | nil s => exact h'
  | cons h₁ _ ih => exact .cons h₁ (ih h')

end

section
variable {step : S → (op : E.Op) → E.Ans op → S → Prop}

/-- Where two environments are in related states, the second can give the first one's answers and
stay related. -/
theorem Path.sim {T : Type} {step' : T → (op : E.Op) → E.Ans op → T → Prop} {s s' : S}
    {tr : Trace E} (Sim : S → T → Prop)
    (hstep : ∀ s t op a s', Sim s t → step s op a s' → ∃ t', step' t op a t' ∧ Sim s' t')
    (h : Path step s tr s') : ∀ {t : T}, Sim s t → ∃ t', Path step' t tr t' ∧ Sim s' t' := by
  induction h with
  | nil s => exact fun {t} ht => ⟨t, .nil t, ht⟩
  | cons hs _ ih =>
      intro t ht
      obtain ⟨t₁, ht₁, hsim⟩ := hstep _ _ _ _ _ ht hs
      obtain ⟨t', ht', hsim'⟩ := ih hsim
      exact ⟨t', .cons ht₁ ht', hsim'⟩

/-- What holds of every event may be added to the steps. -/
theorem Path.restrict {s s' : S} {tr : Trace E} {A : Event E → Prop} (h : Path step s tr s')
    (hA : ∀ e ∈ tr, A e) : Path (fun s op a s' => step s op a s' ∧ A ⟨op, a⟩) s tr s' := by
  induction h with
  | nil s => exact .nil s
  | cons hstep _ ih =>
      exact .cons ⟨hstep, hA _ List.mem_cons_self⟩ (ih fun e he => hA e (List.mem_cons_of_mem _ he))

/-- Operations that leave the state alone are all answered in the same state. -/
theorem Path.still {s s' : S} {tr : Trace E} {G : E.Op → Prop} (h : Path step s tr s')
    (hG : ∀ e ∈ tr, G e.op) (hstill : ∀ s op a s', G op → step s op a s' → s' = s) :
    s' = s ∧ ∀ e ∈ tr, step s e.op e.ans s := by
  induction h with
  | nil s => exact ⟨rfl, by simp⟩
  | cons hstep _ ih =>
      obtain rfl := hstill _ _ _ _ (hG _ List.mem_cons_self) hstep
      obtain ⟨rfl, hrest⟩ := ih fun e he => hG e (List.mem_cons_of_mem _ he)
      refine ⟨rfl, fun e he => ?_⟩
      rcases List.mem_cons.mp he with rfl | he
      · exact hstep
      · exact hrest e he

end

/-! ## Sequencing and runs -/

theorem bind_ret : ∀ {α : Type} (p : Prog E ε α), p.bind .ret = p
  | _, .ret _ => rfl
  | _, .fail _ => rfl
  | _, .crash _ => rfl
  | _, .call op k => by simp only [bind, bind_ret]
  | _, .loop body x k => by simp only [bind, bind_ret]

theorem bind_assoc {β γ : Type} : ∀ {α : Type} (p : Prog E ε α) (f : α → Prog E ε β)
    (g : β → Prog E ε γ), (p.bind f).bind g = p.bind fun a => (f a).bind g
  | _, .ret _, _, _ => rfl
  | _, .fail _, _, _ => rfl
  | _, .crash _, _, _ => rfl
  | _, .call op k, f, g => by simp only [bind, bind_assoc]
  | _, .loop body x k, f, g => by simp only [bind, bind_assoc]

theorem next_bind (body : σ → Prog E ε (σ ⊕ β)) {γ : Type} (k : β → Prog E ε γ)
    (f : γ → Prog E ε α) (r : σ ⊕ β) :
    (next body k r).bind f = next body (fun b => (k b).bind f) r := by
  cases r <;> rfl

theorem Run.bind {p q : Prog E ε α} {tr : Trace E} (h : Run p tr q) (f : α → Prog E ε β) :
    Run (p.bind f) tr (q.bind f) := by
  induction h with
  | refl p => exact .refl _
  | call _ ih => exact .call ih
  | @loop σ γ body x k tr q _ ih =>
      refine .loop ?_
      simp only [bind_assoc, next_bind] at ih
      exact ih

/-- `p` ran to its end and `f` took over. -/
theorem Run.seq {p : Prog E ε α} {f : α → Prog E ε β} {a : α} {q : Prog E ε β}
    {tr tr' : Trace E} (h : Run p tr (.ret a)) (h' : Run (f a) tr' q) :
    Run (p.bind f) (tr ++ tr') q :=
  (h.bind f).trans h'

/-- A run of a sequence is still in its first part, or has finished it and is in the second. -/
theorem Run.bind_inv {p : Prog E ε α} {f : α → Prog E ε β} {tr : Trace E} {q : Prog E ε β}
    (h : Run (p.bind f) tr q) :
    (∃ p', Run p tr p' ∧ q = p'.bind f) ∨
    ∃ a l r, tr = l ++ r ∧ Run p l (.ret a) ∧ Run (f a) r q := by
  generalize hp : p.bind f = pf at h
  induction h generalizing p with
  | refl _ => exact .inl ⟨p, .refl p, hp.symm⟩
  | @call op k a tr q h ih =>
      cases p with
      | ret b =>
          refine .inr ⟨b, [], _, rfl, .refl _, ?_⟩
          rw [show f b = .call op k from hp]
          exact .call h
      | call op' k' =>
          cases hp
          rcases ih rfl with ⟨p', hp', rfl⟩ | ⟨b, l, r, rfl, hl, hr⟩
          · exact .inl ⟨p', .call hp', rfl⟩
          · exact .inr ⟨b, _ :: l, r, rfl, .call hl, hr⟩
      | _ => cases hp
  | @loop σ γ body x k tr q h ih =>
      cases p with
      | ret b =>
          refine .inr ⟨b, [], _, rfl, .refl _, ?_⟩
          rw [show f b = .loop body x k from hp]
          exact .loop h
      | loop body' x' k' =>
          cases hp
          have hunroll : ((body x).bind (next body k')).bind f =
              (body x).bind (next body fun b => (k' b).bind f) := by
            rw [bind_assoc]
            exact congrArg _ (funext fun r => next_bind body k' f r)
          rcases ih hunroll with ⟨p', hp', rfl⟩ | ⟨b, l, r, rfl, hl, hr⟩
          · exact .inl ⟨p', .loop hp', rfl⟩
          · exact .inr ⟨b, l, r, rfl, .loop hl, hr⟩
      | _ => cases hp

/-! ## Where a run stops -/

/-- Why a program does not go on by itself: it asks its environment, it failed or it crashed. -/
inductive Stop (E : Sig) (ε : Type) where
  | asks (op : E.Op)
  | fails (e : ε)
  | crashes (msg : String)

def stop? : Prog E ε α → Option (Stop E ε)
  | .call op _ => some (.asks op)
  | .fail e => some (.fails e)
  | .crash msg => some (.crashes msg)
  | .ret _ | .loop _ _ _ => none

/-- After the events `tr`, the program `p` stops for the reason `x`. -/
def StopsAt (p : Prog E ε α) (tr : Trace E) (x : Stop E ε) : Prop :=
  ∃ q, Run p tr q ∧ q.stop? = some x

section
variable {p : Prog E ε α} {tr : Trace E}

theorem Run.asks {op : E.Op} {k : E.Ans op → Prog E ε α} (h : Run p tr (.call op k)) :
    StopsAt p tr (.asks op) := ⟨_, h, rfl⟩

theorem Run.fails {e : ε} (h : Run p tr (.fail e)) : StopsAt p tr (.fails e) := ⟨_, h, rfl⟩

theorem Run.crashes {msg : String} (h : Run p tr (.crash msg)) : StopsAt p tr (.crashes msg) :=
  ⟨_, h, rfl⟩

theorem StopsAt.asked {op : E.Op} (h : StopsAt p tr (.asks op)) : ∃ k, Run p tr (.call op k) := by
  obtain ⟨q, hrun, hq⟩ := h
  cases q with
  | call op' k =>
      cases hq
      exact ⟨k, hrun⟩
  | _ => cases hq

theorem StopsAt.failed {e : ε} (h : StopsAt p tr (.fails e)) : Run p tr (.fail e) := by
  obtain ⟨q, hrun, hq⟩ := h
  cases q with
  | fail e' =>
      cases hq
      exact hrun
  | _ => cases hq

theorem StopsAt.crashed {msg : String} (h : StopsAt p tr (.crashes msg)) :
    Run p tr (.crash msg) := by
  obtain ⟨q, hrun, hq⟩ := h
  cases q with
  | crash m =>
      cases hq
      exact hrun
  | _ => cases hq

theorem bind_stop {f : α → Prog E ε β} {x : Stop E ε} (h : (p.bind f).stop? = some x) :
    p.stop? = some x ∨ ∃ a, p = .ret a ∧ (f a).stop? = some x := by
  cases p with
  | ret a => exact .inr ⟨a, rfl, h⟩
  | loop _ _ _ => cases h
  | _ => exact .inl h

/-- A sequence that stops does so in its first part or, that finished, in its second. -/
theorem StopsAt.bind_inv {f : α → Prog E ε β} {x : Stop E ε} (h : StopsAt (p.bind f) tr x) :
    StopsAt p tr x ∨ ∃ a l r, tr = l ++ r ∧ Run p l (.ret a) ∧ StopsAt (f a) r x := by
  obtain ⟨q, hrun, hq⟩ := h
  rcases hrun.bind_inv with ⟨p', hp', rfl⟩ | ⟨a, l, r, htr, hl, hr⟩
  · rcases bind_stop hq with hq | ⟨a, rfl, hq⟩
    · exact .inl ⟨p', hp', hq⟩
    · exact .inr ⟨a, tr, [], (List.append_nil tr).symm, hp', _, .refl _, hq⟩
  · exact .inr ⟨a, l, r, htr, hl, q, hr, hq⟩

/-- A sequence that crashes crashed in its first part or, that finished, in its second. -/
theorem Run.bind_crash {f : α → Prog E ε β} {msg : String}
    (h : Run (p.bind f) tr (.crash msg)) :
    Run p tr (.crash msg) ∨
      ∃ a l r, tr = l ++ r ∧ Run p l (.ret a) ∧ Run (f a) r (.crash msg) := by
  rcases h.crashes.bind_inv with h | ⟨a, l, r, htr, hl, hr⟩
  · exact .inl h.crashed
  · exact .inr ⟨a, l, r, htr, hl, hr.crashed⟩

/-- A sequence that fails failed in its first part or, that finished, in its second. -/
theorem Run.bind_fail {f : α → Prog E ε β} {e : ε} (h : Run (p.bind f) tr (.fail e)) :
    Run p tr (.fail e) ∨
      ∃ a l r, tr = l ++ r ∧ Run p l (.ret a) ∧ Run (f a) r (.fail e) := by
  rcases h.fails.bind_inv with h | ⟨a, l, r, htr, hl, hr⟩
  · exact .inl h.failed
  · exact .inr ⟨a, l, r, htr, hl, hr.failed⟩

/-- A program that asks and goes on from the answer stops there, or has its error for an answer,
or stops in what follows. -/
theorem StopsAt.query_bind {op : E.Op} {f : E.Ans op → Except ε α} {g : α → Prog E ε β}
    {x : Stop E ε} (h : StopsAt ((query op f).bind g) tr x) :
    x = .asks op ∨
      ∃ a l, tr = ⟨op, a⟩ :: l ∧
        ((∃ e, f a = .error e ∧ l = [] ∧ x = .fails e) ∨ ∃ b, f a = .ok b ∧ StopsAt (g b) l x) := by
  obtain ⟨q, hrun, hq⟩ := h
  cases hrun with
  | refl _ => exact .inl (Option.some.inj hq).symm
  | @call _ _ a l _ hrun =>
      refine .inr ⟨a, l, rfl, ?_⟩
      have hrun : Run ((ofExcept id (f a)).bind g) l q := hrun
      cases hf : f a with
      | error e =>
          rw [hf] at hrun
          cases hrun
          exact .inl ⟨e, rfl, rfl, (Option.some.inj hq).symm⟩
      | ok b =>
          rw [hf] at hrun
          exact .inr ⟨b, rfl, q, hrun, hq⟩

theorem StopsAt.ask_bind {op : E.Op} {g : E.Ans op → Prog E ε β} {x : Stop E ε}
    (h : StopsAt ((ask op).bind g) tr x) :
    x = .asks op ∨ ∃ a l, tr = ⟨op, a⟩ :: l ∧ StopsAt (g a) l x := by
  obtain ⟨q, hrun, hq⟩ := h
  cases hrun with
  | refl _ => exact .inl (Option.some.inj hq).symm
  | @call _ _ a l _ hrun => exact .inr ⟨a, l, rfl, q, hrun, hq⟩

/-- A program that returned has nothing left to stop for. -/
theorem StopsAt.not_ret {a : α} {x : Stop E ε} : ¬ StopsAt (.ret a) tr x := by
  rintro ⟨q, hrun, hq⟩
  cases hrun
  cases hq

end

/-- A sequence that returns has finished both parts. -/
theorem Run.bind_ret {p : Prog E ε α} {f : α → Prog E ε β} {tr : Trace E} {b : β}
    (h : Run (p.bind f) tr (.ret b)) :
    ∃ a l r, tr = l ++ r ∧ Run p l (.ret a) ∧ Run (f a) r (.ret b) := by
  rcases h.bind_inv with ⟨p', hrun, hp⟩ | hrest
  · cases p' with
    | ret a => exact ⟨a, tr, [], by simp, hrun, (show f a = .ret b from hp.symm) ▸ .refl _⟩
    | _ => cases hp
  · exact hrest

/-- A program that asks, goes on from the answer and returns, got an answer to go on from. -/
theorem Run.query_bind_ret {op : E.Op} {f : E.Ans op → Except ε α} {g : α → Prog E ε β}
    {tr : Trace E} {b : β} (h : Run ((query op f).bind g) tr (.ret b)) :
    ∃ a x l, tr = ⟨op, a⟩ :: l ∧ f a = .ok x ∧ Run (g x) l (.ret b) := by
  cases h with
  | @call _ _ a l _ h =>
      have h : Run ((ofExcept id (f a)).bind g) l (.ret b) := h
      cases hf : f a with
      | error e =>
          rw [hf] at h
          cases h
      | ok x =>
          rw [hf] at h
          exact ⟨a, x, l, rfl, hf, h⟩

/-- A program that asks and goes on from the answer is about to ask, was refused, or has gone on. -/
theorem Run.query_bind_inv {op : E.Op} {f : E.Ans op → Except ε α} {g : α → Prog E ε β}
    {tr : Trace E} {q : Prog E ε β} (h : Run ((query op f).bind g) tr q) :
    (tr = [] ∧ q = (query op f).bind g) ∨
    ∃ a l, tr = ⟨op, a⟩ :: l ∧
      ((∃ e, f a = .error e ∧ l = [] ∧ q = .fail e) ∨ ∃ x, f a = .ok x ∧ Run (g x) l q) := by
  cases h with
  | refl => exact .inl ⟨rfl, rfl⟩
  | @call _ _ a l _ h =>
      refine .inr ⟨a, l, rfl, ?_⟩
      have h : Run ((ofExcept id (f a)).bind g) l q := h
      cases hf : f a with
      | error e =>
          rw [hf] at h
          cases h
          exact .inl ⟨e, rfl, rfl, rfl⟩
      | ok x =>
          rw [hf] at h
          exact .inr ⟨x, rfl, h⟩

theorem Run.query_ret {op : E.Op} {f : E.Ans op → Except ε α} {tr : Trace E} {b : α}
    (h : Run (query op f) tr (.ret b)) : ∃ a, tr = [⟨op, a⟩] ∧ f a = .ok b := by
  rw [← Prog.bind_ret (query op f)] at h
  obtain ⟨a, x, l, rfl, ha, hrun⟩ := h.query_bind_ret
  cases hrun
  exact ⟨a, rfl, ha⟩

/-! ## Caught errors and runs -/

/-- What follows a caught result: the rest of the program, itself caught. -/
def handled {ε' : Type} (f : α → Prog E ε β) : Except ε α → Prog E ε' (Except ε β)
  | .ok a => (f a).attempt
  | .error e => .ret (.error e)

theorem attempt_bind {ε' : Type} : ∀ {α : Type} (p : Prog E ε α) (f : α → Prog E ε β),
    ((p.bind f).attempt : Prog E ε' _) = p.attempt.bind (handled f)
  | _, .ret _, _ => rfl
  | _, .fail _, _ => rfl
  | _, .crash _, _ => rfl
  | _, .call op k, f => by simp only [bind, attempt, attempt_bind]
  | _, .loop body x k, f => by
      simp only [bind, attempt, attempt_bind]
      refine congrArg _ (funext fun r => ?_)
      cases r <;> rfl

/-- Unrolling a loop and catching its errors may be done in either order. -/
theorem attempt_unroll {ε' : Type} (body : σ → Prog E ε (σ ⊕ β)) (k : β → Prog E ε α) (x : σ) :
    (((body x).bind (next body k)).attempt : Prog E ε' _) =
      ((body x).attempt.bind fun r => .ret (caught r)).bind
        (next (fun y => (body y).attempt.bind fun r => .ret (caught r)) (handled k)) := by
  rw [attempt_bind, bind_assoc]
  refine congrArg _ (funext fun r => ?_)
  rcases r with e | y | b
  · rfl
  · simp only [handled, caught, bind, next, attempt]
    refine congrArg _ (funext fun r => ?_)
    cases r <;> rfl
  · rfl

theorem attempt_loop {ε' : Type} (body : σ → Prog E ε (σ ⊕ β)) (x : σ) (k : β → Prog E ε α) :
    ((Prog.loop body x k).attempt : Prog E ε' _) =
      .loop (fun y => (body y).attempt.bind fun r => .ret (caught r)) x (handled k) := by
  rw [attempt]
  refine congrArg _ (funext fun r => ?_)
  cases r <;> rfl

/-- A run goes on in the same way where its errors are caught. -/
theorem Run.caught {ε' : Type} {p q : Prog E ε α} {tr : Trace E} (h : Run p tr q) :
    Run (p.attempt : Prog E ε' _) tr q.attempt := by
  induction h with
  | refl p => exact .refl _
  | call _ ih => exact .call ih
  | loop _ ih =>
      rw [attempt_loop]
      rw [attempt_unroll] at ih
      exact .loop ih

/-- A program whose errors are caught runs as it does without. -/
theorem Run.attempt_inv {ε' : Type} {p : Prog E ε α} {tr : Trace E}
    {q : Prog E ε' (Except ε α)} (h : Run p.attempt tr q) :
    ∃ p', Run p tr p' ∧ q = p'.attempt := by
  generalize hp : p.attempt = pa at h
  induction h generalizing p with
  | refl _ => exact ⟨p, .refl p, hp.symm⟩
  | @call op k a tr q h ih =>
      cases p with
      | call op' k' =>
          simp only [attempt] at hp
          cases hp
          obtain ⟨p', hp', rfl⟩ := ih rfl
          exact ⟨p', .call hp', rfl⟩
      | _ => simp only [attempt, reduceCtorEq] at hp
  | @loop σ γ body x k tr q h ih =>
      cases p with
      | loop body' x' k' =>
          rw [attempt_loop] at hp
          cases hp
          obtain ⟨p', hp', rfl⟩ := ih (attempt_unroll body' k' x)
          exact ⟨p', .loop hp', rfl⟩
      | _ => simp only [attempt, reduceCtorEq] at hp

theorem attempt_eq_crash {ε' : Type} {p : Prog E ε α} {msg : String}
    (h : (p.attempt : Prog E ε' _) = .crash msg) : p = .crash msg := by
  cases p with
  | crash m => cases h; rfl
  | _ => simp only [attempt, reduceCtorEq] at h

theorem Run.attempt_crash {ε' : Type} {p : Prog E ε α} {tr : Trace E} {msg : String}
    (h : Run (p.attempt : Prog E ε' _) tr (.crash msg)) : Run p tr (.crash msg) := by
  obtain ⟨p', hrun, hp⟩ := h.attempt_inv
  exact attempt_eq_crash hp.symm ▸ hrun

/-- A caught error is one the program failed with. -/
theorem Run.attempt_error {ε' : Type} {p : Prog E ε α} {tr : Trace E} {e : ε}
    (h : Run (p.attempt : Prog E ε' _) tr (.ret (.error e))) : Run p tr (.fail e) := by
  obtain ⟨p', hrun, hp⟩ := h.attempt_inv
  cases p' with
  | ret a => simp only [attempt, ret.injEq, reduceCtorEq] at hp
  | fail e' =>
      simp only [attempt, ret.injEq, Except.error.injEq] at hp
      exact hp ▸ hrun
  | _ => simp only [attempt, reduceCtorEq] at hp

theorem Run.attempt_fail {ε' : Type} {p : Prog E ε α} {tr : Trace E} {e : ε'} :
    ¬ Run p.attempt tr (.fail e) := by
  intro h
  obtain ⟨p', -, hp⟩ := h.attempt_inv
  cases p' <;> simp only [attempt, reduceCtorEq] at hp

/-! ## Converted errors and runs -/

theorem mapErr_bind {ε' : Type} (g : ε → ε') : ∀ {α : Type} (p : Prog E ε α) (f : α → Prog E ε β),
    (p.bind f).mapErr g = (p.mapErr g).bind fun a => (f a).mapErr g
  | _, .ret _, _ => rfl
  | _, .fail _, _ => rfl
  | _, .crash _, _ => rfl
  | _, .call op k, f => by simp only [bind, mapErr, mapErr_bind]
  | _, .loop body x k, f => by simp only [bind, mapErr, mapErr_bind]

theorem mapErr_next {ε' : Type} (g : ε → ε') (body : σ → Prog E ε (σ ⊕ β)) (k : β → Prog E ε α)
    (r : σ ⊕ β) :
    (next body k r).mapErr g = next (fun y => (body y).mapErr g) (fun b => (k b).mapErr g) r := by
  cases r <;> rfl

/-- A program whose errors are converted runs as it does without. -/
theorem Run.mapErr_inv {ε' : Type} {g : ε → ε'} {p : Prog E ε α} {tr : Trace E}
    {q : Prog E ε' α} (h : Run (p.mapErr g) tr q) : ∃ p', Run p tr p' ∧ q = p'.mapErr g := by
  generalize hp : p.mapErr g = pg at h
  induction h generalizing p with
  | refl _ => exact ⟨p, .refl p, hp.symm⟩
  | @call op k a tr q h ih =>
      cases p with
      | call op' k' =>
          simp only [mapErr] at hp
          cases hp
          obtain ⟨p', hp', rfl⟩ := ih rfl
          exact ⟨p', .call hp', rfl⟩
      | _ => simp only [mapErr, reduceCtorEq] at hp
  | @loop σ γ body x k tr q h ih =>
      cases p with
      | loop body' x' k' =>
          simp only [mapErr] at hp
          cases hp
          obtain ⟨p', hp', rfl⟩ := ih (by
            rw [mapErr_bind]
            exact congrArg _ (funext fun r => mapErr_next g body' k' r))
          exact ⟨p', .loop hp', rfl⟩
      | _ => simp only [mapErr, reduceCtorEq] at hp

/-- A converted error is one the program failed with. -/
theorem Run.mapErr_fail {ε' : Type} {g : ε → ε'} {p : Prog E ε α} {tr : Trace E} {e' : ε'}
    (h : Run (p.mapErr g) tr (.fail e')) : ∃ e, e' = g e ∧ Run p tr (.fail e) := by
  obtain ⟨p', hrun, hp⟩ := h.mapErr_inv
  cases p' with
  | fail e =>
      simp only [mapErr, fail.injEq] at hp
      exact ⟨e, hp, hrun⟩
  | _ => simp only [mapErr, reduceCtorEq] at hp

/-! ## Turns of a loop -/

/-- After the events `tr`, all in finished turns, the loop is at the start of a turn from `y`. -/
inductive Turns (body : σ → Prog E ε (σ ⊕ α)) (x : σ) : Trace E → σ → Prop
  | start : Turns body x [] x
  | turn {l r : Trace E} {y z : σ} :
      Turns body x l y → Run (body y) r (.ret (.inl z)) → Turns body x (l ++ r) z

/-- The turns, read from the first one. -/
theorem Turns.first_inv {body : σ → Prog E ε (σ ⊕ α)} {x z : σ} {tr : Trace E}
    (h : Turns body x tr z) :
    (tr = [] ∧ z = x) ∨
    ∃ y l r, tr = l ++ r ∧ Run (body x) l (.ret (.inl y)) ∧ Turns body y r z := by
  induction h with
  | start => exact .inl ⟨rfl, rfl⟩
  | @turn l r y z _ hrun ih =>
      rcases ih with ⟨rfl, rfl⟩ | ⟨y', l', r', rfl, hfirst, hrest⟩
      · exact .inr ⟨z, r, [], by simp, hrun, .start⟩
      · exact .inr ⟨y', l', r' ++ r, by simp, hfirst, .turn hrest hrun⟩

/-- A run of a loop is some finished turns and then a run of one more. -/
theorem Run.iterate_inv {body : σ → Prog E ε (σ ⊕ α)} {x : σ} {tr : Trace E} {q : Prog E ε α}
    (h : Run (iterate x body) tr q) :
    ∃ l r y, tr = l ++ r ∧ Turns body x l y ∧
      (r = [] ∧ q = iterate y body ∨ ∃ p', Run (body y) r p' ∧ q = p'.bind (next body .ret)) := by
  -- inside a turn: `l` are the finished turns, `m` is what the current one did
  suffices H : ∀ {p : Prog E ε α} {tr : Trace E}, Run p tr q →
      ∀ {l m : Trace E} {y : σ} {p₀ : Prog E ε (σ ⊕ α)}, Turns body x l y →
      Run (body y) m p₀ → p = p₀.bind (next body .ret) →
      ∃ l' r z p', l ++ m ++ tr = l' ++ r ∧ Turns body x l' z ∧ Run (body z) r p' ∧
        q = p'.bind (next body .ret) by
    cases h with
    | refl _ => exact ⟨[], [], x, rfl, .start, .inl ⟨rfl, rfl⟩⟩
    | loop h =>
        obtain ⟨l', r, z, p', htr, hl, hr, hq⟩ := H h .start (.refl _) rfl
        exact ⟨l', r, z, htr, hl, .inr ⟨p', hr, hq⟩⟩
  clear h
  intro p tr h
  induction h with
  | refl p =>
      intro l m y p₀ hl hm hp
      exact ⟨l, m, y, p₀, by simp, hl, hm, hp⟩
  | @call op k a tr q h ih =>
      intro l m y p₀ hl hm hp
      cases p₀ with
      | ret r => cases r <;> cases hp
      | call op' k' =>
          cases hp
          obtain ⟨l', r, z, p', htr, hrest⟩ := ih hl (hm.trans (.call (.refl _))) rfl
          exact ⟨l', r, z, p', by rw [← htr]; simp, hrest⟩
      | _ => cases hp
  | @loop σ' γ body' x' k' tr q h ih =>
      intro l m y p₀ hl hm hp
      cases p₀ with
      | ret r =>
          cases r with
          | inl z =>
              cases hp
              obtain ⟨l', r, z, p', htr, hrest⟩ := ih (.turn hl hm) (.refl _) rfl
              exact ⟨l', r, z, p', by rw [← htr]; simp, hrest⟩
          | inr b => cases hp
      | loop body₀ x₀ k₀ =>
          cases hp
          have hm' := hm.trans (.loop (.refl _))
          rw [List.append_nil] at hm'
          refine ih hl hm' ?_
          rw [bind_assoc]
          exact congrArg _ (funext fun r => (next_bind body' k₀ _ r).symm)
      | _ => cases hp

/-- The finished turns, one by one. -/
theorem Turns.flatten {body : σ → Prog E ε (σ ⊕ α)} {x y : σ} {tr : Trace E}
    (h : Turns body x tr y) :
    ∃ ts : List (Trace E), tr = ts.flatten ∧ ∀ t ∈ ts, ∃ z z', Run (body z) t (.ret (.inl z')) := by
  induction h with
  | start => exact ⟨[], rfl, nofun⟩
  | @turn l r y z _ hrun ih =>
      obtain ⟨ts, rfl, hts⟩ := ih
      refine ⟨ts ++ [r], by simp, ?_⟩
      intro t ht
      rcases List.mem_append.mp ht with ht | ht
      · exact hts t ht
      · rw [List.mem_singleton.mp ht]
        exact ⟨y, z, hrun⟩

/-- A run of a loop is its finished turns, one by one, and an unfinished one. -/
theorem Run.iterate_turns {body : σ → Prog E ε (σ ⊕ α)} {x : σ} {tr : Trace E} {q : Prog E ε α}
    (hbody : ∀ y z, body y ≠ .ret (.inl z)) (h : Run (iterate x body) tr q) :
    ∃ (ts : List (Trace E)) (rest : Trace E) (y : σ) (p : Prog E ε (σ ⊕ α)),
      tr = ts.flatten ++ rest ∧ (∀ t ∈ ts, ∃ z z', Run (body z) t (.ret (.inl z'))) ∧
      Run (body y) rest p ∧ ∀ z, p ≠ .ret (.inl z) := by
  obtain ⟨l, r, y, rfl, hturns, ⟨rfl, -⟩ | ⟨p, hp, -⟩⟩ := h.iterate_inv
  · obtain ⟨ts, rfl, hts⟩ := hturns.flatten
    exact ⟨ts, [], y, body y, rfl, hts, .refl _, hbody y⟩
  · by_cases hfinished : ∃ z, p = .ret (.inl z)
    · obtain ⟨z, rfl⟩ := hfinished
      obtain ⟨ts, hflat, hts⟩ := (hturns.turn hp).flatten
      exact ⟨ts, [], z, body z, by rw [hflat, List.append_nil], hts, .refl _, hbody z⟩
    · obtain ⟨ts, rfl, hts⟩ := hturns.flatten
      exact ⟨ts, r, y, p, rfl, hts, hp, not_exists.mp hfinished⟩

/-- A loop that stops does so in one of its turns. -/
theorem StopsAt.iterate_inv {body : σ → Prog E ε (σ ⊕ α)} {x : σ} {tr : Trace E} {why : Stop E ε}
    (h : StopsAt (iterate x body) tr why) :
    ∃ l r y, tr = l ++ r ∧ Turns body x l y ∧ StopsAt (body y) r why := by
  obtain ⟨q, hrun, hq⟩ := h
  obtain ⟨l, r, y, htr, hturns, ⟨-, rfl⟩ | ⟨p', hp', rfl⟩⟩ := hrun.iterate_inv
  · cases hq
  · rcases bind_stop hq with hq | ⟨a, rfl, hnext⟩
    · exact ⟨l, r, y, htr, hturns, p', hp', hq⟩
    · cases a <;> cases hnext

/-- A loop that crashes crashed in one of its turns. -/
theorem Run.iterate_crash {body : σ → Prog E ε (σ ⊕ α)} {x : σ} {tr : Trace E} {msg : String}
    (h : Run (iterate x body) tr (.crash msg)) :
    ∃ l r y, tr = l ++ r ∧ Turns body x l y ∧ Run (body y) r (.crash msg) := by
  obtain ⟨l, r, y, htr, hturns, hstop⟩ := h.crashes.iterate_inv
  exact ⟨l, r, y, htr, hturns, hstop.crashed⟩

/-- A loop that fails failed in one of its turns. -/
theorem Run.iterate_fail {body : σ → Prog E ε (σ ⊕ α)} {x : σ} {tr : Trace E} {e : ε}
    (h : Run (iterate x body) tr (.fail e)) :
    ∃ l r y, tr = l ++ r ∧ Turns body x l y ∧ Run (body y) r (.fail e) := by
  obtain ⟨l, r, y, htr, hturns, hstop⟩ := h.fails.iterate_inv
  exact ⟨l, r, y, htr, hturns, hstop.failed⟩

end Prog
