/-
# `Zallet.Prog.Exec` — running a program against a given environment

`exec answer n s p` runs `p` for at most `n` steps, every operation answered by
`answer`.  It computes, so a concrete run is found by evaluation; `exec_run`
says that what it finds is a run, and `exec_path` that a relation the answers
keep to is kept to along it.
-/
import Zallet.Prog.Wp

namespace Prog

variable {E : Sig} {ε α β S T : Type}

/-- A deterministic environment. -/
abbrev Answer (E : Sig) (S : Type) := S → (op : E.Op) → E.Ans op × S

/-- The events, the environment's last state and the rest of the program after `n` steps. -/
def exec (answer : Answer E S) : Nat → S → Prog E ε α → Trace E × S × Prog E ε α
  | n + 1, s, .call op k =>
      let r := exec answer n (answer s op).2 (k (answer s op).1)
      (⟨op, (answer s op).1⟩ :: r.1, r.2)
  | n + 1, s, .loop body x k => exec answer n s ((body x).bind (next body k))
  | _, s, p => ([], s, p)

theorem exec_run (answer : Answer E S) : ∀ (n : Nat) (s : S) (p : Prog E ε α),
    Run p (exec answer n s p).1 (exec answer n s p).2.2
  | 0, _, p => .refl p
  | n + 1, s, .call op k => .call (exec_run answer n _ (k (answer s op).1))
  | n + 1, s, .loop _ _ _ => .loop (exec_run answer n s _)
  | _ + 1, _, .ret _ => .refl _
  | _ + 1, _, .fail _ => .refl _
  | _ + 1, _, .crash _ => .refl _

/-- If every answer is a step, of the states as seen through `f`, then the run is a path. -/
theorem exec_path {step : T → (op : E.Op) → E.Ans op → T → Prop} {answer : Answer E S} (f : S → T)
    (h : ∀ s op, step (f s) op (answer s op).1 (f (answer s op).2)) :
    ∀ (n : Nat) (s : S) (p : Prog E ε α),
      Path step (f s) (exec answer n s p).1 (f (exec answer n s p).2.1)
  | 0, s, _ => .nil (f s)
  | n + 1, s, .call op k => .cons (h s op) (exec_path f h n _ (k (answer s op).1))
  | n + 1, s, .loop body x k => exec_path f h n s ((body x).bind (next body k))
  | _ + 1, s, .ret _ => .nil (f s)
  | _ + 1, s, .fail _ => .nil (f s)
  | _ + 1, s, .crash _ => .nil (f s)

/-! ## Where the run ended -/

/-- What a program that is over returned. -/
def result? : Prog E ε α → Option α
  | .ret a => some a
  | _ => none

/-- What a program that crashed said. -/
def crashed? : Prog E ε α → Option String
  | .crash msg => some msg
  | _ => none

/-- The error a program failed with. -/
def failed? : Prog E ε α → Option ε
  | .fail e => some e
  | _ => none

/-- The operation a program is about to perform. -/
def asks? : Prog E ε α → Option E.Op
  | .call op _ => some op
  | _ => none

section
variable {q : Prog E ε α}

theorem eq_ret_of_result? {a : α} (h : q.result? = some a) : q = .ret a := by
  cases q with
  | ret b => exact congrArg _ (Option.some.inj h)
  | _ => cases h

theorem eq_crash_of_crashed? {msg : String} (h : q.crashed? = some msg) : q = .crash msg := by
  cases q with
  | crash m => exact congrArg _ (Option.some.inj h)
  | _ => cases h

theorem eq_fail_of_failed? {e : ε} (h : q.failed? = some e) : q = .fail e := by
  cases q with
  | fail e' => exact congrArg _ (Option.some.inj h)
  | _ => cases h

theorem eq_call_of_asks? {op : E.Op} (h : q.asks? = some op) : ∃ k, q = .call op k := by
  cases q with
  | call op' k =>
      cases h
      exact ⟨k, rfl⟩
  | _ => cases h

end

section
variable {answer : Answer E S} {n : Nat} {s : S} {p : Prog E ε α}

theorem exec_ret {a : α} (h : (exec answer n s p).2.2.result? = some a) :
    Run p (exec answer n s p).1 (.ret a) :=
  eq_ret_of_result? h ▸ exec_run answer n s p

theorem exec_crash {msg : String} (h : (exec answer n s p).2.2.crashed? = some msg) :
    Run p (exec answer n s p).1 (.crash msg) :=
  eq_crash_of_crashed? h ▸ exec_run answer n s p

theorem exec_fail {e : ε} (h : (exec answer n s p).2.2.failed? = some e) :
    Run p (exec answer n s p).1 (.fail e) :=
  eq_fail_of_failed? h ▸ exec_run answer n s p

theorem exec_asks {op : E.Op} (h : (exec answer n s p).2.2.asks? = some op) :
    ∃ k, Run p (exec answer n s p).1 (.call op k) := by
  obtain ⟨k, hq⟩ := eq_call_of_asks? h
  exact ⟨k, hq ▸ exec_run answer n s p⟩

end

/-! ## The answers along the run -/

/-- Every answer of the run is one the environment gives. -/
theorem exec_answered (answer : Answer E S) : ∀ (n : Nat) (s : S) (p : Prog E ε α),
    ∀ e ∈ (exec answer n s p).1, ∃ t, (answer t e.op).1 = e.ans
  | 0, _, _, _, h => absurd h (List.not_mem_nil)
  | n + 1, s, .call op k, e, h => by
      rcases List.mem_cons.mp h with rfl | h
      · exact ⟨s, rfl⟩
      · exact exec_answered answer n _ (k (answer s op).1) e h
  | n + 1, s, .loop body x k, e, h => exec_answered answer n s ((body x).bind (next body k)) e h
  | _ + 1, _, .ret _, _, h => absurd h (List.not_mem_nil)
  | _ + 1, _, .fail _, _, h => absurd h (List.not_mem_nil)
  | _ + 1, _, .crash _, _, h => absurd h (List.not_mem_nil)

/-- What holds of every answer of the environment holds along the run. -/
theorem exec_forall {A : Event E → Prop} {answer : Answer E S}
    (h : ∀ t op, A ⟨op, (answer t op).1⟩) (n : Nat) (s : S) (p : Prog E ε α) :
    ∀ e ∈ (exec answer n s p).1, A e := by
  intro e he
  obtain ⟨t, ht⟩ := exec_answered answer n s p e he
  have := h t e.op
  rwa [ht] at this

end Prog
