/-
# `Zallet.Prog.Syntax` — programs that talk to an environment

A program is a tree: it returns, fails with an error, crashes, or asks its
environment to perform one operation and goes on from the answer.  The one
addition to the usual free monad is `loop`, so that a source `loop` or `while`
is one node of the tree and not a recursion: the body maps the loop variables
either to new ones (`Sum.inl`, go round again) or to the value the loop breaks
with (`Sum.inr`).

`fail` is the error of a `Result` on its way out through `?`; `crash` is a
failed assertion.  They are different: `attempt` catches the first and never
the second.

Nothing here fixes what the operations are or what they mean; that is the
`Sig` and, later, the `World`.
-/

namespace Prog

/-- An interface: the operations, and the type of answers of each. -/
structure Sig where
  Op : Type
  Ans : Op → Type

end Prog

/-- A program over the interface `E`, with errors in `ε`. -/
inductive Prog (E : Prog.Sig) (ε : Type) : Type → Type 1
  | ret {α : Type} (a : α) : Prog E ε α
  | fail {α : Type} (e : ε) : Prog E ε α
  | crash {α : Type} (msg : String) : Prog E ε α
  | call {α : Type} (op : E.Op) (k : E.Ans op → Prog E ε α) : Prog E ε α
  | loop {α σ β : Type} (body : σ → Prog E ε (σ ⊕ β)) (x : σ) (k : β → Prog E ε α) :
      Prog E ε α

namespace Prog

variable {E : Sig} {ε ε' δ α β σ : Type}

/-! ## Sequencing -/

/-- Run `p`, then `f` on what it returned. -/
def bind {β : Type} : {α : Type} → Prog E ε α → (α → Prog E ε β) → Prog E ε β
  | _, .ret a, f => f a
  | _, .fail e, _ => .fail e
  | _, .crash m, _ => .crash m
  | _, .call op k, f => .call op fun a => (k a).bind f
  | _, .loop body x k, f => .loop body x fun b => (k b).bind f

instance : Monad (Prog E ε) where
  pure := .ret
  bind := .bind

/-- What follows one turn of a loop: the next turn, or the continuation. -/
def next (body : σ → Prog E ε (σ ⊕ β)) (k : β → Prog E ε α) : σ ⊕ β → Prog E ε α
  | .inl y => .loop body y k
  | .inr b => k b

/-- A loop from `x` that returns the value it breaks with. -/
def iterate (x : σ) (body : σ → Prog E ε (σ ⊕ β)) : Prog E ε β := .loop body x .ret

/-! ## Errors -/

/-- A `Result` as a program, its error converted by `f`. -/
def ofExcept (f : δ → ε) : Except δ α → Prog E ε α
  | .ok a => .ret a
  | .error e => .fail (f e)

theorem mapError_ok {f : δ → ε} {a : α} : (Except.ok a).mapError f = .ok a := rfl

theorem mapError_eq_ok {f : δ → ε} {x : Except δ α} {a : α} :
    x.mapError f = .ok a ↔ x = .ok a := by
  cases x with
  | ok b =>
      constructor
      · intro h
        cases h
        rfl
      · intro h
        cases h
        rfl
  | error e =>
      constructor
      · intro h
        cases h
      · intro h
        cases h

/-- Perform `op` and continue with its answer read as a `Result`. -/
def query (op : E.Op) (f : E.Ans op → Except ε α) : Prog E ε α :=
  .call op fun a => ofExcept id (f a)

/-- Perform an operation that cannot fail. -/
def ask (op : E.Op) : Prog E ε (E.Ans op) := .call op .ret

/-- `assert!(c)`. -/
def check (c : Prop) [Decidable c] (msg : String) : Prog E ε Unit :=
  if c then .ret () else .crash msg

/-- Convert the errors of a program. -/
def mapErr (f : ε → ε') : {α : Type} → Prog E ε α → Prog E ε' α
  | _, .ret a => .ret a
  | _, .fail e => .fail (f e)
  | _, .crash m => .crash m
  | _, .call op k => .call op fun a => (k a).mapErr f
  | _, .loop body x k => .loop (fun y => (body y).mapErr f) x fun b => (k b).mapErr f

/-- Catch the error a turn of a loop ended with: the loop breaks with it. -/
def caught : Except ε (σ ⊕ β) → σ ⊕ Except ε β
  | .ok (.inl y) => .inl y
  | .ok (.inr b) => .inr (.ok b)
  | .error e => .inr (.error e)

/-- Run a program and return its result or its error as a value. -/
def attempt : {α : Type} → Prog E ε α → Prog E ε' (Except ε α)
  | _, .ret a => .ret (.ok a)
  | _, .fail e => .ret (.error e)
  | _, .crash m => .crash m
  | _, .call op k => .call op fun a => (k a).attempt
  | _, .loop body x k =>
      .loop (fun y => (body y).attempt.bind fun r => .ret (caught r)) x fun
        | .ok b => (k b).attempt
        | .error e => .ret (.error e)

-- the equations are made here, once, and not by each of the many proofs that unfold these
attribute [grind =] bind mapErr attempt

end Prog
