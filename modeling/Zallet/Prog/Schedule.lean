/-
# `Zallet.Prog.Schedule` — running threads by a schedule

A schedule says which thread goes on next and for how many steps.  `schedule`
computes the interleaving it gives in a given environment, as `exec` does for
one program.
-/
import Zallet.Prog.Exec
import Zallet.Prog.Threads

namespace Prog

variable {E : Sig} {ε α ι S : Type} [DecidableEq ι]

/-- The labelled events, the environment's last state and what the threads have become. -/
def schedule (answer : Answer E S) :
    List (ι × Nat) → S → (ι → Prog E ε α) → List (ι × Event E) × S × (ι → Prog E ε α)
  | [], s, ps => ([], s, ps)
  | (i, n) :: turns, s, ps =>
      let r := exec answer n s (ps i)
      let rest := schedule answer turns r.2.1 (Function.update ps i r.2.2)
      (r.1.map (fun e => (i, e)) ++ rest.1, rest.2)

theorem schedule_interleave (answer : Answer E S) :
    ∀ (turns : List (ι × Nat)) (s : S) (ps : ι → Prog E ε α),
      Interleave ps (schedule answer turns s ps).1 (schedule answer turns s ps).2.2
  | [], _, ps => .refl ps
  | (i, n) :: turns, s, ps =>
      .step i (exec_run answer n s (ps i)) (schedule_interleave answer turns _ _)

theorem schedule_path {step : S → (op : E.Op) → E.Ans op → S → Prop} {answer : Answer E S}
    (h : ∀ s op, step s op (answer s op).1 (answer s op).2) :
    ∀ (turns : List (ι × Nat)) (s : S) (ps : ι → Prog E ε α),
      Path step s ((schedule answer turns s ps).1.map Prod.snd) (schedule answer turns s ps).2.1
  | [], s, _ => .nil s
  | (i, n) :: turns, s, ps => by
      have hown : ((exec answer n s (ps i)).1.map fun e => (i, e)).map Prod.snd =
          (exec answer n s (ps i)).1 := by
        rw [List.map_map]
        exact List.map_id _
      rw [schedule, List.map_append, hown]
      exact (exec_path id h n s (ps i)).append (schedule_path h turns _ _)

end Prog
