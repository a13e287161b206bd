/-
# `Zallet.Prog.Raises` — which errors a program may fail with

`Raises R p`: whatever `p` is told, if it fails then with an error in `R`.
Nothing is asked of the environment, so there is one rule for each way a
program is built.
-/
import Zallet.Prog.Run

namespace Prog

variable {E : Sig} {ε ε' α β γ σ : Type}

/-- Every error `p` can fail with is in `R`. -/
def Raises (R : ε → Prop) (p : Prog E ε α) : Prop := ∀ tr e, Run p tr (.fail e) → R e

section
variable {R : ε → Prop}

theorem Raises.pure {a : α} : Raises R (pure a : Prog E ε α) := by
  intro tr e h
  cases h

theorem Raises.ask {op : E.Op} : Raises R (ask op : Prog E ε _) := by
  intro tr e h
  cases h with
  | call h => cases h

theorem Raises.query {op : E.Op} {f : E.Ans op → Except ε α}
    (h : ∀ a e, f a = .error e → R e) : Raises R (query op f) := by
  intro tr e hrun
  cases hrun with
  | @call _ _ a _ _ hrun =>
      have hrun : Run (ofExcept id (f a)) _ (.fail e) := hrun
      cases hf : f a with
      | ok b =>
          rw [hf] at hrun
          cases hrun
      | error e' =>
          rw [hf] at hrun
          cases hrun
          exact h a e' hf

theorem Raises.fail {e : ε} (h : R e) : Raises R (.fail e : Prog E ε α) := by
  intro tr e' hrun
  cases hrun
  exact h

theorem Raises.crash {msg : String} : Raises R (.crash msg : Prog E ε α) := by
  intro tr e h
  cases h

theorem Raises.ofExcept {δ : Type} {f : δ → ε} {x : Except δ α}
    (h : ∀ e, x = .error e → R (f e)) : Raises R (Prog.ofExcept f x : Prog E ε α) := by
  cases x with
  | ok a => exact .pure
  | error e => exact .fail (h e rfl)

theorem Raises.check {c : Prop} [Decidable c] {msg : String} :
    Raises R (check c msg : Prog E ε Unit) := by
  intro tr e h
  unfold Prog.check at h
  split at h <;> cases h

theorem Raises.bind {p : Prog E ε α} {f : α → Prog E ε β} (hp : Raises R p)
    (hf : ∀ a, Raises R (f a)) : Raises R (p >>= f) := by
  intro tr e h
  rcases h.bind_fail with h | ⟨a, l, r, rfl, -, h⟩
  · exact hp tr e h
  · exact hf a r e h

theorem Raises.mapErr {R : ε' → Prop} {p : Prog E ε α} {g : ε → ε'}
    (hp : Raises (fun e => R (g e)) p) : Raises R (p.mapErr g) := by
  intro tr e' h
  obtain ⟨e, rfl, hrun⟩ := h.mapErr_fail
  exact hp tr e hrun

theorem Raises.iterate {body : σ → Prog E ε (σ ⊕ α)} (h : ∀ y, Raises R (body y)) {x : σ} :
    Raises R (iterate x body) := by
  intro tr e hrun
  obtain ⟨l, r, y, rfl, -, hrun⟩ := hrun.iterate_fail
  exact h y r e hrun

theorem Raises.foldlM {f : σ → γ → Prog E ε σ} (h : ∀ y c, Raises R (f y c)) :
    ∀ {xs : List γ} {x : σ}, Raises R (xs.foldlM f x)
  | [], _ => .pure
  | c :: cs, x => by
      rw [List.foldlM_cons]
      exact .bind (h x c) fun y => Raises.foldlM h

theorem Raises.forM {f : γ → Prog E ε PUnit} (h : ∀ c, Raises R (f c)) :
    ∀ {xs : List γ}, Raises R (xs.forM f)
  | [] => .pure
  | c :: _ => .bind (h c) fun _ => Raises.forM h

end

end Prog
