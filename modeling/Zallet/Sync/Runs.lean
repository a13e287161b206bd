/-
# `Zallet.Sync.Runs` — runs of `initialize` followed by `steady_state`

Where a run of the two tasks can be: in `initialize`, in an iteration of
`steady_state`, or dealing with the error an iteration ended with.  A run that
is over, by a failed assertion or with an error, ended in one of them.
-/
import Zallet.Sync.Traversal

namespace Zallet

variable {V : Type}

open Prog

/-- `initialize`, then `steady_state` from the tip it returned. -/
def follow (shutdownHeight : Option Nat) : Sync V Unit := do
  let start ← initializeSync shutdownHeight
  steadyState shutdownHeight start.1

/-- After the events `tr` of a run of `follow`, an iteration from `prevTip` begins. -/
inductive IterationFrom (shutdownHeight : Option Nat) :
    SyncTrace V → ChainBlock → Prop
  | intro {l m : SyncTrace V} {startingTip prevTip : ChainBlock} {startingBoundary : Nat} :
      Run (initializeSync shutdownHeight) l (.ret (startingTip, startingBoundary)) →
      Turns (steadyTurn shutdownHeight) startingTip m prevTip →
      IterationFrom shutdownHeight (l ++ ⟨.notifyOne, ()⟩ :: m) prevTip

section
variable {shutdownHeight : Option Nat}

theorem history_bounded :
    Bounded (World.history fun _ : Op V => True) shutdownHeight (fun _ => True) where
  quiet _ _ _ := trivial
  truncate _ _ := trivial
  put _ := trivial
  below _ := trivial
  range _ _ := trivial
  mempool _ _ := streamMempool_safe (fun _ => trivial) fun _ _ => trivial

/-- A turn that crashes does so in its iteration; the handling of errors asserts nothing. -/
theorem steadyTurn_crash {prevTip : ChainBlock} {tr : SyncTrace V} {msg : String}
    (h : Run (steadyTurn shutdownHeight prevTip) tr (.crash msg)) :
    Run (steadyStateIteration shutdownHeight prevTip) tr (.crash msg) := by
  rcases h.bind_crash with h | ⟨passEnd, l, r, -, -, h⟩
  · rcases h.bind_crash with h | ⟨x, l, r, -, -, h⟩
    · exact h.attempt_crash
    · rcases x with ⟨prevTip', error⟩ | ⟨prevTip', _ | _⟩
      · have hsafe := @history_bounded V shutdownHeight
        exact absurd h (handleError_safe hsafe).no_crash
      · cases h
      · cases h
  · cases passEnd <;> cases h

/-- A run of `follow` that crashes crashed in an iteration. -/
theorem follow_crash {tr : SyncTrace V} {msg : String}
    (h : Run (follow shutdownHeight) tr (.crash msg)) :
    ∃ l m prevTip, tr = l ++ m ∧ IterationFrom shutdownHeight l prevTip ∧
      Run (steadyStateIteration shutdownHeight prevTip) m (.crash msg) := by
  rcases h.bind_crash with h | ⟨⟨startingTip, startingBoundary⟩, l, r, rfl, hinit, h⟩
  · exact absurd h (initializeSync_safe history_bounded).no_crash
  · rcases h.bind_crash with h | ⟨u, l', r', rfl, hnotify, h⟩
    · cases h with
      | call h => cases h
    · obtain ⟨m, m', prevTip, rfl, hturns, hcrash⟩ := h.iterate_crash
      cases hnotify with
      | call hnotify =>
          cases hnotify
          exact ⟨l ++ ⟨.notifyOne, ()⟩ :: m, m', prevTip, by simp, .intro hinit hturns,
            steadyTurn_crash hcrash⟩

/-- After the events `tr`, the recovery from a block conflict at `height` begins. -/
inductive RecoveryFrom (shutdownHeight : Option Nat) : SyncTrace V → Nat → Prop
  | intro {l m : SyncTrace V} {p prevTip : ChainBlock} {height : Nat} :
      IterationFrom shutdownHeight l p →
      Run (steadyStateIteration shutdownHeight p) m
        (.fail (prevTip, .other (.blockConflict height))) →
      RecoveryFrom shutdownHeight (l ++ m) height

theorem handleError_not_fail {prevTip : ChainBlock} {error e : SyncError} {tr : SyncTrace V} :
    ¬ Run (handleError prevTip error) tr (.fail e) := by
  intro h
  unfold handleError at h
  split at h
  · rcases h.bind_fail with h | ⟨_, _, _, _, _, h⟩
    · cases h with
      | call h => cases h
    · cases h
  · split at h
    · rcases h.bind_fail with h | ⟨r, _, _, _, _, h⟩
      · exact Run.attempt_fail h
      · cases r <;> cases h
    · cases h

/-- The fatal error is the one handled, which is not retryable, or the one the recovery from the
conflict it reports failed with. -/
theorem handleError_fatal {prevTip p : ChainBlock} {error e : SyncError} {tr : SyncTrace V}
    (h : Run (handleError prevTip error) tr (.ret (.fatal p e))) :
    (error = e ∧ isRetryable e = false ∧ tr = []) ∨
    ∃ height, error = .other (.blockConflict height) ∧ Run (recoverConflict height) tr (.fail e) := by
  unfold handleError at h
  split at h
  · obtain ⟨_, _, _, _, _, h⟩ := h.bind_ret
    cases h
  · rename_i hretry
    split at h
    · rename_i height
      obtain ⟨r, l, m, rfl, hrecover, h⟩ := h.bind_ret
      cases r with
      | ok fork => cases h
      | error e' =>
          cases h
          rw [List.append_nil]
          exact .inr ⟨height, rfl, hrecover.attempt_error⟩
    · cases h
      exact .inl ⟨rfl, by simpa using hretry, rfl⟩

/-- A turn fails with the error of its iteration, when that is not retryable, or with that of the
recovery from the conflict the iteration met. -/
theorem steadyTurn_fail {p : ChainBlock} {tr : SyncTrace V} {e : SyncError}
    (h : Run (steadyTurn shutdownHeight p) tr (.fail e)) :
    (isRetryable e = false ∧
      ∃ prevTip, Run (steadyStateIteration shutdownHeight p) tr (.fail (prevTip, e))) ∨
    ∃ m r prevTip height, tr = m ++ r ∧
      Run (steadyStateIteration shutdownHeight p) m
        (.fail (prevTip, .other (.blockConflict height))) ∧
      Run (recoverConflict height) r (.fail e) := by
  rcases h.bind_fail with h | ⟨passEnd, l, r, rfl, hpass, h⟩
  · -- a pass turns every error into its end
    rcases h.bind_fail with h | ⟨x, l, r, -, -, h⟩
    · exact absurd h Run.attempt_fail
    · rcases x with ⟨prevTip', error⟩ | ⟨prevTip', _ | _⟩
      · exact absurd h handleError_not_fail
      · cases h
      · cases h
  · cases passEnd with
    | again _ => cases h
    | shutdown _ _ => cases h
    | fatal prevTip error =>
        cases h
        rw [List.append_nil]
        obtain ⟨x, l, r, rfl, hiter, hrest⟩ := hpass.bind_ret
        rcases x with ⟨prevTip', error'⟩ | ⟨prevTip', _ | _⟩
        · rcases handleError_fatal hrest with ⟨rfl, he, rfl⟩ | ⟨height, rfl, hrecover⟩
          · rw [List.append_nil]
            exact .inl ⟨he, prevTip', hiter.attempt_error⟩
          · exact .inr ⟨l, r, prevTip', height, rfl, hiter.attempt_error, hrecover⟩
        · cases hrest
        · cases hrest

/-- A run of `follow` that fails with a retryable error failed in `initialize`, or in the
recovery from a block conflict. -/
theorem follow_fail {tr : SyncTrace V} {e : SyncError}
    (h : Run (follow shutdownHeight) tr (.fail e)) :
    isRetryable e = false ∨ Run (initializeSync shutdownHeight) tr (.fail e) ∨
    ∃ l r height, tr = l ++ r ∧ RecoveryFrom shutdownHeight l height ∧
      Run (recoverConflict height) r (.fail e) := by
  rcases h.bind_fail with h | ⟨⟨startingTip, startingBoundary⟩, l, r, rfl, hinit, h⟩
  · exact .inr (.inl h)
  · rcases h.bind_fail with h | ⟨u, l', r', rfl, hnotify, h⟩
    · cases h with
      | call h => cases h
    · obtain ⟨m, m', p, rfl, hturns, hfail⟩ := h.iterate_fail
      cases hnotify with
      | call hnotify =>
          cases hnotify
          rcases steadyTurn_fail hfail with ⟨he, -⟩ | ⟨m₁, m₂, _, height, rfl, hiter, hrecover⟩
          · exact .inl he
          · exact .inr (.inr ⟨l ++ ⟨.notifyOne, ()⟩ :: m ++ m₁, m₂, height, by simp,
              .intro (.intro hinit hturns) hiter, hrecover⟩)

/-- While the first iteration is under way, it is the only one there was. -/
theorem IterationFrom.only {l₀ m₀ l m : SyncTrace V} {startingTip prevTip : ChainBlock}
    {startingBoundary : Nat} {op : Op V} {k : (syncSig V).Ans op → Sync V (ChainBlock ⊕ Unit)}
    (hinit : Run (initializeSync shutdownHeight) l₀ (.ret (startingTip, startingBoundary)))
    (hturn : Run (steadyTurn shutdownHeight startingTip) m₀ (.call op k))
    (hpre : l ++ m <+: l₀ ++ ⟨.notifyOne, ()⟩ :: m₀) (h : IterationFrom shutdownHeight l prevTip) :
    prevTip = startingTip ∧ m <+: m₀ := by
  obtain ⟨r, hpre⟩ := hpre
  cases h with
  | @intro l₁ m₁ tip _ boundary hinit' hturns =>
      have htr : l₀ ++ (⟨.notifyOne, ()⟩ :: m₀) = l₁ ++ (⟨.notifyOne, ()⟩ :: m₁ ++ m ++ r) := by
        rw [← hpre]
        simp
      obtain ⟨rfl, heq⟩ := hinit.ret_unique hinit' htr
      cases heq
      have hm : m₀ = m₁ ++ m ++ r := by simpa using htr
      rcases hturns.first_inv with ⟨rfl, rfl⟩ | ⟨y, l, r', rfl, hfirst, -⟩
      · exact ⟨rfl, r, hm.symm⟩
      · -- a finished turn would have to continue the unfinished one
        rw [List.append_assoc, List.append_assoc] at hm
        have hm' : m₀ ++ [] = l ++ (r' ++ (m ++ r)) := by rw [List.append_nil, hm]
        rcases hturn.comparable hfirst hm' with ⟨t, rfl, ht⟩ | ⟨t, -, ht⟩
        · obtain rfl : t = [] := by
            have := congrArg List.length hm'
            simp only [List.length_append, List.length_nil] at this
            exact List.eq_nil_of_length_eq_zero (by omega)
          cases ht
        · cases ht

end

end Zallet
