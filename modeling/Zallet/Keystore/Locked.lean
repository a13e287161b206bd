/-
# `Zallet.Keystore.Locked` — decrypted identities and their timer

The identities in memory are covered when a live relock task will clear them,
or a call that holds the mutex is about to see to it (`Covered`).  Every step
keeps that but one: `unlock` computes its deadline after it has written the
identities, and when `SystemTime::now() + timeout` overflows it panics there,
with the old task already taken.  Runs in which no deadline overflows stay
covered, so a keystore at rest with no deadline is locked
(`locked_without_deadline`).
-/
import Zallet.Keystore.Relock

namespace Zallet

open KeystoreState

/-- From when the old task is taken until the new one is noted. -/
def HolderPhase.between : HolderPhase → Bool
  | .awaits _ | .ready | .writes | .wrote => true
  | .locked | .armed _ => false

/-- The deadline an `unlock` is about to compute fits a `SystemTime`. -/
def InTime (s : KeystoreState) : KeystoreAction → Prop
  | .proceed => ∀ h ∈ s.holder, h.phase = .wrote → ∀ timeout ∈ h.purpose.timeout?,
      s.systemTime + timeout.toNat < 2 ^ 63
  | _ => True

-- looks at the one timeout there may be, not at every number there is
instance decDeadlineFits (s : KeystoreState) (h : Holder) :
    Decidable (∀ timeout ∈ h.purpose.timeout?, s.systemTime + timeout.toNat < 2 ^ 63) :=
  Option.decidableForallMem _

instance decInTime (s : KeystoreState) : (a : KeystoreAction) → Decidable (InTime s a)
  | .proceed => inferInstanceAs (Decidable (∀ h ∈ s.holder, h.phase = .wrote →
      ∀ timeout ∈ h.purpose.timeout?, s.systemTime + timeout.toNat < 2 ^ 63))
  | .call _ _ | .enter _ | .poll _ | .read | .unread | .time _ _ => .isTrue trivial

/-- The identities in memory are cleared by a task that is still to run, or a call sees to it. -/
structure Covered (s : KeystoreState) : Prop where
  unaborted : ∀ t deadline, s.relockTask = some (deadline, t) →
    (s.tasks t).aborted = false ∧ (s.tasks t).phase ≠ .cancelled
  finished : ∀ t deadline, s.relockTask = some (deadline, t) →
    (s.tasks t).phase = .finished → s.identities = []
  taken : ∀ {h}, s.holder = some h → h.phase.between = true → s.relockTask = none
  noted : ∀ {h due}, s.holder = some h → h.phase = .armed due → s.relockTask ≠ none
  cleared : ∀ {h}, s.holder = some h → h.phase = .wrote → h.purpose = .lock → s.identities = []
  covered : s.relockTask = none →
    s.identities = [] ∨ ∃ h, s.holder = some h ∧ h.phase.between = true

namespace Covered

variable {s s' : KeystoreState} {k : KeyStore}

theorem new (hk : k.usesEncryptedIdentities = true) {clock systemTime : Nat} :
    Covered (k.new clock systemTime) where
  unaborted _ _ h := by cases h
  finished _ _ h := by cases h
  taken h := by cases h
  noted h := by cases h
  cleared h := by cases h
  covered _ := .inl (k.cached hk)

/-- The mutex is had: nothing between yet. -/
theorem enter (h : Covered s) (hholder : s.holder = none) {c : Nat} {purpose : Purpose} :
    Covered ({ s with holder := some ⟨c, purpose, .locked⟩ }.setCall c .holds) where
  unaborted := h.unaborted
  finished := h.finished
  taken hh hphase := by cases hh; cases hphase
  noted hh hphase := by cases hh; cases hphase
  cleared hh hphase := by cases hh; cases hphase
  covered hnone := by
    rcases h.covered hnone with hempty | ⟨h', hh', -⟩
    · exact .inl hempty
    · rw [hholder] at hh'
      cases hh'

/-- The holder goes on, between. -/
theorem goto {h : Holder} {phase : HolderPhase} (hs : Covered s) (hnone : s.relockTask = none)
    (hbetween : phase.between = true) (hwrote : phase = .wrote → h.purpose = .lock →
      s.identities = []) : Covered (s.goto h phase) where
  unaborted := hs.unaborted
  finished := hs.finished
  taken _ _ := hnone
  noted hh hphase := by
    cases hh
    obtain rfl : phase = _ := hphase
    cases hbetween
  cleared hh hphase hpurpose := by
    cases hh
    exact hwrote hphase hpurpose
  covered _ := .inr ⟨_, rfl, hbetween⟩

/-- The mutex is dropped with the identities covered. -/
theorem leave {h : Holder} {call : CallState} (hs : Covered s)
    (hempty : s.relockTask = none → s.identities = []) : Covered (s.leave h call) where
  unaborted := hs.unaborted
  finished := hs.finished
  taken hh := by cases hh
  noted hh := by cases hh
  cleared hh := by cases hh
  covered hnone := .inl (hempty hnone)

/-- The task that the keystore notes is taken and aborted. -/
theorem take {h : Holder} {phase : HolderPhase} {t : Nat} (hbetween : phase.between = true)
    (hwrote : phase ≠ .wrote) :
    Covered (({ s with relockTask := none }.abort t).goto h phase) where
  unaborted _ _ hh := by cases hh
  finished _ _ hh := by cases hh
  taken _ _ := rfl
  noted hh hphase := by
    cases hh
    obtain rfl : phase = _ := hphase
    cases hbetween
  cleared hh hphase := by
    cases hh
    exact absurd hphase hwrote
  covered _ := .inr ⟨_, rfl, hbetween⟩

/-- A step of the call that holds the mutex. -/
theorem proceed {h : Holder} (hs : Covered s) (hh : s.holder = some h)
    (hintime : InTime s .proceed) (hstep : Proceeded s h s') : Covered s' := by
  cases hstep with
  | skip _ hnone => exact hs.goto hnone rfl (by simp)
  | await => exact take rfl (by simp)
  | abandon => exact take rfl (by simp)
  | awaited hphase => exact hs.goto (hs.taken hh (by rw [hphase]; rfl)) rfl (by simp)
  | acquire hphase =>
      have hnone := hs.taken hh (by rw [hphase]; rfl)
      exact goto ⟨hs.unaborted, hs.finished, hs.taken, hs.noted, hs.cleared, hs.covered⟩ hnone rfl
        (by simp)
  | write hphase =>
      have hnone := hs.taken hh (by rw [hphase]; rfl)
      have hempty : h.purpose = .lock → h.purpose.cache = [] := fun hlock => by rw [hlock]; rfl
      exact {
        unaborted := hs.unaborted
        finished := fun _ _ hsome => by
          rw [show s.relockTask = some _ from hsome] at hnone
          cases hnone
        taken := fun _ _ => hnone
        noted := fun hh' hphase' => by cases hh'; cases hphase'
        cleared := fun hh' _ hpurpose => by cases hh'; exact hempty hpurpose
        covered := fun _ => .inr ⟨_, rfl, rfl⟩ }
  | done hphase hpurpose => exact hs.leave fun _ => hs.cleared hh hphase hpurpose
  | panic hphase hpurpose hadd =>
      have hfits := hintime h hh hphase _ (by rw [hpurpose]; rfl)
      rw [systemTimeAdd, if_pos hfits] at hadd
      cases hadd
  | arm hphase hpurpose hadd =>
      exact {
        unaborted := fun _ _ hsome => by
          cases hsome
          simp [KeystoreState.goto, KeystoreState.setTask]
        finished := fun _ _ hsome => by
          cases hsome
          simp [KeystoreState.goto, KeystoreState.setTask]
        taken := fun hh' hbetween => by cases hh'; cases hbetween
        noted := fun _ _ hnone => by cases hnone
        cleared := fun hh' hphase' => by cases hh'; cases hphase'
        covered := fun hnone => by cases hnone }
  | ret hphase => exact hs.leave fun hnone => absurd hnone (hs.noted hh hphase)

/-- A task that moves without clearing, and is cancelled only if aborted. -/
theorem setTask {t : Nat} {task : RelockTask} {writer : Option Writer} (hs : Covered s)
    (haborted : task.aborted = (s.tasks t).aborted)
    (hcancelled : task.phase = .cancelled → (s.tasks t).aborted = true)
    (hfinished : task.phase ≠ .finished) :
    Covered ({ s with writer := writer }.setTask t task) where
  unaborted := by
    refine (forall_setTask (P := fun t' task => ∀ deadline, s.relockTask = some (deadline, t') →
      task.aborted = false ∧ task.phase ≠ .cancelled)).mpr ⟨?_, fun t' _ => hs.unaborted t'⟩
    intro deadline hsome
    have hold := (hs.unaborted t deadline hsome).1
    refine ⟨haborted.trans hold, fun hphase => ?_⟩
    rw [hcancelled hphase] at hold
    cases hold
  finished := by
    refine (forall_setTask (P := fun t' task => ∀ deadline, s.relockTask = some (deadline, t') →
      task.phase = .finished → s.identities = [])).mpr ⟨?_, fun t' _ => hs.finished t'⟩
    exact fun _ _ hphase => absurd hphase hfinished
  taken := hs.taken
  noted := hs.noted
  cleared := hs.cleared
  covered := hs.covered

/-- A step of a relock task: the one noted is not cancelled, and clears when it finishes. -/
theorem poll {t : Nat} (hs : Covered s) (hstep : Polled s t s') : Covered s' := by
  cases hstep with
  | cancel haborted => exact hs.setTask rfl (fun _ => haborted) (by simp)
  | sleep => exact hs.setTask rfl (by simp) (by simp)
  | wake => exact hs.setTask rfl (by simp) (by simp)
  | queue => exact hs.setTask rfl (by simp) (by simp)
  | acquire => exact hs.setTask rfl (by simp) (by simp)
  | clear hphase =>
      refine ⟨?_, fun _ _ _ _ => rfl, hs.taken, hs.noted, fun _ _ _ => rfl, fun _ => .inl rfl⟩
      refine (forall_setTask (P := fun t' task => ∀ deadline, s.relockTask = some (deadline, t') →
        task.aborted = false ∧ task.phase ≠ .cancelled)).mpr ⟨?_, fun t' _ => hs.unaborted t'⟩
      exact fun deadline hsome => ⟨(hs.unaborted t deadline hsome).1, by simp⟩

theorem step {a : KeystoreAction} (hs : Covered s) (henabled : (keystore k).enabled s a)
    (hintime : InTime s a) : Covered ((keystore k).next s a) := by
  cases a with
  | call c passphrase =>
      exact ⟨hs.unaborted, hs.finished, hs.taken, hs.noted, hs.cleared, hs.covered⟩
  | enter c =>
      obtain ⟨purpose, hpurpose⟩ := Option.isSome_iff_exists.mp henabled.2
      simp only [keystore, hpurpose, Option.elim]
      exact hs.enter henabled.1
  | proceed =>
      obtain ⟨h, hh, hstep⟩ := proceed_step henabled
      exact hs.proceed hh hintime hstep
  | poll t => exact hs.poll (poll_cases henabled)
  | read => exact ⟨hs.unaborted, hs.finished, hs.taken, hs.noted, hs.cleared, hs.covered⟩
  | unread => exact ⟨hs.unaborted, hs.finished, hs.taken, hs.noted, hs.cleared, hs.covered⟩
  | time => exact ⟨hs.unaborted, hs.finished, hs.taken, hs.noted, hs.cleared, hs.covered⟩

/-- A covered keystore at rest is locked unless it has a deadline. -/
theorem locked (hs : Covered s) (hidle : s.Idle) (huntil : s.unlockedUntil = none) :
    s.isLocked = true := by
  have hempty : s.identities = [] := by
    cases hrelock : s.relockTask with
    | none =>
        rcases hs.covered hrelock with hempty | ⟨h, hh, -⟩
        · exact hempty
        · rw [hidle.1] at hh
          cases hh
    | some timer =>
        obtain ⟨deadline, t⟩ := timer
        have hfinished : (s.tasks t).phase.isFinished = true := by
          simpa [unlockedUntil, hrelock] using huntil
        rcases TaskPhase.isFinished_iff.mp hfinished with hphase | hphase
        · exact hs.finished t deadline hrelock hphase
        · exact absurd hphase (hs.unaborted t deadline hrelock).2
  rw [isLocked, hempty]
  rfl

end Covered

variable {k : KeyStore} {clock systemTime : Nat} {as : List KeystoreAction}

/-- As long as no deadline overflows, a keystore at rest that reports no deadline is locked. -/
theorem locked_without_deadline (hk : k.usesEncryptedIdentities = true)
    (hrun : ((keystore k).restrict InTime).Runs (k.new clock systemTime) as)
    (hidle : ((keystore k).after (k.new clock systemTime) as).Idle)
    (huntil : ((keystore k).after (k.new clock systemTime) as).unlockedUntil = none) :
    ((keystore k).after (k.new clock systemTime) as).isLocked = true := by
  have hcovered := Machine.invariant_of (fun _ _ => Covered.step) (Covered.new hk) hrun
  exact hcovered.locked hidle huntil

/-- An unlock for five seconds, the relock after them, and a call with a wrong passphrase. -/
def relockedRun : List KeystoreAction :=
  unlocking 0 5 ++ sleeping 0 105 1005 ++ [.poll 0, .poll 0, .call 1 (some (⟨"guess"⟩, 5))]

theorem relockedRun_idle : ((keystore sealedKeystore).after (sealedKeystore.new 100 1000)
    relockedRun).Idle := by
  refine ⟨rfl, fun c purpose h => ?_⟩
  rcases c with _ | _ | c <;> cases h

theorem locked_without_deadline_relocked :
    ((keystore sealedKeystore).after (sealedKeystore.new 100 1000) relockedRun).isLocked = true :=
  locked_without_deadline rfl (by decide +kernel) relockedRun_idle (by decide +kernel)

/-- An unlock whose deadline no `SystemTime` can hold. -/
def overflowingRun : List KeystoreAction := (unlocking 0 18446744073709551615).take 6

/-- It leaves the identities decrypted, and nothing to clear them. -/
theorem overflow_leaves_unlocked :
    (keystore sealedKeystore).Runs (sealedKeystore.new 100 1000) overflowingRun ∧
    ((keystore sealedKeystore).after (sealedKeystore.new 100 1000) overflowingRun).Idle ∧
    ((keystore sealedKeystore).after (sealedKeystore.new 100 1000) overflowingRun).unlockedUntil =
      none ∧
    ((keystore sealedKeystore).after (sealedKeystore.new 100 1000) overflowingRun).isLocked =
      false := by
  refine ⟨by decide +kernel, ⟨rfl, fun c purpose h => ?_⟩, by decide +kernel, by decide +kernel⟩
  rcases c with _ | c <;> cases h

end Zallet
