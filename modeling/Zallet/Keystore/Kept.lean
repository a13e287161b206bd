/-
# `Zallet.Keystore.Kept` — unlocked until the timeout is over

What an `unlock` puts in the cache should stay there until its timeout is over,
whatever became of earlier tasks.  `unlock` awaits the task it aborts; `lock`
only aborts it.  A task that sleeps or waits for the write lock is gone then,
and one that has the write lock is done before `lock` gets it.  But a task
that is between its sleep and the write lock goes on after `lock` has returned,
and clears what a later `unlock` has written (`late_abort_clears`).

As long as no `lock` meets a task there, every task that may still clear is
attended: the keystore notes it, a call awaits it, or it is clearing ahead of
the call (`Attended`).  Then the identities change only by a call, or by the
task of the `unlock` that wrote them after its time (`unlocked_until_due`).
-/
import Zallet.Keystore.Locked

namespace Zallet

open KeystoreState

/-- No `lock` takes a task that is past its sleep and has not yet asked for the write lock. -/
def NoLateAbort (s : KeystoreState) : KeystoreAction → Prop
  | .proceed => ∀ h ∈ s.holder, h.phase = .locked → h.purpose = .lock →
      ∀ noted ∈ s.relockTask, (s.tasks noted.2).phase ≠ .woken
  | _ => True

instance decNoLateAbort (s : KeystoreState) : (a : KeystoreAction) → Decidable (NoLateAbort s a)
  | .proceed => inferInstanceAs (Decidable (∀ h ∈ s.holder, h.phase = .locked →
      h.purpose = .lock → ∀ noted ∈ s.relockTask, (s.tasks noted.2).phase ≠ .woken))
  | .call _ _ | .enter _ | .poll _ | .read | .unread | .time _ _ => .isTrue trivial

/-- No call writes the identities. -/
def NoWrite (s : KeystoreState) : KeystoreAction → Prop
  | .proceed => ∀ h ∈ s.holder, h.phase ≠ .writes
  | _ => True

instance decNoWrite (s : KeystoreState) : (a : KeystoreAction) → Decidable (NoWrite s a)
  | .proceed => inferInstanceAs (Decidable (∀ h ∈ s.holder, h.phase ≠ .writes))
  | .call _ _ | .enter _ | .poll _ | .read | .unread | .time _ _ => .isTrue trivial

/-- A task that may still clear the identities. -/
def RelockTask.live (task : RelockTask) : Bool :=
  match task.phase with
  | .woken | .clearing => true
  | .spawned | .sleeping | .queued => !task.aborted
  | .unspawned | .finished | .cancelled => false

/-- Past its sleep. -/
def TaskPhase.awake : TaskPhase → Bool
  | .woken | .queued | .clearing => true
  | _ => false

/-- A task does not wake up before it is due. -/
def RelockTask.OnTime (clock : Nat) (task : RelockTask) : Prop :=
  (task.phase.awake = true → task.due ≤ clock) ∧
    (task.phase = .spawned → task.due ≤ clock + task.duration)

def Timed (s : KeystoreState) : Prop := ∀ t, (s.tasks t).OnTime s.clock

/-- It will not clear the identities before `due`. -/
def RelockTask.NotBefore (due : Nat) (task : RelockTask) : Prop :=
  task.live = true → due ≤ task.due

/-- Until `due` the identities are those given, and no task that may clear them is due before. -/
structure Kept (identities : List Identity) (due : Nat) (s : KeystoreState) : Prop where
  identities : s.clock < due → s.identities = identities
  tasks : ∀ t, (s.tasks t).NotBefore due
  written : ∀ {h}, s.holder = some h → h.phase ≠ .wrote

/-- Where a task that may still clear the identities is accounted for. -/
def AttendedTo (relockTask : Option (Nat × Nat)) (holder : Option Holder) (t : Nat)
    (task : RelockTask) : Prop :=
  task.live = true → (∃ deadline, relockTask = some (deadline, t)) ∨
    (∃ h, holder = some h ∧ h.phase = .awaits t) ∨
    task.phase = .clearing ∧ ∃ h, holder = some h ∧ h.phase = .ready

/-- A task that clears has the write lock. -/
def Excludes (writer : Option Writer) (t : Nat) (task : RelockTask) : Prop :=
  task.phase = .clearing → writer = some (.task t)

/-- Every task that may still clear the identities is accounted for. -/
structure Attended (s : KeystoreState) : Prop where
  live : ∀ t, AttendedTo s.relockTask s.holder t (s.tasks t)
  taken : ∀ {h}, s.holder = some h → h.phase.between = true → s.relockTask = none
  clearing : ∀ t, Excludes s.writer t (s.tasks t)
  writes : ∀ {h}, s.holder = some h → h.phase = .writes → s.writer = some .holder
  wrote : ∀ {h}, s.holder = some h → h.phase = .wrote → s.identities = h.purpose.cache
  armed : ∀ {h due}, s.holder = some h → h.phase = .armed due → Kept h.purpose.cache due s

section
variable {s s' : KeystoreState} {k : KeyStore} {t : Nat} {a : KeystoreAction}

/-! ## Times -/

theorem Timed.proceed {h : Holder} (hs : Timed s) (hstep : Proceeded s h s') : Timed s' := by
  cases hstep with
  | await => exact forall_setTask.mpr ⟨hs _, fun t' _ => hs t'⟩
  | abandon => exact forall_setTask.mpr ⟨hs _, fun t' _ => hs t'⟩
  | arm => exact forall_setTask.mpr ⟨⟨by simp [TaskPhase.awake], fun _ => Nat.le_refl _⟩, fun t' _ => hs t'⟩
  | _ => exact hs

theorem Timed.poll (hs : Timed s) (hstep : Polled s t s') : Timed s' := by
  cases hstep with
  | cancel => exact forall_setTask.mpr ⟨⟨by simp [TaskPhase.awake], by simp⟩, fun t' _ => hs t'⟩
  | sleep => exact forall_setTask.mpr ⟨⟨by simp [TaskPhase.awake], by simp⟩, fun t' _ => hs t'⟩
  | wake _ _ hdue => exact forall_setTask.mpr ⟨⟨fun _ => hdue, by simp⟩, fun t' _ => hs t'⟩
  | queue hphase =>
      have hdue := (hs t).1 (by rw [hphase]; rfl)
      exact forall_setTask.mpr ⟨⟨fun _ => hdue, by simp⟩, fun t' _ => hs t'⟩
  | acquire hphase =>
      have hdue := (hs t).1 (by rcases hphase with hphase | ⟨hphase, -⟩ <;> rw [hphase] <;> rfl)
      exact forall_setTask.mpr ⟨⟨fun _ => hdue, by simp⟩, fun t' _ => hs t'⟩
  | clear => exact forall_setTask.mpr ⟨⟨by simp [TaskPhase.awake], by simp⟩, fun t' _ => hs t'⟩

theorem Timed.step (hs : Timed s) (henabled : (keystore k).enabled s a) :
    Timed ((keystore k).next s a) := by
  cases a with
  | call c passphrase => exact hs
  | enter c =>
      obtain ⟨purpose, hpurpose⟩ := Option.isSome_iff_exists.mp henabled.2
      simp only [keystore, hpurpose, Option.elim]
      exact hs
  | proceed =>
      obtain ⟨h, hh, hstep⟩ := proceed_step henabled
      exact hs.proceed hstep
  | poll t => exact hs.poll (poll_cases henabled)
  | read => exact hs
  | unread => exact hs
  | time clock systemTime =>
      have hlater : s.clock ≤ clock := henabled
      intro t
      obtain ⟨hdue, hspawned⟩ := hs t
      refine ⟨fun hawake => Nat.le_trans (hdue hawake) hlater, fun hphase => ?_⟩
      exact Nat.le_trans (hspawned hphase) (Nat.add_le_add_right hlater _)

/-! ## What an unlock wrote -/

namespace Kept

variable {identities : List Identity} {due : Nat}

/-- A task that moves keeps what is kept, if it is due no earlier. -/
theorem setTask {task : RelockTask} {writer : Option Writer} (h : Kept identities due s)
    (htask : task.live = true → (s.tasks t).live = true ∧ (s.tasks t).due ≤ task.due) :
    Kept identities due ({ s with writer := writer }.setTask t task) where
  identities := h.identities
  tasks := forall_setTask.mpr ⟨fun hlive =>
    Nat.le_trans (h.tasks t (htask hlive).1) (htask hlive).2, fun t' _ => h.tasks t'⟩
  written := h.written

theorem poll (h : Kept identities due s) (htimed : Timed s) (hstep : Polled s t s') :
    Kept identities due s' := by
  cases hstep with
  | cancel => exact h.setTask (by simp [RelockTask.live])
  | sleep hphase haborted =>
      have hdue := (htimed t).2 hphase
      exact h.setTask fun _ => ⟨by simp [RelockTask.live, hphase, haborted], hdue⟩
  | wake hphase haborted =>
      exact h.setTask fun _ => ⟨by simp [RelockTask.live, hphase, haborted], Nat.le_refl _⟩
  | queue hphase => exact h.setTask fun _ => ⟨by simp [RelockTask.live, hphase], Nat.le_refl _⟩
  | acquire hphase =>
      refine h.setTask fun _ => ⟨?_, Nat.le_refl _⟩
      rcases hphase with hphase | ⟨hphase, haborted⟩
      · simp [RelockTask.live, hphase]
      · simp [RelockTask.live, hphase, haborted]
  | clear hphase =>
      -- the task that clears is due, so nothing is kept any more
      have hnot := h.tasks t (by simp [RelockTask.live, hphase])
      have hdue := (htimed t).1 (by rw [hphase]; rfl)
      have hover : due ≤ s.clock := Nat.le_trans hnot hdue
      refine ⟨fun hbefore => absurd hover (Nat.not_le_of_lt hbefore), ?_, h.written⟩
      exact forall_setTask.mpr ⟨fun hlive => (by cases hlive), fun t' _ => h.tasks t'⟩

/-- A call that takes the task and does not write. -/
theorem proceed {holder : Holder} (h : Kept identities due s) (hh : s.holder = some holder)
    (hwrite : holder.phase ≠ .writes) (hstep : Proceeded s holder s') :
    Kept identities due s' := by
  have habort : ∀ t, (({ s.tasks t with aborted := true } : RelockTask).live = true →
      (s.tasks t).live = true) := by
    intro t
    cases hphase : (s.tasks t).phase <;> simp [RelockTask.live, hphase]
  have hwrote := h.written hh
  cases hstep with
  | skip => exact ⟨h.identities, h.tasks, fun hh' => by cases hh'; simp⟩
  | await | abandon =>
      refine ⟨h.identities, ?_, fun hh' => by cases hh'; simp⟩
      exact forall_setTask.mpr ⟨fun hlive => h.tasks _ (habort _ hlive), fun t' _ => h.tasks t'⟩
  | awaited => exact ⟨h.identities, h.tasks, fun hh' => by cases hh'; simp⟩
  | acquire => exact ⟨h.identities, h.tasks, fun hh' => by cases hh'; simp⟩
  | write hphase => exact absurd hphase hwrite
  | done hphase => exact absurd hphase hwrote
  | panic hphase => exact absurd hphase hwrote
  | arm hphase => exact absurd hphase hwrote
  | ret => exact ⟨h.identities, h.tasks, fun hh' => by cases hh'⟩

theorem step (h : Kept identities due s) (htimed : Timed s) (henabled : (keystore k).enabled s a)
    (hwrite : NoWrite s a) : Kept identities due ((keystore k).next s a) := by
  cases a with
  | call c passphrase => exact ⟨h.identities, h.tasks, h.written⟩
  | enter c =>
      obtain ⟨purpose, hpurpose⟩ := Option.isSome_iff_exists.mp henabled.2
      simp only [keystore, hpurpose, Option.elim]
      exact ⟨h.identities, h.tasks, fun hh' => by cases hh'; simp⟩
  | proceed =>
      obtain ⟨holder, hh, hstep⟩ := proceed_step henabled
      exact h.proceed hh (hwrite holder hh) hstep
  | poll t => exact h.poll htimed (poll_cases henabled)
  | read => exact ⟨h.identities, h.tasks, h.written⟩
  | unread => exact ⟨h.identities, h.tasks, h.written⟩
  | time clock systemTime =>
      have hlater : s.clock ≤ clock := henabled
      exact ⟨fun hbefore => h.identities (Nat.lt_of_le_of_lt hlater hbefore), h.tasks, h.written⟩

end Kept

/-! ## Tasks and the calls that attend to them -/

/-- No task is left that may clear the identities. -/
def Calm (s : KeystoreState) : Prop := ∀ t, (s.tasks t).live = false

theorem Calm.not_live (h : Calm s) (hlive : (s.tasks t).live = true) : False := by
  rw [h t] at hlive
  cases hlive

theorem Calm.not_clearing (h : Calm s) (hphase : (s.tasks t).phase = .clearing) : False := by
  have hlive : (s.tasks t).live = true := by simp [RelockTask.live, hphase]
  exact h.not_live hlive

namespace Attended

theorem calm_of {h : Holder} (hs : Attended s) (hh : s.holder = some h)
    (hnone : s.relockTask = none) (hawaits : ∀ t, h.phase = .awaits t → (s.tasks t).live = false)
    (hready : h.phase = .ready → s.Free) : Calm s := by
  intro t
  by_contra hlive
  rw [Bool.not_eq_false] at hlive
  rcases hs.live t hlive with ⟨deadline, hsome⟩ | ⟨h', hh', hphase⟩ | ⟨hclearing, h', hh', hphase⟩
  · rw [hnone] at hsome
    cases hsome
  · rw [hh] at hh'
    cases hh'
    rw [hawaits t hphase] at hlive
    cases hlive
  · rw [hh] at hh'
    cases hh'
    have hwriter := hs.clearing t hclearing
    rw [(hready hphase).1] at hwriter
    cases hwriter

/-- When a call has the write lock, or has written, no task is left that may clear. -/
theorem calm {h : Holder} (hs : Attended s) (hh : s.holder = some h)
    (hphase : h.phase = .writes ∨ h.phase = .wrote) : Calm s := by
  have hbetween : h.phase.between = true := by
    rcases hphase with hphase | hphase <;> rw [hphase] <;> rfl
  refine hs.calm_of hh (hs.taken hh hbetween) (fun t hawaits => ?_) (fun hready => ?_)
  · rw [hawaits] at hphase
    rcases hphase with hphase | hphase <;> cases hphase
  · rw [hready] at hphase
    rcases hphase with hphase | hphase <;> cases hphase

theorem goto_calm {h : Holder} {phase : HolderPhase} (hcalm : Calm s)
    (hnone : s.relockTask = none) (hwrites : phase = .writes → s.writer = some .holder)
    (hwrote : phase = .wrote → s.identities = h.purpose.cache)
    (harmed : ∀ due, phase ≠ .armed due) : Attended (s.goto h phase) where
  live _ hlive := (hcalm.not_live hlive).elim
  taken _ _ := hnone
  clearing _ hphase := (hcalm.not_clearing hphase).elim
  writes hh hphase := by cases hh; exact hwrites hphase
  wrote hh hphase := by cases hh; exact hwrote hphase
  armed hh hphase := by cases hh; exact absurd hphase (harmed _)

theorem leave_calm {h : Holder} {call : CallState} (hcalm : Calm s) :
    Attended (s.leave h call) where
  live _ hlive := (hcalm.not_live hlive).elim
  taken hh := by cases hh
  clearing _ hphase := (hcalm.not_clearing hphase).elim
  writes hh := by cases hh
  wrote hh := by cases hh
  armed hh := by cases hh

/-- The task noted is taken: it is all there may be. -/
theorem take {h : Holder} {deadline t : Nat} {phase : HolderPhase} (hs : Attended s)
    (hh : s.holder = some h) (hlocked : h.phase = .locked)
    (hsome : s.relockTask = some (deadline, t))
    (hphase : phase = .awaits t ∨ phase = .ready ∧ (s.tasks t).phase ≠ .woken) :
    Attended (({ s with relockTask := none }.abort t).goto h phase) where
  live := by
    refine forall_setTask.mpr ⟨fun hlive => .inr ?_, fun t' ht' hlive => ?_⟩
    · rcases hphase with rfl | ⟨rfl, hwoken⟩
      · exact .inl ⟨_, rfl, rfl⟩
      · -- aborted, it may clear only if it has the write lock
        refine .inr ⟨?_, _, rfl, rfl⟩
        cases ht : (s.tasks t).phase <;> simp [RelockTask.live, ht] at hlive
        · exact absurd ht hwoken
        · rfl
    · rcases hs.live t' hlive with ⟨_, hsome'⟩ | ⟨h', hh', hphase'⟩ | ⟨-, h', hh', hphase'⟩
      · rw [hsome] at hsome'
        cases hsome'
        exact absurd rfl ht'
      all_goals
        rw [hh] at hh'
        cases hh'
        rw [hlocked] at hphase'
        cases hphase'
  taken _ _ := rfl
  clearing := forall_setTask.mpr ⟨hs.clearing t, fun t' _ => hs.clearing t'⟩
  writes hh' hphase' := by
    cases hh'
    rcases hphase with rfl | ⟨rfl, -⟩ <;> cases hphase'
  wrote hh' hphase' := by
    cases hh'
    rcases hphase with rfl | ⟨rfl, -⟩ <;> cases hphase'
  armed hh' hphase' := by
    cases hh'
    rcases hphase with rfl | ⟨rfl, -⟩ <;> cases hphase'

/-- The new task is spawned, and it is the only one. -/
theorem arm {h : Holder} {deadline due : Nat} {task : RelockTask} (hcalm : Calm s)
    (hwrote : s.identities = h.purpose.cache) (hphase : task.phase = .spawned)
    (hdue : due ≤ task.due) :
    Attended (({ s with relockTask := some (deadline, h.call) }.setTask h.call task).goto h
      (.armed due)) where
  live := forall_setTask.mpr ⟨fun _ => .inl ⟨deadline, rfl⟩,
    fun t' _ hlive => (hcalm.not_live hlive).elim⟩
  taken hh hbetween := by cases hh; cases hbetween
  clearing := forall_setTask.mpr ⟨fun hclearing => (by rw [hphase] at hclearing; cases hclearing),
    fun t' _ hclearing => (hcalm.not_clearing hclearing).elim⟩
  writes hh hphase' := by cases hh; cases hphase'
  wrote hh hphase' := by cases hh; cases hphase'
  armed hh hphase' := by
    cases hh
    cases hphase'
    refine ⟨fun _ => hwrote, ?_, fun hh' => by cases hh'; simp⟩
    exact forall_setTask.mpr ⟨fun _ => hdue, fun t' _ hlive => (hcalm.not_live hlive).elim⟩

/-- A step of the call that holds the mutex. -/
theorem proceed {h : Holder} (hs : Attended s) (hh : s.holder = some h)
    (habort : NoLateAbort s .proceed) (hstep : Proceeded s h s') : Attended s' := by
  cases hstep with
  | skip hphase hnone =>
      have hcalm := hs.calm_of hh hnone (by simp [hphase]) (by simp [hphase])
      exact goto_calm hcalm hnone (by simp) (by simp) (by simp)
  | await hphase hsome => exact hs.take hh hphase hsome (.inl rfl)
  | abandon hphase hsome hpurpose =>
      exact hs.take hh hphase hsome (.inr ⟨rfl, habort h hh hphase hpurpose _ hsome⟩)
  | @awaited t hphase hfinished =>
      have hnone := hs.taken hh (by rw [hphase]; rfl)
      have hcalm : Calm s := by
        refine hs.calm_of hh hnone (fun t' hawaits => ?_) (by simp [hphase])
        rw [hphase] at hawaits
        cases hawaits
        rcases TaskPhase.isFinished_iff.mp hfinished with ht | ht <;> simp [RelockTask.live, ht]
      exact goto_calm hcalm hnone (by simp) (by simp) (by simp)
  | acquire hphase hfree =>
      have hnone := hs.taken hh (by rw [hphase]; rfl)
      have hcalm := hs.calm_of hh hnone (by simp [hphase]) fun _ => hfree
      exact goto_calm hcalm hnone (fun _ => rfl) (by simp) (by simp)
  | write hphase =>
      have hnone := hs.taken hh (by rw [hphase]; rfl)
      exact goto_calm (hs.calm hh (.inl hphase)) hnone (by simp) (fun _ => rfl) (by simp)
  | done hphase => exact leave_calm (hs.calm hh (.inr hphase))
  | panic hphase => exact leave_calm (hs.calm hh (.inr hphase))
  | arm hphase =>
      exact arm (hs.calm hh (.inr hphase)) (hs.wrote hh hphase) rfl (Nat.le_refl _)
  | ret hphase =>
      have hlive : ∀ t, AttendedTo s.relockTask none t (s.tasks t) := by
        intro t hlive
        rcases hs.live t hlive with hsome | ⟨h', hh', hphase'⟩ | ⟨-, h', hh', hphase'⟩
        · exact .inl hsome
        all_goals
          rw [hh] at hh'
          cases hh'
          rw [hphase] at hphase'
          cases hphase'
      exact {
        live := hlive
        taken := fun hh' => by cases hh'
        clearing := hs.clearing
        writes := fun hh' => by cases hh'
        wrote := fun hh' => by cases hh'
        armed := fun hh' => by cases hh' }

/-- A task that moves without clearing. -/
theorem setTask {task : RelockTask} (hs : Attended s) (htimed : Timed s)
    (hstep : Polled s t (s.setTask t task)) (hlive : task.live = true → (s.tasks t).live = true)
    (hclearing : task.phase ≠ .clearing) (hwas : (s.tasks t).phase ≠ .clearing) :
    Attended (s.setTask t task) where
  live := forall_setTask.mpr ⟨fun hl => by
    rcases hs.live t (hlive hl) with hsome | hawaits | ⟨hphase, -⟩
    · exact .inl hsome
    · exact .inr (.inl hawaits)
    · exact absurd hphase hwas, fun t' _ => hs.live t'⟩
  taken := hs.taken
  clearing := forall_setTask.mpr ⟨fun hphase => absurd hphase hclearing,
    fun t' _ => hs.clearing t'⟩
  writes := hs.writes
  wrote := hs.wrote
  armed hh hphase := (hs.armed hh hphase).poll htimed hstep

/-- A task that gets the write lock is accounted for as it was, and no other clears. -/
theorem acquire (hs : Attended s) (htimed : Timed s)
    (hphase : (s.tasks t).phase = .woken ∨
      ((s.tasks t).phase = .queued ∧ (s.tasks t).aborted = false)) (hfree : s.Free) :
    Attended ({ s with writer := some (.task t) }.setTask t
      { s.tasks t with phase := .clearing }) where
  live := by
    have hlive : (s.tasks t).live = true := by
      rcases hphase with hphase | ⟨hphase, haborted⟩
      · simp [RelockTask.live, hphase]
      · simp [RelockTask.live, hphase, haborted]
    have hwas : (s.tasks t).phase ≠ .clearing := by
      rcases hphase with hphase | ⟨hphase, -⟩ <;> simp [hphase]
    refine forall_setTask.mpr ⟨?_, fun t' _ => hs.live t'⟩
    intro _
    rcases hs.live t hlive with hsome | hawaits | ⟨hclearing, -⟩
    · exact .inl hsome
    · exact .inr (.inl hawaits)
    · exact absurd hclearing hwas
  taken := hs.taken
  clearing := by
    refine forall_setTask.mpr ⟨fun _ => rfl, ?_⟩
    intro t' _ hclearing
    have hwriter := hs.clearing t' hclearing
    rw [hfree.1] at hwriter
    cases hwriter
  writes hh hwrites := by
    have hwriter := hs.writes hh hwrites
    rw [hfree.1] at hwriter
    cases hwriter
  wrote := hs.wrote
  armed hh harmed := (hs.armed hh harmed).poll htimed (.acquire hphase hfree)

/-- A task that clears is the one that had the write lock. -/
theorem clear (hs : Attended s) (htimed : Timed s) (hphase : (s.tasks t).phase = .clearing) :
    Attended ({ s with identities := [], writer := none }.setTask t
      { s.tasks t with phase := .finished }) where
  live := forall_setTask.mpr ⟨fun hlive => (by cases hlive), fun t' _ => hs.live t'⟩
  taken := hs.taken
  clearing := by
    refine forall_setTask.mpr ⟨fun hclearing => (by cases hclearing), ?_⟩
    intro t' ht' hclearing
    have hwriter := hs.clearing t' hclearing
    rw [hs.clearing t hphase] at hwriter
    cases hwriter
    exact absurd rfl ht'
  writes hh hwrites := by
    have hwriter := hs.writes hh hwrites
    rw [hs.clearing t hphase] at hwriter
    cases hwriter
  wrote hh hwrote := by
    have hlive : (s.tasks t).live = true := by simp [RelockTask.live, hphase]
    exact ((hs.calm hh (.inr hwrote)).not_live hlive).elim
  armed hh harmed := (hs.armed hh harmed).poll htimed (.clear hphase)

theorem poll (hs : Attended s) (htimed : Timed s) (hstep : Polled s t s') : Attended s' := by
  cases hstep with
  | cancel haborted hphase =>
      exact hs.setTask htimed (.cancel haborted hphase) (fun hlive => by cases hlive) (by simp) hphase
  | sleep hphase haborted =>
      exact hs.setTask htimed (.sleep hphase haborted)
        (fun _ => by simp [RelockTask.live, hphase, haborted]) (by simp) (by simp [hphase])
  | wake hphase haborted hdue =>
      exact hs.setTask htimed (.wake hphase haborted hdue)
        (fun _ => by simp [RelockTask.live, hphase, haborted]) (by simp) (by simp [hphase])
  | queue hphase =>
      exact hs.setTask htimed (.queue hphase) (fun _ => by simp [RelockTask.live, hphase]) (by simp)
        (by simp [hphase])
  | acquire hphase hfree => exact hs.acquire htimed hphase hfree
  | clear hphase => exact hs.clear htimed hphase

theorem step (hs : Attended s) (htimed : Timed s) (henabled : (keystore k).enabled s a)
    (habort : NoLateAbort s a) : Attended ((keystore k).next s a) := by
  cases a with
  | call c passphrase =>
      exact ⟨hs.live, hs.taken, hs.clearing, hs.writes, hs.wrote, fun hh harmed =>
        (hs.armed hh harmed).step htimed henabled trivial⟩
  | enter c =>
      obtain ⟨purpose, hpurpose⟩ := Option.isSome_iff_exists.mp henabled.2
      simp only [keystore, hpurpose, Option.elim]
      have hlive : ∀ t, AttendedTo s.relockTask (some ⟨c, purpose, .locked⟩) t (s.tasks t) := by
        intro t hlive
        rcases hs.live t hlive with hsome | ⟨h', hh', -⟩ | ⟨-, h', hh', -⟩
        · exact .inl hsome
        all_goals
          rw [henabled.1] at hh'
          cases hh'
      exact {
        live := hlive
        taken := fun hh hphase => by cases hh; cases hphase
        clearing := hs.clearing
        writes := fun hh hphase => by cases hh; cases hphase
        wrote := fun hh hphase => by cases hh; cases hphase
        armed := fun hh hphase => by cases hh; cases hphase }
  | proceed =>
      obtain ⟨h, hh, hstep⟩ := proceed_step henabled
      exact hs.proceed hh habort hstep
  | poll t => exact hs.poll htimed (poll_cases henabled)
  | read =>
      exact ⟨hs.live, hs.taken, hs.clearing, hs.writes, hs.wrote, fun hh harmed =>
        (hs.armed hh harmed).step htimed henabled trivial⟩
  | unread =>
      exact ⟨hs.live, hs.taken, hs.clearing, hs.writes, hs.wrote, fun hh harmed =>
        (hs.armed hh harmed).step htimed henabled trivial⟩
  | time clock systemTime =>
      exact ⟨hs.live, hs.taken, hs.clearing, hs.writes, hs.wrote, fun hh harmed =>
        (hs.armed hh harmed).step htimed henabled trivial⟩

end Attended

end

/-! ## Runs -/

section
variable {k : KeyStore} {clock systemTime : Nat} {as bs : List KeystoreAction}

theorem timed_run (hrun : (keystore k).Runs (k.new clock systemTime) as) :
    Timed ((keystore k).after (k.new clock systemTime) as) :=
  Machine.invariant (fun _ _ => Timed.step)
    (fun t => by constructor <;> intro h <;> cases h) hrun

theorem attended_run (hrun : ((keystore k).restrict NoLateAbort).Runs (k.new clock systemTime) as) :
    Attended ((keystore k).after (k.new clock systemTime) as) := by
  have hnew : Attended (k.new clock systemTime) := {
    live := fun t hlive => by cases hlive
    taken := fun hh => by cases hh
    clearing := fun t hphase => by cases hphase
    writes := fun hh => by cases hh
    wrote := fun hh => by cases hh
    armed := fun hh => by cases hh }
  refine (Machine.invariant_of (I := fun s => Timed s ∧ Attended s) ?_
    ⟨@timed_run k clock systemTime [] trivial, hnew⟩ hrun).2
  exact fun s a hs ha habort => ⟨hs.1.step ha, hs.2.step hs.1 ha habort⟩

/-- When no `lock` aborts a task past its sleep, what an `unlock` decrypted stays until its timeout
is over, unless a call writes the identities. -/
theorem unlocked_until_due {c due : Nat} {decrypted : List Identity} {timeout : UInt64}
    (hrun : ((keystore k).restrict NoLateAbort).Runs (k.new clock systemTime) as)
    (hreturns : ((keystore k).after (k.new clock systemTime) as).holder =
      some ⟨c, .unlock decrypted timeout, .armed due⟩)
    (hrest : ((keystore k).restrict fun s a => NoLateAbort s a ∧ NoWrite s a).Runs
      ((keystore k).after (k.new clock systemTime) as) bs)
    (hbefore : ((keystore k).after (k.new clock systemTime) (as ++ bs)).clock < due) :
    ((keystore k).after (k.new clock systemTime) (as ++ bs)).identities = decrypted := by
  have htimed := timed_run hrun.unrestrict
  have hkept := (attended_run hrun).armed hreturns rfl
  rw [Machine.after_append] at hbefore ⊢
  refine (Machine.invariant_of (I := fun s => Timed s ∧ Kept decrypted due s) ?_
    ⟨htimed, hkept⟩ hrest).2.identities hbefore
  exact fun s a hs ha hc => ⟨hs.1.step ha, hs.2.step hs.1 ha hc.2⟩

end

/-- An unlock for a minute, up to its return; then half a minute with its task asleep. -/
theorem unlocked_until_due_asleep :
    ((keystore sealedKeystore).after (sealedKeystore.new 100 1000)
      ((unlocking 0 60).take 6 ++ [.proceed, .poll 0, .time 130 1030])).identities = [⟨7⟩] :=
  @unlocked_until_due _ _ _ _ _ 0 160 _ 60 (by decide +kernel) (by decide +kernel)
    (by decide +kernel) (by decide +kernel)

/-- A task wakes up, a `lock` aborts it and returns, and an `unlock` for a minute follows. -/
def lateAbortRun : List KeystoreAction :=
  unlocking 0 1 ++ sleeping 0 101 1001 ++
    [.call 1 none, .enter 1, .proceed, .proceed, .proceed, .proceed] ++ (unlocking 2 60).take 6

/-- The `unlock` returns, and the first task goes on. -/
theorem late_abort_clears :
    (keystore sealedKeystore).Runs (sealedKeystore.new 100 1000) lateAbortRun ∧
    ((keystore sealedKeystore).after (sealedKeystore.new 100 1000) lateAbortRun).holder =
      some ⟨2, .unlock [⟨7⟩] 60, .armed 161⟩ ∧
    ((keystore sealedKeystore).restrict NoWrite).Runs
      ((keystore sealedKeystore).after (sealedKeystore.new 100 1000) lateAbortRun)
      [.proceed, .poll 0, .poll 0] ∧
    ((keystore sealedKeystore).after (sealedKeystore.new 100 1000)
      (lateAbortRun ++ [.proceed, .poll 0, .poll 0])).calls 2 = .returned true ∧
    ((keystore sealedKeystore).after (sealedKeystore.new 100 1000)
      (lateAbortRun ++ [.proceed, .poll 0, .poll 0])).clock < 161 ∧
    ((keystore sealedKeystore).after (sealedKeystore.new 100 1000)
      (lateAbortRun ++ [.proceed, .poll 0, .poll 0])).identities = [] := by
  decide +kernel

end Zallet
