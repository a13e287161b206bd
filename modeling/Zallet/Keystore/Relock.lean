/-
# `Zallet.Keystore.Relock` — the unlocked keystore and the tasks that relock it

`unlock` and `lock` of `components/keystore.rs`, any number of them at once,
and the tasks that `unlock` spawns, each at its own pace, as one machine.  Two
locks order them: the mutex of `relock_task`, which a call keeps from taking
the old task to its end, and the write lock of `identities`, which a writer
keeps for one assignment.  A call is either waiting for the mutex, or it is the
`holder`, or it is over; so there is no state in which two calls are between.

A task runs when it is polled.  Aborting it takes effect when it next yields:
a task that sleeps or is queued for the write lock never runs again, one that
is past its sleep and finds the write lock free does not yield before it has
cleared the identities.  Readers only keep writers waiting.  A time is a number
of seconds; `clock` is the one that timers go by, `systemTime` the one that
deadlines are reported in, and the two need not agree.
-/
import Mathlib.Algebra.Group.Nat.Defs
import Mathlib.Logic.Function.Basic
import Zallet.Prog.Machine

namespace Zallet

/-- An age identity. -/
structure Identity where
  key : Nat
  deriving DecidableEq, Repr

structure Passphrase where
  text : String
  deriving DecidableEq

/-- A keystore as it is opened: its encrypted identity file, as what a passphrase decrypts it to
if it is the right one, or the identities of a file that is not encrypted. -/
structure KeyStore where
  encryptedIdentities : Option (Passphrase → Option (List Identity))
  identities : List Identity
  cached : encryptedIdentities.isSome → identities = []

def KeyStore.usesEncryptedIdentities (k : KeyStore) : Bool := k.encryptedIdentities.isSome

/-- `decrypt_identity_file` and `into_identities`. -/
def KeyStore.decrypt (k : KeyStore) (passphrase : Passphrase) : Option (List Identity) :=
  k.encryptedIdentities.bind fun file => file passphrase

/-- `SystemTime + Duration`, whose seconds are an `i64`. -/
def systemTimeAdd (time : Nat) (timeout : UInt64) : Option Nat :=
  if time + timeout.toNat < 2 ^ 63 then some (time + timeout.toNat) else none

/-! ## Tasks and calls -/

inductive TaskPhase where
  | unspawned
  | spawned
  | sleeping
  /-- past its sleep, and has not yielded since -/
  | woken
  /-- yielded, waiting for the write lock -/
  | queued
  /-- has the write lock -/
  | clearing
  | finished
  | cancelled
  deriving DecidableEq, Repr

/-- `JoinHandle::is_finished`. -/
def TaskPhase.isFinished : TaskPhase → Bool
  | .finished | .cancelled => true
  | _ => false

theorem TaskPhase.isFinished_iff {phase : TaskPhase} :
    phase.isFinished = true ↔ phase = .finished ∨ phase = .cancelled := by
  cases phase <;> simp [isFinished]

/-- A relock task.  Its sleep is over at `due`. -/
structure RelockTask where
  phase : TaskPhase
  duration : Nat
  due : Nat
  aborted : Bool
  deriving DecidableEq, Repr

def RelockTask.unspawned : RelockTask := ⟨.unspawned, 0, 0, false⟩

/-- What a call that wants the mutex will do with it. -/
inductive Purpose where
  | unlock (decrypted : List Identity) (timeout : UInt64)
  | lock
  deriving DecidableEq

/-- What a call leaves in the cache of identities. -/
def Purpose.cache : Purpose → List Identity
  | .unlock decrypted _ => decrypted
  | .lock => []

def Purpose.timeout? : Purpose → Option UInt64
  | .unlock _ timeout => some timeout
  | .lock => none

inductive CallState where
  | uncalled
  | waits (purpose : Purpose)
  | holds
  | returned (result : Bool)
  | panicked
  deriving DecidableEq

def CallState.purpose? : CallState → Option Purpose
  | .waits purpose => some purpose
  | _ => none

/-- How far the holder of the mutex is. -/
inductive HolderPhase where
  | locked
  | awaits (task : Nat)
  | ready
  /-- has the write lock -/
  | writes
  | wrote
  /-- the new task is spawned and noted; `due` is when its timeout is over -/
  | armed (due : Nat)
  deriving DecidableEq

structure Holder where
  call : Nat
  purpose : Purpose
  phase : HolderPhase
  deriving DecidableEq

inductive Writer where
  | holder
  | task (task : Nat)
  deriving DecidableEq

/-! ## States -/

/-- The task that call `c` spawns is task `c`. -/
structure KeystoreState where
  identities : List Identity
  relockTask : Option (Nat × Nat)
  holder : Option Holder
  writer : Option Writer
  readers : Nat
  calls : Nat → CallState
  tasks : Nat → RelockTask
  clock : Nat
  systemTime : Nat

/-- A keystore just opened. -/
def KeyStore.new (k : KeyStore) (clock systemTime : Nat) : KeystoreState where
  identities := k.identities
  relockTask := none
  holder := none
  writer := none
  readers := 0
  calls _ := .uncalled
  tasks _ := .unspawned
  clock := clock
  systemTime := systemTime

namespace KeystoreState

def isLocked (s : KeystoreState) : Bool := s.identities.isEmpty

def unlockedUntil (s : KeystoreState) : Option Nat :=
  s.relockTask.bind fun (deadline, t) =>
    if !(s.tasks t).phase.isFinished then some deadline else none

/-- The write lock can be had. -/
def Free (s : KeystoreState) : Prop := s.writer = none ∧ s.readers = 0

instance (s : KeystoreState) : Decidable s.Free :=
  inferInstanceAs (Decidable (s.writer = none ∧ s.readers = 0))

/-- No call of `unlock` or `lock` is in progress. -/
def Idle (s : KeystoreState) : Prop :=
  s.holder = none ∧ ∀ c purpose, s.calls c ≠ .waits purpose

def setTask (s : KeystoreState) (t : Nat) (task : RelockTask) : KeystoreState :=
  { s with tasks := Function.update s.tasks t task }

def setCall (s : KeystoreState) (c : Nat) (call : CallState) : KeystoreState :=
  { s with calls := Function.update s.calls c call }

/-- The holder goes on to `phase`. -/
def goto (s : KeystoreState) (h : Holder) (phase : HolderPhase) : KeystoreState :=
  { s with holder := some { h with phase := phase } }

/-- The call is over, and its guard of the mutex is dropped. -/
def leave (s : KeystoreState) (h : Holder) (call : CallState) : KeystoreState :=
  { s with holder := none, calls := Function.update s.calls h.call call }

def abort (s : KeystoreState) (t : Nat) : KeystoreState :=
  s.setTask t { s.tasks t with aborted := true }

/-! ## Steps -/

/-- The part of a call before it wants the mutex. -/
def begin (k : KeyStore) (passphrase : Option (Passphrase × UInt64)) : CallState :=
  match passphrase with
  | some (passphrase, timeout) =>
      match k.decrypt passphrase with
      | some identities => .waits (.unlock identities timeout)
      | none => .returned false
  | none => if k.usesEncryptedIdentities then .waits .lock else .returned true

/-- Take the old task and abort it.  Only `unlock` awaits it. -/
def takeTask (s : KeystoreState) (h : Holder) : KeystoreState :=
  match s.relockTask, h.purpose with
  | none, _ => s.goto h .ready
  | some (_, t), .unlock _ _ => ({ s with relockTask := none }.abort t).goto h (.awaits t)
  | some (_, t), .lock => ({ s with relockTask := none }.abort t).goto h .ready

/-- After the identities are written: `unlock` spawns its task, `lock` is done. -/
def arm (s : KeystoreState) (h : Holder) : KeystoreState :=
  match h.purpose with
  | .lock => s.leave h (.returned true)
  | .unlock _ timeout =>
      match systemTimeAdd s.systemTime timeout with
      | none => s.leave h .panicked
      | some deadline =>
          let due := s.clock + timeout.toNat
          let task := ⟨.spawned, timeout.toNat, due, false⟩
          ({ s with relockTask := some (deadline, h.call) }.setTask h.call task).goto h (.armed due)

def Proceeds (s : KeystoreState) (h : Holder) : Prop :=
  match h.phase with
  | .awaits t => (s.tasks t).phase.isFinished = true
  | .ready => s.Free
  | _ => True

instance decProceeds (s : KeystoreState) : (h : Holder) → Decidable (s.Proceeds h)
  | ⟨_, _, .awaits t⟩ => inferInstanceAs (Decidable ((s.tasks t).phase.isFinished = true))
  | ⟨_, _, .ready⟩ => inferInstanceAs (Decidable s.Free)
  | ⟨_, _, .locked⟩ | ⟨_, _, .writes⟩ | ⟨_, _, .wrote⟩ | ⟨_, _, .armed _⟩ => .isTrue trivial

/-- The next step of the call that holds the mutex. -/
def proceed (s : KeystoreState) (h : Holder) : KeystoreState :=
  match h.phase with
  | .locked => s.takeTask h
  | .awaits _ => s.goto h .ready
  | .ready => { s with writer := some .holder }.goto h .writes
  | .writes => { s with identities := h.purpose.cache, writer := none }.goto h .wrote
  | .wrote => s.arm h
  | .armed _ => s.leave h (.returned true)

def Polls (s : KeystoreState) (task : RelockTask) : Prop :=
  match task.phase with
  | .unspawned | .finished | .cancelled => False
  | .sleeping => task.aborted = true ∨ task.due ≤ s.clock
  | .queued => task.aborted = true ∨ s.Free
  | .spawned | .woken | .clearing => True

instance decPolls (s : KeystoreState) : (task : RelockTask) → Decidable (s.Polls task)
  | ⟨.unspawned, _, _, _⟩ | ⟨.finished, _, _, _⟩ | ⟨.cancelled, _, _, _⟩ => .isFalse id
  | ⟨.sleeping, _, due, aborted⟩ => inferInstanceAs (Decidable (aborted = true ∨ due ≤ s.clock))
  | ⟨.queued, _, _, aborted⟩ => inferInstanceAs (Decidable (aborted = true ∨ s.Free))
  | ⟨.spawned, _, _, _⟩ | ⟨.woken, _, _, _⟩ | ⟨.clearing, _, _, _⟩ => .isTrue trivial

/-- The next step of a relock task. -/
def poll (s : KeystoreState) (t : Nat) : KeystoreState :=
  let task := s.tasks t
  match task.phase with
  | .spawned =>
      if task.aborted then s.setTask t { task with phase := .cancelled }
      else s.setTask t { task with phase := .sleeping, due := s.clock + task.duration }
  | .sleeping => s.setTask t { task with phase := if task.aborted then .cancelled else .woken }
  | .woken =>
      -- a free lock is had at once, whether the task was aborted or not
      if s.Free then
        { s with writer := some (.task t) }.setTask t { task with phase := .clearing }
      else s.setTask t { task with phase := .queued }
  | .queued =>
      if task.aborted then s.setTask t { task with phase := .cancelled }
      else { s with writer := some (.task t) }.setTask t { task with phase := .clearing }
  | .clearing =>
      { s with identities := [], writer := none }.setTask t { task with phase := .finished }
  | .unspawned | .finished | .cancelled => s

end KeystoreState

/-- Who moves, or what the outside does. -/
inductive KeystoreAction where
  /-- a call of `unlock`, with a passphrase and a timeout, or of `lock` -/
  | call (c : Nat) (passphrase : Option (Passphrase × UInt64))
  /-- call `c` gets the mutex -/
  | enter (c : Nat)
  | proceed
  | poll (t : Nat)
  | read
  | unread
  | time (clock systemTime : Nat)

open KeystoreState in
/-- The keystore, its calls and its tasks. -/
def keystore (k : KeyStore) : Machine KeystoreState KeystoreAction where
  enabled s
    | .call c _ => s.calls c = .uncalled
    | .enter c => s.holder = none ∧ (s.calls c).purpose?.isSome = true
    | .proceed => s.holder.elim False s.Proceeds
    | .poll t => s.Polls (s.tasks t)
    | .read => s.writer = none
    | .unread => 0 < s.readers
    | .time clock _ => s.clock ≤ clock
  next s
    | .call c passphrase => s.setCall c (begin k passphrase)
    | .enter c =>
        (s.calls c).purpose?.elim s fun purpose =>
          { s with holder := some ⟨c, purpose, .locked⟩ }.setCall c .holds
    | .proceed => s.holder.elim s s.proceed
    | .poll t => s.poll t
    | .read => { s with readers := s.readers + 1 }
    | .unread => { s with readers := s.readers - 1 }
    | .time clock systemTime => { s with clock := clock, systemTime := systemTime }

instance decElim {α : Type} {p : α → Prop} [DecidablePred p] :
    (o : Option α) → Decidable (o.elim False p)
  | none => .isFalse id
  | some a => inferInstanceAs (Decidable (p a))

instance decKeystore (k : KeyStore) (s : KeystoreState) :
    (a : KeystoreAction) → Decidable ((keystore k).enabled s a)
  | .call c _ => inferInstanceAs (Decidable (s.calls c = .uncalled))
  | .enter c => inferInstanceAs (Decidable (s.holder = none ∧ (s.calls c).purpose?.isSome = true))
  | .proceed => inferInstanceAs (Decidable (s.holder.elim False s.Proceeds))
  | .poll t => inferInstanceAs (Decidable (s.Polls (s.tasks t)))
  | .read => inferInstanceAs (Decidable (s.writer = none))
  | .unread => inferInstanceAs (Decidable (0 < s.readers))
  | .time clock _ => inferInstanceAs (Decidable (s.clock ≤ clock))

/-! ## Runs -/

/-- A keystore whose file holds one identity. -/
def sealedKeystore : KeyStore where
  encryptedIdentities := some fun passphrase =>
    if passphrase = ⟨"sesame"⟩ then some [⟨7⟩] else none
  identities := []
  cached _ := rfl

/-- A call of `unlock`, made and completed while no task is noted. -/
def unlocking (c : Nat) (timeout : UInt64) : List KeystoreAction :=
  [.call c (some (⟨"sesame"⟩, timeout)), .enter c, .proceed, .proceed, .proceed, .proceed, .proceed]

/-- The task `t` goes to sleep and wakes up when `clock` is reached. -/
def sleeping (t clock systemTime : Nat) : List KeystoreAction :=
  [.poll t, .time clock systemTime, .poll t]

/-! ## What a step does -/

/-- The steps of the call that holds the mutex. -/
inductive Proceeded (s : KeystoreState) (h : Holder) : KeystoreState → Prop
  | skip : h.phase = .locked → s.relockTask = none → Proceeded s h (s.goto h .ready)
  | await {deadline t : Nat} {decrypted : List Identity} {timeout : UInt64} :
      h.phase = .locked → s.relockTask = some (deadline, t) →
      h.purpose = .unlock decrypted timeout →
      Proceeded s h (({ s with relockTask := none }.abort t).goto h (.awaits t))
  | abandon {deadline t : Nat} : h.phase = .locked → s.relockTask = some (deadline, t) →
      h.purpose = .lock → Proceeded s h (({ s with relockTask := none }.abort t).goto h .ready)
  | awaited {t : Nat} : h.phase = .awaits t → (s.tasks t).phase.isFinished = true →
      Proceeded s h (s.goto h .ready)
  | acquire : h.phase = .ready → s.Free →
      Proceeded s h ({ s with writer := some .holder }.goto h .writes)
  | write : h.phase = .writes →
      Proceeded s h ({ s with identities := h.purpose.cache, writer := none }.goto h .wrote)
  | done : h.phase = .wrote → h.purpose = .lock → Proceeded s h (s.leave h (.returned true))
  | panic {decrypted : List Identity} {timeout : UInt64} : h.phase = .wrote →
      h.purpose = .unlock decrypted timeout → systemTimeAdd s.systemTime timeout = none →
      Proceeded s h (s.leave h .panicked)
  | arm {deadline : Nat} {decrypted : List Identity} {timeout : UInt64} : h.phase = .wrote →
      h.purpose = .unlock decrypted timeout →
      systemTimeAdd s.systemTime timeout = some deadline →
      Proceeded s h (({ s with relockTask := some (deadline, h.call) }.setTask h.call
        ⟨.spawned, timeout.toNat, s.clock + timeout.toNat, false⟩).goto h
          (.armed (s.clock + timeout.toNat)))
  | ret {due : Nat} : h.phase = .armed due → Proceeded s h (s.leave h (.returned true))

/-- The steps of a relock task. -/
inductive Polled (s : KeystoreState) (t : Nat) : KeystoreState → Prop
  | cancel : (s.tasks t).aborted = true → (s.tasks t).phase ≠ .clearing →
      Polled s t (s.setTask t { s.tasks t with phase := .cancelled })
  | sleep : (s.tasks t).phase = .spawned → (s.tasks t).aborted = false →
      Polled s t (s.setTask t
        { s.tasks t with phase := .sleeping, due := s.clock + (s.tasks t).duration })
  | wake : (s.tasks t).phase = .sleeping → (s.tasks t).aborted = false →
      (s.tasks t).due ≤ s.clock → Polled s t (s.setTask t { s.tasks t with phase := .woken })
  | queue : (s.tasks t).phase = .woken → Polled s t (s.setTask t { s.tasks t with phase := .queued })
  | acquire : (s.tasks t).phase = .woken ∨
        ((s.tasks t).phase = .queued ∧ (s.tasks t).aborted = false) → s.Free →
      Polled s t ({ s with writer := some (.task t) }.setTask t
        { s.tasks t with phase := .clearing })
  | clear : (s.tasks t).phase = .clearing →
      Polled s t ({ s with identities := [], writer := none }.setTask t
        { s.tasks t with phase := .finished })

namespace KeystoreState

variable {s : KeystoreState}

theorem forall_setTask {t : Nat} {task : RelockTask} {P : Nat → RelockTask → Prop} :
    (∀ t', P t' ((s.setTask t task).tasks t')) ↔ P t task ∧ ∀ t', t' ≠ t → P t' (s.tasks t') :=
  Function.forall_update_iff _ _

theorem proceed_cases {h : Holder} (henabled : s.Proceeds h) : Proceeded s h (s.proceed h) := by
  obtain ⟨c, purpose, phase⟩ := h
  cases phase with
  | locked =>
      show Proceeded s _ (s.takeTask _)
      unfold takeTask
      split
      · rename_i hnone
        exact .skip rfl hnone
      · rename_i hsome hpurpose
        exact .await rfl hsome hpurpose
      · rename_i hsome hpurpose
        exact .abandon rfl hsome hpurpose
  | awaits t => exact .awaited rfl henabled
  | ready => exact .acquire rfl henabled
  | writes => exact .write rfl
  | wrote =>
      show Proceeded s _ (s.arm _)
      unfold arm
      split
      · rename_i hpurpose
        exact .done rfl hpurpose
      · rename_i hpurpose
        split
        · rename_i hadd
          exact .panic rfl hpurpose hadd
        · rename_i hadd
          exact .arm rfl hpurpose hadd
  | armed due => exact .ret rfl

theorem poll_cases {t : Nat} (henabled : s.Polls (s.tasks t)) : Polled s t (s.poll t) := by
  unfold poll
  unfold Polls at henabled
  cases hphase : (s.tasks t).phase <;> simp only [hphase] at henabled ⊢
  case spawned =>
    split
    · rename_i haborted
      exact .cancel haborted (by simp [hphase])
    · rename_i haborted
      exact .sleep hphase (by simpa using haborted)
  case sleeping =>
    split
    · rename_i haborted
      exact .cancel haborted (by simp [hphase])
    · rename_i haborted
      exact .wake hphase (by simpa using haborted) (henabled.resolve_left haborted)
  case woken =>
    split
    · rename_i hfree
      exact .acquire (.inl hphase) hfree
    · exact .queue hphase
  case queued =>
    split
    · rename_i haborted
      exact .cancel haborted (by simp [hphase])
    · rename_i haborted
      exact .acquire (.inr ⟨hphase, by simpa using haborted⟩) (henabled.resolve_left haborted)
  case clearing => exact .clear hphase

theorem proceed_step {k : KeyStore} (henabled : (keystore k).enabled s .proceed) :
    ∃ h, s.holder = some h ∧ Proceeded s h ((keystore k).next s .proceed) := by
  simp only [keystore] at henabled ⊢
  cases hh : s.holder with
  | none =>
      rw [hh] at henabled
      exact henabled.elim
  | some h =>
      rw [hh] at henabled
      exact ⟨h, rfl, proceed_cases henabled⟩

end KeystoreState

end Zallet
