/-
# `Zallet.Rpc.Operations` — what becomes of an asynchronous operation

An operation is in one place at a time: spawned and about to be listed, in the
list, or returned by `z_getoperationresult`.  That is one list without
duplicates, of all operations there are (`OperationsState.ids`), and every step
permutes it or adds a new operation.  A call that has gathered some operations
holds their final statuses, of entries that are still in the list
(`Gathers`); removing them and answering is one step, under the list's lock.

The result is written with the state, so an operation that is seen in a final
state has its result, and it stays as it is (`Undisturbed`).
-/
import Zallet.Rpc.AsyncOp
import Mathlib.Data.List.Nodup
import Mathlib.Data.List.Perm.Basic

namespace Zallet

open OperationsState

/-- The moves of an operation's state. -/
inductive OperationState.Moves : OperationState → OperationState → Prop
  | stay (state : OperationState) : Moves state state
  | start : Moves .ready .executing
  | succeed : Moves .executing .success
  | fail : Moves .executing .failed

/-- What an operation's data is while its task is somewhere. -/
def OperationTask.Matches : OperationTask → OperationData → Prop
  | .unspawned, data | .ready, data => data = .new
  | .running, data | .completed _ _, data => data.state = .executing ∧ data.result = none
  | .ended, data => ∃ result, data.result = some result ∧ data.state = outcome result

/-- The statuses a call of `z_getoperationresult` returned. -/
def Answered.returned : Answered → List OperationStatus
  | ⟨_, .result _, .statuses ret⟩ => ret
  | _ => []

/-- What a call of `z_getoperationresult` is gathering from, and what it has gathered. -/
def Writing.gathering? : Writing → Option
    (List OperationId × List AsyncOperation × List OperationStatus × List OperationId)
  | .result _ operationid rest ret remove => some (operationid, rest, ret, remove)
  | .taking _ operationid op rest ret remove => some (operationid, op :: rest, ret, remove)
  | _ => none

namespace OperationsState

/-- All that was returned by `z_getoperationresult`. -/
def returned (s : OperationsState) : List OperationStatus := s.log.flatMap Answered.returned

/-- An operation that is not yet in the list. -/
def unlisted (s : OperationsState) : List OperationId :=
  match s.lock with
  | .alone (.spawned _ op) => [op.operationId]
  | _ => []

/-- Every operation, where it is. -/
def ids (s : OperationsState) : List OperationId :=
  s.asyncOps.map (·.operationId) ++ s.unlisted ++ s.returned.map (·.id)

/-- A returned status is an operation's own, with its result, and was asked for. -/
def Returns (s : OperationsState) (operationid : List OperationId) (status : OperationStatus) :
    Prop :=
  ∃ op, asksFor operationid op.operationId = true ∧ (s.data op.operationId).result.isSome = true ∧
    status = s.statusOf op

/-- What a call of `z_getoperationresult` holds while it runs. -/
def Gathers (s : OperationsState) (operationid : List OperationId) (rest : List AsyncOperation)
    (ret : List OperationStatus) (remove : List OperationId) : Prop :=
  ∃ taken : List AsyncOperation, (taken ++ rest).Sublist s.asyncOps ∧ ret = taken.map s.statusOf ∧
    remove = taken.map (·.operationId) ∧ (∀ op ∈ taken, s.tasks op.operationId = .ended) ∧
    ∀ op ∈ taken ++ rest, asksFor operationid op.operationId = true

end OperationsState

/-- Operations that are over stay as they are. -/
def Undisturbed (s s' : OperationsState) : Prop :=
  ∀ id, s.tasks id = .ended → s'.tasks id = .ended ∧ s'.data id = s.data id

/-- The invariant of the operations. -/
structure Delivers (s : OperationsState) : Prop where
  matched : ∀ id, (s.tasks id).Matches (s.data id)
  nodup : s.ids.Nodup
  known : ∀ id, id ∈ s.ids ↔ s.tasks id ≠ .unspawned
  returns : ∀ e ∈ s.log, ∀ operationid, e.request = .result operationid →
    ∀ status ∈ e.returned, s.Returns operationid status
  gathers : ∀ w, s.lock = .alone w → ∀ operationid rest ret remove,
    w.gathering? = some (operationid, rest, ret, remove) → s.Gathers operationid rest ret remove
  taking : ∀ call operationid op rest ret remove,
    s.lock = .alone (.taking call operationid op rest ret remove) → s.tasks op.operationId = .ended

section
variable {s s' : OperationsState} {id : OperationId}

theorem OperationTask.Matches.result_iff {task : OperationTask} {data : OperationData}
    (h : task.Matches data) : data.result.isSome = true ↔ task = .ended := by
  cases task with
  | unspawned | ready =>
      obtain rfl : data = .new := h
      simp [OperationData.new]
  | running | completed => simp [show data.result = none from h.2]
  | ended =>
      obtain ⟨result, hresult, -⟩ := h
      simp [hresult]

/-- The state says what the result is. -/
theorem OperationTask.Matches.state {task : OperationTask} {data : OperationData}
    (h : task.Matches data) :
    (data.state = .success ↔ ∃ value, data.result = some (.ok value)) ∧
    (data.state = .failed ↔ ∃ e, data.result = some (.error e)) := by
  cases task with
  | unspawned | ready =>
      obtain rfl : data = .new := h
      simp [OperationData.new]
  | running | completed => simp [show data.state = .executing from h.1, show data.result = none from h.2]
  | ended =>
      obtain ⟨result, hresult, hstate⟩ := h
      cases result <;> simp [hresult, hstate, outcome]

theorem OperationTask.Matches.isFinal_iff {task : OperationTask} {data : OperationData}
    (h : task.Matches data) : data.state.isFinal = true ↔ task = .ended := by
  cases task with
  | unspawned | ready =>
      obtain rfl : data = .new := h
      simp [OperationData.new, OperationState.isFinal]
  | running | completed => simp [show data.state = .executing from h.1, OperationState.isFinal]
  | ended =>
      obtain ⟨result, -, hstate⟩ := h
      cases result <;> simp [hstate, outcome, OperationState.isFinal]

/-! ## Frames -/

theorem Undisturbed.statusOf (h : Undisturbed s s') {op : AsyncOperation}
    (hover : s.tasks op.operationId = .ended) : s'.statusOf op = s.statusOf op := by
  rw [OperationsState.statusOf, OperationsState.statusOf, (h _ hover).2]

theorem Undisturbed.returns (h : Undisturbed s s') (hs : Delivers s) {operationid : List OperationId}
    {status : OperationStatus} (hret : s.Returns operationid status) :
    s'.Returns operationid status := by
  obtain ⟨op, hasks, hresult, rfl⟩ := hret
  have hover := (hs.matched _).result_iff.mp hresult
  refine ⟨op, hasks, ?_, (h.statusOf hover).symm⟩
  rw [(h _ hover).2]
  exact hresult

theorem Undisturbed.gathers (h : Undisturbed s s') (hops : s'.asyncOps = s.asyncOps)
    {operationid : List OperationId} {rest : List AsyncOperation} {ret : List OperationStatus}
    {remove : List OperationId} (hg : s.Gathers operationid rest ret remove) :
    s'.Gathers operationid rest ret remove := by
  obtain ⟨taken, hsub, hret, hremove, hover, hasks⟩ := hg
  refine ⟨taken, hops ▸ hsub, ?_, hremove, fun op hop => (h _ (hover op hop)).1, hasks⟩
  rw [hret]
  exact List.map_congr_left fun op hop => (h.statusOf (hover op hop)).symm

theorem Undisturbed.refl : Undisturbed s s := fun _ h => ⟨h, rfl⟩

theorem Undisturbed.set {id : OperationId} {data : OperationData} {task : OperationTask}
    (hid : s.tasks id ≠ .ended) : Undisturbed s ((s.setData id data).setTask id task) := by
  intro id' hover
  have hne : id' ≠ id := fun heq => hid (heq ▸ hover)
  simp only [OperationsState.setTask, OperationsState.setData, Function.update_of_ne hne]
  exact ⟨hover, trivial⟩

theorem Undisturbed.setTask {id : OperationId} {task : OperationTask} (hid : s.tasks id ≠ .ended) :
    Undisturbed s (s.setTask id task) := by
  intro id' hover
  have hne : id' ≠ id := fun heq => hid (heq ▸ hover)
  simp only [OperationsState.setTask, Function.update_of_ne hne]
  exact ⟨hover, trivial⟩

/-- The call passes over an operation that is not in a final state. -/
theorem OperationsState.Gathers.skip {operationid : List OperationId} {op : AsyncOperation}
    {rest : List AsyncOperation} {ret : List OperationStatus} {remove : List OperationId}
    (hg : s.Gathers operationid (op :: rest) ret remove) : s.Gathers operationid rest ret remove := by
  obtain ⟨taken, hsub, hret, hremove, hover, hasks⟩ := hg
  have hless : (taken ++ rest).Sublist (taken ++ op :: rest) :=
    (List.sublist_cons_self op rest).append_left taken
  exact ⟨taken, hless.trans hsub, hret, hremove, hover, fun op' hop' => hasks op' (hless.subset hop')⟩

/-- The call takes the status of an operation that is over. -/
theorem OperationsState.Gathers.take {operationid : List OperationId} {op : AsyncOperation}
    {rest : List AsyncOperation} {ret : List OperationStatus} {remove : List OperationId}
    (hg : s.Gathers operationid (op :: rest) ret remove) (hover : s.tasks op.operationId = .ended) :
    s.Gathers operationid rest (ret ++ [s.statusOf op]) (remove ++ [op.operationId]) := by
  obtain ⟨taken, hsub, rfl, rfl, hall, hasks⟩ := hg
  refine ⟨taken ++ [op], ?_, by simp, by simp, ?_, ?_⟩
  · rwa [List.append_assoc, List.singleton_append]
  · intro op' hop'
    rcases List.mem_append.mp hop' with hop' | hop'
    · exact hall op' hop'
    · rwa [List.mem_singleton.mp hop']
  · rwa [List.append_assoc, List.singleton_append]

/-- Members taken out of a list and put behind it. -/
theorem removed_perm {α : Type} [DecidableEq α] {xs ys : List α} (hnodup : xs.Nodup)
    (hsub : ys.Sublist xs) : (xs.filter (· ∉ ys) ++ ys).Perm xs := by
  have hin : (xs.filter (· ∈ ys)).Perm ys := by
    refine (List.perm_ext_iff_of_nodup (hnodup.filter _) (hnodup.sublist hsub)).mpr fun a => ?_
    simp only [List.mem_filter, decide_eq_true_eq]
    exact ⟨fun h => h.2, fun h => ⟨hsub.subset h, h⟩⟩
  refine (List.perm_append_comm.trans ((hin.symm.append_right _).trans ?_))
  simpa using List.filter_append_perm (· ∈ ys) xs

namespace Delivers

/-- A step of an operation's task. -/
theorem task {data : OperationData} {task : OperationTask} (hs : Delivers s)
    (hover : s.tasks id ≠ .ended) (hspawned : s.tasks id ≠ .unspawned) (hmatch : task.Matches data)
    (htask : task ≠ .unspawned) : Delivers ((s.setData id data).setTask id task) := by
  have hundisturbed : Undisturbed s ((s.setData id data).setTask id task) := .set hover
  exact {
    matched := fun id' => by
      by_cases hid : id' = id
      · subst hid
        simpa only [setTask, setData, Function.update_self] using hmatch
      · simpa only [setTask, setData, Function.update_of_ne hid] using hs.matched id'
    nodup := hs.nodup
    known := fun id' => by
      refine (hs.known id').trans ?_
      by_cases hid : id' = id
      · subst hid
        simp only [setTask, setData, Function.update_self]
        exact iff_of_true hspawned htask
      · simp only [setTask, setData, Function.update_of_ne hid]
    returns := fun e he operationid hreq status hstatus =>
      hundisturbed.returns hs (hs.returns e he operationid hreq status hstatus)
    gathers := fun w hw operationid rest ret remove hg =>
      hundisturbed.gathers rfl (hs.gathers w hw operationid rest ret remove hg)
    taking := fun call operationid op rest ret remove hw =>
      (hundisturbed _ (hs.taking call operationid op rest ret remove hw)).1 }

theorem begin (hs : Delivers s) (hready : s.tasks id = .ready) : Delivers (s.begin id) := by
  have hnew : s.data id = .new := by simpa [OperationTask.Matches, hready] using hs.matched id
  have hstate : (s.data id).state ≠ .cancelled := by simp [hnew, OperationData.new]
  rw [OperationsState.begin, if_neg hstate]
  refine hs.task (by simp [hready]) (by simp [hready]) ⟨rfl, ?_⟩ (by simp)
  rw [hnew]
  rfl

theorem complete (hs : Delivers s) (hrunning : s.tasks id = .running)
    {result : Except OperationError JsonValue} : Delivers (s.setTask id (.completed result s.now)) := by
  have hmatch : (OperationTask.completed result s.now).Matches (s.data id) := by
    have hmatched := hs.matched id
    rwa [hrunning] at hmatched
  have hstep := hs.task (show s.tasks id ≠ .ended by simp [hrunning]) (by simp [hrunning]) hmatch (by simp)
  rwa [show s.setData id (s.data id) = s by simp [setData, Function.update_eq_self]] at hstep

theorem record (hs : Delivers s) (hcompleted : s.MayRecord id = true) : Delivers (s.record id) := by
  unfold MayRecord at hcompleted
  unfold OperationsState.record
  cases htask : s.tasks id <;> simp only [htask] at hcompleted ⊢ <;> try cases hcompleted
  exact hs.task (by simp [htask]) (by simp [htask]) ⟨_, rfl, rfl⟩ (by simp)

/-- The lock changes hands and no operation is spawned or listed. -/
theorem setLock {lock : ListLock} (hs : Delivers s)
    (hids : ({ s with lock := lock } : OperationsState).unlisted = s.unlisted)
    (hgathers : ∀ w, lock = .alone w → ∀ operationid rest ret remove,
      w.gathering? = some (operationid, rest, ret, remove) →
        s.Gathers operationid rest ret remove)
    (htaking : ∀ call operationid op rest ret remove,
      lock = .alone (.taking call operationid op rest ret remove) →
        s.tasks op.operationId = .ended) : Delivers { s with lock := lock } := by
  have hsame : ({ s with lock := lock } : OperationsState).ids = s.ids := by
    rw [ids, ids, hids]
    rfl
  exact ⟨hs.matched, hsame ▸ hs.nodup, fun id => hsame ▸ hs.known id, hs.returns, hgathers, htaking⟩

/-- A call answers, and what it returned was in the list or nowhere else. -/
theorem answered {lock : ListLock} {e : Answered} {asyncOps : List AsyncOperation}
    (hs : Delivers s) (hlock : ∀ w, lock ≠ .alone w)
    (hids : (asyncOps.map (·.operationId) ++ (s.returned ++ e.returned).map (·.id)).Perm s.ids)
    (hreturns : ∀ operationid, e.request = .result operationid →
      ∀ status ∈ e.returned, s.Returns operationid status) :
    Delivers { s with lock := lock, asyncOps := asyncOps, log := s.log ++ [e] } := by
  have hperm : ({ s with
      lock := lock, asyncOps := asyncOps, log := s.log ++ [e] } : OperationsState).ids.Perm s.ids := by
    have hnone : ({ s with
        lock := lock, asyncOps := asyncOps, log := s.log ++ [e] } : OperationsState).unlisted = [] := by
      cases lock with
      | shared readers => rfl
      | alone w => exact absurd rfl (hlock w)
    rw [ids, hnone, List.append_nil]
    refine List.Perm.trans (List.Perm.of_eq ?_) hids
    simp [OperationsState.returned]
  exact {
    matched := hs.matched
    nodup := hperm.nodup_iff.mpr hs.nodup
    known := fun id => hperm.mem_iff.trans (hs.known id)
    returns := fun e' he' operationid hreq status hstatus => by
      rcases List.mem_append.mp he' with he' | he'
      · exact hs.returns e' he' operationid hreq status hstatus
      · rw [List.mem_singleton.mp he'] at hreq hstatus
        exact hreturns operationid hreq status hstatus
    gathers := fun w hw => absurd hw (hlock w)
    taking := fun _ _ _ _ _ _ hw => absurd hw (hlock _) }

/-- An operation is spawned, with an id of its own. -/
theorem spawn (hs : Delivers s) (hspawn : s.MaySpawn id = true) : Delivers (s.spawn id) := by
  unfold MaySpawn at hspawn
  unfold OperationsState.spawn
  split at hspawn
  · rename_i call context hlock
    have hunspawned : s.tasks id = .unspawned := by simpa using hspawn
    have hundisturbed : Undisturbed s { (s.setData id .new).setTask id .ready with
        lock := .alone (.spawned call ⟨id, context, s.now⟩) } := by
      have hset : Undisturbed s ((s.setData id .new).setTask id .ready) :=
        .set (by rw [hunspawned]; nofun)
      exact hset
    have hids : s.ids = s.asyncOps.map (·.operationId) ++ s.returned.map (·.id) := by
      rw [ids, unlisted, hlock, List.append_nil]
    have hfresh : id ∉ s.ids := fun hmem => (hs.known id).mp hmem hunspawned
    have hperm : (s.asyncOps.map (·.operationId) ++ [id] ++ s.returned.map (·.id)).Perm
        (id :: s.ids) := by
      rw [hids, List.append_assoc]
      exact List.perm_middle
    exact {
      matched := fun id' => by
        by_cases hid : id' = id
        · subst hid
          simp [setTask, setData, OperationTask.Matches]
        · simpa only [setTask, setData, Function.update_of_ne hid] using hs.matched id'
      nodup := hperm.nodup_iff.mpr (List.nodup_cons.mpr ⟨hfresh, hs.nodup⟩)
      known := fun id' => by
        refine hperm.mem_iff.trans ?_
        rw [List.mem_cons]
        by_cases hid : id' = id
        · subst hid
          simp [setTask]
        · simp only [setTask, setData, Function.update_of_ne hid, hid, false_or]
          exact hs.known id'
      returns := fun e he operationid hreq status hstatus =>
        hundisturbed.returns hs (hs.returns e he operationid hreq status hstatus)
      gathers := fun w hw _ _ _ _ hg => by cases hw; cases hg
      taking := fun _ _ _ _ _ _ hw => by cases hw }
  · cases hspawn

/-- A call gets the lock. -/
theorem enter {call : Nat} {request : OperationsRequest} (hs : Delivers s)
    (henter : s.MayEnter request = true) : Delivers (s.enter call request) := by
  unfold MayEnter at henter
  cases hlock : s.lock with
  | alone w => cases request <;> simp [hlock] at henter
  | shared readers =>
      have hunlisted : s.unlisted = [] := by rw [unlisted, hlock]
      cases request with
      | startAsync context =>
          refine hs.setLock hunlisted.symm ?_ (fun _ _ _ _ _ _ hw => by cases hw)
          intro w hw _ _ _ _ hg
          cases hw
          cases hg
      | result operationid =>
          refine hs.setLock hunlisted.symm ?_ (fun _ _ _ _ _ _ hw => by cases hw)
          intro w hw _ _ _ _ hg
          cases hw
          cases hg
          refine ⟨[], List.filter_sublist, rfl, rfl, by simp, fun op hop => ?_⟩
          exact (List.mem_filter.mp hop).2
      | status operationid =>
          rw [OperationsState.enter, hlock]
          exact hs.setLock hunlisted.symm (fun _ hw => by cases hw) (fun _ _ _ _ _ _ hw => by cases hw)
      | listIds status =>
          rw [OperationsState.enter, hlock]
          exact hs.setLock hunlisted.symm (fun _ hw => by cases hw) (fun _ _ _ _ _ _ hw => by cases hw)

/-- A call that reads the list goes on. -/
theorem read {readers : List Reading} {place : Nat} {reading : Reading} (hs : Delivers s)
    (hlock : s.lock = .shared readers) : Delivers (s.read readers place reading) := by
  have hunlisted : s.unlisted = [] := by rw [unlisted, hlock]
  unfold OperationsState.read
  split
  · exact hs.setLock hunlisted.symm (fun _ hw => by cases hw) (fun _ _ _ _ _ _ hw => by cases hw)
  · rename_i answered hstep
    have hnone : answered.returned = [] ∧ ∀ operationid, answered.request ≠ .result operationid := by
      unfold readStep at hstep
      split at hstep <;> first | (cases hstep; exact ⟨rfl, by simp⟩) | cases hstep | skip
      split at hstep <;> cases hstep
    refine hs.answered (by simp) ?_ fun operationid hreq => absurd hreq (hnone.2 operationid)
    rw [hnone.1, List.append_nil, ids, hunlisted, List.append_nil]

/-- What was gathered is removed from the list and returned. -/
theorem finish {call : Nat} {operationid : List OperationId} {ret : List OperationStatus}
    {remove : List OperationId} (hs : Delivers s)
    (hlock : s.lock = .alone (.result call operationid [] ret remove)) :
    Delivers (s.write (.result call operationid [] ret remove)) := by
  obtain ⟨taken, hsub, rfl, rfl, hover, hasks⟩ := hs.gathers _ hlock operationid [] ret remove rfl
  rw [List.append_nil] at hsub hasks
  have hids : s.ids = s.asyncOps.map (·.operationId) ++ s.returned.map (·.id) := by
    rw [ids, unlisted, hlock, List.append_nil]
  have hlisted : (s.asyncOps.map (·.operationId)).Nodup := by
    have hnodup := hs.nodup
    rw [hids] at hnodup
    exact (List.nodup_append.mp hnodup).1
  have hremoved := removed_perm hlisted (hsub.map (·.operationId))
  have hids' : (taken.map s.statusOf).map (·.id) = taken.map (·.operationId) := by
    rw [List.map_map]
    rfl
  refine hs.answered (show ∀ w, ListLock.shared [] ≠ .alone w by simp) ?_ ?_
  · have hkept : (s.asyncOps.filter fun op => op.operationId ∉ taken.map (·.operationId)).map
        (·.operationId) =
          (s.asyncOps.map (·.operationId)).filter (· ∉ taken.map (·.operationId)) := by
      rw [List.filter_map]
      rfl
    show (_ ++ (s.returned ++ taken.map s.statusOf).map (·.id)).Perm s.ids
    rw [hkept, hids, List.map_append, hids']
    refine (List.perm_append_comm.append_left _).trans ?_
    rw [← List.append_assoc]
    exact hremoved.append_right _
  · intro operationid' hreq status hstatus
    cases hreq
    obtain ⟨op, hop, rfl⟩ := List.mem_map.mp hstatus
    exact ⟨op, hasks op hop, (hs.matched _).result_iff.mpr (hover op hop), rfl⟩

/-- The call that has the list alone goes on. -/
theorem write {w : Writing} (hs : Delivers s) (hlock : s.lock = .alone w)
    (hwrite : s.MayWrite = true) : Delivers (s.write w) := by
  cases w with
  | startAsync call context => simp [MayWrite, hlock] at hwrite
  | spawned call op =>
      refine hs.answered (show ∀ w, ListLock.shared [] ≠ .alone w by simp) ?_ fun _ hreq => by cases hreq
      refine List.Perm.of_eq ?_
      rw [ids, unlisted, hlock]
      simp [Answered.returned]
  | result call operationid rest ret remove =>
      cases rest with
      | nil => exact hs.finish hlock
      | cons op rest =>
          have hunlisted : s.unlisted = [] := by rw [unlisted, hlock]
          have hg := hs.gathers _ hlock operationid (op :: rest) ret remove rfl
          rw [OperationsState.write]
          split
          · rename_i hfinal
            have hover := (hs.matched _).isFinal_iff.mp hfinal
            refine hs.setLock hunlisted.symm (fun w hw _ _ _ _ hw' => ?_)
              fun _ _ _ _ _ _ hw => by cases hw; exact hover
            cases hw
            cases hw'
            exact hg
          · refine hs.setLock hunlisted.symm (fun w hw _ _ _ _ hw' => ?_)
              fun _ _ _ _ _ _ hw => by cases hw
            cases hw
            cases hw'
            exact hg.skip
  | taking call operationid op rest ret remove =>
      have hunlisted : s.unlisted = [] := by rw [unlisted, hlock]
      have hg := hs.gathers _ hlock operationid (op :: rest) ret remove rfl
      have hover := hs.taking _ _ _ _ _ _ hlock
      refine hs.setLock hunlisted.symm (fun w hw _ _ _ _ hw' => ?_) fun _ _ _ _ _ _ hw => by cases hw
      cases hw
      cases hw'
      exact hg.take hover

theorem step {a : OperationsAction} (hs : Delivers s) (henabled : operations.enabled s a) :
    Delivers (operations.next s a) := by
  cases a with
  | enter call request => exact hs.enter henabled
  | spawn id => exact hs.spawn henabled
  | write =>
      simp only [operations] at henabled ⊢
      cases hlock : s.lock with
      | shared readers => exact hs
      | alone w => exact hs.write hlock henabled
  | read place =>
      simp only [operations]
      cases hlock : s.lock with
      | alone w => exact hs
      | shared readers =>
          simp only
          cases readers[place]? with
          | none => exact hs
          | some reading => exact hs.read hlock
  | begin id => exact hs.begin henabled
  | complete id result => exact hs.complete henabled
  | record id => exact hs.record henabled
  | time now =>
      exact ⟨hs.matched, hs.nodup, hs.known, hs.returns, hs.gathers, hs.taking⟩

theorem new (now : Int) : Delivers (.new now) where
  matched _ := rfl
  nodup := .nil
  known _ := by simp [ids, OperationsState.new, unlisted, returned]
  returns _ he := by cases he
  gathers _ hw := by cases hw
  taking _ _ _ _ _ _ hw := by cases hw

end Delivers

/-! ## What a step changes -/

/-- Only the lock changes when a call gets it. -/
theorem enter_eq (call : Nat) (request : OperationsRequest) :
    ∃ lock, s.enter call request = { s with lock := lock } := by
  cases request with
  | startAsync context => exact ⟨_, rfl⟩
  | result operationid => exact ⟨_, rfl⟩
  | status operationid =>
      unfold enter
      cases s.lock <;> exact ⟨_, rfl⟩
  | listIds status =>
      unfold enter
      cases s.lock <;> exact ⟨_, rfl⟩

theorem write_eq (w : Writing) : ∃ lock asyncOps log,
    s.write w = { s with lock := lock, asyncOps := asyncOps, log := s.log ++ log } := by
  cases w with
  | startAsync call context => exact ⟨_, _, [], by rw [List.append_nil]; rfl⟩
  | spawned call op => exact ⟨_, _, _, rfl⟩
  | result call operationid rest ret remove =>
      cases rest with
      | nil => exact ⟨_, _, _, rfl⟩
      | cons op rest =>
          rw [OperationsState.write]
          split <;> exact ⟨_, _, [], by rw [List.append_nil]⟩
  | taking => exact ⟨_, _, [], by rw [List.append_nil]; rfl⟩

theorem read_eq (readers : List Reading) (place : Nat) (reading : Reading) : ∃ lock log,
    s.read readers place reading = { s with lock := lock, log := s.log ++ log } := by
  unfold OperationsState.read
  split
  · exact ⟨_, [], by rw [List.append_nil]⟩
  · exact ⟨_, _, rfl⟩

/-- The calls leave the operations' data and tasks alone, and add to the log. -/
theorem call_step {a : OperationsAction}
    (ha : (∃ call request, a = .enter call request) ∨ a = .write ∨ (∃ place, a = .read place)) :
    ∃ lock asyncOps log, operations.next s a =
      { s with lock := lock, asyncOps := asyncOps, log := s.log ++ log } := by
  have hnone : ∃ lock asyncOps log,
      s = { s with lock := lock, asyncOps := asyncOps, log := s.log ++ log } :=
    ⟨_, _, [], by rw [List.append_nil]⟩
  rcases ha with ⟨call, request, rfl⟩ | rfl | ⟨place, rfl⟩
  · obtain ⟨lock, hlock⟩ := enter_eq (s := s) call request
    exact ⟨lock, _, [], by rw [List.append_nil]; exact hlock⟩
  · simp only [operations]
    cases s.lock with
    | shared readers => exact hnone
    | alone w => exact write_eq w
  · simp only [operations]
    cases s.lock with
    | alone w => exact hnone
    | shared readers =>
        cases hreading : readers[place]? with
        | none => simpa only [hreading, Option.elim] using hnone
        | some reading =>
            obtain ⟨lock, log, hread⟩ := read_eq (s := s) readers place reading
            simp only [hreading, Option.elim]
            exact ⟨lock, _, log, hread⟩

theorem moves_set {id id' : OperationId} {data : OperationData} (task : OperationTask)
    (hmoves : (s.data id').state.Moves data.state) :
    (s.data id).state.Moves (((s.setData id' data).setTask id' task).data id).state := by
  by_cases hid : id = id'
  · subst hid
    simpa only [setTask, setData, Function.update_self] using hmoves
  · simp only [setTask, setData, Function.update_of_ne hid]
    exact .stay _

/-- The state of every operation makes one of its moves. -/
theorem step_moves {a : OperationsAction} (hs : Delivers s) (henabled : operations.enabled s a)
    (id : OperationId) : (s.data id).state.Moves ((operations.next s a).data id).state := by
  cases a with
  | enter call request =>
      obtain ⟨lock, asyncOps, log, hstep⟩ := call_step (s := s) (.inl ⟨call, request, rfl⟩)
      rw [hstep]
      exact .stay _
  | write =>
      obtain ⟨lock, asyncOps, log, hstep⟩ := call_step (s := s) (.inr (.inl rfl))
      rw [hstep]
      exact .stay _
  | read place =>
      obtain ⟨lock, asyncOps, log, hstep⟩ := call_step (s := s) (.inr (.inr ⟨place, rfl⟩))
      rw [hstep]
      exact .stay _
  | spawn id' =>
      have hspawn : s.MaySpawn id' = true := henabled
      simp only [operations, spawn]
      unfold MaySpawn at hspawn
      split
      · rename_i hlock
        rw [hlock] at hspawn
        have hnew := hs.matched id'
        rw [show s.tasks id' = .unspawned by simpa using hspawn] at hnew
        have hstay : (s.data id').state.Moves OperationData.new.state := by
          rw [show s.data id' = .new from hnew]
          exact .stay _
        exact moves_set .ready hstay
      · exact .stay _
  | begin id' =>
      have hnew := hs.matched id'
      rw [show s.tasks id' = .ready from henabled] at hnew
      have hnew : s.data id' = .new := hnew
      simp only [operations, begin]
      split
      · exact .stay _
      · refine moves_set _ ?_
        rw [hnew]
        exact .start
  | complete id' result => exact .stay _
  | record id' =>
      simp only [operations, record]
      split
      · rename_i result endTime htask
        have hmatch := hs.matched id'
        rw [htask] at hmatch
        refine moves_set _ ?_
        rw [hmatch.1]
        cases result
        · exact .fail
        · exact .succeed
      · exact .stay _
  | time now => exact .stay _

/-- Only an operation that is over leaves the list. -/
theorem write_removes {w : Writing} (hs : Delivers s) (hlock : s.lock = .alone w)
    {op : AsyncOperation} (hop : op ∈ s.asyncOps) (hgone : op ∉ (s.write w).asyncOps) :
    s.tasks op.operationId = .ended := by
  cases w with
  | startAsync call context => exact absurd hop hgone
  | spawned call op' => exact absurd (List.mem_append_left _ hop) hgone
  | taking call operationid op' rest ret remove => exact absurd hop hgone
  | result call operationid rest ret remove =>
      cases rest with
      | nil =>
          obtain ⟨taken, -, -, rfl, hover, -⟩ := hs.gathers _ hlock operationid [] ret remove rfl
          have hin : op.operationId ∈ taken.map (·.operationId) := by
            by_contra hout
            exact hgone (List.mem_filter.mpr ⟨hop, by simpa using hout⟩)
          obtain ⟨op', hop', heq⟩ := List.mem_map.mp hin
          exact heq ▸ hover op' hop'
      | cons op' rest =>
          rw [OperationsState.write] at hgone
          split at hgone <;> exact absurd hop hgone

/-- The list is a matter of the call that has it alone. -/
theorem asyncOps_eq {a : OperationsAction} (ha : a ≠ .write) :
    (operations.next s a).asyncOps = s.asyncOps := by
  cases a with
  | write => exact absurd rfl ha
  | enter call request =>
      obtain ⟨lock, hstep⟩ := enter_eq (s := s) call request
      simp only [operations, hstep]
  | read place =>
      cases hlock : s.lock with
      | alone w => simp only [operations, hlock]
      | shared readers =>
          cases hreading : readers[place]? with
          | none => simp only [operations, hlock, hreading, Option.elim]
          | some reading =>
              obtain ⟨lock, log, hstep⟩ := read_eq (s := s) readers place reading
              simp only [operations, hlock, hreading, Option.elim, hstep]
  | spawn id =>
      simp only [operations, spawn]
      split <;> rfl
  | begin id =>
      simp only [operations, begin]
      split <;> rfl
  | complete id result => rfl
  | record id =>
      simp only [operations, record]
      split <;> rfl
  | time now => rfl

theorem step_removes {a : OperationsAction} (hs : Delivers s) {op : AsyncOperation}
    (hop : op ∈ s.asyncOps) (hgone : op ∉ (operations.next s a).asyncOps) :
    s.tasks op.operationId = .ended := by
  by_cases ha : a = .write
  · subst ha
    cases hlock : s.lock with
    | shared readers =>
        simp only [operations, hlock] at hgone
        exact absurd hop hgone
    | alone w =>
        simp only [operations, hlock] at hgone
        exact write_removes hs hlock hop hgone
  · rw [asyncOps_eq ha] at hgone
    exact absurd hop hgone

/-- A step leaves operations that are over as they are, and adds to what is returned. -/
theorem step_keeps {a : OperationsAction} (henabled : operations.enabled s a) :
    Undisturbed s (operations.next s a) ∧ s.returned ⊆ (operations.next s a).returned := by
  have hcall : ∀ {lock : ListLock} {asyncOps : List AsyncOperation} {log : List Answered},
      operations.next s a = { s with lock := lock, asyncOps := asyncOps, log := s.log ++ log } →
        Undisturbed s (operations.next s a) ∧ s.returned ⊆ (operations.next s a).returned := by
    intro lock asyncOps log hstep
    rw [hstep]
    refine ⟨.refl, ?_⟩
    simp [returned]
  cases a with
  | enter call request =>
      obtain ⟨lock, asyncOps, log, hstep⟩ := call_step (s := s) (.inl ⟨call, request, rfl⟩)
      exact hcall hstep
  | write =>
      obtain ⟨lock, asyncOps, log, hstep⟩ := call_step (s := s) (.inr (.inl rfl))
      exact hcall hstep
  | read place =>
      obtain ⟨lock, asyncOps, log, hstep⟩ := call_step (s := s) (.inr (.inr ⟨place, rfl⟩))
      exact hcall hstep
  | spawn id =>
      have hspawn : s.MaySpawn id = true := henabled
      unfold MaySpawn at hspawn
      simp only [operations, spawn]
      split at hspawn
      · have hid : s.tasks id ≠ .ended := by
          rw [show s.tasks id = .unspawned by simpa using hspawn]
          simp
        exact ⟨.set hid, List.Subset.refl _⟩
      · cases hspawn
  | begin id =>
      have hid : s.tasks id ≠ .ended := by
        rw [show s.tasks id = .ready from henabled]
        simp
      simp only [operations, begin]
      split
      · exact ⟨.setTask hid, List.Subset.refl _⟩
      · exact ⟨.set hid, List.Subset.refl _⟩
  | complete id result =>
      have hid : s.tasks id ≠ .ended := by
        rw [show s.tasks id = .running from henabled]
        simp
      exact ⟨.setTask hid, List.Subset.refl _⟩
  | record id =>
      have hrecord : s.MayRecord id = true := henabled
      unfold MayRecord at hrecord
      simp only [operations, record]
      cases htask : s.tasks id <;> simp only [htask] at hrecord ⊢ <;> try cases hrecord
      exact ⟨.set (by simp [htask]), List.Subset.refl _⟩
  | time now => exact ⟨.refl, List.Subset.refl _⟩

/-! ## Being returned -/

/-- The operation is returned already, or the call is going to return it. -/
def Due (call : Nat) (id : OperationId) (s : OperationsState) : Prop :=
  id ∈ s.returned.map (·.id) ∨ ∃ w operationid rest ret remove, s.lock = .alone w ∧
    w.call = call ∧ w.gathering? = some (operationid, rest, ret, remove) ∧
      (id ∈ rest.map (·.operationId) ∨ id ∈ ret.map (·.id))

theorem Due.write {call : Nat} {w : Writing} {operationid : List OperationId}
    {rest : List AsyncOperation} {ret : List OperationStatus} {remove : List OperationId}
    (hs : Delivers s) (hover : s.tasks id = .ended) (hcall : w.call = call)
    (hg : w.gathering? = some (operationid, rest, ret, remove))
    (hid : id ∈ rest.map (·.operationId) ∨ id ∈ ret.map (·.id)) : Due call id (s.write w) := by
  cases w with
  | startAsync => cases hg
  | spawned => cases hg
  | result call' operationid' rest' ret' remove' =>
      cases hg
      cases rest with
      | nil =>
          refine .inl ?_
          have hret : id ∈ ret.map (·.id) := hid.resolve_left (by simp)
          simp only [OperationsState.write, answer, returned, List.flatMap_append, List.map_append,
            List.mem_append]
          exact .inr (by simpa [Answered.returned] using hret)
      | cons op rest =>
          rw [OperationsState.write]
          split
          · exact .inr ⟨_, _, _, _, _, rfl, hcall, rfl, hid⟩
          · rename_i hfinal
            refine .inr ⟨_, _, _, _, _, rfl, hcall, rfl, ?_⟩
            rcases hid with hid | hid
            · rcases List.mem_cons.mp hid with rfl | hid
              · exact absurd ((hs.matched _).isFinal_iff.mpr hover) hfinal
              · exact .inl hid
            · exact .inr hid
  | taking call' operationid' op rest' ret' remove' =>
      cases hg
      refine .inr ⟨_, _, _, _, _, rfl, hcall, rfl, ?_⟩
      rw [List.map_append, List.mem_append]
      rcases hid with hid | hid
      · rcases List.mem_cons.mp hid with rfl | hid
        · exact .inr (.inr (List.mem_singleton_self _))
        · exact .inl hid
      · exact .inr (.inl hid)

theorem Due.step {call : Nat} {a : OperationsAction} (h : Due call id s) (hs : Delivers s)
    (hover : s.tasks id = .ended) (henabled : operations.enabled s a) :
    Due call id (operations.next s a) := by
  rcases h with hret | ⟨w, operationid, rest, ret, remove, hlock, hcall, hg, hid⟩
  · exact .inl (List.map_subset _ (step_keeps henabled).2 hret)
  · have hsame : ∀ {s' : OperationsState}, s'.lock = s.lock → Due call id s' := fun hlock' =>
      .inr ⟨w, operationid, rest, ret, remove, hlock'.trans hlock, hcall, hg, hid⟩
    cases a with
    | enter call request =>
        have henter : s.MayEnter request = true := henabled
        cases request <;> simp [MayEnter, hlock] at henter
    | read place =>
        have hread : s.MayRead place = true := henabled
        simp [MayRead, hlock] at hread
    | write =>
        simp only [operations, hlock]
        exact .write hs hover hcall hg hid
    | spawn id' =>
        simp only [operations, spawn, hlock]
        split
        · rename_i heq
          cases heq
          cases hg
        · exact hsame rfl
    | begin id' =>
        refine hsame ?_
        simp only [operations, begin]
        split <;> rfl
    | complete id' result => exact hsame rfl
    | record id' =>
        refine hsame ?_
        simp only [operations, record]
        split <;> rfl
    | time now => exact hsame rfl

/-- A call that asks for an operation that is over is going to return it, unless it was. -/
theorem Due.enter {call : Nat} {operationid : List OperationId} (hs : Delivers s)
    (hover : s.tasks id = .ended) (hasks : asksFor operationid id = true)
    (henabled : operations.enabled s (.enter call (.result operationid))) :
    Due call id (operations.next s (.enter call (.result operationid))) := by
  have henter : s.MayEnter (.result operationid) = true := henabled
  have hunlisted : s.unlisted = [] := by
    cases hlock : s.lock with
    | shared readers => rw [unlisted, hlock]
    | alone w => simp [MayEnter, hlock] at henter
  have hmem : id ∈ s.ids := (hs.known id).mpr (by simp [hover])
  rw [ids, hunlisted, List.append_nil, List.mem_append] at hmem
  rcases hmem with hlisted | hret
  · obtain ⟨op, hop, rfl⟩ := List.mem_map.mp hlisted
    refine .inr ⟨_, _, _, _, _, rfl, rfl, rfl, .inl (List.mem_map_of_mem ?_)⟩
    exact List.mem_filter.mpr ⟨hop, hasks⟩
  · exact .inl hret

end

/-! ## Runs -/

section
variable {now : Int} {as : List OperationsAction}

theorem delivers_run (hrun : operations.Runs (.new now) as) :
    Delivers (operations.after (.new now) as) :=
  Machine.invariant (fun _ _ => Delivers.step) (Delivers.new now) hrun

/-- What becomes of operations in any run: how their states move, that the state says what the
result is, that only finished ones leave the list, and that a call that asks for one that is
finished finds it returned, once. -/
theorem operations_delivered (hrun : operations.Runs (.new now) as) :
    let s := operations.after (.new now) as
    (∀ a, operations.enabled s a → ∀ id,
      (s.data id).state.Moves ((operations.next s a).data id).state) ∧
    (∀ id, ((s.data id).state = .success ↔ ∃ value, (s.data id).result = some (.ok value)) ∧
      ((s.data id).state = .failed ↔ ∃ e, (s.data id).result = some (.error e))) ∧
    (∀ a, operations.enabled s a → ∀ op ∈ s.asyncOps, op ∉ (operations.next s a).asyncOps →
      s.stateOf op = .success ∨ s.stateOf op = .failed) ∧
    (∀ id, (s.returned.map (·.id)).count id ≤ 1) ∧
    (∀ e ∈ s.log, ∀ operationid, e.request = .result operationid → ∀ status ∈ e.returned,
      s.Returns operationid status) ∧
    ∀ id, (s.data id).result.isSome = true → ∀ call operationid bs,
      asksFor operationid id = true →
      operations.Runs s (.enter call (.result operationid) :: bs) →
      (∀ w, (operations.after s (.enter call (.result operationid) :: bs)).lock = .alone w →
        w.call ≠ call) →
      ((operations.after s (.enter call (.result operationid) :: bs)).returned.map (·.id)).count id =
        1 := by
  intro s
  have hs : Delivers s := delivers_run hrun
  have hnodup : ∀ {t : OperationsState}, Delivers t → (t.returned.map (·.id)).Nodup := fun ht =>
    (List.nodup_append.mp ht.nodup).2.1
  refine ⟨fun a ha id => step_moves hs ha id, fun id => (hs.matched id).state, ?_, fun id =>
    List.nodup_iff_count_le_one.mp (hnodup hs) id, hs.returns, ?_⟩
  · intro a ha op hop hgone
    have hmatched := hs.matched op.operationId
    rw [step_removes hs hop hgone] at hmatched
    obtain ⟨result, -, hstate⟩ := hmatched
    cases result
    · exact .inr hstate
    · exact .inl hstate
  · intro id hresult call operationid bs hasks hbs hended
    have hover := (hs.matched id).result_iff.mp hresult
    have hinv : ∀ t a, (Delivers t ∧ t.tasks id = .ended ∧ Due call id t) → operations.enabled t a →
        Delivers (operations.next t a) ∧ (operations.next t a).tasks id = .ended ∧
          Due call id (operations.next t a) := by
      rintro t a ⟨ht, htover, htdue⟩ ha
      exact ⟨ht.step ha, ((step_keeps ha).1 id htover).1, htdue.step ht htover ha⟩
    have hfirst := hbs.1
    obtain ⟨ht, -, hdue⟩ := Machine.invariant hinv
      ⟨hs.step hfirst, ((step_keeps hfirst).1 id hover).1, .enter hs hover hasks hfirst⟩ hbs.2
    rcases hdue with hret | ⟨w, _, _, _, _, hlock, hcall, -, -⟩
    · exact List.count_eq_one_of_mem (hnodup ht) hret
    · exact absurd hcall (hended w hlock)

end

/-- An operation is started, and succeeds. -/
def succeedingRun : List OperationsAction :=
  [.enter 0 (.startAsync none), .spawn ⟨1⟩, .write, .begin ⟨1⟩, .complete ⟨1⟩ (.ok ⟨"null"⟩),
    .record ⟨1⟩]

theorem operations_delivered_once :
    ((operations.after (operations.after (.new 0) succeedingRun)
      [.enter 1 (.result []), .write, .write, .write]).returned.map (·.id)).count ⟨1⟩ = 1 :=
  (@operations_delivered 0 succeedingRun (by decide +kernel)).2.2.2.2.2 ⟨1⟩ rfl 1 []
    [.write, .write, .write] rfl (by decide +kernel) (fun _ h => by cases h)

end Zallet
