/-
# `Zallet.Sync.Divergence` — the consensus-divergence height

With `shutdown_height = Some(H)` the tasks must stay below `H`: from `H` on the
backing node follows rules this build cannot interpret.

* Which chain data reaches the wallet?  Every scanned block is below `H`.  The
  data requests never see `H`, so a transaction they fetch is stored at
  whatever height the chain reports.
* Which mempool is streamed?  One whose view's tip is below `H`; the rules a
  mempool was validated under are those of the block after it, so the mempool
  on top of `H - 1` gets through.
-/
import Zallet.Sync.Traversal
import Zallet.Prog.Exec

namespace Zallet

variable {V : Type}

open Prog

/-! ## What is written -/

/-- The heights at which an operation writes chain data to the wallet. -/
def heightsWritten : Op V → List Nat
  | .putBlocks _ blocks => blocks.map (·.height)
  | .decryptAndStoreTransaction _ minedHeight => minedHeight.toList
  | _ => []

/-- The operation writes no chain data of a height from `H` on. -/
def WritesBelow (H : Nat) (op : Op V) : Prop := ∀ height ∈ heightsWritten op, height < H

instance (H : Nat) : DecidablePred (WritesBelow (V := V) H) :=
  fun op => inferInstanceAs (Decidable (∀ height ∈ heightsWritten op, height < H))

theorem writesBelow_of_nil {H : Nat} {op : Op V} (h : heightsWritten op = []) :
    WritesBelow H op := by
  intro height hheight
  rw [h] at hheight
  cases hheight

theorem Quiet.heightsWritten {op : Op V} (h : Quiet op) : heightsWritten op = [] := by
  cases op <;> first | exact h.elim | rfl

theorem writesBelow_stored {H : Nat} {tx : Transaction} {minedHeight : Option Nat}
    (h : ∀ m ∈ minedHeight, m < H) :
    WritesBelow H (.decryptAndStoreTransaction tx minedHeight : Op V) :=
  fun height hheight => h height (Option.mem_toList.mp hheight)

/-- `stream_blocks(range)` streams blocks of that range. -/
def RangeStream : SyncEvent V → Prop
  | ⟨.tryNext _ (.range start stop) _, .ok (some block)⟩ =>
      start ≤ block.claimedHeight ∧ block.claimedHeight < stop
  | _ => True

/-- No transaction that was looked up is mined at `H` or above. -/
def FetchedBelow (H : Nat) : SyncEvent V → Prop
  | ⟨.getTransaction _ _, .ok (some tx)⟩ => ∀ h ∈ tx.minedHeight, h < H
  | _ => True

/-- The world of writes below `H`, in which lookups find what is mined below it. -/
def writingWorld (V : Type) (H : Nat) : World (syncSig V) (SyncTrace V) :=
  .recall (fun e => RangeStream e ∧ FetchedBelow H e) (fun _ => WritesBelow H) fun _ => True

/-- A mempool transaction is stored as unmined. -/
theorem streamMempool_writes {H : Nat} {view : V} :
    Safe (writingWorld V H) (streamMempool view) :=
  streamMempool_safe (fun _ => writesBelow_of_nil rfl) fun _ _ => writesBelow_of_nil rfl

theorem writingWorld_bounded {H : Nat} : Bounded (writingWorld V H) (some H) (· < H) where
  quiet _ _ h := writesBelow_of_nil h.heightsWritten
  truncate _ _ := writesBelow_of_nil rfl
  put h := by
    intro height hheight
    obtain ⟨b, hb, rfl⟩ := List.mem_map.mp hheight
    exact h b hb
  below h := h H rfl
  range hstep hstop := lt_of_lt_of_le hstep.1.1.2 (hstop H rfl)
  mempool _ _ := streamMempool_writes

theorem fetchAndStore_writes {H : Nat} {view : V} {txid : TxId} :
    Safe (writingWorld V H) (fetchAndStore view txid) := by
  refine .bind_of (fun tx => ∀ t ∈ tx, ∀ h ∈ t.minedHeight, h < H) (fun s => ?_) fun tx htx => ?_
  · simp only [wp_chainCall]
    refine ⟨writesBelow_of_nil rfl, fun a s' hstep => ?_⟩
    rcases a with e | _ | tx
    · trivial
    · intro t ht
      cases ht
    · intro t ht
      obtain rfl := Option.mem_some.mp ht
      exact hstep.1.2
  · cases tx with
    | none => exact .pure
    | some tx => exact .bind (safe_dbCall fun _ => writesBelow_stored (htx tx rfl)) fun _ => .pure

theorem tasks_safe {config : SyncConfig} {H : Nat} (hH : config.shutdownHeight = some H)
    (startingTip : ChainBlock) (task : Task) :
    Safe (writingWorld V H) (tasks config startingTip task) := by
  cases task with
  | steadyState =>
      rw [tasks, hH]
      exact steadyState_safe writingWorld_bounded fun _ => trivial
  | recoverHistory =>
      rw [tasks, hH]
      exact recoverHistory_safe writingWorld_bounded
  | dataRequests => exact dataRequests_safe writingWorld_bounded.quiet fun _ _ => fetchAndStore_writes

/-- Whatever the tasks do among each other, they write chain data below `H` only, as long as
the transactions they fetch are mined below it. -/
theorem writes_below_divergence {config : SyncConfig} {H : Nat}
    (hH : config.shutdownHeight = some H) {tr : SyncTrace V} (hrun : SyncRun config tr)
    (hrange : ∀ e ∈ tr, RangeStream e) (hfetched : ∀ e ∈ tr, FetchedBelow H e) :
    ∀ e ∈ tr, WritesBelow H e.op := by
  have hstart : Safe (writingWorld V H) (initializeSync config.shutdownHeight) := by
    rw [hH]
    exact initializeSync_safe writingWorld_bounded
  intro e he
  cases hrun with
  | starting hrun =>
      obtain ⟨l, r, rfl⟩ := List.append_of_mem he
      exact (hstart []).allowed hrun fun e' he' =>
        have hmem := List.mem_append_left _ he'
        ⟨hrange e' hmem, hfetched e' hmem⟩
  | @running tr tr' startingTip _ _ hrun htasks =>
      rcases List.mem_append.mp he with he | he
      · obtain ⟨l, r, rfl⟩ := List.append_of_mem he
        exact (hstart []).allowed hrun fun e' he' =>
          have hmem := List.mem_append_left _ (List.mem_append_left _ he')
          ⟨hrange e' hmem, hfetched e' hmem⟩
      · obtain ⟨⟨task, e⟩, hmem, rfl⟩ := List.mem_map.mp he
        exact htasks.allowed (tasks_safe hH startingTip task []) (fun e' he' =>
          have hmem' := List.mem_append_right _ (List.mem_map_of_mem he')
          ⟨hrange e' hmem', hfetched e' hmem'⟩) hmem

/-- A chain at height 2 when the wallet starts, and at `minedAt` from then on; the wallet asks
for one transaction, mined there. -/
def enhancing (minedAt : Nat) : Answer (syncSig Nat) Nat := fun height op =>
  match op with
  | .snapshot => (.ok height, minedAt)
  | .tip view => (.ok ⟨view, ⟨view⟩⟩, height)
  | .getBlock _ h => (.ok (some ⟨h, ⟨⟨h⟩, 0⟩⟩), height)
  | .transactionDataRequests => (.ok [.enhancement ⟨7⟩], height)
  | .getTransaction _ txid => (.ok (some ⟨⟨txid⟩, some ⟨minedAt⟩, some minedAt, none⟩), height)
  | op => (op.idle 0, height)

/-- `initialize`, then one turn of the data requests, on that chain. -/
def enhancingRun (minedAt : Nat) : SyncTrace Nat :=
  (exec (enhancing minedAt) 30 2 (initializeSync (some 3))).1 ++
    ((exec (enhancing minedAt) 10 minedAt (dataRequests true)).1.map
      fun e => (Task.dataRequests, e)).map Prod.snd

theorem enhancingRun_run {minedAt : Nat}
    (h : (exec (enhancing minedAt) 30 2 (initializeSync (some 3))).2.2.result? =
      some (⟨2, ⟨2⟩⟩, 0)) : SyncRun ⟨some 3, 1000, true⟩ (enhancingRun minedAt) := by
  have hrequests : Run (tasks ⟨some 3, 1000, true⟩ ⟨2, ⟨2⟩⟩ .dataRequests) _ _ :=
    exec_run (enhancing minedAt) 10 minedAt (dataRequests true)
  have htasks := Interleave.step Task.dataRequests hrequests (.refl _)
  rw [List.append_nil] at htasks
  have hstart := exec_ret h
  exact .running hstart htasks

theorem enhancing_forall {A : SyncEvent Nat → Prop} {minedAt : Nat}
    (h : ∀ t op, A ⟨op, (enhancing minedAt t op).1⟩) : ∀ e ∈ enhancingRun minedAt, A e := by
  intro e he
  rw [enhancingRun, List.map_map, List.mem_append] at he
  rcases he with he | he
  · exact exec_forall h _ _ _ e he
  · rw [show (Prod.snd ∘ fun e => (Task.dataRequests, e)) = id from rfl, List.map_id] at he
    exact exec_forall h _ _ _ e he

theorem enhancingRun_range (minedAt : Nat) : ∀ e ∈ enhancingRun minedAt, RangeStream e :=
  enhancing_forall fun _ op => by
    cases op with
    | tryNext view stream pos => cases stream <;> trivial
    | _ => trivial

theorem enhancingRun_fetched {minedAt H : Nat} (h : minedAt < H) :
    ∀ e ∈ enhancingRun minedAt, FetchedBelow H e :=
  enhancing_forall fun _ op => by
    cases op with
    | getTransaction view txid =>
        intro h' hh
        obtain rfl := Option.mem_some.mp hh
        exact h
    | _ => trivial

theorem writes_below_divergence_fetching :
    0 < (enhancingRun 2).length ∧ ∀ e ∈ enhancingRun 2, WritesBelow 3 e.op :=
  ⟨by decide +kernel, writes_below_divergence rfl (enhancingRun_run (by decide +kernel))
    (enhancingRun_range 2) (enhancingRun_fetched (by decide))⟩

/-- The data requests store a transaction mined at the divergence height itself. -/
theorem writes_above_divergence :
    ¬ ∀ (config : SyncConfig) (H : Nat) (tr : SyncTrace Nat), config.shutdownHeight = some H →
      SyncRun config tr → (∀ e ∈ tr, RangeStream e) → ∀ e ∈ tr, WritesBelow H e.op := by
  intro h
  refine absurd (h _ 3 _ rfl (enhancingRun_run ?_) (enhancingRun_range 3)) ?_ <;> decide +kernel

/-! ## Which mempool is streamed -/

/-- Every transaction stored came right out of the mempool of a view, and the block that
mempool builds, one above the view's tip, is below `H`. -/
def MempoolBelow (tipOf : V → ChainBlock) (H : Nat) (tr : SyncTrace V) : Prop :=
  ∀ l tx minedHeight stored r,
    tr = l ++ ⟨.decryptAndStoreTransaction tx minedHeight, stored⟩ :: r →
    ∃ l' view, l = l' ++ [⟨.mempoolNext view, some tx⟩] ∧ (tipOf view).height + 1 < H

/-- A view has one tip. -/
def TipOf (tipOf : V → ChainBlock) : SyncEvent V → Prop
  | ⟨.tip view, .ok tip⟩ => tip = tipOf view
  | _ => True

/-- No view with the last block below `H` at its tip has a transaction in its mempool. -/
def NoMempoolBelow (tipOf : V → ChainBlock) (H : Nat) : SyncEvent V → Prop
  | ⟨.mempoolNext view, some _⟩ => (tipOf view).height + 1 ≠ H
  | _ => True

/-- In which a transaction is stored only right after the mempool of a low view gave it. -/
def streamingWorld (tipOf : V → ChainBlock) (H : Nat) : World (syncSig V) (SyncTrace V) :=
  .recall (fun e => TipOf tipOf e ∧ NoMempoolBelow tipOf H e)
    (fun tr op => match op with
      | .decryptAndStoreTransaction tx _ =>
          ∃ l view, tr = l ++ [⟨.mempoolNext view, some tx⟩] ∧ (tipOf view).height + 1 < H
      | _ => True) fun _ => True

theorem streamMempool_below {tipOf : V → ChainBlock} {H : Nat} {view : V}
    (hview : (tipOf view).height < H) : Safe (streamingWorld tipOf H) (streamMempool view) := by
  refine .iterate fun _ tr => ?_
  rw [wp_bind]
  refine ⟨trivial, fun a tr' hstep => ?_⟩
  cases a with
  | none => trivial
  | some tx =>
      obtain ⟨⟨-, hedge⟩, rfl⟩ := hstep
      have hne : (tipOf view).height + 1 ≠ H := hedge
      refine ⟨⟨tr, view, rfl, by omega⟩, fun a _ _ => ?_⟩
      cases a <;> trivial

theorem streamingWorld_bounded {tipOf : V → ChainBlock} {H : Nat} :
    Bounded (streamingWorld tipOf H) (some H) (fun _ => True) where
  quiet _ op h := by cases op <;> first | exact trivial | exact h.elim
  truncate _ _ := trivial
  put _ := trivial
  below _ := trivial
  range _ _ := trivial
  mempool {s view tip s'} hstep htip := by
    have hview : tip = tipOf view := hstep.1.1
    exact streamMempool_below (hview ▸ htip H rfl)

/-- `steady_state` ingests mempool transactions below `H` only, except from a view whose tip
is the last block below `H`. -/
theorem mempool_below_divergence {tipOf : V → ChainBlock} {H : Nat} {prevTip : ChainBlock}
    {tr : SyncTrace V} {q : Sync V Unit} (hrun : Run (steadyState (some H) prevTip) tr q)
    (htip : ∀ e ∈ tr, TipOf tipOf e) (hedge : ∀ e ∈ tr, NoMempoolBelow tipOf H e) :
    MempoolBelow tipOf H tr := by
  have hsafe : Safe (streamingWorld tipOf H) (steadyState (some H) prevTip) :=
    steadyState_safe streamingWorld_bounded fun _ => trivial
  rintro l tx minedHeight stored r rfl
  exact (hsafe []).allowed hrun fun e he =>
    have hmem := List.mem_append_left _ he
    ⟨htip e hmem, hedge e hmem⟩

/-- A chain that stays at `height`; the state is what its mempool still has to give. -/
def resting (height : Nat) : Answer (syncSig Nat) (List Transaction) := fun pool op =>
  match op with
  | .snapshot => (.ok height, pool)
  | .tip view => (.ok ⟨view, ⟨view⟩⟩, pool)
  | .getMempoolStream _ => (.ok (some ()), pool)
  | .mempoolNext _ => (pool.head?, pool.tail)
  | op => (op.idle height, pool)

/-- `steady_state` at the tip of that chain, up to the first transaction stored. -/
def restingRun (height : Nat) : SyncTrace Nat :=
  (exec (resting height) 8 [⟨⟨7⟩⟩] (steadyState (some 3) ⟨height, ⟨height⟩⟩)).1

theorem restingRun_eq {height : Nat} (h : height = 1 ∨ height = 2) :
    restingRun height = [⟨.notifyOne, ()⟩, ⟨.snapshot, .ok height⟩,
      ⟨.tip height, .ok ⟨height, ⟨height⟩⟩⟩, ⟨.getMempoolStream height, .ok (some ())⟩,
      ⟨.mempoolNext height, some ⟨⟨7⟩⟩⟩, ⟨.decryptAndStoreTransaction ⟨⟨7⟩⟩ none, .ok ()⟩] := by
  rcases h with rfl | rfl <;> decide +kernel

theorem restingRun_tip (height : Nat) :
    ∀ e ∈ restingRun height, TipOf (fun view => ⟨view, ⟨view⟩⟩) e :=
  exec_forall (fun _ op => by cases op <;> trivial) _ _ _

theorem mempool_below_divergence_resting :
    MempoolBelow (fun view => ⟨view, ⟨view⟩⟩) 3 (restingRun 1) :=
  mempool_below_divergence (exec_run (resting 1) 8 [⟨⟨7⟩⟩] _) (restingRun_tip 1) (by
    show ∀ e ∈ restingRun 1, _
    rw [restingRun_eq (.inl rfl)]
    simp [NoMempoolBelow])

/-- With the tip at 2, the mempool of the block at 3 is stored. -/
theorem mempool_at_divergence :
    ¬ ∀ (tipOf : Nat → ChainBlock) (H : Nat) (prevTip : ChainBlock) (tr : SyncTrace Nat)
      (q : Sync Nat Unit), Run (steadyState (some H) prevTip) tr q →
      (∀ e ∈ tr, TipOf tipOf e) → MempoolBelow tipOf H tr := by
  intro h
  obtain ⟨l, view, hl, hbelow⟩ := h _ _ _ _ _ (exec_run (resting 2) 8 [⟨⟨7⟩⟩] _)
    (restingRun_tip 2) [⟨.notifyOne, ()⟩, ⟨.snapshot, .ok 2⟩, ⟨.tip 2, .ok ⟨2, ⟨2⟩⟩⟩,
      ⟨.getMempoolStream 2, .ok (some ())⟩, ⟨.mempoolNext 2, some ⟨⟨7⟩⟩⟩]
    ⟨⟨7⟩⟩ none (.ok ()) [] (restingRun_eq (.inr rfl))
  have hview := congrArg List.getLast? hl
  simp only [List.getLast?_concat, List.getLast?_cons_cons, List.getLast?_singleton,
    Option.some.injEq, Event.mk.injEq, Op.mempoolNext.injEq] at hview
  rw [← hview.1] at hbelow
  exact absurd hbelow (by decide)

end Zallet
