/-
# `Zallet.Sync.BusyLoop` — when history recovery goes round without waiting

An iteration of `recover_history`'s loop that found no range waits for the
interval timer.  One that found a range scans its batches, and then goes round
at once; it has moved the wallet forward only if one of the scans put a block.
A scan puts none when its batch starts at or above the shutdown height, when
the view's tip is too low, or when the stream is empty:

    no range below the boundary            →  a tick
    a batch that yields blocks (`YieldsBlocks`)  →  blocks in the wallet
    neither                                →  round again, from the same state

`recoverHistory_advances` says that of every iteration of every run.
-/
import Zallet.Sync.Batches

namespace Zallet

variable {V : Type}

open Prog

/-- The views that were pinned, in their order. -/
def snapshots (tr : SyncTrace V) : List V :=
  tr.flatMap fun e => match e with
    | ⟨.snapshot, .ok view⟩ => [view]
    | _ => []

/-- The iteration waited for the interval timer. -/
def Waits (t : SyncTrace V) : Prop := (⟨.intervalTick, ()⟩ : SyncEvent V) ∈ t

/-- The iteration put a block into the wallet. -/
def StoresBlock (t : SyncTrace V) : Prop := ∃ height, height ∈ t.flatMap heightsPut

/-- Scanned from `view`, the batch yields a block: it starts below the shutdown height and no more
than one block above the tip, and its stream is not empty. -/
def YieldsBlocks (S : V → Source) (shutdownHeight : Option Nat) (view : V) (batch : ScanRange) : Prop :=
  batch.start < scanStop batch shutdownHeight ∧ batch.start ≤ (S view).tip + 1 ∧
  (S view).stream batch.start (scanStop batch shutdownHeight) ≠ []

/-- Of the views that an iteration pinned for the batches of its range, one has blocks for its
batch. -/
def SomeYields (S : V → Source) (shutdownHeight : Option Nat) (views : List V)
    (batches : List ScanRange) : Prop :=
  ∃ p ∈ views.zip batches, YieldsBlocks S shutdownHeight p.1 p.2

/-- What an iteration has to find to move forward: nothing to do, or a range with a batch that
yields blocks. -/
def Advances (S : V → Source) (batchSize : Nat) (shutdownHeight : Option Nat) (t : SyncTrace V) :
    Prop :=
  ∃ boundary ranges rest,
    t = ⟨.loadBoundary, boundary⟩ :: ⟨.suggestScanRanges, .ok ranges⟩ :: rest ∧
    ∀ scanRange, (ranges.filterMap (·.truncateEnd boundary)).head? = some scanRange →
      ∃ batches, Batches batchSize (some scanRange) batches ∧
        SomeYields S shutdownHeight (snapshots rest) batches

theorem snapshots_append (l r : SyncTrace V) : snapshots (l ++ r) = snapshots l ++ snapshots r :=
  List.flatMap_append

theorem stores_append {l r : SyncTrace V} : StoresBlock (l ++ r) ↔ StoresBlock l ∨ StoresBlock r := by
  simp only [StoresBlock, List.flatMap_append, List.mem_append, exists_or]

theorem not_stores_nil : ¬ StoresBlock ([] : SyncTrace V) := by
  rintro ⟨height, h⟩
  cases h

/-! ## One batch -/

section
variable {view : V} {scanRange : ScanRange} {shutdownHeight : Option Nat} {batchSize : Nat}

/-- Scanning does none of recovery's bookkeeping. -/
theorem scanBlocks_apart :
    Safe (World.history fun op => ¬ Bookkeeping op) (scanBlocks view scanRange shutdownHeight) := by
  unfold scanBlocks
  split
  · exact .pure
  · refine .bind (safe_chainCall fun _ => id) fun fromState => ?_
    cases fromState with
    | none => exact .bind (safe_chainCall fun _ => id) fun _ => .pure
    | some fromState =>
        refine .bind (.iterate fun x => .bind (safe_chainCall fun _ => id) fun block => ?_) fun _ => ?_
        · cases block with
          | none => exact .pure
          | some block => exact .bind (.query fun _ => id) fun _ => .pure
        · refine .bind (safe_dbCall fun _ => id) fun _ => ?_
          refine .bind (.bind (safe_dbCall fun _ => id) fun _ => .foldlM fun _ _ =>
            .bind (safe_dbCall fun _ => id) fun _ => .pure) fun _ => ?_
          refine .bind (.bind (.foldlM fun _ _ => .bind (.query fun _ => id) fun _ =>
            .bind (.query fun _ => id) fun _ => .pure) fun _ => .pure) fun _ => ?_
          exact .bind (safe_dbCall fun _ => id) fun _ => .pure

theorem snapshots_apart {l : SyncTrace V} (h : ∀ e ∈ l, ¬ Bookkeeping e.op) : snapshots l = [] := by
  refine List.flatMap_eq_nil_iff.mpr ?_
  rintro ⟨op, a⟩ he
  cases op with
  | snapshot => exact absurd trivial (h _ he)
  | _ => rfl

theorem not_waits_apart {l : SyncTrace V} (h : ∀ e ∈ l, ¬ Bookkeeping e.op) : ¬ Waits l :=
  fun hwaits => h _ hwaits trivial

/-- A scan that returns has put a block exactly when its batch yields one. -/
theorem scanBlocks_stores {S : V → Source} {l : SyncTrace V} {flow : ControlFlow Nat Unit}
    (hrun : Run (scanBlocks view scanRange shutdownHeight) l (.ret flow))
    (hserves : ∀ e ∈ l, Serves S e) : StoresBlock l ↔ YieldsBlocks S shutdownHeight view scanRange := by
  by_cases hstart : scanRange.start < scanStop scanRange shutdownHeight
  · obtain ⟨boundary, hclamp⟩ := exists_clamp hstart
    have hscanned := scanBlocks_scanned hclamp hrun hserves
    by_cases htip : scanRange.start ≤ (S view).tip + 1
    · rw [StoresBlock, (hscanned.within htip).1]
      constructor
      · rintro ⟨height, hheight⟩
        obtain ⟨block, hblock, -⟩ := List.mem_map.mp hheight
        exact ⟨hstart, htip, List.ne_nil_of_mem hblock⟩
      · rintro ⟨-, -, hstream⟩
        obtain ⟨block, hblock⟩ := List.exists_mem_of_ne_nil _ hstream
        exact ⟨_, List.mem_map_of_mem hblock⟩
    · rw [StoresBlock, (hscanned.above (Nat.lt_of_not_le htip)).1]
      constructor
      · rintro ⟨height, hheight⟩
        cases hheight
      · intro hyields
        exact absurd hyields.2.1 htip
  · rw [scanBlocks, clampToBoundary_eq, if_pos (Nat.le_of_not_lt hstart)] at hrun
    cases hrun
    constructor
    · intro hstores
      exact absurd hstores not_stores_nil
    · intro hyields
      exact absurd hyields.1 hstart

/-- What a batch has done when it is scanned: it pinned one view, scanned the batch from it, and
may have looked at the suggested ranges again. -/
theorem scanNextBatch_returns {remaining : ScanRange} {l : SyncTrace V}
    {r : Option ScanRange ⊕ Unit}
    (hrun : Run (scanNextBatch batchSize shutdownHeight remaining) l (.ret r)) :
    ∃ view flow m rest, l = ⟨.snapshot, .ok view⟩ :: (m ++ rest) ∧
      Run (scanBlocks view (nextBatch batchSize remaining).1 shutdownHeight) m (.ret flow) ∧
      (∀ e ∈ rest, ∃ a, e = ⟨.suggestScanRanges, a⟩) ∧
      ∀ next, r = .inl next → next = (nextBatch batchSize remaining).2 := by
  obtain ⟨a, view, l, rfl, ha, hafter⟩ := chainCall_bind_ret hrun
  obtain rfl : a = .ok view := ha
  obtain ⟨flow, m, rest, rfl, hscan, hrest⟩ := hafter.bind_ret
  refine ⟨view, flow, m, rest, rfl, hscan, ?_⟩
  cases flow with
  | brk b =>
      cases hrest
      refine ⟨nofun, ?_⟩
      intro next h
      cases h
  | cont _ =>
      obtain ⟨a, latestRanges, rest, rfl, -, hrest⟩ := dbCall_bind_ret hrest
      by_cases hurgent : latestRanges.head?.any fun r =>
          (nextBatch batchSize remaining).1.priority.rank < r.priority.rank
      · rw [if_pos hurgent] at hrest
        cases hrest
        refine ⟨?_, ?_⟩
        · intro e he
          exact ⟨a, List.mem_singleton.mp he⟩
        · intro next h
          cases h
      · rw [if_neg hurgent] at hrest
        cases hrest
        refine ⟨?_, ?_⟩
        · intro e he
          exact ⟨a, List.mem_singleton.mp he⟩
        · intro next h
          exact (Sum.inl.inj h).symm

end

/-! ## The batches of a range -/

section
variable {S : V → Source} {shutdownHeight : Option Nat} {batchSize : Nat}

theorem someYields_cons {view : V} {views : List V} {batch : ScanRange} {batches : List ScanRange} :
    SomeYields S shutdownHeight (view :: views) (batch :: batches) ↔
      YieldsBlocks S shutdownHeight view batch ∨ SomeYields S shutdownHeight views batches := by
  simp only [SomeYields, List.zip_cons_cons, List.mem_cons, exists_eq_or_imp]

theorem not_someYields_nil {batches : List ScanRange} :
    ¬ SomeYields S shutdownHeight [] batches := by
  rintro ⟨p, hp, -⟩
  cases hp

/-- One batch: the view it pinned, and whether it put a block. -/
theorem scanNextBatch_stores {remaining : ScanRange} {l : SyncTrace V}
    {r : Option ScanRange ⊕ Unit}
    (hrun : Run (scanNextBatch batchSize shutdownHeight remaining) l (.ret r))
    (hserves : ∀ e ∈ l, Serves S e) :
    ∃ view, snapshots l = [view] ∧ ¬ Waits l ∧
      (StoresBlock l ↔ YieldsBlocks S shutdownHeight view (nextBatch batchSize remaining).1) ∧
      ∀ next, r = .inl next → next = (nextBatch batchSize remaining).2 := by
  obtain ⟨view, flow, m, rest, rfl, hscan, hrest, hnext⟩ := scanNextBatch_returns hrun
  have hm : ∀ e ∈ m, ¬ Bookkeeping e.op := scanBlocks_apart.asks hscan
  have hquiet : snapshots rest = [] ∧ ¬ Waits rest ∧ ¬ StoresBlock rest := by
    refine ⟨List.flatMap_eq_nil_iff.mpr ?_, ?_, ?_⟩
    · intro e he
      obtain ⟨a, rfl⟩ := hrest e he
      rfl
    · intro hwaits
      obtain ⟨a, ha⟩ := hrest _ hwaits
      cases ha
    · rintro ⟨height, hheight⟩
      obtain ⟨e, he, hput⟩ := List.mem_flatMap.mp hheight
      obtain ⟨a, rfl⟩ := hrest e he
      cases hput
  refine ⟨view, ?_, ?_, ?_, hnext⟩
  · have hfirst : snapshots (⟨.snapshot, .ok view⟩ :: (m ++ rest)) = view :: snapshots (m ++ rest) :=
      rfl
    rw [hfirst, snapshots_append, snapshots_apart hm, hquiet.1]
    rfl
  · intro hwaits
    rcases List.mem_cons.mp hwaits with h | h
    · cases h
    · rcases List.mem_append.mp h with h | h
      · exact not_waits_apart hm h
      · exact hquiet.2.1 h
  · have hfirst : StoresBlock (⟨.snapshot, .ok view⟩ :: (m ++ rest)) ↔ StoresBlock (m ++ rest) := Iff.rfl
    rw [hfirst, stores_append, or_iff_left hquiet.2.2]
    exact scanBlocks_stores hscan fun e he => hserves e (by simp [he])

/-- The batches of a range, until one of them ends the range early: a block was put exactly when
one of them yields blocks, and the timer was not waited for. -/
theorem scanBatches_stores {x : Option ScanRange} {batches : List ScanRange}
    (h : Batches batchSize x batches) :
    ∀ {m : SyncTrace V}, Run (iterate x (batchTurn batchSize shutdownHeight)) m (.ret ()) →
      (∀ e ∈ m, Serves S e) →
      (StoresBlock m ↔ SomeYields S shutdownHeight (snapshots m) batches) ∧ ¬ Waits m := by
  induction h with
  | done =>
      intro m hrun hserves
      cases hrun with
      | loop hrun =>
          cases hrun
          exact ⟨iff_of_false not_stores_nil not_someYields_nil, nofun⟩
  | @next remaining batches _ ih =>
      intro m hrun hserves
      cases hrun with
      | loop hrun =>
          obtain ⟨r, l, rest, rfl, hbatch, hrest⟩ := hrun.bind_ret
          have hl : ∀ e ∈ l, Serves S e := fun e he => hserves e (List.mem_append_left _ he)
          obtain ⟨view, hview, hwaits, hstores, hnext⟩ := scanNextBatch_stores hbatch hl
          rw [stores_append, snapshots_append, hview, List.singleton_append, someYields_cons, hstores]
          cases r with
          | inr _ =>
              cases hrest
              refine ⟨or_congr_right (iff_of_false not_stores_nil not_someYields_nil), ?_⟩
              rwa [List.append_nil]
          | inl next =>
              obtain rfl := hnext next rfl
              obtain ⟨hrestStores, hrestWaits⟩ := ih hrest fun e he =>
                hserves e (List.mem_append_right _ he)
              refine ⟨or_congr_right hrestStores, ?_⟩
              intro h
              rcases List.mem_append.mp h with h | h
              · exact hwaits h
              · exact hrestWaits h

/-! ## An iteration -/

/-- A finished iteration waited, or scanned the batches of the first range below the boundary. -/
theorem recoverTurn_returns {t : SyncTrace V} {r : Unit ⊕ Unit}
    (hrun : Run (recoverTurn batchSize shutdownHeight) t (.ret r)) :
    r = .inl () ∧ ∃ boundary ranges rest,
      t = ⟨.loadBoundary, boundary⟩ :: ⟨.suggestScanRanges, .ok ranges⟩ :: rest ∧
      match (ranges.filterMap (·.truncateEnd boundary)).head? with
      | none => rest = [⟨.intervalTick, ()⟩]
      | some scanRange => Run (scanBatches batchSize shutdownHeight scanRange) rest (.ret ()) := by
  cases hrun with
  | @call _ _ boundary _ _ hranges =>
      obtain ⟨a, ranges, rest, rfl, ha, hrest⟩ := dbCall_bind_ret hranges
      obtain rfl : a = .ok ranges := ha
      cases hrange : (ranges.filterMap (·.truncateEnd boundary)).head? with
      | none =>
          rw [hrange] at hrest
          cases hrest with
          | call hend =>
              cases hend
              refine ⟨rfl, boundary, ranges, _, rfl, ?_⟩
              rw [hrange]
      | some scanRange =>
          rw [hrange] at hrest
          obtain ⟨_, l, m, rfl, hbatches, hend⟩ := hrest.bind_ret
          cases hend
          refine ⟨rfl, boundary, ranges, _, rfl, ?_⟩
          rw [hrange, List.append_nil]
          exact hbatches

/-- An iteration moves forward exactly when it finds nothing to do or a batch with blocks. -/
theorem recoverTurn_advances {t : SyncTrace V} {r : Unit ⊕ Unit}
    (hrun : Run (recoverTurn batchSize shutdownHeight) t (.ret r))
    (hserves : ∀ e ∈ t, Serves S e) :
    StoresBlock t ∨ Waits t ↔ Advances S batchSize shutdownHeight t := by
  obtain ⟨-, boundary, ranges, rest, rfl, hrest⟩ := recoverTurn_returns hrun
  have hstores : StoresBlock (⟨.loadBoundary, boundary⟩ :: ⟨.suggestScanRanges, .ok ranges⟩ :: rest) ↔
      StoresBlock rest := Iff.rfl
  have hwaits : Waits (⟨.loadBoundary, boundary⟩ :: ⟨.suggestScanRanges, .ok ranges⟩ :: rest) ↔
      Waits rest := by
    simp [Waits]
  rw [hstores, hwaits]
  cases hrange : (ranges.filterMap (·.truncateEnd boundary)).head? with
  | none =>
      rw [hrange] at hrest
      obtain rfl : rest = [⟨.intervalTick, ()⟩] := hrest
      refine iff_of_true (.inr (List.mem_singleton_self _)) ⟨boundary, ranges, _, rfl, ?_⟩
      intro scanRange h
      rw [hrange] at h
      cases h
  | some scanRange =>
      rw [hrange] at hrest
      obtain ⟨batches, hbatches⟩ : ∃ batches, Batches batchSize (some scanRange) batches :=
        exists_batches _
      obtain ⟨hyields, hnowait⟩ := scanBatches_stores hbatches hrest fun e he =>
        hserves e (by simp [he])
      rw [or_iff_left hnowait, hyields]
      constructor
      · intro h
        refine ⟨boundary, ranges, rest, rfl, ?_⟩
        intro scanRange' hrange'
        obtain rfl := Option.some.inj (hrange.symm.trans hrange')
        exact ⟨batches, hbatches, h⟩
      · rintro ⟨_, _, _, heq, h⟩
        cases heq
        obtain ⟨batches', hbatches', h⟩ := h scanRange hrange
        rw [hbatches.unique hbatches']
        exact h

end

/-- A run of history recovery is a tick, iterations one after another and a part of one more.  An
iteration stores a block or waits for the timer exactly when it finds no range below the boundary,
or a batch of its range that yields blocks. -/
theorem recoverHistory_advances (S : V → Source) (sync : SyncSection) (shutdownHeight : Option Nat)
    {tr : SyncTrace V} {q : Sync V Unit}
    (hrun : Run (recoverHistory sync.recoverBatchSize shutdownHeight) (⟨.intervalTick, ()⟩ :: tr) q)
    (hserves : ∀ e ∈ tr, Serves S e) :
    ∃ (iterations : List (SyncTrace V)) (rest : SyncTrace V) (p : Sync V (Unit ⊕ Unit)),
      tr = iterations.flatten ++ rest ∧
      Run (recoverTurn sync.recoverBatchSize shutdownHeight) rest p ∧ (∀ r, p ≠ .ret r) ∧
      ∀ t ∈ iterations, Run (recoverTurn sync.recoverBatchSize shutdownHeight) t (.ret (.inl ())) ∧
        (StoresBlock t ∨ Waits t ↔ Advances S sync.recoverBatchSize shutdownHeight t) := by
  cases hrun with
  | call hrun =>
      have hasks : ∀ (y : Unit) (z : Unit),
          (recoverTurn sync.recoverBatchSize shutdownHeight : Sync V _) ≠ .ret (.inl z) := nofun
      obtain ⟨iterations, rest, _, p, rfl, hturns, hrest, hp⟩ := hrun.iterate_turns hasks
      refine ⟨iterations, rest, p, rfl, hrest, ?_, ?_⟩
      · rintro r rfl
        rw [(recoverTurn_returns hrest).1] at hp
        exact hp () rfl
      · intro t ht
        obtain ⟨_, _, hturn⟩ := hturns t ht
        refine ⟨hturn, recoverTurn_advances hturn ?_⟩
        intro e he
        exact hserves e (List.mem_append_left _ (List.mem_flatten_of_mem ht he))

/-- An iteration whose range starts at the shutdown height. -/
def spinning : SyncTrace Unit :=
  [⟨.loadBoundary, (100 : Nat)⟩, ⟨.suggestScanRanges, .ok [⟨5, 8, .historic⟩]⟩, ⟨.snapshot, .ok ()⟩]

theorem spinning_turn : Run (recoverTurn 1000 (some 5)) spinning (.ret (.inl ())) :=
  .call (.call (.loop (.call (.refl _))))

theorem recoverHistory_advances_spinning :
    ∃ (iterations : List (SyncTrace Unit)) (rest : SyncTrace Unit) (p : Sync Unit (Unit ⊕ Unit)),
      spinning = iterations.flatten ++ rest ∧
      Run (recoverTurn 1000 (some 5)) rest p ∧ (∀ r, p ≠ .ret r) ∧
      ∀ t ∈ iterations, Run (recoverTurn 1000 (some 5)) t (.ret (.inl ())) ∧
        (StoresBlock t ∨ Waits t ↔ Advances (fun _ => behind) 1000 (some 5) t) :=
  recoverHistory_advances (fun _ => behind) ⟨none⟩ (some 5) (.call (.loop (spinning_turn.bind _)))
    (by simp [spinning, Serves])

/-- It is gone through again and again, and puts no block and waits for nothing. -/
theorem recoverHistory_spins :
    ¬ StoresBlock spinning ∧ ¬ Waits spinning ∧
    ∀ n, Run (recoverHistory 1000 (some 5))
      (⟨.intervalTick, ()⟩ :: (List.replicate n spinning).flatten)
      (iterate () fun _ => recoverTurn 1000 (some 5)) := by
  refine ⟨?_, by simp [Waits, spinning], ?_⟩
  · rintro ⟨height, h⟩
    cases h
  · intro n
    refine .call ?_
    induction n with
    | zero => exact .refl _
    | succ n ih =>
        rw [List.replicate_succ, List.flatten_cons]
        exact .loop (spinning_turn.seq ih)

end Zallet
