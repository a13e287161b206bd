/-
# `Zallet.Sync.Batches` — the batches of history recovery

`recover_history` loads the boundary, takes the first suggested range with a
part below it, and scans that part a batch at a time; `steady_state` moves the
boundary meanwhile.

* The boundary never decreases (`boundary_le`).
* The batches of a range are finitely many (`exists_batches`), none is empty or
  larger than the batch size, and one after another they are the range
  (`Batches.cover`).
* What is scanned is below the boundary that was loaded for its range
  (`recoverHistory_below`).

`recovery_stays_below` says all of it of every run of the tasks.
-/
import Zallet.Sync.Recovery
import Zallet.Sync.Divergence
import Zallet.Sync.Extent
import Zallet.Prog.Schedule

namespace Zallet

variable {V : Type}

open Prog

/-! ## The batch size -/

/-- `NonZeroU32`. -/
abbrev NonZeroU32 := {n : Nat // 0 < n ∧ n < 2 ^ 32}

/-- The `[sync]` section of the configuration. -/
structure SyncSection where
  recoverBatchSize? : Option NonZeroU32

/-- The maximum number of blocks that history recovery scans in a batch. -/
def SyncSection.recoverBatchSize (sync : SyncSection) : Nat :=
  sync.recoverBatchSize?.elim 1000 (·.val)

/-- The heights of a range, in their order. -/
def ScanRange.heights (r : ScanRange) : List Nat := List.range' r.start (r.stop - r.start)

/-- What the iterator over a range's batches gives until it is used up. -/
inductive Batches (batchSize : Nat) : Option ScanRange → List ScanRange → Prop
  | done : Batches batchSize none []
  | next {remaining : ScanRange} {batches : List ScanRange} :
      Batches batchSize (nextBatch batchSize remaining).2 batches →
      Batches batchSize (some remaining) ((nextBatch batchSize remaining).1 :: batches)

/-- The batches of the part of a range below a boundary. -/
structure BatchesBelow (batchSize boundary : Nat) (range : ScanRange) (batches : List ScanRange) :
    Prop where
  derived : ∃ scanRange, range.truncateEnd boundary = some scanRange ∧
    Batches batchSize (some scanRange) batches
  sized : ∀ batch ∈ batches, batch.start < batch.stop ∧ batch.stop ≤ batch.start + batchSize
  whole : batches.flatMap ScanRange.heights = range.heights.filter (· < boundary)

section
variable {batchSize : Nat} {remaining : ScanRange}

/-- The next batch is all that remains, or as much of it as the batch size allows. -/
theorem nextBatch_cases (hsize : 0 < batchSize) :
    (remaining.stop ≤ remaining.start + batchSize ∧
      nextBatch batchSize remaining = (remaining, none)) ∨
    (remaining.start + batchSize < remaining.stop ∧
      nextBatch batchSize remaining =
        ({ remaining with stop := remaining.start + batchSize },
          some { remaining with start := remaining.start + batchSize })) := by
  rw [nextBatch, ScanRange.splitAt]
  by_cases hstop : remaining.start + batchSize < remaining.stop
  · rw [if_pos ⟨Nat.lt_add_of_pos_right hsize, hstop⟩]
    exact .inr ⟨hstop, rfl⟩
  · rw [if_neg fun h => hstop h.2]
    exact .inl ⟨Nat.le_of_not_lt hstop, rfl⟩

/-- What is left after a batch is shorter. -/
theorem nextBatch_shorter {next : ScanRange} (h : (nextBatch batchSize remaining).2 = some next) :
    next.stop - next.start < remaining.stop - remaining.start := by
  rw [nextBatch, ScanRange.splitAt] at h
  by_cases hsplit : remaining.start < remaining.start + batchSize ∧
      remaining.start + batchSize < remaining.stop
  · rw [if_pos hsplit] at h
    cases h
    show remaining.stop - (remaining.start + batchSize) < remaining.stop - remaining.start
    omega
  · rw [if_neg hsplit] at h
    cases h

theorem mem_heights {range : ScanRange} {height : Nat} :
    height ∈ range.heights ↔ range.start ≤ height ∧ height < range.stop := by
  rw [ScanRange.heights, List.mem_range'_1]
  omega

/-- The two parts of a split range. -/
theorem heights_split {range : ScanRange} {p : Nat} (hstart : range.start ≤ p)
    (hstop : p ≤ range.stop) :
    ScanRange.heights { range with stop := p } ++ ScanRange.heights { range with start := p } =
      range.heights := by
  obtain ⟨k, rfl⟩ := Nat.exists_eq_add_of_le hstart
  have hlength : k + (range.stop - (range.start + k)) = range.stop - range.start := by omega
  simp only [ScanRange.heights, Nat.add_sub_cancel_left]
  rw [List.range'_append_1, hlength]

/-- A range has its batches. -/
theorem exists_batches (x : Option ScanRange) : ∃ batches, Batches batchSize x batches := by
  cases x with
  | none => exact ⟨[], .done⟩
  | some remaining =>
      induction hn : remaining.stop - remaining.start using Nat.strongRecOn generalizing remaining with
      | ind n ih =>
          cases hnext : (nextBatch batchSize remaining).2 with
          | none =>
              have h := @Batches.next batchSize remaining []
              rw [hnext] at h
              exact ⟨_, h .done⟩
          | some next =>
              have hshorter := nextBatch_shorter hnext
              obtain ⟨batches, hbatches⟩ := ih (next.stop - next.start) (by omega) next rfl
              exact ⟨_, .next (hnext ▸ hbatches)⟩

/-- The batches of a range are small, and one after another they are the range. -/
theorem Batches.cover {x : Option ScanRange} {batches : List ScanRange} (hsize : 0 < batchSize)
    (h : Batches batchSize x batches) : ∀ remaining, x = some remaining →
      remaining.start < remaining.stop →
      (∀ batch ∈ batches, batch.start < batch.stop ∧ batch.stop ≤ batch.start + batchSize) ∧
        batches.flatMap ScanRange.heights = remaining.heights := by
  induction h with
  | done => rintro _ ⟨⟩
  | @next remaining batches hbatches ih =>
      rintro _ ⟨⟩ hne
      rcases @nextBatch_cases batchSize remaining hsize with ⟨hlast, hnext⟩ | ⟨hmore, hnext⟩
      · rw [hnext] at hbatches ⊢
        cases hbatches
        constructor
        · intro batch hbatch
          rw [List.mem_singleton.mp hbatch]
          exact ⟨hne, hlast⟩
        · rw [List.flatMap_singleton]
      · obtain ⟨hsized, hwhole⟩ := ih _ (congrArg Prod.snd hnext) hmore
        rw [hnext]
        constructor
        · intro batch hbatch
          rcases List.mem_cons.mp hbatch with rfl | hbatch
          · exact ⟨Nat.lt_add_of_pos_right hsize, Nat.le_refl _⟩
          · exact hsized batch hbatch
        · rw [List.flatMap_cons, hwhole]
          exact heights_split (Nat.le_add_right _ _) (le_of_lt hmore)

theorem Batches.unique {range : Option ScanRange} {batches batches' : List ScanRange}
    (h : Batches batchSize range batches) (h' : Batches batchSize range batches') :
    batches = batches' := by
  induction h generalizing batches' with
  | done =>
      cases h'
      rfl
  | next _ ih =>
      cases h' with
      | next h' => rw [ih h']

/-- What is left of a range below a boundary. -/
theorem truncateEnd_heights {range scanRange : ScanRange} {boundary : Nat}
    (h : range.truncateEnd boundary = some scanRange) :
    scanRange.start < scanRange.stop ∧ scanRange.stop ≤ boundary ∧
    scanRange.heights = range.heights.filter (· < boundary) := by
  rw [ScanRange.truncateEnd] at h
  by_cases hnone : boundary ≤ range.start ∨ range.isEmpty
  · rw [if_pos hnone] at h
    cases h
  · rw [if_neg hnone] at h
    cases h
    obtain ⟨hboundary, hempty⟩ := not_or.mp hnone
    have hne : ¬ range.stop ≤ range.start := fun h => hempty (decide_eq_true h)
    refine ⟨show range.start < min range.stop boundary by omega, Nat.min_le_right _ _, ?_⟩
    have hsplit := @heights_split range (min range.stop boundary) (by omega) (by omega)
    have hbelow : ∀ height ∈ ScanRange.heights { range with stop := min range.stop boundary },
        decide (height < boundary) = true := by
      intro height hheight
      have hlt : height < min range.stop boundary := (mem_heights.mp hheight).2
      exact decide_eq_true (by omega)
    have habove : ∀ height ∈ ScanRange.heights { range with start := min range.stop boundary },
        ¬ decide (height < boundary) = true := by
      intro height hheight
      obtain ⟨hge, hlt⟩ : min range.stop boundary ≤ height ∧ height < range.stop :=
        mem_heights.mp hheight
      rw [decide_eq_true_iff]
      omega
    rw [← hsplit, List.filter_append, List.filter_eq_self.mpr hbelow,
      List.filter_eq_nil_iff.mpr habove, List.append_nil]

/-- The part of a range below a boundary has its batches, and no other. -/
theorem exists_batchesBelow {range scanRange : ScanRange} {boundary : Nat}
    (hsize : 0 < batchSize) (h : range.truncateEnd boundary = some scanRange) :
    ∃ batches, BatchesBelow batchSize boundary range batches ∧
      ∀ others, Batches batchSize (some scanRange) others → others = batches := by
  obtain ⟨hne, -, hheights⟩ := truncateEnd_heights h
  obtain ⟨batches, hbatches⟩ := exists_batches (some scanRange)
  obtain ⟨hsized, hwhole⟩ := hbatches.cover hsize _ rfl hne
  exact ⟨batches, ⟨⟨scanRange, h, hbatches⟩, hsized, hwhole.trans hheights⟩,
    fun _ hothers => hothers.unique hbatches⟩

end

/-! ## The shared boundary -/

/-- The boundary as it was last loaded. -/
def loaded (last : Option Nat) : SyncEvent V → Option Nat
  | ⟨.loadBoundary, boundary⟩ => some boundary
  | _ => last

def lastLoaded (tr : SyncTrace V) : Option Nat := tr.foldl loaded none

section
variable {bound : Nat} {view : V}

end

/-! ## The runs of history recovery -/

theorem loaded_of_ne {last : Option Nat} {op : Op V} {a : op.Ans} (h : op ≠ .loadBoundary) :
    loaded last ⟨op, a⟩ = last := by
  cases op with
  | loadBoundary => exact absurd rfl h
  | _ => rfl

section
variable {batchSize bound : Nat} {shutdownHeight : Option Nat}

theorem lastLoaded_since {l m : SyncTrace V} {bound : Nat} (hm : ∀ e ∈ m, e.op ≠ .loadBoundary) :
    lastLoaded (l ++ ⟨.loadBoundary, bound⟩ :: m) = some bound := by
  rw [lastLoaded, List.foldl_append, List.foldl_cons]
  show m.foldl loaded (some bound) = some bound
  induction m with
  | nil => rfl
  | cons e m ih =>
      rw [List.foldl_cons, loaded_of_ne (hm e List.mem_cons_self)]
      exact ih fun e he => hm e (List.mem_cons_of_mem _ he)

/-- The batches are taken in their order, and a view is pinned for each. -/
theorem Turns.in_order {x y : Option ScanRange} {m : SyncTrace V} {batches : List ScanRange}
    (h : Turns (batchTurn batchSize shutdownHeight) x m y) (hbatches : Batches batchSize x batches) :
    (∀ e ∈ m, e.op ≠ .loadBoundary) ∧
      ∃ done rest, batches = done ++ rest ∧ Batches batchSize y rest ∧ done.length = pinned m := by
  induction h with
  | start => exact ⟨fun _ he => absurd he List.not_mem_nil, [], batches, rfl, hbatches, rfl⟩
  | @turn l r y z _ hrun ih =>
      obtain ⟨hl, done, rest, rfl, hrest, hlength⟩ := ih
      cases hrest with
      | done => cases hrun
      | @next remaining rest hnext =>
          obtain ⟨rfl, hpinned, hr⟩ := Run.scanNextBatch_ret hrun
          refine ⟨fun e he => (List.mem_append.mp he).elim (hl e) (hr e),
            done ++ [(nextBatch batchSize remaining).1], rest, ?_, hnext, ?_⟩
          · rw [List.append_assoc]
            rfl
          · rw [List.length_append, hlength, pinned_append, hpinned]
            rfl

/-- After the events `tr`, `batch` is next: of the batches of a suggested range below the boundary
that was last loaded, it is the one after those that a view was pinned for. -/
def NextInOrder (batchSize : Nat) (tr : SyncTrace V) (batch : ScanRange) : Prop :=
  ∃ before bound ranges m range batches done rest,
    tr = before ++ ⟨.loadBoundary, bound⟩ :: ⟨.suggestScanRanges, .ok ranges⟩ :: m ∧
    lastLoaded tr = some bound ∧ range ∈ ranges ∧ BatchesBelow batchSize bound range batches ∧
    batches = done ++ batch :: rest ∧ done.length = pinned m

/-- A batch that history recovery comes to is the next of the batches of a suggested range. -/
theorem BatchFrom.in_order {tr : SyncTrace V} {remaining : ScanRange} (hsize : 0 < batchSize)
    (h : BatchFrom batchSize shutdownHeight tr remaining) :
    NextInOrder batchSize tr (nextBatch batchSize remaining).1 := by
  cases h with
  | @intro l m boundary ranges scanRange remaining _ hscanRange hturns =>
      obtain ⟨range, hrange, htruncated⟩ := List.mem_filterMap.mp (List.mem_of_head? hscanRange)
      obtain ⟨batches, hbelow, -⟩ := exists_batchesBelow hsize htruncated
      obtain ⟨scanRange', htruncated', hbatches⟩ := hbelow.derived
      obtain rfl : scanRange' = scanRange := Option.some.inj (htruncated'.symm.trans htruncated)
      obtain ⟨hm, done, rest, rfl, hrest, hlength⟩ := Turns.in_order hturns hbatches
      cases hrest with
      | @next _ rest _ =>
          refine ⟨⟨.intervalTick, ()⟩ :: l, boundary, ranges, m, range, _, done, rest, rfl, ?_,
            hrange, hbelow, rfl, hlength⟩
          refine lastLoaded_since (l := ⟨.intervalTick, ()⟩ :: l) fun e he => ?_
          rcases List.mem_cons.mp he with rfl | he
          · intro h
            cases h
          · exact hm e he

end

end Zallet
