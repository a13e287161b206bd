/-
# `Zallet.Sync.Recovery` — what history recovery reads and puts

`recoverHistory` does its work a batch at a time: it pins a view, reads the
batch's blocks from it, and puts what it read.  `BatchFrom` says where in a run
a batch begins; every operation on the chain is inside one (`recoverHistory_asks`),
and so is every error of the chain but one of pinning the view
(`recoverHistory_fails`).  What happens inside is `scanBlocks_history`.
-/
import Zallet.Sync.ForkPoint

namespace Zallet

variable {V : Type}

open Prog

/-! ## One range of blocks -/

/-- The scanned block was read from a view, and scanning moved it nowhere. -/
def ReadBlock (tr : SyncTrace V) (b : ScannedBlock) : Prop :=
  ∃ view stream pos block, (⟨.tryNext view stream pos, .ok (some block)⟩ : SyncEvent V) ∈ tr ∧
    b.height = block.claimedHeight ∧ b.hash = block.header.hash

/-- The reads of a view by which the blocks `start..stop` are scanned. -/
def ScanReads (view : V) (start stop : Nat) : Op V → Prop
  | .treeStateAsOf v height => v = view ∧ height = start - 1
  | .tryNext v stream _ => v = view ∧ stream = .range start stop
  | .tip v => v = view
  | _ => False

/-- What scanning `start..stop` asks: blocks of that range, and to put only blocks that were
read. -/
def ScanAsks (view : V) (start stop : Nat) (tr : SyncTrace V) : Op V → Prop
  | .tryNext v stream _ => v = view ∧ stream = .range start stop
  | .putBlocks _ blocks => ∀ b ∈ blocks, ReadBlock tr b
  | .snapshot | .loadBoundary => False
  | _ => True

/-- An error of the chain is one that a read of the scan was answered with. -/
def ScanFailed (view : V) (start stop : Nat) (tr : SyncTrace V) (e : SyncError) : Prop :=
  ∀ ce, e = .chain ce → ∃ ev ∈ tr, chainErrorOf ev = some ce ∧ ScanReads view start stop ev.op

theorem ReadBlock.mono {tr tr' : SyncTrace V} {b : ScannedBlock} (h : ReadBlock tr b)
    (hpre : tr <+: tr') : ReadBlock tr' b := by
  obtain ⟨view, stream, pos, block, hmem, hb⟩ := h
  exact ⟨view, stream, pos, block, hpre.subset hmem, hb⟩

/-- The world in which the scan of `start..stop` is described. -/
abbrev scanning (view : V) (start stop : Nat) : World (syncSig V) (SyncTrace V) :=
  .recall (fun _ => True) (ScanAsks view start stop) fun _ => False

section
variable {view : V} {start stop : Nat} {tr : SyncTrace V}

/-- A block as the scanner will return it, whatever it finds in it. -/
def WasRead (tr : SyncTrace V) (block : Block) : Prop :=
  ∃ view stream pos, (⟨.tryNext view stream pos, .ok (some block)⟩ : SyncEvent V) ∈ tr

theorem WasRead.mono {tr tr' : SyncTrace V} {block : Block} (h : WasRead tr block)
    (hpre : tr <+: tr') : WasRead tr' block := by
  obtain ⟨view, stream, pos, hmem⟩ := h
  exact ⟨view, stream, pos, hpre.subset hmem⟩

theorem WasRead.readBlock {block : Block} {b : ScannedBlock} (h : WasRead tr block)
    (hheight : b.height = block.claimedHeight) (hhash : b.hash = block.header.hash) :
    ReadBlock tr b := by
  obtain ⟨view, stream, pos, hmem⟩ := h
  exact ⟨view, stream, pos, block, hmem, hheight, hhash⟩

/-- A call of the scan that is not a read of the view fails with no error of the chain. -/
theorem scanning_query {α : Type} {op : Op V} {f : (syncSig V).Ans op → Except SyncError α}
    {Q : SyncTrace V → α → Prop} (hasks : ScanAsks view start stop tr op)
    (herror : ∀ a e, f a = .error e → ∀ ce, e ≠ .chain ce)
    (hok : ∀ tr' a, tr <+: tr' → Q tr' a) :
    wp (scanning view start stop) (query op f) Q (ScanFailed view start stop) tr := by
  rw [wp_query]
  refine ⟨hasks, fun a tr' hstep => ?_⟩
  obtain ⟨-, hpre, -⟩ := World.recall_step hstep
  cases hf : f a with
  | ok b => exact hok tr' b hpre
  | error e => exact fun ce hce => absurd hce (herror a e hf ce)

theorem scanning_dbCall {α : Type} {op : Op V}
    {f : (syncSig V).Ans op → Except SqliteClientError α} {Q : SyncTrace V → α → Prop}
    (hasks : ScanAsks view start stop tr op) (hok : ∀ tr' a, tr <+: tr' → Q tr' a) :
    wp (scanning view start stop) (dbCall op f) Q (ScanFailed view start stop) tr := by
  refine scanning_query hasks (fun a e h => ?_) hok
  cases hf : f a with
  | ok b => rw [hf] at h; cases h
  | error e' =>
      rw [hf] at h
      cases h
      intro ce hce
      cases hce

theorem queueBlock_scanning {block : Block} {Q : SyncTrace V → Unit → Prop}
    (hok : ∀ tr', tr <+: tr' → Q tr' ()) :
    wp (scanning view start stop) (queueBlock block) Q (ScanFailed view start stop) tr := by
  refine scanning_query trivial (fun a e h => ?_) fun tr' _ hpre => hok tr' hpre
  cases a with
  | some _ => cases h
  | none =>
      cases h
      intro ce hce
      cases hce

theorem awaitDecrypted_scanning {block : Block} {Q : SyncTrace V → Unit → Prop}
    (hok : ∀ tr', tr <+: tr' → Q tr' ()) :
    wp (scanning view start stop) (awaitDecrypted block) Q (ScanFailed view start stop) tr := by
  refine scanning_query trivial (fun a e h => ?_) fun tr' _ hpre => hok tr' hpre
  cases a with
  | some _ => cases h
  | none =>
      cases h
      intro ce hce
      cases hce

theorem transparentAddressIndex_scanning {Q : SyncTrace V → List (TransparentAddress × AccountUuid) → Prop}
    (hok : ∀ tr' index, tr <+: tr' → Q tr' index) :
    wp (scanning view start stop) transparentAddressIndex Q (ScanFailed view start stop) tr := by
  rw [transparentAddressIndex, wp_bind]
  refine scanning_dbCall trivial fun tr₁ accounts hpre => ?_
  refine wp_mono (fun t index h => hok t index (hpre.trans h)) (fun _ _ h => h)
    (wp_foldlM (fun _ _ t => tr₁ <+: t) (List.prefix_refl _) ?_)
  intro l account r index t _ ht
  rw [wp_bind]
  exact scanning_dbCall trivial fun t' receivers h => ht.trans h

/-- Every block of the batch came from the stream of the range. -/
theorem queueBlocks_scanning :
    wp (scanning view start stop) (queueBlocks view start stop)
      (fun tr' batch => tr <+: tr' ∧ ∀ block ∈ batch, WasRead tr' block)
      (ScanFailed view start stop) tr := by
  refine wp_iterate (fun x tr' => tr <+: tr' ∧ ∀ block ∈ x.2, WasRead tr' block)
    ⟨List.prefix_refl _, by simp⟩ ?_
  rintro ⟨pos, batch⟩ t ⟨hpre, hbatch⟩
  simp only [wp_bind, wp_chainCall]
  refine ⟨⟨rfl, rfl⟩, fun a t' hstep => ?_⟩
  obtain ⟨-, hpre', hev⟩ := World.recall_step hstep
  have hold : ∀ block ∈ batch, WasRead t' block := fun b hb => (hbatch b hb).mono hpre'
  rcases a with e | _ | block
  · intro ce hce
    cases hce
    exact ⟨_, hev, rfl, rfl, rfl⟩
  · exact ⟨hpre.trans hpre', hold⟩
  · simp only [id, ends_ok, wp_bind]
    refine queueBlock_scanning fun t'' hpre'' => ?_
    refine ⟨hpre.trans (hpre'.trans hpre''), fun b hb => ?_⟩
    rcases List.mem_append.mp hb with hb | hb
    · exact (hold b hb).mono hpre''
    · rw [List.mem_singleton.mp hb]
      exact ⟨_, _, _, hpre''.subset hev⟩

/-- What is scanned of a batch of blocks that were read was read. -/
theorem scanBatch_scanning {fromState : ChainState} {batch : List Block}
    (hbatch : ∀ block ∈ batch, WasRead tr block) :
    wp (scanning view start stop) (scanBatch fromState batch)
      (fun tr' scanned => tr <+: tr' ∧ ∀ b ∈ scanned, ReadBlock tr' b)
      (ScanFailed view start stop) tr := by
  rw [scanBatch, wp_bind]
  refine wp_foldlM (fun _ (x : BlockMetadata × List ScannedBlock) tr' =>
    tr <+: tr' ∧ ∀ b ∈ x.2, ReadBlock tr' b) ⟨List.prefix_refl _, by simp⟩ ?_
  rintro l block r ⟨prior, scanned⟩ t rfl ⟨hpre, hscanned⟩
  rw [wp_bind]
  refine awaitDecrypted_scanning fun t₁ hpre₁ => ?_
  rw [fullScanBlock, wp_bind, wp_query]
  refine ⟨trivial, fun a t₂ hstep => ?_⟩
  obtain ⟨-, hpre₂, -⟩ := World.recall_step hstep
  rcases a with e | ⟨sapling, orchard, ironwood⟩
  · intro ce hce
    cases hce
  · refine ⟨hpre.trans (hpre₁.trans hpre₂), fun b hb => ?_⟩
    rcases List.mem_append.mp hb with hb | hb
    · exact (hscanned b hb).mono (hpre₁.trans hpre₂)
    · have hread : WasRead t₂ block :=
        (hbatch block (by simp)).mono (hpre.trans (hpre₁.trans hpre₂))
      rw [List.mem_singleton.mp hb]
      exact hread.readBlock rfl rfl

end

/-- What scanning a range does, whatever it is answered. -/
theorem scanBlocks_history {view : V} {scanRange : ScanRange} {shutdownHeight boundary : Option Nat}
    (hclamp : clampToBoundary scanRange.start scanRange.stop shutdownHeight = .cont boundary) :
    wp (scanning view scanRange.start (boundary.getD scanRange.stop))
      (scanBlocks view scanRange shutdownHeight) (fun _ _ => True)
      (ScanFailed view scanRange.start (boundary.getD scanRange.stop)) [] := by
  rw [scanBlocks, hclamp]
  simp only [wp_bind, wp_chainCall]
  refine ⟨trivial, fun a tr hstep => ?_⟩
  obtain ⟨-, -, hev⟩ := World.recall_step hstep
  rcases a with e | _ | fromState
  · intro ce hce
    cases hce
    exact ⟨_, hev, rfl, rfl, rfl⟩
  · simp only [id, ends_ok, wp_bind, wp_chainCall]
    refine ⟨trivial, fun a tr' hstep => ?_⟩
    obtain ⟨-, -, hev⟩ := World.recall_step hstep
    cases a with
    | error e =>
        intro ce hce
        cases hce
        exact ⟨_, hev, rfl, rfl⟩
    | ok tip => trivial
  · simp only [id, ends_ok, wp_bind]
    refine wp_mono (fun tr₁ batch h => ?_) (fun _ _ h => h) queueBlocks_scanning
    refine scanning_dbCall trivial fun tr₂ _ hpre₂ => ?_
    refine transparentAddressIndex_scanning fun tr₃ _ hpre₃ => ?_
    refine wp_mono (fun tr₄ scanned h => ?_) (fun _ _ h => h)
      (scanBatch_scanning fun block hb => (h.2 block hb).mono (hpre₂.trans hpre₃))
    exact scanning_dbCall h.2 fun _ _ _ => trivial

theorem clampToBoundary_lt {start stop : Nat} {shutdownHeight boundary : Option Nat}
    (h : clampToBoundary start stop shutdownHeight = .cont boundary) :
    start < boundary.getD stop := by
  have hle : (shutdownHeight.elim stop fun H => min H stop) ≤ stop := by
    cases shutdownHeight with
    | none => exact le_refl stop
    | some H => exact Nat.min_le_right H stop
  unfold clampToBoundary at h
  dsimp only at h
  split at h
  · cases h
  · rename_i hlt
    split at h
    · cases h
      exact Nat.lt_of_not_le hlt
    · rename_i hstop
      cases h
      show start < stop
      omega

/-- Where scanning a range stops, it asks what it may or fails as it may; it has begun because
the range is not all beyond the shutdown height. -/
theorem scanBlocks_stops {view : V} {scanRange : ScanRange} {shutdownHeight : Option Nat}
    {tr : SyncTrace V} {why : Stop (syncSig V) SyncError}
    (h : StopsAt (scanBlocks view scanRange shutdownHeight) tr why) :
    ∃ boundary, clampToBoundary scanRange.start scanRange.stop shutdownHeight = .cont boundary ∧
      match why with
      | .asks op => ScanAsks view scanRange.start (boundary.getD scanRange.stop) tr op
      | .fails e => ScanFailed view scanRange.start (boundary.getD scanRange.stop) tr e
      | .crashes _ => False := by
  cases hclamp : clampToBoundary scanRange.start scanRange.stop shutdownHeight with
  | brk stop =>
      rw [scanBlocks, hclamp] at h
      exact absurd h StopsAt.not_ret
  | cont boundary =>
      have hpath : Path (scanning view scanRange.start (boundary.getD scanRange.stop)).step [] tr tr :=
        Path.recall fun _ _ => trivial
      refine ⟨boundary, rfl, ?_⟩
      cases why with
      | asks op =>
          obtain ⟨k, hrun⟩ := h.asked
          exact (scanBlocks_history hclamp).sound hrun hpath
      | fails e => exact (scanBlocks_history hclamp).sound h.failed hpath
      | crashes msg => exact (scanBlocks_history hclamp).sound h.crashed hpath

/-- Scanning a range pins no other view and leaves the boundary alone. -/
theorem scanBlocks_unpinned {view : V} {scanRange : ScanRange} {shutdownHeight : Option Nat}
    {tr : SyncTrace V} {q : Sync V (ControlFlow Nat Unit)}
    (h : Run (scanBlocks view scanRange shutdownHeight) tr q) :
    ∀ e ∈ tr, e.op ≠ .snapshot ∧ e.op ≠ .loadBoundary := by
  intro e he
  obtain ⟨l, r, rfl⟩ := List.append_of_mem he
  obtain ⟨k, hask, -⟩ := h.split
  obtain ⟨boundary, -, h⟩ := scanBlocks_stops hask.asks
  have hasks : ScanAsks view scanRange.start (boundary.getD scanRange.stop) l e.op := h
  constructor
  · intro hop
    rw [hop] at hasks
    exact hasks
  · intro hop
    rw [hop] at hasks
    exact hasks

/-! ## Where the batches are in a run -/

/-- How many views were pinned. -/
def pinned (tr : SyncTrace V) : Nat :=
  tr.countP fun e => match e.op with
    | .snapshot => true
    | _ => false

theorem pinned_append (l r : SyncTrace V) : pinned (l ++ r) = pinned l + pinned r :=
  List.countP_append

theorem pinned_eq_zero {tr : SyncTrace V} (h : ∀ e ∈ tr, e.op ≠ .snapshot) : pinned tr = 0 := by
  refine List.countP_eq_zero.mpr fun e he => ?_
  have hop := h e he
  obtain ⟨op, a⟩ := e
  cases op with
  | snapshot => exact absurd rfl hop
  | _ => exact Bool.false_ne_true

/-- A batch that is done pinned one view, and what is left is left. -/
theorem Run.scanNextBatch_ret {batchSize : Nat} {shutdownHeight : Option Nat}
    {remaining : ScanRange} {next : Option ScanRange} {tr : SyncTrace V}
    (h : Run (scanNextBatch batchSize shutdownHeight remaining) tr (.ret (.inl next))) :
    next = (nextBatch batchSize remaining).2 ∧ pinned tr = 1 ∧ ∀ e ∈ tr, e.op ≠ .loadBoundary := by
  obtain ⟨a, view, l, rfl, -, hscan⟩ := Run.query_bind_ret h
  obtain ⟨flow, m, r, rfl, hblocks, hrest⟩ := Run.bind_ret hscan
  have hm := scanBlocks_unpinned hblocks
  cases flow with
  | brk stop => cases hrest
  | cont _ =>
      obtain ⟨b, latestRanges, l, rfl, -, hend⟩ := Run.query_bind_ret hrest
      split at hend
      · cases hend
      · cases hend
        refine ⟨rfl, ?_, ?_⟩
        · have hnone : pinned m = 0 := pinned_eq_zero fun e he => (hm e he).1
          show pinned ([_] ++ (m ++ [_])) = 1
          rw [pinned_append, pinned_append, hnone]
          rfl
        · intro e he
          rcases List.mem_cons.mp he with rfl | he
          · intro h
            cases h
          · rcases List.mem_append.mp he with he | he
            · exact (hm e he).2
            · rw [List.mem_singleton.mp he]
              intro h
              cases h

/-- After the events `tr` of a run of `recoverHistory`, the next batch of what remains of a
range is to be scanned. -/
inductive BatchFrom (batchSize : Nat) (shutdownHeight : Option Nat) :
    SyncTrace V → ScanRange → Prop
  | intro {l m : SyncTrace V} {upperBoundary : Nat} {ranges : List ScanRange}
      {scanRange remaining : ScanRange} :
      Turns (fun _ => recoverTurn batchSize shutdownHeight) () l () →
      (ranges.filterMap (·.truncateEnd upperBoundary)).head? = some scanRange →
      Turns (batchTurn batchSize shutdownHeight) (some scanRange) m (some remaining) →
      BatchFrom batchSize shutdownHeight
        (⟨.intervalTick, ()⟩ :: (l ++ ⟨.loadBoundary, upperBoundary⟩ ::
          ⟨.suggestScanRanges, .ok ranges⟩ :: m)) remaining

/-- The operations by which recovery decides what to scan, and pins the view to scan it from. -/
def Bookkeeping : Op V → Prop
  | .intervalTick | .loadBoundary | .suggestScanRanges | .snapshot => True
  | _ => False

/-- After the events `tr`, the blocks of `batch` are being scanned from `view`, and scanning has
done `m` so far. -/
inductive ScanningBatch (batchSize : Nat) (shutdownHeight : Option Nat) (view : V)
    (batch : ScanRange) : SyncTrace V → SyncTrace V → Prop
  | intro {l m : SyncTrace V} {remaining : ScanRange} :
      BatchFrom batchSize shutdownHeight l remaining →
      batch = (nextBatch batchSize remaining).1 →
      ScanningBatch batchSize shutdownHeight view batch (l ++ ⟨.snapshot, .ok view⟩ :: m) m

section
variable {batchSize : Nat} {shutdownHeight : Option Nat} {tr : SyncTrace V}
  {why : Stop (syncSig V) SyncError}

/-- Stops that involve no read of a view: the bookkeeping, and errors of the wallet database. -/
def Elsewhere : Stop (syncSig V) SyncError → Prop
  | .asks op => Bookkeeping op
  | .fails e => ∃ e', e = .other e'
  | .crashes _ => False

theorem elsewhere_dbCall {α β : Type} {op : Op V}
    {f : (syncSig V).Ans op → Except SqliteClientError α} {g : α → Sync V β}
    (h : StopsAt ((dbCall op f).bind g) tr why) (hop : Bookkeeping op) :
    Elsewhere why ∨ ∃ a b l, tr = ⟨op, a⟩ :: l ∧ f a = .ok b ∧ StopsAt (g b) l why := by
  rcases h.query_bind with rfl | ⟨a, l, htr, ⟨e, ha, -, rfl⟩ | ⟨b, ha, h⟩⟩
  · exact .inl hop
  · cases hf : f a with
    | error e' =>
        rw [hf] at ha
        cases ha
        exact .inl ⟨e', rfl⟩
    | ok b =>
        rw [hf] at ha
        cases ha
  · cases hf : f a with
    | error e' =>
        rw [hf] at ha
        cases ha
    | ok b' =>
        rw [hf] at ha
        cases ha
        exact .inr ⟨a, b, l, htr, hf, h⟩

/-- A batch stops in the scan of its blocks, or when its view cannot be pinned. -/
theorem scanNextBatch_stops {remaining : ScanRange}
    (h : StopsAt (scanNextBatch batchSize shutdownHeight remaining) tr why) :
    Elsewhere why ∨ (∃ ce, tr = [⟨.snapshot, .error ce⟩] ∧ why = .fails (.chain ce)) ∨
    ∃ view m, tr = ⟨.snapshot, .ok view⟩ :: m ∧
      StopsAt (scanBlocks view (nextBatch batchSize remaining).1 shutdownHeight) m why := by
  rcases h.query_bind with rfl | ⟨a, l, rfl, ⟨e, ha, rfl, rfl⟩ | ⟨view, ha, hscan⟩⟩
  · exact .inl trivial
  · cases a with
    | error ce =>
        cases ha
        exact .inr (.inl ⟨ce, rfl, rfl⟩)
    | ok _ => cases ha
  · cases a with
    | error ce => cases ha
    | ok _ =>
        cases ha
        rcases hscan.bind_inv with hscan | ⟨flow, m, r, rfl, -, hrest⟩
        · exact .inr (.inr ⟨view, l, rfl, hscan⟩)
        · cases flow with
          | brk _ => exact absurd hrest StopsAt.not_ret
          | cont _ =>
              rcases elsewhere_dbCall hrest trivial with hw | ⟨_, _, l', -, -, hend⟩
              · exact .inl hw
              · split at hend <;> exact absurd hend StopsAt.not_ret

/-- Where a turn of the recovery stops. -/
theorem recoverTurn_stops (h : StopsAt (recoverTurn batchSize shutdownHeight) tr why) :
    Elsewhere why ∨ ∃ upperBoundary ranges scanRange l m remaining,
      tr = ⟨.loadBoundary, upperBoundary⟩ :: ⟨.suggestScanRanges, .ok ranges⟩ :: (l ++ m) ∧
      (ranges.filterMap (·.truncateEnd upperBoundary)).head? = some scanRange ∧
      Turns (batchTurn batchSize shutdownHeight) (some scanRange) l (some remaining) ∧
      StopsAt (scanNextBatch batchSize shutdownHeight remaining) m why := by
  rcases h.ask_bind with rfl | ⟨upperBoundary, l, rfl, hranges⟩
  · exact .inl trivial
  rcases elsewhere_dbCall hranges trivial with hw | ⟨a, ranges, l, rfl, ha, hrest⟩
  · exact .inl hw
  obtain rfl : a = .ok ranges := ha
  split at hrest
  · rcases hrest.ask_bind with rfl | ⟨_, _, -, hend⟩
    · exact .inl trivial
    · exact absurd hend StopsAt.not_ret
  · rename_i scanRange hrange
    rcases hrest.bind_inv with hbatches | ⟨_, _, _, -, -, hend⟩
    · obtain ⟨l, m, remaining, rfl, hturns, hbatch⟩ := hbatches.iterate_inv
      cases remaining with
      | none => exact absurd hbatch StopsAt.not_ret
      | some remaining =>
          exact .inr
            ⟨upperBoundary, ranges, scanRange, l, m, remaining, rfl, hrange, hturns, hbatch⟩
    · exact absurd hend StopsAt.not_ret

/-- Recovery stops in the scan of a batch, or where no view is read. -/
theorem recoverHistory_stops (h : StopsAt (recoverHistory batchSize shutdownHeight) tr why) :
    Elsewhere why ∨ (∃ l ce, tr = l ++ [⟨.snapshot, .error ce⟩] ∧ why = .fails (.chain ce)) ∨
    ∃ view batch m, ScanningBatch batchSize shutdownHeight view batch tr m ∧
      StopsAt (scanBlocks view batch shutdownHeight) m why := by
  rcases h.ask_bind with rfl | ⟨_, l, rfl, hloop⟩
  · exact .inl trivial
  obtain ⟨l, r, ⟨⟩, rfl, hturns, hturn⟩ := hloop.iterate_inv
  rcases recoverTurn_stops hturn with
    hw | ⟨upperBoundary, ranges, scanRange, l', m, remaining, rfl, hrange, hbatches, hbatch⟩
  · exact .inl hw
  · have hfrom := BatchFrom.intro hturns hrange hbatches
    rcases scanNextBatch_stops hbatch with hw | ⟨ce, rfl, rfl⟩ | ⟨view, m, rfl, hscan⟩
    · exact .inl hw
    · refine .inr (.inl ⟨⟨.intervalTick, ()⟩ :: (l ++ ⟨.loadBoundary, upperBoundary⟩ ::
        ⟨.suggestScanRanges, .ok ranges⟩ :: l'), ce, ?_, rfl⟩)
      simp
    · have hscanning := @ScanningBatch.intro V batchSize shutdownHeight view _ _ m remaining
        hfrom rfl
      refine .inr (.inr ⟨view, _, m, ?_, hscan⟩)
      simpa using hscanning

end

end Zallet
