/-
# `Zallet.Zebra.Finalized` — history recovery and finalized blocks

Heights at or below a view's finalized floor are read by height from blocks
that no longer change; above it, a reorg can make any read `Unavailable`.
Recovery is to stay below: it retries nothing.  `recovery_finalized` says that
it does so in every run in which each batch ends by the floor of the view it is
read from.  The boundary does not see to that, being 100 blocks below the tip
where the floor is 1000 (`recovery_unfinalized`).
-/
import Zallet.Zebra.View
import Zallet.Sync.Batches
import Zallet.Prog.Exec

namespace Zallet

open Prog

/-- What is relied on of zebrad's read service: it fails for reasons of its own, never as stale;
a hash belongs to a block of one height, whose bytes say that height. -/
def HonestReader (heightOf : BlockHash → Nat) (e : ReaderEvent) : Prop :=
  (∀ ce, readerErrorOf e = some ce → ce.isUnavailable = false) ∧
    match e with
    | ⟨.bestChainBlockHash height, .ok (some hash)⟩ => heightOf hash = height
    | ⟨.rawBlockByHash hash, .ok (some raw)⟩ =>
        ∀ block, raw.block = .ok block → block.claimedHeight = heightOf hash
    | _ => True

/-- The view serves the height from finalized blocks, or not at all. -/
def Settled (view : ZebraChainView) (height : Nat) : Prop :=
  view.tip.height < height ∨ height ≤ view.finalizedFloor

/-! ## Settled heights -/

section
variable {heightOf : BlockHash → Nat} {view : ZebraChainView} {height : Nat} {tr : ReaderTrace}

/-- The world of an honest reader. -/
abbrev honestly (heightOf : BlockHash → Nat) : World readerSig ReaderTrace :=
  .recall (HonestReader heightOf) (fun _ _ => True) fun _ => True

/-- Not stale. -/
abbrev Fresh (e : ChainError) : Prop := e.isUnavailable = false

theorem resolve_settled (h : Settled view height) :
    wp (honestly heightOf) (view.resolve height)
      (fun _ r => ∀ hash, r = some hash → heightOf hash = height ∧ height ≤ view.finalizedFloor)
      (fun _ => Fresh) tr := by
  unfold ZebraChainView.resolve
  split
  · intro hash hnone
    cases hnone
  · rename_i habove
    have hfloor : height ≤ view.finalizedFloor := h.resolve_left habove
    rw [if_pos hfloor, wp_query]
    refine ⟨trivial, fun a tr' hstep => ?_⟩
    obtain ⟨⟨herror, hhash⟩, -, -⟩ := World.recall_step hstep
    cases a with
    | error e => exact herror e rfl
    | ok r =>
        intro hash hr
        obtain rfl : r = some hash := hr
        exact ⟨hhash, hfloor⟩

theorem getBlock_settled (h : Settled view height) :
    wp (honestly heightOf) (view.getBlock height)
      (fun _ r => ∀ block, r = some block →
        block.claimedHeight = height ∧ height ≤ view.finalizedFloor)
      (fun _ => Fresh) tr := by
  rw [ZebraChainView.getBlock, wp_bind]
  refine wp_mono (fun tr₁ r hr => ?_) (fun _ _ he => he) (resolve_settled h)
  cases r with
  | none =>
      intro block hnone
      cases hnone
  | some hash =>
      obtain ⟨hheight, hfloor⟩ := hr hash rfl
      rw [wp_query]
      refine ⟨trivial, fun a tr₂ hstep => ?_⟩
      obtain ⟨⟨herror, hraw⟩, -, -⟩ := World.recall_step hstep
      rcases a with e | _ | raw
      · exact herror e rfl
      · intro block hnone
        cases hnone
      · simp only [Except.bind, Option.elim_some]
        cases hblock : raw.block with
        | error msg => exact rfl
        | ok block =>
            intro block' heq
            obtain rfl : block = block' := Option.some.inj heq
            exact ⟨(hraw block hblock).trans hheight, hfloor⟩

/-- A pool's tree may be missing, but not for staleness, when the block is finalized. -/
theorem readTree_settled {gone : String} {bytes : Except ChainError (Option RawTree)} {e : ChainError}
    (hfresh : ∀ ce, bytes = .error ce → Fresh ce)
    (h : ZebraChainView.readTree true gone bytes = .error e) : Fresh e := by
  rcases bytes with ce | _ | bytes
  · cases h
    exact hfresh _ rfl
  · cases h
  · cases htree : bytes.tree with
    | error msg =>
        simp only [ZebraChainView.readTree, htree, Except.mapError, Except.error.injEq] at h
        exact h ▸ rfl
    | ok tree =>
        simp only [ZebraChainView.readTree, htree, Except.mapError, reduceCtorEq] at h

theorem treeStateAsOf_settled (h : Settled view height) :
    wp (honestly heightOf) (view.treeStateAsOf height) (fun _ _ => True) (fun _ => Fresh) tr := by
  have hread : ∀ {α : Type} {op : ReaderOp} {gone : String}
      {f : op.Ans → Except ChainError (Option RawTree)} {k : Tree → Reads α} {tr : ReaderTrace},
      (∀ a ce, f a = .error ce → readerErrorOf ⟨op, a⟩ = some ce) →
      (∀ tree tr', wp (honestly heightOf) (k tree) (fun _ _ => True) (fun _ => Fresh) tr') →
      wp (honestly heightOf)
        (query (E := readerSig) op (fun a => ZebraChainView.readTree true gone (f a)) >>= k)
        (fun _ _ => True) (fun _ => Fresh) tr := by
    intro α op gone f k tr hop hk
    rw [wp_bind, wp_query]
    refine ⟨trivial, fun a tr' hstep => ?_⟩
    obtain ⟨⟨herror, -⟩, -, -⟩ := World.recall_step hstep
    cases hr : ZebraChainView.readTree true gone (f a) with
    | error e => exact readTree_settled (fun ce hce => herror ce (hop a ce hce)) hr
    | ok tree => exact hk tree tr'
  rw [ZebraChainView.treeStateAsOf, wp_bind]
  refine wp_mono (fun tr₁ r hr => ?_) (fun _ _ he => he) (resolve_settled h)
  cases r with
  | none => trivial
  | some hash =>
      obtain ⟨-, hfloor⟩ := hr hash rfl
      simp only [decide_eq_true hfloor]
      refine hread (fun a ce ha => ?_) fun sapling tr₂ => ?_
      · exact ha ▸ rfl
      refine hread (fun a ce ha => ?_) fun orchard tr₃ => ?_
      · exact ha ▸ rfl
      refine hread (fun a ce ha => ?_) fun ironwood tr₄ => ?_
      · exact ha ▸ rfl
      trivial

theorem streamNext_settled {start stop pos : Nat}
    (h : ∀ height, start ≤ height → height ≤ stop - 1 → Settled view height) :
    wp (honestly heightOf) (view.streamNext pos (.range start stop))
      (fun _ r => ∀ block, r = some block → block.claimedHeight ≤ view.finalizedFloor)
      (fun _ => Fresh) tr := by
  rw [ZebraChainView.streamNext, ZebraChainView.streamStep]
  split
  · intro block hnone
    cases hnone
  · rename_i hstop
    have hsettled : Settled view (start + pos) := h _ (Nat.le_add_right _ _) (Nat.le_of_not_lt hstop)
    refine wp_mono (fun _ r hr block hblock => ?_) (fun _ _ he => he) (getBlock_settled hsettled)
    obtain ⟨hheight, hfloor⟩ := hr block hblock
    exact hheight ▸ hfloor

/-- Pinning a view is never stale but where there is no chain at all. -/
theorem zebraSnapshot_fresh :
    wp (honestly heightOf) zebraSnapshot (fun _ _ => True)
      (fun _ e => Fresh e ∨ e = .unavailable "the chain state has no tip yet") tr := by
  rw [zebraSnapshot, wp_bind, wp_query]
  refine ⟨trivial, fun a tr' hstep => ?_⟩
  obtain ⟨⟨herror, -⟩, -, -⟩ := World.recall_step hstep
  rcases a with e | _ | tip
  · exact .inl (herror e rfl)
  · exact .inr rfl
  · exact ⟨trivial, fun _ _ _ => trivial⟩

end

/-! ## Recovery -/

/-- The batch, cut at the shutdown height, ends by the view's finalized floor; or the view has
none of its blocks. -/
def BatchFinalized (shutdownHeight : Option Nat) (view : ZebraChainView) (batch : ScanRange) :
    Prop :=
  ∀ boundary, clampToBoundary batch.start batch.stop shutdownHeight = .cont boundary →
    view.tip.height < batch.start - 1 ∨
      min (boundary.getD batch.stop) (view.tip.height + 1) ≤ view.finalizedFloor + 1

/-- What is read of a view is finalized in it, and what is put was read. -/
structure FinalizedOnly (tr : SyncTrace ZebraChainView) : Prop where
  read : ∀ view stream pos block,
    (⟨.tryNext view stream pos, .ok (some block)⟩ : SyncEvent ZebraChainView) ∈ tr →
    block.claimedHeight ≤ view.tip.height - maxReorgDepth
  put : ∀ l r fromState blocks a, tr = l ++ ⟨.putBlocks fromState blocks, a⟩ :: r →
    ∀ b ∈ blocks, ReadBlock l b

/-- The program ended as stale only because there was no chain to pin a view of. -/
def StaleOnlyWithoutTip {α : Type} (tr : SyncTrace ZebraChainView) (q : Sync ZebraChainView α) :
    Prop :=
  ∀ source, q = .fail (.chain (.unavailable source)) →
    ∃ l, tr = l ++ [⟨.snapshot, .error (.unavailable "the chain state has no tip yet")⟩]

section
variable {heightOf : BlockHash → Nat} {batchSize : Nat} {shutdownHeight : Option Nat}

/-- The heights a finalized batch reads are settled. -/
theorem BatchFinalized.settled {view : ZebraChainView} {batch : ScanRange} {boundary : Option Nat}
    (h : BatchFinalized shutdownHeight view batch)
    (hclamp : clampToBoundary batch.start batch.stop shutdownHeight = .cont boundary)
    {height : Nat} (hstart : batch.start - 1 ≤ height)
    (hstop : height ≤ boundary.getD batch.stop - 1) : Settled view height := by
  have hlt := clampToBoundary_lt hclamp
  have := h boundary hclamp
  unfold Settled
  omega

/-- No read of a finalized batch is stale. -/
theorem ScanReads.fresh {view : ZebraChainView} {batch : ScanRange} {boundary : Option Nat}
    {ev : SyncEvent ZebraChainView} {ce : ChainError}
    (h : BatchFinalized shutdownHeight view batch)
    (hclamp : clampToBoundary batch.start batch.stop shutdownHeight = .cont boundary)
    (hreads : ScanReads view batch.start (boundary.getD batch.stop) ev.op)
    (hserved : ZebraAnswer (HonestReader heightOf) ev) (herror : chainErrorOf ev = some ce) :
    Fresh ce := by
  have hlt := clampToBoundary_lt hclamp
  obtain ⟨op, a⟩ := ev
  cases op with
  | treeStateAsOf v height =>
      obtain ⟨rfl, rfl⟩ := hreads
      cases a with
      | ok r => cases herror
      | error e =>
          obtain rfl := Option.some.inj herror
          have hsettled : Settled v (batch.start - 1) := h.settled hclamp (le_refl _) (by omega)
          exact Outcome.ends hserved (treeStateAsOf_settled hsettled)
  | tryNext v stream pos =>
      obtain ⟨rfl, rfl⟩ := hreads
      cases a with
      | ok r => cases herror
      | error e =>
          obtain rfl := Option.some.inj herror
          exact Outcome.ends hserved
            (streamNext_settled fun height hstart hstop => h.settled hclamp (by omega) hstop)
  | tip v =>
      cases a with
      | ok r => cases herror
      | error e =>
          obtain ⟨tr, hrun, -⟩ := hserved
          cases hrun
  | _ => exact absurd hreads id

/-- Of the first suggested range with a part below the boundary, each batch is finalized in the view
that is pinned when as many views were pinned as there are batches before it. -/
def FinalizedBatches (batchSize : Nat) (shutdownHeight : Option Nat)
    (tr : SyncTrace ZebraChainView) : Prop :=
  ∀ l boundary ranges m view scanRange done batch rest,
    l ++ ⟨.loadBoundary, boundary⟩ :: ⟨.suggestScanRanges, .ok ranges⟩ ::
      (m ++ [⟨.snapshot, .ok view⟩]) <+: tr →
    (∀ e ∈ m, e.op ≠ .loadBoundary) →
    (ranges.filterMap (·.truncateEnd boundary)).head? = some scanRange →
    Batches batchSize (some scanRange) (done ++ batch :: rest) → done.length = pinned m →
    BatchFinalized shutdownHeight view batch

theorem FinalizedBatches.scanning {tr l m : SyncTrace ZebraChainView} {view : ZebraChainView}
    {batch : ScanRange} (h : FinalizedBatches batchSize shutdownHeight tr)
    (hscan : ScanningBatch batchSize shutdownHeight view batch l m) (hpre : l <+: tr) :
    BatchFinalized shutdownHeight view batch ∧ m ⊆ tr := by
  cases hscan with
  | @intro l m remaining hfrom hbatch =>
      refine ⟨?_, fun ev hev => hpre.subset ?_⟩
      · cases hfrom with
        | @intro l k boundary ranges scanRange _ hturns hrange hbatches =>
            obtain ⟨batches, hall⟩ := exists_batches (some scanRange)
            obtain ⟨hk, done, rest, rfl, hrest, hlength⟩ := Turns.in_order hbatches hall
            cases hrest with
            | next _ =>
                refine h (⟨.intervalTick, ()⟩ :: l) boundary ranges k view scanRange done batch _ ?_
                  hk hrange (hbatch ▸ hall) hlength
                refine List.IsPrefix.trans ?_ hpre
                exact ⟨m, by simp⟩
      · exact List.mem_append_right _ (List.mem_cons_of_mem _ hev)

/-- In every run whose batches are finalized in the views they are read from, recovery reads
nothing else, and no reorg stops it. -/
theorem recovery_finalized {tr : SyncTrace ZebraChainView} {q : Sync ZebraChainView Unit}
    (hrun : Run (recoverHistory batchSize shutdownHeight) tr q)
    (hserved : ∀ ev ∈ tr, ZebraAnswer (HonestReader heightOf) ev)
    (hfinal : FinalizedBatches batchSize shutdownHeight tr) :
    FinalizedOnly tr ∧ StaleOnlyWithoutTip tr q := by
  have hasked : ∀ l ev r, tr = l ++ ev :: r → ¬ Bookkeeping ev.op →
      ∃ view batch boundary m, BatchFinalized shutdownHeight view batch ∧ m ⊆ l ∧
        clampToBoundary batch.start batch.stop shutdownHeight = .cont boundary ∧
        ScanAsks view batch.start (boundary.getD batch.stop) m ev.op := by
    rintro l ev r rfl hop
    obtain ⟨k, hask, -⟩ := hrun.split
    rcases recoverHistory_stops hask.asks with h | ⟨_, _, -, h⟩ | ⟨view, batch, m, hscan, h⟩
    · exact absurd h hop
    · cases h
    · obtain ⟨boundary, hclamp, hasks⟩ := scanBlocks_stops h
      obtain ⟨hbatch, -⟩ := hfinal.scanning hscan (List.prefix_append _ _)
      refine ⟨view, batch, boundary, m, hbatch, ?_, hclamp, hasks⟩
      cases hscan with
      | intro _ _ =>
          intro ev hev
          exact List.mem_append_right _ (List.mem_cons_of_mem _ hev)
  constructor
  · constructor
    · intro view stream pos block hmem
      obtain ⟨l, r, htr⟩ := List.append_of_mem hmem
      obtain ⟨view', batch, boundary, m, hbatch, -, hclamp, rfl, rfl⟩ := hasked l _ r htr id
      have hlt := clampToBoundary_lt hclamp
      have hanswer : Outcome _ (view.streamNext pos (.range batch.start _)) (.ok (some block)) :=
        hserved _ hmem
      have hread := hanswer.ends
        (streamNext_settled fun height hstart hstop => hbatch.settled hclamp (by omega) hstop)
      exact view.floor_eq ▸ hread block rfl
    · intro l r fromState blocks a htr b hb
      obtain ⟨view, batch, boundary, m, -, hsub, -, hasks⟩ := hasked l _ r htr id
      obtain ⟨v, stream, pos, block, hmem, hb⟩ := hasks b hb
      exact ⟨v, stream, pos, block, hsub hmem, hb⟩
  · rintro source rfl
    rcases recoverHistory_stops hrun.fails with ⟨e', he⟩ | ⟨l, ce, rfl, he⟩ | ⟨view, batch, m, hscan, h⟩
    · cases he
    · cases he
      have hanswer : Outcome _ zebraSnapshot (.error (.unavailable source)) :=
        hserved _ (List.mem_append_right _ (List.mem_singleton_self _))
      rcases hanswer.ends zebraSnapshot_fresh with h | h
      · cases h
      · exact ⟨l, by rw [h]⟩
    · obtain ⟨boundary, hclamp, hfailed⟩ := scanBlocks_stops h
      obtain ⟨hbatch, hsub⟩ := hfinal.scanning hscan (List.prefix_refl _)
      obtain ⟨ev, hmem, herror, hreads⟩ := hfailed _ rfl
      have hfresh := hreads.fresh hbatch hclamp (hserved ev (hsub hmem)) herror
      cases hfresh

/-- Zebrad after a reorg: a chain of the hashes `⟨0⟩, ⟨1⟩, …`, of which the non-finalized blocks
are no longer known. -/
def reorged (tip : Nat) : Answer readerSig Unit := fun _ op =>
  match op with
  | .tip => (.ok (some ⟨tip, ⟨tip⟩⟩), ())
  | .bestChainBlockHash height => (.ok (some ⟨height⟩), ())
  | .rawBlockByHash hash => (.ok (some ⟨.ok ⟨hash.bytes, ⟨hash, 0⟩⟩, .ok ⟨hash, 0⟩⟩), ())
  | .blockHeaderByHash _ => (.ok none, ())
  | .saplingTreeBytes _ | .orchardTreeBytes _ | .ironwoodTreeBytes _ =>
      (.ok (some ⟨.ok .empty⟩), ())
  | .findForkPoint _ => (.ok none, ())
  | .transaction _ => (.ok none, ())
  | .sideChainTransaction _ => (.ok none, ())
  | .isUnspent _ => (.ok true, ())
  | .spendingTransaction _ => (.ok none, ())
  | .getRawMempool => (.ok [], ())
  | .getRawTransaction _ => (.error "no such transaction", ())
  | .cacheGet _ => (none, ())
  | .cacheFrom _ => (some (tip, ⟨tip⟩), ())
  | .cacheInsert _ _ => ((), ())

theorem reorged_honest {tip : Nat} (t : Unit) (op : ReaderOp) :
    HonestReader (·.bytes) ⟨op, (reorged tip t op).1⟩ := by
  constructor
  · intro ce h
    cases op <;> cases h
  · cases op with
    | rawBlockByHash hash =>
        intro block h
        cases h
        rfl
    | bestChainBlockHash height => exact rfl
    | _ => trivial

end

/-- The view of such a chain. -/
abbrev viewAt (tip : Nat) : ZebraChainView := .capture ⟨tip, ⟨tip⟩⟩

/-- A wallet that is to scan the block at `start`, with such a chain. -/
def recovering (tip start : Nat) : Answer (syncSig ZebraChainView) Unit := fun _ op =>
  match op with
  | .snapshot => (.ok (viewAt tip), ())
  | .loadBoundary => (updateBoundary 0 tip, ())
  | .suggestScanRanges => (.ok [⟨start, start + 1, .historic⟩], ())
  | .treeStateAsOf view height =>
      if height ≤ view.finalizedFloor then
        (.ok (some ⟨height, ⟨height⟩, .empty, .empty, .empty⟩), ())
      else (.error (.unavailable "pinned block reorged away during resolve"), ())
  | .tryNext _ _ _ => (.ok (some ⟨start, ⟨⟨start⟩, 0⟩⟩), ())
  | op => (op.idle (viewAt tip), ())

def recoveringRun (tip start n : Nat) :
    SyncTrace ZebraChainView × Unit × Sync ZebraChainView Unit :=
  exec (recovering tip start) n () (recoverHistory 10 none)

theorem recoveringRun_settled : (recoveringRun 2000 500 9).1 =
    [⟨.intervalTick, ()⟩, ⟨.loadBoundary, 1900⟩,
      ⟨.suggestScanRanges, .ok [⟨500, 501, .historic⟩]⟩, ⟨.snapshot, .ok (viewAt 2000)⟩,
      ⟨.treeStateAsOf (viewAt 2000) 499, .ok (some ⟨499, ⟨499⟩, .empty, .empty, .empty⟩)⟩,
      ⟨.tryNext (viewAt 2000) (.range 500 501) 0, .ok (some ⟨500, ⟨⟨500⟩, 0⟩⟩)⟩] := by
  decide +kernel

theorem recoveringRun_served :
    ∀ ev ∈ (recoveringRun 2000 500 9).1, ZebraAnswer (HonestReader (·.bytes)) ev := by
  rw [recoveringRun_settled]
  intro ev hev
  simp only [List.mem_cons, List.not_mem_nil, or_false] at hev
  rcases hev with rfl | rfl | rfl | rfl | rfl | rfl
  · trivial
  · trivial
  · trivial
  · show Outcome _ zebraSnapshot _
    exact Outcome.of_exec_ok (n := 9) (s := ()) (@reorged_honest 2000) (by decide +kernel)
  · show Outcome _ ((viewAt 2000).treeStateAsOf 499) _
    exact Outcome.of_exec_ok (n := 9) (s := ()) (@reorged_honest 2000) (by decide +kernel)
  · show Outcome _ ((viewAt 2000).streamNext 0 (.range 500 501)) _
    exact Outcome.of_exec_ok (n := 9) (s := ()) (@reorged_honest 2000) (by decide +kernel)

theorem recoveringRun_finalized : FinalizedBatches 10 none (recoveringRun 2000 500 9).1 := by
  rintro l boundary ranges m view scanRange done batch rest ⟨r, hr⟩ - hrange hbatches hlength
  rw [recoveringRun_settled] at hr
  -- the one view was pinned after the first suggestions
  simp only [List.cons_append, List.append_assoc, List.cons.injEq, true_and,
    List.append_eq_cons_iff, List.cons_eq_append_iff, List.nil_eq_append_iff, Event.mk.injEq,
    reduceCtorEq, false_and, and_false, exists_false, or_false, false_or, List.nil_append, heq_eq_eq,
    Except.ok.injEq] at hr
  obtain ⟨_, rfl, rfl, rfl, rfl, rfl, rfl, -⟩ := hr
  obtain rfl : (⟨500, 501, .historic⟩ : ScanRange) = scanRange := by
    simpa [ScanRange.truncateEnd, ScanRange.isEmpty] using hrange
  obtain rfl : done = [] := List.eq_nil_of_length_eq_zero hlength
  cases hbatches
  intro boundary hclamp
  cases hclamp
  right
  decide

theorem recovery_finalized_settled :
    FinalizedOnly (recoveringRun 2000 500 9).1 ∧
      StaleOnlyWithoutTip (recoveringRun 2000 500 9).1 (recoveringRun 2000 500 9).2.2 :=
  recovery_finalized (exec_run _ _ _ _) recoveringRun_served recoveringRun_finalized

theorem recoveringRun_unsettled : (recoveringRun 1200 1050 9).1 =
    [⟨.intervalTick, ()⟩, ⟨.loadBoundary, 1100⟩,
      ⟨.suggestScanRanges, .ok [⟨1050, 1051, .historic⟩]⟩, ⟨.snapshot, .ok (viewAt 1200)⟩,
      ⟨.treeStateAsOf (viewAt 1200) 1049,
        .error (.unavailable "pinned block reorged away during resolve")⟩] := by
  decide +kernel

theorem recoveringRun_unsettled_served :
    ∀ ev ∈ (recoveringRun 1200 1050 9).1, ZebraAnswer (HonestReader (·.bytes)) ev := by
  rw [recoveringRun_unsettled]
  intro ev hev
  simp only [List.mem_cons, List.not_mem_nil, or_false] at hev
  rcases hev with rfl | rfl | rfl | rfl | rfl
  · trivial
  · trivial
  · trivial
  · show Outcome _ zebraSnapshot _
    exact Outcome.of_exec_ok (n := 9) (s := ()) (@reorged_honest 1200) (by decide +kernel)
  · show Outcome _ ((viewAt 1200).treeStateAsOf 1049) _
    exact Outcome.of_exec_error (n := 9) (s := ()) (@reorged_honest 1200) (by decide +kernel)

/-- A reorg among the last thousand blocks stops the recovery of a block below the boundary. -/
theorem recovery_unfinalized :
    ¬ ∀ (heightOf : BlockHash → Nat) (batchSize : Nat) (shutdownHeight : Option Nat)
      (tr : SyncTrace ZebraChainView) (q : Sync ZebraChainView Unit),
      Run (recoverHistory batchSize shutdownHeight) tr q →
      (∀ ev ∈ tr, ZebraAnswer (HonestReader heightOf) ev) →
      FinalizedOnly tr ∧ StaleOnlyWithoutTip tr q := by
  intro h
  have hrun : Run (recoverHistory 10 none) (recoveringRun 1200 1050 9).1
      (.fail (.chain (.unavailable "pinned block reorged away during resolve"))) :=
    exec_fail (by decide +kernel)
  obtain ⟨l, hl⟩ := (h _ _ _ _ _ hrun recoveringRun_unsettled_served).2 _ rfl
  rw [recoveringRun_unsettled] at hl
  have hlast := congrArg List.getLast? hl
  simp at hlast

end Zallet
