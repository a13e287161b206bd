/-
# `Zallet.Sync.Traversal` — the tasks, operation by operation

Which operations do the tasks perform, and on what blocks?  A world that allows
the plain operations, lets blocks be put below the shutdown height and finds
the mempool of a low view safe (`Bounded`) is one in which every task is safe.
What such a world forbids is then never done on any run; the questions are
asked in `Zallet.Sync.Divergence`.
-/
import Zallet.Sync.ForkPoint

namespace Zallet

variable {V S : Type}

open Prog

/-! ## What the traversal needs -/

/-- Operations that neither give the wallet chain data nor take any from it. -/
def Quiet : Op V → Prop
  | .putBlocks _ _ | .truncateToHeight _ => False
  | .decryptAndStoreTransaction _ _ | .mempoolNext _ => False
  | _ => True

/-- Quiet operations may be performed anywhere. -/
def AllowsQuiet (W : World (syncSig V) S) : Prop := ∀ s op, Quiet op → W.guard s op

/-- Below the shutdown height, if there is one. -/
def BelowShutdown (shutdownHeight : Option Nat) (height : Nat) : Prop :=
  ∀ h ∈ shutdownHeight, height < h

/-- What the traversal needs of the world it is done in.  Blocks may be put at the heights `ok`:
those below the shutdown height, and those of streams that end by it.  The mempool of a view
with a tip below the shutdown height is safe. -/
structure Bounded (W : World (syncSig V) S) (shutdownHeight : Option Nat) (ok : Nat → Prop) :
    Prop where
  quiet : AllowsQuiet W
  truncate : ∀ s height, W.guard s (.truncateToHeight height)
  put : ∀ {s fromState blocks}, (∀ b ∈ blocks, ok (ScannedBlock.height b)) →
    W.guard s (.putBlocks fromState blocks)
  below : ∀ {height}, BelowShutdown shutdownHeight height → ok height
  range : ∀ {s view start stop pos block s'},
    W.step s (.tryNext view (.range start stop) pos) (.ok (some block)) s' →
    (∀ H ∈ shutdownHeight, stop ≤ H) → ok block.claimedHeight
  mempool : ∀ {s view tip s'}, W.step s (.tip view) (.ok tip) s' →
    BelowShutdown shutdownHeight tip.height → Safe W (streamMempool view)

theorem SearchReads.quiet {view : V} {op : Op V} (h : SearchReads view op) : Quiet op := by
  cases op <;> trivial

theorem safe_chainCall {W : World (syncSig V) S} {α : Type} {op : Op V}
    {f : (syncSig V).Ans op → Except ChainError α} (h : ∀ s, W.guard s op) :
    Safe W (chainCall op f) := Safe.query h

theorem safe_dbCall {W : World (syncSig V) S} {α : Type} {op : Op V}
    {f : (syncSig V).Ans op → Except SqliteClientError α} (h : ∀ s, W.guard s op) :
    Safe W (dbCall op f) := Safe.query h

theorem clampToBoundary_cont {start stop : Nat} {shutdownHeight boundary : Option Nat}
    (h : clampToBoundary start stop shutdownHeight = .cont boundary) :
    ∀ H ∈ shutdownHeight, boundary.getD stop ≤ H := by
  intro H hH
  obtain rfl : shutdownHeight = some H := hH
  unfold clampToBoundary at h
  dsimp only at h
  split at h
  · cases h
  · split at h
    · cases h
      exact Nat.min_le_left H stop
    · rename_i hstop
      cases h
      have : ¬ min H stop < stop := hstop
      show stop ≤ H
      omega

section
variable {W : World (syncSig V) S} {shutdownHeight : Option Nat} {ok : Nat → Prop} {view : V}

/-! ## Scanning -/

theorem updateSubtreeRoots_safe (hW : Bounded W shutdownHeight ok) :
    Safe W (updateSubtreeRoots : Sync V _) :=
  .bind (safe_chainCall fun s => hW.quiet s _ trivial) fun _ =>
  .bind (.query fun s => hW.quiet s _ trivial) fun _ =>
  .bind (safe_chainCall fun s => hW.quiet s _ trivial) fun _ =>
  .query fun s => hW.quiet s _ trivial

theorem transparentAddressIndex_safe (hq : AllowsQuiet W) :
    Safe W (transparentAddressIndex : Sync V _) :=
  .bind (safe_dbCall fun s => hq s _ trivial) fun _ =>
  .foldlM fun _ _ => .bind (safe_dbCall fun s => hq s _ trivial) fun _ => .pure

theorem queueBlock_safe (hq : AllowsQuiet W) {block : Block} :
    Safe W (queueBlock block : Sync V _) := .query fun s => hq s _ trivial

theorem awaitDecrypted_safe (hq : AllowsQuiet W) {block : Block} :
    Safe W (awaitDecrypted block : Sync V _) :=
  .query fun s => hq s _ trivial

/-- A range that ends by the shutdown height gives blocks that may be put. -/
theorem queueBlocks_ok (hW : Bounded W shutdownHeight ok) {start stop : Nat}
    (hstop : ∀ H ∈ shutdownHeight, stop ≤ H) {s : S} :
    wp W (queueBlocks view start stop)
      (fun _ batch => ∀ block ∈ batch, ok block.claimedHeight) (fun _ _ => True) s := by
  refine wp_iterate (fun x _ => ∀ block ∈ x.2, ok block.claimedHeight) (by simp) ?_
  rintro ⟨pos, batch⟩ t hbatch
  simp only [wp_bind, wp_chainCall]
  refine ⟨hW.quiet _ _ trivial, fun a t' hstep => ?_⟩
  rcases a with e | _ | block
  · trivial
  · exact hbatch
  · have hblock : ok block.claimedHeight := hW.range hstep hstop
    simp only [id, ends_ok, wp_bind]
    refine wp_mono (fun _ _ _ => ?_) (fun _ _ h => h) (queueBlock_safe hW.quiet t')
    intro b hb
    rcases List.mem_append.mp hb with hb | hb
    · exact hbatch b hb
    · rw [List.mem_singleton.mp hb]
      exact hblock

/-- The scanned block is the one that was given to the scanner. -/
theorem fullScanBlock_block (hq : AllowsQuiet W) {height : Nat} {header : BlockHeader}
    {prior : BlockMetadata} {s : S} :
    wp W (fullScanBlock height header prior : Sync V _)
      (fun _ scanned => scanned.height = height ∧ scanned.hash = header.hash)
      (fun _ _ => True) s := by
  simp only [fullScanBlock, wp_query]
  refine ⟨hq _ _ trivial, fun a s' _ => ?_⟩
  rcases a with e | ⟨sapling, orchard, ironwood⟩
  · trivial
  · exact ⟨rfl, rfl⟩

/-- Scanning moves no block: every scanned block sits at a height of the batch. -/
theorem scanBatch_heights (hW : Bounded W shutdownHeight ok) {fromState : ChainState}
    {batch : List Block} (hbatch : ∀ block ∈ batch, ok block.claimedHeight) {s : S} :
    wp W (scanBatch fromState batch : Sync V _)
      (fun _ scanned => ∀ b ∈ scanned, ok b.height) (fun _ _ => True) s := by
  rw [scanBatch, wp_bind]
  refine wp_foldlM (fun _ (x : BlockMetadata × List ScannedBlock) _ => ∀ b ∈ x.2, ok b.height)
    (by simp) ?_
  rintro l block r ⟨prior, scanned⟩ t rfl hscanned
  refine wp_bind.mpr (wp_mono (fun t' _ _ => ?_) (fun _ _ h => h) (awaitDecrypted_safe hW.quiet t))
  refine wp_bind.mpr (wp_mono (fun t'' sb hsb => ?_) (fun _ _ h => h)
    (fullScanBlock_block hW.quiet))
  intro b hb
  rcases List.mem_append.mp hb with hb | hb
  · exact hscanned b hb
  · rw [List.mem_singleton.mp hb, hsb.1]
    exact hbatch block (by simp)

theorem scanBlocks_safe (hW : Bounded W shutdownHeight ok)
    {scanRange : ScanRange} :
    Safe W (scanBlocks view scanRange shutdownHeight) := by
  unfold scanBlocks
  split
  · exact .pure
  · rename_i boundary hclamp
    refine .bind (safe_chainCall fun s => hW.quiet s _ trivial) fun fromState => ?_
    cases fromState with
    | none => exact .bind (safe_chainCall fun s => hW.quiet s _ trivial) fun _ => .pure
    | some fromState =>
        refine .bind_of _ (fun _ => queueBlocks_ok hW (clampToBoundary_cont hclamp))
          fun batch hbatch => ?_
        refine .bind (safe_dbCall fun s => hW.quiet s _ trivial) fun _ => ?_
        refine .bind (transparentAddressIndex_safe hW.quiet) fun _ => ?_
        refine .bind_of _ (fun _ => scanBatch_heights hW hbatch) fun scanned hscanned => ?_
        exact .bind (safe_dbCall fun _ => hW.put hscanned) fun _ => .pure

theorem scanBlock_safe (hW : Bounded W shutdownHeight ok) {block : Block} :
    Safe W (scanBlock view block shutdownHeight) := by
  unfold scanBlock
  dsimp only
  split
  · exact .pure
  · rename_i hbelow
    have hok : ok block.claimedHeight := hW.below fun H hH => by
      obtain rfl : shutdownHeight = some H := hH
      simpa using hbelow
    refine .bind (safe_chainCall fun s => hW.quiet s _ trivial) fun fromState => ?_
    refine .bind (queueBlock_safe hW.quiet) fun _ => ?_
    refine .bind (safe_dbCall fun s => hW.quiet s _ trivial) fun _ => ?_
    refine .bind (transparentAddressIndex_safe hW.quiet) fun _ => ?_
    refine .bind (awaitDecrypted_safe hW.quiet) fun _ => ?_
    refine .bind_of _ (fun _ => fullScanBlock_block hW.quiet) fun scanned hscanned => ?_
    refine .bind (safe_dbCall fun _ => hW.put ?_) fun _ => .pure
    intro b hb
    rw [List.mem_singleton.mp hb, hscanned.1]
    exact hok

/-! ## The mempool -/

theorem streamMempool_safe (hnext : ∀ s, W.guard s (.mempoolNext view))
    (hstore : ∀ s tx, W.guard s (.decryptAndStoreTransaction tx none)) :
    Safe W (streamMempool view) := by
  refine .iterate fun _ => .bind (.ask hnext) fun tx => ?_
  cases tx with
  | none => exact .pure
  | some tx => exact .bind (safe_dbCall fun s => hstore s tx) fun _ => .pure

/-! ## The tasks -/

theorem initializeSync_safe (hW : Bounded W shutdownHeight ok) :
    Safe W (initializeSync shutdownHeight : Sync V _) := by
  refine .bind (updateSubtreeRoots_safe hW) fun _ => .iterate fun _ => ?_
  refine .bind (safe_chainCall fun s => hW.quiet s _ trivial) fun view => ?_
  refine .bind (safe_chainCall fun s => hW.quiet s _ trivial) fun currentTip => ?_
  refine .bind (safe_dbCall fun s => hW.quiet s _ trivial) fun _ => ?_
  refine .bind (safe_dbCall fun s => hW.quiet s _ trivial) fun ranges => ?_
  split
  · -- the best-effort scan of the tip goes through `scan_block`, as any other
    refine .bind ?_ fun _ => .pure
    unfold bestEffortTipScan
    split
    · refine .bind (safe_dbCall fun s => hW.quiet s _ trivial) fun metadata => ?_
      cases metadata with
      | some _ => exact .pure
      | none =>
          refine .bind (.attempt ?_) fun _ => .pure
          exact .bind (safe_chainCall fun s => hW.quiet s _ trivial) fun _ => scanBlock_safe hW
    · exact .pure
  · refine .bind (.attempt (scanBlocks_safe hW)) fun flow => ?_
    rcases flow with e | _ | _
    · dsimp only
      split
      · exact .bind (.ask fun s => hW.quiet s _ trivial) fun _ => .pure
      · exact .fail
    · exact .pure
    · exact .pure

theorem applyBlocks_safe (hW : Bounded W shutdownHeight ok) (hcrash : ∀ s, W.crash s)
    {start : Nat} {prevTip : ChainBlock} :
    Safe W (applyBlocks view start prevTip shutdownHeight) := by
  refine .iterate fun x => .mapErr ?_
  refine .bind (safe_chainCall fun s => hW.quiet s _ trivial) fun block => ?_
  cases block with
  | none => exact .pure
  | some block =>
      refine .bind (.check hcrash) fun _ => .bind (scanBlock_safe hW) fun flow => ?_
      cases flow with
      | brk _ => exact .pure
      | cont _ => exact .bind (safe_dbCall fun s => hW.quiet s _ trivial) fun _ => .pure

theorem applyTipChange_safe (hW : Bounded W shutdownHeight ok) (hcrash : ∀ s, W.crash s)
    {currentTip prevTip : ChainBlock} :
    Safe W (applyTipChange view currentTip prevTip shutdownHeight) := by
  refine .bind (.ask fun s => hW.quiet s _ trivial) fun _ => ?_
  refine .bind (.ask fun s => hW.quiet s _ trivial) fun _ => ?_
  refine .bind (.mapErr (locateForkPoint_safe fun s op h => hW.quiet s op h.quiet)) fun fork => ?_
  refine .bind (.check hcrash) fun _ => ?_
  split
  · exact applyBlocks_safe hW hcrash
  · refine .bind (.check hcrash) fun _ => ?_
    exact .bind (.mapErr (safe_dbCall fun s => hW.truncate s _)) fun _ => applyBlocks_safe hW hcrash

theorem catchUp_safe (hW : Bounded W shutdownHeight ok) (hcrash : ∀ s, W.crash s)
    {currentTip prevTip : ChainBlock} :
    Safe W (catchUp view currentTip prevTip shutdownHeight) := by
  unfold catchUp
  split
  · exact applyTipChange_safe hW hcrash
  · exact .pure

/-- The mempool is reached only past the check of the view's tip. -/
theorem followMempool_safe (hq : AllowsQuiet W) {currentTip : ChainBlock}
    {tipChanged : Bool}
    (hmempool : BelowShutdown shutdownHeight currentTip.height → Safe W (streamMempool view)) :
    Safe W (followMempool view currentTip tipChanged shutdownHeight) := by
  unfold followMempool
  split
  · exact .pure
  · rename_i hfilter
    have hbelow : BelowShutdown shutdownHeight currentTip.height := by
      intro H hH
      have := Option.filter_eq_none_iff.mp hfilter H hH
      simpa using this
    refine .bind (.bind (safe_chainCall fun s => hq s _ trivial) fun stream => ?_) fun _ => .pure
    cases stream with
    | some _ => exact hmempool hbelow
    | none =>
        dsimp only
        split
        · exact .pure
        · exact .ask fun s => hq s _ trivial

theorem steadyStateIteration_safe (hW : Bounded W shutdownHeight ok) (hcrash : ∀ s, W.crash s)
    {prevTip : ChainBlock} :
    Safe W (steadyStateIteration shutdownHeight prevTip : Steady V _) := by
  refine .bind (.mapErr (safe_chainCall fun s => hW.quiet s _ trivial)) fun view => ?_
  refine .bind_of (fun tip => BelowShutdown shutdownHeight tip.height →
    Safe W (streamMempool view)) (fun s => ?_) fun currentTip hmempool => ?_
  · simp only [leaving, wp_mapErr, wp_chainCall]
    refine ⟨hW.quiet _ _ trivial, fun a s' hstep => ?_⟩
    cases a with
    | error e => trivial
    | ok tip => exact hW.mempool hstep
  · refine .bind (catchUp_safe hW hcrash) fun x => ?_
    rcases x with ⟨prevTip', _ | _⟩
    · exact .pure
    · exact .bind (.mapErr (followMempool_safe hW.quiet hmempool)) fun _ => .pure

theorem recoverConflict_safe (hW : Bounded W shutdownHeight ok) {height : Nat} :
    Safe W (recoverConflict height : Sync V _) := by
  refine .bind (.query fun s => hW.quiet s _ trivial) fun _ => ?_
  refine .bind (safe_chainCall fun s => hW.quiet s _ trivial) fun _ => ?_
  refine .bind (locateForkPoint_safe fun s op h => hW.quiet s op h.quiet) fun _ => ?_
  exact .bind (safe_dbCall fun s => hW.truncate s _) fun _ => .pure

theorem handleError_safe (hW : Bounded W shutdownHeight ok) {prevTip : ChainBlock}
    {error : SyncError} : Safe W (handleError prevTip error : Sync V _) := by
  unfold handleError
  split
  · exact .bind (.ask fun s => hW.quiet s _ trivial) fun _ => .pure
  · split
    · refine .bind (.attempt (recoverConflict_safe hW)) fun r => ?_
      cases r <;> exact .pure
    · exact .pure

theorem steadyTurn_safe (hW : Bounded W shutdownHeight ok) (hcrash : ∀ s, W.crash s)
    {prevTip : ChainBlock} : Safe W (steadyTurn shutdownHeight prevTip : Sync V _) := by
  refine .bind (.bind (.attempt (steadyStateIteration_safe hW hcrash)) fun r => ?_)
    fun passEnd => ?_
  · rcases r with ⟨prevTip', error⟩ | ⟨prevTip', _ | _⟩
    · exact handleError_safe hW
    · exact .pure
    · exact .pure
  · cases passEnd with
    | again _ => exact .pure
    | shutdown _ _ => exact .pure
    | fatal _ _ => exact .fail

theorem steadyState_safe (hW : Bounded W shutdownHeight ok) (hcrash : ∀ s, W.crash s)
    {prevTip : ChainBlock} : Safe W (steadyState shutdownHeight prevTip : Sync V _) :=
  .bind (.ask fun s => hW.quiet s _ trivial) fun _ => .iterate fun _ => steadyTurn_safe hW hcrash

theorem recoverHistory_safe (hW : Bounded W shutdownHeight ok)
    {batchSize : Nat} :
    Safe W (recoverHistory batchSize shutdownHeight : Sync V _) := by
  refine .bind (.ask fun s => hW.quiet s _ trivial) fun _ => .iterate fun _ => ?_
  refine .bind (.ask fun s => hW.quiet s _ trivial) fun _ => ?_
  refine .bind (safe_dbCall fun s => hW.quiet s _ trivial) fun ranges => ?_
  split
  · exact .bind (.ask fun s => hW.quiet s _ trivial) fun _ => .pure
  · refine .bind (.iterate fun acc => ?_) fun _ => .pure
    cases acc with
    | none => exact .pure
    | some remaining =>
        refine .bind (safe_chainCall fun s => hW.quiet s _ trivial) fun view => ?_
        refine .bind (scanBlocks_safe hW) fun flow => ?_
        cases flow with
        | brk _ => exact .pure
        | cont _ =>
            refine .bind (safe_dbCall fun s => hW.quiet s _ trivial) fun latest => ?_
            split
            · exact .pure
            · exact .pure

/-- Servicing an address request stores nothing but what is fetched. -/
theorem serviceAddressRequest_safe (hq : AllowsQuiet W) {view : V} {request : AddressRequest}
    {viewTip : Nat} (hfetch : ∀ view txid, Safe W (fetchAndStore view txid : Sync V _)) :
    Safe W (serviceAddressRequest view request viewTip) := by
  refine .bind (safe_chainCall fun s => hq s _ trivial) fun chainUnspent => ?_
  refine .bind (safe_dbCall fun s => hq s _ trivial) fun ourOutputs => ?_
  split
  · refine .bind (safe_chainCall fun s => hq s _ trivial) fun txids => ?_
    refine .bind (.forM fun txid => .bind (hfetch view txid) fun _ => .pure) fun _ => ?_
    exact safe_dbCall fun s => hq s _ trivial
  · exact safe_dbCall fun s => hq s _ trivial

/-- Servicing a request stores nothing but what is fetched. -/
theorem serviceRequest_safe (hq : AllowsQuiet W) {spendIndex : Bool} {view : V} {viewTip : Nat}
    (hfetch : ∀ view txid, Safe W (fetchAndStore view txid : Sync V _))
    (request : TransactionDataRequest) :
    Safe W (serviceRequest spendIndex view viewTip request) := by
  cases request with
  | getStatus txid =>
      rw [serviceRequest]
      split
      · exact .pure
      · exact .bind (safe_chainCall fun s => hq s _ trivial) fun _ =>
          safe_dbCall fun s => hq s _ trivial
  | enhancement txid =>
      rw [serviceRequest]
      split
      · exact .pure
      · refine .bind (hfetch view txid) fun found => ?_
        cases found with
        | true => exact .pure
        | false => exact safe_dbCall fun s => hq s _ trivial
  | transactionsInvolvingAddress request =>
      rw [serviceRequest]
      split
      · exact .pure
      · exact .bind (serviceAddressRequest_safe hq hfetch).attempt fun _ => .pure
  | getSpendingTx outpoint =>
      rw [serviceRequest]
      split
      · refine .bind (.attempt (safe_chainCall fun s => hq s _ trivial)) fun r => ?_
        rcases r with e | _ | txid | _
        · exact .pure
        · exact safe_dbCall fun s => hq s _ trivial
        · exact .bind (hfetch view txid) fun _ => .pure
        · exact .pure
      · exact .pure

/-- The data requests store nothing but what they fetch. -/
theorem dataRequests_safe (hq : AllowsQuiet W) {spendIndex : Bool}
    (hfetch : ∀ view txid, Safe W (fetchAndStore view txid : Sync V _)) :
    Safe W (dataRequests spendIndex : Sync V _) := by
  unfold dataRequests
  refine .iterate fun _ => ?_
  refine .bind (.ask fun s => hq s _ trivial) fun _ => ?_
  refine .bind (safe_chainCall fun s => hq s _ trivial) fun view => ?_
  refine .bind (safe_dbCall fun s => hq s _ trivial) fun requests => ?_
  split
  · exact .pure
  · refine .bind (safe_chainCall fun s => hq s _ trivial) fun viewTip => ?_
    exact .bind (.forM (serviceRequest_safe hq hfetch)) fun _ => .pure

end

end Zallet
