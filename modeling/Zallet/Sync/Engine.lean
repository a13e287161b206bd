/-
# `Zallet.Sync.Engine` — the sync tasks

`components/sync.rs`: `initialize`, then three tasks that run side by side,
`steadyState` (follows the tip, streams the mempool), `recoverHistory` (scans
below the boundary) and `dataRequests` (fetches what the wallet asks for).

Two things about the translation.

* `&mut prev_tip`.  `steady_state_iteration` moves the caller's `prev_tip`
  even when it then fails, so the iteration returns it on both sides: with its
  result, and paired with its error (`leaving`).
* The body of `steady_state`'s loop is `steadyStatePass`, and the three ways
  out of a turn (round again, graceful shutdown, fatal error) are `PassEnd`.
-/
import Zallet.Sync.Locator
import Zallet.Sync.Steps
import Zallet.Prog.Threads

namespace Zallet

variable {V : Type}

open Prog

def updateBoundary (currentBoundary tipHeight : Nat) : Nat :=
  max currentBoundary (tipHeight - 100)

/-- Whether a sync error reflects a chain view that went stale mid-read. -/
def isRetryable : SyncError → Bool
  | .chain (.unavailable _) => true
  | _ => false

/-- Milliseconds to wait before re-pinning the chain view. -/
def reorgRetryBackoff : Nat := 200

/-! ## Startup -/

/-- The part of a suggested range that is scanned before the main tasks start. -/
def initialRange (startingBoundary : Nat) (r : ScanRange) : Option ScanRange :=
  if r.priority = .verify then some r
  else if ScanPriority.historic.rank ≤ r.priority.rank then r.truncateStart startingBoundary
  else none

/-- Commit metadata for the tip block from the view the tip was read from. -/
def scanTipBlock (chainView : V) (currentTip : ChainBlock)
    (shutdownHeight : Option Nat) : Sync V (ControlFlow Nat Unit) := do
  let tipBlock ← chainCall (.getBlock chainView currentTip.height) fun r =>
    r.bind fun o => o.elim
      (.error (.backend
        s!"chain view did not return its own tip block at height {currentTip.height}")) .ok
  scanBlock chainView tipBlock shutdownHeight

/-- The scan-range loop is about to exit: scan the tip if the wallet does not know it.
A failure of the scan itself is only logged. -/
def bestEffortTipScan (chainView : V) (currentTip : ChainBlock)
    (shutdownHeight : Option Nat) : Sync V Unit :=
  if 0 < currentTip.height then do
    match ← dbCall (.blockMetadata currentTip.height) id with
    | some _ => pure ()
    | none => do
        let _ ← attempt (scanTipBlock chainView currentTip shutdownHeight)
        pure ()
  else pure ()

/-- The body of `initialize`'s loop. -/
def initializeTurn (shutdownHeight : Option Nat) : Sync V (Unit ⊕ (ChainBlock × Nat)) := do
  let chainView ← chainCall .snapshot id
  let currentTip ← chainCall (.tip chainView) id
  dbCall (.updateChainTip currentTip.height) id
  let startingBoundary := updateBoundary 0 currentTip.height
  let ranges ← dbCall .suggestScanRanges id
  match (ranges.filterMap (initialRange startingBoundary)).head? with
  | none => do
      bestEffortTipScan chainView currentTip shutdownHeight
      pure (.inr (currentTip, startingBoundary))
  | some scanRange => do
      match ← attempt (scanBlocks chainView scanRange shutdownHeight) with
      | .ok (.brk _) => pure (.inr (currentTip, startingBoundary))
      | .ok (.cont _) => pure (.inl ())
      | .error error =>
          if isRetryable error then do
            perform (.sleep reorgRetryBackoff)
            pure (.inl ())
          else .fail error

/-- Prepares the wallet state for syncing. -/
def initializeSync (shutdownHeight : Option Nat) : Sync V (ChainBlock × Nat) := do
  updateSubtreeRoots
  iterate () fun _ => initializeTurn shutdownHeight

/-! ## The fork point -/

/-- How far back to step each time the wallet's history is found to be off the best chain. -/
def forkSearchStep : Nat := 10

/-- The next height to probe when walking back, and whether it is the birthday floor. -/
def rewindStep (height birthday : Nat) : Nat × Bool :=
  let next := max (height - forkSearchStep) birthday
  (next, next ≤ birthday)

/-- A probe missed: the birthday ends the search, from any other height it walks on. -/
def probeMissed (birthday : Nat) (next : Nat × Bool) : Sync V (Nat ⊕ ChainBlock) :=
  if next.2 then .fail (.walletDivergedBelowBirthday birthday) else pure (.inl next.1)

/-- Walks the wallet's own view of the chain back from `prevTip`, to the first of its blocks
whose hash is on the backend's best chain. -/
def stepBackToBestChain (chainView : V) (prevTip : ChainBlock) (birthday : Nat)
    (walletHash : Nat → Sync V (Option BlockHash)) : Sync V ChainBlock :=
  iterate prevTip.height fun height => do
    let next := rewindStep height birthday
    match ← walletHash next.1 with
    | none => probeMissed birthday next
    | some wh => do
        let bestChainHash ← chainCall (.getBlockHeader chainView next.1) id
        if bestChainHash.map (·.hash) = some wh then pure (.inr ⟨next.1, wh⟩)
        else probeMissed birthday next

/-- Locates the block from which to resume scanning. -/
def locateForkPoint (chainView : V) (prevTip : ChainBlock) : Sync V ChainBlock := do
  let walletBirthday ← dbCall .getWalletBirthday id
  let birthday := walletBirthday.getD 0
  let locator ← buildBlockLocator prevTip.height
  match ← chainCall (.findForkPoint chainView locator) id with
  | some forkPoint => pure forkPoint
  | none =>
      if locator.hashes = [] then pure prevTip
      else stepBackToBestChain chainView prevTip birthday fun height =>
        dbCall (.getBlockHash height) id

/-! ## Steady state -/

/-- `p`, when it fails, leaves `*prev_tip` at `prevTip`. -/
def leaving {α : Type} (prevTip : ChainBlock) (p : Sync V α) :
    Prog (syncSig V) (ChainBlock × SyncError) α :=
  p.mapErr fun e => (prevTip, e)

/-- Code that moves `prev_tip`. -/
abbrev Steady (V : Type) := Prog (syncSig V) (ChainBlock × SyncError)

/-- Notify the wallet of block connections. -/
def applyBlocks (chainView : V) (start : Nat) (prevTip : ChainBlock)
    (shutdownHeight : Option Nat) :
    Steady V (ChainBlock × ControlFlow Nat Unit) :=
  iterate (0, prevTip) fun (pos, prevTip) => leaving prevTip do
    match ← chainCall (.tryNext chainView (.toTip start) pos) id with
    | none => pure (.inr (prevTip, .cont ()))
    | some block => do
        let height := block.claimedHeight
        check (height = prevTip.height + 1) "block is not the next one"
        let currentBlock : ChainBlock := ⟨height, block.header.hash⟩
        match ← scanBlock chainView block shutdownHeight with
        | .brk boundary => pure (.inr (prevTip, .brk boundary))
        | .cont () => do
            dbCall (.updateChainTip height) id
            pure (.inl (pos + 1, currentBlock))

/-- Bring the wallet from `prevTip` to the tip of a view that has another tip. -/
def applyTipChange (chainView : V) (currentTip prevTip : ChainBlock)
    (shutdownHeight : Option Nat) :
    Steady V (ChainBlock × ControlFlow Nat Unit) := do
  let _ ← perform (.fetchUpdateBoundary currentTip.height)
  perform .notifyOne
  let forkPoint ← leaving prevTip (locateForkPoint chainView prevTip)
  check (forkPoint.height ≤ currentTip.height) "fork point is above the tip"
  if forkPoint = prevTip then
    applyBlocks chainView (forkPoint.height + 1) prevTip shutdownHeight
  else do
    check (forkPoint.height < prevTip.height) "fork point is not below the previous tip"
    -- the height the truncation reached is not looked at
    let _ ← leaving prevTip (dbCall (.truncateToHeight forkPoint.height) id)
    applyBlocks chainView (forkPoint.height + 1) forkPoint shutdownHeight

/-- Store the view's mempool until the stream ends. -/
def streamMempool (chainView : V) : Sync V Unit :=
  iterate () fun _ => do
    match ← perform (.mempoolNext chainView) with
    | none => pure (.inr ())
    | some tx => do
        dbCall (.decryptAndStoreTransaction tx none) id
        pure (.inl ())

/-- Stream the mempool, or pause when the view has none to offer. -/
def awaitTipChange (chainView : V) (tipChanged : Bool) : Sync V Unit := do
  match ← chainCall (.getMempoolStream chainView) id with
  | some _ => streamMempool chainView
  | none => if tipChanged then pure () else perform (.sleep 500)

/-- The part of an iteration after the blocks were applied. -/
def followMempool (chainView : V) (currentTip : ChainBlock) (tipChanged : Bool)
    (shutdownHeight : Option Nat) : Sync V (ControlFlow Nat Unit) :=
  match shutdownHeight.filter (fun h => h ≤ currentTip.height) with
  | some boundary => pure (.brk boundary)
  | none => do
      awaitTipChange chainView tipChanged
      pure (.cont ())

/-- The part of an iteration before: nothing to do when the tip is the wallet's own. -/
def catchUp (chainView : V) (currentTip prevTip : ChainBlock) (shutdownHeight : Option Nat) :
    Steady V (ChainBlock × ControlFlow Nat Unit) :=
  if currentTip ≠ prevTip then applyTipChange chainView currentTip prevTip shutdownHeight
  else pure (prevTip, .cont ())

/-- Performs one pass of `steady_state`. -/
def steadyStateIteration (shutdownHeight : Option Nat) (prevTip : ChainBlock) :
    Steady V (ChainBlock × ControlFlow Nat Unit) := do
  let chainView ← leaving prevTip (chainCall .snapshot id)
  let currentTip ← leaving prevTip (chainCall (.tip chainView) id)
  match ← catchUp chainView currentTip prevTip shutdownHeight with
  | (prevTip', .brk boundary) => pure (prevTip', .brk boundary)
  | (prevTip', .cont ()) => do
      let flow ← leaving prevTip'
        (followMempool chainView currentTip (currentTip ≠ prevTip) shutdownHeight)
      pure (prevTip', flow)

/-- A block conflict at `height`: search for the fork point below it and truncate to it. -/
def recoverConflict (height : Nat) : Sync V ChainBlock := do
  let rewindHeight := height - 1
  let hash ← query (.getBlockHash rewindHeight) fun r =>
    (r.mapError .other).bind fun o =>
      o.elim (.error (.walletDivergedBelowBirthday rewindHeight)) .ok
  let chainView ← chainCall .snapshot id
  let forkPoint ← locateForkPoint chainView ⟨rewindHeight, hash⟩
  let _ ← dbCall (.truncateToHeight forkPoint.height) id
  pure forkPoint

/-- How a turn of `steady_state`'s loop ended, and where it left `prev_tip`. -/
inductive PassEnd where
  | again (prevTip : ChainBlock)
  | shutdown (prevTip : ChainBlock) (height : Nat)
  | fatal (prevTip : ChainBlock) (error : SyncError)
  deriving DecidableEq, Repr

def PassEnd.prevTip : PassEnd → ChainBlock
  | .again p | .shutdown p _ | .fatal p _ => p

/-- What `steady_state` does with the error of an iteration. -/
def handleError (prevTip : ChainBlock) (error : SyncError) : Sync V PassEnd :=
  if isRetryable error then do
    perform (.sleep reorgRetryBackoff)
    pure (.again prevTip)
  else match error with
    | .other (.blockConflict height) => do
        match ← attempt (recoverConflict height) with
        | .ok forkPoint => pure (.again forkPoint)
        | .error e => pure (.fatal prevTip e)
    | error => pure (.fatal prevTip error)

/-- One turn of `steady_state`'s loop. -/
def steadyStatePass (shutdownHeight : Option Nat) (prevTip : ChainBlock) :
    Sync V PassEnd := do
  match ← attempt (steadyStateIteration shutdownHeight prevTip) with
  | .ok (prevTip, .cont ()) => pure (.again prevTip)
  | .ok (prevTip, .brk height) => pure (.shutdown prevTip height)
  | .error (prevTip, error) => handleError prevTip error

/-- The body of `steady_state`'s loop. -/
def steadyTurn (shutdownHeight : Option Nat) (prevTip : ChainBlock) :
    Sync V (ChainBlock ⊕ Unit) := do
  match ← steadyStatePass shutdownHeight prevTip with
  | .again prevTip => pure (.inl prevTip)
  | .shutdown _ _ => pure (.inr ())
  | .fatal _ error => .fail error

/-- Keeps the wallet state up-to-date with the chain tip, and handles the mempool. -/
def steadyState (shutdownHeight : Option Nat) (prevTip : ChainBlock) : Sync V Unit := do
  perform .notifyOne
  iterate prevTip (steadyTurn shutdownHeight)

/-! ## History recovery -/

/-- The next batch of what remains of a range, and what then remains. -/
def nextBatch (batchSize : Nat) (remaining : ScanRange) : ScanRange × Option ScanRange :=
  match remaining.splitAt (remaining.start + batchSize) with
  | some (cur, next) => (cur, some next)
  | none => (remaining, none)

/-- Scan the next batch.  At the divergence height, or when something more urgent is
suggested, what remains of the range is dropped. -/
def scanNextBatch (batchSize : Nat) (shutdownHeight : Option Nat) (remaining : ScanRange) :
    Sync V (Option ScanRange ⊕ Unit) := do
  let batch := nextBatch batchSize remaining
  let chainView ← chainCall .snapshot id
  match ← scanBlocks chainView batch.1 shutdownHeight with
  | .brk _ => pure (.inr ())
  | .cont () => do
      let latestRanges ← dbCall .suggestScanRanges id
      if latestRanges.head?.any (fun r => batch.1.priority.rank < r.priority.rank) then
        pure (.inr ())
      else pure (.inl batch.2)

/-- One step of the iterator over a range's batches: none is left, or the next is scanned. -/
def batchTurn (batchSize : Nat) (shutdownHeight : Option Nat) :
    Option ScanRange → Sync V (Option ScanRange ⊕ Unit)
  | none => pure (.inr ())
  | some remaining => scanNextBatch batchSize shutdownHeight remaining

/-- Limit the number of blocks downloaded and scanned at any one time. -/
def scanBatches (batchSize : Nat) (shutdownHeight : Option Nat) (scanRange : ScanRange) :
    Sync V Unit :=
  iterate (some scanRange) (batchTurn batchSize shutdownHeight)

/-- One turn of `recover_history`'s loop: the first suggested range with a part below the
boundary, or a pause when there is none. -/
def recoverTurn (batchSize : Nat) (shutdownHeight : Option Nat) : Sync V (Unit ⊕ Unit) := do
  let upperBoundary ← perform .loadBoundary
  let ranges ← dbCall .suggestScanRanges id
  match (ranges.filterMap (·.truncateEnd upperBoundary)).head? with
  | none => do
      perform .intervalTick
      pure (.inl ())
  | some scanRange => do
      scanBatches batchSize shutdownHeight scanRange
      pure (.inl ())

/-- Recovers historic wallet state. -/
def recoverHistory (batchSize : Nat) (shutdownHeight : Option Nat) : Sync V Unit := do
  perform .intervalTick
  iterate () fun _ => recoverTurn batchSize shutdownHeight

/-! ## Data requests -/

/-- The half-open block range to query for an address request, and the height to report as
the highest block inspected. -/
def addressRequestBounds (start : Nat) (stop : Option Nat)
    (viewTip : Nat) : (Nat × Nat) × Nat :=
  let tipExclusive := viewTip + 1
  let stop := stop.elim tipExclusive fun e => min e tipExclusive
  let stop := max stop start
  ((start, stop), stop - 1)

/-- Fetch a transaction and store it, with its mined height, if the chain knows it. -/
def fetchAndStore (chainView : V) (txid : TxId) : Sync V Bool := do
  match ← chainCall (.getTransaction chainView txid) id with
  | some tx => do
      dbCall (.decryptAndStoreTransaction tx.inner tx.minedHeight) id
      pure true
  | none => pure false

/-- Services a spend-search request on a backend without a per-outpoint spend index. -/
def serviceAddressRequest (chainView : V) (request : AddressRequest) (viewTip : Nat) :
    Sync V Unit := do
  let ((start, stop), asOfHeight) :=
    addressRequestBounds request.blockRangeStart request.blockRangeEnd viewTip
  let chainUnspent ← chainCall (.getAddressUnspentOutpoints chainView request.address) id
  let ourOutputs ← dbCall (.getSpendableTransparentOutputs request.address (viewTip + 1)) id
  if ourOutputs.any fun outpoint => ¬ chainUnspent.contains outpoint then do
    let txids ← chainCall (.getAddressTxIds chainView request.address start stop) id
    forM txids fun txid => do
      let _ ← fetchAndStore chainView txid
      pure ()
    dbCall (.notifyAddressChecked request asOfHeight) id
  else dbCall (.notifyAddressChecked request asOfHeight) id

/-- Services one data request; `spendIndex` is the cargo feature of that name. -/
def serviceRequest (spendIndex : Bool) (chainView : V) (viewTip : Nat) :
    TransactionDataRequest → Sync V Unit
  | .getStatus txid =>
      if txid.isNull then pure ()
      else do
        let status ← chainCall (.getTransactionStatus chainView txid) id
        dbCall (.setTransactionStatus txid status) id
  | .enhancement txid =>
      if txid.isNull then pure ()
      else do
        if ← fetchAndStore chainView txid then pure ()
        else dbCall (.setTransactionStatus txid .txidNotRecognized) id
  | .transactionsInvolvingAddress request =>
      if spendIndex then pure ()
      else do
        let _ ← attempt (serviceAddressRequest chainView request viewTip)
        pure ()
  | .getSpendingTx outpoint =>
      if spendIndex then do
        match ← attempt (chainCall (.outpointSpendStatus chainView outpoint) id) with
        | .ok .unspent => dbCall (.notifyOutputVerifiedUnspent outpoint viewTip) id
        | .ok (.spentBy txid) => do
            let _ ← fetchAndStore chainView txid
            pure ()
        | .ok .spentSpenderUnknown => pure ()
        | .error (_ : SyncError) => pure ()
      else pure ()

/-- Fetches information that the wallet requests to complete its view of transaction history. -/
def dataRequests (spendIndex : Bool) : Sync V Unit :=
  iterate () fun _ => do
    perform .notified
    let chainView ← chainCall .snapshot id
    let requests ← dbCall .transactionDataRequests id
    if requests = [] then pure (.inl ())
    else do
      let viewTip ← chainCall (.tip chainView) id
      forM requests (serviceRequest spendIndex chainView viewTip.height)
      pure (.inl ())

/-! ## All of it -/

structure SyncConfig where
  shutdownHeight : Option Nat
  recoverBatchSize : Nat
  spendIndex : Bool
  deriving DecidableEq, Repr

inductive Task where
  | steadyState | recoverHistory | dataRequests
  deriving DecidableEq, Repr

/-- The ongoing tasks, spawned once `initialize` returned its tip. -/
def tasks (config : SyncConfig) (startingTip : ChainBlock) : Task → Sync V Unit
  | .steadyState => steadyState config.shutdownHeight startingTip
  | .recoverHistory => recoverHistory config.recoverBatchSize config.shutdownHeight
  | .dataRequests => dataRequests config.spendIndex

/-- A run of the sync engine: `initialize`, and then any interleaving of the tasks. -/
inductive SyncRun (config : SyncConfig) : SyncTrace V → Prop
  | starting {tr : SyncTrace V} {q : Sync V (ChainBlock × Nat)} :
      Run (initializeSync config.shutdownHeight) tr q → SyncRun config tr
  | running {tr : SyncTrace V} {tr' : List (Task × SyncEvent V)} {startingTip : ChainBlock}
      {startingBoundary : Nat} {qs : Task → Sync V Unit} :
      Run (initializeSync config.shutdownHeight) tr (.ret (startingTip, startingBoundary)) →
      Interleave (tasks config startingTip) tr' qs →
      SyncRun config (tr ++ tr'.map Prod.snd)

end Zallet
