/-
# `Zallet.Zebra.View` — the pinned view of the Zebra backend

`ZebraChainView` of `backends/zebra/src/chain.rs`, method by method.  Finalized
heights are read by height; the others are pinned to the captured tip by
walking headers down from the lowest hash already known (`resolve`).  What is
left out: `params` (only to read bytes), and the polling inside the mempool
stream, which is the subject of `Zallet.Zebra.Mempool`.

`ZebraAnswer` ties the view to the engine: the engine's calls on such a view
are answered by outcomes of these methods.
-/
import Zallet.Zebra.Reader

namespace Zallet

open Prog

/-- The maximum reorg depth; blocks deeper than this below the captured tip are treated as
finalized and served by height. -/
def maxReorgDepth : Nat := 1000

/-- A pinned view of the chain as of a captured tip. -/
structure ZebraChainView where
  tip : ChainBlock
  finalizedFloor : Nat
  floor_eq : finalizedFloor = tip.height - maxReorgDepth
  deriving DecidableEq

/-- The view captured at `tip`. -/
def ZebraChainView.capture (tip : ChainBlock) : ZebraChainView :=
  ⟨tip, tip.height - maxReorgDepth, rfl⟩

/-- `Chain::snapshot`. -/
def zebraSnapshot : Reads ZebraChainView := do
  let tip ← query (.tip) fun r => r.bind fun o =>
    o.elim (.error (.unavailable "the chain state has no tip yet")) .ok
  onCache (.cacheInsert tip.height tip.hash)
  pure (.capture tip)

namespace ZebraChainView

/-! ## Heights to hashes -/

/-- The parent of a block that must still be known. -/
def parentOf (hash : BlockHash) : Reads BlockHash :=
  query (.blockHeaderByHash hash) fun r => r.bind fun o =>
    o.elim (.error (.unavailable "pinned block reorged away during resolve"))
      fun header => .ok header.previousBlockHash

/-- Walk down from a block above `height`, memoizing every step. -/
def walkDown (height : Nat) (start : Nat × BlockHash) : Reads BlockHash :=
  iterate start fun cur =>
    if height < cur.1 then do
      let parent ← parentOf cur.2
      onCache (.cacheInsert (cur.1 - 1) parent)
      pure (.inl (cur.1 - 1, parent))
    else pure (.inr cur.2)

/-- The pinned hash at a non-finalized height. -/
def resolvePinned (height : Nat) : Reads BlockHash := do
  match ← onCache (.cacheGet height) with
  | some hash => pure hash
  | none => do
      match ← onCache (.cacheFrom height) with
      | some start => walkDown height start
      | none => .crash "the tip is always cached at or above any non-finalized height"

/-- The pinned hash at `height` for this view, or `None` if above the captured tip. -/
def resolve (view : ZebraChainView) (height : Nat) : Reads (Option BlockHash) :=
  if view.tip.height < height then pure none
  else if height ≤ view.finalizedFloor then query (.bestChainBlockHash height) id
  else do
    let hash ← resolvePinned height
    pure (some hash)

/-! ## Blocks -/

def getBlockHeader (view : ZebraChainView) (height : Nat) : Reads (Option BlockHeader) := do
  match ← view.resolve height with
  | none => pure none
  | some hash =>
      query (.rawBlockByHash hash) fun r => r.bind fun o =>
        o.elim (.ok none) fun raw => (raw.header.mapError .invalidData).map some

def getBlock (view : ZebraChainView) (height : Nat) : Reads (Option Block) := do
  match ← view.resolve height with
  | none => pure none
  | some hash =>
      query (.rawBlockByHash hash) fun r => r.bind fun o =>
        o.elim (.ok none) fun raw => (raw.block.mapError .invalidData).map some

/-- The step of `stream_blocks_inner` at `height`. -/
def streamStep (view : ZebraChainView) (stop height : Nat) : Reads (Option Block) :=
  if stop < height then pure none else view.getBlock height

/-- The item of a stream after `pos` others. -/
def streamNext (view : ZebraChainView) (pos : Nat) : BlockStream → Reads (Option Block)
  | .toTip start => view.streamStep view.tip.height (start + pos)
  | .range start stop => view.streamStep (stop - 1) (start + pos)

/-! ## Tree states -/

/-- A pool's tree from its bytes.  No bytes mean that the pool was not yet active, for a
finalized block; for any other, that it reorged away. -/
def readTree (pinnedFinalized : Bool) (gone : String) :
    Except ChainError (Option RawTree) → Except ChainError Tree
  | .ok (some bytes) => bytes.tree.mapError .invalidData
  | .ok none => if pinnedFinalized then .ok .empty else .error (.unavailable gone)
  | .error e => .error e

def treeStateAsOf (view : ZebraChainView) (height : Nat) : Reads (Option ChainState) := do
  match ← view.resolve height with
  | none => pure none
  | some hash => do
      let pinnedFinalized := decide (height ≤ view.finalizedFloor)
      let finalSaplingTree ← query (.saplingTreeBytes hash)
        (readTree pinnedFinalized "pinned sapling treestate reorged away")
      let finalOrchardTree ← query (.orchardTreeBytes hash)
        (readTree pinnedFinalized "pinned orchard treestate reorged away")
      let finalIronwoodTree ← query (.ironwoodTreeBytes hash)
        (readTree pinnedFinalized "pinned ironwood treestate reorged away")
      pure (some ⟨height, hash, finalSaplingTree, finalOrchardTree, finalIronwoodTree⟩)

/-! ## The tip, the fork point and the mempool -/

def getTip (view : ZebraChainView) : Reads ChainBlock := pure view.tip

def findForkPoint (locator : BlockLocator) : Reads (Option ChainBlock) :=
  query (.findForkPoint locator) id

/-- `None` when the tip already moved past the captured view. -/
def getMempoolStream (view : ZebraChainView) : Reads (Option Unit) := do
  let currentTip ← query .tip id
  if currentTip.map (·.hash) = some view.tip.hash then pure (some ()) else pure none

/-! ## Transactions -/

/-- `convert::transaction`. -/
def parseTx (raw : RawTx) (parseHeight : Nat) : Except ChainError Transaction :=
  (raw.read parseHeight).mapError .invalidData

def minedTx (view : ZebraChainView) (mined : MinedTxInfo) : Reads ChainTx := do
  let inner ← ofExcept id (parseTx mined.raw mined.height)
  let blockHash ← view.resolve mined.height
  pure ⟨inner, blockHash, some mined.height, some mined.blockTime⟩

def sideTx (view : ZebraChainView) (side : SideTxInfo) : Reads ChainTx := do
  let inner ← ofExcept id (parseTx side.raw (view.tip.height + 1))
  pure ⟨inner, some side.blockHash, none, none⟩

/-- `get_raw_mempool` of the validator. -/
def rawMempool : Reads (List TxId) := query .getRawMempool fun r => r.mapError .backend

def mempoolTx (view : ZebraChainView) (txid : TxId) : Reads (Option ChainTx) := do
  let mempool ← rawMempool
  if txid ∈ mempool then do
    let raw ← query (.getRawTransaction txid) fun r =>
      (r.mapError .backend).bind fun decoded => decoded.mapError .invalidData
    let inner ← ofExcept id (parseTx raw (view.tip.height + 1))
    pure (some ⟨inner, none, none, none⟩)
  else pure none

/-- Best chain, then side chains, then the mempool. -/
def getTransaction (view : ZebraChainView) (txid : TxId) : Reads (Option ChainTx) := do
  match ← query (.transaction txid) id with
  | some mined => do
      let tx ← view.minedTx mined
      pure (some tx)
  | none => do
      match ← query (.sideChainTransaction txid) id with
      | some side => do
          let tx ← view.sideTx side
          pure (some tx)
      | none => view.mempoolTx txid

def getTransactionStatus (txid : TxId) : Reads TransactionStatus := do
  match ← query (.transaction txid) id with
  | some mined => pure (.mined mined.height)
  | none => do
      match ← query (.sideChainTransaction txid) id with
      | some _ => pure .notInMainChain
      | none => do
          let mempool ← rawMempool
          pure (if txid ∈ mempool then .notInMainChain else .txidNotRecognized)

def outpointSpendStatus (outpoint : OutPoint) : Reads SpendStatus := do
  if ← query (.isUnspent outpoint) id then pure .unspent
  else do
    match ← query (.spendingTransaction outpoint) id with
    | some txid => pure (.spentBy txid)
    | none => pure .spentSpenderUnknown

def blockHeight (hash : BlockHash) : Reads (Option Nat) :=
  query (.blockHeaderByHash hash) fun r => r.map fun o => o.map (·.height)

end ZebraChainView

/-! ## Serving the engine -/

/-- The engine's calls on Zebra views are answered by the views' methods, when all they are told
satisfies `A`. -/
def ZebraAnswer (A : ReaderEvent → Prop) : SyncEvent ZebraChainView → Prop
  | ⟨.snapshot, r⟩ => Outcome A zebraSnapshot r
  | ⟨.tip view, r⟩ => Outcome A view.getTip r
  | ⟨.findForkPoint _ locator, r⟩ => Outcome A (ZebraChainView.findForkPoint locator) r
  | ⟨.treeStateAsOf view height, r⟩ => Outcome A (view.treeStateAsOf height) r
  | ⟨.getBlockHeader view height, r⟩ => Outcome A (view.getBlockHeader height) r
  | ⟨.getBlock view height, r⟩ => Outcome A (view.getBlock height) r
  | ⟨.tryNext view stream pos, r⟩ => Outcome A (view.streamNext pos stream) r
  | ⟨.getMempoolStream view, r⟩ => Outcome A view.getMempoolStream r
  | ⟨.getTransaction view txid, r⟩ => Outcome A (view.getTransaction txid) r
  | ⟨.getTransactionStatus _ txid, r⟩ => Outcome A (ZebraChainView.getTransactionStatus txid) r
  | ⟨.outpointSpendStatus _ outpoint, r⟩ =>
      Outcome A (ZebraChainView.outpointSpendStatus outpoint) r
  | _ => True

end Zallet
