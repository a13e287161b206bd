/-
# `Zallet.Zaino.Chain` — the chain of a Zaino view

The rest of `ZainoChainView` in `backends/zaino/src/chain.rs`: the fork point,
tree states, blocks and their streams, and the lookups by address.  Again each
call of the index is an operation.  A stream is asked for once, and the index
answers with all that it will yield.

What is left out is the mempool stream, which is the index's own with what
cannot be read of it dropped.
-/
import Zallet.Zaino.View

namespace Zallet

open Prog

/-! ## The chain index -/

/-- A treestate: the bytes of each pool's tree, where the pool has one. -/
structure Treestate where
  sapling : Option RawTree
  orchard : Option RawTree
  ironwood : Option RawTree

inductive ZainoOp where
  | findForkPoint (snapshot : ChainIndexSnapshot) (hash : BlockHash)
  | getBlockHash (snapshot : ChainIndexSnapshot) (height : Nat)
  | getTreestate (hash : BlockHash)
  | getBlockHeight (snapshot : ChainIndexSnapshot) (hash : BlockHash)
  | getAddressUtxos (address : TransparentAddress)
  | getAddressTxids (address : TransparentAddress) (start stop : Nat)
  deriving DecidableEq

abbrev ZainoOp.Ans : ZainoOp → Type
  | .findForkPoint _ _ => Except String (Option ChainBlock)
  | .getBlockHash _ _ => Except String (Option BlockHash)
  | .getTreestate _ => Except String Treestate
  | .getBlockHeight _ _ => Except String (Option Nat)
  | .getAddressUtxos _ => Except String (List OutPoint)
  | .getAddressTxids _ _ _ => Except String (List TxId)

abbrev zainoSig : Prog.Sig := ⟨ZainoOp, ZainoOp.Ans⟩

abbrev ZainoReads := Prog zainoSig ChainError

abbrev ZainoEvent := Prog.Event zainoSig

namespace ZainoChainView

/-- A call of the index, `.await.map_err(ChainError::backend)?`. -/
def chainIndexCall {α : Type} (op : ZainoOp) (f : zainoSig.Ans op → Except String α) :
    ZainoReads α :=
  .query op fun a => (f a).mapError .backend

/-! ## The fork point -/

/-- The loop over the locator. -/
def firstFork (view : ZainoChainView) : List BlockHash → ZainoReads (Option ChainBlock)
  | [] => pure none
  | knownTip :: rest => do
      match ← chainIndexCall (.findForkPoint view.snapshot knownTip) id with
      | some fork => pure (some fork)
      | none => view.firstFork rest

def findForkPoint (view : ZainoChainView) (locator : BlockLocator) :
    ZainoReads (Option ChainBlock) := view.firstFork locator.hashes

/-! ## Tree states -/

/-- A pool's tree, which is empty where the index has none. -/
def poolTreeOf : Option RawTree → Except ChainError Tree
  | none => .ok .empty
  | some bytes => bytes.tree.mapError .backend

def treeStateAsOf (view : ZainoChainView) (height : Nat) : ZainoReads (Option ChainState) := do
  match ← chainIndexCall (.getBlockHash view.snapshot height) id with
  | none => pure none
  | some hash => do
      let treestate ← chainIndexCall (.getTreestate hash) id
      let finalSaplingTree ← ofExcept id (poolTreeOf treestate.sapling)
      let finalOrchardTree ← ofExcept id (poolTreeOf treestate.orchard)
      let finalIronwoodTree ← ofExcept id (poolTreeOf treestate.ironwood)
      pure (some ⟨height, hash, finalSaplingTree, finalOrchardTree, finalIronwoodTree⟩)

/-! ## Blocks -/

def getBlock (view : ZainoChainView) (height : Nat) : IndexReads (Option Block) :=
  view.getBlockInner height fun bytes => bytes.block.mapError .backend

def streamItem (item : Except String RawBlock) : Except ChainError Block :=
  (item.mapError blockFetchError).bind fun bytes => bytes.block.mapError .invalidData

/-- What a stream from `start` to `stop` yields. -/
def streamBlocksInner (view : ZainoChainView) (start : Nat) (stop : Option Nat) :
    IndexReads (List (Except ChainError Block)) :=
  query (.getBlockRange view.snapshot start stop) fun items =>
    .ok (items.elim [] (·.map streamItem))

def streamBlocksToTip (view : ZainoChainView) (start : Nat) :
    IndexReads (List (Except ChainError Block)) := view.streamBlocksInner start none

/-- The end of the range is exclusive; subtracting from it saturates. -/
def streamBlocks (view : ZainoChainView) (start stop : Nat) :
    IndexReads (List (Except ChainError Block)) := view.streamBlocksInner start (some (stop - 1))

def blockHeight (view : ZainoChainView) (hash : BlockHash) : ZainoReads (Option Nat) :=
  chainIndexCall (.getBlockHeight view.snapshot hash) id

/-! ## Addresses -/

def getAddressUnspentOutpoints (address : TransparentAddress) : ZainoReads (List OutPoint) :=
  chainIndexCall (.getAddressUtxos address) id

def getAddressTxIds (address : TransparentAddress) (start stop : Nat) : ZainoReads (List TxId) :=
  if stop ≤ start then pure []
  else chainIndexCall (.getAddressTxids address start (stop - 1)) id

end ZainoChainView

/-! ## Serving the engine -/

/-- The engine's calls on Zaino views are answered by the views' methods, when all they are told
satisfies `A` and `B`. -/
def ZainoAnswer (A : IndexEvent → Prop) (B : ZainoEvent → Prop) : SyncEvent ZainoChainView → Prop
  | ⟨.tip view, r⟩ => Outcome A view.getTip r
  | ⟨.findForkPoint view locator, r⟩ => Outcome B (view.findForkPoint locator) r
  | ⟨.treeStateAsOf view height, r⟩ => Outcome B (view.treeStateAsOf height) r
  | ⟨.getBlockHeader view height, r⟩ => Outcome A (view.getBlockHeader height) r
  | ⟨.getBlock view height, r⟩ => Outcome A (view.getBlock height) r
  | ⟨.getTransaction view txid, r⟩ => Outcome A (view.getTransaction txid) r
  | ⟨.getTransactionStatus view txid, r⟩ => Outcome A (view.getTransactionStatus txid) r
  | ⟨.getAddressUnspentOutpoints _ address, r⟩ =>
      Outcome B (ZainoChainView.getAddressUnspentOutpoints address) r
  | ⟨.getAddressTxIds _ address start stop, r⟩ =>
      Outcome B (ZainoChainView.getAddressTxIds address start stop) r
  | _ => True

end Zallet
