/-
# `Zallet.Zaino.View` — a view of the Zaino backend

The part of `backends/zaino/src/chain.rs` that looks transactions up, and the
reads it rests on.  The chain index is Zaino's own and not in the repository:
its calls are the operations here, each about the snapshot the view holds.  An
index keeps orphaned blocks too, so a transaction has a place on the best chain
or none, and any number of other places.
-/
import Zallet.Zebra.Reader
import Mathlib.Data.List.Infix

namespace Zallet

open Prog

/-! ## The chain index -/

/-- A snapshot of the chain index. -/
structure ChainIndexSnapshot where
  id : Nat
  deriving DecidableEq, Repr

/-- Where on the best chain, or about to enter it, a transaction is. -/
inductive BestChainLocation where
  | block (hash : BlockHash) (height : Nat)
  | mempool
  deriving DecidableEq, Repr

/-- Where off the best chain a transaction is. -/
inductive NonBestChainLocation where
  | block (hash : BlockHash) (height : Nat)
  | mempool
  deriving DecidableEq, Repr

/-- A transaction's place on the best chain and its others, in the order they are iterated. -/
abbrev TxLocations := Option BestChainLocation × List NonBestChainLocation

/-- A transaction's bytes; where Zaino names the consensus branch, what reading them at it gives. -/
structure RawIndexTx where
  raw : RawTx
  branched : Option (Except String Transaction)

inductive IndexOp where
  | bestChaintip (snapshot : ChainIndexSnapshot)
  | getRawTransaction (snapshot : ChainIndexSnapshot) (txid : TxId)
  | getTransactionStatus (snapshot : ChainIndexSnapshot) (txid : TxId)
  | getBlockRange (snapshot : ChainIndexSnapshot) (start : Nat) (stop : Option Nat)
  deriving DecidableEq

abbrev IndexOp.Ans : IndexOp → Type
  | .bestChaintip _ => Except String ChainBlock
  | .getRawTransaction _ _ => Except String (Option RawIndexTx)
  | .getTransactionStatus _ _ => Except String TxLocations
  | .getBlockRange _ _ _ => Option (List (Except String RawBlock))

/-- The interface of a Zaino view. -/
abbrev indexSig : Prog.Sig := ⟨IndexOp, IndexOp.Ans⟩

/-- The view's code. -/
abbrev IndexReads := Prog indexSig ChainError

abbrev IndexEvent := Prog.Event indexSig

abbrev IndexTrace := Prog.Trace indexSig

/-- Classifies a block-fetch error: the message of a block that a reorg removed is transient. -/
def blockFetchError (e : String) : ChainError :=
  if "block height not in best chain".toList <:+: e.toList then .unavailable e else .backend e

/-! ## The view -/

/-- A stable view of the chain as of a particular chain tip. -/
structure ZainoChainView where
  snapshot : ChainIndexSnapshot
  deriving DecidableEq

namespace ZainoChainView

/-- A call of the index, `.await.map_err(ChainError::backend)?`. -/
def indexCall {α : Type} (op : IndexOp) (f : indexSig.Ans op → Except String α) : IndexReads α :=
  .query op fun a => (f a).mapError .backend

def getTip (view : ZainoChainView) : IndexReads ChainBlock :=
  indexCall (.bestChaintip view.snapshot) id

/-- The block at `height`, its bytes read by `f`. -/
def getBlockInner {α : Type} (view : ZainoChainView) (height : Nat)
    (f : RawBlock → Except ChainError α) : IndexReads (Option α) :=
  query (.getBlockRange view.snapshot height (some height)) fun
    | none | some [] => .ok none
    | some (item :: _) => (item.mapError blockFetchError).bind fun bytes => (f bytes).map some

def getBlockHeader (view : ZainoChainView) (height : Nat) : IndexReads (Option BlockHeader) :=
  view.getBlockInner height fun bytes => bytes.header.mapError .backend

/-! ## Transactions -/

/-- Parse a transaction, at the branch of the next block where Zaino names none. -/
def readTx (view : ZainoChainView) (tx : RawIndexTx) : IndexReads Transaction :=
  match tx.branched with
  | some read => ofExcept id (read.mapError .backend)
  | none => do
      let tip ← view.getTip
      ofExcept id ((tx.raw.read (tip.height + 1)).mapError .backend)

/-- The block and the height reported of a transaction, and whether it is in the best chain. -/
def reportedPlace : TxLocations → Option BlockHash × Option Nat × Bool
  | (some (.block hash height), _) => (some hash, some height, true)
  | (some .mempool, _) => (none, none, false)
  | (none, orphans) =>
      match orphans.head? with
      | some (.block hash height) => (some hash, some height, false)
      | some .mempool | none => (none, none, false)

/-- The block time of a transaction mined into the main chain. -/
def blockTime (view : ZainoChainView) (inBestChain : Bool) (minedHeight : Option Nat) :
    IndexReads (Option Nat) :=
  match inBestChain, minedHeight with
  | true, some height => do
      let header ← view.getBlockHeader height
      pure (header.map (·.time))
  | _, _ => pure none

def getTransaction (view : ZainoChainView) (txid : TxId) : IndexReads (Option ChainTx) := do
  match ← indexCall (.getRawTransaction view.snapshot txid) id with
  | none => pure none
  | some tx => do
      let inner ← view.readTx tx
      let locations ← indexCall (.getTransactionStatus view.snapshot txid) id
      let (blockHash, minedHeight, inBestChain) := reportedPlace locations
      let time ← view.blockTime inBestChain minedHeight
      pure (some ⟨inner, blockHash, minedHeight, time⟩)

/-- The status a transaction's locations give it. -/
def statusOf : TxLocations → TransactionStatus
  | (some (.block _ height), _) => .mined height
  | (some .mempool, _) => .notInMainChain
  | (none, orphans) => if orphans.isEmpty then .txidNotRecognized else .notInMainChain

def getTransactionStatus (view : ZainoChainView) (txid : TxId) : IndexReads TransactionStatus := do
  let locations ← indexCall (.getTransactionStatus view.snapshot txid) id
  pure (statusOf locations)

end ZainoChainView

end Zallet
