/-
# `Zallet.Chain.Types` — chain data, as the wallet sees it

The backend-neutral data of `components/chain.rs` and the parts of the chain
library's own types that the sync engine reads.  A `BlockHeight` is a `Nat`:
its subtraction saturates at zero, which is what `Nat` subtraction does, and a
chain never gets near `u32::MAX`, so addition does not saturate here.  Hashes
and ids are only ever compared.
-/

namespace Zallet

/-- The 32 bytes of a block hash, as a number. -/
structure BlockHash where
  bytes : Nat
  deriving DecidableEq, Repr

/-- The 32 bytes of a transaction id, as a number. -/
structure TxId where
  bytes : Nat
  deriving DecidableEq, Repr

def TxId.isNull (txid : TxId) : Bool := txid.bytes == 0

structure OutPoint where
  txid : TxId
  n : Nat
  deriving DecidableEq, Repr

structure TransparentAddress where
  bytes : Nat
  deriving DecidableEq, Repr

/-- An account of the wallet. -/
structure AccountUuid where
  id : Nat
  deriving DecidableEq, Repr

/-- A chain view that was handed out. -/
structure ChainViewRef where
  ref : Nat
  deriving DecidableEq, Repr

/-- A block's height and hash. -/
structure ChainBlock where
  height : Nat
  hash : BlockHash
  deriving DecidableEq, Repr

/-- An ordered list of a caller's own block hashes, highest chain height first. -/
structure BlockLocator where
  hashes : List BlockHash
  deriving DecidableEq, Repr

/-- What is read of a block header. -/
structure BlockHeader where
  hash : BlockHash
  time : Nat
  deriving DecidableEq, Repr

/-- What the engine reads of a full block. -/
structure Block where
  claimedHeight : Nat
  header : BlockHeader
  deriving DecidableEq, Repr

structure Transaction where
  txid : TxId
  deriving DecidableEq, Repr

/-- A transaction together with the chain metadata the wallet needs to ingest it. -/
structure ChainTx where
  inner : Transaction
  blockHash : Option BlockHash
  minedHeight : Option Nat
  blockTime : Option Nat
  deriving DecidableEq, Repr

inductive TransactionStatus where
  | txidNotRecognized
  | notInMainChain
  | mined (height : Nat)
  deriving DecidableEq, Repr

/-- The spend status of a transparent output. -/
inductive SpendStatus where
  | unspent
  | spentBy (txid : TxId)
  | spentSpenderUnknown
  deriving DecidableEq, Repr

/-- A note commitment tree, by its leaves' count and root. -/
structure Tree where
  size : Nat
  root : Nat
  deriving DecidableEq, Repr

def Tree.empty : Tree := ⟨0, 0⟩

/-- The note commitment trees after the block at `blockHeight`. -/
structure ChainState where
  blockHeight : Nat
  blockHash : BlockHash
  finalSaplingTree : Tree
  finalOrchardTree : Tree
  finalIronwoodTree : Tree
  deriving DecidableEq, Repr

/-- An error returned by a `Chain` or a `ChainView`. -/
inductive ChainError where
  | unavailable (source : String)
  | invalidData (source : String)
  | backend (source : String)
  deriving DecidableEq, Repr

/-- `ControlFlow<B, C>`. -/
inductive ControlFlow (β γ : Type) where
  | brk (b : β)
  | cont (c : γ)
  deriving DecidableEq, Repr

end Zallet
