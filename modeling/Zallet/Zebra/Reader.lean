/-
# `Zallet.Zebra.Reader` — what a Zebra view asks of zebrad

The requests behind `chain/reader.rs`'s `ChainReader` and the two validator
RPCs the view uses, one constructor each.  Bytes are modelled by what reading
them gives.  The last three operations are the view's own shared cache of the
hashes it has resolved: other clones of the view use it too, so what it holds
is the environment's to answer.
-/
import Zallet.Prog.Outcome
import Zallet.Sync.Ops

namespace Zallet

/-- The canonical bytes of a block. -/
structure RawBlock where
  block : Except String Block
  header : Except String BlockHeader

/-- The bytes of a note commitment tree. -/
structure RawTree where
  tree : Except String Tree

/-- The bytes of a transaction; which consensus branch they are read at follows a height. -/
structure RawTx where
  read : Nat → Except String Transaction

/-- The header data the height-to-hash resolve walk needs. -/
structure HeaderInfo where
  height : Nat
  previousBlockHash : BlockHash
  deriving DecidableEq, Repr

/-- A mined transaction located on the best chain. -/
structure MinedTxInfo where
  raw : RawTx
  height : Nat
  blockTime : Nat

/-- A transaction located on a non-best chain. -/
structure SideTxInfo where
  raw : RawTx
  blockHash : BlockHash

inductive ReaderOp where
  | tip
  | bestChainBlockHash (height : Nat)
  | rawBlockByHash (hash : BlockHash)
  | blockHeaderByHash (hash : BlockHash)
  | saplingTreeBytes (hash : BlockHash)
  | orchardTreeBytes (hash : BlockHash)
  | ironwoodTreeBytes (hash : BlockHash)
  | findForkPoint (locator : BlockLocator)
  | transaction (txid : TxId)
  | sideChainTransaction (txid : TxId)
  | isUnspent (outpoint : OutPoint)
  | spendingTransaction (outpoint : OutPoint)
  -- the validator's RPC
  | getRawMempool
  | getRawTransaction (txid : TxId)
  -- the view's cache: an entry, the lowest entry at or above a height, a new entry
  | cacheGet (height : Nat)
  | cacheFrom (height : Nat)
  | cacheInsert (height : Nat) (hash : BlockHash)
  deriving DecidableEq

abbrev ReaderOp.Ans : ReaderOp → Type
  | .tip => Except ChainError (Option ChainBlock)
  | .bestChainBlockHash _ => Except ChainError (Option BlockHash)
  | .rawBlockByHash _ => Except ChainError (Option RawBlock)
  | .blockHeaderByHash _ => Except ChainError (Option HeaderInfo)
  | .saplingTreeBytes _ | .orchardTreeBytes _ | .ironwoodTreeBytes _ =>
      Except ChainError (Option RawTree)
  | .findForkPoint _ => Except ChainError (Option ChainBlock)
  | .transaction _ => Except ChainError (Option MinedTxInfo)
  | .sideChainTransaction _ => Except ChainError (Option SideTxInfo)
  | .isUnspent _ => Except ChainError Bool
  | .spendingTransaction _ => Except ChainError (Option TxId)
  | .getRawMempool => Except String (List TxId)
  -- the error of the call, then the error of decoding what it gave
  | .getRawTransaction _ => Except String (Except String RawTx)
  | .cacheGet _ => Option BlockHash
  | .cacheFrom _ => Option (Nat × BlockHash)
  | .cacheInsert _ _ => Unit

/-- The interface of a Zebra view. -/
abbrev readerSig : Prog.Sig := ⟨ReaderOp, ReaderOp.Ans⟩

/-- The view's code. -/
abbrev Reads := Prog readerSig ChainError

abbrev ReaderEvent := Prog.Event readerSig

abbrev ReaderTrace := Prog.Trace readerSig

/-- Use the view's cache. -/
abbrev onCache (op : ReaderOp) : Reads op.Ans := .ask (E := readerSig) op

/-- The error a request was answered with. -/
def readerErrorOf : ReaderEvent → Option ChainError
  | ⟨.tip, .error e⟩ => some e
  | ⟨.bestChainBlockHash _, .error e⟩ => some e
  | ⟨.rawBlockByHash _, .error e⟩ => some e
  | ⟨.blockHeaderByHash _, .error e⟩ => some e
  | ⟨.saplingTreeBytes _, .error e⟩ => some e
  | ⟨.orchardTreeBytes _, .error e⟩ => some e
  | ⟨.ironwoodTreeBytes _, .error e⟩ => some e
  | ⟨.findForkPoint _, .error e⟩ => some e
  | ⟨.transaction _, .error e⟩ => some e
  | ⟨.sideChainTransaction _, .error e⟩ => some e
  | ⟨.isUnspent _, .error e⟩ => some e
  | ⟨.spendingTransaction _, .error e⟩ => some e
  | _ => none

/-- The retryable errors. -/
def ChainError.isUnavailable : ChainError → Bool
  | .unavailable _ => true
  | _ => false

end Zallet
