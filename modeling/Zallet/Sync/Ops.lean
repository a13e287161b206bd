/-
# `Zallet.Sync.Ops` — what the sync engine asks of its surroundings

One constructor of `Op` for each call the sync tasks make outside their own
code: to the chain backend and its pinned views, to the wallet database, to
the batch decryptor, and to the primitives the tasks share (the boundary, the
tip-change signal, the timers).  `V` is the backend's type of views.

A stream is polled by `tryNext`: the stream is named by the call that opened
it, and `pos` counts the items it already gave.

`Sync V` is the type of the engine's code: programs over these operations that
fail with a `SyncError`.
-/
import Zallet.Prog.Wp
import Zallet.Chain.Types
import Mathlib.Data.List.Basic

namespace Zallet

/-! ## The wallet database's side -/

/-- Errors of the wallet database; the engine tells block conflicts from all others. -/
inductive SqliteClientError where
  | blockConflict (height : Nat)
  | other (msg : String)
  deriving DecidableEq, Repr

inductive ScanPriority where
  | ignored | scanned | historic | openAdjacent | foundNote | chainTip | verify
  deriving DecidableEq, Repr

/-- Priorities are ordered as they are declared. -/
def ScanPriority.rank : ScanPriority → Nat
  | .ignored => 0
  | .scanned => 1
  | .historic => 2
  | .openAdjacent => 3
  | .foundNote => 4
  | .chainTip => 5
  | .verify => 6

/-- A half-open range of heights `start..stop`, with the priority of scanning it. -/
structure ScanRange where
  start : Nat
  stop : Nat
  priority : ScanPriority
  deriving DecidableEq, Repr

def ScanRange.isEmpty (r : ScanRange) : Bool := r.stop ≤ r.start

/-- The part of the range at or above `height`, if there is any. -/
def ScanRange.truncateStart (r : ScanRange) (height : Nat) : Option ScanRange :=
  if r.stop ≤ height ∨ r.isEmpty then none else some { r with start := max r.start height }

/-- The part of the range below `height`, if there is any. -/
def ScanRange.truncateEnd (r : ScanRange) (height : Nat) : Option ScanRange :=
  if height ≤ r.start ∨ r.isEmpty then none else some { r with stop := min r.stop height }

/-- The two parts of the range below and from `p`, when both are non-empty. -/
def ScanRange.splitAt (r : ScanRange) (p : Nat) : Option (ScanRange × ScanRange) :=
  if r.start < p ∧ p < r.stop then some ({ r with stop := p }, { r with start := p }) else none

/-- Metadata of the block below the one being scanned; the sizes of its final trees. -/
structure BlockMetadata where
  blockHeight : Nat
  blockHash : BlockHash
  saplingTreeSize : Nat
  orchardTreeSize : Nat
  ironwoodTreeSize : Nat
  deriving DecidableEq, Repr

/-- `BlockMetadata::from_parts` of a chain state, as both scanning paths build it. -/
def ChainState.toBlockMetadata (s : ChainState) : BlockMetadata :=
  ⟨s.blockHeight, s.blockHash, s.finalSaplingTree.size, s.finalOrchardTree.size,
    s.finalIronwoodTree.size⟩

/-- A block after scanning.  What was found in it is the scanner's business; its place in the
chain is the caller's. -/
structure ScannedBlock where
  metadata : BlockMetadata
  deriving DecidableEq, Repr

def ScannedBlock.height (b : ScannedBlock) : Nat := b.metadata.blockHeight

def ScannedBlock.hash (b : ScannedBlock) : BlockHash := b.metadata.blockHash

/-- `TransactionsInvolvingAddress`. -/
structure AddressRequest where
  address : TransparentAddress
  blockRangeStart : Nat
  blockRangeEnd : Option Nat
  deriving DecidableEq, Repr

inductive TransactionDataRequest where
  | getStatus (txid : TxId)
  | enhancement (txid : TxId)
  | transactionsInvolvingAddress (request : AddressRequest)
  | getSpendingTx (outpoint : OutPoint)
  deriving DecidableEq, Repr

/-! ## Errors of the engine -/

inductive SyncError where
  | batchDecryptorUnavailable
  | chain (e : ChainError)
  | scan (msg : String)
  | tree (msg : String)
  | other (e : SqliteClientError)
  | walletDivergedBelowBirthday (birthday : Nat)
  deriving DecidableEq, Repr

/-! ## Operations -/

/-- The block streams a view opens: `stream_blocks_to_tip(start)`, `stream_blocks(start..stop)`. -/
inductive BlockStream where
  | toTip (start : Nat)
  | range (start stop : Nat)
  deriving DecidableEq, Repr

inductive Op (V : Type) where
  -- `Chain`
  | snapshot
  | getSaplingSubtreeRoots
  | getOrchardSubtreeRoots
  -- `ChainView`
  | tip (view : V)
  | findForkPoint (view : V) (locator : BlockLocator)
  | treeStateAsOf (view : V) (height : Nat)
  | getBlockHeader (view : V) (height : Nat)
  | getBlock (view : V) (height : Nat)
  | tryNext (view : V) (stream : BlockStream) (pos : Nat)
  | getMempoolStream (view : V)
  | mempoolNext (view : V)
  | getTransaction (view : V) (txid : TxId)
  | getTransactionStatus (view : V) (txid : TxId)
  | outpointSpendStatus (view : V) (outpoint : OutPoint)
  | getAddressUnspentOutpoints (view : V) (address : TransparentAddress)
  | getAddressTxIds (view : V) (address : TransparentAddress) (start stop : Nat)
  -- the wallet database
  | putSaplingSubtreeRoots (roots : List Nat)
  | putOrchardSubtreeRoots (roots : List Nat)
  | updateChainTip (height : Nat)
  | suggestScanRanges
  | blockMetadata (height : Nat)
  | getWalletBirthday
  | getBlockHash (height : Nat)
  | truncateToHeight (height : Nat)
  | putBlocks (fromState : ChainState) (blocks : List ScannedBlock)
  | unspentNullifiers
  | getAccountIds
  | getTransparentReceivers (account : AccountUuid)
  | decryptAndStoreTransaction (tx : Transaction) (minedHeight : Option Nat)
  | transactionDataRequests
  | setTransactionStatus (txid : TxId) (status : TransactionStatus)
  | notifyOutputVerifiedUnspent (outpoint : OutPoint) (height : Nat)
  | notifyAddressChecked (request : AddressRequest) (height : Nat)
  | getSpendableTransparentOutputs (address : TransparentAddress) (target : Nat)
  -- the batch decryptor, and the block scanner it feeds
  | queueBlock (block : Block)
  | decrypted (block : Block)
  | scanFullBlock (height : Nat) (header : BlockHeader) (prior : BlockMetadata)
  -- shared between the tasks
  | loadBoundary
  | fetchUpdateBoundary (tipHeight : Nat)
  | notifyOne
  | notified
  | sleep (millis : Nat)
  | intervalTick
  deriving DecidableEq

/-- The answer to each operation. -/
abbrev Op.Ans {V : Type} : Op V → Type
  | .snapshot => Except ChainError V
  | .getSaplingSubtreeRoots | .getOrchardSubtreeRoots => Except ChainError (List Nat)
  | .tip _ => Except ChainError ChainBlock
  | .findForkPoint _ _ => Except ChainError (Option ChainBlock)
  | .treeStateAsOf _ _ => Except ChainError (Option ChainState)
  | .getBlockHeader _ _ => Except ChainError (Option BlockHeader)
  | .getBlock _ _ => Except ChainError (Option Block)
  | .tryNext _ _ _ => Except ChainError (Option Block)
  | .getMempoolStream _ => Except ChainError (Option Unit)
  | .mempoolNext _ => Option Transaction
  | .getTransaction _ _ => Except ChainError (Option ChainTx)
  | .getTransactionStatus _ _ => Except ChainError TransactionStatus
  | .outpointSpendStatus _ _ => Except ChainError SpendStatus
  | .getAddressUnspentOutpoints _ _ => Except ChainError (List OutPoint)
  | .getAddressTxIds _ _ _ _ => Except ChainError (List TxId)
  | .putSaplingSubtreeRoots _ | .putOrchardSubtreeRoots _ => Except String Unit
  | .updateChainTip _ => Except SqliteClientError Unit
  | .suggestScanRanges => Except SqliteClientError (List ScanRange)
  | .blockMetadata _ => Except SqliteClientError (Option BlockMetadata)
  | .getWalletBirthday => Except SqliteClientError (Option Nat)
  | .getBlockHash _ => Except SqliteClientError (Option BlockHash)
  | .truncateToHeight _ => Except SqliteClientError Nat
  | .putBlocks _ _ => Except SqliteClientError Unit
  | .unspentNullifiers => Except SqliteClientError Unit
  | .getAccountIds => Except SqliteClientError (List AccountUuid)
  | .getTransparentReceivers _ => Except SqliteClientError (List TransparentAddress)
  | .decryptAndStoreTransaction _ _ => Except SqliteClientError Unit
  | .transactionDataRequests => Except SqliteClientError (List TransactionDataRequest)
  | .setTransactionStatus _ _ => Except SqliteClientError Unit
  | .notifyOutputVerifiedUnspent _ _ => Except SqliteClientError Unit
  | .notifyAddressChecked _ _ => Except SqliteClientError Unit
  | .getSpendableTransparentOutputs _ _ => Except SqliteClientError (List OutPoint)
  -- `None` and a closed result channel are the two ways the decryptor says it is gone
  | .queueBlock _ => Option Unit
  | .decrypted _ => Option Unit
  | .scanFullBlock _ _ _ => Except String (Nat × Nat × Nat)
  | .loadBoundary => Nat
  | .fetchUpdateBoundary _ => Nat
  | .notifyOne | .notified | .sleep _ | .intervalTick => Unit

instance {V : Type} [DecidableEq V] : (op : Op V) → DecidableEq op.Ans := fun op => by
  cases op <;> exact inferInstance

/-- The interface of the sync engine. -/
abbrev syncSig (V : Type) : Prog.Sig := ⟨Op V, Op.Ans⟩

/-- The engine's code. -/
abbrev Sync (V : Type) := Prog (syncSig V) SyncError

abbrev SyncEvent (V : Type) := Prog.Event (syncSig V)

abbrev SyncTrace (V : Type) := Prog.Trace (syncSig V)

/-- The error a call to the chain was answered with. -/
def chainErrorOf {V : Type} : SyncEvent V → Option ChainError
  | ⟨.snapshot, .error e⟩ => some e
  | ⟨.getSaplingSubtreeRoots, .error e⟩ => some e
  | ⟨.getOrchardSubtreeRoots, .error e⟩ => some e
  | ⟨.tip _, .error e⟩ => some e
  | ⟨.findForkPoint _ _, .error e⟩ => some e
  | ⟨.treeStateAsOf _ _, .error e⟩ => some e
  | ⟨.getBlockHeader _ _, .error e⟩ => some e
  | ⟨.getBlock _ _, .error e⟩ => some e
  | ⟨.tryNext _ _ _, .error e⟩ => some e
  | ⟨.getMempoolStream _, .error e⟩ => some e
  | ⟨.getTransaction _ _, .error e⟩ => some e
  | ⟨.getTransactionStatus _ _, .error e⟩ => some e
  | ⟨.outpointSpendStatus _ _, .error e⟩ => some e
  | ⟨.getAddressUnspentOutpoints _ _, .error e⟩ => some e
  | ⟨.getAddressTxIds _ _ _ _, .error e⟩ => some e
  | _ => none

/-- The error a call to the wallet database was answered with. -/
def dbErrorOf {V : Type} : SyncEvent V → Option SqliteClientError
  | ⟨.updateChainTip _, .error e⟩ => some e
  | ⟨.suggestScanRanges, .error e⟩ => some e
  | ⟨.blockMetadata _, .error e⟩ => some e
  | ⟨.getWalletBirthday, .error e⟩ => some e
  | ⟨.getBlockHash _, .error e⟩ => some e
  | ⟨.truncateToHeight _, .error e⟩ => some e
  | ⟨.putBlocks _ _, .error e⟩ => some e
  | ⟨.unspentNullifiers, .error e⟩ => some e
  | ⟨.getAccountIds, .error e⟩ => some e
  | ⟨.getTransparentReceivers _, .error e⟩ => some e
  | ⟨.decryptAndStoreTransaction _ _, .error e⟩ => some e
  | ⟨.transactionDataRequests, .error e⟩ => some e
  | ⟨.setTransactionStatus _ _, .error e⟩ => some e
  | ⟨.notifyOutputVerifiedUnspent _ _, .error e⟩ => some e
  | ⟨.notifyAddressChecked _ _, .error e⟩ => some e
  | ⟨.getSpendableTransparentOutputs _ _, .error e⟩ => some e
  | _ => none

/-- The answers of surroundings with nothing to tell: an empty wallet, nothing to stream, no
transaction known, every write accepted. -/
def Op.idle {V : Type} (view : V) : (op : Op V) → op.Ans
  | .snapshot => .ok view
  | .getSaplingSubtreeRoots | .getOrchardSubtreeRoots => .ok []
  | .tip _ => .ok ⟨0, ⟨0⟩⟩
  | .findForkPoint _ _ => .ok none
  | .treeStateAsOf _ height => .ok (some ⟨height, ⟨height⟩, .empty, .empty, .empty⟩)
  | .getBlockHeader _ _ => .ok none
  | .getBlock _ _ => .ok none
  | .tryNext _ _ _ => .ok none
  | .getMempoolStream _ => .ok none
  | .mempoolNext _ => none
  | .getTransaction _ _ => .ok none
  | .getTransactionStatus _ _ => .ok .txidNotRecognized
  | .outpointSpendStatus _ _ => .ok .unspent
  | .getAddressUnspentOutpoints _ _ => .ok []
  | .getAddressTxIds _ _ _ _ => .ok []
  | .putSaplingSubtreeRoots _ | .putOrchardSubtreeRoots _ => .ok ()
  | .updateChainTip _ => .ok ()
  | .suggestScanRanges => .ok []
  | .blockMetadata _ => .ok none
  | .getWalletBirthday => .ok none
  | .getBlockHash _ => .ok none
  | .truncateToHeight height => .ok height
  | .putBlocks _ _ => .ok ()
  | .unspentNullifiers => .ok ()
  | .getAccountIds => .ok []
  | .getTransparentReceivers _ => .ok []
  | .decryptAndStoreTransaction _ _ => .ok ()
  | .transactionDataRequests => .ok []
  | .setTransactionStatus _ _ => .ok ()
  | .notifyOutputVerifiedUnspent _ _ => .ok ()
  | .notifyAddressChecked _ _ => .ok ()
  | .getSpendableTransparentOutputs _ _ => .ok []
  | .queueBlock _ => some ()
  | .decrypted _ => some ()
  | .scanFullBlock _ _ _ => .ok (0, 0, 0)
  | .loadBoundary => 0
  | .fetchUpdateBoundary _ => 0
  | .notifyOne | .notified | .sleep _ | .intervalTick => ()

/-! ## Calls

`chainCall` is `.await.map_err(SyncError::Chain)?`, `dbCall` is `?` on a wallet database call
(the `From<SqliteClientError>` conversion), `perform` a call that cannot fail. -/

section
variable {V ε α : Type}

abbrev perform (op : Op V) : Prog (syncSig V) ε op.Ans := .ask (E := syncSig V) op

def chainCall (op : Op V) (f : (syncSig V).Ans op → Except ChainError α) : Sync V α :=
  .query op fun a => (f a).mapError .chain

def dbCall (op : Op V) (f : (syncSig V).Ans op → Except SqliteClientError α) : Sync V α :=
  .query op fun a => (f a).mapError .other

/-- A call that was gone on from was answered without an error. -/
theorem chainCall_bind_ret {β : Type} {op : Op V} {f : (syncSig V).Ans op → Except ChainError α}
    {g : α → Sync V β} {tr : SyncTrace V} {b : β} (h : Prog.Run ((chainCall op f).bind g) tr (.ret b)) :
    ∃ a x l, tr = ⟨op, a⟩ :: l ∧ f a = .ok x ∧ Prog.Run (g x) l (.ret b) := by
  obtain ⟨a, x, l, htr, ha, hrun⟩ := h.query_bind_ret
  exact ⟨a, x, l, htr, Prog.mapError_eq_ok.mp ha, hrun⟩

theorem dbCall_bind_ret {β : Type} {op : Op V}
    {f : (syncSig V).Ans op → Except SqliteClientError α} {g : α → Sync V β} {tr : SyncTrace V}
    {b : β} (h : Prog.Run ((dbCall op f).bind g) tr (.ret b)) :
    ∃ a x l, tr = ⟨op, a⟩ :: l ∧ f a = .ok x ∧ Prog.Run (g x) l (.ret b) := by
  obtain ⟨a, x, l, htr, ha, hrun⟩ := h.query_bind_ret
  exact ⟨a, x, l, htr, Prog.mapError_eq_ok.mp ha, hrun⟩

variable {S : Type} {W : Prog.World (syncSig V) S} {Q : S → α → Prop} {R : S → SyncError → Prop}
  {s : S}

@[simp] theorem wp_chainCall {op : Op V} {f : (syncSig V).Ans op → Except ChainError α} :
    Prog.wp W (chainCall op f) Q R s ↔ W.guard s op ∧ ∀ a s', W.step s op a s' →
      Prog.Ends (Q s') (fun e => R s' (.chain e)) (f a) := by
  simp only [chainCall, Prog.wp_query, Prog.ends_mapError]

@[simp] theorem wp_dbCall {op : Op V} {f : (syncSig V).Ans op → Except SqliteClientError α} :
    Prog.wp W (dbCall op f) Q R s ↔ W.guard s op ∧ ∀ a s', W.step s op a s' →
      Prog.Ends (Q s') (fun e => R s' (.other e)) (f a) := by
  simp only [dbCall, Prog.wp_query, Prog.ends_mapError]

end

end Zallet
