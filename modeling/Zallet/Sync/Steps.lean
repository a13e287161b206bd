/-
# `Zallet.Sync.Steps` — scanning blocks

`components/sync/steps.rs`: the subtree roots, the clamp to the
consensus-divergence height, and the two ways blocks get into the wallet, a
range of them (`scanBlocks`) or one (`scanBlock`).  The scanner itself and the
batch decryptor are outside; what the wallet tracks (nullifiers, addresses) is
read and handed to them, so the reads are here and their contents are not.
-/
import Zallet.Sync.Ops

namespace Zallet

variable {V : Type}

open Prog

def updateSubtreeRoots : Sync V Unit := do
  let saplingRoots ← chainCall .getSaplingSubtreeRoots id
  query (.putSaplingSubtreeRoots saplingRoots) fun r => r.mapError .tree
  let orchardRoots ← chainCall .getOrchardSubtreeRoots id
  query (.putOrchardSubtreeRoots orchardRoots) fun r => r.mapError .tree

/-- The wallet's transparent receivers, each with the account that controls it. -/
def transparentAddressIndex : Sync V (List (TransparentAddress × AccountUuid)) := do
  let accounts ← dbCall .getAccountIds id
  accounts.foldlM (fun index account => do
    let receivers ← dbCall (.getTransparentReceivers account) id
    pure (index ++ receivers.map fun address => (address, account))) []

/-- Clamps a scan range so it stops before a known consensus-divergence height. -/
def clampToBoundary (start stop : Nat) (shutdownHeight : Option Nat) :
    ControlFlow Nat (Option Nat) :=
  let stop' := shutdownHeight.elim stop fun h => min h stop
  if stop' ≤ start then .brk stop'
  else if stop' < stop then .cont (some stop')
  else .cont none

/-- Hand a block to the batch decryptor. -/
def queueBlock (block : Block) : Sync V Unit :=
  query (.queueBlock block) fun r => r.elim (.error .batchDecryptorUnavailable) .ok

/-- Wait for a block the batch decryptor was handed. -/
def awaitDecrypted (block : Block) : Sync V Unit :=
  query (.decrypted block) fun r => r.elim (.error .batchDecryptorUnavailable) .ok

/-- `full::scan_block`: the scanned block sits at the height and hash it was given. -/
def fullScanBlock (height : Nat) (header : BlockHeader) (prior : BlockMetadata) :
    Sync V ScannedBlock :=
  query (.scanFullBlock height header prior) fun r =>
    match r with
    | .ok (sapling, orchard, ironwood) =>
        .ok ⟨⟨height, header.hash, sapling, orchard, ironwood⟩⟩
    | .error msg => .error (.scan msg)

/-- Queue the blocks of a range for batch decryption, in the order the stream gives them. -/
def queueBlocks (chainView : V) (start stop : Nat) : Sync V (List Block) :=
  iterate (0, []) fun (pos, batch) => do
    match ← chainCall (.tryNext chainView (.range start stop) pos) id with
    | none => pure (.inr batch)
    | some block => do
        queueBlock block
        pure (.inl (pos + 1, batch ++ [block]))

/-- Scan the queued blocks, each on top of the one before it. -/
def scanBatch (fromState : ChainState) (batch : List Block) : Sync V (List ScannedBlock) := do
  let (_, scannedBlocks) ← batch.foldlM (fun (prior, scannedBlocks) block => do
    awaitDecrypted block
    let scannedBlock ← fullScanBlock block.claimedHeight block.header prior
    pure (scannedBlock.metadata, scannedBlocks ++ [scannedBlock]))
    (fromState.toBlockMetadata, [])
  pure scannedBlocks

/-- Scans a contiguous sequence of blocks in the main chain. -/
def scanBlocks (chainView : V) (scanRange : ScanRange) (shutdownHeight : Option Nat) :
    Sync V (ControlFlow Nat Unit) :=
  match clampToBoundary scanRange.start scanRange.stop shutdownHeight with
  | .brk stop => pure (.brk stop)
  | .cont boundary => do
      let stop := boundary.getD scanRange.stop
      match ← chainCall (.treeStateAsOf chainView (scanRange.start - 1)) id with
      | some fromState => do
          let batch ← queueBlocks chainView scanRange.start stop
          dbCall .unspentNullifiers id
          let _ ← transparentAddressIndex
          let scannedBlocks ← scanBatch fromState batch
          dbCall (.putBlocks fromState scannedBlocks) id
          pure (boundary.elim (.cont ()) .brk)
      | none => do
          -- the tip is read for the log line; its failure is the function's failure
          let _ ← chainCall (.tip chainView) id
          pure (.cont ())

/-- Scans a block in the main chain. -/
def scanBlock (chainView : V) (block : Block) (shutdownHeight : Option Nat) :
    Sync V (ControlFlow Nat Unit) :=
  let height := block.claimedHeight
  if shutdownHeight.any (fun h => h ≤ height) then pure (.brk height)
  else do
    let fromState ← chainCall (.treeStateAsOf chainView (height - 1)) fun r =>
      r.bind fun o => o.elim
        (.error (.backend
          "Programming error: tried to scan block ahead of the chain view's tip")) .ok
    queueBlock block
    dbCall .unspentNullifiers id
    let _ ← transparentAddressIndex
    awaitDecrypted block
    let scanned ← fullScanBlock height block.header fromState.toBlockMetadata
    dbCall (.putBlocks fromState [scanned]) id
    pure (.cont ())

end Zallet
