/-
# `Zallet.Rpc.ViewTransaction` — a transaction as the wallet sees it

`json_rpc/methods/view_transaction.rs`: which of a transaction's inputs and
outputs the wallet can view, and to which account they belong.

  * A transparent spend or output belongs to the first account whose database
    knows its address.
  * A shielded spend is known by its nullifier.
  * A shielded output is decrypted with the incoming keys of all accounts, or
    recovered with their outgoing keys; the first key that fits decides.  The
    address is the one that was recorded when the transaction was made, if any.

Decryption is the libraries' (`ViewLib`), and so are keys and bundles as far as
they are not looked into.
-/
import Zallet.Rpc.WalletRead
import Mathlib.Data.List.ReduceOption

namespace Zallet.ViewTransaction

open RpcResult

def poolTransparent : String := "transparent"

def poolSapling : String := "sapling"

def poolOrchard : String := "orchard"

def poolIronwood : String := "ironwood"

/-- The number of blocks within expiry height when a tx is considered to be expiring soon. -/
def txExpiringSoonThreshold : ℕ := 3

/-! ## Transactions and keys -/

structure TxOut where
  value : Zatoshis
  recipientAddress : Option TransparentAddress
  deriving DecidableEq

/-- An input is the output it spends. -/
structure TransparentBundle where
  vin : List OutPoint
  vout : List TxOut
  isCoinbase : Bool
  deriving DecidableEq

structure Nullifier where
  bytes : ℕ
  deriving DecidableEq, Repr

/-- The note plaintexts of the two pools of Orchard actions. -/
inductive DomainVersion where
  | orchardVersion | ironwoodVersion
  deriving DecidableEq, Repr

def DomainVersion.pool : DomainVersion → ShieldedPool
  | .orchardVersion => .orchard
  | .ironwoodVersion => .ironwood

def DomainVersion.poolName : DomainVersion → String
  | .orchardVersion => poolOrchard
  | .ironwoodVersion => poolIronwood

/-- A note that was decrypted: its value, recipient and memo. -/
structure Decrypted (Address : Type) where
  value : ℕ
  recipient : Address
  memo : List UInt8
  deriving DecidableEq

/-- What viewing a transaction uses of its libraries. -/
structure ViewLib extends AddressLib where
  SaplingIvk : Type
  OrchardIvk : Type
  Ovk : Type
  SaplingOutput : Type
  /-- An action, less its nullifier. -/
  OrchardAction : Type
  /-- `ReverseHex::decode` -/
  parseTxid : String → Option TxId
  /-- `try_sapling_note_decryption`, within the grace period of ZIP 212 -/
  trySaplingNoteDecryption : SaplingIvk → SaplingOutput → Option (Decrypted SaplingAddress)
  trySaplingOutputRecovery : Ovk → SaplingOutput → Option (Decrypted SaplingAddress)
  tryNoteDecryption : DomainVersion → OrchardIvk → OrchardAction → Option (Decrypted OrchardAddress)
  tryOutputRecoveryWithOvk : DomainVersion → Ovk → OrchardAction →
    Option (Decrypted OrchardAddress)
  /-- `ZcashAddress::from_sapling`, encoded -/
  zcashAddressFromSapling : SaplingAddress → String
  /-- `unified::Address::try_from_items` of one Orchard receiver, encoded -/
  zcashAddressFromOrchard : OrchardAddress → Option String
  memoFromBytes : List UInt8 → Option Memo
  zatBalanceFromI64 : ℤ → Except String ZatBalance
  /-- How `SqliteClientError::ChainHeightUnknown` reads. -/
  chainHeightUnknown : String

/-- The viewing keys of one pool of an account. -/
structure PoolKeys (Ivk Ovk : Type) where
  toIvk : Scope → Ivk
  toOvk : Scope → Ovk

/-- `ovks_for_shielding` -/
structure TransparentOvks (Ovk : Type) where
  internal : Ovk
  external : Ovk

/-- A unified full viewing key, by the keys it comes to. -/
structure FullViewingKey (lib : ViewLib) where
  transparent : Option (TransparentOvks lib.Ovk)
  sapling : Option (PoolKeys lib.SaplingIvk lib.Ovk)
  orchard : Option (PoolKeys lib.OrchardIvk lib.Ovk)

structure SaplingBundle (lib : ViewLib) where
  shieldedSpends : List Nullifier
  shieldedOutputs : List lib.SaplingOutput

structure OrchardBundle (lib : ViewLib) where
  actions : List (Nullifier × lib.OrchardAction)

structure FullTransaction (lib : ViewLib) where
  txid : TxId
  /-- `version().header()` -/
  header : ℕ
  expiryHeight : ℕ
  transparentBundle : Option TransparentBundle
  saplingBundle : Option (SaplingBundle lib)
  orchardBundle : Option (OrchardBundle lib)
  ironwoodBundle : Option (OrchardBundle lib)
  /-- `fee_paid`, given the values of the outputs that are spent. -/
  feePaid : (OutPoint → Option Zatoshis) → Except String (Option Zatoshis)

/-! ## What is read -/

/-- A row of the received notes: where the note was created, and for whom. -/
structure ReceivedRow where
  txid : TxId
  outputIndex : ℕ
  account : AccountUuid
  address : Option String
  value : ℕ
  deriving DecidableEq, Repr

structure WalletDb (lib : ViewLib) extends WalletRead lib.toAddressLib where
  getTransaction : TxId → Except String (Option (FullTransaction lib))
  getUnifiedFullViewingKeys : Except String (List (AccountUuid × FullViewingKey lib))
  /-- The row of the received notes with this nullifier. -/
  receivedNote : ShieldedPool → Nullifier → Except String (Option ReceivedRow)
  /-- The row of the sent notes: its address, which it may lack. -/
  sentNote : TxId → ℕ → ℕ → Except String (Option (Option String))
  /-- The rows of the transaction's effects. -/
  balanceDeltas : TxId → Except String (List (Except String (AccountUuid × ℤ)))

/-- What is looked at of a block. -/
structure ViewedBlock where
  header : BlockHeader
  vtx : List TxId

structure ViewedChain where
  tip : Except String ChainBlock
  /-- The transparent part of a transaction, where it has one. -/
  getTransaction : TxId → Except String (Option (Option TransparentBundle))
  getBlock : ℕ → Except String (Option ViewedBlock)

/-! ## The result -/

structure Spend (lib : ViewLib) where
  pool : String
  tIn : Option ℕ
  spend : Option ℕ
  action : Option ℕ
  txidPrev : TxId
  tOutPrev : Option ℕ
  outputPrev : Option ℕ
  actionPrev : Option ℕ
  accountUuid : Option AccountUuid
  address : Option String
  value : lib.Decimal
  valueZat : ℕ

structure Output (lib : ViewLib) where
  pool : String
  tOut : Option ℕ
  output : Option ℕ
  action : Option ℕ
  accountUuid : Option AccountUuid
  address : Option String
  outgoing : Option Bool
  walletInternal : Bool
  value : lib.Decimal
  valueZat : ℕ
  memo : Option String
  memoStr : Option String

structure AccountEffect (lib : ViewLib) where
  delta : lib.Decimal
  deltaZat : ℤ

/-- `accounts` is a map: the last entry of an account counts. -/
structure ResultType (lib : ViewLib) where
  txid : String
  status : String
  confirmations : ℤ
  blockhash : Option BlockHash
  blockindex : Option ℕ
  blocktime : Option ℕ
  version : ℕ
  expiryheight : ℕ
  fee : Option lib.Decimal
  generated : Option Bool
  spends : List (Spend lib)
  outputs : List (Output lib)
  accounts : List (AccountUuid × AccountEffect lib)

/-- A panic is told by its message. -/
abbrev Response (α : Type) := RpcResult String α

def databaseError (e : String) : RpcError := LegacyCode.database.withMessage e

/-- Inputs and outputs are counted in a `u16`, which goes on from 0 past the last one.  A transaction
is too small for its spends and shielded outputs to get there, but its transparent outputs may. -/
def u16 (idx : ℕ) : ℕ := idx % 2 ^ 16

/-- `Zatoshis::const_from_u64` -/
def constFromU64 (amount : ℕ) : Response Zatoshis :=
  if h : amount ≤ maxMoney then pure ⟨amount, h⟩
  else panicWith "assertion failed: amount <= MAX_MONEY"

/-! ## Keys -/

structure IncomingKey (Ivk : Type) where
  account : AccountUuid
  ivk : Ivk
  scope : Scope

structure OutgoingKey (Ovk : Type) where
  ovk : Ovk
  scope : Scope

section
variable {lib : ViewLib}

/-- The keys of a pool for incoming notes, external before internal. -/
def incomingKeys {Ivk Ovk : Type} (account : AccountUuid) (keys : PoolKeys Ivk Ovk) :
    List (IncomingKey Ivk) :=
  [Scope.external, Scope.internal].map fun scope => ⟨account, keys.toIvk scope, scope⟩

def saplingIvks (ufvks : List (AccountUuid × FullViewingKey lib)) :
    List (IncomingKey lib.SaplingIvk) :=
  ufvks.flatMap fun (account, ufvk) => ufvk.sapling.elim [] (incomingKeys account)

def orchardIvks (ufvks : List (AccountUuid × FullViewingKey lib)) :
    List (IncomingKey lib.OrchardIvk) :=
  ufvks.flatMap fun (account, ufvk) => ufvk.orchard.elim [] (incomingKeys account)

/-- An account's outgoing keys, of all its pools. -/
def accountOvks (ufvk : FullViewingKey lib) : List (OutgoingKey lib.Ovk) :=
  (ufvk.transparent.elim [] fun t => [⟨t.internal, .internal⟩, ⟨t.external, .external⟩]) ++
    [Scope.external, Scope.internal].flatMap fun scope =>
      (ufvk.sapling.elim [] fun dfvk => [⟨dfvk.toOvk scope, scope⟩]) ++
        ufvk.orchard.elim [] fun fvk => [⟨fvk.toOvk scope, scope⟩]

def ovks (ufvks : List (AccountUuid × FullViewingKey lib)) : List (OutgoingKey lib.Ovk) :=
  ufvks.flatMap fun entry => accountOvks entry.2

end

/-! ## Spends -/

section
variable {lib : ViewLib} (wallet : WalletDb lib)

/-- The account a transparent spend is attributed to; a failed lookup counts as found. -/
def spendAccount (accountIds : List AccountUuid) (address : TransparentAddress) :
    Option AccountUuid :=
  accountIds.find? fun account =>
    match wallet.getTransparentAddressMetadata account address with
    | .ok none => false
    | .ok (some _) | .error _ => true

/-- The spend of a transparent input, and the value it spends. -/
def transparentSpend (chain : ViewedChain) (accountIds : List AccountUuid)
    (input : OutPoint × ℕ) : Response (Spend lib × Zatoshis) :=
  match chain.getTransaction input.1.txid with
  | .ok (some bundle) => do
      let output ← expect (bundle.bind (·.vout[input.1.n]?))
        "Zaino should have rejected this earlier"
      pure
        ({ pool := poolTransparent
           tIn := some (u16 input.2)
           spend := none
           action := none
           txidPrev := input.1.txid
           tOutPrev := some input.1.n
           outputPrev := none
           actionPrev := none
           accountUuid := output.recipientAddress.bind (spendAccount wallet accountIds)
           address := output.recipientAddress.map lib.encodeTransparent
           value := valueFromZatoshis lib.toMoneyLib output.value
           valueZat := output.value.value }, output.value)
  | .ok none => panicWith "internal error: entered unreachable code"
  | .error _ => panicWith "not yet implemented"

/-- The inputs that are spends; those of a coinbase transaction are not. -/
def transparentInputs (tx : FullTransaction lib) : List OutPoint :=
  match tx.transparentBundle with
  | none => []
  | some bundle => if bundle.isCoinbase then [] else bundle.vin

/-- The row of a spent note; the wallet's spends are those that have one. -/
def outputWithNullifier (pool : ShieldedPool) (nf : Nullifier) :
    Response (Option (ReceivedRow × Zatoshis)) := do
  let found ← mapErr (wallet.receivedNote pool nf) fun e =>
    databaseError ("Failed to fetch spent note: " ++ e)
  match found with
  | none => pure none
  | some row =>
      let value ← constFromU64 row.value
      pure (some (row, value))

/-- Sapling spends and outputs are told by their index in the bundle, and all others by that of
their action. -/
def bundleIndex (pool : ShieldedPool) (idx : ℕ) : Option ℕ :=
  if pool = .sapling then some idx else none

def actionIndex (pool : ShieldedPool) (idx : ℕ) : Option ℕ :=
  if pool = .sapling then none else some idx

def shieldedSpend (pool : ShieldedPool) (poolName : String) (spend : Nullifier × ℕ) :
    Response (Option (Spend lib)) := do
  let spent ← outputWithNullifier wallet pool spend.1
  pure (spent.map fun note =>
    { pool := poolName
      tIn := none
      spend := bundleIndex pool spend.2
      action := actionIndex pool spend.2
      txidPrev := note.1.txid
      tOutPrev := none
      outputPrev := bundleIndex pool note.1.outputIndex
      actionPrev := actionIndex pool note.1.outputIndex
      accountUuid := some note.1.account
      address := note.1.address
      value := valueFromZatoshis lib.toMoneyLib note.2
      valueZat := note.2.value })

def shieldedSpends (pool : ShieldedPool) (poolName : String) (nullifiers : List Nullifier) :
    Response (List (Spend lib)) := do
  let spends ← nullifiers.zipIdx.mapM (shieldedSpend wallet pool poolName)
  pure spends.reduceOption

def saplingSpends (bundle : Option (SaplingBundle lib)) : Response (List (Spend lib)) :=
  bundle.elim (pure []) fun bundle =>
    shieldedSpends wallet .sapling poolSapling bundle.shieldedSpends

def orchardFamilySpends (bundle : Option (OrchardBundle lib)) (pool : ShieldedPool)
    (poolName : String) : Response (List (Spend lib)) :=
  bundle.elim (pure []) fun bundle =>
    shieldedSpends wallet pool poolName (bundle.actions.map (·.1))

/-! ## Transparent outputs -/

/-- The account a transparent output is attributed to, and the scope of its key there; a failed
lookup is passed over. -/
def outputAccount (accountIds : List AccountUuid) (address : TransparentAddress) :
    Option (AccountUuid × Option TransparentKeyScope) :=
  accountIds.findSome? fun account =>
    match wallet.getTransparentAddressMetadata account address with
    | .ok (some metadata) => some (account, metadata.scope)
    | .ok none | .error _ => none

def transparentOutput (accountIds : List AccountUuid) (fundedByThisWallet : Bool)
    (output : TxOut × ℕ) : Output lib :=
  let found := output.1.recipientAddress.bind (outputAccount wallet accountIds)
  { pool := poolTransparent
    tOut := some (u16 output.2)
    output := none
    action := none
    accountUuid := found.map (·.1)
    address := output.1.recipientAddress.map lib.encodeTransparent
    outgoing :=
      if output.1.recipientAddress.isNone then none
      else if found.isSome then some false
      else if fundedByThisWallet then some true
      else none
    -- An imported key's address has metadata without a scope.
    walletInternal := found.map (·.2) = some (some .internal)
    value := valueFromZatoshis lib.toMoneyLib output.1.value
    valueZat := output.1.value.value
    memo := none
    memoStr := none }

def transparentOutputs (accountIds : List AccountUuid) (fundedByThisWallet : Bool)
    (tx : FullTransaction lib) : List (Output lib) :=
  tx.transparentBundle.elim [] fun bundle =>
    bundle.vout.zipIdx.map (transparentOutput wallet accountIds fundedByThisWallet)

/-! ## Shielded outputs -/

/-- A note that the wallet can view: its account if it is incoming, and the address it falls back
on. -/
structure Viewed (Address : Type) where
  value : ℕ
  account : Option AccountUuid
  address : Option Address
  memo : List UInt8
  deriving DecidableEq

/-- Only the recipient of an external key is told. -/
def recipientOf {Address : Type} (scope : Scope) (note : Decrypted Address) : Option Address :=
  if scope = .external then some note.recipient else none

section
variable {Ivk Ovk Out Address : Type}

/-- What the first incoming key that fits makes of an output. -/
def decryptIncoming (decrypt : Ivk → Out → Option (Decrypted Address))
    (ivks : List (IncomingKey Ivk)) (output : Out) : Option (Viewed Address) :=
  ivks.findSome? fun key => (decrypt key.ivk output).map fun note =>
    ⟨note.value, some key.account, recipientOf key.scope note, note.memo⟩

/-- What the first outgoing key that fits makes of an output. -/
def recoverOutgoing (recover : Ovk → Out → Option (Decrypted Address))
    (ovks : List (OutgoingKey Ovk)) (output : Out) : Option (Viewed Address) :=
  ovks.findSome? fun key => (recover key.ovk output).map fun note =>
    ⟨note.value, none, recipientOf key.scope note, note.memo⟩

/-- The outputs that `f` makes something of, by their index. -/
def indexed (f : Out → Option (Viewed Address)) (outputs : List Out) :
    List (ℕ × Viewed Address) :=
  outputs.zipIdx.filterMap fun output => (f output.1).map fun note => (output.2, note)

end

/-- How the sent notes tell the pools apart. -/
def poolCode : ShieldedPool → ℕ
  | .sapling => 2
  | .orchard => 3
  | .ironwood => 4

/-- The address that was cached at transaction construction as the recipient, or else the
fallback. -/
def sentToAddress (txid : TxId) (pool : ShieldedPool) (idx : ℕ)
    (fallbackAddr : Response (Option String)) : Response (Option String) := do
  let row ← mapErr (wallet.sentNote txid (poolCode pool) idx) fun e =>
    databaseError ("Failed to fetch sent-to address: " ++ e)
  row.elim fallbackAddr pure

/-- An address, if there is one, encoded. -/
def encodeFallback {Address : Type} (encode : Address → Response String) :
    Option Address → Response (Option String)
  | none => pure none
  | some address => some <$> encode address

def shieldedOutput {Address : Type} (txid : TxId) (pool : ShieldedPool) (poolName : String)
    (encode : Address → Response String) (note : ℕ × Viewed Address) :
    Response (Output lib) := do
  let address ← sentToAddress wallet txid pool note.1 (encodeFallback encode note.2.address)
  let value ← constFromU64 note.2.value
  pure
    { pool := poolName
      tOut := none
      output := bundleIndex pool note.1
      action := actionIndex pool note.1
      accountUuid := note.2.account
      address
      outgoing := some note.2.account.isNone
      walletInternal := address.isNone
      value := valueFromZatoshis lib.toMoneyLib value
      valueZat := value.value
      memo := some (lib.hexEncode note.2.memo)
      memoStr := (lib.memoFromBytes note.2.memo).bind (·.text?) }

/-- The outputs of a bundle that the wallet can view: by incoming keys first, then by outgoing
keys. -/
def shieldedOutputs {Out Address : Type} (txid : TxId) (pool : ShieldedPool) (poolName : String)
    (encode : Address → Response String) (decrypt recover : Out → Option (Viewed Address))
    (outputs : List Out) : Response (List (Output lib)) :=
  let incoming := indexed decrypt outputs
  let outgoing := indexed recover outputs
  (outputs.zipIdx.filterMap fun output =>
    ((incoming.lookup output.2).or (outgoing.lookup output.2)).map fun note =>
      (output.2, note)).mapM (shieldedOutput wallet txid pool poolName encode)

def saplingOutputs (ufvks : List (AccountUuid × FullViewingKey lib)) (txid : TxId)
    (bundle : Option (SaplingBundle lib)) : Response (List (Output lib)) :=
  bundle.elim (pure []) fun bundle =>
    shieldedOutputs wallet txid .sapling poolSapling
      (fun address => pure (lib.zcashAddressFromSapling address))
      (decryptIncoming lib.trySaplingNoteDecryption (saplingIvks ufvks))
      (recoverOutgoing lib.trySaplingOutputRecovery (ovks ufvks)) bundle.shieldedOutputs

def orchardFamilyOutputs (ver : DomainVersion) (ufvks : List (AccountUuid × FullViewingKey lib))
    (txid : TxId) (bundle : Option (OrchardBundle lib)) (pool : ShieldedPool) (poolName : String) :
    Response (List (Output lib)) :=
  bundle.elim (pure []) fun bundle =>
    shieldedOutputs wallet txid pool poolName
      (fun address => expect (lib.zcashAddressFromOrchard address) "valid")
      (decryptIncoming (lib.tryNoteDecryption ver) (orchardIvks ufvks))
      (recoverOutgoing (lib.tryOutputRecoveryWithOvk ver) (ovks ufvks)) (bundle.actions.map (·.2))

end

/-! ## The transaction itself -/

section
variable {lib : ViewLib}

def FullTransaction.isCoinbase (tx : FullTransaction lib) : Bool :=
  tx.transparentBundle.any (·.isCoinbase)

def isExpiredTx (tx : FullTransaction lib) (height : ℕ) : Bool :=
  if tx.expiryHeight = 0 ∨ tx.isCoinbase then false else tx.expiryHeight < height

def isExpiringSoonTx (tx : FullTransaction lib) (nextHeight : ℕ) : Bool :=
  isExpiredTx tx (nextHeight + txExpiringSoonThreshold)

structure WalletTxInfo where
  status : String
  confirmations : ℤ
  generated : Option Bool
  blockhash : Option BlockHash
  blockindex : Option ℕ
  blocktime : Option ℕ
  expiryheight : ℕ

/-- Logic adapted from `WalletTxToJSON` in `zcashd`, to match the semantics of the `gettransaction`
fields. -/
def WalletTxInfo.fetch (wallet : WalletDb lib) (chain : ViewedChain) (tx : FullTransaction lib)
    (chainHeight : ℕ) : Except String WalletTxInfo := do
  let generated := if tx.isCoinbase then some true else none
  match ← wallet.getTxHeight tx.txid with
  | some minedHeight =>
      match chain.getBlock minedHeight with
      | .ok (some block) =>
          pure ⟨"mined", (chainHeight + 1 - minedHeight : ℕ), generated, some block.header.hash,
            block.vtx.findIdx? (· = tx.txid), some block.header.time, tx.expiryHeight⟩
      | .ok none | .error _ => throw lib.chainHeightUnknown
  | none =>
      let status :=
        if isExpiredTx tx chainHeight then "expired"
        else if isExpiringSoonTx tx (chainHeight + 1) then "expiringsoon"
        else "waiting"
      pure ⟨status, -1, generated, none, none, none, tx.expiryHeight⟩

/-- The value of an output that is spent: what was put last for it. -/
def inputValue (values : List (OutPoint × Zatoshis)) (prevout : OutPoint) : Option Zatoshis :=
  values.reverse.lookup prevout

def accountEffect (row : Except String (AccountUuid × ℤ)) :
    Response (AccountUuid × AccountEffect lib) := do
  let row ← mapErr row databaseError
  let delta ← mapErr (lib.zatBalanceFromI64 row.2) databaseError
  pure (row.1, ⟨valueFromZatBalance lib.toMoneyLib delta, row.2⟩)

/-! ## The call -/

def call (wallet : WalletDb lib) (snapshot : Except String ViewedChain) (txidStr : String) :
    Response (ResultType lib) := do
  let txid ← okOr (lib.parseTxid txidStr) (LegacyCode.invalidParameter.withMessage "invalid txid")
  let chain ← mapErr snapshot databaseError
  let found ← mapErr (wallet.getTransaction txid) databaseError
  let tx ← okOr found
    (LegacyCode.invalidAddressOrKey.withMessage "Invalid or non-wallet transaction id")
  let accountIds ← mapErr wallet.getAccountIds databaseError
  let ufvks ← mapErr wallet.getUnifiedFullViewingKeys databaseError
  -- Spends first, so they can be used to tell whether the transaction was funded by the wallet.
  let inputs := transparentInputs tx
  let transparent ← inputs.zipIdx.mapM (transparentSpend wallet chain accountIds)
  let sapling ← saplingSpends wallet tx.saplingBundle
  let orchard ← orchardFamilySpends wallet tx.orchardBundle .orchard poolOrchard
  let ironwood ← orchardFamilySpends wallet tx.ironwoodBundle .ironwood poolIronwood
  let spends := transparent.map (·.1) ++ sapling ++ orchard ++ ironwood
  let fundedByThisWallet := spends.any (·.accountUuid.isSome)
  let saplingOut ← saplingOutputs wallet ufvks txid tx.saplingBundle
  let orchardOut ← orchardFamilyOutputs wallet .orchardVersion ufvks txid tx.orchardBundle .orchard
    poolOrchard
  let ironwoodOut ← orchardFamilyOutputs wallet .ironwoodVersion ufvks txid tx.ironwoodBundle
    .ironwood poolIronwood
  let chainTip ← mapErr chain.tip databaseError
  let info ← mapErr (WalletTxInfo.fetch wallet chain tx chainTip.height) databaseError
  let fee ← mapErr (tx.feePaid (inputValue (inputs.zip (transparent.map (·.2))))) fun e =>
    databaseError ("Failed to compute fee: " ++ e)
  let rows ← mapErr (wallet.balanceDeltas txid) databaseError
  let accounts ← rows.mapM accountEffect
  pure
    { txid := txidStr.toLower
      status := info.status
      confirmations := info.confirmations
      blockhash := info.blockhash
      blockindex := info.blockindex
      blocktime := info.blocktime
      version := tx.header &&& 0x7fffffff
      expiryheight := info.expiryheight
      fee := fee.map (valueFromZatoshis lib.toMoneyLib)
      generated := info.generated
      spends
      outputs := transparentOutputs wallet accountIds fundedByThisWallet tx ++ saplingOut ++
        orchardOut ++ ironwoodOut
      accounts }

end

end Zallet.ViewTransaction
