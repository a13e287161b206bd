/-
# `Zallet.Spend.Ops` — what the methods that spend have in common

`z_sendmany` and `z_shieldcoinbase` ask the same of their surroundings: the
wallet database, the keystore and the chain backend.  Each request is an
operation of `SpendOp`, answered with a result or an error.  Below are the
functions that both methods call: the account of an address, the standalone
keys of a proposal, the construction of the transactions and their broadcast.

Addresses, amounts, spending keys and the texts of some errors are those of
libraries (`SpendLib`).
-/
import Zallet.Data.CheckedSum
import Zallet.Error
import Zallet.Keystore.Keys
import Zallet.Prog.Wp
import Zallet.Rpc.AsyncOp
import Zallet.Rpc.ListAddresses
import Zallet.Rpc.Payments
import Zallet.Rpc.Privacy
import Zallet.Rpc.WalletRead

namespace Zallet.Spend

open CheckedSum Prog
open ListAddresses (Account Typecode Zip32Derivation)

/-! ## Libraries -/

/-- `zcash_keys::address::Address` -/
inductive DecodedAddress (SaplingAddress UnifiedAddress : Type) where
  | sapling (address : SaplingAddress)
  | transparent (address : TransparentAddress)
  | unified (address : UnifiedAddress)
  | tex (pubkeyHash : ℕ)
  deriving DecidableEq

/-- A policy that something is incompatible with.  The last two are errors of `z_sendmany` alone. -/
inductive Incompatible where
  | proposal (e : IncompatiblePrivacyPolicy)
  | transparentReceiver
  | revealingReceiverAmounts
  deriving DecidableEq, Repr

structure TxOut where
  value : Zatoshis
  /-- The address that the script names, if it parses and names one. -/
  scriptAddress : Option TransparentAddress
  deriving DecidableEq

/-- What the methods use of their libraries, for the wallet's network. -/
structure SpendLib extends PaymentLib where
  SaplingAddress : Type
  UnifiedAddress : Type
  decSapling : DecidableEq SaplingAddress
  decUnified : DecidableEq UnifiedAddress
  receiverTypes : UnifiedAddress → List Typecode
  /-- `Address::decode` -/
  decode : String → Option (DecodedAddress SaplingAddress UnifiedAddress)
  /-- `Address::try_from_zcash_address`, its error as it is displayed -/
  tryFromZcashAddress : Address → Except String (DecodedAddress SaplingAddress UnifiedAddress)
  parseUuid : String → Option AccountUuid
  /-- `Zatoshis - Zatoshis` -/
  sub : Zatoshis → Zatoshis → Option Zatoshis
  /-- `ConfirmationsPolicy::new` -/
  newConfirmations : ℕ+ → ℕ+ → Bool → Option ConfirmationsPolicy
  UnifiedSpendingKey : Type
  SecretKey : Type
  /-- `UnifiedSpendingKey::from_seed` -/
  fromSeed : Seed → ℕ → Except String UnifiedSpendingKey
  /-- The output that is spent. -/
  txout : WalletTransparentOutput → TxOut
  displayTxId : TxId → String
  displayUuid : AccountUuid → String
  /-- `{:?}` -/
  debugStr : String → String
  debugAddress : TransparentAddress → String
  debugAccount : AccountUuid → String
  /-- `ConfirmationsPolicy::MIN` -/
  minConfirmations : ConfirmationsPolicy
  /-- The text of `err-privpol-*`, in the user's language. -/
  privacyText : Incompatible → String
  /-- The text of `err-excess-orchard-actions`: count, kind and limit. -/
  excessText : ℕ → String → ℕ → String
  /-- `json!({..})` of the parameters that an operation's context keeps -/
  sendManyParams : String → List AmountParameter → Option ℕ → JsonValue
  shieldCoinbaseParams : String → String → Option ℕ → JsonValue

attribute [instance] SpendLib.decSapling SpendLib.decUnified

variable (lib : SpendLib)

abbrev SpendLib.Decoded : Type := DecodedAddress lib.SaplingAddress lib.UnifiedAddress

/-- What is relied on of amounts: nothing is lost, and nothing fails that has a result. -/
structure SpendLib.Counts : Prop where
  add : ∀ a b c, lib.add a b = some c ↔ c.value = a.value + b.value
  sub : ∀ a b c, lib.sub a b = some c ↔ a.value = b.value + c.value

theorem SpendLib.Counts.checked {lib : SpendLib} (h : lib.Counts) :
    Checked Zatoshis.value maxMoney lib.add := Zatoshis.checked h.add

/-! ## What is asked of the surroundings -/

inductive TransparentAddressSource where
  | standalonePubkey | standaloneScript | derived
  deriving DecidableEq, Repr

structure SpendingKeys where
  usk : lib.UnifiedSpendingKey
  /-- The keys of an address; of most addresses there is none. -/
  standaloneKeys : TransparentAddress → List lib.SecretKey

/-- What `propose_shielding_coinbase` returns. -/
structure ShieldingProposal extends Proposal where
  minTargetHeight : ℕ

/-- The ids of the transactions that were created, one for each step of the proposal. -/
abbrev TxIds : Type := {txids : List TxId // txids ≠ []}

inductive SpendOp where
  | getAccountIds
  | listAddresses (account : AccountUuid)
  | getAccount (account : AccountUuid)
  | findAccountForAddress (address : TransparentAddress)
  | getTransparentReceivers (account : AccountUuid) (includeChange includeStandalone : Bool)
  | getSpendableTransparentOutputs (address : TransparentAddress) (targetHeight : ℕ)
      (confirmations : ConfirmationsPolicy) (filter : TransparentOutputFilter)
  | proposeTransfer (account : AccountUuid) (request : lib.TransactionRequest)
      (confirmations : ConfirmationsPolicy)
  | proposeShieldingCoinbase (fromAddrs : List TransparentAddress) (toAddress : lib.Address)
      (memo : Option lib.MemoBytes) (limit : Option ℕ)
  | decryptSeed (seedFp : SeedFingerprint)
  | decryptStandaloneTransparentKey (address : TransparentAddress)
  | createProposedTransactions (proposal : Proposal) (keys : SpendingKeys lib)
  | getTransaction (txid : TxId)
  | broadcastTransaction (tx : Transaction)

abbrev SpendOp.Ans : SpendOp lib → Type
  | .getAccountIds => Except String (List AccountUuid)
  | .listAddresses _ => Except String (List lib.Decoded)
  | .getAccount _ => Except String (Option Account)
  | .findAccountForAddress _ => Except String (Option AccountUuid)
  | .getTransparentReceivers _ _ _ =>
      Except String (List (TransparentAddress × TransparentAddressSource))
  | .getSpendableTransparentOutputs _ _ _ _ => Except String (List Utxo)
  | .proposeTransfer _ _ _ => Except String Proposal
  | .proposeShieldingCoinbase _ _ _ _ => Except String ShieldingProposal
  | .decryptSeed _ => Except Error Seed
  | .decryptStandaloneTransparentKey _ => Except Error lib.SecretKey
  | .createProposedTransactions _ _ => Except String TxIds
  | .getTransaction _ => Except String (Option Transaction)
  | .broadcastTransaction _ => Except String Unit

abbrev spendSig : Sig := ⟨SpendOp lib, SpendOp.Ans lib⟩

abbrev SpendProg := Prog (spendSig lib) RpcError

/-! ## Configuration -/

/-- What is read of the configuration. -/
structure SpendConfig where
  trustedConfirmations? : Option ℕ
  untrustedConfirmations? : Option ℕ
  orchardActions? : Option ℕ
  broadcast? : Option Bool

namespace SpendConfig

variable (cfg : SpendConfig)

def trustedConfirmations : ℕ := cfg.trustedConfirmations?.getD 3

def untrustedConfirmations : ℕ := cfg.untrustedConfirmations?.getD 10

def orchardActions : ℕ := cfg.orchardActions?.getD 50

def broadcast : Bool := cfg.broadcast?.getD true

/-- `NonZeroU32::new(n).unwrap_or(NonZeroU32::MIN)` -/
def atLeastOne (n : ℕ) : ℕ+ := n.toPNat'

def confirmationsPolicy : Option ConfirmationsPolicy :=
  lib.newConfirmations (atLeastOne cfg.trustedConfirmations) (atLeastOne cfg.untrustedConfirmations)
    (cfg.untrustedConfirmations = 0)

end SpendConfig

/-! ## Errors -/

section
variable {α : Type}

/-- An answer whose error is reported by its text. -/
def orReport (f : String → RpcError) (r : Except String α) : Except RpcError α := r.mapError f

/-- An answer of which nothing is an error as well. -/
def orNone (f : String → RpcError) (missing : RpcError) (r : Except String (Option α)) :
    Except RpcError α :=
  match r with
  | .ok (some a) => .ok a
  | .ok none => .error missing
  | .error e => .error (f e)

/-- The call of a function that computes: an error is returned, a panic ends the program. -/
def ofRpc (r : RpcResult Panic α) : SpendProg lib α :=
  match r.run with
  | .ok (.ok a) => .ret a
  | .ok (.error e) => .fail e
  | .error .overflow => .crash "overflow"
  | .error .expect => .crash "expect"

end

def Incompatible.toError (e : Incompatible) : RpcError :=
  LegacyCode.invalidParameter.withMessage (lib.privacyText e)

/-- `enforce_privacy_policy(..)?` -/
def enforce (proposal : Proposal) (policy : PrivacyPolicy) : SpendProg lib Unit :=
  match enforcePrivacyPolicy proposal policy with
  | .ok _ => .ret ()
  | .error (.incompatible e) => .fail (Incompatible.toError lib (.proposal e))
  | .error .assertion => .crash "assertion failed"

/-- What a failed decryption is reported as. -/
def decryptFailure (e : Error) : RpcError :=
  if e.kind = .generic ∧ e.toString = "Wallet is locked" then
    LegacyCode.walletUnlockNeeded.withMessage e.toString
  else LegacyCode.database.withMessage e.toString

/-! ## The account of an address -/

def noPaymentSource : RpcError :=
  LegacyCode.invalidAddressOrKey.withMessage
    "Invalid from address, no payment source found for address."

/-- The loop over the accounts. -/
def findAccount (address : lib.Decoded) : List AccountUuid → SpendProg lib Account
  | [] => .fail noPaymentSource
  | accountId :: rest => do
      let addresses ← query (.listAddresses accountId) (orReport LegacyCode.database.withMessage)
      if address ∈ addresses then
        match ← query (.getAccount accountId) (orReport LegacyCode.database.withMessage) with
        | some account => pure account
        | none => .crash "present"
      else findAccount address rest

def getAccountForAddress (address : lib.Decoded) : SpendProg lib Account := do
  let accountIds ← query .getAccountIds (orReport LegacyCode.database.withMessage)
  findAccount lib address accountIds

/-! ## The keys of a proposal -/

def TransparentAddressSource.isStandalone : TransparentAddressSource → Bool
  | .standalonePubkey | .standaloneScript => true
  | .derived => false

/-- `keys.entry(address).or_default().push(key)` -/
def pushKey {κ : Type} (keys : TransparentAddress → List κ) (address : TransparentAddress)
    (key : κ) : TransparentAddress → List κ :=
  Function.update keys address (keys address ++ [key])

def Proposal.transparentInputs (proposal : Proposal) : List WalletTransparentOutput :=
  proposal.steps.flatMap (·.transparentInputs)

/-- The key of one input is looked up if its script names an address that was imported. -/
def collectKey (standaloneAddrs : List TransparentAddress)
    (keys : TransparentAddress → List lib.SecretKey) (input : WalletTransparentOutput) :
    SpendProg lib (TransparentAddress → List lib.SecretKey) :=
  match (lib.txout input).scriptAddress with
  | none => pure keys
  | some address =>
      if address ∈ standaloneAddrs then do
        let secretKey ← query (.decryptStandaloneTransparentKey address)
          fun r => r.mapError decryptFailure
        pure (pushKey keys address secretKey)
      else pure keys

def collectStandaloneTransparentKeys (accountId : AccountUuid) (proposal : Proposal) :
    SpendProg lib (TransparentAddress → List lib.SecretKey) := do
  let receivers ← query (.getTransparentReceivers accountId true true)
    (orReport LegacyCode.database.withMessage)
  let standaloneAddrs := (receivers.filter (·.2.isStandalone)).map (·.1)
  (Proposal.transparentInputs proposal).foldlM (collectKey lib standaloneAddrs) fun _ => []

/-- The keys that sign: the account's own, and the standalone ones of the proposal. -/
def spendingKeys (accountId : AccountUuid) (derivation : Zip32Derivation) (proposal : Proposal) :
    SpendProg lib (SpendingKeys lib) := do
  let seed ← query (.decryptSeed derivation.seedFingerprint) fun r => r.mapError decryptFailure
  let usk ← ofExcept LegacyCode.invalidAddressOrKey.withMessage
    (lib.fromSeed seed derivation.accountIndex)
  let standaloneKeys ← collectStandaloneTransparentKeys lib accountId proposal
  pure ⟨usk, standaloneKeys⟩

/-! ## Transactions -/

/-- The result of sending a payment. -/
structure SendResult where
  /-- The ID of the resulting transaction, if the payment only produced one. -/
  txid : Option String
  txids : List String
  deriving DecidableEq, Repr

def SendResult.new (txids : List TxId) : SendResult :=
  let txids := txids.map lib.displayTxId
  ⟨if txids.length = 1 then txids.head? else none, txids⟩

/-- One turn of the loop. -/
def broadcastOne (txid : TxId) : SpendProg lib Unit := do
  let tx ← query (.getTransaction txid) (orNone
    (fun e => LegacyCode.database.withMessage s!"Failed to get transaction: {e}")
    (LegacyCode.wallet.withMessage s!"Wallet does not contain transaction {lib.displayTxId txid}"))
  query (.broadcastTransaction tx) (orReport fun e =>
    LegacyCode.wallet.withMessage s!"SendTransaction: Transaction commit failed:: {e}")

/-- Broadcasts the specified transactions to the network, if configured to do so. -/
def broadcastTransactions (cfg : SpendConfig) (txids : List TxId) : SpendProg lib SendResult := do
  if cfg.broadcast then txids.forM (broadcastOne lib)
  pure (SendResult.new lib txids)

/-- `run`, of either method: construct the transactions and send them. -/
def run (failure : String) (cfg : SpendConfig) (proposal : Proposal) (keys : SpendingKeys lib) :
    SpendProg lib SendResult := do
  let txids ← query (.createProposedTransactions proposal keys) (orReport fun e =>
    LegacyCode.wallet.withMessage s!"{failure}: {e}")
  broadcastTransactions lib cfg txids.1

end Zallet.Spend
