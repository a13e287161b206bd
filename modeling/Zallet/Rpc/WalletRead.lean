/-
# `Zallet.Rpc.WalletRead` — what is read of a wallet

The wallet database as the methods that list a wallet's outputs read it.  A
`WalletRead` has one field for each method that is called: it answers, or fails
with the text of its error.  Nothing is written between the reads of one call.

Addresses and memos are those of libraries (`AddressLib`), whose encodings are
for the wallet's own network.
-/
import Zallet.Chain.Types
import Zallet.Rpc.Amounts
import Mathlib.Data.PNat.Basic

namespace Zallet

inductive ShieldedPool where
  | sapling | orchard | ironwood
  deriving DecidableEq, Repr

/-- `zip32::Scope` -/
inductive Scope where
  | external | internal
  deriving DecidableEq, Repr

inductive TransparentKeyScope where
  | external | internal | ephemeral
  | custom (index : ℕ)
  deriving DecidableEq, Repr

/-- An address of an imported spending key has no scope. -/
structure TransparentAddressMetadata where
  scope : Option TransparentKeyScope
  deriving DecidableEq, Repr

inductive AccountPurpose where
  | spending | viewOnly
  deriving DecidableEq, Repr

/-! ## Addresses and memos -/

/-- A memo; only texts are looked into. -/
inductive Memo where
  | text (s : String)
  | other (bytes : List UInt8)
  deriving DecidableEq, Repr

def Memo.text? : Memo → Option String
  | .text s => some s
  | .other _ => none

/-- `zcash_keys::address::Receiver` -/
inductive AddressReceiver (SaplingAddress OrchardAddress : Type) where
  | orchard (address : OrchardAddress)
  | sapling (address : SaplingAddress)
  | transparent (address : TransparentAddress)
  deriving DecidableEq

structure AddressLib extends MoneyLib where
  SaplingAddress : Type
  OrchardAddress : Type
  decSapling : DecidableEq SaplingAddress
  decOrchard : DecidableEq OrchardAddress
  Address : Type
  UnifiedAddress : Type
  /-- `Address::decode` -/
  decode : String → Option Address
  toTransparentAddress : Address → Option TransparentAddress
  toSaplingAddress : Address → Option SaplingAddress
  asUnderstoodUnifiedReceivers : Address → List (AddressReceiver SaplingAddress OrchardAddress)
  /-- `UnifiedAddress::from_receivers` -/
  fromReceivers : Option OrchardAddress → Option SaplingAddress → Option TransparentAddress →
    Option UnifiedAddress
  encodeTransparent : TransparentAddress → String
  encodeSapling : SaplingAddress → String
  encodeUnified : UnifiedAddress → String
  /-- `Memo::encode` -/
  encodeMemo : Memo → List UInt8
  /-- `hex::encode` -/
  hexEncode : List UInt8 → String

attribute [instance] AddressLib.decSapling AddressLib.decOrchard

/-- What is relied on: an Orchard receiver alone makes a unified address. -/
structure AddressLib.Documented (lib : AddressLib) : Prop where
  fromReceivers : ∀ orchard, ∃ address, lib.fromReceivers (some orchard) none none = some address

/-! ## The database -/

/-- An unspent transparent output of the wallet; the script's address is the one it names. -/
structure Utxo where
  outpoint : OutPoint
  recipientAddress : TransparentAddress
  txoutRecipientAddress : Option TransparentAddress
  value : Zatoshis
  minedHeight : Option ℕ
  deriving DecidableEq

structure ReceivedNote (Recipient : Type) where
  txid : TxId
  outputIndex : ℕ
  recipient : Recipient
  value : Zatoshis
  spendingKeyScope : Scope
  deriving DecidableEq

structure ReceivedNotes (lib : AddressLib) where
  sapling : List (ReceivedNote lib.SaplingAddress)
  orchard : List (ReceivedNote lib.OrchardAddress)
  ironwood : List (ReceivedNote lib.OrchardAddress)

/-- The notes of these pools. -/
def ReceivedNotes.only {lib : AddressLib} (notes : ReceivedNotes lib) (sources : List ShieldedPool) :
    ReceivedNotes lib where
  sapling := if .sapling ∈ sources then notes.sapling else []
  orchard := if .orchard ∈ sources then notes.orchard else []
  ironwood := if .ironwood ∈ sources then notes.ironwood else []

structure NoteId where
  txid : TxId
  pool : ShieldedPool
  outputIndex : ℕ
  deriving DecidableEq, Repr

structure ConfirmationsPolicy where
  trusted : ℕ+
  untrusted : ℕ+
  allowZeroConfShielding : Bool
  deriving DecidableEq

def ConfirmationsPolicy.newSymmetrical (minConfirmations : ℕ+) (allowZeroConfShielding : Bool) :
    ConfirmationsPolicy := ⟨minConfirmations, minConfirmations, allowZeroConfShielding⟩

/-- The confirmations that a transparent output has to have. -/
def ConfirmationsPolicy.transparent (policy : ConfirmationsPolicy) : ℕ :=
  if policy.allowZeroConfShielding then 0 else policy.untrusted

inductive TransparentOutputFilter where
  | all | coinbaseOnly
  deriving DecidableEq, Repr

structure WalletRead (lib : AddressLib) where
  chainHeight : Except String (Option ℕ)
  getAccountIds : Except String (List AccountUuid)
  getAccount : AccountUuid → Except String (Option AccountPurpose)
  getTransparentReceivers : AccountUuid → Bool → Bool →
    Except String (List (TransparentAddress × TransparentAddressMetadata))
  getTransparentAddressMetadata : AccountUuid → TransparentAddress →
    Except String (Option TransparentAddressMetadata)
  getSpendableTransparentOutputs : TransparentAddress → ℕ → ConfirmationsPolicy →
    TransparentOutputFilter → Except String (List Utxo)
  selectUnspentNotes : AccountUuid → List ShieldedPool → ℕ → Except String (ReceivedNotes lib)
  getMemo : NoteId → Except String (Option Memo)
  getTxHeight : TxId → Except String (Option ℕ)

/-- Confirmations at a target height of what was mined at a height, if it was. -/
def confirmationsAt (target : ℕ) (minedHeight : Option ℕ) : ℕ := minedHeight.elim 0 (target - ·)

end Zallet
