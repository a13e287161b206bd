/-
# `Zallet.Migrate.Document` — the document a `zcashd` wallet is exported to

The parts of a ZeWIF document that the migration reads or writes, what the
migration uses of the exporter and of the key libraries (`MigrateLib`), and
`enrichedDocument`: the document with what only the wallet knows filled in.
Strings with an encoding of their own (fingerprints, keys) stay strings here;
they are decoded where they are used.
-/
import Zallet.Keystore.Keys

namespace Zallet

/-- The `zcashd` account behind `getnewaddress` and `z_getnewaddress`. -/
def zcashdLegacyAccountIndex : Nat := 0x7FFFFFFF

def zcashdLegacySource : String := "zcashd_legacy"

def zcashdMnemonicSource : String := "zcashd_mnemonic"

inductive NetworkType where
  | main
  | test
  | regtest
  deriving DecidableEq, Repr

/-! ## Secrets -/

inductive MnemonicLanguage where
  | english
  | other (name : String)
  deriving DecidableEq, Repr

structure Bip39Mnemonic where
  mnemonic : String
  language : Option MnemonicLanguage
  deriving DecidableEq, Repr

inductive SeedMaterial where
  | bip39Mnemonic (mnemonic : Bip39Mnemonic)
  | legacySeed (bytes : List UInt8)
  deriving DecidableEq, Repr

structure SeedEntry where
  fingerprint : String
  material : SeedMaterial
  deriving DecidableEq, Repr

structure TransparentKeyEntry where
  spendingKey : String
  pubkey : List UInt8
  deriving DecidableEq, Repr

structure SaplingKeyEntry where
  spendingKey : String
  fvk : String
  deriving DecidableEq, Repr

structure SproutKeyEntry where
  spendingKey : String
  deriving DecidableEq, Repr

structure UnifiedKeyEntry where
  spendingKey : String
  deriving DecidableEq, Repr

structure SecretStore where
  seeds : List SeedEntry
  transparentKeys : List TransparentKeyEntry
  saplingKeys : List SaplingKeyEntry
  sproutKeys : List SproutKeyEntry
  unifiedKeys : List UnifiedKeyEntry
  deriving DecidableEq, Repr

def SecretStore.addSeed (store : SecretStore) (entry : SeedEntry) : SecretStore :=
  { store with seeds := store.seeds ++ [entry] }

inductive Secrets where
  | plain (store : SecretStore)
  | encrypted
  deriving DecidableEq, Repr

/-! ## Accounts -/

structure DerivedKeySource where
  seedFingerprint : String
  accountIndex : Nat
  legacyAddressIndex : Option Nat
  deriving DecidableEq, Repr

inductive KeySource where
  | derived (source : DerivedKeySource)
  | other
  deriving DecidableEq, Repr

inductive ProtocolAddress where
  | transparent (spendAuthority : Option String) (pubkey : Option (List UInt8))
  | other
  deriving DecidableEq, Repr

/-- A frontier that is not empty is known by its position and root. -/
inductive ZewifFrontier where
  | empty
  | nonEmpty (position : Nat) (root : Nat)
  deriving DecidableEq, Repr

structure ZewifChainState where
  height : Nat
  blockHash : BlockHash
  saplingTree : ZewifFrontier
  orchardTree : ZewifFrontier
  ironwoodTree : ZewifFrontier
  deriving DecidableEq, Repr

structure ZewifAccount where
  name : String
  keySource : Option KeySource
  addresses : List ProtocolAddress
  birthdayHeight : Option Nat
  birthdayChainState : Option ZewifChainState
  recoverUntilHeight : Option Nat
  deriving DecidableEq, Repr

structure ZewifWallet where
  network : NetworkType
  accounts : List ZewifAccount
  addressBook : List String
  extensions : List String
  deriving DecidableEq, Repr

/-- The hash of the block it was mined in, and its expiry height. -/
structure ZewifTransaction where
  blockPosition : Option BlockHash
  expiryHeight : Option Nat
  deriving DecidableEq, Repr

structure Zewif where
  exportHeight : Nat
  exportHeightBlockHash : Option BlockHash
  wallets : List ZewifWallet
  transactions : List (TxId × ZewifTransaction)
  secrets : Option Secrets
  extensions : List String
  deriving DecidableEq, Repr

/-- A dumped `zcashd` wallet: its network, the expiry heights of its transactions, and all the
other records. -/
structure ZcashdWallet where
  network : NetworkType
  expiryHeights : List Nat
  records : List (String × String)
  deriving DecidableEq, Repr

/-! ## The libraries -/

structure Mnemonic where
  phrase : String
  deriving DecidableEq, Repr

/-- A decoded spending key of a transparent address. -/
structure TransparentKey where
  secret : List UInt8
  compressed : Bool
  deriving DecidableEq, Repr

/-- What is encrypted in the keystore. -/
inductive Secret where
  | phrase (s : String)
  | bytes (b : List UInt8)
  deriving DecidableEq, Repr

/-- What the migration uses, beyond `KeyLib`: the network parameters, the exporter, and more of
the key libraries. -/
structure MigrateLib extends KeyLib where
  networkType : NetworkType
  /-- of Sapling -/
  activationHeight : Nat
  migrateToZewif : ZcashdWallet → Nat → Except String Zewif
  /-- human-readable part and bytes -/
  bech32mDecode : String → Option (String × List UInt8)
  encodeSeedFingerprint : SeedFingerprint → String
  seedFingerprintFromSeed : Seed → Option SeedFingerprint
  deriveMnemonic : List UInt8 → Option Mnemonic
  mnemonicFromPhrase : String → Except String Mnemonic
  toSeed : Mnemonic → Seed
  decodeBase58 : String → Option TransparentKey
  pubkey : TransparentKey → PublicKey
  serialize : PublicKey → List UInt8
  serializeUncompressed : PublicKey → List UInt8
  hrpSaplingExtendedFullViewingKey : String
  encodeExtendedFullViewingKey : String → ExtendedSpendingKey → String
  transparentAddressFromPubkey : PublicKey → TransparentAddress
  /-- what the wallet's identities make of a ciphertext -/
  decrypt : List UInt8 → Option Secret

def seedFingerprintHrp : String := "zip32seedfp"

def decodeSeedFingerprint (lib : MigrateLib) (fingerprint : String) : Option SeedFingerprint :=
  (lib.bech32mDecode fingerprint).bind fun (hrp, bytes) =>
    if hrp = seedFingerprintHrp ∧ bytes.length = 32 then some ⟨bytes⟩ else none

/-! ## Enrichment -/

def toZewifFrontier (tree : Tree) : ZewifFrontier :=
  if tree.size = 0 then .empty else .nonEmpty (tree.size - 1) tree.root

def toZewifChainState (chainState : ChainState) : ZewifChainState where
  height := chainState.blockHeight
  blockHash := chainState.blockHash
  saplingTree := toZewifFrontier chainState.finalSaplingTree
  orchardTree := toZewifFrontier chainState.finalOrchardTree
  ironwoodTree := toZewifFrontier chainState.finalIronwoodTree

/-- Point the legacy account at the mnemonic's seed. -/
def normalizedKeySource (mnemonicFp : Option String) : Option KeySource → Option KeySource
  | some (.derived derived) =>
      match mnemonicFp with
      | some mnemonicFp =>
          if derived.accountIndex = zcashdLegacyAccountIndex ∧
              derived.seedFingerprint ≠ mnemonicFp then
            some (.derived ⟨mnemonicFp, zcashdLegacyAccountIndex, derived.legacyAddressIndex⟩)
          else some (.derived derived)
      | none => some (.derived derived)
  | keySource => keySource

/-- What is known of the wallet's birthday. -/
structure Birthday where
  chainState : Option ZewifChainState
  recoverUntil : Option Nat
  noScanEstimate : Option Nat
  deriving DecidableEq, Repr

def enrichedAccount (mnemonicFp : Option String) (birthday : Birthday) (account : ZewifAccount) :
    ZewifAccount :=
  let account := { account with keySource := normalizedKeySource mnemonicFp account.keySource }
  match birthday.chainState with
  | some chainState =>
      { account with
        birthdayChainState := some chainState
        recoverUntilHeight := birthday.recoverUntil.or account.recoverUntilHeight }
  | none =>
      if account.birthdayHeight = none ∧ account.birthdayChainState = none then
        { account with birthdayHeight := birthday.noScanEstimate }
      else account

def enrichedDocument (document : Zewif) (secretStore : Option SecretStore)
    (mnemonicFp : Option String) (birthday : Birthday) (bufferWalletTransactions : Bool) :
    Zewif where
  exportHeight := document.exportHeight
  exportHeightBlockHash := document.exportHeightBlockHash
  wallets := document.wallets.map fun wallet =>
    { wallet with accounts := wallet.accounts.map (enrichedAccount mnemonicFp birthday) }
  transactions := if bufferWalletTransactions then document.transactions else []
  secrets := secretStore.map .plain
  extensions := document.extensions

end Zallet
