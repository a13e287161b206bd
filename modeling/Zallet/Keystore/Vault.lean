/-
# `Zallet.Keystore.Vault` — the keystore's secrets, stored and decrypted

The keystore has four tables, of mnemonics, legacy seeds and the standalone
keys of either kind.  A row is a public key, of whichever sort, and a secret
encrypted to the recipients that the wallet had when it was stored.  Every call
takes a handle for each of its statements, and anyone else may have been there
in between: another call, `unlock` and `lock`, or whoever adds recipients and
addresses (`Outside`).

The calls are those of the keystore, and the two methods that live off it:
`z_getnewaccount` and `z_exportkey`.
-/
import Zallet.Data.Table
import Zallet.Data.Text
import Zallet.Error
import Zallet.Keystore.Recipients
import Zallet.Keystore.Relock
import Zallet.Migrate.Document
import Zallet.Rpc.Imports

namespace Zallet.Vault

open Prog
open Recipients (fromRecipientStrings)
open Text (fromUtf8 utf8)

/-! ## The libraries -/

inductive Format where
  | binary | asciiArmor
  deriving DecidableEq, Repr

/-- What is used of the encryption, mnemonic and key libraries. -/
structure VaultLib extends KeyLib where
  SaplingAddress : Type
  SecretKey : Type
  datadir : String
  /-- `read_recipients` -/
  readRecipients : List String → Except String Unit
  decrypt : List Identity → List UInt8 → Except String (List UInt8)
  toSeed : Mnemonic → Seed
  mnemonicFromPhrase : String → Except String Mnemonic
  seedFingerprintFromSeed : Seed → Option SeedFingerprint
  decodePaymentAddress : String → String → Except String SaplingAddress
  encodeExtendedSpendingKey : String → ExtendedSpendingKey → String
  dfvkFromBytes : List UInt8 → Option DiversifiableFullViewingKey
  /-- `decrypt_diversifier(address).is_some()` -/
  decryptsDiversifier : DiversifiableFullViewingKey → SaplingAddress → Bool
  extendedSpendingKeyFromBytes : List UInt8 → Option ExtendedSpendingKey
  encodeTransparentAddress : TransparentAddress → String
  secretBytes : SecretKey → List UInt8
  secretKeyFromSlice : List UInt8 → Except String SecretKey
  publicKey : SecretKey → PublicKey

/-! ## What is asked of the surroundings -/

/-- The tables of secrets. -/
inductive Store where
  | mnemonics | legacySeeds | saplingKeys | transparentKeys
  deriving DecidableEq, Repr

/-- A row: what the secret is found by, and the secret encrypted. -/
abbrev Row : Type := List UInt8 × List UInt8

inductive VaultOp where
  | handle
  /-- the identities in memory, under the read lock -/
  | identities
  | selectRecipients
  | encrypt (format : Format) (recipients : List String) (plaintext : List UInt8)
  /-- `INSERT … ON CONFLICT … DO NOTHING`, of one row or of several in one transaction -/
  | insert (store : Store) (rows : List Row)
  | select (store : Store) (key : List UInt8)
  | selectKeys (store : Store)
  | selectAll (store : Store)
  /-- the key of an address, through the wallet's addresses -/
  | selectByAddress (address : String)
  | snapshot
  | chainHeight
  | tip (view : ChainViewRef)
  | treeStateAsOf (view : ChainViewRef) (height : ℕ)
  | createAccount (name : String) (seed : Seed) (birthday : AccountBirthday)

abbrev VaultOp.Ans : VaultOp → Type
  | .handle => Except String Unit
  | .identities => List Identity
  | .selectRecipients => Except String (List String)
  | .encrypt _ _ _ => Except String (List UInt8)
  | .insert _ _ => Except String Unit
  | .select _ _ => Except String (Option (List UInt8))
  | .selectKeys _ => Except String (List (List UInt8))
  | .selectAll _ => Except String (List Row)
  | .selectByAddress _ => Except String (Option (List UInt8))
  | .snapshot => Except String ChainViewRef
  | .chainHeight => Except String (Option ℕ)
  | .tip _ => Except String ℕ
  | .treeStateAsOf _ _ => Except String (Option ChainState)
  | .createAccount _ _ _ => Except String AccountUuid

abbrev vaultSig : Sig := ⟨VaultOp, VaultOp.Ans⟩

abbrev VaultProg := Prog vaultSig Error

/-! ## Errors -/

section
variable {α : Type}

/-- `ErrorKind::Generic.context(e)` -/
def generic (r : Except String α) : Except Error α := r.mapError ErrorKind.generic.context

/-- The one row of a query; none is an error as well. -/
def oneRow (r : Except String (Option α)) : Except Error α :=
  generic <| r.bind fun
    | some a => .ok a
    | none => .error "Query returned no rows"

end

def errWalletLocked : Error := ErrorKind.generic.context "Wallet is locked"

def missingRecipients (datadir : String) : Error :=
  ErrorKind.generic.context <|
    "The wallet has not been set up to store key material securely.\n" ++
    s!"Have you run 'zallet -d {datadir} init-wallet-encryption'?"

def errFailedSeedFingerprinting : Error :=
  ErrorKind.generic.context <|
    "Zallet was unable to import invalid seed data, likely due to the seed having\n" ++
    "an invalid length."

section
variable (lib : VaultLib)

/-! ## Storing -/

/-- It may have no recipients. -/
def maybeEncryptor : VaultProg Encryptor := do
  query .handle generic
  query .selectRecipients fun answer =>
    generic (answer.bind (fromRecipientStrings lib.readRecipients))

def encryptor : VaultProg Encryptor := do
  let encryptor ← maybeEncryptor lib
  if encryptor.recipients = [] then .fail (missingRecipients lib.datadir)
  else pure encryptor

def encryptString (encryptor : Encryptor) (plaintext : String) (format : Format) :
    VaultProg (List UInt8) :=
  query (.encrypt format encryptor.recipients (utf8 plaintext)) generic

def encryptSecret (encryptor : Encryptor) (secret : List UInt8) : VaultProg (List UInt8) :=
  query (.encrypt .binary encryptor.recipients secret) generic

/-- `with_db_mut`, with the inserts. -/
def insertRows (store : Store) (rows : List Row) : VaultProg Unit := do
  query .handle generic
  query (.insert store rows) generic

def encryptAndStoreMnemonic (mnemonic : Mnemonic) : VaultProg SeedFingerprint := do
  let encryptor ← encryptor lib
  match lib.seedFingerprintFromSeed (lib.toSeed mnemonic) with
  | none => .crash "valid length"
  | some seedFp => do
      let encrypted ← encryptString encryptor mnemonic.phrase .binary
      insertRows .mnemonics [(seedFp.bytes, encrypted)]
      pure seedFp

def encryptAndStoreLegacySeed (legacySeed : Seed) : VaultProg SeedFingerprint := do
  let encryptor ← encryptor lib
  match lib.seedFingerprintFromSeed legacySeed with
  | none => .fail errFailedSeedFingerprinting
  | some seedFp => do
      let encrypted ← encryptSecret encryptor legacySeed.bytes
      insertRows .legacySeeds [(seedFp.bytes, encrypted)]
      pure seedFp

def encryptAndStoreStandaloneSaplingKey (saplingKey : ExtendedSpendingKey) :
    VaultProg DiversifiableFullViewingKey := do
  let encryptor ← encryptor lib
  let dfvk := lib.toDiversifiableFullViewingKey saplingKey
  let encrypted ← encryptSecret encryptor saplingKey.bytes
  insertRows .saplingKeys [(dfvk.bytes, encrypted)]
  pure dfvk

def encryptStandaloneTransparentKey (encryptor : Encryptor) (key : lib.SecretKey) :
    VaultProg Row := do
  let encrypted ← encryptSecret encryptor (lib.secretBytes key)
  pure ((lib.publicKey key).bytes, encrypted)

/-- The encryptor, a row for each of the keys, and `store_encrypted_standalone_transparent_keys`. -/
def storeStandaloneTransparentKeys (keys : List lib.SecretKey) : VaultProg Unit := do
  let encryptor ← encryptor lib
  let rows ← keys.foldlM (fun rows key => do
    let row ← encryptStandaloneTransparentKey lib encryptor key
    pure (rows ++ [row])) []
  insertRows .transparentKeys rows

/-! ## Decrypting -/

def decryptString (identities : List Identity) (ciphertext : List UInt8) : Except String String :=
  (lib.decrypt identities ciphertext).bind fun plaintext =>
    match fromUtf8 plaintext with
    | some s => .ok s
    | none => .error "stream did not contain valid UTF-8"

/-- The read lock on the identities, of which there have to be some. -/
def unlocked : VaultProg (List Identity) := do
  let identities ← ask (E := vaultSig) .identities
  if identities = [] then .fail errWalletLocked else pure identities

def decryptMnemonic (seedFp : SeedFingerprint) : VaultProg String := do
  let identities ← unlocked
  query .handle generic
  let encrypted ← query (.select .mnemonics seedFp.bytes) oneRow
  ofExcept id (generic (decryptString lib identities encrypted))

def decryptSeed (seedFp : SeedFingerprint) : VaultProg Seed := do
  let mnemonic ← decryptMnemonic lib seedFp
  let mnemonic ← ofExcept id (generic (lib.mnemonicFromPhrase mnemonic))
  pure (lib.toSeed mnemonic)

def exportMnemonic (seedFp : SeedFingerprint) (armor : Bool) : VaultProg (List UInt8) := do
  let encryptor ← encryptor lib
  let mnemonic ← decryptMnemonic lib seedFp
  encryptString encryptor mnemonic (if armor then .asciiArmor else .binary)

def decryptStandaloneSaplingExtsk (identities : List Identity) (ciphertext : List UInt8) :
    Except String ExtendedSpendingKey :=
  (lib.decrypt identities ciphertext).bind fun plaintext =>
    match lib.extendedSpendingKeyFromBytes plaintext with
    | some extsk => .ok extsk
    | none => .error "Invalid Sapling extended spending key"

/-- The row is one of a viewing key that decrypts the diversifier of the address. -/
def rowOfAddress (address : lib.SaplingAddress) (row : Row) : Bool :=
  if row.1.length = 128 then
    match lib.dfvkFromBytes row.1 with
    | some dfvk => lib.decryptsDiversifier dfvk address
    | none => false
  else false

def decryptStandaloneSaplingKey (address : lib.SaplingAddress) :
    VaultProg (Option ExtendedSpendingKey) := do
  let identities ← unlocked
  query .handle generic
  let rows ← query (.selectAll .saplingKeys) generic
  match rows.find? (rowOfAddress lib address) with
  | none => pure none
  | some row => do
      let extsk ← ofExcept id (generic (decryptStandaloneSaplingExtsk lib identities row.2))
      pure (some extsk)

def decryptStandaloneTransparentKey (address : TransparentAddress) : VaultProg lib.SecretKey := do
  let identities ← unlocked
  query .handle generic
  let encrypted ← query (.selectByAddress (lib.encodeTransparentAddress address)) oneRow
  ofExcept id (generic ((lib.decrypt identities encrypted).bind lib.secretKeyFromSlice))

/-! ## Listing -/

def listFingerprints (store : Store) : VaultProg (List SeedFingerprint) := do
  query .handle generic
  let keys ← query (.selectKeys store) generic
  -- collected into a `HashSet`
  pure (keys.map SeedFingerprint.mk).dedup

def listSeedFingerprints : VaultProg (List SeedFingerprint) := listFingerprints .mnemonics

def listLegacySeedFingerprints : VaultProg (List SeedFingerprint) := listFingerprints .legacySeeds

/-! ## The methods -/

abbrev VaultRpc := Prog vaultSig RpcError

def ensureUnlocked : VaultRpc Unit := do
  let identities ← ask (E := vaultSig) .identities
  if identities = [] then
    .fail (LegacyCode.walletUnlockNeeded.withMessage
      "Error: Please enter the wallet passphrase with walletpassphrase first.")
  else pure ()

def zExportKey (address : String) : VaultRpc String := do
  ensureUnlocked
  let paymentAddress ← ofExcept
    (fun e => LegacyCode.invalidAddressOrKey.withMessage s!"Invalid Sapling address: {e}")
    (lib.decodePaymentAddress lib.hrpSaplingPaymentAddress address)
  let found ← (decryptStandaloneSaplingKey lib paymentAddress).mapErr
    fun e => LegacyCode.wallet.withMessage e.toString
  match found with
  | none => .fail (LegacyCode.invalidAddressOrKey.withMessage
      "Wallet does not hold the spending key for this Sapling address")
  | some extsk =>
      pure (lib.encodeExtendedSpendingKey lib.hrpSaplingExtendedSpendingKey extsk)

/-- Which seed the new account is derived from. -/
def chooseSeed (seedFps : List SeedFingerprint) (seedfp : Option SeedFingerprint) :
    Except RpcError SeedFingerprint :=
  match seedFps, seedfp with
  | [], _ => .error (LegacyCode.wallet.withMessage
      "Wallet does not contain any seeds to generate accounts with")
  | [seedFp], none => .ok seedFp
  | _, none => .error (LegacyCode.invalidParameter.withMessage
      "Wallet has more than one seed; seedfp argument must be provided")
  | seedFps, some seedfp =>
      if seedfp ∈ seedFps then .ok seedfp
      else .error (LegacyCode.invalidParameter.withMessage
        "seedfp does not match any seed in the wallet")

def orDatabase {α : Type} (r : Except String α) : Except RpcError α :=
  r.mapError LegacyCode.database.withMessage

def zGetNewAccount (accountName : String) (seedfp : Option String) : VaultRpc AccountUuid := do
  ensureUnlocked
  let seedfp ← ofExcept id (seedfp.mapM (parseSeedfpParameter lib.toKeyLib))
  let chainView ← query .snapshot orDatabase
  let chainHeight ← query .chainHeight fun answer =>
    (orDatabase answer).bind fun
      | some height => .ok height
      | none => .error (LegacyCode.inWarmup.withMessage "Wallet sync required")
  let tip ← query (.tip chainView) orDatabase
  let treestateHeight := min chainHeight tip - 1
  let chainState ← query (.treeStateAsOf chainView treestateHeight) fun answer =>
    answer.mapError fun e => LegacyCode.invalidParameter.withMessage
      s!"Failed to get treestate at height {treestateHeight}: {e}"
  match chainState with
  | none => .crash "always in range"
  | some chainState => do
      let seedFps ← listSeedFingerprints.mapErr fun e => LegacyCode.database.withMessage e.toString
      let seedFp ← ofExcept id (chooseSeed seedFps seedfp)
      let seed ← (decryptSeed lib seedFp).mapErr fun e => LegacyCode.database.withMessage e.toString
      query (.createAccount accountName seed ⟨chainState, none⟩) orDatabase

end

end Zallet.Vault
