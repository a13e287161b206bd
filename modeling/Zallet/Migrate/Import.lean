/-
# `Zallet.Migrate.Import` — the migration of a `zcashd` wallet

`migrate_zcashd_wallet`, on an already dumped wallet.  First everything is read:
the chain, the accounts that are there (`checkNotImported`), the tree state at
the wallet's birthday (`planImport`).  Then come the writes, each committed by
itself: the secrets go to the keystore, one statement an entry
(`storeSecrets`), the document goes to the wallet database in one transaction,
and the watch-only keys that the document importer has no path for follow
account by account (`registerWatchOnly`).
-/
import Zallet.Migrate.Document
import Zallet.Data.Table
import Zallet.Prog.Wp

namespace Zallet

open Prog

/-! ## Errors -/

inductive SecretSinkError where
  | unsupportedMnemonicLanguage
  | invalidMnemonic (e : String)
  | seedFingerprintEncoding (encoding : String)
  | seedFingerprintMismatch (recorded : String)
  | transparentKeyDecoding
  | transparentKeyMismatch
  | saplingKeyDecoding (e : String)
  | saplingKeyMismatch
  | keystore (e : String)
  deriving DecidableEq, Repr

inductive MigrateError where
  | wrapped (e : String)
  | exporting (e : String)
  | importing (e : String)
  | secretSink (e : SecretSinkError)
  | encryptedSecrets
  | networkMismatch (walletNetwork dbNetwork : NetworkType)
  | networkNotSupported
  | database (e : String)
  | multiImportDisabled
  | duplicateImport (seedFingerprint : SeedFingerprint)
  deriving DecidableEq, Repr

def errFailedSeedFingerprinting : String :=
  "Zallet was unable to import invalid seed data, likely due to the seed having\n" ++
    "an invalid length."

def errMigrateWalletInvalidChainData (err : String) : String :=
  "Invalid chain data was encountered in wallet migration. This is indicative of a\n" ++
    s!"programming error; please report the following error to (TBD): '{err}'"

/-! ## What is asked of the surroundings -/

/-- What a secret is stored under, and in which of the keystore's tables. -/
inductive SecretId where
  | mnemonic (seedFp : SeedFingerprint)
  | legacySeed (seedFp : SeedFingerprint)
  | standaloneTransparentKey (pubkey : PublicKey)
  | standaloneSaplingKey (dfvk : DiversifiableFullViewingKey)
  deriving DecidableEq, Repr

inductive AccountSource where
  | derived (seedFingerprint : SeedFingerprint) (keySource : Option String)
  | imported
  deriving DecidableEq, Repr

structure WalletAccount where
  uuid : AccountUuid
  source : AccountSource
  deriving DecidableEq, Repr

/-- The imported accounts, by name. -/
structure ZewifImportReport where
  importedAccounts : List (String × AccountUuid)
  deriving DecidableEq, Repr

inductive MigrateOp where
  | handle
  | snapshot
  | tip (view : ChainViewRef)
  | blockHeight (view : ChainViewRef) (hash : BlockHash)
  | treeStateAsOf (view : ChainViewRef) (height : Nat)
  | getAccountIds
  | getAccount (accountId : AccountUuid)
  | encryptor
  | encrypt (encryptor : Encryptor) (secret : Secret)
  | insert (id : SecretId) (encrypted : List UInt8)
  | importWallet (document : Zewif)
  | importStandaloneTransparentPubkeys (account : AccountUuid) (pubkeys : List PublicKey)
  | markTransparentAddressesExposed (addresses : List (TransparentAddress × Nat))
  deriving DecidableEq, Repr

abbrev MigrateOp.Ans : MigrateOp → Type
  | .handle => Except String Unit
  | .snapshot => Except String ChainViewRef
  | .tip _ => Except String ChainBlock
  | .blockHeight _ _ => Except String (Option Nat)
  | .treeStateAsOf _ _ => Except String (Option ChainState)
  | .getAccountIds => Except String (List AccountUuid)
  | .getAccount _ => Except String (Option WalletAccount)
  | .encryptor => Except String Encryptor
  | .encrypt _ _ => Except String (List UInt8)
  | .insert _ _ => Except String Unit
  | .importWallet _ => Except String ZewifImportReport
  | .importStandaloneTransparentPubkeys _ _ => Except String Unit
  | .markTransparentAddressesExposed _ => Except String Unit

abbrev migrateSig : Sig := ⟨MigrateOp, MigrateOp.Ans⟩

abbrev MigrateProg := Prog migrateSig MigrateError

abbrev SinkProg := Prog migrateSig SecretSinkError

/-- The methods of the keystore, whose errors are told by their text. -/
abbrev KeystoreProg := Prog migrateSig String

section
variable (lib : MigrateLib)

/-! ## The keystore -/

/-- Encrypt a secret and insert it, unless there is one under its key. -/
def storeEncrypted (encryptor : Encryptor) (secretId : SecretId) (secret : Secret) :
    KeystoreProg Unit := do
  let encrypted ← query (.encrypt encryptor secret) id
  query (.insert secretId encrypted) id

def encryptAndStoreMnemonic (mnemonic : Mnemonic) : KeystoreProg SeedFingerprint := do
  let encryptor ← query .encryptor id
  match lib.seedFingerprintFromSeed (lib.toSeed mnemonic) with
  | none => .crash "valid length"
  | some seedFp => do
      storeEncrypted encryptor (.mnemonic seedFp) (.phrase mnemonic.phrase)
      pure seedFp

def encryptAndStoreLegacySeed (legacySeed : List UInt8) : KeystoreProg SeedFingerprint := do
  let encryptor ← query .encryptor id
  match lib.seedFingerprintFromSeed ⟨legacySeed⟩ with
  | none => .fail errFailedSeedFingerprinting
  | some seedFp => do
      storeEncrypted encryptor (.legacySeed seedFp) (.bytes legacySeed)
      pure seedFp

def KeystoreProg.encryptAndStoreStandaloneSaplingKey (saplingKey : ExtendedSpendingKey) :
    KeystoreProg Unit := do
  let encryptor ← query .encryptor id
  storeEncrypted encryptor (.standaloneSaplingKey (lib.toDiversifiableFullViewingKey saplingKey))
    (.bytes saplingKey.bytes)

/-! ## The secret sink -/

def checkFingerprint (recorded : String) (computed : SeedFingerprint) :
    Except SecretSinkError Unit :=
  match decodeSeedFingerprint lib recorded with
  | none => .error (.seedFingerprintEncoding recorded)
  | some decoded => if decoded = computed then .ok () else .error (.seedFingerprintMismatch recorded)

/-- Store the material of a seed, and return the fingerprint it is stored under. -/
def storeSeedMaterial : SeedMaterial → SinkProg SeedFingerprint
  | .bip39Mnemonic mnemonic =>
      if ∃ language ∈ mnemonic.language, language ≠ .english then .fail .unsupportedMnemonicLanguage
      else
        match lib.mnemonicFromPhrase mnemonic.mnemonic with
        | .error e => .fail (.invalidMnemonic e)
        | .ok mnemonic => (encryptAndStoreMnemonic lib mnemonic).mapErr .keystore
  | .legacySeed bytes => (encryptAndStoreLegacySeed lib bytes).mapErr .keystore

def storeSeed (entry : SeedEntry) : SinkProg Unit := do
  let computed ← storeSeedMaterial lib entry.material
  -- the seed is in the keystore by now
  ofExcept id (checkFingerprint lib entry.fingerprint computed)

def storeTransparentKey (encryptor : Encryptor) (entry : TransparentKeyEntry) : SinkProg Unit :=
  match lib.decodeBase58 entry.spendingKey with
  | none => .fail .transparentKeyDecoding
  | some key =>
      let pubkey := lib.pubkey key
      let serialized :=
        if key.compressed then lib.serialize pubkey else lib.serializeUncompressed pubkey
      if serialized = entry.pubkey then
        (storeEncrypted encryptor (.standaloneTransparentKey pubkey) (.bytes key.secret)).mapErr
          .keystore
      else .fail .transparentKeyMismatch

def storeSaplingKey (entry : SaplingKeyEntry) : SinkProg Unit :=
  match lib.decodeExtendedSpendingKey lib.hrpSaplingExtendedSpendingKey entry.spendingKey with
  | .error e => .fail (.saplingKeyDecoding e)
  | .ok extsk =>
      if lib.encodeExtendedFullViewingKey lib.hrpSaplingExtendedFullViewingKey extsk = entry.fvk then
        (KeystoreProg.encryptAndStoreStandaloneSaplingKey lib extsk).mapErr .keystore
      else .fail .saplingKeyMismatch

/-- One entry after the other. -/
def storeEach {ι : Type} (store : ι → SinkProg Unit) (entries : List ι) : SinkProg Unit :=
  entries.foldlM (fun _ entry => store entry) ()

/-- The sink only counts Sprout and unified keys. -/
def storeSecretStore (encryptor : Encryptor) (store : SecretStore) : SinkProg Unit := do
  storeEach (storeSeed lib) store.seeds
  storeEach (storeTransparentKey lib encryptor) store.transparentKeys
  storeEach (storeSaplingKey lib) store.saplingKeys

def storeSecrets (document : Zewif) : MigrateProg Unit := do
  let encryptor ← query .encryptor (Except.mapError .wrapped)
  match document.secrets with
  | some (.plain store) => (storeSecretStore lib encryptor store).mapErr .secretSink
  | _ => pure ()

/-! ## Before the writes -/

def checkNetwork (zewifNetwork networkType : NetworkType) : Except MigrateError Unit :=
  match zewifNetwork, networkType with
  | .main, .main => .ok ()
  | .test, .test => .ok ()
  | .regtest, .regtest => .error .networkNotSupported
  | walletNetwork, dbNetwork => .error (.networkMismatch walletNetwork dbNetwork)

/-- The chain view and the height of its tip, if the chain is used and past its genesis block. -/
def chainStart (scan : Bool) : MigrateProg (Option ChainViewRef × Option Nat) :=
  if scan then do
    let chainView ← query .snapshot (Except.mapError .wrapped)
    let tip ← query (.tip chainView) (Except.mapError .wrapped)
    pure (some chainView, if 0 < tip.height then some tip.height else none)
  else pure (none, none)

/-- The tip, or about where the wallet's last transaction was made. -/
def exportHeight (chainTip : Option Nat) (wallet : ZcashdWallet) : Nat :=
  (chainTip.or (wallet.expiryHeights.filter (0 < ·)).max?).getD lib.activationHeight

def SecretStore.mnemonicFp (store : SecretStore) : Option String :=
  store.seeds.findSome? fun entry =>
    match entry.material with
    | .bip39Mnemonic _ => some entry.fingerprint
    | .legacySeed _ => none

def SecretStore.legacySeed (store : SecretStore) : Option (List UInt8) :=
  store.seeds.findSome? fun entry =>
    match entry.material with
    | .bip39Mnemonic _ => none
    | .legacySeed bytes => some bytes

/-- Add the mnemonic that `zcashd` would have derived from a legacy seed. -/
def normalizeStore (store : SecretStore) : MigrateProg (SecretStore × Option String) :=
  match store.mnemonicFp, store.legacySeed with
  | some fp, _ => pure (store, some fp)
  | none, some seed =>
      match lib.deriveMnemonic seed with
      | none => .fail (.wrapped errFailedSeedFingerprinting)
      | some mnemonic =>
          match lib.seedFingerprintFromSeed (lib.toSeed mnemonic) with
          | none => .crash "BIP 39 seeds have a valid length"
          | some fp =>
              let fp := lib.encodeSeedFingerprint fp
              pure (store.addSeed ⟨fp, .bip39Mnemonic ⟨mnemonic.phrase, some .english⟩⟩, some fp)
  | none, none => pure (store, none)

def normalizeSecrets : Option Secrets → MigrateProg (Option SecretStore × Option String)
  | some (.plain store) => do
      let (store, mnemonicFp) ← normalizeStore lib store
      pure (some store, mnemonicFp)
  | some .encrypted => .fail .encryptedSecrets
  | none => pure (none, none)

/-- The seed an account of a `zcashd` wallet was derived from. -/
def AccountSource.zcashdFingerprint : AccountSource → Option SeedFingerprint
  | .derived fp keySource =>
      if keySource = some zcashdMnemonicSource ∨ keySource = some zcashdLegacySource then some fp
      else none
  | .imported => none

def existingZcashdSourcedAccounts : MigrateProg (List SeedFingerprint) := do
  let accountIds ← query .getAccountIds (Except.mapError .database)
  accountIds.foldlM (fun found accountId => do
    let account ← query (.getAccount accountId) (Except.mapError .database)
    match account with
    | none => .crash "account exists for just-retrieved id"
    | some account => pure (found ++ account.source.zcashdFingerprint.toList)) []

/-- Whether this wallet, or another where only one may, has been imported. -/
def checkNotImported (mnemonicFp : Option String) (allowMultipleWalletImports : Bool) :
    MigrateProg Unit := do
  let existing ← existingZcashdSourcedAccounts
  if existing = [] then pure ()
  else if allowMultipleWalletImports then
    match mnemonicFp.bind (decodeSeedFingerprint lib) with
    | some fp => if fp ∈ existing then .fail (.duplicateImport fp) else pure ()
    | none => pure ()
  else .fail .multiImportDisabled

/-- The main-chain heights of the blocks that the document's transactions were mined in. -/
def minedHeights (chainView : ChainViewRef) (document : Zewif) :
    MigrateProg (List (BlockHash × Nat)) :=
  document.transactions.foldlM (fun blockHeights tx =>
    match tx.2.blockPosition with
    | none => pure blockHeights
    | some blockHash =>
        if blockHash ∈ blockHeights.map (·.1) then pure blockHeights
        else do
          let height ← query (.blockHeight chainView blockHash) (Except.mapError .wrapped)
          pure (blockHeights ++ (height.map fun height => (blockHash, height)).toList)) []

def chainBirthday (chainView : ChainViewRef) (chainTip : Option Nat) (document : Zewif) :
    MigrateProg Birthday := do
  let blockHeights ← minedHeights chainView document
  let birthdayHeight := ((blockHeights.map (·.2)).min?.or chainTip).elim lib.activationHeight
    (max · lib.activationHeight)
  let treestateHeight := birthdayHeight - 1
  let chainState ← query (.treeStateAsOf chainView treestateHeight) (Except.mapError .wrapped)
  match chainState with
  | none => .fail (.wrapped (errMigrateWalletInvalidChainData
      s!"missing tree state for height {treestateHeight}"))
  | some chainState => pure ⟨some (toZewifChainState chainState), chainTip, none⟩

/-- Without the chain, from the expiry heights. -/
def noScanBirthdayEstimate (document : Zewif) : Nat :=
  ((((document.transactions.filterMap (·.2.expiryHeight)).filter (0 < ·)).min?.map (· - 1000)).map
    (max · lib.activationHeight)).getD lib.activationHeight

def walletBirthday (chainView : Option ChainViewRef) (chainTip : Option Nat) (document : Zewif) :
    MigrateProg Birthday :=
  match chainView with
  | some chainView => chainBirthday lib chainView chainTip document
  | none => pure ⟨none, none, some (noScanBirthdayEstimate lib document)⟩

/-- The height from which watch-only addresses are taken as exposed. -/
def exposureHeight (birthday : Birthday) : Nat :=
  ((birthday.chainState.map (·.height + 1)).or birthday.noScanEstimate).getD lib.activationHeight

/-- What is to be imported, and the height of exposure. -/
structure ImportPlan where
  document : Zewif
  exposureHeight : Nat

/-- All that is read, up to the document to be imported. -/
def planImport (scan : Bool) (wallet : ZcashdWallet)
    (bufferWalletTransactions allowMultipleWalletImports : Bool) : MigrateProg ImportPlan := do
  query .handle (Except.mapError .wrapped)
  ofExcept id (checkNetwork wallet.network lib.networkType)
  let (chainView, chainTip) ← chainStart scan
  let document ← ofExcept .exporting
    (lib.migrateToZewif wallet (exportHeight lib chainTip wallet))
  let (secretStore, mnemonicFp) ← normalizeSecrets lib document.secrets
  checkNotImported lib mnemonicFp allowMultipleWalletImports
  let birthday ← walletBirthday lib chainView chainTip document
  pure ⟨enrichedDocument document secretStore mnemonicFp birthday bufferWalletTransactions,
    exposureHeight lib birthday⟩

/-! ## Watch-only keys -/

/-- A public key of compressed form whose address the wallet cannot spend from. -/
def watchPubkey : ProtocolAddress → Option PublicKey
  | .transparent none (some pubkey) =>
      if pubkey.length = 33 then lib.publicKeyFromSlice pubkey else none
  | _ => none

/-- Where two imported accounts have one name, the later one has it. -/
def ZewifImportReport.accountByName (report : ZewifImportReport) (name : String) :
    Option AccountUuid :=
  (report.importedAccounts.reverse.find? (·.1 = name)).map (·.2)

def registerAccount (report : ZewifImportReport) (exposureHeight : Nat) (account : ZewifAccount) :
    MigrateProg Unit :=
  match report.accountByName account.name with
  | none => pure ()
  | some accountUuid =>
      let watchPubkeys := account.addresses.filterMap (watchPubkey lib)
      if watchPubkeys = [] then pure ()
      else do
        query (.importStandaloneTransparentPubkeys accountUuid watchPubkeys)
          (Except.mapError .database)
        query (.markTransparentAddressesExposed
            (watchPubkeys.map fun pk => (lib.transparentAddressFromPubkey pk, exposureHeight)))
          (Except.mapError .database)

def registerWatchOnly (plan : ImportPlan) (report : ZewifImportReport) : MigrateProg Unit :=
  (plan.document.wallets.flatMap (·.accounts)).foldlM
    (fun _ account => registerAccount lib report plan.exposureHeight account) ()

/-! ## All of it -/

def migrateZcashdWallet (scan : Bool) (wallet : ZcashdWallet)
    (bufferWalletTransactions allowMultipleWalletImports : Bool) : MigrateProg Unit := do
  let plan ← planImport lib scan wallet bufferWalletTransactions allowMultipleWalletImports
  storeSecrets lib plan.document
  let report ← query (.importWallet plan.document) (Except.mapError .importing)
  registerWatchOnly lib plan report

end

/-! ## The stores -/

/-- The wallet database's accounts, the public keys that are watched for by themselves, and from
which height addresses are exposed. -/
structure WalletData where
  accounts : List WalletAccount
  watched : List (AccountUuid × PublicKey)
  exposed : List (TransparentAddress × Nat)
  distinct : (accounts.map (·.uuid)).Nodup
  deriving DecidableEq, Repr

/-- The keystore's tables hold ciphertexts. -/
structure MigrateStores where
  wallet : WalletData
  keystore : Table SecretId (List UInt8)
  deriving DecidableEq, Repr

namespace MigrateStores

def watch (s : MigrateStores) (account : AccountUuid) (pubkeys : List PublicKey) : MigrateStores :=
  { s with wallet.watched := s.wallet.watched ++ pubkeys.map fun pk => (account, pk) }

def expose (s : MigrateStores) (addresses : List (TransparentAddress × Nat)) : MigrateStores :=
  { s with wallet.exposed := s.wallet.exposed ++ addresses }

end MigrateStores

/-- What importing a document may do to the wallet database, and what it reports. -/
abbrev Importer := WalletData → Zewif → ZewifImportReport → WalletData → Prop

/-- How the stores answer.  Inserts and the import of the document are done or fail and do nothing;
of the watch-only keys some may be registered before one is not.  The chain answers anything. -/
def migrateStep (lib : MigrateLib) (importer : Importer) (s : MigrateStores) :
    (op : MigrateOp) → op.Ans → MigrateStores → Prop
  | .getAccountIds, .ok ids, s' => ids = s.wallet.accounts.map (·.uuid) ∧ s' = s
  | .getAccount uuid, .ok account, s' => account = s.wallet.accounts.find? (·.uuid = uuid) ∧ s' = s
  | .encrypt _ secret, .ok encrypted, s' => lib.decrypt encrypted = some secret ∧ s' = s
  | .insert id encrypted, .ok (), s' =>
      s' = { s with keystore := s.keystore.insertNew (id, encrypted) }
  | .importWallet document, .ok report, s' =>
      s'.keystore = s.keystore ∧ importer s.wallet document report s'.wallet
  | .importStandaloneTransparentPubkeys account pubkeys, .ok (), s' => s' = s.watch account pubkeys
  | .importStandaloneTransparentPubkeys account pubkeys, .error _, s' =>
      ∃ k, s' = s.watch account (pubkeys.take k)
  | .markTransparentAddressesExposed addresses, .ok (), s' => s' = s.expose addresses
  | .markTransparentAddressesExposed addresses, .error _, s' => ∃ k, s' = s.expose (addresses.take k)
  | _, _, s' => s' = s

end Zallet
