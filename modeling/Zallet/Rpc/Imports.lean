/-
# `Zallet.Rpc.Imports` — the methods that import accounts, keys and addresses

`z_recoveraccounts`, `z_importkey` and `z_importaddress`.  What they ask of the
chain backend, of the wallet database and of the keystore are the operations of
`ImportOp`, answered with a result or the text of an error; what they use of the
key libraries is pure (`KeyLib`).  A write to one of the two stores is one
operation: it is done or it fails and does nothing (`importStep`).
-/
import Mathlib.Algebra.Group.Nat.Defs
import Zallet.Rpc.Error
import Zallet.Chain.Types
import Zallet.Keystore.Keys
import Zallet.Prog.Wp

namespace Zallet

open Prog

structure AccountBirthday where
  priorChainState : ChainState
  recoverUntil : Option Nat
  deriving DecidableEq, Repr

/-! ## What is asked of the surroundings -/

inductive ImportOp where
  | isLocked
  | snapshot
  | treeStateAsOf (view : ChainViewRef) (height : Nat)
  | chainHeight
  | decryptSeed (seedFp : SeedFingerprint)
  | importAccountHd (name : String) (seed : Seed) (accountIndex : Nat) (birthday : AccountBirthday)
  | encryptor
  | encryptStandaloneSaplingKey (encryptor : Encryptor) (key : ExtendedSpendingKey)
  | insertStandaloneSaplingKey (dfvk : DiversifiableFullViewingKey) (encrypted : List UInt8)
  | getAccountForUfvk (ufvk : UnifiedFullViewingKey)
  | importAccountUfvk (name : String) (ufvk : UnifiedFullViewingKey) (birthday : AccountBirthday)
  | importStandaloneTransparentPubkey (account : AccountUuid) (pubkey : PublicKey)
  | importStandaloneTransparentScript (account : AccountUuid) (script : Redeem)
  | getAccountBirthday (account : AccountUuid)
  | rewindToChainState (chainState : ChainState)
  deriving DecidableEq, Repr

abbrev ImportOp.Ans : ImportOp → Type
  | .isLocked => Bool
  | .snapshot => Except String ChainViewRef
  | .treeStateAsOf _ _ => Except String (Option ChainState)
  | .chainHeight => Except String (Option Nat)
  | .decryptSeed _ => Except String Seed
  | .importAccountHd _ _ _ _ => Except String AccountUuid
  | .encryptor => Except String Encryptor
  | .encryptStandaloneSaplingKey _ _ => Except String (List UInt8)
  | .insertStandaloneSaplingKey _ _ => Except String Unit
  | .getAccountForUfvk _ => Except String (Option AccountUuid)
  | .importAccountUfvk _ _ _ => Except String AccountUuid
  | .importStandaloneTransparentPubkey _ _ => Except String Unit
  | .importStandaloneTransparentScript _ _ => Except String Unit
  | .getAccountBirthday _ => Except String Nat
  | .rewindToChainState _ => Except String Unit

abbrev importSig : Sig := ⟨ImportOp, ImportOp.Ans⟩

abbrev ImportProg := Prog importSig RpcError

/-- A `Result` whose error is reported by its text. -/
def orFail {α : Type} (f : String → RpcError) (r : Except String α) : Except RpcError α :=
  r.mapError f

/-- What is read out of a `Result<Option<_>, _>`, where nothing is an error as well. -/
def orMissing {α : Type} (f : String → RpcError) (missing : RpcError)
    (r : Except String (Option α)) : Except RpcError α :=
  match r with
  | .ok (some a) => .ok a
  | .ok none => .error missing
  | .error e => .error (f e)

/-! ## `z_recoveraccounts` -/

structure AccountParameter where
  name : String
  seedfp : String
  zip32AccountIndex : Nat
  birthdayHeight : Nat
  deriving DecidableEq, Repr

structure RecoveredAccount where
  accountUuid : AccountUuid
  seedfp : String
  zip32AccountIndex : Nat
  deriving DecidableEq, Repr

/-- The arguments for one account, as they are prepared. -/
structure AccountArgs where
  name : String
  seedFp : SeedFingerprint
  accountIndex : Nat
  birthday : AccountBirthday
  deriving DecidableEq, Repr

def ensureWalletIsUnlocked : ImportProg Unit := do
  if ← ask ImportOp.isLocked then
    .fail (LegacyCode.walletUnlockNeeded.withMessage
      "Error: Please enter the wallet passphrase with walletpassphrase first.")
  else pure ()

section
variable (lib : KeyLib)

def parseSeedfp (seedfp : String) : Except String SeedFingerprint :=
  match lib.seedFingerprintFromStr seedfp with
  | .ok fp => .ok fp
  | .error e =>
      -- the hex encoding of `zcashd`, whose byte order is the reverse
      match lib.hexDecode seedfp with
      | some hash => if hash.length = 32 then .ok ⟨hash.reverse⟩ else .error e
      | none => .error e

def parseSeedfpParameter (seedfp : String) : Except RpcError SeedFingerprint :=
  (parseSeedfp lib seedfp).mapError fun e =>
    LegacyCode.invalidParameter.withMessage s!"Invalid seed fingerprint: {e}"

/-- One turn of the loop that prepares the arguments. -/
def prepareAccount (chainView : ChainViewRef) (recoverUntil : Nat) (account : AccountParameter) :
    ImportProg AccountArgs := do
  let seedFp ← ofExcept id (parseSeedfpParameter lib account.seedfp)
  let accountIndex ← ofExcept
    (fun e => LegacyCode.invalidParameter.withMessage s!"Invalid ZIP 32 account index: {e}")
    (lib.accountIdTryFrom account.zip32AccountIndex)
  let treestateHeight := account.birthdayHeight - 1
  let chainState ← query (.treeStateAsOf chainView treestateHeight) (orMissing
    (fun e => LegacyCode.invalidParameter.withMessage
      s!"Failed to get treestate at height {treestateHeight}: {e}")
    (LegacyCode.invalidParameter.withMessage
      s!"Account birthday height {account.birthdayHeight} does not exist in the chain"))
  pure ⟨account.name, seedFp, accountIndex, ⟨chainState, some recoverUntil⟩⟩

/-- Fetch the seed of an account, unless it was fetched before. -/
def fetchSeed (seeds : List (SeedFingerprint × Seed)) (arg : AccountArgs) :
    ImportProg (List (SeedFingerprint × Seed)) :=
  if arg.seedFp ∈ seeds.map (·.1) then pure seeds
  else do
    let seed ← query (.decryptSeed arg.seedFp) (orFail LegacyCode.database.withMessage)
    pure (seeds ++ [(arg.seedFp, seed)])

def importAccount (seeds : List (SeedFingerprint × Seed)) (arg : AccountArgs) :
    ImportProg RecoveredAccount :=
  match seeds.find? (·.1 = arg.seedFp) with
  | none => .crash "present"
  | some (_, seed) => do
      let accountUuid ← query (.importAccountHd arg.name seed arg.accountIndex arg.birthday)
        (orFail LegacyCode.database.withMessage)
      pure ⟨accountUuid, lib.seedFingerprintToString arg.seedFp, arg.accountIndex⟩

def zRecoverAccounts (accounts : List AccountParameter) : ImportProg (List RecoveredAccount) := do
  ensureWalletIsUnlocked
  let chainView ← query .snapshot (orFail LegacyCode.database.withMessage)
  let recoverUntil ← query .chainHeight
    (orMissing LegacyCode.database.withMessage
      (LegacyCode.inWarmup.withMessage "Wallet sync required"))
  let accountArgs ← accounts.foldlM (fun args account => do
    let arg ← prepareAccount lib chainView recoverUntil account
    pure (args ++ [arg])) []
  let seeds ← accountArgs.foldlM fetchSeed []
  accountArgs.foldlM (fun recovered arg => do
    let account ← importAccount lib seeds arg
    pure (recovered ++ [account])) []

/-! ## `z_importkey` -/

structure ImportKeyResult where
  addressType : String
  address : String
  deriving DecidableEq, Repr

def validateRescan : Option String → Except RpcError String
  | none => .ok "whenkeyisnew"
  | some rescan =>
      if rescan = "whenkeyisnew" ∨ rescan = "yes" ∨ rescan = "no" then .ok rescan
      else .error (LegacyCode.invalidParameter.withMessage
        "Invalid rescan value. Must be \"yes\", \"no\", or \"whenkeyisnew\".")

def decodeKeyAndAddress (hrpSpendingKey hrpPaymentAddress key : String) :
    Except RpcError (ExtendedSpendingKey × String) :=
  match lib.decodeExtendedSpendingKey hrpSpendingKey key with
  | .ok extsk => .ok (extsk, lib.encodeDefaultAddress hrpPaymentAddress extsk)
  | .error e => .error (LegacyCode.invalidAddressOrKey.withMessage s!"Invalid spending key: {e}")

/-- Of the keystore. -/
def encryptAndStoreStandaloneSaplingKey (saplingKey : ExtendedSpendingKey) :
    Prog importSig String DiversifiableFullViewingKey := do
  let encryptor ← query .encryptor id
  let dfvk := lib.toDiversifiableFullViewingKey saplingKey
  let encrypted ← query (.encryptStandaloneSaplingKey encryptor saplingKey) id
  query (.insertStandaloneSaplingKey dfvk encrypted) id
  pure dfvk

def fetchAccountBirthday (height : Nat) : ImportProg AccountBirthday :=
  if height = 0 then pure ⟨⟨0, ⟨0⟩, .empty, .empty, .empty⟩, none⟩
  else do
    let treestateHeight := height - 1
    let chainView ← query .snapshot
      (orFail fun e => RpcErrorCode.internalError s!"Failed to obtain a chain snapshot: {e}")
    let chainState ← query (.treeStateAsOf chainView treestateHeight) (orMissing
      (fun e => RpcErrorCode.internalError
        s!"Failed to get treestate at height {treestateHeight}: {e}")
      (RpcErrorCode.internalError s!"No treestate available at height {treestateHeight}"))
    pure ⟨chainState, none⟩

/-- The height from which a new key is scanned. -/
def effectiveHeight (rescan : String) (startHeight : Nat) (chainTip : Option Nat) : ImportProg Nat :=
  if rescan = "yes" ∨ rescan = "whenkeyisnew" then pure startHeight
  else if rescan = "no" then pure (chainTip.getD 0)
  else .crash "internal error: entered unreachable code"

def heightOutOfRange : RpcError :=
  LegacyCode.invalidParameter.withMessage "Block height out of range."

def zImportKey (key : String) (rescan : Option String) (startHeight : Option Nat) :
    ImportProg ImportKeyResult := do
  let rescan ← ofExcept id (validateRescan rescan)
  let startHeight ← ofExcept id
    (if startHeight.getD 0 < 2 ^ 32 then .ok (startHeight.getD 0) else .error heightOutOfRange)
  let chainTip ← query .chainHeight (orFail LegacyCode.database.withMessage)
  if rescan ≠ "no" ∧ ∃ tip ∈ chainTip, tip < startHeight then .fail heightOutOfRange
  else do
    let (extsk, address) ← ofExcept id (decodeKeyAndAddress lib lib.hrpSaplingExtendedSpendingKey
      lib.hrpSaplingPaymentAddress key)
    let _ ← (encryptAndStoreStandaloneSaplingKey lib extsk).mapErr LegacyCode.wallet.withMessage
    let ufvk ← ofExcept LegacyCode.wallet.withMessage (lib.ufvkFromSapling extsk)
    let known ← query (.getAccountForUfvk ufvk) (orFail LegacyCode.database.withMessage)
    if known.isNone then
      let height ← effectiveHeight rescan startHeight chainTip
      let birthday ← fetchAccountBirthday height
      let _ ← query (.importAccountUfvk s!"Imported Sapling key {address.take 16}" ufvk birthday)
        (orFail LegacyCode.database.withMessage)
      pure ⟨"sapling", address⟩
    else pure ⟨"sapling", address⟩

/-! ## `z_importaddress` -/

structure ImportAddressResult where
  kind : String
  address : String
  deriving DecidableEq, Repr

inductive ParsedImport where
  | p2pkh (pubkey : PublicKey) (result : ImportAddressResult)
  | p2sh (script : Redeem) (result : ImportAddressResult)
  deriving DecidableEq, Repr

def parseImport (hexData : String) : Except RpcError ParsedImport :=
  match lib.hexDecode hexData with
  | none => .error (LegacyCode.invalidParameter.withMessage "Invalid hex encoding")
  | some bytes =>
      match lib.publicKeyFromSlice bytes with
      | some pubkey => .ok (.p2pkh pubkey ⟨"p2pkh", lib.addressFromPubkey pubkey⟩)
      | none =>
          match lib.redeemParse bytes with
          | some script => .ok (.p2sh script ⟨"p2sh", lib.addressFromScriptHash bytes⟩)
          | none => .error (LegacyCode.invalidParameter.withMessage
              s!"Unrecognized input (not a valid pubkey or redeem script): {hexData}")

/-- The write that a parsed import asks for. -/
def importParsed (accountId : AccountUuid) : ParsedImport → ImportProg ImportAddressResult
  | .p2pkh pubkey result => do
      query (.importStandaloneTransparentPubkey accountId pubkey)
        (orFail LegacyCode.database.withMessage)
      pure result
  | .p2sh script result => do
      query (.importStandaloneTransparentScript accountId script)
        (orFail LegacyCode.database.withMessage)
      pure result

/-- Have everything since the account's birthday scanned again. -/
def rescanFromBirthday (accountId : AccountUuid) : ImportProg Unit := do
  let birthday ← query (.getAccountBirthday accountId) (orFail LegacyCode.database.withMessage)
  let chainView ← query .snapshot (orFail LegacyCode.database.withMessage)
  let priorChainState ← query (.treeStateAsOf chainView (birthday - 1))
    (orMissing LegacyCode.database.withMessage
      (LegacyCode.database.withMessage "chain state unavailable for rescan"))
  query (.rewindToChainState priorChainState)
    (orFail fun e => LegacyCode.misc.withMessage s!"Rescan failed: {e}")

def zImportAddress (account hexData : String) (rescan : Option Bool) :
    ImportProg ImportAddressResult := do
  let accountId ← ofExcept id
    ((lib.accountUuidFromStr account).elim (.error RpcErrorCode.invalidParams) .ok)
  let parsed ← ofExcept id (parseImport lib hexData)
  let result ← importParsed accountId parsed
  if rescan.getD true then
    rescanFromBirthday accountId
    pure result
  else pure result

end

/-! ## The stores -/

inductive ImportedSource where
  | derived (seed : Seed) (accountIndex : Nat)
  | imported (ufvk : UnifiedFullViewingKey)
  deriving DecidableEq, Repr

structure ImportedAccount where
  uuid : AccountUuid
  name : String
  source : ImportedSource
  deriving DecidableEq, Repr

/-- What is watched for on the chain: an address that comes with an account, or one that was
imported by itself. -/
inductive Receiver where
  | ofAccount (index : Nat)
  | pubkey (pubkey : PublicKey)
  | script (script : Redeem)
  deriving DecidableEq, Repr

structure Tracked where
  account : AccountUuid
  receiver : Receiver
  deriving DecidableEq, Repr

/-- The wallet database's accounts and addresses, and the keys in the keystore. -/
structure Stores where
  accounts : List ImportedAccount
  tracked : List Tracked
  saplingKeys : List (DiversifiableFullViewingKey × List UInt8)
  deriving DecidableEq, Repr

namespace Stores

/-- A new account, with the addresses that come with it. -/
def addAccount (s : Stores) (account : ImportedAccount) (addresses : List Nat) : Stores :=
  { s with
    accounts := s.accounts ++ [account]
    tracked := s.tracked ++ addresses.map fun index => ⟨account.uuid, .ofAccount index⟩ }

/-- `INSERT … ON CONFLICT (dfvk) DO NOTHING` -/
def storeSaplingKey (s : Stores) (dfvk : DiversifiableFullViewingKey) (encrypted : List UInt8) :
    Stores :=
  if dfvk ∈ s.saplingKeys.map (·.1) then s
  else { s with saplingKeys := s.saplingKeys ++ [(dfvk, encrypted)] }

def track (s : Stores) (tracked : Tracked) : Stores :=
  if tracked ∈ s.tracked then s else { s with tracked := s.tracked ++ [tracked] }

end Stores

/-- How the stores answer: a write that fails changes nothing, and only writes change them. -/
def importStep (s : Stores) : (op : ImportOp) → op.Ans → Stores → Prop
  | .importAccountHd name seed accountIndex _, .ok uuid, s' =>
      ∃ addresses, s' = s.addAccount ⟨uuid, name, .derived seed accountIndex⟩ addresses
  | .importAccountUfvk name ufvk _, .ok uuid, s' =>
      ∃ addresses, s' = s.addAccount ⟨uuid, name, .imported ufvk⟩ addresses
  | .insertStandaloneSaplingKey dfvk encrypted, .ok (), s' => s' = s.storeSaplingKey dfvk encrypted
  | .importStandaloneTransparentPubkey account pubkey, .ok (), s' =>
      s' = s.track ⟨account, .pubkey pubkey⟩
  | .importStandaloneTransparentScript account script, .ok (), s' =>
      s' = s.track ⟨account, .script script⟩
  | _, _, s' => s' = s

end Zallet
