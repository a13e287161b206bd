/-
# `Zallet.Database.Open` — opening the wallet database

`components/database.rs`.  `Database::open` looks whether there is a database,
connects, which makes an empty file of one that is missing, verifies a database
that was there, migrates, and records the version it is, unless that is the last
one recorded.  Each of these is one operation of the program here, so a process
that dies on the way is a run that stops between two of them; what a statement
that fails can leave behind is said by `diskStep`.

What of the version library is used is a parameter: how a version is read, and
which versions are older than which.
-/
import Zallet.Error
import Zallet.Migrate.Document
import Zallet.Prog.Outcome
import Zallet.Prog.Wp

namespace Zallet.Database

open Prog

/-! ## Versions -/

def minCompatibleZalletVersion : String := "0.1.0-alpha.4"

/-- What is used of `semver`, for which the oldest version accepted is a version. -/
structure VersionLib where
  Version : Type
  parse : String → Except String Version
  le : Version → Version → Bool
  minimum : Version
  parse_minimum : parse minCompatibleZalletVersion = .ok minimum

/-- The constants of `crate::build`. -/
structure Build where
  pkgVersion : String
  commitHash : String
  gitClean : Bool
  deriving DecidableEq, Repr

/-- The revision a build names, and whether it was clean; a build without Git names none. -/
def Build.git (build : Build) : Option String × Option Bool :=
  if build.commitHash ≠ "" then (some build.commitHash, some build.gitClean) else (none, none)

/-- The version columns of a row of `ext_zallet_db_version_metadata`. -/
structure VersionTuple where
  version : String
  gitRevision : Option String
  clean : Option Bool
  deriving DecidableEq, Repr

def Build.tuple (build : Build) : VersionTuple :=
  ⟨build.pkgVersion, build.git.1, build.git.2⟩

/-- A row of `ext_zallet_db_version_metadata`. -/
structure VersionRow extends VersionTuple where
  migrated : Nat
  deriving DecidableEq, Repr

/-! ## The operations -/

inductive MigratorError where
  | seedRequired
  | other (msg : String)
  deriving DecidableEq, Repr

inductive OpenOp where
  | tryExists
  | buildPool
  /-- a connection out of the pool -/
  | handle
  /-- `SELECT version .. ORDER BY rowid DESC LIMIT 1` -/
  | selectLatestVersion
  | selectNetworkType
  | initOrMigrate (network : NetworkType)
  | nowUtc
  /-- `SELECT version, git_revision, clean .. ORDER BY rowid DESC LIMIT 1` -/
  | selectLatestTuple
  | insertVersion (row : VersionRow)
  deriving DecidableEq, Repr

abbrev OpenOp.Ans : OpenOp → Type
  | .tryExists => Except String Bool
  | .buildPool => Except String Unit
  | .handle => Except String Unit
  | .selectLatestVersion => Except String (Option String)
  | .selectNetworkType => Except String NetworkType
  | .initOrMigrate _ => Except MigratorError Unit
  | .nowUtc => Nat
  | .selectLatestTuple => Except String (Option VersionTuple)
  | .insertVersion _ => Except String Unit

abbrev openSig : Sig := ⟨OpenOp, OpenOp.Ans⟩

abbrev OpenProg := Prog openSig Error

/-! ## The errors -/

def incompatibleAlphaDatabaseError : Error :=
  ErrorKind.init.context <|
    "This wallet database was created by an incompatible alpha version of zallet.\n" ++
    "To use this zallet release, start again with a fresh Zallet wallet or a\nnew data directory."

def invalidZalletVersionError (version err : String) : Error :=
  ErrorKind.init.context
    s!"The wallet database recorded an invalid zallet version '{version}':\n{err}"

def typeToStr : NetworkType → String
  | .main => "main"
  | .test => "test"
  | .regtest => "regtest"

def configDbMismatch (dbPath : String) (dbNetwork configNetwork : NetworkType) : Error :=
  ErrorKind.init.context <|
    s!"The wallet database at {dbPath} was created for network type\n" ++
    s!"{typeToStr dbNetwork}, but the config is using network type\n" ++
    s!"{typeToStr configNetwork}. A wallet database is permanently tied to one network;\n" ++
    s!"set 'network' back to {typeToStr dbNetwork}, or use a different data directory to\n" ++
    s!"create a fresh {typeToStr configNetwork} wallet."

def migrationError : MigratorError → Error
  | .seedRequired => ErrorKind.init.context "TODO: Support seed-required migrations"
  | .other msg => ErrorKind.init.context msg

/-! ## The program -/

section
variable (lib : VersionLib)

def latestRecordedZalletVersion : OpenProg String :=
  query .selectLatestVersion fun answer =>
    match answer with
    | .ok (some version) => .ok version
    | .ok none | .error _ => .error incompatibleAlphaDatabaseError

/-- The last version recorded is one this binary goes on from. -/
def verifyAlphaDbCompatibility : OpenProg Unit := do
  let latest ← latestRecordedZalletVersion
  let version ← ofExcept (invalidZalletVersionError latest) (lib.parse latest)
  match lib.parse minCompatibleZalletVersion with
  | .error _ => .crash "minimum compatible Zallet version is valid SemVer"
  | .ok minimum =>
      if lib.le minimum version then pure () else .fail incompatibleAlphaDatabaseError

/-- The network of the configuration is the one the database was made for. -/
def matching (dbPath : String) (network walletNetwork : NetworkType) : Except Error Unit :=
  if walletNetwork = network then .ok ()
  else .error (configDbMismatch dbPath walletNetwork network)

def verifyWalletNetworkType (dbPath : String) (network : NetworkType) : OpenProg Unit := do
  let walletNetwork ← query .selectNetworkType fun answer =>
    answer.mapError ErrorKind.init.context
  ofExcept id (matching dbPath network walletNetwork)

def verifyExistingDatabase (dbPath : String) (network : NetworkType) : OpenProg Unit := do
  verifyAlphaDbCompatibility lib
  verifyWalletNetworkType dbPath network

/-- Record the version, unless it is the last one recorded. -/
def recordVersion (build : Build) (now : Nat) : OpenProg Unit := do
  let latest ← query .selectLatestTuple fun answer => answer.mapError ErrorKind.init.context
  if latest = some build.tuple then pure ()
  else query (.insertVersion ⟨build.tuple, now⟩) fun answer => answer.mapError ErrorKind.init.context

/-- Migrate the database and record the version. -/
def upgradeDatabase (build : Build) (network : NetworkType) : OpenProg Unit := do
  query (.initOrMigrate network) fun answer => answer.mapError migrationError
  let now ← ask (E := openSig) .nowUtc
  recordVersion build now

/-- `Database::open` -/
def openDatabase (build : Build) (dbPath : String) (network : NetworkType) : OpenProg Unit := do
  let dbExists ← query .tryExists fun answer => answer.mapError ErrorKind.init.context
  query .buildPool fun answer => answer.mapError ErrorKind.generic.context
  query .handle fun answer => answer.mapError ErrorKind.generic.context
  if dbExists then verifyExistingDatabase lib dbPath network else pure ()
  upgradeDatabase build network

end

/-! ## The disk -/

/-- What is at the path of the database. -/
inductive Disk where
  | missing
  /-- a database without the tables of Zallet -/
  | blank
  | tables (network : NetworkType) (versions : List VersionRow)
  deriving DecidableEq, Repr

namespace Disk

def present : Disk → Bool
  | .missing => false
  | _ => true

/-- Connecting makes a file of a database that is missing. -/
def opened : Disk → Disk
  | .missing => .blank
  | disk => disk

/-- The migration makes the tables and enters the network, once. -/
def migrated (network : NetworkType) : Disk → Disk
  | .tables n versions => .tables n versions
  | _ => .tables network []

/-- The versions that are recorded. -/
def versions : Disk → List VersionRow
  | .tables _ versions => versions
  | _ => []

def network? : Disk → Option NetworkType
  | .tables network _ => some network
  | _ => none

def record (row : VersionRow) : Disk → Disk
  | .tables network versions => .tables network (versions ++ [row])
  | disk => disk

@[simp] theorem versions_opened (disk : Disk) : disk.opened.versions = disk.versions := by
  cases disk <;> rfl

@[simp] theorem versions_migrated (network : NetworkType) (disk : Disk) :
    (disk.migrated network).versions = disk.versions := by
  cases disk <;> rfl

@[simp] theorem network_record (row : VersionRow) (disk : Disk) :
    (disk.record row).network? = disk.network? := by
  cases disk <;> rfl

@[simp] theorem network_opened (disk : Disk) : disk.opened.network? = disk.network? := by
  cases disk <;> rfl

end Disk

/-- How the disk answers.  A query of the tables answers only where they are; a statement that
fails does nothing, a connection that fails may have made its file, and migrations that fail may
have made the tables. -/
def diskStep (disk : Disk) : (op : OpenOp) → op.Ans → Disk → Prop
  | .tryExists, .ok present, disk' => present = disk.present ∧ disk' = disk
  | .handle, .ok (), disk' => disk' = disk.opened
  | .handle, .error _, disk' => disk' = disk ∨ disk' = disk.opened
  | .selectLatestVersion, .ok latest, disk' =>
      disk.network?.isSome ∧ latest = disk.versions.getLast?.map (·.version) ∧ disk' = disk
  | .selectNetworkType, .ok network, disk' => disk.network? = some network ∧ disk' = disk
  | .initOrMigrate network, .ok (), disk' => disk' = disk.migrated network
  | .initOrMigrate network, .error _, disk' => disk' = disk ∨ disk' = disk.migrated network
  | .selectLatestTuple, .ok latest, disk' =>
      disk.network?.isSome ∧ latest = disk.versions.getLast?.map (·.toVersionTuple) ∧ disk' = disk
  | .insertVersion row, .ok (), disk' => disk.network?.isSome ∧ disk' = disk.record row
  | _, _, disk' => disk' = disk

end Zallet.Database
