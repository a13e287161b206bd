/-
# `Zallet.Migrate.ZcashConf` — the migration of a `zcash.conf`

`migrate-zcash-conf` reads a `zcashd` configuration line by line and builds the
configuration of Zallet from it.  Each option has an action: it sets a field of
the configuration, adds to a list in it, is ignored, or is warned of.  An option
that sets a field may appear once, and of the options that are related by a
target one may appear.

The two lists of options are in the order of the source, and so are the checks
of a turn.  What is left out: how the path of the file is found, and where the
output goes.  `ConfLib` is what is not in the source of Zallet.
-/
import Zallet.Data.BaseEncoding
import Zallet.Data.Text
import Zallet.Migrate.Document
import Zallet.Rpc.Authorization

namespace Zallet.ZcashConf

open Authorization (RpcAuthSection)

/-! ## The configuration -/

/-- A parameter for regtest mode. -/
structure RegTestNuParam where
  consensusBranchId : ℕ
  activationHeight : ℕ
  deriving DecidableEq, Repr

/-- An address and a port, by how they are written. -/
structure SocketAddr where
  text : String
  deriving DecidableEq, Repr

structure BuilderLimitsSection where
  orchardActions : Option ℕ
  deriving DecidableEq, Repr

structure BuilderSection where
  spendZeroconfChange : Option Bool
  txExpiryDelta : Option ℕ
  limits : BuilderLimitsSection
  deriving DecidableEq, Repr

structure ConsensusSection where
  network : NetworkType
  regtestNuparams : List RegTestNuParam
  deriving DecidableEq, Repr

structure ExternalSection where
  broadcast : Option Bool
  exportDir : Option String
  notify : Option String
  deriving DecidableEq, Repr

structure KeyStoreSection where
  requireBackup : Option Bool
  deriving DecidableEq, Repr

structure RpcSection where
  bind : List SocketAddr
  timeout : Option ℕ
  auth : List RpcAuthSection
  deriving DecidableEq, Repr

/-- The sections and fields that the migration sets. -/
structure ZalletConfig where
  builder : BuilderSection
  consensus : ConsensusSection
  external : ExternalSection
  keystore : KeyStoreSection
  rpc : RpcSection
  deriving DecidableEq, Repr

def ZalletConfig.default : ZalletConfig where
  builder := ⟨none, none, ⟨none⟩⟩
  consensus := ⟨.main, []⟩
  external := ⟨none, none, none⟩
  keystore := ⟨none⟩
  rpc := ⟨[], none, []⟩

/-- The fields that the migration sets. -/
inductive Field where
  | orchardActions | spendZeroconfChange | txExpiryDelta
  | broadcast | notify | exportDir | requireBackup
  | network | regtestNuparams | auth | bind | timeout
  deriving DecidableEq, Repr

/-- What one line gives for a field. -/
abbrev Field.Value : Field → Type
  | .orchardActions | .txExpiryDelta | .timeout => ℕ
  | .spendZeroconfChange | .broadcast | .requireBackup => Bool
  | .notify | .exportDir => String
  | .network => NetworkType
  | .regtestNuparams => RegTestNuParam
  | .auth => RpcAuthSection
  | .bind => SocketAddr

/-- Set a field, or add to it. -/
def ZalletConfig.put (config : ZalletConfig) : (field : Field) → field.Value → ZalletConfig
  | .orchardActions, n =>
      { config with builder := { config.builder with limits := ⟨some n⟩ } }
  | .spendZeroconfChange, b =>
      { config with builder := { config.builder with spendZeroconfChange := some b } }
  | .txExpiryDelta, n => { config with builder := { config.builder with txExpiryDelta := some n } }
  | .broadcast, b => { config with external := { config.external with broadcast := some b } }
  | .notify, s => { config with external := { config.external with notify := some s } }
  | .exportDir, s => { config with external := { config.external with exportDir := some s } }
  | .requireBackup, b => { config with keystore := ⟨some b⟩ }
  | .network, n => { config with consensus := { config.consensus with network := n } }
  | .regtestNuparams, p =>
      { config with consensus := { config.consensus with
        regtestNuparams := config.consensus.regtestNuparams ++ [p] } }
  | .auth, a => { config with rpc := { config.rpc with auth := config.rpc.auth ++ [a] } }
  | .bind, a => { config with rpc := { config.rpc with bind := config.rpc.bind ++ [a] } }
  | .timeout, n => { config with rpc := { config.rpc with timeout := some n } }

theorem put_comm (config : ZalletConfig) {f g : Field} (h : f ≠ g) (x : f.Value) (y : g.Value) :
    (config.put f x).put g y = (config.put g y).put f x := by
  cases f <;> cases g <;> first | rfl | exact absurd rfl h

/-! ## Values -/

/-- What is used of libraries. -/
structure ConfLib where
  /-- `consensus::BranchId::try_from` -/
  isBranchId : ℕ → Bool
  /-- `str::parse::<SocketAddr>` -/
  parseSocketAddr : String → Option SocketAddr
  /-- `toml::to_string_pretty`, through `toml::Value` -/
  toToml : ZalletConfig → Except String String

/-- `from_str_radix` of an unsigned integer type with values below `bound`. -/
def fromStrRadix (radix bound : ℕ) (s : String) : Option ℕ := do
  let digits := if s.toList.head? = some '+' then s.toList.tail else s.toList
  if digits = [] then none
  else do
    let digits ← digits.mapM fun c => (Base16.value c).filter (· < radix)
    let n := digits.foldl (fun n d => n * radix + d) 0
    if n < bound then some n else none

/-- `str::parse` of an unsigned integer type with values below `bound`. -/
def parseBelow (bound : ℕ) (s : String) : Option ℕ := fromStrRadix 10 bound s

/-- `RegTestNuParam::try_from` -/
def regTestNuParamTryFrom (lib : ConfLib) (value : String) : Option RegTestNuParam := do
  let parts ← Text.splitString ':' value
  let branchId ← (fromStrRadix 16 (2 ^ 32) parts.1).filter lib.isBranchId
  let height ← parseBelow (2 ^ 32) parts.2
  some ⟨branchId, height⟩

/-! ## Actions -/

/-- A message, by its name and its arguments: `fl!`. -/
structure Message where
  name : String
  args : List (String × String)
  deriving DecidableEq, Repr

/-- The action to take when a specific `zcashd` option is encountered. -/
inductive Action where
  /-- sets a field; `target` if it is one of a set of related options -/
  | mapTo (field : Field) (f : String → Option (Option field.Value)) (target : Option String)
  | mapMulti (field : Field) (f : String → Option field.Value)
  | ignore
  | warn (f : String → Option Message)

namespace Action

def map (option : String) (field : Field) (v : String → Option field.Value) : String × Action :=
  (option, .mapTo field (fun value => (v value).map some) none)

def boolOf (value : String) : Option Bool :=
  if value = "0" then some false else if value = "1" then some true else none

/-- Related options; a value may also leave the field as it is. -/
def mapRelated (option target : String) (field : Field)
    (v : String → Option (Option field.Value)) : String × Action :=
  (option, .mapTo field v (some target))

def multi (option : String) (field : Field) (v : String → Option field.Value) : String × Action :=
  (option, .mapMulti field v)

def ignored (option : String) : String × Action := (option, .ignore)

/-- A warning, whatever the value. -/
def warned (option name : String) (args : List (String × String)) : String × Action :=
  (option, .warn fun _ => some ⟨name, ("option", option) :: args⟩)

end Action

section
variable (lib : ConfLib)

def documentedWalletOptions : List (String × Action) :=
  [("disablewallet", .warn fun value =>
      if value ≠ "0" then some ⟨"migrate-warn-disablewallet", [("option", "disablewallet")]⟩
      else none),
    Action.ignored "keypool",
    Action.warned "migration" "migrate-warn-sprout-migration" [],
    Action.warned "migrationdestaddress" "migrate-warn-sprout-migration" [],
    Action.map "orchardactionlimit" .orchardActions (parseBelow (2 ^ 16)),
    Action.warned "paytxfee" "migrate-warn-paytxfee" [],
    Action.warned "rescan" "migrate-warn-cli-only" [("flag", "--rescan")],
    Action.warned "salvagewallet" "migrate-warn-cli-only" [("flag", "--salvage-wallet")],
    Action.map "spendzeroconfchange" .spendZeroconfChange Action.boolOf,
    -- the minimum is `TX_EXPIRING_SOON_THRESHOLD + 1`
    Action.map "txexpirydelta" .txExpiryDelta fun value =>
      (parseBelow (2 ^ 16) value).filter fun n => 4 ≤ n,
    Action.ignored "upgradewallet",
    Action.ignored "wallet",
    Action.map "walletbroadcast" .broadcast Action.boolOf,
    Action.map "walletnotify" .notify some,
    Action.map "walletrequirebackup" .requireBackup Action.boolOf,
    Action.warned "zapwallettxes" "migrate-warn-cli-only" [("flag", "--zap-txes=MODE")]]

def documentedWalletDebugOptions : List (String × Action) :=
  [Action.ignored "dblogsize",
    ("flushwallet", .warn fun value =>
      if value ≠ "1" then
        some ⟨"migrate-warn-unsupported", [("option", "flushwallet"), ("value", value)]⟩
      else none),
    Action.ignored "privdb"]

def undocumentedWalletOptions : List (String × Action) :=
  [Action.ignored "anchorconfirmations", Action.ignored "mintxfee",
    Action.ignored "regtestwalletsetbestchaineveryblock", Action.ignored "sendfreetransactions",
    Action.ignored "txconfirmtarget"]

def nodeOptionsDirectWallet : List (String × Action) :=
  [Action.ignored "developerencryptwallet", Action.ignored "genproclimit",
    Action.ignored "maxtxfee", Action.ignored "mineraddress", Action.ignored "paymentdisclosure",
    ("preferredtxversion", .warn fun value =>
      some ⟨"migrate-warn-unsupported", [("option", "preferredtxversion"), ("value", value)]⟩)]

def nodeOptionsIndirectWallet : List (String × Action) :=
  [Action.ignored "conf",
    ("daemon", .warn fun value =>
      if value ≠ "0" then some ⟨"migrate-warn-daemon", [("option", "daemon")]⟩ else none),
    Action.ignored "datadir",
    Action.ignored "debug",
    Action.ignored "experimentalfeatures",
    Action.map "exportdir" .exportDir some,
    Action.multi "nuparams" .regtestNuparams (regTestNuParamTryFrom lib),
    Action.mapRelated "regtest" "network" .network fun value =>
      some (if value = "1" then some .regtest else none),
    Action.ignored "rpcallowip",
    Action.ignored "rpcasyncthreads",
    Action.multi "rpcauth" .auth fun value =>
      (Text.splitString ':' value).map fun parts => ⟨parts.1, none, some parts.2⟩,
    Action.multi "rpcbind" .bind fun value => lib.parseSocketAddr s!"{value}:{8234}",
    Action.ignored "rpccookiefile",
    Action.warned "rpcport" "migrate-warn-rpcport" [("port", "bind"), ("rpc", "[rpc]")],
    Action.map "rpcservertimeout" .timeout (parseBelow (2 ^ 64)),
    Action.ignored "rpcssl",
    Action.ignored "rpcthreads",
    Action.ignored "rpcworkqueue",
    Action.mapRelated "testnet" "network" .network fun value =>
      some (if value = "1" then some .test else none)]

def nodeOptionsUnusedWallet : List String :=
  ["addnode", "alertnotify", "alerts", "allowdeprecated", "banscore", "bantime", "benchmark",
    "bind", "blockmaxsize", "blockminsize", "blocknotify", "blockprioritysize", "blocksonly",
    "blockunpaidactionlimit", "blockversion", "checkblockindex", "checkblocks", "checklevel",
    "checkmempool", "checkpoints", "clockoffset", "connect", "create", "datacarrier",
    "datacarriersize", "dbcache", "debuglogfile", "debugmetrics", "debugnet",
    "developersetpoolsizezero", "disablesafemode", "discover", "dns", "dnsseed",
    "dropmessagestest", "enforcenodebloom", "equihashsolver", "externalip", "forcednsseed",
    "fundingstream", "fuzzmessagestest", "gen", "help", "help-debug",
    "i-am-aware-zcashd-will-be-replaced-by-zebrad-and-zallet-in-2025", "ibdskiptxverification",
    "insightexplorer", "json", "lightwalletd", "limitancestorcount", "limitancestorsize",
    "limitdescendantcount", "limitdescendantsize", "listen", "listenonion", "loadblock", "logips",
    "logtimestamps", "maxconnections", "maxorphantx", "maxreceivebuffer", "maxsendbuffer",
    "maxsigcachesize", "maxtipage", "maxuploadtarget", "mempoolevictionmemoryminutes",
    "mempooltxcostlimit", "metricsallowip", "metricsbind", "metricsrefreshtime", "metricsui",
    "minetolocalwallet", "minrelaytxfee", "mocktime", "nodebug", "nurejectoldversions", "onion",
    "onlynet", "optimize-getheaders", "par", "paramsdir", "peerbloomfilters",
    "permitbaremultisig", "pid", "port", "printalert", "printpriority", "printtoconsole",
    "prometheusport", "proxy", "proxyrandomize", "prune", "regtestshieldcoinbase", "reindex",
    "reindex-chainstate", "rest", "rpcclienttimeout", "rpcconnect", "rpcpassword", "rpcuser",
    "rpcwait", "seednode", "sendalert", "server", "showmetrics", "shrinkdebugfile", "socks",
    "stdin", "stopafterblockimport", "sysperms", "testsafemode", "timeout", "tor", "torcontrol",
    "torpassword", "txexpirynotify", "txindex", "txunpaidactionlimit", "uacomment", "version",
    "whitebind", "whitelist", "whitelistforcerelay", "whitelistrelay"]

/-- The action of each option; of two for the same option the second would count. -/
def buildActions : List (String × Action) :=
  documentedWalletOptions ++ documentedWalletDebugOptions ++ undocumentedWalletOptions ++
    nodeOptionsDirectWallet ++ nodeOptionsIndirectWallet lib ++
    nodeOptionsUnusedWallet.map Action.ignored

def actionOf (option : String) : Option Action := (buildActions lib).reverse.lookup option

end

/-! ## The lines of a file -/

/-- `char::is_whitespace` -/
def isWhitespace (c : Char) : Bool :=
  (9 ≤ c.toNat && c.toNat ≤ 13) || (0x2000 ≤ c.toNat && c.toNat ≤ 0x200A) ||
    [0x20, 0x85, 0xA0, 0x1680, 0x2028, 0x2029, 0x202F, 0x205F, 0x3000].contains c.toNat

/-- What stands before the end of a line: `\n`, or `\r\n`. -/
def stripCr (bytes : List UInt8) : List UInt8 :=
  if bytes.getLast? = some 13 then bytes.dropLast else bytes

/-- The lines of a file as `AsyncBufReadExt::lines` reads them, `none` where a line is not UTF-8. -/
def fileLines (content : List UInt8) : List (Option (List Char)) :=
  let pieces := content.splitOn 10
  -- the last piece is not ended, and is a line only if there is something in it
  let lines := pieces.dropLast.map stripCr ++ pieces.getLast?.toList.filter (· ≠ [])
  lines.map fun line => (Text.fromUtf8 line).map String.toList

/-- What a line is read as. -/
inductive Parsed where
  | skip
  | invalid
  | pair (option value : List Char)
  deriving DecidableEq, Repr

/-- The parsing of a line in the loop of `MigrateZcashConfCmd::run`. -/
def parseLine (line : List Char) : Parsed :=
  if line = [] ∨ line.head? = some '#' then .skip
  else
    match Text.splitOnce '=' line with
    | none => .invalid
    | some (option, rest) =>
        match Text.splitOnce '#' rest with
        | none => .pair option (Text.trimEnd isWhitespace rest)
        | some (value, _) => .pair option (Text.trimEnd isWhitespace value)

/-! ## A turn of the loop -/

/-- What the loop of `MigrateZcashConfCmd::run` keeps. -/
structure Migration where
  config : ZalletConfig
  observed : List String
  /-- from a target to the option that was seen for it -/
  related : List (String × String)
  warnings : List Message

def Migration.start : Migration := ⟨.default, [], [], []⟩

inductive ConfError where
  | read
  | message (m : Message)
  | serialize (e : String)
  deriving DecidableEq, Repr

def errMigrateInvalidLine (line conf : String) : ConfError :=
  .message ⟨"err-migrate-invalid-line", [("line", line), ("conf", conf)]⟩

def errMigrateMultipleRelatedZcashdOptions (option prev conf : String) : ConfError :=
  .message ⟨"err-migrate-multiple-related-zcashd-options",
    [("option", option), ("prev", prev), ("conf", conf)]⟩

def errMigrateDuplicateZcashdOption (option conf : String) : ConfError :=
  .message ⟨"err-migrate-duplicate-zcashd-option", [("option", option), ("conf", conf)]⟩

def errMigrateUnknownZcashdOption (option : String) : ConfError :=
  .message ⟨"err-migrate-unknown-zcashd-option", [("option", option)]⟩

def invalidOptionValue (option value : String) : ConfError :=
  .message ⟨"err-migrate-invalid-zcashd-option", [("option", option), ("value", value)]⟩

/-- Set a field if there is a value for it. -/
def ZalletConfig.putSome (config : ZalletConfig) (field : Field) :
    Option field.Value → ZalletConfig
  | none => config
  | some v => config.put field v

section
variable (lib : ConfLib) (conf : String)

/-- The action that is taken for an option and its value. -/
def act (s : Migration) (option value : String) : Except ConfError Migration :=
  match actionOf lib option with
  | some (.mapTo field f target) =>
      match target.bind fun target => s.related.lookup target with
      | some prev => .error (errMigrateMultipleRelatedZcashdOptions option prev conf)
      | none =>
          if option ∈ s.observed then .error (errMigrateDuplicateZcashdOption option conf)
          else
            match f value with
            | none => .error (invalidOptionValue option value)
            | some v =>
                .ok { s with
                  config := s.config.putSome field v
                  observed := option :: s.observed
                  related := target.toList.map (·, option) ++ s.related }
  | some (.mapMulti field f) =>
      match f value with
      | none => .error (invalidOptionValue option value)
      | some v => .ok { s with config := s.config.put field v }
  | some .ignore => .ok s
  | some (.warn f) => .ok { s with warnings := s.warnings ++ (f value).toList }
  | none => .error (errMigrateUnknownZcashdOption option)

/-- The lines that are read, with what each is read as, and what comes of them. -/
def runLines (parse : List Char → Parsed) (s : Migration) :
    List (Option (List Char)) → List (List Char × Parsed) × Except ConfError Migration
  | [] => ([], .ok s)
  | none :: _ => ([], .error .read)
  | some line :: lines =>
      match parse line with
      | .skip => ((runLines parse s lines).map ((line, .skip) :: ·) id)
      | .invalid => ([(line, .invalid)], .error (errMigrateInvalidLine (String.ofList line) conf))
      | .pair option value =>
          match act lib conf s (String.ofList option) (String.ofList value) with
          | .error e => ([(line, .pair option value)], .error e)
          | .ok s' => (runLines parse s' lines).map ((line, .pair option value) :: ·) id

end

section
variable {lib : ConfLib} {conf : String} {parse : List Char → Parsed} {s s' : Migration}
  {line option value : List Char} {lines : List (Option (List Char))} {e : ConfError}

@[simp] theorem runLines_nil : runLines lib conf parse s [] = ([], .ok s) := rfl

@[simp] theorem runLines_none : runLines lib conf parse s (none :: lines) = ([], .error .read) :=
  rfl

theorem runLines_skip (h : parse line = .skip) :
    runLines lib conf parse s (some line :: lines) =
      (runLines lib conf parse s lines).map ((line, .skip) :: ·) id := by
  simp only [runLines, h]

theorem runLines_invalid (h : parse line = .invalid) :
    runLines lib conf parse s (some line :: lines) =
      ([(line, .invalid)], .error (errMigrateInvalidLine (String.ofList line) conf)) := by
  simp only [runLines, h]

theorem runLines_pair_error (h : parse line = .pair option value)
    (hact : act lib conf s (String.ofList option) (String.ofList value) = .error e) :
    runLines lib conf parse s (some line :: lines) =
      ([(line, .pair option value)], .error e) := by
  simp only [runLines, h, hact]

theorem runLines_pair_ok (h : parse line = .pair option value)
    (hact : act lib conf s (String.ofList option) (String.ofList value) = .ok s') :
    runLines lib conf parse s (some line :: lines) =
      (runLines lib conf parse s' lines).map ((line, .pair option value) :: ·) id := by
  simp only [runLines, h, hact]

/-- Induction over the turns of a run. -/
@[elab_as_elim] theorem turns_induction (lib : ConfLib) (conf : String)
    (parse : List Char → Parsed) {motive : Migration → List (Option (List Char)) → Prop}
    (ended : ∀ {s}, motive s []) (unreadable : ∀ {s lines}, motive s (none :: lines))
    (skip : ∀ {s line lines}, parse line = .skip → motive s lines → motive s (some line :: lines))
    (invalid : ∀ {s line lines}, parse line = .invalid → motive s (some line :: lines))
    (refused : ∀ {s line lines option value e}, parse line = .pair option value →
      act lib conf s (String.ofList option) (String.ofList value) = .error e →
      motive s (some line :: lines))
    (acted : ∀ {s s' line lines option value}, parse line = .pair option value →
      act lib conf s (String.ofList option) (String.ofList value) = .ok s' → motive s' lines →
      motive s (some line :: lines))
    (s : Migration) (lines : List (Option (List Char))) : motive s lines := by
  induction lines generalizing s with
  | nil => exact ended
  | cons line lines ih =>
      cases line with
      | none => exact unreadable
      | some line =>
          cases hparse : parse line with
          | skip => exact skip hparse (ih s)
          | invalid => exact invalid hparse
          | pair option value =>
              cases hact : act lib conf s (String.ofList option) (String.ofList value) with
              | error e => exact refused hparse hact
              | ok s' => exact acted hparse hact (ih s')

end

/-! ## The command -/

structure MigrateZcashConfCmd where
  conf : String
  allowWarnings : Bool
  thisIsAlphaCodeAndYouWillNeedToRedoTheMigrationLater : Bool

/-- What a migration comes to. -/
structure Migrated where
  config : ZalletConfig
  warnings : List Message
  output : String

/-- What `MigrateZcashConfCmd::run` does after its loop. -/
def MigrateZcashConfCmd.finish (cmd : MigrateZcashConfCmd) (lib : ConfLib) (s : Migration) :
    Except ConfError Migrated := do
  if s.warnings ≠ [] ∧ !cmd.allowWarnings then
    throw (.message ⟨"err-migrate-allow-warnings", []⟩)
  if !cmd.thisIsAlphaCodeAndYouWillNeedToRedoTheMigrationLater then
    throw (.message ⟨"migrate-alpha-code", []⟩)
  let configToml ← (lib.toToml s.config).mapError .serialize
  return ⟨s.config, s.warnings,
    s!"# Zallet configuration file\n# Migrated from {cmd.conf}\n\n{configToml}"⟩

def MigrateZcashConfCmd.run (cmd : MigrateZcashConfCmd) (lib : ConfLib) (content : List UInt8) :
    Except ConfError Migrated := do
  let s ← (runLines lib cmd.conf parseLine .start (fileLines content)).2
  cmd.finish lib s

end Zallet.ZcashConf
