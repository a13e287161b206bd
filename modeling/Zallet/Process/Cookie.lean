/-
# `Zallet.Process.Cookie` — the password that a server leaves for `zallet rpc`

`components/json_rpc/server/cookie.rs` and `commands/rpc_cli.rs`.  A server
draws a password, writes it to a temporary file, and renames that over the
cookie of the data directory; whoever starts `zallet rpc` in that directory
reads the password there, unless one is configured.

The operations of a whole process are here too (`ProcOp`), of which those on
files are one.  Where the source waits, the answer may be that it was cancelled
(`Stop`): the values it holds are dropped then, as they are on an error.
-/
import Zallet.Error
import Zallet.Migrate.ZcashConf
import Zallet.Prog.Files
import Zallet.Prog.Outcome
import Zallet.Rpc.Authorization

namespace Zallet.Process

open Prog Authorization
open Text (utf8 trim)

/-! ## The operations -/

/-- Why a process stops before it is done. -/
inductive Stop where
  | cancelled
  | error (e : Error)
  deriving DecidableEq, Repr

inductive ProcOp where
  | file (op : FileOp String)
  /-- `OsRng.gen()` for an array of so many bytes -/
  | gen (length : Nat)
  | createLockfile (path : String)
  | tryLockExclusive (path : String)
  | unlock
  | openDatabase
  | newKeyStore
  | buildChain
  /-- `Server::builder()..build(listen_addr)`, with the users that may use it -/
  | buildServer (listenAddr : String) (users : Users)
  | localAddr
  | mergeMethods
  /-- the task of the server, with the cookie it removes in the end -/
  | spawnServer (users : Users) (guard : Option String)
  | spawnPending
  | spawnSync
  /-- one of the tasks is over -/
  | taskExited
  | abortTasks
  /-- in the task of the server: what it was spawned with -/
  | begin
  | serverStopped
  /-- in `zallet rpc` -/
  | buildClient (addr : String) (authorization : Option HeaderValue)
  | request (command : String) (params : List String)
  deriving DecidableEq

abbrev ProcOp.Ans : ProcOp → Type
  | .file op => op.Ans
  | .gen _ => List UInt8
  | .createLockfile _ => Except String Unit
  | .tryLockExclusive _ => Except String Bool
  | .unlock | .spawnServer _ _ | .spawnPending | .abortTasks => Unit
  | .openDatabase | .newKeyStore | .buildChain | .spawnSync => Except Stop Unit
  | .buildServer _ _ => Except Stop Unit
  | .localAddr | .mergeMethods => Except String Unit
  | .taskExited => Except Stop Unit
  | .begin => Users × Option String
  | .serverStopped => Unit
  | .buildClient _ _ => Except String Unit
  | .request _ _ => Except String String

abbrev procSig : Sig := ⟨ProcOp, ProcOp.Ans⟩

abbrev ProcProg := Prog procSig Stop

def initFailed (text : String) : Stop := .error (ErrorKind.init.context text)

def initError (e : IoError) : Stop := initFailed e.text

/-- `p`, and if it does not succeed then what is held is dropped. -/
def onError {α : Type} (p : ProcProg α) (drop : ProcProg Unit) : ProcProg α :=
  p.attempt.bind fun
    | .ok a => .ret a
    | .error e => drop.bind fun () => .fail e

/-! ## The cookie -/

def cookieUser : String := "__cookie__"

def cookieFilename : String := ".cookie"

def join (dir name : String) : String := dir ++ "/" ++ name

def cookiePath (datadir : String) : String := join datadir cookieFilename

def cookieTmpPath (datadir : String) : String := join datadir (cookieFilename ++ ".tmp")

/-- `Base64::encode_string` -/
def encodeString (bytes : List UInt8) : String := String.ofList (Base64.encode bytes)

/-- The text of a cookie. -/
def cookieText (password : String) : String := cookieUser ++ ":" ++ password

/-- `fs::remove_file`, and a failure is let be. -/
def removeFile (path : String) : ProcProg Unit := do
  let _ ← ask (E := procSig) (.file (.removeFile path))
  pure ()

/-- `CookieGuard::drop` -/
def dropGuard (path : String) : ProcProg Unit := removeFile path

section
variable (hmacSha256 : List UInt8 → List UInt8 → MacOutput)

/-- `f.write_all(bytes)` -/
def writeFile (fd : Nat) (bytes : List UInt8) : ProcProg Unit :=
  (writeAll (E := procSig) (fun rest => .file (.write fd rest)) (fun _ a => a) bytes).mapErr initError

def generateCookie (datadir : String) : ProcProg (String × PasswordHash × String) := do
  let bytes ← ask (E := procSig) (.gen 32)
  let password := encodeString bytes
  let cookiePath := cookiePath datadir
  let tmpPath := cookieTmpPath datadir
  removeFile tmpPath
  let fd ← query (E := procSig) (.file (.createNew tmpPath ownerOnly)) fun a => a.mapError initError
  onError (writeFile fd (utf8 (cookieText password))) (removeFile tmpPath)
  onError (query (E := procSig) (.file (.rename tmpPath cookiePath)) fun a => a.mapError initError)
    (removeFile tmpPath)
  let salt ← ask (E := procSig) (.gen 16)
  pure (cookieUser, .fromBare hmacSha256 salt password, cookiePath)

end

/-- The text of the file, trimmed, where it is a cookie. -/
def cookieOfText (text : String) : Except Stop String :=
  let cookie := String.ofList (trim ZcashConf.isWhitespace text.toList)
  if (cookieUser ++ ":").toList <+: cookie.toList then .ok cookie
  else .error (initFailed "Invalid cookie file format")

def readCookie (datadir : String) : ProcProg String := do
  let text ← query (E := procSig) (.file (.readToString (cookiePath datadir)))
    fun a => a.mapError initError
  ofExcept id (cookieOfText text)

/-! ## `zallet rpc` -/

/-- The fields of the configuration that are read here. -/
structure Config where
  datadir : String
  bind : List String
  auth : List RpcAuthSection
  deriving DecidableEq, Repr

inductive RpcCliError where
  | failedToConnect
  | invalidParameter (param : String)
  | requestFailed (error : String)
  | walletHasNoRpcServer
  deriving DecidableEq, Repr

/-- A configured password, with its user. -/
def configuredCredentials (config : Config) : Option String :=
  config.auth.findSome? fun auth => auth.password.map fun pw => auth.user ++ ":" ++ pw

def credentials (config : Config) : ProcProg (Option String) :=
  match configuredCredentials config with
  | some creds => pure (some creds)
  | none => do
      let cookie ← (readCookie config.datadir).attempt
      pure cookie.toOption

/-- `HeaderValue::from_str`: no control character may be in it, and only with ASCII alone is it a
text for `to_str`. -/
def headerFromStr (s : String) : Option HeaderValue :=
  if s.toList.all fun c => c.toNat = 9 ∨ 32 ≤ c.toNat ∧ c.toNat ≠ 127 then
    some ⟨if s.toList.all fun c => c.toNat < 127 then some s else none⟩
  else none

def authHeader (creds : String) : Except RpcCliError HeaderValue :=
  (headerFromStr ("Basic " ++ encodeString (utf8 creds))).elim (.error .failedToConnect) .ok

abbrev CliProg := Prog procSig (Stop ⊕ RpcCliError)

/-- The client of the first address for which there is one. -/
def buildClient (authorization : Option HeaderValue) : List String → CliProg Unit
  | [] => .fail (.inr .failedToConnect)
  | addr :: addrs => do
      let client ← ask (E := procSig) (.buildClient addr authorization)
      match client with
      | .ok () => pure ()
      | .error _ => buildClient authorization addrs

/-- The client that the header is sent by. -/
def connect (authorization : Option HeaderValue) (bind : List String) : CliProg Unit :=
  if bind = [] then .fail (.inr .walletHasNoRpcServer) else buildClient authorization bind

/-- The request with its parameters, of which each must be JSON. -/
def send (parses : String → Bool) (command : String) (params : List String) : CliProg String :=
  match params.find? fun param => !parses param with
  | some param => .fail (.inr (.invalidParameter param))
  | none => query (.request command params) fun a =>
      a.mapError fun e => .inr (.requestFailed e)

/-- `RpcCliCmd::run`, up to the response; `parses` says which texts are JSON. -/
def rpcCli (parses : String → Bool) (config : Config) (command : String) (params : List String) :
    CliProg String := do
  let creds ← (credentials config).mapErr .inl
  let authorization ← ofExcept .inr (creds.mapM authHeader)
  connect authorization config.bind
  send parses command params

end Zallet.Process
