/-
# `Zallet.Process.Start` — `zallet start`

`commands/start.rs`, `commands.rs`, `components/json_rpc.rs` and
`components/json_rpc/server.rs`.  The process locks the data directory, makes a
cookie, and opens its port; the task of the server, which goes on by itself,
removes the cookie when it stops.  The lock is dropped when the main task
returns, and that does not wait for the server's.

A system of processes is what the directory is, who has the lock, and what
servers were spawned.  Any process may die at any time (`Dies`): what it
locked is free then, and its tasks do nothing more.
-/
import Zallet.Process.Cookie
import Zallet.Prog.Parties

namespace Zallet.Process

open Prog Authorization Directory

/-! ## The lock -/

def errFailedToCreateLockfile (path error : String) : Stop :=
  initFailed s!"Failed to create a lockfile at {path}: {error}"

def errFailedToReadLockfile (path error : String) : Stop :=
  initFailed s!"Failed to read lockfile at {path}: {error}"

def errZalletAlreadyRunning (datadir : String) : Stop :=
  initFailed s!"Cannot obtain a lock on data directory {datadir}. zallet is probably already running."

def lockDatadir (datadir : String) : ProcProg Unit := do
  let lockfilePath := join datadir ".lock"
  query (E := procSig) (.createLockfile lockfilePath)
    fun a => a.mapError (errFailedToCreateLockfile lockfilePath)
  let locked ← query (E := procSig) (.tryLockExclusive lockfilePath)
    fun a => a.mapError (errFailedToReadLockfile lockfilePath)
  if locked then pure () else .fail (errZalletAlreadyRunning datadir)

/-! ## The server -/

section
variable (hmacSha256 : List UInt8 → List UInt8 → MacOutput)

/-- A salt for each section, of which those without a bare password make no use. -/
def drawSalts : List RpcAuthSection → ProcProg (List (RpcAuthSection × List UInt8))
  | [] => pure []
  | auth :: rest => do
      let salt ← ask (E := procSig) (.gen 16)
      let rest ← drawSalts rest
      pure ((auth, salt) :: rest)

def errInitRpcAuthInvalid : Stop := initFailed "Invalid 'rpc.auth' configuration"

/-- The server from the middleware to its task, with the cookie if there is one. -/
def serve (config : Config) (listenAddr : String) (cookie : Option (String × PasswordHash))
    (guard : Option String) : ProcProg Unit := do
  let auth ← drawSalts config.auth
  let users ← ofExcept id ((newLayer hmacSha256 ⟨auth, cookie⟩).elim
    (.error errInitRpcAuthInvalid) .ok)
  query (E := procSig) (.buildServer listenAddr users) id
  query (E := procSig) .localAddr fun a => a.mapError initFailed
  query (E := procSig) .mergeMethods fun a => a.mapError initFailed
  ask (E := procSig) (.spawnServer users guard)

/-- `server::spawn` -/
def spawnServer (config : Config) : ProcProg Unit :=
  match config.bind with
  | [listenAddr] =>
      if config.auth.any fun a => a.user = cookieUser then
        serve hmacSha256 config listenAddr none none
      else do
        let (user, hash, guard) ← generateCookie hmacSha256 config.datadir
        onError (serve hmacSha256 config listenAddr (some (user, hash)) (some guard))
          (dropGuard guard)
  | _ => .crash "assertion `left == right` failed"

/-- `JsonRpc::spawn` -/
def spawnJsonRpc (config : Config) : ProcProg Unit :=
  if config.bind = [] then ask (E := procSig) .spawnPending
  else if 1 < config.bind.length then
    .fail (initFailed "Only one RPC bind address is supported (for now)")
  else spawnServer hmacSha256 config

/-- What `run_with` does with the lock. -/
def runLocked (config : Config) : ProcProg Unit := do
  query (E := procSig) .openDatabase id
  query (E := procSig) .newKeyStore id
  query (E := procSig) .buildChain id
  spawnJsonRpc hmacSha256 config
  query (E := procSig) .spawnSync id
  query (E := procSig) .taskExited id
  ask (E := procSig) .abortTasks

/-- `StartCmd::run_with`; the lock is dropped last. -/
def runWith (config : Config) : ProcProg Unit := do
  lockDatadir config.datadir
  let r ← (runLocked hmacSha256 config).attempt
  ask (E := procSig) .unlock
  ofExcept id r

/-- The task of the server; its guard is dropped when it is stopped or aborted. -/
def serverTask : ProcProg Unit := do
  let (_, guard) ← ask (E := procSig) .begin
  ask (E := procSig) .serverStopped
  match guard with
  | some path => dropGuard path
  | none => pure ()

end

/-! ## Several processes -/

inductive Role where
  | main
  | server
  deriving DecidableEq, Repr

/-- The tasks of the processes. -/
def starts {ι : Type} (hmacSha256 : List UInt8 → List UInt8 → MacOutput) (configs : ι → Config) :
    ι × Role → ProcProg Unit
  | (i, .main) => runWith hmacSha256 (configs i)
  | (_, .server) => serverTask

structure State (ι : Type) where
  dir : Dir String
  holder : Option ι
  spawned : ι → Option (Users × Option String)
  gone : ι → Bool

section
variable {ι : Type}

/-- Some processes die. -/
structure Dies (s s' : State ι) : Prop where
  dir : s'.dir = s.dir
  spawned : s'.spawned = s.spawned
  gone : ∀ i, s'.gone i = false → s.gone i = false
  holder : ∀ i, s'.holder = some i ↔ s.holder = some i ∧ s'.gone i = false

variable [DecidableEq ι]

/-- How a process is answered. -/
def procStep (i : ι) (s : State ι) : (op : ProcOp) → op.Ans → State ι → Prop
  | .file op, a, s' => ∃ d, fileStep s.dir op a d ∧ s' = { s with dir := d }
  | .gen length, bytes, s' => bytes.length = length ∧ s' = s
  | .tryLockExclusive _, .ok true, s' => s.holder = none ∧ s' = { s with holder := some i }
  | .tryLockExclusive _, .ok false, s' => s.holder ≠ none ∧ s' = s
  | .unlock, _, s' =>
      s' = { s with holder := if s.holder = some i then none else s.holder }
  | .spawnServer users guard, _, s' =>
      s' = { s with spawned := Function.update s.spawned i (some (users, guard)) }
  | .begin, spawned, s' => s.spawned i = some spawned ∧ s' = s
  | _, _, s' => s' = s

/-- The same, when some may have died before, but not this one. -/
def aliveStep (i : ι) (s : State ι) (op : ProcOp) (a : op.Ans) (s' : State ι) : Prop :=
  ∃ s₁, Dies s s₁ ∧ s₁.gone i = false ∧ procStep i s₁ op a s'

end

end Zallet.Process
