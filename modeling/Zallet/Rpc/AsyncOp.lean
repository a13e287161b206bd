/-
# `Zallet.Rpc.AsyncOp` — asynchronous operations and the calls that ask for them

`json_rpc/asyncop.rs`, `start_async` and the three methods that read the list
of operations, as one machine.  Two kinds of locks order it.  The list is
behind one lock: a call of `start_async` or `z_getoperationresult` has it alone
for as long as it runs, the other two share it.  An operation's data is behind
a lock of its own, and every use of it is one step: a task's two writes, and the
reads of `state` and `to_status`, between which tasks go on.

A call is followed from when it has the list's lock; what it answers is added
to the log.  An id is an operation's own, so its data and its task are found by
it.  A `SystemTime` is in nanoseconds since the epoch.
-/
import Zallet.Prog.Machine
import Mathlib.Data.List.Basic

namespace Zallet

/-- `opid-` and a UUID. -/
structure OperationId where
  uuid : Nat
  deriving DecidableEq, Repr

structure JsonValue where
  text : String
  deriving DecidableEq, Repr

/-- The error of an RPC method. -/
structure OperationError where
  code : Int
  message : String
  data : Option String
  deriving DecidableEq, Repr

structure ContextInfo where
  method : String
  params : JsonValue
  deriving DecidableEq, Repr

/-- The possible states that an async operation can be in. -/
inductive OperationState where
  | ready | executing | cancelled | failed | success
  deriving DecidableEq, Repr

def OperationState.parse : String → Option OperationState
  | "queued" => some .ready
  | "executing" => some .executing
  | "cancelled" => some .cancelled
  | "failed" => some .failed
  | "success" => some .success
  | _ => none

/-- The states whose operations `z_getoperationresult` takes. -/
def OperationState.isFinal : OperationState → Bool
  | .success | .failed | .cancelled => true
  | .ready | .executing => false

/-- Data associated with an async operation. -/
structure OperationData where
  state : OperationState
  startTime : Option Int
  endTime : Option Int
  result : Option (Except OperationError JsonValue)
  deriving DecidableEq

def OperationData.new : OperationData := ⟨.ready, none, none, none⟩

/-- An async operation launched by an RPC call. -/
structure AsyncOperation where
  operationId : OperationId
  context : Option ContextInfo
  creationTime : Int
  deriving DecidableEq

/-- The status of an async operation. -/
structure OperationStatus where
  id : OperationId
  method : Option String
  params : Option JsonValue
  status : OperationState
  creationTime : Nat
  error : Option OperationError
  result : Option JsonValue
  executionSecs : Option Nat
  deriving DecidableEq

/-- The whole seconds from one time to a later one; none if it is earlier. -/
def secsBetween (start stop : Int) : Nat := ((stop - start) / 1000000000).toNat

/-- `to_status`, of an operation with the given data. -/
def AsyncOperation.toStatus (op : AsyncOperation) (data : OperationData) : OperationStatus where
  id := op.operationId
  method := op.context.map (·.method)
  params := op.context.map (·.params)
  status := data.state
  creationTime := secsBetween 0 op.creationTime
  error := data.result.bind fun r => match r with
    | .error e => some e
    | .ok _ => none
  result := data.result.bind fun r => match r with
    | .ok value => some value
    | .error _ => none
  executionSecs := data.result.bind fun r => match r with
    | .ok _ => data.startTime.bind fun start => data.endTime.map fun stop => secsBetween start stop
    | .error _ => none

/-- Where an operation's task is. -/
inductive OperationTask where
  | unspawned
  | ready
  /-- the operation's future is running -/
  | running
  /-- it has completed, and that is not recorded yet -/
  | completed (result : Except OperationError JsonValue) (endTime : Int)
  | ended
  deriving DecidableEq

/-- An operation is asked for by its id, or by giving no ids. -/
def asksFor (operationid : List OperationId) (id : OperationId) : Bool :=
  operationid.isEmpty || id ∈ operationid

def filtered (asyncOps : List AsyncOperation) (operationid : List OperationId) :
    List AsyncOperation :=
  asyncOps.filter fun op => asksFor operationid op.operationId

/-! ## Calls -/

inductive OperationsRequest where
  | startAsync (context : Option ContextInfo)
  | status (operationid : List OperationId)
  | result (operationid : List OperationId)
  | listIds (status : Option String)
  deriving DecidableEq

inductive OperationsResponse where
  | started (id : OperationId)
  | statuses (ret : List OperationStatus)
  | ids (operationIds : List OperationId)
  deriving DecidableEq

/-- A call that has the list alone, and what it has left to do. -/
inductive Writing where
  | startAsync (call : Nat) (context : Option ContextInfo)
  /-- its operation is spawned, and not yet in the list -/
  | spawned (call : Nat) (op : AsyncOperation)
  | result (call : Nat) (operationid : List OperationId) (rest : List AsyncOperation)
      (ret : List OperationStatus) (remove : List OperationId)
  /-- `op` was in a final state, its status is to be read -/
  | taking (call : Nat) (operationid : List OperationId) (op : AsyncOperation)
      (rest : List AsyncOperation) (ret : List OperationStatus) (remove : List OperationId)
  deriving DecidableEq

def Writing.call : Writing → Nat
  | .startAsync call _ | .spawned call _ | .result call _ _ _ _ | .taking call _ _ _ _ _ => call

/-- A call that reads the list, with others. -/
inductive Reading where
  | status (call : Nat) (operationid : List OperationId) (rest : List AsyncOperation)
      (ret : List OperationStatus)
  | listIds (call : Nat) (status : Option String) (rest : List AsyncOperation)
      (operationIds : List OperationId)
  deriving DecidableEq

/-- The lock of the list. -/
inductive ListLock where
  | shared (readers : List Reading)
  | alone (writer : Writing)
  deriving DecidableEq

/-- An answered call. -/
structure Answered where
  call : Nat
  request : OperationsRequest
  response : OperationsResponse
  deriving DecidableEq

structure OperationsState where
  lock : ListLock
  asyncOps : List AsyncOperation
  data : OperationId → OperationData
  tasks : OperationId → OperationTask
  log : List Answered
  now : Int

namespace OperationsState

/-- Before any call. -/
def new (now : Int) : OperationsState where
  lock := .shared []
  asyncOps := []
  data _ := .new
  tasks _ := .unspawned
  log := []
  now := now

def stateOf (s : OperationsState) (op : AsyncOperation) : OperationState :=
  (s.data op.operationId).state

def statusOf (s : OperationsState) (op : AsyncOperation) : OperationStatus :=
  op.toStatus (s.data op.operationId)

def setData (s : OperationsState) (id : OperationId) (data : OperationData) : OperationsState :=
  { s with data := Function.update s.data id data }

def setTask (s : OperationsState) (id : OperationId) (task : OperationTask) : OperationsState :=
  { s with tasks := Function.update s.tasks id task }

/-- The call answers and drops the lock it had alone. -/
def answer (s : OperationsState) (call : Nat) (request : OperationsRequest)
    (response : OperationsResponse) : OperationsState :=
  { s with lock := .shared [], log := s.log ++ [⟨call, request, response⟩] }

/-! ## Steps -/

/-- A call gets the lock of the list. -/
def enter (s : OperationsState) (call : Nat) : OperationsRequest → OperationsState
  | .startAsync context => { s with lock := .alone (.startAsync call context) }
  | .result operationid =>
      { s with lock := .alone (.result call operationid (filtered s.asyncOps operationid) [] []) }
  | .status operationid =>
      match s.lock with
      | .shared readers =>
          { s with lock := .shared (readers ++
              [.status call operationid (filtered s.asyncOps operationid) []]) }
      | .alone _ => s
  | .listIds status =>
      match s.lock with
      | .shared readers => { s with lock := .shared (readers ++ [.listIds call status s.asyncOps []]) }
      | .alone _ => s

def MayEnter (s : OperationsState) (request : OperationsRequest) : Bool :=
  match request, s.lock with
  | .startAsync _, .shared readers | .result _, .shared readers => readers.isEmpty
  | .status _, .shared _ | .listIds _, .shared _ => true
  | _, .alone _ => false

/-- `AsyncOperation::new`, with the id it draws. -/
def spawn (s : OperationsState) (id : OperationId) : OperationsState :=
  match s.lock with
  | .alone (.startAsync call context) =>
      { (s.setData id .new).setTask id .ready with
        lock := .alone (.spawned call ⟨id, context, s.now⟩) }
  | _ => s

def MaySpawn (s : OperationsState) (id : OperationId) : Bool :=
  match s.lock with
  | .alone (.startAsync _ _) => s.tasks id = .unspawned
  | _ => false

/-- The next step of the call that has the list alone. -/
def write (s : OperationsState) : Writing → OperationsState
  | .startAsync _ _ => s
  | .spawned call op =>
      { s with asyncOps := s.asyncOps ++ [op] }.answer call (.startAsync op.context)
        (.started op.operationId)
  | .result call operationid [] ret remove =>
      { s with asyncOps := s.asyncOps.filter fun op => op.operationId ∉ remove }.answer call
        (.result operationid) (.statuses ret)
  | .result call operationid (op :: rest) ret remove =>
      if (s.stateOf op).isFinal then
        { s with lock := .alone (.taking call operationid op rest ret remove) }
      else { s with lock := .alone (.result call operationid rest ret remove) }
  | .taking call operationid op rest ret remove =>
      let ret := ret ++ [s.statusOf op]
      { s with lock := .alone (.result call operationid rest ret (remove ++ [op.operationId])) }

def MayWrite (s : OperationsState) : Bool :=
  match s.lock with
  | .alone (.startAsync _ _) | .shared _ => false
  | .alone _ => true

/-- One step of a call that reads the list: the call as it goes on, or its answer. -/
def readStep (s : OperationsState) : Reading → Reading ⊕ Answered
  | .status call operationid [] ret => .inr ⟨call, .status operationid, .statuses ret⟩
  | .status call operationid (op :: rest) ret =>
      .inl (.status call operationid rest (ret ++ [s.statusOf op]))
  | .listIds call status [] operationIds => .inr ⟨call, .listIds status, .ids operationIds⟩
  | .listIds call none (op :: rest) operationIds =>
      .inl (.listIds call none rest (operationIds ++ [op.operationId]))
  | .listIds call (some status) (op :: rest) operationIds =>
      if OperationState.parse status = some (s.stateOf op) then
        .inl (.listIds call (some status) rest (operationIds ++ [op.operationId]))
      else .inl (.listIds call (some status) rest operationIds)

/-- The next step of the reader at a place. -/
def read (s : OperationsState) (readers : List Reading) (place : Nat) (reading : Reading) :
    OperationsState :=
  match s.readStep reading with
  | .inl reading' => { s with lock := .shared (readers.set place reading') }
  | .inr answered =>
      { s with lock := .shared (readers.eraseIdx place), log := s.log ++ [answered] }

def MayRead (s : OperationsState) (place : Nat) : Bool :=
  match s.lock with
  | .shared readers => place < readers.length
  | .alone _ => false

/-- A task records that it has started. -/
def begin (s : OperationsState) (id : OperationId) : OperationsState :=
  if (s.data id).state = .cancelled then s.setTask id .ended
  else (s.setData id { s.data id with state := .executing, startTime := some s.now }).setTask id
    .running

/-- The state of an operation with a result. -/
def outcome : Except OperationError JsonValue → OperationState
  | .ok _ => .success
  | .error _ => .failed

/-- A task records its result. -/
def record (s : OperationsState) (id : OperationId) : OperationsState :=
  match s.tasks id with
  | .completed result endTime =>
      (s.setData id { s.data id with
        state := outcome result, endTime := some endTime, result := some result }).setTask id .ended
  | _ => s

def MayRecord (s : OperationsState) (id : OperationId) : Bool :=
  match s.tasks id with
  | .completed _ _ => true
  | _ => false

end OperationsState

/-- Who moves, and what the outside gives. -/
inductive OperationsAction where
  | enter (call : Nat) (request : OperationsRequest)
  | spawn (id : OperationId)
  | write
  | read (place : Nat)
  | begin (id : OperationId)
  /-- the operation's future completes -/
  | complete (id : OperationId) (result : Except OperationError JsonValue)
  | record (id : OperationId)
  | time (now : Int)

open OperationsState in
/-- The calls, the operations and their tasks. -/
def operations : Machine OperationsState OperationsAction where
  enabled s
    | .enter _ request => s.MayEnter request = true
    | .spawn id => s.MaySpawn id = true
    | .write => s.MayWrite = true
    | .read place => s.MayRead place = true
    | .begin id => s.tasks id = .ready
    | .complete id _ => s.tasks id = .running
    | .record id => s.MayRecord id = true
    | .time _ => True
  next s
    | .enter call request => s.enter call request
    | .spawn id => s.spawn id
    | .write => match s.lock with
        | .alone writer => s.write writer
        | .shared _ => s
    | .read place => match s.lock with
        | .shared readers => (readers[place]?).elim s (s.read readers place)
        | .alone _ => s
    | .begin id => s.begin id
    | .complete id result => s.setTask id (.completed result s.now)
    | .record id => s.record id
    | .time now => { s with now := now }

instance decOperations (s : OperationsState) :
    (a : OperationsAction) → Decidable (operations.enabled s a)
  | .enter _ request => inferInstanceAs (Decidable (s.MayEnter request = true))
  | .spawn id => inferInstanceAs (Decidable (s.MaySpawn id = true))
  | .write => inferInstanceAs (Decidable (s.MayWrite = true))
  | .read place => inferInstanceAs (Decidable (s.MayRead place = true))
  | .begin id => inferInstanceAs (Decidable (s.tasks id = .ready))
  | .complete id _ => inferInstanceAs (Decidable (s.tasks id = .running))
  | .record id => inferInstanceAs (Decidable (s.MayRecord id = true))
  | .time _ => .isTrue trivial

end Zallet
