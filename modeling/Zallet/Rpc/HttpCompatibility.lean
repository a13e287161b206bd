/-
# `Zallet.Rpc.HttpCompatibility` — clients of the older versions of JSON-RPC

The RPC library speaks JSON-RPC 2.0, the clients of `zcashd` a mix of 1.0, 1.1
and 2.0.  The middleware tells the version of a request, writes it again as one
of 2.0 (`requestToJsonRpc2`), and writes the reply again in the version of the
request (`responseFromJsonRpc2`).  Both are read by `serde` into a record whose
optional members are `Option`s, so that a member that is `null` is read like one
that is not there.

A reply has no harm from it: what is missing is `null` again, where the version
asks for that (`responseFromJsonRpc2_carries`).  A request has: the 2.0 request
has its method, its parameters and its id unless one of the last two is `null`
(`transparent_iff`), and a call whose id is `null` becomes a notification
(`null_id_dropped`).
-/
import Mathlib.Data.String.Basic

namespace Zallet.HttpCompatibility

/-! ## JSON -/

/-- `serde_json::Value`; a number is its literal. -/
inductive Value where
  | null
  | bool (b : Bool)
  | number (literal : String)
  | string (s : String)
  | array (values : List Value)
  | object (members : List (String × Value))

/-- The members of an object as they are written: in order, and maybe with a key twice. -/
abbrev Members := List (String × Value)

inductive Body where
  | object (members : Members)
  | array (values : List Value)
  /-- Anything else, JSON or not. -/
  | other (bytes : List UInt8)

/-! ## What `serde` reads and writes -/

/-- The value of a field; a key that is there twice is an error. -/
def field (key : String) (members : Members) : Option (Option Value) :=
  match members.filter (·.1 = key) with
  | [] => some none
  | [entry] => some (some entry.2)
  | _ => none

/-- A field that is an `Option`: `null` is read as if it were not there. -/
def optional {α : Type} (read : Value → Option α) : Option Value → Option (Option α)
  | none => some none
  | some .null => some none
  | some value => (read value).map some

def asString : Value → Option String
  | .string s => some s
  | _ => none

/-- A record is read off an object, or off an array of its fields. -/
def Body.fields (names : List String) : Body → Option Members
  | .object members => some members
  | .array values => if values.length = names.length then some (names.zip values) else none
  | .other _ => none

/-- `skip_serializing_if = "Option::is_none"` -/
def written (key : String) (value : Option Value) : Members := value.toList.map fun v => (key, v)

/-! ## Requests -/

inductive JsonRpcVersion where
  | bitcoind | lightwalletd | twoPointZero | unknown
  deriving DecidableEq, Repr

structure JsonRpcRequest where
  jsonrpc : Option String
  method : String
  params : Option Value
  id : Option Value

namespace JsonRpcRequest

def read (members : Members) : Option JsonRpcRequest := do
  let jsonrpc ← optional asString (← field "jsonrpc" members)
  let method ← asString (← (← field "method" members))
  let params ← optional some (← field "params" members)
  let id ← optional some (← field "id" members)
  pure ⟨jsonrpc, method, params, id⟩

def write (request : JsonRpcRequest) : Members :=
  written "jsonrpc" (request.jsonrpc.map .string) ++ ([("method", .string request.method)] ++
    (written "params" request.params ++ written "id" request.id))

def version (request : JsonRpcRequest) : JsonRpcVersion :=
  match request.jsonrpc, request.params, request.id with
  | some "2.0", _, none => .twoPointZero
  | some "2.0", _, some .null => .twoPointZero
  | some "2.0", _, some (.string _) => .twoPointZero
  | some "2.0", _, some (.number _) => .twoPointZero
  | some "1.0", some _, some _ => .lightwalletd
  | none, some _, some _ => .bitcoind
  | _, _, _ => .unknown

def into2 (request : JsonRpcRequest) : JsonRpcRequest := { request with jsonrpc := some "2.0" }

end JsonRpcRequest

def requestToJsonRpc2 (body : Body) : JsonRpcVersion × Body :=
  match (body.fields ["jsonrpc", "method", "params", "id"]).bind JsonRpcRequest.read with
  | some request =>
      if request.version = .unknown then (.unknown, body)
      else (request.version, .object request.into2.write)
  | none => (.unknown, body)

/-! ## Responses -/

structure JsonRpcResponse where
  jsonrpc : Option String
  result : Option Value
  error : Option Value
  id : Value

namespace JsonRpcResponse

def read (members : Members) : Option JsonRpcResponse := do
  let jsonrpc ← optional asString (← field "jsonrpc" members)
  let result ← optional some (← field "result" members)
  let error ← optional some (← field "error" members)
  let id ← (← field "id" members)
  pure ⟨jsonrpc, result, error, id⟩

def write (response : JsonRpcResponse) : Members :=
  written "jsonrpc" (response.jsonrpc.map .string) ++ (written "result" response.result ++
    (written "error" response.error ++ [("id", response.id)]))

/-- The two assertions are the panics. -/
def intoVersion (response : JsonRpcResponse) : JsonRpcVersion → Except String JsonRpcResponse
  | .bitcoind => .ok { response with
      jsonrpc := none
      result := response.result <|> some .null
      error := response.error <|> some .null }
  | .lightwalletd => .ok { response with
      jsonrpc := some "1.0"
      result := response.result <|> some .null
      error := response.error <|> some .null }
  | .twoPointZero =>
      if response.jsonrpc ≠ some "2.0" then .error "assertion `left == right` failed"
      else if response.error.isNone then
        .ok { response with result := response.result <|> some .null }
      else if response.result.isNone then .ok response
      else .error "assertion failed: self.result.is_none()"
  | .unknown => .ok response

end JsonRpcResponse

structure HttpResponse where
  status : ℕ
  body : Body

/-- By the code of the error. -/
def errorStatus (code : ℤ) : ℕ :=
  if code = -32600 then 400 else if code = -32601 then 404 else 500

section
-- The code of an error, where the RPC library reads it as an `ErrorObject`.
variable (errorCode : Value → Option ℤ)

def JsonRpcResponse.status (response : JsonRpcResponse) (version : JsonRpcVersion) (status : ℕ) :
    ℕ :=
  match version with
  | .bitcoind | .lightwalletd => ((response.error.bind errorCode).map errorStatus).getD status
  | _ => status

def responseFromJsonRpc2 (version : JsonRpcVersion) (response : HttpResponse) :
    Except String HttpResponse :=
  match (response.body.fields ["jsonrpc", "result", "error", "id"]).bind JsonRpcResponse.read with
  | some reply => do
      let versioned ← reply.intoVersion version
      pure ⟨reply.status errorCode version response.status, .object versioned.write⟩
  | none => pure response

/-- The middleware around a service. -/
def call (service : Body → HttpResponse) (body : Body) : Except String HttpResponse :=
  let (version, request) := requestToJsonRpc2 body
  responseFromJsonRpc2 errorCode version (service request)

/-! ## What is kept -/

inductive Outcome where
  | succeeded (result : Value)
  | failed (error : Value)

def Outcome.result : Outcome → Option Value
  | .succeeded result => some result
  | .failed _ => none

def Outcome.error : Outcome → Option Value
  | .succeeded _ => none
  | .failed error => some error

/-- A 2.0 response: its members in any order, with the result or else the error, which is not
`null`. -/
structure Response2 (id : Value) (outcome : Outcome) (members : Members) : Prop where
  members_perm : members.Perm (("jsonrpc", .string "2.0") :: ("id", id) ::
    (written "result" outcome.result ++ written "error" outcome.error))
  error_ne : outcome.error ≠ some .null

/-- How the version is named in a response. -/
def JsonRpcVersion.name : JsonRpcVersion → Option Value
  | .lightwalletd => some (.string "1.0")
  | .twoPointZero => some (.string "2.0")
  | _ => none

/-- What stands for the result of a call that failed, and for the error of one that did not. -/
def JsonRpcVersion.missing : JsonRpcVersion → Option Value
  | .bitcoind | .lightwalletd => some .null
  | _ => none

/-- The response, in this version. -/
structure Carries (version : JsonRpcVersion) (id : Value) (outcome : Outcome) (members : Members) :
    Prop where
  jsonrpc : members.lookup "jsonrpc" = version.name
  id : members.lookup "id" = some id
  result : members.lookup "result" = outcome.result.or version.missing
  error : members.lookup "error" = outcome.error.or version.missing

/-- The service is asked for what the client asks for, and what it answers is answered. -/
structure Transparent (members : Members) : Prop where
  request : ∃ sent, (requestToJsonRpc2 (.object members)).2 = .object sent ∧
    sent.lookup "jsonrpc" = some (.string "2.0") ∧
    sent.lookup "method" = members.lookup "method" ∧
    sent.lookup "params" = members.lookup "params" ∧ sent.lookup "id" = members.lookup "id"
  response : ∀ (service : Body → HttpResponse) (id : Value) (outcome : Outcome) (reply : Members),
    (service (requestToJsonRpc2 (.object members)).2).body = .object reply →
    Response2 id outcome reply →
    ∃ status sent, call errorCode service (.object members) = .ok ⟨status, .object sent⟩ ∧
      Carries (requestToJsonRpc2 (.object members)).1 id outcome sent

end

section
variable {members members' : Members} {key : String} {value : Option Value}

/-! ### Members -/

theorem lookup_written (key key' : String) (value : Option Value) :
    (written key value).lookup key' = if key' = key then value else none := by
  cases value with
  | none => exact (ite_self none).symm
  | some v =>
      rw [written, Option.toList_some, List.map_singleton]
      by_cases h : key' = key
      · rw [if_pos h, h, List.lookup_cons_self]
      · rw [if_neg h, List.lookup_cons, beq_false_of_ne h, List.lookup_nil]

theorem lookup_eq_head? (members : Members) (key : String) :
    members.lookup key = (members.filter (·.1 = key)).head?.map Prod.snd := by
  induction members with
  | nil => rfl
  | cons entry members ih =>
      by_cases h : entry.1 = key
      · rw [List.filter_cons_of_pos (by simpa using h), List.lookup_cons, h, beq_self_eq_true]
        rfl
      · rw [List.filter_cons_of_neg (by simpa using h), List.lookup_cons,
          beq_false_of_ne (Ne.symm h)]
        exact ih

theorem field_eq_some (h : field key members = some value) : members.lookup key = value := by
  rw [lookup_eq_head?]
  rw [field] at h
  split at h
  next hnone =>
    rw [hnone]
    exact Option.some.inj h
  next entry hone =>
    rw [hone]
    exact Option.some.inj h
  next => cases h

/-- Where no key is there twice, a field is what stands at its key. -/
theorem filter_eq_written (h : (members.map Prod.fst).Nodup) :
    members.filter (·.1 = key) = written key (members.lookup key) := by
  induction members with
  | nil => rfl
  | cons entry members ih =>
      obtain ⟨hnot, hrest⟩ := List.nodup_cons.mp h
      by_cases hkey : entry.1 = key
      · have hnone : members.filter (·.1 = key) = [] := by
          refine List.filter_eq_nil_iff.mpr ?_
          intro other hother hsame
          have hsame : other.1 = key := of_decide_eq_true hsame
          exact hnot (hkey.trans hsame.symm ▸ List.mem_map_of_mem hother)
        rw [List.filter_cons_of_pos (by simpa using hkey), List.lookup_cons, hnone, hkey,
          beq_self_eq_true, ← hkey]
        rfl
      · rw [List.filter_cons_of_neg (by simpa using hkey), List.lookup_cons,
          beq_false_of_ne (Ne.symm hkey)]
        exact ih hrest

theorem field_of_perm (key : String) (hperm : members.Perm members') (h : (members'.map Prod.fst).Nodup) :
    field key members = some (members'.lookup key) := by
  have hfilter := hperm.filter (·.1 = key)
  rw [filter_eq_written h] at hfilter
  rw [field]
  cases hlookup : members'.lookup key with
  | none =>
      rw [hlookup] at hfilter
      rw [List.perm_nil.mp hfilter]
  | some v =>
      rw [hlookup] at hfilter
      rw [List.perm_singleton.mp hfilter]

/-- What is left of a member that is read as an `Option`. -/
def present : Option Value → Option Value
  | some .null => none
  | value => value

theorem optional_some (value : Option Value) : optional some value = some (present value) := by
  cases value with
  | none => rfl
  | some v => cases v <;> rfl

theorem present_eq_iff : present value = value ↔ value ≠ some .null := by
  cases value with
  | none => exact iff_of_true rfl nofun
  | some v =>
      cases v with
      | null => exact iff_of_false nofun fun h => h rfl
      | _ => exact iff_of_true rfl nofun

/-- What is `null` where it is not there comes to the same. -/
theorem present_or_null (value : Option Value) :
    (present value <|> some .null) = value.or (some .null) := by
  cases value with
  | none => rfl
  | some v => cases v <;> rfl

theorem asString_eq_some {value : Value} {s : String} (h : asString value = some s) :
    value = .string s := by
  cases value with
  | string s' => exact congrArg Value.string (Option.some.inj h)
  | _ => cases h

/-! ### Requests -/

theorem JsonRpcRequest.read_eq_some {request : JsonRpcRequest}
    (h : read members = some request) :
    members.lookup "method" = some (.string request.method) ∧
      request.params = present (members.lookup "params") ∧
      request.id = present (members.lookup "id") := by
  obtain ⟨_, -, h⟩ := Option.bind_eq_some_iff.mp h
  obtain ⟨jsonrpc, -, h⟩ := Option.bind_eq_some_iff.mp h
  obtain ⟨_, hmethod, h⟩ := Option.bind_eq_some_iff.mp h
  obtain ⟨value, hvalue, h⟩ := Option.bind_eq_some_iff.mp h
  obtain ⟨method, hstring, h⟩ := Option.bind_eq_some_iff.mp h
  obtain ⟨_, hparams, h⟩ := Option.bind_eq_some_iff.mp h
  obtain ⟨params, hpresent, h⟩ := Option.bind_eq_some_iff.mp h
  obtain ⟨_, hid, h⟩ := Option.bind_eq_some_iff.mp h
  obtain ⟨id, hpresent', h⟩ := Option.bind_eq_some_iff.mp h
  cases Option.some.inj h
  rw [field_eq_some hmethod, field_eq_some hparams, field_eq_some hid, hvalue,
    asString_eq_some hstring]
  rw [optional_some] at hpresent hpresent'
  exact ⟨rfl, (Option.some.inj hpresent).symm, (Option.some.inj hpresent').symm⟩

theorem JsonRpcRequest.lookup_write (request : JsonRpcRequest) :
    request.write.lookup "jsonrpc" = request.jsonrpc.map .string ∧
      request.write.lookup "method" = some (.string request.method) ∧
      request.write.lookup "params" = request.params ∧ request.write.lookup "id" = request.id := by
  simp [write, List.lookup_append, lookup_written, List.lookup_cons]

/-- What a request whose version is told becomes. -/
theorem requestToJsonRpc2_eq (h : (requestToJsonRpc2 (.object members)).1 ≠ .unknown) :
    ∃ request, JsonRpcRequest.read members = some request ∧ request.version ≠ .unknown ∧
      requestToJsonRpc2 (.object members) = (request.version, .object request.into2.write) := by
  rw [requestToJsonRpc2] at h ⊢
  cases hread : (Body.fields ["jsonrpc", "method", "params", "id"] (.object members)).bind
      JsonRpcRequest.read with
  | none =>
      rw [hread] at h
      exact absurd rfl h
  | some request =>
      rw [hread] at h
      dsimp only at h
      split at h
      case isTrue => exact absurd rfl h
      case isFalse hversion => exact ⟨request, hread, hversion, if_neg hversion⟩

/-! ### Responses -/

theorem Response2.read {id : Value} {outcome : Outcome} (h : Response2 id outcome members) :
    JsonRpcResponse.read members =
      some ⟨some "2.0", present outcome.result, present outcome.error, id⟩ := by
  have hkeys : (("jsonrpc", .string "2.0") :: ("id", id) ::
      (written "result" outcome.result ++ written "error" outcome.error) : Members).map
        Prod.fst |>.Nodup := by
    cases outcome with
    | succeeded result => exact (by decide : ["jsonrpc", "id", "result"].Nodup)
    | failed error => exact (by decide : ["jsonrpc", "id", "error"].Nodup)
  have hfield := fun key => field_of_perm key h.members_perm hkeys
  have hresult : field "result" members = some outcome.result := by
    rw [hfield]
    simp [List.lookup_append, lookup_written, List.lookup_cons]
  have herror : field "error" members = some outcome.error := by
    rw [hfield]
    simp [List.lookup_append, lookup_written, List.lookup_cons]
  have hjsonrpc : field "jsonrpc" members = some (some (.string "2.0")) := hfield "jsonrpc"
  have hid : field "id" members = some (some id) := hfield "id"
  simp only [JsonRpcResponse.read, hjsonrpc, hresult, herror, hid, optional_some]
  rfl

theorem JsonRpcResponse.lookup_write (response : JsonRpcResponse) :
    response.write.lookup "jsonrpc" = response.jsonrpc.map .string ∧
      response.write.lookup "result" = response.result ∧
      response.write.lookup "error" = response.error ∧
      response.write.lookup "id" = some response.id := by
  simp [write, List.lookup_append, lookup_written, List.lookup_cons]

theorem Response2.intoVersion {id : Value} {outcome : Outcome} (h : Response2 id outcome members)
    {version : JsonRpcVersion} (hversion : version ≠ .unknown) :
    ∃ response : JsonRpcResponse,
      JsonRpcResponse.intoVersion ⟨some "2.0", present outcome.result, present outcome.error, id⟩
        version = .ok response ∧ response.jsonrpc.map .string = version.name ∧
      response.result = outcome.result.or version.missing ∧
      response.error = outcome.error.or version.missing ∧ response.id = id := by
  have herror : present outcome.error = outcome.error := present_eq_iff.mpr h.error_ne
  cases version with
  | bitcoind => exact ⟨_, rfl, rfl, present_or_null _, present_or_null _, rfl⟩
  | lightwalletd => exact ⟨_, rfl, rfl, present_or_null _, present_or_null _, rfl⟩
  | twoPointZero =>
      rw [herror]
      cases outcome with
      | succeeded result =>
          have hresult : (present (some result) <|> some .null) = some result :=
            present_or_null (some result)
          exact ⟨_, rfl, rfl, hresult, rfl, rfl⟩
      | failed error => exact ⟨_, rfl, rfl, rfl, rfl, rfl⟩
  | unknown => exact absurd rfl hversion

/-- A response is carried over to any version, and no assertion fails. -/
theorem responseFromJsonRpc2_carries (errorCode : Value → Option ℤ) {version : JsonRpcVersion}
    {response : HttpResponse} {id : Value} {outcome : Outcome}
    (hbody : response.body = .object members) (h : Response2 id outcome members)
    (hversion : version ≠ .unknown) :
    ∃ status sent, responseFromJsonRpc2 errorCode version response = .ok ⟨status, .object sent⟩ ∧
      Carries version id outcome sent := by
  obtain ⟨versioned, hversioned, hjsonrpc, hresult, herror, hid⟩ := h.intoVersion hversion
  obtain ⟨hname, hresult', herror', hid'⟩ := versioned.lookup_write
  let reply : JsonRpcResponse := ⟨some "2.0", present outcome.result, present outcome.error, id⟩
  have hread : (response.body.fields ["jsonrpc", "result", "error", "id"]).bind
      JsonRpcResponse.read = some reply := by
    rw [hbody]
    exact h.read
  refine ⟨reply.status errorCode version response.status, versioned.write, ?_, ?_⟩
  · rw [responseFromJsonRpc2, hread]
    dsimp only
    rw [hversioned]
    rfl
  · exact ⟨hname.trans hjsonrpc, hid'.trans (congrArg some hid), hresult'.trans hresult,
      herror'.trans herror⟩

/-- The middleware is transparent to a request whose version it tells just when neither the id nor
the parameters are `null`. -/
theorem transparent_iff (errorCode : Value → Option ℤ) (members : Members)
    (h : (requestToJsonRpc2 (.object members)).1 ≠ .unknown) :
    Transparent errorCode members ↔
      members.lookup "id" ≠ some .null ∧ members.lookup "params" ≠ some .null := by
  obtain ⟨request, hread, hversion, hsent⟩ := requestToJsonRpc2_eq h
  obtain ⟨hmethod, hparams, hid⟩ := JsonRpcRequest.read_eq_some hread
  obtain ⟨hjsonrpc, hmethod', hparams', hid'⟩ := request.into2.lookup_write
  constructor
  · intro htransparent
    obtain ⟨sent, hbody, -, -, hsame, hsame'⟩ := htransparent.request
    rw [hsent] at hbody
    cases hbody
    constructor
    · exact present_eq_iff.mp (hid.symm.trans (hid'.symm.trans hsame'))
    · exact present_eq_iff.mp (hparams.symm.trans (hparams'.symm.trans hsame))
  · intro hnull
    obtain ⟨hidNull, hparamsNull⟩ := hnull
    constructor
    · refine ⟨request.into2.write, by rw [hsent], hjsonrpc, hmethod'.trans hmethod.symm, ?_, ?_⟩
      · exact hparams'.trans (hparams.trans (present_eq_iff.mpr hparamsNull))
      · exact hid'.trans (hid.trans (present_eq_iff.mpr hidNull))
    · intro service id outcome reply hbody hreply
      exact responseFromJsonRpc2_carries errorCode hbody hreply h

end

/-- The code of an error object, where it is a literal. -/
def literalCode : Value → Option ℤ
  | .object members =>
      match members.lookup "code" with
      | some (.number literal) => literal.toInt?
      | _ => none
  | _ => none

/-- A call as `curl` makes it. -/
def curlCall : Members :=
  [("id", .string "curltest"), ("method", .string "getwalletinfo"), ("params", .array [])]

theorem transparent_iff_curl :
    (requestToJsonRpc2 (.object curlCall)).1 ≠ .unknown ∧ Transparent literalCode curlCall :=
  ⟨nofun, (transparent_iff literalCode curlCall nofun).mpr ⟨nofun, nofun⟩⟩

/-- A 2.0 call that asks for a response with the id `null`. -/
def nullIdCall : Members :=
  [("jsonrpc", .string "2.0"), ("method", .string "getwalletinfo"), ("params", .array []),
    ("id", .null)]

theorem null_id_dropped :
    requestToJsonRpc2 (.object nullIdCall) =
      (.twoPointZero, .object [("jsonrpc", .string "2.0"), ("method", .string "getwalletinfo"),
        ("params", .array [])]) ∧
    ¬ Transparent literalCode nullIdCall := by
  refine ⟨rfl, ?_⟩
  intro h
  obtain ⟨sent, hsent, -, -, -, hid⟩ := h.request
  cases hsent
  cases hid

end Zallet.HttpCompatibility
