/-
# `Zallet.Rpc.AddressForAccount` — an address with the receivers asked for

`z_getaddressforaccount` of `json_rpc/methods/get_address_for_account.rs`.  The
receiver types are gone through once: one of them ends the loop with an error,
the others set what is required or are collected as unknown, and what is made of
it depends on all of them.  `parseReceiverTypes_eq` says which lists are accepted,
what is required then, and which of the errors the others get.

The wallet keeps the addresses that it gives out, so it matters when it is
asked.  `address_answered` lists the runs of the method: the wallet is asked once, and
not at all where a parameter is refused.
-/
import Zallet.Prog.Outcome
import Zallet.Rpc.AccountNumber

namespace Zallet.AddressForAccount

open AccountNumber (parseAccountParameter)
open Prog

/-! ## The wallet's addresses -/

/-- `ReceiverRequirement`, as far as it is used. -/
inductive ReceiverRequirement where
  | require
  | omit
  deriving DecidableEq, Repr

structure UnifiedAddressRequest where
  orchard : ReceiverRequirement
  sapling : ReceiverRequirement
  p2pkh : ReceiverRequirement
  deriving DecidableEq, Repr

/-- A receiver type in an error; other ones by how they are printed. -/
inductive Typecode where
  | p2sh
  | other (debug : String)
  deriving DecidableEq, Repr

inductive AddressGenerationError where
  | invalidTransparentChildIndex (diversifierIndex : ℕ)
  | invalidSaplingDiversifierIndex (diversifierIndex : ℕ)
  | diversifierSpaceExhausted
  | receiverTypeNotSupported (typecode : Typecode)
  | keyNotAvailable (debug : String)
  | shieldedReceiverRequired
  | unsupportedTransparentKeyScope (debug : String)
  | bip32DerivationError (e : String)
  deriving DecidableEq, Repr

/-- `SqliteClientError`, as far as it is told apart here. -/
inductive WalletError where
  | transparentDerivation (error : String)
  | addressGeneration (e : AddressGenerationError)
  | accountUnknown
  | chainHeightUnknown
  | reachedGapLimit (index : ℕ)
  | diversifierIndexReuse (diversifierIndex : ℕ)
  | other (text : String)
  deriving DecidableEq, Repr

/-- What is used of libraries. -/
structure AddressLib where
  UnifiedAddress : Type
  /-- `UnifiedAddressRequest::custom` -/
  custom : ReceiverRequirement → ReceiverRequirement → ReceiverRequirement →
    Option UnifiedAddressRequest
  /-- `UnifiedAddress::encode`, for the wallet's network -/
  encode : UnifiedAddress → String
  /-- `Uuid::from_str` -/
  parseUuid : String → Option AccountUuid
  /-- `Uuid::to_string` -/
  uuidToString : AccountUuid → String
  /-- How a JSON value is displayed. -/
  display : AccountNumber.JsonValue → String
  /-- `{:?}` of a list of strings -/
  debugStrings : List String → String

/-- A request is for a shielded receiver at least. -/
def AddressLib.Shielded (lib : AddressLib) : Prop :=
  ∀ orchard sapling p2pkh, lib.custom orchard sapling p2pkh =
    if orchard = .omit ∧ sapling = .omit then none else some ⟨orchard, sapling, p2pkh⟩

variable (lib : AddressLib)

inductive AddressOp where
  | getAddressForIndex (account : AccountUuid) (index : ℕ) (request : UnifiedAddressRequest)
  | getNextAvailableAddress (account : AccountUuid) (request : UnifiedAddressRequest)
  deriving DecidableEq

abbrev AddressOp.Ans : AddressOp → Type
  | .getAddressForIndex _ _ _ => Except WalletError (Option lib.UnifiedAddress)
  | .getNextAvailableAddress _ _ => Except WalletError (Option (lib.UnifiedAddress × ℕ))

abbrev addressSig : Sig := ⟨AddressOp, AddressOp.Ans lib⟩

/-! ## The parameters -/

def p2shError : RpcError :=
  LegacyCode.wallet.withMessage "Error: P2SH addresses can not be created using this RPC method."

def noShieldedError : RpcError :=
  LegacyCode.invalidParameter.withMessage
    "Error: cannot generate an address containing no shielded receivers."

def invalidReceiversError (invalidReceivers : List String) : RpcError :=
  LegacyCode.invalidParameter.withMessage (lib.debugStrings invalidReceivers ++ " " ++
    (if invalidReceivers.length = 1 then "is an invalid receiver type"
      else "are invalid receiver types") ++
    ". Arguments must be “p2pkh”, “sapling”, or “orchard”")

/-- The variables of the loop. -/
structure Receivers extends UnifiedAddressRequest where
  invalidReceivers : List String
  deriving DecidableEq, Repr

/-- A turn of the loop. -/
def Receivers.add (s : Receivers) (receiverType : String) : Except RpcError Receivers :=
  if receiverType = "orchard" then .ok { s with orchard := .require }
  else if receiverType = "sapling" then .ok { s with sapling := .require }
  else if receiverType = "p2sh" then .error p2shError
  else if receiverType = "p2pkh" then .ok { s with p2pkh := .require }
  else .ok { s with invalidReceivers := s.invalidReceivers ++ [receiverType] }

def Receivers.request (s : Receivers) : Except RpcError UnifiedAddressRequest :=
  if s.invalidReceivers = [] then
    (lib.custom s.orchard s.sapling s.p2pkh).elim (.error noShieldedError) .ok
  else .error (invalidReceiversError lib s.invalidReceivers)

/-- An empty list is taken for none. -/
def parseReceiverTypes (receiverTypes : Option (List String)) :
    Except RpcError (List String × UnifiedAddressRequest) :=
  match receiverTypes.filter (· ≠ []) with
  | some receiverTypes => do
      let s ← receiverTypes.foldlM Receivers.add ⟨⟨.omit, .omit, .omit⟩, []⟩
      let request ← s.request lib
      .ok (receiverTypes, request)
  | none => .ok (["orchard", "sapling", "p2pkh"], ⟨.require, .require, .require⟩)

def indexTooLarge : RpcError :=
  LegacyCode.invalidParameter.withMessage "diversifier index is too large."

def parseDiversifierIndex (diversifierIndex : ℕ) : Except RpcError ℕ :=
  if diversifierIndex < 2 ^ 88 then .ok diversifierIndex
  else .error indexTooLarge

theorem mapM_parse_small {n : ℕ} (h : n < 2 ^ 88) :
    (some n).mapM parseDiversifierIndex = .ok (some n) := by
  show (parseDiversifierIndex n).map some = _
  rw [parseDiversifierIndex, if_pos h]
  rfl

theorem mapM_parse_large {n : ℕ} (h : 2 ^ 88 ≤ n) :
    (some n).mapM parseDiversifierIndex = .error indexTooLarge := by
  show (parseDiversifierIndex n).map some = _
  rw [parseDiversifierIndex, if_neg (Nat.not_lt.mpr h)]
  rfl

/-! ## The errors of the wallet -/

def mapAddressGenerationError (account : AccountNumber.JsonValue) :
    AddressGenerationError → RpcError
  | .invalidTransparentChildIndex diversifierIndex => LegacyCode.wallet.withMessage
      (s!"Error: diversifier index {diversifierIndex} cannot generate an address with a " ++
        "transparent receiver.")
  | .invalidSaplingDiversifierIndex diversifierIndex => LegacyCode.wallet.withMessage
      (s!"Error: diversifier index {diversifierIndex} cannot generate an address with a " ++
        "Sapling receiver.")
  | .diversifierSpaceExhausted => LegacyCode.wallet.withMessage
      "Error: ran out of diversifier indices. Generate a new account with z_getnewaccount"
  | .receiverTypeNotSupported .p2sh => p2shError
  | .receiverTypeNotSupported (.other typecode) => LegacyCode.wallet.withMessage
      s!"Error: receiver type {typecode} is not supported."
  | .keyNotAvailable typecode => LegacyCode.wallet.withMessage
      (s!"Error: account {lib.display account} cannot generate a receiver component with type " ++
        s!"{typecode}.")
  | .shieldedReceiverRequired => LegacyCode.wallet.withMessage
      "Error: cannot generate an address containing no shielded receivers."
  | .unsupportedTransparentKeyScope s => LegacyCode.wallet.withMessage
      s!"Error: Address generation is not supported for transparent key scope {s}"
  | .bip32DerivationError e => LegacyCode.wallet.withMessage
      s!"An error occurred in BIP 32 address derivation: {e}"

def mapSqliteError (account : AccountNumber.JsonValue) : WalletError → RpcError
  | .transparentDerivation error => LegacyCode.wallet.withMessage
      s!"Error: failed to derive a transparent component: {error}"
  | .addressGeneration e => mapAddressGenerationError lib account e
  | .accountUnknown => LegacyCode.wallet.withMessage
      s!"Error: account {lib.display account} has not been generated by z_getnewaccount."
  | .chainHeightUnknown => LegacyCode.wallet.withMessage
      "Error: chain height is unknown. Wait for syncing to progress and then try again."
  | .reachedGapLimit index => LegacyCode.wallet.withMessage
      ("Error: reached the transparent gap limit while attempting to generate a new address at " ++
        s!"index {index}.")
  | .diversifierIndexReuse diversifierIndex => LegacyCode.wallet.withMessage
      (s!"Error: address at diversifier index {diversifierIndex} was already generated with " ++
        "different receiver types.")
  | .other text => LegacyCode.database.withMessage text

def badIndexError (diversifierIndex : ℕ) : RpcError :=
  LegacyCode.wallet.withMessage (s!"Error: diversifier index {diversifierIndex} cannot generate " ++
    "an address with the requested receivers.")

/-! ## The method -/

structure Call where
  account : AccountNumber.JsonValue
  receiverTypes : Option (List String)
  diversifierIndex : Option ℕ

structure Address where
  accountUuid : String
  account : Option ℕ
  diversifierIndex : ℕ
  receiverTypes : List String
  address : String
  deriving DecidableEq, Repr

/-- `account` is only in the response if it was in the request as a number. -/
def accountNumber : AccountNumber.JsonValue → Option ℕ
  | .number n => n.asU64
  | _ => none

def response (call : Call) (accountId : AccountUuid) (receiverTypes : List String)
    (found : lib.UnifiedAddress × ℕ) : Address :=
  ⟨lib.uuidToString accountId, accountNumber call.account, found.2, receiverTypes,
    lib.encode found.1⟩

/-- The answers to the one question that is asked of the wallet. -/
def addressAt (call : Call) (index : ℕ) (a : Except WalletError (Option lib.UnifiedAddress)) :
    Except RpcError (lib.UnifiedAddress × ℕ) :=
  (a.mapError (mapSqliteError lib call.account)).bind fun address =>
    address.elim (.error (badIndexError index)) fun address => .ok (address, index)

def nextAddress (call : Call) (a : Except WalletError (Option (lib.UnifiedAddress × ℕ))) :
    Except RpcError (lib.UnifiedAddress × ℕ) :=
  (a.mapError (mapSqliteError lib call.account)).bind fun found =>
    found.elim (.error ListAddresses.internalError) .ok

def zGetAddressForAccount (wallet : AccountNumber.Wallet) (keystore : AccountNumber.KeyStore)
    (call : Call) : Prog (addressSig lib) RpcError Address := do
  let accountId ← ofExcept id (parseAccountParameter lib.parseUuid wallet keystore call.account)
  let (receiverTypes, request) ← ofExcept id (parseReceiverTypes lib call.receiverTypes)
  let diversifierIndex ← ofExcept id (call.diversifierIndex.mapM parseDiversifierIndex)
  let found ← match diversifierIndex with
    | some index => query (.getAddressForIndex accountId index request) (addressAt lib call index)
    | none => query (.getNextAvailableAddress accountId request) (nextAddress lib call)
  pure (response lib call accountId receiverTypes found)

/-! ## The receivers -/

/-- The receiver types that an address is asked for with. -/
def asked (receiverTypes : Option (List String)) : List String :=
  (receiverTypes.filter (· ≠ [])).getD ["orchard", "sapling", "p2pkh"]

def required (receiverTypes : List String) (receiverType : String) : ReceiverRequirement :=
  if receiverType ∈ receiverTypes then .require else .omit

def requestOf (receiverTypes : List String) : UnifiedAddressRequest :=
  ⟨required receiverTypes "orchard", required receiverTypes "sapling",
    required receiverTypes "p2pkh"⟩

def knownTypes : List String := ["orchard", "sapling", "p2sh", "p2pkh"]

/-- The ones that are none of the four, in their order. -/
def unknown (receiverTypes : List String) : List String := receiverTypes.filter (· ∉ knownTypes)

/-- What is wrong with a list of receiver types: P2SH before any other. -/
def refusal (receiverTypes : List String) : Option RpcError :=
  if "p2sh" ∈ receiverTypes then some p2shError
  else if unknown receiverTypes ≠ [] then some (invalidReceiversError lib (unknown receiverTypes))
  else if "orchard" ∉ receiverTypes ∧ "sapling" ∉ receiverTypes then some noShieldedError
  else none

/-- What the loop has come to, after a list with nothing to stop it. -/
def Receivers.after (s : Receivers) (receiverTypes : List String) : Receivers :=
  ⟨⟨if "orchard" ∈ receiverTypes then .require else s.orchard,
    if "sapling" ∈ receiverTypes then .require else s.sapling,
    if "p2pkh" ∈ receiverTypes then .require else s.p2pkh⟩,
    s.invalidReceivers ++ unknown receiverTypes⟩

theorem Receivers.add_eq (s : Receivers) (receiverType : String) :
    s.add receiverType =
      if receiverType = "p2sh" then .error p2shError else .ok (s.after [receiverType]) := by
  rw [Receivers.add]
  by_cases horchard : receiverType = "orchard"
  · subst horchard
    simp [Receivers.after, unknown, knownTypes]
  by_cases hsapling : receiverType = "sapling"
  · subst hsapling
    simp [Receivers.after, unknown, knownTypes]
  by_cases hp2sh : receiverType = "p2sh"
  · subst hp2sh
    simp
  by_cases hp2pkh : receiverType = "p2pkh"
  · subst hp2pkh
    simp [Receivers.after, unknown, knownTypes]
  · simp [horchard, hsapling, hp2sh, hp2pkh, Ne.symm horchard, Ne.symm hsapling, Ne.symm hp2pkh,
      Receivers.after, unknown, knownTypes]

theorem Receivers.after_cons (s : Receivers) (receiverType : String) (rest : List String) :
    (s.after [receiverType]).after rest = s.after (receiverType :: rest) := by
  have hunknown : unknown (receiverType :: rest) = unknown [receiverType] ++ unknown rest :=
    List.filter_append [receiverType] rest
  simp only [Receivers.after, hunknown, List.mem_cons, List.not_mem_nil, or_false,
    List.append_assoc, Receivers.mk.injEq, UnifiedAddressRequest.mk.injEq, and_true]
  refine ⟨?_, ?_, ?_⟩ <;> split_ifs <;> simp_all

theorem foldlM_add (receiverTypes : List String) (s : Receivers) :
    receiverTypes.foldlM Receivers.add s =
      if "p2sh" ∈ receiverTypes then .error p2shError else .ok (s.after receiverTypes) := by
  induction receiverTypes generalizing s with
  | nil => simp [Receivers.after, unknown, pure, Except.pure]
  | cons receiverType rest ih =>
      rw [List.foldlM_cons, Receivers.add_eq]
      by_cases hp2sh : receiverType = "p2sh"
      · rw [if_pos hp2sh, if_pos (hp2sh ▸ List.mem_cons_self ..)]
        rfl
      · rw [if_neg hp2sh]
        show rest.foldlM Receivers.add (s.after [receiverType]) = _
        rw [ih, Receivers.after_cons]
        simp [Ne.symm hp2sh]

variable {lib} in
theorem request_after (hlib : lib.Shielded) (receiverTypes : List String) :
    (Receivers.after ⟨⟨.omit, .omit, .omit⟩, []⟩ receiverTypes).request lib =
      if unknown receiverTypes ≠ [] then
        .error (invalidReceiversError lib (unknown receiverTypes))
      else if "orchard" ∉ receiverTypes ∧ "sapling" ∉ receiverTypes then .error noShieldedError
      else .ok (requestOf receiverTypes) := by
  rw [Receivers.request, Receivers.after, List.nil_append, hlib]
  by_cases hunknown : unknown receiverTypes = []
  · rw [if_pos hunknown, if_neg (not_not.mpr hunknown)]
    by_cases hshielded : "orchard" ∉ receiverTypes ∧ "sapling" ∉ receiverTypes
    · rw [if_pos hshielded]
      simp [hshielded]
    · rw [if_neg hshielded]
      simp [hshielded, requestOf, required]
  · rw [if_neg hunknown, if_pos hunknown]

variable {lib} in
/-- Which lists are accepted, what is required of the address then, and what the others get. -/
theorem parseReceiverTypes_eq (hlib : lib.Shielded) (receiverTypes : Option (List String)) :
    parseReceiverTypes lib receiverTypes =
      (refusal lib (asked receiverTypes)).elim
        (.ok (asked receiverTypes, requestOf (asked receiverTypes))) .error := by
  rw [parseReceiverTypes, asked]
  cases receiverTypes.filter (· ≠ []) with
  | none => simp [refusal, requestOf, required, unknown, knownTypes]
  | some types =>
      show (types.foldlM Receivers.add ⟨⟨.omit, .omit, .omit⟩, []⟩).bind
        (fun s => (s.request lib).bind fun request => .ok (types, request)) = _
      rw [foldlM_add, Option.getD_some, refusal]
      by_cases hp2sh : "p2sh" ∈ types
      · rw [if_pos hp2sh, if_pos hp2sh]
        rfl
      · rw [if_neg hp2sh, if_neg hp2sh]
        show (Receivers.request lib _).bind _ = _
        rw [request_after hlib]
        by_cases hunknown : unknown types = []
        · rw [if_neg (not_not.mpr hunknown), if_neg (not_not.mpr hunknown)]
          by_cases hshielded : "orchard" ∉ types ∧ "sapling" ∉ types
          · rw [if_pos hshielded, if_pos hshielded]
            rfl
          · rw [if_neg hshielded, if_neg hshielded]
            rfl
        · rw [if_pos hunknown, if_pos hunknown]
          rfl

/-! ## The runs -/

section
variable (wallet : AccountNumber.Wallet) (keystore : AccountNumber.KeyStore) (call : Call)

/-- The account that the call names. -/
abbrev Call.accountId : Except RpcError AccountUuid :=
  parseAccountParameter lib.parseUuid wallet keystore call.account

/-- The runs of the method: what the wallet is asked, and what comes of it. -/
inductive Answered : Trace (addressSig lib) → Except RpcError Address → Prop
  | noAccount {e : RpcError} (h : call.accountId lib wallet keystore = .error e) :
      Answered [] (.error e)
  | refused {accountId : AccountUuid} {e : RpcError}
      (h : call.accountId lib wallet keystore = .ok accountId)
      (hrefusal : refusal lib (asked call.receiverTypes) = some e) : Answered [] (.error e)
  | tooLarge {accountId : AccountUuid} {n : ℕ}
      (h : call.accountId lib wallet keystore = .ok accountId)
      (hrefusal : refusal lib (asked call.receiverTypes) = none)
      (hindex : call.diversifierIndex = some n) (hlarge : 2 ^ 88 ≤ n) :
      Answered [] (.error indexTooLarge)
  | atIndex {accountId : AccountUuid} {n : ℕ} (a : Except WalletError (Option lib.UnifiedAddress))
      (h : call.accountId lib wallet keystore = .ok accountId)
      (hrefusal : refusal lib (asked call.receiverTypes) = none)
      (hindex : call.diversifierIndex = some n) (hsmall : n < 2 ^ 88) :
      Answered [⟨.getAddressForIndex accountId n (requestOf (asked call.receiverTypes)), a⟩]
        ((addressAt lib call n a).map (response lib call accountId (asked call.receiverTypes)))
  | next {accountId : AccountUuid} (a : Except WalletError (Option (lib.UnifiedAddress × ℕ)))
      (h : call.accountId lib wallet keystore = .ok accountId)
      (hrefusal : refusal lib (asked call.receiverTypes) = none)
      (hindex : call.diversifierIndex = none) :
      Answered [⟨.getNextAvailableAddress accountId (requestOf (asked call.receiverTypes)), a⟩]
        ((nextAddress lib call a).map (response lib call accountId (asked call.receiverTypes)))

/-- Whatever the wallet answers. -/
abbrev anyAnswers : World (addressSig lib) (Trace (addressSig lib)) :=
  .recall (fun _ => True) (fun _ _ => True) fun _ => False

/-- The one question, and what is made of its answer. -/
theorem wp_question {op : AddressOp} {accountId : AccountUuid}
    {f : AddressOp.Ans lib op → Except RpcError (lib.UnifiedAddress × ℕ)}
    (h : ∀ a, Answered lib wallet keystore call [⟨op, a⟩]
      ((f a).map (response lib call accountId (asked call.receiverTypes)))) :
    wp (anyAnswers lib) (query (E := addressSig lib) op f >>= fun found =>
        pure (response lib call accountId (asked call.receiverTypes) found))
      (fun tr a => Answered lib wallet keystore call tr (.ok a))
      (fun tr e => Answered lib wallet keystore call tr (.error e)) [] := by
  rw [wp_bind, wp_query]
  refine ⟨trivial, fun a tr hstep => ?_⟩
  obtain ⟨-, rfl⟩ := hstep
  have hanswered := h a
  cases hf : f a with
  | error e =>
      rw [hf] at hanswered
      exact hanswered
  | ok found =>
      rw [hf] at hanswered
      exact hanswered

variable {lib} in
theorem wp_zGetAddressForAccount (hlib : lib.Shielded) :
    wp (anyAnswers lib) (zGetAddressForAccount lib wallet keystore call)
      (fun tr a => Answered lib wallet keystore call tr (.ok a))
      (fun tr e => Answered lib wallet keystore call tr (.error e)) [] := by
  rw [zGetAddressForAccount, wp_bind, wp_ofExcept]
  show Ends _ _ (call.accountId lib wallet keystore)
  cases haccount : call.accountId lib wallet keystore with
  | error e => exact Answered.noAccount haccount
  | ok accountId =>
  refine wp_bind.mpr (wp_ofExcept.mpr ?_)
  rw [parseReceiverTypes_eq hlib]
  cases hrefusal : refusal lib (asked call.receiverTypes) with
  | some e => exact Answered.refused haccount hrefusal
  | none =>
  refine wp_bind.mpr (wp_ofExcept.mpr ?_)
  cases hindex : call.diversifierIndex with
  | none => exact wp_question lib wallet keystore call fun a => .next a haccount hrefusal hindex
  | some n =>
      by_cases hsmall : n < 2 ^ 88
      · rw [mapM_parse_small hsmall]
        exact wp_question lib wallet keystore call fun a =>
          .atIndex a haccount hrefusal hindex hsmall
      · have hlarge : 2 ^ 88 ≤ n := Nat.le_of_not_lt hsmall
        rw [mapM_parse_large hlarge]
        exact Answered.tooLarge haccount hrefusal hindex hlarge

variable {lib} in
/-- A run to its end is one of these. -/
theorem address_answered (hlib : lib.Shielded) {tr : Trace (addressSig lib)}
    {r : Except RpcError Address}
    (h : Run (zGetAddressForAccount lib wallet keystore call) tr (ended r)) :
    Answered lib wallet keystore call tr r := by
  have hfits := (wp_zGetAddressForAccount wallet keystore call hlib).sound h
    (Path.recall fun _ _ => trivial)
  cases r with
  | ok a => exact hfits
  | error e => exact hfits

end

/-! ### One address -/

def plainLib : AddressLib where
  UnifiedAddress := ℕ
  custom orchard sapling p2pkh :=
    if orchard = .omit ∧ sapling = .omit then none else some ⟨orchard, sapling, p2pkh⟩
  encode _ := "u1address"
  parseUuid s := if s = "00000000-0000-0000-0000-000000000001" then some ⟨1⟩ else none
  uuidToString _ := "00000000-0000-0000-0000-000000000001"
  display _ := ""
  debugStrings _ := ""

def twoReceivers : Call :=
  ⟨.string "00000000-0000-0000-0000-000000000001", some ["sapling", "p2pkh", "sapling"], some 5⟩

theorem address_answered_two :
    Answered plainLib ⟨.ok [], fun _ => .ok none⟩ ⟨.ok []⟩ twoReceivers
      [⟨.getAddressForIndex ⟨1⟩ 5 ⟨.omit, .require, .require⟩, .ok (some (0 : ℕ))⟩]
      (.ok ⟨"00000000-0000-0000-0000-000000000001", none, 5, ["sapling", "p2pkh", "sapling"],
        "u1address"⟩) :=
  address_answered _ _ _ (fun _ _ _ => rfl) (.call (.refl _))

end Zallet.AddressForAccount
