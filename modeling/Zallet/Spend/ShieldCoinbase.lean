/-
# `Zallet.Spend.ShieldCoinbase` — `z_shieldcoinbase`

The call resolves its source to an account and transparent addresses of it,
has a shielding proposal made, holds it against the privacy policy, and tells
what it shields and what it leaves before it fetches the keys.
-/
import Zallet.Spend.SendMany

namespace Zallet.Spend

open Prog RpcResult
open ListAddresses (Account Typecode Zip32Derivation)

structure ShieldCoinbaseCall where
  fromaddress : String
  toaddress : String
  /-- A JSON null is no fee. -/
  fee : Option (Option JsonValue)
  limit : Option ℕ
  memo : Option String
  privacyPolicy : Option String

/-- Classified form of the `fromaddress` parameter. -/
inductive FromAddressInput where
  | accountUuid (account : AccountUuid)
  | transparentAddress (address : TransparentAddress)
  deriving DecidableEq, Repr

/-- Pre-flight numeric fields. -/
structure Preflight where
  remainingUtxos : ℕ
  remainingValue : Zatoshis
  shieldingUtxos : ℕ
  shieldingValue : Zatoshis
  deriving DecidableEq

section
variable (lib : SpendLib)

def parseFromaddress (fromaddress : String) : Except RpcError FromAddressInput :=
  if fromaddress = "*" then
    .error (LegacyCode.invalidParameter.withMessage
      ("Invalid `fromaddress`: the `\"*\"` wildcard (sweep all wallet t-addrs) is not " ++
        "supported by Zallet. Pass either a wallet-owned transparent address or an " ++
        "account UUID to scope the sweep."))
  else
    match lib.parseUuid fromaddress with
    | some uuid => .ok (.accountUuid uuid)
    | none =>
        match lib.decode fromaddress with
        | some (.transparent address) => .ok (.transparentAddress address)
        | some _ => .error (LegacyCode.invalidAddressOrKey.withMessage
            ("Invalid `fromaddress`: only transparent addresses are accepted (got a " ++
              s!"non-transparent Zcash address): {fromaddress}"))
        | none => .error (LegacyCode.invalidParameter.withMessage
            ("Invalid `fromaddress`: expected a wallet-owned transparent address or an " ++
              s!"account UUID, got {lib.debugStr fromaddress}"))

def shieldCoinbasePolicy (fromInput : FromAddressInput) :
    Option String → Except RpcError PrivacyPolicy
  | none => .ok (match fromInput with
      | .transparentAddress _ => .allowRevealedSenders
      | .accountUuid _ => .allowLinkingAccountAddresses)
  | some "AllowRevealedSenders" => .ok .allowRevealedSenders
  | some "AllowLinkingAccountAddresses" => .ok .allowLinkingAccountAddresses
  | some other => .error (LegacyCode.invalidParameter.withMessage
      (s!"Invalid privacy_policy {lib.debugStr other} for z_shieldcoinbase: only " ++
        "\"AllowRevealedSenders\" and \"AllowLinkingAccountAddresses\" are accepted, " ++
        "because coinbase shielding always reveals the source transparent address(es)."))

def resolveFromaddressInput :
    FromAddressInput → SpendProg lib (AccountUuid × List TransparentAddress)
  | .accountUuid uuid => do
      let _ ← query (.getAccount uuid) (orNone LegacyCode.database.withMessage
        (LegacyCode.invalidParameter.withMessage s!"Unknown account UUID: {lib.displayUuid uuid}"))
      let receivers ← query (.getTransparentReceivers uuid true true)
        (orReport LegacyCode.database.withMessage)
      pure (uuid, receivers.map (·.1))
  | .transparentAddress address => do
      let owner ← query (.findAccountForAddress address) (orNone LegacyCode.database.withMessage
        (LegacyCode.invalidAddressOrKey.withMessage
          ("Transparent address is not owned by any account in this wallet: " ++
            lib.debugAddress address)))
      pure (owner, [address])

/-! ## What is shielded and what is left -/

/-- `u64::saturating_add` -/
def saturatingAdd (a b : ℕ) : ℕ := min (a + b) (2 ^ 64 - 1)

/-- `(total + value).ok_or_else(..)` -/
def addValue (overflow : RpcError) (total : Zatoshis) (value : Zatoshis) :
    Except RpcError Zatoshis := (lib.add total value).elim (.error overflow) .ok

def zeroZatoshis : Zatoshis := ⟨0, Nat.zero_le _⟩

def sumSelectedInputs (proposal : Proposal) : Except RpcError (ℕ × Zatoshis) :=
  (Proposal.transparentInputs proposal).foldlM (fun s utxo => do
    let total ← addValue lib (LegacyCode.wallet.withMessage
      "Internal error: shielding value sum overflowed Zatoshis bounds.") s.2 (lib.txout utxo).value
    pure (saturatingAdd s.1 1, total)) (0, zeroZatoshis)

/-- The outputs of one address. -/
def enumerateAddress (targetHeight : ℕ) (s : ℕ × Zatoshis) (address : TransparentAddress) :
    SpendProg lib (ℕ × Zatoshis) := do
  let utxos ← query (.getSpendableTransparentOutputs address targetHeight
    lib.minConfirmations .coinbaseOnly) (orReport LegacyCode.database.withMessage)
  let total ← ofExcept id (utxos.foldlM (fun total utxo => addValue lib
    (LegacyCode.wallet.withMessage
      "Internal error: total transparent value overflowed Zatoshis bounds.") total utxo.value) s.2)
  pure (saturatingAdd s.1 utxos.length, total)

def enumerateEligible (fromAddrs : List TransparentAddress) (targetHeight : ℕ) :
    SpendProg lib (ℕ × Zatoshis) :=
  fromAddrs.foldlM (enumerateAddress lib targetHeight) (0, zeroZatoshis)

def preflight (total shielding : ℕ × Zatoshis) : Except RpcError Preflight :=
  if total.1 < shielding.1 then
    .error (LegacyCode.wallet.withMessage
      ("Internal accounting error: proposal selected more UTXOs than " ++
        "enumeration found (likely a chain race during shielding setup)."))
  else
    match lib.sub total.2 shielding.2 with
    | none => .error (LegacyCode.wallet.withMessage
        ("Internal accounting error: proposal value exceeds enumerated total " ++
          "(likely a chain race during shielding setup)."))
    | some remaining => .ok ⟨total.1 - shielding.1, remaining, shielding.1, shielding.2⟩

/-! ## The method -/

/-- `call` -/
def prepareShieldCoinbase (call : ShieldCoinbaseCall) :
    SpendProg lib (Preflight × Prepared lib) := do
  if (call.fee.bind id).isSome then
    .fail (LegacyCode.invalidParameter.withMessage
      "Zallet always calculates fees internally; the fee field must be null.")
  let toAddress ← match lib.parseAddress call.toaddress with
    | some toAddress => pure toAddress
    | none => .fail (LegacyCode.invalidParameter.withMessage
        s!"Invalid parameter, unknown address format: {call.toaddress}")
  let memo ← ofRpc lib (parseMemoOption lib.toPaymentLib call.memo)
  let fromInput ← ofExcept id (parseFromaddress lib call.fromaddress)
  let policy ← ofExcept id (shieldCoinbasePolicy lib fromInput call.privacyPolicy)
  let (accountId, fromAddrs) ← resolveFromaddressInput lib fromInput
  if fromAddrs = [] then
    .fail (LegacyCode.invalidParameter.withMessage
      "No source transparent addresses resolved from `fromaddress`.")
  let account ← query (.getAccount accountId) (orNone LegacyCode.database.withMessage
    (LegacyCode.database.withMessage s!"Account vanished mid-call: {lib.debugAccount accountId}"))
  let proposal ← query (.proposeShieldingCoinbase fromAddrs toAddress memo call.limit) (orReport fun e =>
    LegacyCode.wallet.withMessage s!"Failed to propose shielding transaction: {e}")
  enforce lib proposal.toProposal policy
  let shielding ← ofExcept id (sumSelectedInputs lib proposal.toProposal)
  let total ← enumerateEligible lib fromAddrs proposal.minTargetHeight
  let numbers ← ofExcept id (preflight lib total shielding)
  match account.source.derivation with
  | none => .fail (LegacyCode.invalidAddressOrKey.withMessage
      s!"No payment source found for account {lib.displayUuid accountId}.")
  | some derivation => do
      let keys ← spendingKeys lib accountId derivation proposal.toProposal
      pure (numbers, ⟨some ⟨"z_shieldcoinbase",
        lib.shieldCoinbaseParams call.fromaddress call.toaddress call.limit⟩,
        proposal.toProposal, keys⟩)

/-- The call and the operation it starts. -/
def zShieldCoinbase (cfg : SpendConfig) (call : ShieldCoinbaseCall) :
    SpendProg lib (Preflight × SendResult) := do
  let (numbers, prepared) ← prepareShieldCoinbase lib call
  let result ← run lib "Failed to build shielding transaction" cfg prepared.proposal prepared.keys
  pure (numbers, result)

end

end Zallet.Spend
