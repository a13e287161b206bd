/-
# `Zallet.Spend.SendMany` — `z_sendmany`

The call checks its parameters, has a proposal made for the payment request,
holds it against the privacy policy and the limit on Orchard actions, and
fetches the keys last; what it returns is the operation that is then run.
-/
import Zallet.Spend.Ops

namespace Zallet.Spend

open Prog RpcResult
open ListAddresses (Account Typecode)

/-! ## The method -/

structure SendManyCall where
  fromaddress : String
  amounts : List AmountParameter
  minconf : Option ℕ
  fee : Option JsonValue
  privacyPolicy : Option String

/-- An operation that is ready to be run. -/
structure Prepared (lib : SpendLib) where
  context : Option ContextInfo
  proposal : Proposal
  keys : SpendingKeys lib

/-- `PrivacyPolicy::from_str` -/
def policyFromStr : String → Option PrivacyPolicy
  | "FullPrivacy" => some .fullPrivacy
  | "AllowRevealedAmounts" => some .allowRevealedAmounts
  | "AllowRevealedRecipients" => some .allowRevealedRecipients
  | "AllowRevealedSenders" => some .allowRevealedSenders
  | "AllowFullyTransparent" => some .allowFullyTransparent
  | "AllowLinkingAccountAddresses" => some .allowLinkingAccountAddresses
  | "NoPrivacy" => some .noPrivacy
  | _ => none

def sendManyPolicy : Option String → Except RpcError PrivacyPolicy
  | some "LegacyCompat" => .error (LegacyCode.invalidParameter.withMessage
      "LegacyCompat privacy policy is unsupported in Zallet")
  | some s =>
      match policyFromStr s with
      | some policy => .ok policy
      | none => .error (LegacyCode.invalidParameter.withMessage s!"Unknown privacy policy {s}")
  | none => .ok .fullPrivacy

section
variable (lib : SpendLib) (cfg : SpendConfig)

/-- The account to send from. -/
def sendManyAccount (fromaddress : String) : SpendProg lib Account :=
  if fromaddress = "ANY_TADDR" then
    .fail ⟨-11, "The legacy account is currently unsupported for spending from"⟩
  else
    match lib.decode fromaddress with
    | none => .fail (LegacyCode.invalidAddressOrKey.withMessage
        "Invalid from address: should be a taddr, zaddr, UA, or the string 'ANY_TADDR'.")
    | some address => getAccountForAddress lib address

def sendManyConfirmations : Option ℕ → Except RpcError ConfirmationsPolicy
  | some minconf =>
      if h : 0 < minconf then .ok (.newSymmetrical ⟨minconf, h⟩ false)
      else .ok (.newSymmetrical ⟨1, Nat.one_pos⟩ true)
  | none =>
      match cfg.confirmationsPolicy lib with
      | some policy => .ok policy
      | none => .error (LegacyCode.wallet.withMessage
          ("Configuration error: minimum confirmations for spending trusted TXOs cannot exceed " ++
            "that for untrusted TXOs."))

/-! ## Recipients -/

/-- What is taken to be there to spend, in each pool. -/
structure Available where
  sapling : Zatoshis
  orchard : Zatoshis

def Available.initial : Available := ⟨⟨maxMoney, le_rfl⟩, ⟨maxMoney, le_rfl⟩⟩

def checkRecipient (policy : PrivacyPolicy) (available : Available) (value : Zatoshis) :
    lib.Decoded → Except Incompatible Available
  | .transparent _ | .tex _ =>
      if !policy.allowsRevealedRecipients then .error (.proposal .transparentRecipient)
      else .ok available
  | .sapling _ =>
      match policy.allowsRevealedAmounts, lib.sub available.sapling value with
      | false, none => .error (.proposal .revealingSaplingAmount)
      | false, some rest => .ok { available with sapling := rest }
      | true, _ => .ok available
  | .unified ua =>
      match policy.allowsRevealedAmounts,
        decide (.orchard ∈ lib.receiverTypes ua), lib.sub available.orchard value,
        decide (.sapling ∈ lib.receiverTypes ua), lib.sub available.sapling value with
      -- the preferred receiver is Orchard
      | true, true, _, _, _ => .ok available
      | false, true, some rest, _, _ => .ok { available with orchard := rest }
      -- the preferred receiver is Sapling
      | true, _, _, true, _ => .ok available
      | false, _, _, true, some rest => .ok { available with sapling := rest }
      -- something has to be revealed
      | _, _, _, _, _ =>
          if policy.allowsRevealedRecipients then .ok available
          else if policy.allowsRevealedAmounts then .error .transparentReceiver
          else .error .revealingReceiverAmounts

/-- One turn of the loop over the payments. -/
def checkPayment (policy : PrivacyPolicy) (available : Available) (payment : lib.Pay) :
    RpcResult Panic Available := do
  let value ← expect payment.amount .expect
  let recipient ← mapErr (lib.tryFromZcashAddress payment.recipientAddress)
    LegacyCode.invalidParameter.withMessage
  mapErr (checkRecipient lib policy available value recipient) (Incompatible.toError lib)

def checkPayments (policy : PrivacyPolicy) (payments : List lib.Pay) : RpcResult Panic Available :=
  payments.foldlM (checkPayment lib policy) .initial

end

/-! ## Orchard actions -/

def orchardSpends (step : Step) : ℕ := step.notes.countP (·.protocol = .orchard)

def orchardOutputs (step : Step) : ℕ :=
  step.paymentPools.countP (·.2 = .ORCHARD) + step.proposedChange.countP (·.outputPool = .ORCHARD)

def orchardActions (step : Step) : ℕ := max (orchardSpends step) (orchardOutputs step)

section
variable (lib : SpendLib) (cfg : SpendConfig)

/-- What is said to exceed the limit, and how many. -/
def excess (limit : ℕ) (step : Step) : ℕ × String :=
  if orchardOutputs step ≤ limit then (orchardSpends step, "inputs")
  else if orchardSpends step ≤ limit then (orchardOutputs step, "outputs")
  else (orchardActions step, "actions")

def checkOrchardActions (limit : ℕ) (step : Step) : Except RpcError Unit :=
  if limit < orchardActions step then
    let (count, kind) := excess limit step
    .error (LegacyCode.misc.withMessage (lib.excessText count kind limit))
  else .ok ()

/-- `call` -/
def prepareSendMany (call : SendManyCall) : SpendProg lib (Prepared lib) := do
  if call.fee.isSome then
    .fail (LegacyCode.invalidParameter.withMessage
      "Zallet always calculates fees internally; the fee field must be null.")
  let request ← ofRpc lib (buildRequest lib.toPaymentLib call.amounts)
  let account ← sendManyAccount lib call.fromaddress
  let policy ← ofExcept id (sendManyPolicy call.privacyPolicy)
  let confirmations ← ofExcept id (sendManyConfirmations lib cfg call.minconf)
  let _ ← ofRpc lib (checkPayments lib policy (lib.payments request))
  let proposal ← query (.proposeTransfer account.id request confirmations) (orReport fun e =>
    LegacyCode.wallet.withMessage s!"Failed to propose transaction: {e}")
  enforce lib proposal policy
  ofExcept id (proposal.steps.forM (checkOrchardActions lib cfg.orchardActions))
  match account.source.derivation with
  | none => .fail noPaymentSource
  | some derivation => do
      let keys ← spendingKeys lib account.id derivation proposal
      pure ⟨some ⟨"z_sendmany", lib.sendManyParams call.fromaddress call.amounts call.minconf⟩,
        proposal, keys⟩

/-- The call and the operation it starts. -/
def zSendMany (call : SendManyCall) : SpendProg lib SendResult := do
  let prepared ← prepareSendMany lib cfg call
  run lib "Failed to propose transaction" cfg prepared.proposal prepared.keys

end

end Zallet.Spend
