/-
# `Zallet.Spend.Locked` — spending from a wallet that is locked

A keystore that cannot decrypt, for want of its identities or for any other
reason, answers with an error of the wallet.  Both methods look for the text
`Wallet is locked` and would then answer that the wallet has to be unlocked; but
the text of an error is never just this (`Error.toString_ne_short`).  So a failed
decryption is always answered as an error of the database, and that the wallet is
locked is never said (`locked_unsaid`).
-/
import Zallet.Prog.Fatal
import Zallet.Prog.Raises
import Zallet.Spend.Authority

namespace Zallet.Spend

open Prog RpcResult
open ListAddresses (Account)

/-! ## Errors that are not of a locked wallet -/

/-- The error does not ask for the wallet to be unlocked. -/
def NotLocked (e : RpcError) : Prop := e.code ≠ LegacyCode.walletUnlockNeeded.code

theorem notLocked {code : LegacyCode} {message : String} (h : code ≠ .walletUnlockNeeded) :
    NotLocked (code.withMessage message) := by
  show code.code ≠ -13
  revert h
  cases code <;> decide

/-- What an error prints is longer than that. -/
theorem toString_ne_locked (e : Error) : e.toString ≠ "Wallet is locked" := by
  intro h
  have hlength := congrArg String.length h
  simp only [Error.toString, String.length_append] at hlength
  have htrailer : ("[ Tell us: https://github.com/zcash/zallet/issues                      ]"
      : String).length = 72 := by decide
  have hlocked : ("Wallet is locked" : String).length = 16 := by decide
  omega

theorem decryptFailure_eq (e : Error) :
    decryptFailure e = LegacyCode.database.withMessage e.toString :=
  if_neg fun h => toString_ne_locked e h.2

/-! ### Code that computes -/

/-- Every error that the call is refused with is in `R`. -/
def Refuses {π α : Type} (R : RpcError → Prop) (p : RpcResult π α) : Prop :=
  ∀ e, p.run = .ok (.error e) → R e

section
variable {π α β γ δ σ : Type} {R : RpcError → Prop}

theorem Refuses.pure {a : α} : Refuses R (pure a : RpcResult π α) := by
  rintro e ⟨⟩

theorem Refuses.bind {p : RpcResult π α} {f : α → RpcResult π β} (hp : Refuses R p)
    (hf : ∀ a, Refuses R (f a)) : Refuses R (p >>= f) := by
  intro e h
  have h : ExceptT.bindCont f =<< p.run = .ok (.error e) := h
  match hrun : p.run with
  | .error panic =>
      rw [hrun] at h
      cases h
  | .ok (.error e') =>
      rw [hrun] at h
      cases h
      exact hp e hrun
  | .ok (.ok a) =>
      rw [hrun] at h
      exact hf a e h

theorem Refuses.okOr {x : Option α} {e : RpcError} (h : R e) :
    Refuses R (okOr x e : RpcResult π α) := by
  cases x with
  | none =>
      rintro e' ⟨⟩
      exact h
  | some a => exact .pure

theorem Refuses.expect {x : Option α} {panic : π} :
    Refuses R (expect x panic : RpcResult π α) := by
  cases x with
  | none => rintro e ⟨⟩
  | some a => exact .pure

theorem Refuses.mapErr {x : Except δ α} {f : δ → RpcError} (h : ∀ e, R (f e)) :
    Refuses R (mapErr x f : RpcResult π α) := by
  cases x with
  | error e =>
      rintro e' ⟨⟩
      exact h e
  | ok a => rintro e ⟨⟩

theorem Refuses.refuseIf {c : Prop} [Decidable c] {e : RpcError} (h : R e) :
    Refuses R (refuseIf c e : RpcResult π Unit) := by
  unfold RpcResult.refuseIf
  split
  case isTrue =>
    rintro e' ⟨⟩
    exact h
  case isFalse => exact .pure

theorem Refuses.foldlM {f : σ → γ → RpcResult π σ} (h : ∀ y c, Refuses R (f y c)) :
    ∀ {xs : List γ} {x : σ}, Refuses R (xs.foldlM f x)
  | [], _ => .pure
  | c :: cs, x => by
      rw [List.foldlM_cons]
      exact .bind (h x c) fun y => Refuses.foldlM h

theorem raises_ofRpc {lib : SpendLib} {p : RpcResult Panic α} (h : Refuses R p) :
    Raises R (ofRpc lib p) := by
  unfold ofRpc
  split
  case h_1 => exact .pure
  case h_2 e he => exact .fail (h e he)
  case h_3 => exact .crash
  case h_4 => exact .crash

theorem fatal_ofRpc {lib : SpendLib} {F : Event (spendSig lib) → Option RpcError}
    {p : RpcResult Panic α} : Fatal F (ofRpc lib p) := by
  unfold ofRpc
  split
  case h_1 => exact .pure
  case h_2 => exact .fail
  case h_3 => exact .crash
  case h_4 => exact .crash

end

variable {lib : SpendLib}

theorem refuses_zatoshisFromValue {value : JsonAmount} :
    Refuses NotLocked (ExceptT.mk (zatoshisFromValue lib.toMoneyLib value)) := by
  intro e h
  have h : zatoshisFromValue lib.toMoneyLib value = .ok (.error e) := h
  have htext : ∀ s, zatoshisFromValue lib.toMoneyLib (.string s) = .ok (.error e) →
      NotLocked e := by
    intro s hs
    unfold zatoshisFromValue at hs
    dsimp only at hs
    cases hparse : parseFixedPoint s 8 with
    | error panic =>
        rw [hparse] at hs
        cases hs
    | ok amount =>
        rw [hparse] at hs
        cases amount with
        | none =>
            cases hs
            exact notLocked (by decide)
        | some n =>
            dsimp only [Bind.bind, Except.bind] at hs
            cases hz : lib.fromNonnegativeI64 n with
            | ok z =>
                rw [hz] at hs
                cases hs
            | error why =>
                rw [hz] at hs
                cases why with
                | underflow =>
                    cases hs
                    exact notLocked (by decide)
                | overflow =>
                    cases hs
                    exact notLocked (by decide)
  cases value with
  | string s => exact htext s h
  | number s => exact htext s h
  | other =>
      cases h
      exact notLocked (by decide)

theorem refuses_parseMemoOption {memo : Option String} :
    Refuses NotLocked (parseMemoOption lib.toPaymentLib memo) := by
  cases memo with
  | none => exact .pure
  | some memoHex =>
      refine .bind ?_ fun _ => .pure
      refine .bind (.refuseIf (notLocked (by decide))) fun _ => ?_
      refine .bind (.okOr (notLocked (by decide))) fun _ => ?_
      exact .okOr (notLocked (by decide))

theorem refuses_buildRequest {amounts : List AmountParameter} :
    Refuses NotLocked (buildRequest lib.toPaymentLib amounts) := by
  refine .bind (.refuseIf (notLocked (by decide))) fun _ => ?_
  refine .bind (.foldlM ?_) fun _ => .mapErr fun _ => notLocked (by decide)
  intro s amount
  refine .bind (.okOr (notLocked (by decide))) fun _ => ?_
  refine .bind (.refuseIf (notLocked (by decide))) fun _ => ?_
  refine .bind refuses_parseMemoOption fun _ => ?_
  refine .bind refuses_zatoshisFromValue fun _ => ?_
  refine .bind (.mapErr fun _ => notLocked (by decide)) fun _ => ?_
  exact .bind (.okOr (notLocked (by decide))) fun _ => .pure

theorem refuses_checkPayments {policy : PrivacyPolicy} {payments : List lib.Pay} :
    Refuses NotLocked (checkPayments lib policy payments) := by
  refine .foldlM ?_
  intro available payment
  refine .bind .expect fun _ => ?_
  refine .bind (.mapErr fun _ => notLocked (by decide)) fun _ => ?_
  exact .mapErr fun _ => notLocked (by decide)

/-! ## What the programs fail with -/

/-- An answer of the keystore that it could not decrypt, and what this is reported as. -/
def failedDecryption : Event (spendSig lib) → Option RpcError
  | ⟨.decryptSeed _, .error e⟩ => some (LegacyCode.database.withMessage e.toString)
  | ⟨.decryptStandaloneTransparentKey _, .error e⟩ =>
      some (LegacyCode.database.withMessage e.toString)
  | _ => none

/-- A program that does not say that the wallet is locked, and that ends with the keystore's error
where it gets one. -/
structure Unsaid {α : Type} (p : SpendProg lib α) : Prop where
  raises : Raises NotLocked p
  fatal : Fatal failedDecryption p

namespace Unsaid

variable {α β γ δ σ : Type}

theorem pure {a : α} : Unsaid (pure a : SpendProg lib α) := ⟨.pure, .pure⟩

theorem fail {e : RpcError} (h : NotLocked e) : Unsaid (.fail e : SpendProg lib α) :=
  ⟨.fail h, .fail⟩

theorem crash {msg : String} : Unsaid (.crash msg : SpendProg lib α) := ⟨.crash, .crash⟩

theorem ofExcept {f : δ → RpcError} {x : Except δ α} (h : ∀ e, x = .error e → NotLocked (f e)) :
    Unsaid (Prog.ofExcept f x : SpendProg lib α) := ⟨.ofExcept h, .ofExcept⟩

theorem bind {p : SpendProg lib α} {f : α → SpendProg lib β} (hp : Unsaid p)
    (hf : ∀ a, Unsaid (f a)) : Unsaid (p >>= f) :=
  ⟨.bind hp.raises fun a => (hf a).raises, .bind hp.fatal fun a => (hf a).fatal⟩

theorem foldlM {f : σ → γ → SpendProg lib σ} {xs : List γ} {x : σ} (h : ∀ y c, Unsaid (f y c)) :
    Unsaid (xs.foldlM f x) :=
  ⟨.foldlM fun y c => (h y c).raises, .foldlM fun y c => (h y c).fatal⟩

theorem forM {f : γ → SpendProg lib PUnit} {xs : List γ} (h : ∀ c, Unsaid (f c)) :
    Unsaid (xs.forM f) := ⟨.forM fun c => (h c).raises, .forM fun c => (h c).fatal⟩

theorem ofRpc {p : RpcResult Panic α} (h : Refuses NotLocked p) : Unsaid (Spend.ofRpc lib p) :=
  ⟨raises_ofRpc h, fatal_ofRpc⟩

/-- An operation that does not decrypt. -/
theorem query {op : SpendOp lib} {f : op.Ans → Except RpcError α}
    (hop : ∀ a, failedDecryption ⟨op, a⟩ = none) (h : ∀ a e, f a = .error e → NotLocked e) :
    Unsaid (Prog.query (E := spendSig lib) op f) := by
  refine ⟨.query h, .query ?_⟩
  intro a err he
  rw [hop a] at he
  cases he

theorem enforce {proposal : Proposal} {policy : PrivacyPolicy} :
    Unsaid (Spend.enforce lib proposal policy) := by
  unfold Spend.enforce
  split
  case h_1 => exact pure
  case h_2 => exact fail (notLocked (by decide))
  case h_3 => exact crash

end Unsaid

theorem orReport_notLocked {α : Type} {f : String → RpcError} (h : ∀ e, NotLocked (f e))
    (a : Except String α) (e : RpcError) (he : orReport f a = .error e) : NotLocked e := by
  cases a with
  | ok b => cases he
  | error why =>
      cases he
      exact h why

theorem orNone_notLocked {α : Type} {f : String → RpcError} {missing : RpcError}
    (h : ∀ e, NotLocked (f e)) (hmissing : NotLocked missing) (a : Except String (Option α))
    (e : RpcError) (he : orNone f missing a = .error e) : NotLocked e := by
  match a with
  | .ok (some b) => cases he
  | .ok none =>
      cases he
      exact hmissing
  | .error why =>
      cases he
      exact h why

theorem mapError_notLocked {α : Type} (a : Except Error α) (e : RpcError)
    (he : a.mapError decryptFailure = .error e) : NotLocked e := by
  cases a with
  | ok b => cases he
  | error why =>
      cases he
      rw [decryptFailure_eq]
      exact notLocked (by decide)

theorem unsaid_decryptSeed {seedFp : SeedFingerprint} :
    Unsaid (query (E := spendSig lib) (.decryptSeed seedFp) fun r => r.mapError decryptFailure) := by
  refine ⟨.query mapError_notLocked, .query ?_⟩
  intro a err he
  cases a with
  | ok seed => cases he
  | error why =>
      cases he
      exact congrArg Except.error (decryptFailure_eq why)

theorem unsaid_decryptStandalone {address : TransparentAddress} :
    Unsaid (query (E := spendSig lib) (.decryptStandaloneTransparentKey address)
      fun r => r.mapError decryptFailure) := by
  refine ⟨.query mapError_notLocked, .query ?_⟩
  intro a err he
  cases a with
  | ok key => cases he
  | error why =>
      cases he
      exact congrArg Except.error (decryptFailure_eq why)

/-! ### What both methods use -/

theorem unsaid_findAccount {address : lib.Decoded} {accountIds : List AccountUuid} :
    Unsaid (findAccount lib address accountIds) := by
  induction accountIds with
  | nil => exact .fail (notLocked (by decide))
  | cons accountId rest ih =>
      refine .bind (.query (fun _ => rfl) (orReport_notLocked fun _ => notLocked (by decide))) ?_
      intro addresses
      split
      case isTrue =>
        refine .bind (.query (fun _ => rfl) (orReport_notLocked fun _ => notLocked (by decide))) ?_
        intro account
        split
        case h_1 => exact .pure
        case h_2 => exact .crash
      case isFalse => exact ih

theorem unsaid_getAccountForAddress {address : lib.Decoded} :
    Unsaid (getAccountForAddress lib address) :=
  .bind (.query (fun _ => rfl) (orReport_notLocked fun _ => notLocked (by decide)))
    fun _ => unsaid_findAccount

theorem unsaid_spendingKeys {accountId : AccountUuid}
    {derivation : ListAddresses.Zip32Derivation} {proposal : Proposal} :
    Unsaid (spendingKeys lib accountId derivation proposal) := by
  refine .bind unsaid_decryptSeed fun seed => ?_
  refine .bind (.ofExcept fun _ _ => notLocked (by decide)) fun usk => ?_
  refine .bind ?_ fun _ => .pure
  refine .bind (.query (fun _ => rfl) (orReport_notLocked fun _ => notLocked (by decide))) ?_
  intro receivers
  refine .foldlM ?_
  intro keys input
  unfold collectKey
  split
  case h_1 => exact .pure
  case h_2 =>
    split
    case isTrue => exact .bind unsaid_decryptStandalone fun _ => .pure
    case isFalse => exact .pure

theorem unsaid_run {failure : String} {cfg : SpendConfig} {proposal : Proposal}
    {keys : SpendingKeys lib} : Unsaid (run lib failure cfg proposal keys) := by
  refine .bind (.query (fun _ => rfl) (orReport_notLocked fun _ => notLocked (by decide))) ?_
  intro txids
  unfold broadcastTransactions
  split
  case isTrue =>
    refine .bind (.forM ?_) fun _ => .pure
    intro txid
    refine .bind (.query (fun _ => rfl) (orNone_notLocked (fun _ => notLocked (by decide))
      (notLocked (by decide)))) ?_
    intro tx
    exact .query (fun _ => rfl) (orReport_notLocked fun _ => notLocked (by decide))
  case isFalse => exact .pure

/-! ### The methods -/

theorem unsaid_sendManyAccount {fromaddress : String} :
    Unsaid (sendManyAccount lib fromaddress) := by
  unfold sendManyAccount
  split
  case isTrue => exact .fail (by decide : (-11 : Int) ≠ -13)
  case isFalse =>
    split
    case h_1 => exact .fail (notLocked (by decide))
    case h_2 => exact unsaid_getAccountForAddress

theorem sendManyPolicy_notLocked {given : Option String} (e : RpcError)
    (h : sendManyPolicy given = .error e) : NotLocked e := by
  unfold sendManyPolicy at h
  split at h
  case h_1 =>
    cases h
    exact notLocked (by decide)
  case h_2 =>
    split at h
    case h_1 => cases h
    case h_2 =>
      cases h
      exact notLocked (by decide)
  case h_3 => cases h

theorem sendManyConfirmations_notLocked {cfg : SpendConfig} {minconf : Option ℕ} (e : RpcError)
    (h : sendManyConfirmations lib cfg minconf = .error e) : NotLocked e := by
  unfold sendManyConfirmations at h
  split at h
  case h_1 => split at h <;> cases h
  case h_2 =>
    split at h
    case h_1 => cases h
    case h_2 =>
      cases h
      exact notLocked (by decide)

theorem checkOrchardActions_notLocked {limit : ℕ} {steps : List Step} (e : RpcError)
    (h : steps.forM (checkOrchardActions lib limit) = .error e) : NotLocked e := by
  induction steps with
  | nil => cases h
  | cons step steps ih =>
      have h : (checkOrchardActions lib limit step >>= fun _ =>
          steps.forM (checkOrchardActions lib limit)) = .error e := h
      unfold checkOrchardActions at h
      split at h
      case isTrue =>
        cases h
        exact notLocked (by decide)
      case isFalse => exact ih h

theorem unsaid_zSendMany {cfg : SpendConfig} {call : SendManyCall} :
    Unsaid (zSendMany lib cfg call) := by
  refine .bind ?_ fun _ => unsaid_run
  unfold prepareSendMany
  split
  case isTrue => exact .fail (notLocked (by decide))
  case isFalse =>
    refine .bind (.ofRpc refuses_buildRequest) fun request => ?_
    refine .bind unsaid_sendManyAccount fun account => ?_
    refine .bind (.ofExcept sendManyPolicy_notLocked) fun policy => ?_
    refine .bind (.ofExcept sendManyConfirmations_notLocked) fun confirmations => ?_
    refine .bind (.ofRpc refuses_checkPayments) fun _ => ?_
    refine .bind (.query (fun _ => rfl) (orReport_notLocked fun _ => notLocked (by decide))) ?_
    intro proposal
    refine .bind .enforce fun _ => ?_
    refine .bind (.ofExcept checkOrchardActions_notLocked) fun _ => ?_
    split
    case h_1 => exact .fail (notLocked (by decide))
    case h_2 => exact .bind unsaid_spendingKeys fun _ => .pure

theorem parseFromaddress_notLocked {fromaddress : String} (e : RpcError)
    (h : parseFromaddress lib fromaddress = .error e) : NotLocked e := by
  unfold parseFromaddress at h
  split at h
  case isTrue =>
    cases h
    exact notLocked (by decide)
  case isFalse =>
    split at h
    case h_1 => cases h
    case h_2 =>
      split at h
      case h_1 => cases h
      case h_2 =>
        cases h
        exact notLocked (by decide)
      case h_3 =>
        cases h
        exact notLocked (by decide)

theorem shieldCoinbasePolicy_notLocked {input : FromAddressInput} {given : Option String}
    (e : RpcError) (h : shieldCoinbasePolicy lib input given = .error e) : NotLocked e := by
  unfold shieldCoinbasePolicy at h
  split at h
  case h_4 =>
    cases h
    exact notLocked (by decide)
  all_goals cases h

theorem unsaid_resolve {input : FromAddressInput} :
    Unsaid (resolveFromaddressInput lib input) := by
  cases input with
  | accountUuid uuid =>
      refine .bind (.query (fun _ => rfl) (orNone_notLocked (fun _ => notLocked (by decide))
        (notLocked (by decide)))) fun _ => ?_
      exact .bind (.query (fun _ => rfl) (orReport_notLocked fun _ => notLocked (by decide)))
        fun _ => .pure
  | transparentAddress address =>
      exact .bind (.query (fun _ => rfl) (orNone_notLocked (fun _ => notLocked (by decide))
        (notLocked (by decide)))) fun _ => .pure

theorem foldlM_notLocked {α σ : Type} {f : σ → α → Except RpcError σ} {xs : List α} {s : σ}
    (hf : ∀ s x e, f s x = .error e → NotLocked e) (e : RpcError)
    (h : xs.foldlM f s = .error e) : NotLocked e := by
  induction xs generalizing s with
  | nil => cases h
  | cons x xs ih =>
      rw [List.foldlM_cons] at h
      cases hx : f s x with
      | error e' =>
          rw [hx] at h
          cases h
          exact hf s x e hx
      | ok t =>
          rw [hx] at h
          exact ih h

theorem addValue_notLocked {overflow : RpcError} {total value : Zatoshis}
    (hoverflow : NotLocked overflow) (e : RpcError)
    (h : addValue lib overflow total value = .error e) : NotLocked e := by
  unfold addValue at h
  cases hadd : lib.add total value with
  | none =>
      rw [hadd] at h
      cases h
      exact hoverflow
  | some t =>
      rw [hadd] at h
      cases h

theorem sumSelectedInputs_notLocked {proposal : Proposal} (e : RpcError)
    (h : sumSelectedInputs lib proposal = .error e) : NotLocked e := by
  refine foldlM_notLocked ?_ e h
  intro s utxo e' hstep
  cases hadd : addValue lib (LegacyCode.wallet.withMessage
      "Internal error: shielding value sum overflowed Zatoshis bounds.") s.2
      (lib.txout utxo).value with
  | error why =>
      rw [hadd] at hstep
      cases hstep
      exact addValue_notLocked (notLocked (by decide)) _ hadd
  | ok total =>
      rw [hadd] at hstep
      cases hstep

theorem preflight_notLocked {total shielding : ℕ × Zatoshis} (e : RpcError)
    (h : preflight lib total shielding = .error e) : NotLocked e := by
  unfold preflight at h
  split at h
  case isTrue =>
    cases h
    exact notLocked (by decide)
  case isFalse =>
    split at h
    case h_1 =>
      cases h
      exact notLocked (by decide)
    case h_2 => cases h

theorem unsaid_enumerateEligible {addrs : List TransparentAddress} {targetHeight : ℕ} :
    Unsaid (enumerateEligible lib addrs targetHeight) := by
  refine .foldlM ?_
  intro total address
  refine .bind (.query (fun _ => rfl) (orReport_notLocked fun _ => notLocked (by decide))) ?_
  intro utxos
  refine .bind (.ofExcept ?_) fun _ => .pure
  intro e h
  exact foldlM_notLocked (fun _ _ => addValue_notLocked (notLocked (by decide))) e h

theorem unsaid_zShieldCoinbase {cfg : SpendConfig} {call : ShieldCoinbaseCall} :
    Unsaid (zShieldCoinbase lib cfg call) := by
  refine .bind ?_ fun ready => .bind unsaid_run fun _ => .pure
  unfold prepareShieldCoinbase
  by_cases hfee : (call.fee.bind id).isSome
  · rw [if_pos hfee]
    exact .fail (notLocked (by decide))
  rw [if_neg hfee]
  cases lib.parseAddress call.toaddress with
  | none => exact .fail (notLocked (by decide))
  | some toAddress =>
      refine .bind .pure fun _ => ?_
      refine .bind (.ofRpc refuses_parseMemoOption) fun memo => ?_
      refine .bind (.ofExcept parseFromaddress_notLocked) fun input => ?_
      refine .bind (.ofExcept shieldCoinbasePolicy_notLocked) fun policy => ?_
      refine .bind unsaid_resolve ?_
      rintro ⟨accountId, fromAddrs⟩
      by_cases hnonempty : fromAddrs = []
      · simp only [if_pos hnonempty]
        exact .fail (notLocked (by decide))
      simp only [if_neg hnonempty]
      refine .bind (.query (fun _ => rfl) (orNone_notLocked (fun _ => notLocked (by decide))
        (notLocked (by decide)))) fun account => ?_
      refine .bind (.query (fun _ => rfl) (orReport_notLocked fun _ => notLocked (by decide))) ?_
      intro proposal
      refine .bind .enforce fun _ => ?_
      refine .bind (.ofExcept sumSelectedInputs_notLocked) fun shielding => ?_
      refine .bind unsaid_enumerateEligible fun total => ?_
      refine .bind (.ofExcept preflight_notLocked) fun numbers => ?_
      cases account.source.derivation with
      | none => exact .fail (notLocked (by decide))
      | some derivation => exact .bind unsaid_spendingKeys fun _ => .pure

/-- Neither method ever says that the wallet has to be unlocked; where the keystore cannot decrypt,
they end with an error of the database. -/
theorem locked_unsaid (lib : SpendLib) (cfg : SpendConfig) :
    (∀ call, Unsaid (zSendMany lib cfg call)) ∧ ∀ call, Unsaid (zShieldCoinbase lib cfg call) :=
  ⟨fun _ => unsaid_zSendMany, fun _ => unsaid_zShieldCoinbase⟩

end Zallet.Spend
