/-
# `Zallet.Spend.Authority` — what transactions are made for

A run of `z_sendmany` makes transactions only for a proposal that it had made
for the payment request of its parameters, by the account that the address to
send from belongs to, within the caller's privacy policy and the limit on
Orchard actions, and with that account's keys (`SendManyPlan.Followed`).  The
same is said of `z_shieldcoinbase` (`ShieldCoinbasePlan.Followed`), with the
numbers that it answers: they add up to what the wallet listed as eligible.
-/
import Mathlib.Data.Finset.Lattice.Lemmas
import Zallet.Prog.Exec
import Zallet.Spend.Sending

namespace Zallet.Spend

open CheckedSum Prog RpcResult
open ListAddresses (Account Zip32Derivation)

variable {lib : SpendLib} {cfg : SpendConfig} {tr tr' : SpendTrace lib}

theorem ends_ofExcept {α : Type} {r : Except RpcError α} {Q : α → Prop} {R : RpcError → Prop}
    (hQ : ∀ a, r = .ok a → Q a) (hR : ∀ e, R e) : Ends Q (fun e => R (id e)) r := by
  cases r with
  | ok a => exact hQ a rfl
  | error e => exact hR e

/-! ## `z_sendmany` -/

/-- What a call settles before it makes transactions. -/
structure SendManyPlan (lib : SpendLib) where
  request : lib.TransactionRequest
  address : lib.Decoded
  account : Account
  policy : PrivacyPolicy
  confirmations : ConfirmationsPolicy
  derivation : Zip32Derivation

structure SendManyPlan.Followed (plan : SendManyPlan lib) (cfg : SpendConfig) (call : SendManyCall)
    (tr : SpendTrace lib) (proposal : Proposal) (keys : SpendingKeys lib) : Prop where
  fee : call.fee = none
  request : Gives (buildRequest lib.toPaymentLib call.amounts) plan.request
  fromaddress : lib.decode call.fromaddress = some plan.address
  owner : Owns tr plan.address plan.account
  policy : sendManyPolicy call.privacyPolicy = .ok plan.policy
  confirmations : sendManyConfirmations lib cfg call.minconf = .ok plan.confirmations
  proposed : (⟨.proposeTransfer plan.account.id plan.request plan.confirmations, .ok proposal⟩ :
    Event (spendSig lib)) ∈ tr
  leaks : proposal.leaks ⊆ plan.policy.allows
  actions : ∀ step ∈ proposal.steps, orchardActions step ≤ cfg.orchardActions
  derivation : plan.account.source.derivation = some plan.derivation
  signs : Signs tr plan.account.id plan.derivation proposal keys

/-- The proposal and the keys are those that the call's plan leads to. -/
def SendManyAuth (cfg : SpendConfig) (call : SendManyCall) (tr : SpendTrace lib)
    (proposal : Proposal) (keys : SpendingKeys lib) : Prop :=
  ∃ plan : SendManyPlan lib, plan.Followed cfg call tr proposal keys

theorem checkOrchardActions_iff {limit : ℕ} {steps : List Step} :
    steps.forM (checkOrchardActions lib limit) = .ok () ↔
      ∀ step ∈ steps, orchardActions step ≤ limit := by
  rw [forM_ok_iff]
  refine forall₂_congr fun step _ => ?_
  unfold checkOrchardActions
  split
  case isTrue h => exact iff_of_false (by rintro ⟨⟩) (by omega)
  case isFalse h => exact iff_of_true rfl (by omega)

theorem wp_sendManyAccount {Auth : SpendTrace lib → Proposal → SpendingKeys lib → Prop}
    {fromaddress : String} :
    wp (watched Auth) (sendManyAccount lib fromaddress)
      (fun tr' account => Reads tr tr' ∧
        ∃ address, lib.decode fromaddress = some address ∧ Owns tr' address account)
      (fun tr' _ => Reads tr tr') tr := by
  unfold sendManyAccount
  split
  case isTrue => exact Reads.refl
  case isFalse =>
    cases hdecode : lib.decode fromaddress with
    | none => exact Reads.refl
    | some address =>
        refine wp_mono ?_ (fun _ _ h => h) wp_getAccountForAddress
        rintro tr' account ⟨hreads, howns⟩
        exact ⟨hreads, address, rfl, howns⟩

/-- The call reads until all is settled. -/
theorem wp_prepareSendMany {call : SendManyCall} :
    wp (watched (SendManyAuth cfg call)) (prepareSendMany lib cfg call)
      (fun tr' prepared => Reads tr tr' ∧
        SendManyAuth cfg call tr' prepared.proposal prepared.keys)
      (fun tr' _ => Reads tr tr') tr := by
  unfold prepareSendMany
  by_cases hfee : call.fee.isSome
  · rw [if_pos hfee]
    exact Reads.refl
  · rw [if_neg hfee]
    simp only [wp_bind]
    refine wp_ofRpc (fun _ => trivial) ?_ (fun _ _ => Reads.refl)
    intro request hrequest
    refine wp_mono ?_ (fun _ _ h => h) wp_sendManyAccount
    rintro tr₁ account ⟨hread₁, address, hdecode, howns⟩
    simp only [wp_ofExcept]
    refine ends_ofExcept ?_ (fun _ => hread₁)
    intro policy hpolicy
    refine ends_ofExcept ?_ (fun _ => hread₁)
    intro confirmations hconfirmations
    refine wp_ofRpc (fun _ => trivial) ?_ (fun _ _ => hread₁)
    intro _ _
    rw [wp_read rfl]
    intro a
    have hread₂ := hread₁.trans
      (.one (e := ⟨.proposeTransfer account.id request confirmations, a⟩) rfl)
    cases a with
    | error e => exact hread₂
    | ok proposal =>
        refine wp_enforce (fun _ => trivial) ?_ (fun _ => hread₂)
        intro hleaks
        refine ends_ofExcept ?_ (fun _ => hread₂)
        rintro ⟨⟩ hactions
        cases hderivation : account.source.derivation with
        | none => exact hread₂
        | some derivation =>
            simp only [wp_bind]
            refine wp_mono ?_ ?_ wp_spendingKeys
            · rintro tr₃ keys ⟨hread₃, hsigns⟩
              have hproposed : (⟨.proposeTransfer account.id request confirmations, .ok proposal⟩ :
                  Event (spendSig lib)) ∈ tr₃ :=
                hread₃.subset (List.mem_append_right _ (List.mem_singleton_self _))
              refine ⟨hread₂.trans hread₃,
                ⟨request, address, account, policy, confirmations, derivation⟩, ?_⟩
              exact {
                fee := Option.not_isSome_iff_eq_none.mp hfee
                request := hrequest
                fromaddress := hdecode
                owner := howns.mono ((Reads.one rfl).trans hread₃).subset
                policy := hpolicy
                confirmations := hconfirmations
                proposed := hproposed
                leaks := hleaks
                actions := checkOrchardActions_iff.mp hactions
                derivation := hderivation
                signs := hsigns }
            · intro tr₃ e hread₃
              exact hread₂.trans hread₃

theorem wp_zSendMany {call : SendManyCall} :
    wp (watched (SendManyAuth cfg call)) (zSendMany lib cfg call) (Delivered cfg)
      (fun tr' _ => Unsent tr') [] := by
  have hstart : Quiet ([] : SpendTrace lib) := by rintro _ ⟨⟩
  rw [zSendMany, wp_bind]
  refine wp_mono ?_ ?_ wp_prepareSendMany
  · rintro tr prepared ⟨hreads, hauth⟩
    exact wp_run (hreads.quiet hstart) hauth
  · intro tr e hreads txids hmem
    rw [created_quiet (hreads.quiet hstart)] at hmem
    cases hmem

/-! ## `z_shieldcoinbase` -/

/-- The wallet answered that these are the account and the addresses to shield from. -/
def Resolved (tr : SpendTrace lib) (accountId : AccountUuid) (addrs : List TransparentAddress) :
    FromAddressInput → Prop
  | .accountUuid uuid => accountId = uuid ∧ ∃ receivers,
      (⟨.getTransparentReceivers uuid true true, .ok receivers⟩ : Event (spendSig lib)) ∈ tr ∧
        addrs = receivers.map (·.1)
  | .transparentAddress address => addrs = [address] ∧
      (⟨.findAccountForAddress address, .ok (some accountId)⟩ : Event (spendSig lib)) ∈ tr

/-- What a call settles before it makes transactions. -/
structure ShieldCoinbasePlan (lib : SpendLib) where
  input : FromAddressInput
  accountId : AccountUuid
  fromAddrs : List TransparentAddress
  toAddress : lib.Address
  memo : Option lib.MemoBytes
  policy : PrivacyPolicy
  account : Account
  minTargetHeight : ℕ
  derivation : Zip32Derivation

structure ShieldCoinbasePlan.Followed (plan : ShieldCoinbasePlan lib) (call : ShieldCoinbaseCall)
    (tr : SpendTrace lib) (proposal : Proposal) (keys : SpendingKeys lib) : Prop where
  fee : call.fee.bind id = none
  toAddress : lib.parseAddress call.toaddress = some plan.toAddress
  memo : Gives (parseMemoOption lib.toPaymentLib call.memo) plan.memo
  input : parseFromaddress lib call.fromaddress = .ok plan.input
  policy : shieldCoinbasePolicy lib plan.input call.privacyPolicy = .ok plan.policy
  sources : Resolved tr plan.accountId plan.fromAddrs plan.input
  nonempty : plan.fromAddrs ≠ []
  account : (⟨.getAccount plan.accountId, .ok (some plan.account)⟩ : Event (spendSig lib)) ∈ tr
  proposed : (⟨.proposeShieldingCoinbase plan.fromAddrs plan.toAddress plan.memo call.limit,
    .ok ⟨proposal, plan.minTargetHeight⟩⟩ : Event (spendSig lib)) ∈ tr
  leaks : proposal.leaks ⊆ plan.policy.allows
  derivation : plan.account.source.derivation = some plan.derivation
  signs : Signs tr plan.accountId plan.derivation proposal keys

def ShieldCoinbaseAuth (call : ShieldCoinbaseCall) (tr : SpendTrace lib) (proposal : Proposal)
    (keys : SpendingKeys lib) : Prop :=
  ∃ plan : ShieldCoinbasePlan lib, plan.Followed call tr proposal keys

theorem Resolved.mono {accountId : AccountUuid} {addrs : List TransparentAddress}
    {input : FromAddressInput} (hsub : tr ⊆ tr') (h : Resolved tr accountId addrs input) :
    Resolved tr' accountId addrs input := by
  cases input with
  | accountUuid uuid =>
      obtain ⟨haccount, receivers, hmem, haddrs⟩ := h
      exact ⟨haccount, receivers, hsub hmem, haddrs⟩
  | transparentAddress address => exact ⟨h.1, hsub h.2⟩

theorem wp_resolve {Auth : SpendTrace lib → Proposal → SpendingKeys lib → Prop}
    {input : FromAddressInput} :
    wp (watched Auth) (resolveFromaddressInput lib input)
      (fun tr' resolved => Reads tr tr' ∧ Resolved tr' resolved.1 resolved.2 input)
      (fun tr' _ => Reads tr tr') tr := by
  cases input with
  | accountUuid uuid =>
      simp only [resolveFromaddressInput, wp_bind]
      rw [wp_read rfl]
      intro a
      have hread : Reads tr (tr ++ [⟨.getAccount uuid, a⟩]) := .one rfl
      cases a with
      | error e => exact hread
      | ok found =>
          cases found with
          | none => exact hread
          | some account =>
              simp only [orNone, ends_ok]
              rw [wp_read rfl]
              intro b
              have hread' := hread.trans
                (.one (e := ⟨.getTransparentReceivers uuid true true, b⟩) rfl)
              cases b with
              | error e => exact hread'
              | ok receivers =>
                  refine ⟨hread', rfl, receivers, ?_, rfl⟩
                  exact List.mem_append_right _ (List.mem_singleton_self _)
  | transparentAddress address =>
      simp only [resolveFromaddressInput, wp_bind]
      rw [wp_read rfl]
      intro a
      have hread : Reads tr (tr ++ [⟨.findAccountForAddress address, a⟩]) := .one rfl
      cases a with
      | error e => exact hread
      | ok found =>
          cases found with
          | none => exact hread
          | some owner =>
              exact ⟨hread, rfl, List.mem_append_right _ (List.mem_singleton_self _)⟩

/-! ### What is shielded and what is left -/

/-- The value of the outputs that the wallet listed. -/
def valueOf (utxos : List Utxo) : ℕ := (utxos.map (·.value.value)).sum

/-- The wallet answered that these are the outputs of these addresses that are eligible. -/
def Listed (tr : SpendTrace lib) (targetHeight : ℕ) (addrs : List TransparentAddress)
    (utxos : List (List Utxo)) : Prop :=
  List.Forall₂ (fun address utxos =>
    (⟨.getSpendableTransparentOutputs address targetHeight lib.minConfirmations .coinbaseOnly,
      .ok utxos⟩ : Event (spendSig lib)) ∈ tr) addrs utxos

/-- The numbers add up: what is shielded is the proposal's inputs, and together with what remains it
is what the wallet listed. -/
structure Accounted (lib : SpendLib) (numbers : Preflight) (proposal : Proposal)
    (listed : List Utxo) : Prop where
  shieldingUtxos : numbers.shieldingUtxos =
    min (Proposal.transparentInputs proposal).length (2 ^ 64 - 1)
  shieldingValue : numbers.shieldingValue.value =
    ((Proposal.transparentInputs proposal).map fun input => (lib.txout input).value.value).sum
  utxos : numbers.shieldingUtxos + numbers.remainingUtxos = min listed.length (2 ^ 64 - 1)
  value : numbers.shieldingValue.value + numbers.remainingValue.value = valueOf listed

theorem saturatingAdd_min {a b : ℕ} :
    saturatingAdd (min a (2 ^ 64 - 1)) b = min (a + b) (2 ^ 64 - 1) := by
  unfold saturatingAdd
  omega

theorem addValue_eq_ok (hlib : lib.Counts) {overflow : RpcError} {total value total' : Zatoshis} :
    addValue lib overflow total value = .ok total' ↔ total'.value = total.value + value.value := by
  rw [← hlib.add]
  unfold addValue
  cases lib.add total value with
  | none => exact iff_of_false (by rintro ⟨⟩) (by rintro ⟨⟩)
  | some t =>
      constructor
      · rintro ⟨⟩
        rfl
      · rintro ⟨⟩
        rfl

/-- The inputs are counted, as far as 64 bits go, and their values added up. -/
theorem sumSelectedInputs_eq (hlib : lib.Counts) {inputs : List WalletTransparentOutput}
    {overflow : RpcError} {r : ℕ × Zatoshis} (n : ℕ) (total : Zatoshis)
    (h : inputs.foldlM (fun s utxo => do
      let total ← addValue lib overflow s.2 (lib.txout utxo).value
      pure (saturatingAdd s.1 1, total)) (min n (2 ^ 64 - 1), total) = Except.ok r) :
    r.1 = min (n + inputs.length) (2 ^ 64 - 1) ∧
      r.2.value = total.value + (inputs.map fun input => (lib.txout input).value.value).sum := by
  induction inputs generalizing n total with
  | nil =>
      cases h
      exact ⟨rfl, rfl⟩
  | cons input inputs ih =>
      rw [List.foldlM_cons] at h
      cases hadd : addValue lib overflow total (lib.txout input).value with
      | error e =>
          rw [hadd] at h
          cases h
      | ok total' =>
          rw [hadd] at h
          have hvalue := (addValue_eq_ok hlib).mp hadd
          obtain ⟨hcount, hsum⟩ := ih (n + 1) total' (by rwa [← saturatingAdd_min])
          rw [List.length_cons, List.map_cons, List.sum_cons, hcount, hsum, hvalue]
          refine ⟨?_, Nat.add_assoc _ _ _⟩
          rw [Nat.add_right_comm, Nat.add_assoc]

theorem valueOf_append {utxos utxos' : List Utxo} :
    valueOf (utxos ++ utxos') = valueOf utxos + valueOf utxos' := by
  rw [valueOf, List.map_append, List.sum_append]
  rfl

theorem addUtxos_eq (hlib : lib.Counts) {overflow : RpcError} {utxos : List Utxo}
    {total total' : Zatoshis}
    (h : utxos.foldlM (fun total utxo => addValue lib overflow total utxo.value) total =
      .ok total') : total'.value = total.value + valueOf utxos := by
  have hsum : ((utxos.map (·.value)).foldlM lib.add total).elim (.error overflow) Except.ok =
      .ok total' :=
    (foldlM_elim lib.add overflow (fun utxo : Utxo => utxo.value) utxos total).symm.trans h
  cases hfold : (utxos.map (·.value)).foldlM lib.add total with
  | none =>
      rw [hfold] at hsum
      cases hsum
  | some z =>
      rw [hfold] at hsum
      cases hsum
      rw [hlib.checked.sum_eq_some.mp hfold, List.map_map]
      rfl

theorem Listed.mono {targetHeight : ℕ} {addrs : List TransparentAddress}
    {utxos : List (List Utxo)} (hsub : tr ⊆ tr') (h : Listed tr targetHeight addrs utxos) :
    Listed tr' targetHeight addrs utxos := by
  refine List.Forall₂.imp ?_ h
  intro address us hmem
  exact hsub hmem

/-- The wallet is asked for the outputs of each address, which are counted and added up. -/
theorem wp_enumerateEligible {Auth : SpendTrace lib → Proposal → SpendingKeys lib → Prop}
    {addrs : List TransparentAddress} {targetHeight : ℕ} :
    wp (watched Auth) (enumerateEligible lib addrs targetHeight)
      (fun tr' total => Reads tr tr' ∧ ∃ utxos, Listed tr' targetHeight addrs utxos ∧
        total.1 = min utxos.flatten.length (2 ^ 64 - 1) ∧
        (lib.Counts → total.2.value = valueOf utxos.flatten))
      (fun tr' _ => Reads tr tr') tr := by
  refine wp_foldlM (fun done (total : ℕ × Zatoshis) tr' => Reads tr tr' ∧ ∃ utxos,
    Listed tr' targetHeight done utxos ∧ total.1 = min utxos.flatten.length (2 ^ 64 - 1) ∧
      (lib.Counts → total.2.value = valueOf utxos.flatten)) ⟨Reads.refl, [], .nil, rfl, ?_⟩ ?_
  · intro _
    rfl
  · rintro done address rest total tr' - ⟨hread, utxos, hlisted, hcount, hvalue⟩
    rw [enumerateAddress, wp_bind, wp_read rfl]
    intro a
    have hread' := hread.trans (.one (e := ⟨.getSpendableTransparentOutputs address targetHeight
      lib.minConfirmations .coinbaseOnly, a⟩) rfl)
    cases a with
    | error e => exact hread'
    | ok us =>
        simp only [orReport, Except.mapError, ends_ok, wp_bind, wp_ofExcept]
        refine ends_ofExcept ?_ (fun _ => hread')
        intro value hadd
        refine ⟨hread', utxos ++ [us], ?_, ?_, ?_⟩
        · refine List.rel_append (hlisted.mono (List.subset_append_left _ _)) (.cons ?_ .nil)
          exact List.mem_append_right _ (List.mem_singleton_self _)
        · rw [List.flatten_append, List.length_append, List.flatten_singleton, hcount]
          exact saturatingAdd_min
        · intro hlib
          rw [List.flatten_append, List.flatten_singleton, valueOf_append,
            addUtxos_eq hlib hadd, hvalue hlib]

theorem accounted_of_preflight (hlib : lib.Counts) {numbers : Preflight} {proposal : Proposal}
    {listed : List Utxo} {total shielding : ℕ × Zatoshis}
    (hshielding : sumSelectedInputs lib proposal = .ok shielding)
    (hcount : total.1 = min listed.length (2 ^ 64 - 1)) (hvalue : total.2.value = valueOf listed)
    (hnumbers : preflight lib total shielding = .ok numbers) :
    Accounted lib numbers proposal listed := by
  obtain ⟨hselected, hsum⟩ := sumSelectedInputs_eq hlib 0 zeroZatoshis hshielding
  unfold preflight at hnumbers
  split at hnumbers
  case isTrue => cases hnumbers
  case isFalse hle =>
    split at hnumbers
    case h_1 => cases hnumbers
    case h_2 remaining hsub =>
      cases hnumbers
      have hrest := (hlib.sub _ _ _).mp hsub
      rw [Nat.zero_add] at hselected
      rw [show zeroZatoshis.value = 0 from rfl, Nat.zero_add] at hsum
      refine ⟨hselected, hsum, ?_, ?_⟩
      · rw [← hcount]
        show shielding.1 + (total.1 - shielding.1) = total.1
        omega
      · rw [← hvalue]
        exact hrest.symm

/-! ### The call -/

/-- What the call has settled when it returns, and what its numbers are. -/
def Settled (call : ShieldCoinbaseCall) (tr : SpendTrace lib)
    (ready : Preflight × Prepared lib) : Prop :=
  ∃ plan : ShieldCoinbasePlan lib,
    plan.Followed call tr ready.2.proposal ready.2.keys ∧
      ∃ utxos, Listed tr plan.minTargetHeight plan.fromAddrs utxos ∧
        (lib.Counts → Accounted lib ready.1 ready.2.proposal utxos.flatten)

/-- The call reads until all is settled. -/
theorem wp_prepareShieldCoinbase {call : ShieldCoinbaseCall} :
    wp (watched (ShieldCoinbaseAuth call)) (prepareShieldCoinbase lib call)
      (fun tr' ready => Reads tr tr' ∧ Settled call tr' ready) (fun tr' _ => Reads tr tr') tr := by
  unfold prepareShieldCoinbase
  by_cases hfee : (call.fee.bind id).isSome
  · rw [if_pos hfee]
    exact Reads.refl
  rw [if_neg hfee]
  cases hto : lib.parseAddress call.toaddress with
  | none => exact Reads.refl
  | some toAddress =>
      simp only [wp_bind]
      refine wp_ofRpc (fun _ => trivial) ?_ (fun _ _ => Reads.refl)
      intro memo hmemo
      simp only [wp_ofExcept]
      refine ends_ofExcept ?_ (fun _ => Reads.refl)
      intro input hinput
      refine ends_ofExcept ?_ (fun _ => Reads.refl)
      intro policy hpolicy
      refine wp_mono ?_ (fun _ _ h => h) wp_resolve
      rintro tr₁ ⟨accountId, fromAddrs⟩ ⟨hread₁, hsources⟩
      by_cases hnonempty : fromAddrs = []
      · simp only [if_pos hnonempty]
        exact hread₁
      simp only [if_neg hnonempty, wp_bind, wp_ofExcept]
      rw [wp_read rfl]
      intro a
      have hread₂ := hread₁.trans (.one (e := ⟨.getAccount accountId, a⟩) rfl)
      cases a with
      | error e => exact hread₂
      | ok found =>
          cases found with
          | none => exact hread₂
          | some account =>
              simp only [orNone, ends_ok]
              rw [wp_read rfl]
              intro b
              have hread₃ := hread₂.trans (.one (e := ⟨.proposeShieldingCoinbase fromAddrs toAddress memo
                call.limit, b⟩) rfl)
              cases b with
              | error e => exact hread₃
              | ok proposal =>
                  refine wp_enforce (fun _ => trivial) ?_ (fun _ => hread₃)
                  intro hleaks
                  refine ends_ofExcept ?_ (fun _ => hread₃)
                  intro shielding hshielding
                  refine wp_mono ?_ ?_ wp_enumerateEligible
                  · rintro tr₄ total ⟨hread₄, utxos, hlisted, hcount, hvalue⟩
                    refine ends_ofExcept ?_ (fun _ => hread₃.trans hread₄)
                    intro numbers hnumbers
                    cases hderivation : account.source.derivation with
                    | none => exact hread₃.trans hread₄
                    | some derivation =>
                        simp only [wp_bind]
                        refine wp_mono ?_ ?_ wp_spendingKeys
                        · rintro tr₅ keys ⟨hread₅, hsigns⟩
                          have hsub : _ ⊆ tr₅ := (hread₄.trans hread₅).subset
                          refine ⟨(hread₃.trans hread₄).trans hread₅, ⟨input, accountId, fromAddrs,
                            toAddress, memo, policy, account, proposal.minTargetHeight, derivation⟩,
                            ?_, utxos, hlisted.mono hread₅.subset, ?_⟩
                          · exact {
                              fee := Option.not_isSome_iff_eq_none.mp hfee
                              toAddress := hto
                              memo := hmemo
                              input := hinput
                              policy := hpolicy
                              sources := hsources.mono (((Reads.one rfl).trans (.one rfl)).trans
                                (hread₄.trans hread₅)).subset
                              nonempty := hnonempty
                              account := hsub (List.mem_append_left _
                                (List.mem_append_right _ (List.mem_singleton_self _)))
                              proposed := hsub (List.mem_append_right _ (List.mem_singleton_self _))
                              leaks := hleaks
                              derivation := hderivation
                              signs := hsigns }
                          · intro hlib
                            exact accounted_of_preflight hlib hshielding hcount (hvalue hlib) hnumbers
                        · intro tr₅ e hread₅
                          exact (hread₃.trans hread₄).trans hread₅
                  · intro tr₄ e hread₄
                    exact hread₃.trans hread₄

theorem wp_zShieldCoinbase {call : ShieldCoinbaseCall} :
    wp (watched (ShieldCoinbaseAuth call)) (zShieldCoinbase lib cfg call)
      (fun tr' said => Delivered cfg tr' said.2) (fun tr' _ => Unsent tr') [] := by
  have hstart : Quiet ([] : SpendTrace lib) := by rintro _ ⟨⟩
  rw [zShieldCoinbase, wp_bind]
  refine wp_mono ?_ ?_ wp_prepareShieldCoinbase
  · rintro tr ⟨numbers, prepared⟩ ⟨hreads, plan, hfollowed, -⟩
    simp only [wp_bind]
    refine wp_mono ?_ (fun _ _ h => h) (wp_run (hreads.quiet hstart) ⟨plan, hfollowed⟩)
    intro tr' result hdelivered
    exact hdelivered
  · intro tr e hreads txids hmem
    rw [created_quiet (hreads.quiet hstart)] at hmem
    cases hmem

/-! ### A wallet with one account -/

theorem five_le_maxMoney : 5 ≤ maxMoney := by decide

theorem seven_le_maxMoney : 7 ≤ maxMoney := by decide

/-- Libraries that know one unified address and one transparent one. -/
def oneAccount : SpendLib where
  toPaymentLib := twoAddresses
  SaplingAddress := String
  UnifiedAddress := String
  decSapling := inferInstance
  decUnified := inferInstance
  receiverTypes _ := [.orchard]
  decode s :=
    if s = "u" then some (.unified s) else if s = "t" then some (.transparent ⟨1⟩) else none
  tryFromZcashAddress s := .ok (if isTAddr s then .transparent ⟨2⟩ else .sapling s)
  parseUuid _ := none
  sub a b := if b.value ≤ a.value then
    some ⟨a.value - b.value, (Nat.sub_le _ _).trans a.le_maxMoney⟩ else none
  newConfirmations trusted untrusted zeroConf :=
    if trusted ≤ untrusted then some ⟨trusted, untrusted, zeroConf⟩ else none
  UnifiedSpendingKey := Seed × ℕ
  SecretKey := List UInt8
  fromSeed seed account := .ok (seed, account)
  txout input := ⟨⟨5, five_le_maxMoney⟩, some input.recipientAddress⟩
  displayTxId _ := "txid"
  displayUuid _ := "uuid"
  debugStr s := s
  debugAddress _ := "address"
  debugAccount _ := "account"
  minConfirmations := .newSymmetrical ⟨1, Nat.one_pos⟩ true
  privacyText _ := "policy"
  excessText _ kind _ := kind
  sendManyParams _ _ _ := ⟨"params"⟩
  shieldCoinbaseParams _ _ _ := ⟨"params"⟩

def defaults : SpendConfig := ⟨none, none, none, none⟩

/-- A payment in the Sapling pool, from a note there. -/
def payment : Proposal where
  steps := [⟨[(0, .SAPLING)], [], some ⟨[⟨.sapling⟩], by simp⟩, [], [], false⟩]
  nonempty := by simp

/-- One coinbase output, that is shielded. -/
def shielding : Proposal where
  steps := [⟨[(0, .ORCHARD)], [⟨⟨⟨3⟩, 0⟩, ⟨1⟩⟩], none, [], [], true⟩]
  nonempty := by simp

/-- The wallet, the keystore and the network, all of which answer. -/
def obliging : Answer (spendSig oneAccount) Unit := fun _ op =>
  match op with
  | .getAccountIds => (.ok [⟨0⟩], ())
  | .listAddresses _ => (.ok [.unified "u"], ())
  | .getAccount account => (.ok (some ⟨account, .derived ⟨⟨[1]⟩, 0⟩⟩), ())
  | .findAccountForAddress _ => (.ok (some ⟨0⟩), ())
  | .getTransparentReceivers _ _ _ => (.ok [(⟨1⟩, .derived)], ())
  | .getSpendableTransparentOutputs address _ _ _ =>
      (.ok [⟨⟨⟨3⟩, 0⟩, address, some address, ⟨5, five_le_maxMoney⟩, some 1⟩,
        ⟨⟨⟨4⟩, 0⟩, address, some address, ⟨7, seven_le_maxMoney⟩, some 1⟩], ())
  | .proposeTransfer _ _ _ => (.ok payment, ())
  | .proposeShieldingCoinbase _ _ _ _ => (.ok ⟨shielding, 100⟩, ())
  | .decryptSeed _ => (.ok ⟨[1]⟩, ())
  | .decryptStandaloneTransparentKey _ => (.ok [], ())
  | .createProposedTransactions _ _ => (.ok ⟨[⟨8⟩], by simp⟩, ())
  | .getTransaction txid => (.ok (some ⟨txid⟩), ())
  | .broadcastTransaction _ => (.ok (), ())

/-- A tenth of a coin to the Sapling address. -/
def aPayment : SendManyCall where
  fromaddress := "u"
  amounts := [⟨saplingAddr, .number "0.1", none⟩]
  minconf := none
  fee := none
  privacyPolicy := none

def aShielding : ShieldCoinbaseCall where
  fromaddress := "t"
  toaddress := saplingAddr
  fee := none
  limit := some 1
  memo := none
  privacyPolicy := none

example : (exec obliging 40 () (zSendMany oneAccount defaults aPayment)).2.2.result? =
    some ⟨some "txid", ["txid"]⟩ := by decide +kernel
example : (exec obliging 40 () (zShieldCoinbase oneAccount defaults aShielding)).2.2.result? =
    some (⟨1, ⟨7, seven_le_maxMoney⟩, 1, ⟨5, five_le_maxMoney⟩⟩, ⟨some "txid", ["txid"]⟩) := by
  decide +kernel

/-! ## What transactions are made for -/

/-- Transactions are made at one point of a run only, for what its plan came to before. -/
theorem sendMany_authorized {call : SendManyCall} {l r : SpendTrace lib} {proposal : Proposal}
    {keys : SpendingKeys lib} {a : Except String TxIds} {q : SpendProg lib SendResult}
    (hrun : Run (zSendMany lib cfg call)
      (l ++ ⟨.createProposedTransactions proposal keys, a⟩ :: r) q) :
    Quiet l ∧ ∃ plan : SendManyPlan lib, plan.Followed cfg call l proposal keys :=
  wp_zSendMany.allowed hrun fun _ _ => trivial

/-- The keys of the one account. -/
def ownKeys : SpendingKeys oneAccount := ⟨(⟨[1]⟩, 0), fun _ => []⟩

theorem sendMany_authorized_payment :
    ∃ l r q, Run (zSendMany oneAccount defaults aPayment)
        (l ++ ⟨.createProposedTransactions payment ownKeys, .error "no prover"⟩ :: r) q ∧ Quiet l ∧
      ∃ plan : SendManyPlan oneAccount, plan.Followed defaults aPayment l payment ownKeys := by
  have hasks : (exec obliging 6 () (zSendMany oneAccount defaults aPayment)).2.2.asks? =
      some (.createProposedTransactions payment ownKeys) := rfl
  obtain ⟨k, hrun⟩ := exec_asks hasks
  have hmade := hrun.trans (.call (.refl (k (.error "no prover"))))
  exact ⟨_, _, _, hmade, sendMany_authorized hmade⟩

theorem shieldCoinbasePolicy_cases {input : FromAddressInput} {given : Option String}
    {policy : PrivacyPolicy} (h : shieldCoinbasePolicy lib input given = .ok policy) :
    policy = .allowRevealedSenders ∨ policy = .allowLinkingAccountAddresses := by
  unfold shieldCoinbasePolicy at h
  split at h
  case h_1 =>
    split at h
    case h_1 => exact .inl (Except.ok.inj h).symm
    case h_2 => exact .inr (Except.ok.inj h).symm
  case h_2 => exact .inl (Except.ok.inj h).symm
  case h_3 => exact .inr (Except.ok.inj h).symm
  case h_4 => cases h

/-- Under these policies nothing transparent is paid, and addresses are linked under the one
only. -/
theorem shielding_leaks {proposal : Proposal} {policy : PrivacyPolicy} {step : Step}
    (hpolicy : policy = .allowRevealedSenders ∨ policy = .allowLinkingAccountAddresses)
    (hleaks : proposal.leaks ⊆ policy.allows) (hstep : step ∈ proposal.steps) :
    step.hasRecipientIn .transparent = false ∧
      (1 < step.receivedAddrs.length → policy = .allowLinkingAccountAddresses) := by
  constructor
  · by_contra hrecipient
    rw [Bool.not_eq_false] at hrecipient
    have hmem : Leak.recipients ∈ step.leaks := by
      rw [Step.leaks, if_pos hrecipient]
      simp
    have hallowed : Leak.recipients ∈ policy.allows := hleaks ⟨step, hstep, hmem⟩
    rcases hpolicy with rfl | rfl
    · exact absurd hallowed (by decide)
    · exact absurd hallowed (by decide)
  · intro hmany
    have hinput : step.inputInPool .transparent = true := by
      cases hinputs : step.transparentInputs with
      | nil =>
          rw [Step.receivedAddrs, hinputs] at hmany
          exact absurd hmany (by decide)
      | cons input inputs => simp [Step.inputInPool, hinputs]
    have hmem : Leak.links ∈ step.leaks := by
      rw [Step.leaks, if_pos hinput, if_pos hmany]
      simp
    have hallowed : Leak.links ∈ policy.allows := hleaks ⟨step, hstep, hmem⟩
    rcases hpolicy with rfl | rfl
    · exact absurd hallowed (by decide)
    · rfl

/-- Transactions are made at one point of a run only, for what its plan came to before; none of them
pays anything transparent, and one that spends from more than one address was allowed to. -/
theorem shieldCoinbase_authorized {call : ShieldCoinbaseCall} {l r : SpendTrace lib}
    {proposal : Proposal} {keys : SpendingKeys lib} {a : Except String TxIds}
    {q : SpendProg lib (Preflight × SendResult)}
    (hrun : Run (zShieldCoinbase lib cfg call)
      (l ++ ⟨.createProposedTransactions proposal keys, a⟩ :: r) q) :
    Quiet l ∧ ∃ plan : ShieldCoinbasePlan lib, plan.Followed call l proposal keys ∧
      ∀ step ∈ proposal.steps, step.hasRecipientIn .transparent = false ∧
        (1 < step.receivedAddrs.length → plan.policy = .allowLinkingAccountAddresses) := by
  have hpermitted : Permitted (ShieldCoinbaseAuth call) l
      (.createProposedTransactions proposal keys) :=
    wp_zShieldCoinbase.allowed hrun fun _ _ => trivial
  obtain ⟨hquiet, plan, hfollowed⟩ := hpermitted
  refine ⟨hquiet, plan, hfollowed, ?_⟩
  intro step hstep
  exact shielding_leaks (shieldCoinbasePolicy_cases hfollowed.policy) hfollowed.leaks hstep

theorem shieldCoinbase_authorized_one :
    ∃ l r q, Run (zShieldCoinbase oneAccount defaults aShielding)
        (l ++ ⟨.createProposedTransactions shielding ownKeys, .error "no prover"⟩ :: r) q ∧
      Quiet l ∧ ∃ plan : ShieldCoinbasePlan oneAccount,
        plan.Followed aShielding l shielding ownKeys ∧
          ∀ step ∈ shielding.steps, step.hasRecipientIn .transparent = false ∧
            (1 < step.receivedAddrs.length → plan.policy = .allowLinkingAccountAddresses) := by
  have hasks : (exec obliging 6 () (zShieldCoinbase oneAccount defaults aShielding)).2.2.asks? =
      some (.createProposedTransactions shielding ownKeys) := rfl
  obtain ⟨k, hrun⟩ := exec_asks hasks
  have hmade := hrun.trans (.call (.refl (k (.error "no prover"))))
  exact ⟨_, _, _, hmade, shieldCoinbase_authorized hmade⟩

/-- The numbers that a call answers add up to what the wallet listed for the addresses that it
shields from. -/
theorem shieldCoinbase_accounted (hlib : lib.Counts) {call : ShieldCoinbaseCall}
    {numbers : Preflight} {prepared : Prepared lib}
    (hrun : Run (prepareShieldCoinbase lib call) tr (.ret (numbers, prepared))) :
    ∃ plan : ShieldCoinbasePlan lib, plan.Followed call tr prepared.proposal prepared.keys ∧
      ∃ utxos, Listed tr plan.minTargetHeight plan.fromAddrs utxos ∧
        Accounted lib numbers prepared.proposal utxos.flatten := by
  have hfits : Reads [] tr ∧ Settled call tr (numbers, prepared) :=
    wp_prepareShieldCoinbase.sound hrun (Path.recall fun _ _ => trivial)
  obtain ⟨-, plan, hfollowed, utxos, hlisted, haccounted⟩ := hfits
  exact ⟨plan, hfollowed, utxos, hlisted, haccounted hlib⟩

theorem oneAccount_counts : oneAccount.Counts where
  add := twoAddresses_documented.add
  sub := by
    intro a b c
    show (if h : b.value ≤ a.value then _ else none) = some c ↔ _
    obtain ⟨c, hc⟩ := c
    split
    case isTrue h =>
      rw [Option.some.injEq, Zatoshis.mk.injEq]
      show a.value - b.value = c ↔ a.value = b.value + c
      omega
    case isFalse h =>
      refine iff_of_false (by rintro ⟨⟩) ?_
      intro heq
      exact h (heq ▸ Nat.le_add_right _ _)

theorem shieldCoinbase_accounted_one :
    ∃ tr numbers prepared, Run (prepareShieldCoinbase oneAccount aShielding) tr
        (.ret (numbers, prepared)) ∧
      ∃ plan : ShieldCoinbasePlan oneAccount,
        plan.Followed aShielding tr prepared.proposal prepared.keys ∧
          ∃ utxos, Listed tr plan.minTargetHeight plan.fromAddrs utxos ∧
            Accounted oneAccount numbers prepared.proposal utxos.flatten := by
  have hret : (exec obliging 7 () (prepareShieldCoinbase oneAccount aShielding)).2.2.result? =
      some (⟨1, ⟨7, seven_le_maxMoney⟩, 1, ⟨5, five_le_maxMoney⟩⟩, ⟨some ⟨"z_shieldcoinbase", ⟨"params"⟩⟩,
        shielding, ownKeys⟩) := rfl
  exact ⟨_, _, _, exec_ret hret, shieldCoinbase_accounted oneAccount_counts (exec_ret hret)⟩

/-! ## What is sent -/

/-- A run keeps to the order; it returns when all was sent, and does not fail then. -/
structure Delivers {α : Type} (cfg : SpendConfig) (said : α → SendResult) (tr : SpendTrace lib)
    (q : SpendProg lib α) : Prop where
  order : InOrder tr
  returned : ∀ a, q = .ret a → Delivered cfg tr (said a)
  failed : ∀ e, q = .fail e → Unsent tr

theorem delivers_of_wp {α : Type} {Auth : SpendTrace lib → Proposal → SpendingKeys lib → Prop}
    {said : α → SendResult} {p q : SpendProg lib α}
    (h : wp (watched Auth) p (fun tr' a => Delivered cfg tr' (said a)) (fun tr' _ => Unsent tr') [])
    (hrun : Run p tr q) : Delivers cfg said tr q where
  order := by
    refine h.keeps hrun (Path.recall fun _ _ => trivial) ?_ (.inl ⟨rfl, rfl⟩)
    rintro s op a _ hs hguard ⟨-, rfl⟩
    exact hs.step hguard
  returned := by
    rintro a rfl
    exact h.sound hrun (Path.recall fun _ _ => trivial)
  failed := by
    rintro e rfl
    exact h.sound hrun (Path.recall fun _ _ => trivial)

/-- Both methods send what they made in the order in which it was made, and say what they sent. -/
theorem spends_deliver (lib : SpendLib) (cfg : SpendConfig) :
    (∀ call tr q, Run (zSendMany lib cfg call) tr q → Delivers cfg id tr q) ∧
      ∀ call tr q, Run (zShieldCoinbase lib cfg call) tr q → Delivers cfg (·.2) tr q := by
  constructor
  · intro call tr q hrun
    exact delivers_of_wp wp_zSendMany hrun
  · intro call tr q hrun
    exact delivers_of_wp wp_zShieldCoinbase hrun

end Zallet.Spend
