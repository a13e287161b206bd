/-
# `Zallet.Spend.Recipients` — what `z_sendmany` objects to in a recipient

Before a proposal is made, the loop over the payments keeps, for each pool, what
would be left to spend if nothing else were sent from it, starting from all the
money there is.  A request never sums to more than that, so what is kept plays
no part (`checkPayments_eq`): the first recipient that has no shielded receiver
is objected to, unless the policy lets recipients be revealed.  And the check of
the proposal objects to all of those again (`checkPayments_of_enforced`).
-/
import Zallet.Spend.Authority

namespace Zallet.Spend

open Prog RpcResult

variable {lib : SpendLib} {policy : PrivacyPolicy}

/-- Some receiver of the recipient is shielded. -/
def shieldable : lib.Decoded → Bool
  | .sapling _ => true
  | .transparent _ | .tex _ => false
  | .unified ua => decide (.orchard ∈ lib.receiverTypes ua) || decide (.sapling ∈ lib.receiverTypes ua)

/-- What is said of a recipient that has none. -/
def refusal (policy : PrivacyPolicy) : lib.Decoded → Incompatible
  | .unified _ =>
      if policy.allowsRevealedAmounts then .transparentReceiver else .revealingReceiverAmounts
  | _ => .proposal .transparentRecipient

/-- What is wrong with a payment, if anything is. -/
def objection (policy : PrivacyPolicy) (payment : lib.Pay) : Option RpcError :=
  match lib.tryFromZcashAddress payment.recipientAddress with
  | .error e => some (LegacyCode.invalidParameter.withMessage e)
  | .ok recipient =>
      if policy.allowsRevealedRecipients || shieldable recipient then none
      else some (Incompatible.toError lib (refusal policy recipient))

/-- A value less may be left in either pool, but not more than that. -/
def Available.less (available : Available) (value : Zatoshis) (rest : Available) : Prop :=
  available.sapling.value ≤ rest.sapling.value + value.value ∧
    available.orchard.value ≤ rest.orchard.value + value.value

theorem sub_of_le (hlib : lib.Counts) {a b : Zatoshis} (hle : b.value ≤ a.value) :
    ∃ c, lib.sub a b = some c ∧ a.value = c.value + b.value := by
  refine ⟨⟨a.value - b.value, (Nat.sub_le _ _).trans a.le_maxMoney⟩, (hlib.sub a b _).mpr ?_, ?_⟩
  · show a.value = b.value + (a.value - b.value)
    omega
  · show a.value = a.value - b.value + b.value
    omega

/-- With enough left in both pools, what is said of a recipient does not depend on it. -/
theorem checkRecipient_eq (hlib : lib.Counts) (policy : PrivacyPolicy) {available : Available} {value : Zatoshis}
    (hsapling : value.value ≤ available.sapling.value)
    (horchard : value.value ≤ available.orchard.value) (recipient : lib.Decoded) :
    ∃ rest, available.less value rest ∧ checkRecipient lib policy available value recipient =
      if policy.allowsRevealedRecipients || shieldable recipient then .ok rest
      else .error (refusal policy recipient) := by
  have hsame : available.less value available := ⟨Nat.le_add_right _ _, Nat.le_add_right _ _⟩
  obtain ⟨restSapling, hsub, hrest⟩ := sub_of_le hlib hsapling
  obtain ⟨restOrchard, hsub', hrest'⟩ := sub_of_le hlib horchard
  have hfromSapling : available.less value { available with sapling := restSapling } :=
    ⟨hrest.le, Nat.le_add_right _ _⟩
  have hfromOrchard : available.less value { available with orchard := restOrchard } :=
    ⟨Nat.le_add_right _ _, hrest'.le⟩
  cases recipient with
  | transparent address =>
      refine ⟨available, hsame, ?_⟩
      rw [checkRecipient]
      cases policy.allowsRevealedRecipients <;> rfl
  | tex pubkeyHash =>
      refine ⟨available, hsame, ?_⟩
      rw [checkRecipient]
      cases policy.allowsRevealedRecipients <;> rfl
  | sapling address =>
      simp only [checkRecipient, hsub, shieldable, Bool.or_true, if_true]
      cases policy.allowsRevealedAmounts with
      | true => exact ⟨available, hsame, rfl⟩
      | false => exact ⟨_, hfromSapling, rfl⟩
  | unified ua =>
      -- what is left, by the pool of the preferred receiver
      refine ⟨if policy.allowsRevealedAmounts then available
        else if .orchard ∈ lib.receiverTypes ua then { available with orchard := restOrchard }
        else if .sapling ∈ lib.receiverTypes ua then { available with sapling := restSapling }
        else available, ?_, ?_⟩
      · split_ifs <;> assumption
      · simp only [checkRecipient, hsub, hsub', shieldable, refusal]
        by_cases horchardIn : .orchard ∈ lib.receiverTypes ua <;>
          by_cases hsaplingIn : .sapling ∈ lib.receiverTypes ua <;>
            cases policy.allowsRevealedAmounts <;> cases policy.allowsRevealedRecipients <;>
              simp [horchardIn, hsaplingIn]

/-! ## The loop -/

theorem checkPayment_eq (hlib : lib.Counts) (policy : PrivacyPolicy) (available : Available)
    {payment : lib.Pay} {value : Zatoshis} (hamount : payment.amount = some value)
    (hsapling : value.value ≤ available.sapling.value)
    (horchard : value.value ≤ available.orchard.value) :
    ∃ rest, available.less value rest ∧ (checkPayment lib policy available payment).run =
      .ok ((objection policy payment).elim (.ok rest) .error) := by
  unfold checkPayment objection
  rw [hamount]
  cases hdecode : lib.tryFromZcashAddress payment.recipientAddress with
  | error e => exact ⟨available, ⟨Nat.le_add_right _ _, Nat.le_add_right _ _⟩, rfl⟩
  | ok recipient =>
      obtain ⟨rest, hless, hcheck⟩ :=
        checkRecipient_eq hlib policy hsapling horchard recipient
      refine ⟨rest, hless, ?_⟩
      show Except.ok ((checkRecipient lib policy available value recipient).mapError _) = _
      dsimp only
      rw [hcheck]
      cases policy.allowsRevealedRecipients || shieldable recipient <;> rfl

/-- While the rest of the payments fits into what is left, the loop stops at the first objection. -/
theorem checkPayments_run (hlib : lib.Counts) (policy : PrivacyPolicy) {payments : List lib.Pay}
    (hamounts : ∀ payment ∈ payments, ∃ value, payment.amount = some value)
    (available : Available)
    (hsapling : (payments.map (·.value)).sum ≤ available.sapling.value)
    (horchard : (payments.map (·.value)).sum ≤ available.orchard.value) :
    ∃ rest, (payments.foldlM (checkPayment lib policy) available).run =
      .ok ((payments.findSome? (objection policy)).elim (.ok rest) .error) := by
  induction payments generalizing available with
  | nil => exact ⟨available, rfl⟩
  | cons payment payments ih =>
      obtain ⟨⟨value, hamount⟩, hamounts'⟩ := List.forall_mem_cons.mp hamounts
      rw [List.map_cons, List.sum_cons] at hsapling horchard
      have hvalue : payment.value = value.value := by
        rw [Payment.value, hamount]
        rfl
      obtain ⟨rest, ⟨hlessSapling, hlessOrchard⟩, hrun⟩ :=
        checkPayment_eq hlib policy available hamount (by omega) (by omega)
      obtain ⟨last, hlast⟩ := ih hamounts' rest (by omega) (by omega)
      have hbind : ((payment :: payments).foldlM (checkPayment lib policy) available).run =
          ExceptT.bindCont (fun s => payments.foldlM (checkPayment lib policy) s) =<<
            (checkPayment lib policy available payment).run := by
        rw [List.foldlM_cons]
        rfl
      rw [hbind, hrun, List.findSome?_cons]
      cases objection policy payment with
      | some e => exact ⟨rest, rfl⟩
      | none => exact ⟨last, hlast⟩

/-- The payments of a request have amounts, and all of them together are an amount. -/
theorem request_bounded {inputs : List lib.Pay → Prop}
    (hpay : lib.toPaymentLib.Documented inputs) {amounts : List AmountParameter}
    {request : lib.TransactionRequest}
    (h : Gives (buildRequest lib.toPaymentLib amounts) request) :
    (∀ payment ∈ lib.payments request, ∃ value, payment.amount = some value) ∧
      ((lib.payments request).map (·.value)).sum ≤ maxMoney := by
  simp only [buildRequest, gives_bind, gives_refuseIf, gives_mapErr] at h
  obtain ⟨-, -, s', hloop, hnew⟩ := h
  obtain ⟨payments, hpays, htook⟩ := took_of_gives hpay hloop
  rw [htook.paid] at hnew
  rw [hpay.payments _ request hnew]
  constructor
  · intro payment hmem
    obtain ⟨amount, -, hpaysAs⟩ := forall₂_mem hpays.flip payment hmem
    obtain ⟨value, -, hamount⟩ := hpaysAs.value
    exact ⟨value, hamount⟩
  · have htotal := htook.total
    dsimp only at htotal
    rw [Nat.zero_add] at htotal
    exact htotal ▸ s'.totalOut.le_maxMoney

/-! ## The two checks -/

/-- A payment to a recipient that has no shielded receiver is made in the transparent pool. -/
def PaysTransparently (payments : List lib.Pay) (proposal : Proposal) : Prop :=
  ∀ i payment recipient, payments[i]? = some payment →
    lib.tryFromZcashAddress payment.recipientAddress = .ok recipient →
      shieldable recipient = false →
        ∃ step ∈ proposal.steps, (i, PoolType.transparent) ∈ step.paymentPools

/-- A policy that a proposal passes under, and that does not let recipients be revealed, is one
under which nobody is paid transparently. -/
theorem recipients_of_enforced {proposal : Proposal} {i : ℕ} {step : Step}
    (hallowed : policy.allowsRevealedRecipients = false)
    (henforced : enforcePrivacyPolicy proposal policy = .ok ()) (hstep : step ∈ proposal.steps) :
    (i, PoolType.transparent) ∉ step.paymentPools := by
  intro hmem
  have hpays : step.hasRecipientIn .transparent = true := by
    have hout : step.outputInPool .transparent = true :=
      List.any_eq_true.mpr ⟨_, hmem, decide_eq_true rfl⟩
    rw [Step.hasRecipientIn, hout, Bool.true_or]
  have hleak : Leak.recipients ∈ step.leaks := by
    rw [Step.leaks, if_pos hpays]
    simp
  have hsub := leaks_subset_iff.mpr (enforcePrivacyPolicy_iff.mp henforced)
  have hin : Leak.recipients ∈ policy.allows := hsub ⟨step, hstep, hleak⟩
  revert hallowed hin
  cases policy <;> decide

/-- The check of the recipients objects to the first that cannot be paid in private, whatever the
amounts; and a proposal that makes the payments would not pass the policy either. -/
theorem checkPayments_decides {inputs : List lib.Pay → Prop} (hlib : lib.Counts)
    (hpay : lib.toPaymentLib.Documented inputs) {amounts : List AmountParameter}
    {request : lib.TransactionRequest}
    (hrequest : Gives (buildRequest lib.toPaymentLib amounts) request) :
    (∃ available, (checkPayments lib policy (lib.payments request)).run =
      .ok (((lib.payments request).findSome? (objection policy)).elim (.ok available) .error)) ∧
    ∀ proposal, PaysTransparently (lib.payments request) proposal →
      (∀ payment ∈ lib.payments request, ∃ recipient,
        lib.tryFromZcashAddress payment.recipientAddress = .ok recipient) →
      enforcePrivacyPolicy proposal policy = .ok () →
        ∃ available, Gives (checkPayments lib policy (lib.payments request)) available := by
  obtain ⟨hamounts, htotal⟩ := request_bounded hpay hrequest
  obtain ⟨available, hrun⟩ := checkPayments_run hlib policy hamounts .initial htotal htotal
  refine ⟨⟨available, hrun⟩, ?_⟩
  intro proposal hpaid hdecodes henforced
  have hnone : (lib.payments request).findSome? (objection policy) = none := by
    refine List.findSome?_eq_none_iff.mpr ?_
    intro payment hmem
    obtain ⟨recipient, hdecode⟩ := hdecodes payment hmem
    rw [objection, hdecode]
    refine if_pos ?_
    by_contra hobject
    rw [Bool.or_eq_true, not_or, Bool.not_eq_true, Bool.not_eq_true] at hobject
    obtain ⟨i, hi⟩ := List.mem_iff_getElem?.mp hmem
    obtain ⟨step, hstep, hpool⟩ := hpaid i payment recipient hi hdecode hobject.2
    exact recipients_of_enforced hobject.1 henforced hstep hpool
  rw [hnone] at hrun
  exact ⟨available, hrun⟩

/-! ### A request with a transparent recipient -/

/-- A tenth of a coin to a Sapling address, two tenths to a transparent one. -/
def mixed : List (Payment String (List UInt8)) :=
  [⟨saplingAddr, some ⟨30000000, by decide⟩, none, none, none, []⟩,
    ⟨tAddr, some ⟨40000000, by decide⟩, none, none, none, []⟩]

theorem mixed_built : Gives (buildRequest oneAccount.toPaymentLib
    [⟨saplingAddr, .number "0.3", none⟩, ⟨tAddr, .number "0.4", none⟩]) mixed := rfl

theorem checkPayments_decides_mixed :
    (∃ available, (checkPayments oneAccount .fullPrivacy mixed).run =
      .ok ((mixed.findSome? (@objection oneAccount .fullPrivacy)).elim (.ok available)
        .error)) ∧
    ∀ proposal, @PaysTransparently oneAccount mixed proposal →
      (∀ payment ∈ mixed, ∃ recipient,
        oneAccount.tryFromZcashAddress payment.recipientAddress = .ok recipient) →
      enforcePrivacyPolicy proposal .fullPrivacy = .ok () →
        ∃ available, Gives (checkPayments oneAccount .fullPrivacy mixed) available :=
  checkPayments_decides oneAccount_counts twoAddresses_documented mixed_built

end Zallet.Spend
