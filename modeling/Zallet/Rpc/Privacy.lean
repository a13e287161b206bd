/-
# `Zallet.Rpc.Privacy` — privacy policies and the proposals they admit

`json_rpc/payments.rs` decides twice what a proposal reveals: against the
caller's policy, by an early return per step (`enforcePrivacyPolicy`), and as
the strictest policy that admits it, by a fold (`requiredPrivacyPolicy`).  Over
both stands what a policy says: the set of leaks it allows.  The two decisions
and the leak sets coincide (`policy_decisions`); at the strict end this is what
full privacy promises (`fullPrivacy_shielded`).
-/
import Zallet.Chain.Types
import Mathlib.Data.Finset.Basic
import Mathlib.Order.Lattice
import Mathlib.Data.List.Perm.Basic
import Mathlib.Tactic.SplitIfs

namespace Zallet

/-! ## Proposals

The parts of a transaction proposal that are looked at. -/

inductive ShieldedProtocol where
  | sapling | orchard
  deriving DecidableEq, Repr

inductive PoolType where
  | transparent
  | shielded (protocol : ShieldedProtocol)
  deriving DecidableEq, Repr

abbrev PoolType.SAPLING : PoolType := .shielded .sapling

abbrev PoolType.ORCHARD : PoolType := .shielded .orchard

structure WalletTransparentOutput where
  outpoint : OutPoint
  recipientAddress : TransparentAddress
  deriving DecidableEq, Repr

structure Note where
  protocol : ShieldedProtocol
  deriving DecidableEq, Repr

/-- The notes a step spends: at least one. -/
structure ShieldedInputs where
  notes : List Note
  nonempty : notes ≠ []
  deriving DecidableEq

structure ChangeValue where
  outputPool : PoolType
  isEphemeral : Bool
  deriving DecidableEq, Repr

inductive StepOutputIndex where
  | payment (index : Nat)
  | change (index : Nat)
  deriving DecidableEq, Repr

/-- An output of a step of the proposal. -/
structure StepOutput where
  stepIndex : Nat
  outputIndex : StepOutputIndex
  deriving DecidableEq, Repr

structure Step where
  paymentPools : List (Nat × PoolType)
  transparentInputs : List WalletTransparentOutput
  shieldedInputs : Option ShieldedInputs
  priorStepInputs : List StepOutput
  proposedChange : List ChangeValue
  isShielding : Bool
  deriving DecidableEq

structure Proposal where
  steps : List Step
  nonempty : steps ≠ []

namespace Step

variable (step : Step)

/-- The notes spent, if any. -/
def notes : List Note := step.shieldedInputs.elim [] (·.notes)

/-- `input_in_pool`, of the trait and of the closure. -/
def inputInPool : PoolType → Bool
  | .transparent => step.isShielding || !step.transparentInputs.isEmpty
  | .shielded protocol => step.notes.any (·.protocol = protocol)

def outputInPool (pool : PoolType) : Bool := step.paymentPools.any (·.2 = pool)

def changeInPool (pool : PoolType) : Bool := step.proposedChange.any (·.outputPool = pool)

/-- A recipient in a shielded pool: a payment or change. -/
def hasRecipientIn (pool : PoolType) : Bool := step.outputInPool pool || step.changeInPool pool

/-- The addresses that received the transparent inputs. -/
def receivedAddrs : List TransparentAddress :=
  (step.transparentInputs.map (·.recipientAddress)).dedup

end Step

/-! ## Policies -/

/-- A strategy to use for managing privacy when constructing a transaction. -/
inductive PrivacyPolicy where
  | fullPrivacy
  | allowRevealedAmounts
  | allowRevealedRecipients
  | allowRevealedSenders
  | allowFullyTransparent
  | allowLinkingAccountAddresses
  | noPrivacy
  deriving DecidableEq, Repr

namespace PrivacyPolicy

/-- The strictest policy that allows everything allowed by `self` and by `other`. -/
def meet (self other : PrivacyPolicy) : PrivacyPolicy :=
  match self with
  | .fullPrivacy => other
  | .allowRevealedAmounts =>
      match other with
      | .fullPrivacy => self
      | _ => other
  | .allowRevealedRecipients =>
      match other with
      | .fullPrivacy | .allowRevealedAmounts => self
      | .allowRevealedSenders => .allowFullyTransparent
      | .allowLinkingAccountAddresses => .noPrivacy
      | _ => other
  | .allowRevealedSenders =>
      match other with
      | .fullPrivacy | .allowRevealedAmounts => self
      | .allowRevealedRecipients => .allowFullyTransparent
      | _ => other
  | .allowFullyTransparent =>
      match other with
      | .fullPrivacy | .allowRevealedAmounts | .allowRevealedRecipients
      | .allowRevealedSenders => self
      | .allowLinkingAccountAddresses => .noPrivacy
      | _ => other
  | .allowLinkingAccountAddresses =>
      match other with
      | .fullPrivacy | .allowRevealedAmounts | .allowRevealedSenders => self
      | .allowRevealedRecipients | .allowFullyTransparent => .noPrivacy
      | _ => other
  | .noPrivacy => self

def isCompatibleWith (self other : PrivacyPolicy) : Bool := self = self.meet other

def allowsRevealedAmounts (policy : PrivacyPolicy) : Bool :=
  policy.isCompatibleWith .allowRevealedAmounts

def allowsRevealedRecipients (policy : PrivacyPolicy) : Bool :=
  policy.isCompatibleWith .allowRevealedRecipients

def allowsRevealedSenders (policy : PrivacyPolicy) : Bool :=
  policy.isCompatibleWith .allowRevealedSenders

def allowsFullyTransparent (policy : PrivacyPolicy) : Bool :=
  policy.isCompatibleWith .allowFullyTransparent

def allowsLinkingAccountAddresses (policy : PrivacyPolicy) : Bool :=
  policy.isCompatibleWith .allowLinkingAccountAddresses

def allowsNoPrivacy (policy : PrivacyPolicy) : Bool := policy.isCompatibleWith .noPrivacy

end PrivacyPolicy

inductive IncompatiblePrivacyPolicy where
  | noPrivacy
  | linkingAccountAddresses
  | fullyTransparent
  | transparentSender
  | transparentRecipient
  | transparentChange
  | revealingSaplingAmount
  | revealingOrchardAmount
  deriving DecidableEq, Repr

/-- How a check can end badly: with its error, or with a failed assertion. -/
inductive CheckFailure where
  | incompatible (e : IncompatiblePrivacyPolicy)
  | assertion
  deriving DecidableEq, Repr

/-- `if !allowed { return Err(e) }`. -/
def requirePolicy (allowed : Bool) (e : IncompatiblePrivacyPolicy) : Except CheckFailure Unit :=
  if !allowed then .error (.incompatible e) else .ok ()

/-- A step against a policy. -/
def enforceStep (privacyPolicy : PrivacyPolicy) (step : Step) : Except CheckFailure Unit :=
  let hasTransparentRecipient := step.outputInPool .transparent
  let hasTransparentChange := step.changeInPool .transparent
  let hasSaplingRecipient := step.hasRecipientIn .SAPLING
  let hasOrchardRecipient := step.hasRecipientIn .ORCHARD
  if step.inputInPool .transparent then
    if 1 < step.receivedAddrs.length then
      if hasTransparentRecipient || hasTransparentChange then
        requirePolicy privacyPolicy.allowsNoPrivacy .noPrivacy
      else requirePolicy privacyPolicy.allowsLinkingAccountAddresses .linkingAccountAddresses
    else if hasTransparentRecipient || hasTransparentChange then
      requirePolicy privacyPolicy.allowsFullyTransparent .fullyTransparent
    else requirePolicy privacyPolicy.allowsRevealedSenders .transparentSender
  else if hasTransparentRecipient then
    requirePolicy privacyPolicy.allowsRevealedRecipients .transparentRecipient
  else if hasTransparentChange then
    requirePolicy privacyPolicy.allowsRevealedRecipients .transparentChange
  else if step.inputInPool .ORCHARD && hasSaplingRecipient then
    requirePolicy privacyPolicy.allowsRevealedAmounts .revealingSaplingAmount
  else if step.inputInPool .SAPLING && hasOrchardRecipient then
    requirePolicy privacyPolicy.allowsRevealedAmounts .revealingOrchardAmount
  else .ok ()

def enforcePrivacyPolicy (proposal : Proposal) (privacyPolicy : PrivacyPolicy) :
    Except CheckFailure Unit := do
  proposal.steps.forM (enforceStep privacyPolicy)
  if privacyPolicy.isCompatibleWith .fullPrivacy then pure () else throw .assertion

/-- The policy a step requires. -/
def stepRequired (step : Step) : PrivacyPolicy :=
  let hasTransparentRecipient := step.outputInPool .transparent
  let hasTransparentChange := step.changeInPool .transparent
  let hasSaplingRecipient := step.hasRecipientIn .SAPLING
  let hasOrchardRecipient := step.hasRecipientIn .ORCHARD
  if step.inputInPool .transparent then
    if 1 < step.receivedAddrs.length then
      if hasTransparentRecipient || hasTransparentChange then .noPrivacy
      else .allowLinkingAccountAddresses
    else if hasTransparentRecipient || hasTransparentChange then .allowFullyTransparent
    else .allowRevealedSenders
  else if hasTransparentRecipient || hasTransparentChange then .allowRevealedRecipients
  else if (step.inputInPool .ORCHARD && hasSaplingRecipient) ||
      (step.inputInPool .SAPLING && hasOrchardRecipient) then .allowRevealedAmounts
  else .fullPrivacy

/-- The privacy policy required to execute the given proposal. -/
def requiredPrivacyPolicy (proposal : Proposal) : PrivacyPolicy :=
  proposal.steps.foldl (fun required step => required.meet (stepRequired step)) .fullPrivacy

/-! ## Leaks -/

/-- What a transaction can reveal. -/
inductive Leak where
  | senders | links | recipients | amounts
  deriving DecidableEq, Repr

/-- The leaks a policy allows. -/
def PrivacyPolicy.allows : PrivacyPolicy → Finset Leak
  | .fullPrivacy => ∅
  | .allowRevealedAmounts => {.amounts}
  | .allowRevealedRecipients => {.amounts, .recipients}
  | .allowRevealedSenders => {.amounts, .senders}
  | .allowFullyTransparent => {.amounts, .recipients, .senders}
  | .allowLinkingAccountAddresses => {.amounts, .senders, .links}
  | .noPrivacy => {.amounts, .recipients, .senders, .links}

/-- Value crosses between the shielded pools. -/
def Step.crosses (step : Step) : Prop :=
  (step.inputInPool .ORCHARD ∧ step.hasRecipientIn .SAPLING) ∨
    (step.inputInPool .SAPLING ∧ step.hasRecipientIn .ORCHARD)

instance {step : Step} : Decidable step.crosses := inferInstanceAs (Decidable (_ ∨ _))

/-- The leaks of a step. -/
def Step.leaks (step : Step) : Finset Leak :=
  (if step.inputInPool .transparent then
    {.senders, .amounts} ∪ (if 1 < step.receivedAddrs.length then {.links} else ∅) else ∅) ∪
  (if step.hasRecipientIn .transparent then {.recipients, .amounts} else ∅) ∪
  (if step.crosses then {.amounts} else ∅)

/-- The leaks of all the steps. -/
def Proposal.leaks (proposal : Proposal) : Set Leak :=
  {leak | ∃ step ∈ proposal.steps, leak ∈ step.leaks}

/-! ## The order of policies -/

namespace PrivacyPolicy

variable {p q : PrivacyPolicy}

theorem allows_injective : Function.Injective allows := by
  intro p q h
  cases p <;> cases q <;> first | rfl | exact absurd h (by decide)

theorem allows_meet : (p.meet q).allows = p.allows ∪ q.allows := by
  cases p <;> cases q <;> decide

/-- A policy is below those it allows everything of; `meet` is the meet. -/
instance : SemilatticeInf PrivacyPolicy where
  le p q := q.allows ⊆ p.allows
  le_refl _ := Finset.Subset.refl _
  le_trans _ _ _ h h' := h'.trans h
  le_antisymm _ _ h h' := allows_injective (h'.antisymm h)
  inf := meet
  inf_le_left p q := by
    rw [allows_meet]
    exact Finset.subset_union_left
  inf_le_right p q := by
    rw [allows_meet]
    exact Finset.subset_union_right
  le_inf p q r h h' := by
    rw [allows_meet]
    exact Finset.union_subset h h'

theorem le_iff : p ≤ q ↔ q.allows ⊆ p.allows := Iff.rfl

theorem isCompatibleWith_iff : p.isCompatibleWith q = true ↔ p ≤ q := by
  rw [isCompatibleWith, decide_eq_true_iff]
  exact left_eq_inf

theorem le_fullPrivacy : p ≤ .fullPrivacy := Finset.empty_subset _

end PrivacyPolicy

/-! ## The decisions -/

section
variable {step : Step} {policy : PrivacyPolicy}

theorem requirePolicy_iff {p : PrivacyPolicy} {e : IncompatiblePrivacyPolicy} :
    requirePolicy (policy.isCompatibleWith p) e = .ok () ↔ policy ≤ p := by
  rw [← PrivacyPolicy.isCompatibleWith_iff, requirePolicy]
  cases policy.isCompatibleWith p <;> simp

/-- A step is let through exactly under the policies below the one it requires. -/
theorem enforceStep_iff : enforceStep policy step = .ok () ↔ policy ≤ stepRequired step := by
  have hfull : (Except.ok () : Except CheckFailure Unit) = .ok () ↔ policy ≤ .fullPrivacy :=
    iff_of_true rfl PrivacyPolicy.le_fullPrivacy
  unfold enforceStep stepRequired
  dsimp only
  by_cases hin : step.inputInPool .transparent
  · rw [if_pos hin, if_pos hin]
    split_ifs <;> exact requirePolicy_iff
  · rw [if_neg hin, if_neg hin]
    cases step.outputInPool .transparent with
    | true => exact requirePolicy_iff
    | false =>
        cases step.changeInPool .transparent with
        | true => exact requirePolicy_iff
        | false =>
            cases step.inputInPool .ORCHARD && step.hasRecipientIn .SAPLING with
            | true => exact requirePolicy_iff
            | false =>
                cases step.inputInPool .SAPLING && step.hasRecipientIn .ORCHARD with
                | true => exact requirePolicy_iff
                | false => exact hfull

/-- What a step requires allows just what it leaks. -/
theorem stepRequired_allows : (stepRequired step).allows = step.leaks := by
  have hcrosses : ((step.inputInPool .ORCHARD && step.hasRecipientIn .SAPLING) ||
      (step.inputInPool .SAPLING && step.hasRecipientIn .ORCHARD)) = true ↔ step.crosses := by
    simp only [Bool.or_eq_true, Bool.and_eq_true, Step.crosses]
  have htransparent : (step.outputInPool .transparent || step.changeInPool .transparent) =
      step.hasRecipientIn .transparent := rfl
  unfold stepRequired Step.leaks
  dsimp only
  simp only [htransparent, hcrosses]
  split_ifs <;> decide

end

/-! ## The whole proposal -/

section
variable {proposal : Proposal} {policy : PrivacyPolicy}

/-- A policy is below a fold of meets just when it is below every part. -/
theorem le_foldl_meet {steps : List Step} {p : PrivacyPolicy} :
    policy ≤ steps.foldl (fun required step => required.meet (stepRequired step)) p ↔
      policy ≤ p ∧ ∀ step ∈ steps, policy ≤ stepRequired step := by
  induction steps generalizing p with
  | nil => simp
  | cons step steps ih =>
      rw [List.foldl_cons, ih, List.forall_mem_cons, ← and_assoc]
      exact and_congr_left fun _ => le_inf_iff

theorem le_requiredPrivacyPolicy :
    policy ≤ requiredPrivacyPolicy proposal ↔
      ∀ step ∈ proposal.steps, policy ≤ stepRequired step := by
  rw [requiredPrivacyPolicy, le_foldl_meet]
  exact and_iff_right PrivacyPolicy.le_fullPrivacy

/-- A list of checks passes just when each does. -/
theorem forM_ok_iff {α ε : Type} {f : α → Except ε Unit} {xs : List α} :
    xs.forM f = .ok () ↔ ∀ x ∈ xs, f x = .ok () := by
  induction xs with
  | nil => exact iff_of_true rfl (by simp)
  | cons x xs ih =>
      show (f x >>= fun _ => xs.forM f) = _ ↔ _
      rw [List.forall_mem_cons, ← ih]
      cases f x with
      | error e => exact iff_of_false (fun h => by cases h) fun h => by cases h.1
      | ok u => exact ⟨fun h => ⟨rfl, h⟩, fun h => h.2⟩

/-- The final assertion holds of every policy, so only a step can be the reason of a failure. -/
theorem enforcePrivacyPolicy_eq :
    enforcePrivacyPolicy proposal policy = proposal.steps.forM (enforceStep policy) := by
  have hcompatible : policy.isCompatibleWith .fullPrivacy = true :=
    PrivacyPolicy.isCompatibleWith_iff.mpr PrivacyPolicy.le_fullPrivacy
  rw [enforcePrivacyPolicy, if_pos hcompatible]
  cases proposal.steps.forM (enforceStep policy) <;> rfl

theorem enforcePrivacyPolicy_iff :
    enforcePrivacyPolicy proposal policy = .ok () ↔
      ∀ step ∈ proposal.steps, policy ≤ stepRequired step := by
  rw [enforcePrivacyPolicy_eq, forM_ok_iff]
  exact forall₂_congr fun _ _ => enforceStep_iff

theorem leaks_subset_iff :
    proposal.leaks ⊆ policy.allows ↔ ∀ step ∈ proposal.steps, policy ≤ stepRequired step := by
  constructor
  · intro h step hstep
    rw [PrivacyPolicy.le_iff, stepRequired_allows]
    exact fun leak hleak => h ⟨step, hstep, hleak⟩
  · rintro h leak ⟨step, hstep, hleak⟩
    rw [← stepRequired_allows] at hleak
    exact PrivacyPolicy.le_iff.mp (h step hstep) hleak

theorem enforceStep_no_assertion {step : Step} : enforceStep policy step ≠ .error .assertion := by
  have hrequire : ∀ allowed e, requirePolicy allowed e ≠ .error .assertion := by
    intro allowed e
    cases allowed <;> simp [requirePolicy]
  unfold enforceStep
  dsimp only
  split_ifs <;> first | exact hrequire _ _ | simp

theorem enforcePrivacyPolicy_no_assertion :
    enforcePrivacyPolicy proposal policy ≠ .error .assertion := by
  rw [enforcePrivacyPolicy_eq]
  induction proposal.steps with
  | nil => intro h; cases h
  | cons step steps ih =>
      show (enforceStep policy step >>= fun _ => steps.forM (enforceStep policy)) ≠ _
      cases hstep : enforceStep policy step with
      | error e =>
          intro h
          cases h
          exact enforceStep_no_assertion hstep
      | ok u => exact ih

end

/-- A proposal is admitted under a policy exactly when the policy is compatible with the one the
proposal requires, and exactly when it allows all that the steps leak; the order of the steps does
not matter, and the assertion at the end never fails. -/
theorem policy_decisions (proposal : Proposal) (policy : PrivacyPolicy) :
    (enforcePrivacyPolicy proposal policy = .ok () ↔
      policy.isCompatibleWith (requiredPrivacyPolicy proposal) = true) ∧
    (policy.isCompatibleWith (requiredPrivacyPolicy proposal) = true ↔
      proposal.leaks ⊆ policy.allows) ∧
    (∀ proposal' : Proposal, proposal'.steps.Perm proposal.steps →
      (enforcePrivacyPolicy proposal' policy = .ok () ↔
        enforcePrivacyPolicy proposal policy = .ok ())) ∧
    enforcePrivacyPolicy proposal policy ≠ .error .assertion := by
  refine ⟨?_, ?_, fun proposal' hperm => ?_, enforcePrivacyPolicy_no_assertion⟩
  · rw [enforcePrivacyPolicy_iff, PrivacyPolicy.isCompatibleWith_iff, le_requiredPrivacyPolicy]
  · rw [PrivacyPolicy.isCompatibleWith_iff, le_requiredPrivacyPolicy, leaks_subset_iff]
  · rw [enforcePrivacyPolicy_iff, enforcePrivacyPolicy_iff]
    exact ⟨fun h step hstep => h step (hperm.mem_iff.mpr hstep),
      fun h step hstep => h step (hperm.mem_iff.mp hstep)⟩

/-! ## Full privacy -/

/-- What a proposal may spend of its own earlier steps: transparent change. -/
def Proposal.PriorTransparent (proposal : Proposal) : Prop :=
  ∀ (i : Nat) (step : Step), proposal.steps[i]? = some step → ∀ output ∈ step.priorStepInputs,
    ∃ (j index : Nat) (earlier : Step) (value : ChangeValue), output = ⟨j, .change index⟩ ∧
      j < i ∧ proposal.steps[j]? = some earlier ∧ earlier.proposedChange[index]? = some value ∧
      value.outputPool = .transparent

/-- No transparent value is spent or created. -/
structure Step.NoTransparent (step : Step) : Prop where
  inputs : step.transparentInputs = [] ∧ step.isShielding = false
  payments : ∀ payment ∈ step.paymentPools, payment.2 ≠ .transparent
  change : ∀ value ∈ step.proposedChange, value.outputPool ≠ .transparent
  prior : step.priorStepInputs = []

/-- All notes, payments and change are in one pool. -/
def Step.InPool (step : Step) (protocol : ShieldedProtocol) : Prop :=
  (∀ note ∈ step.notes, note.protocol = protocol) ∧
  (∀ payment ∈ step.paymentPools, payment.2 = .shielded protocol) ∧
  ∀ value ∈ step.proposedChange, value.outputPool = .shielded protocol

section
variable {step : Step}

theorem senders_mem (h : step.inputInPool .transparent = true) : .senders ∈ step.leaks := by
  simp [Step.leaks, h]

theorem recipients_mem (h : step.hasRecipientIn .transparent = true) :
    .recipients ∈ step.leaks := by
  simp [Step.leaks, h]

theorem amounts_mem (h : step.crosses) : .amounts ∈ step.leaks := by
  simp [Step.leaks, h]

/-- A note of one pool and a recipient in the other make a step cross. -/
theorem crosses_of {note : Note} {protocol : ShieldedProtocol} (hnote : note ∈ step.notes)
    (hne : note.protocol ≠ protocol) (hout : step.hasRecipientIn (.shielded protocol) = true) :
    step.crosses := by
  have hin : step.inputInPool (.shielded note.protocol) = true :=
    List.any_eq_true.mpr ⟨note, hnote, decide_eq_true rfl⟩
  cases hp : note.protocol <;> cases protocol <;> rw [hp] at hin hne
  · exact absurd rfl hne
  · exact .inr ⟨hin, hout⟩
  · exact .inl ⟨hin, hout⟩
  · exact absurd rfl hne

theorem hasRecipientIn_payment {payment : Nat × PoolType} (h : payment ∈ step.paymentPools) :
    step.hasRecipientIn payment.2 = true :=
  Bool.or_eq_true_iff.mpr (.inl (List.any_eq_true.mpr ⟨payment, h, decide_eq_true rfl⟩))

theorem hasRecipientIn_change {value : ChangeValue} (h : value ∈ step.proposedChange) :
    step.hasRecipientIn value.outputPool = true :=
  Bool.or_eq_true_iff.mpr (.inr (List.any_eq_true.mpr ⟨value, h, decide_eq_true rfl⟩))

/-- A step that does not cross pools keeps to the pool of any of its notes. -/
theorem inPool_of_note (htransparent : step.hasRecipientIn .transparent = false)
    (hcross : ¬ step.crosses) {note : Note} (hnote : note ∈ step.notes)
    (hout : ∃ pool, step.hasRecipientIn pool = true) : step.InPool note.protocol := by
  -- every output is in the pool of every note
  have hall : ∀ note' ∈ step.notes, ∀ pool, step.hasRecipientIn pool = true →
      pool = .shielded note'.protocol := by
    intro note' hnote' pool hpool
    cases pool with
    | transparent =>
        rw [htransparent] at hpool
        cases hpool
    | shielded protocol =>
        by_cases hp : note'.protocol = protocol
        · rw [hp]
        · exact absurd (crosses_of hnote' hp hpool) hcross
  obtain ⟨pool, hpool⟩ := hout
  refine ⟨fun note' hnote' => ?_, fun payment h => ?_, fun value h => ?_⟩
  · have heq := (hall note hnote pool hpool).symm.trans (hall note' hnote' pool hpool)
    exact (PoolType.shielded.inj heq).symm
  · exact hall note hnote _ (hasRecipientIn_payment h)
  · exact hall note hnote _ (hasRecipientIn_change h)

end

/-- Under full privacy no step touches transparent value, and every step that spends a note and
creates an output keeps to one pool. -/
theorem fullPrivacy_shielded {proposal : Proposal} (hprior : proposal.PriorTransparent)
    (h : enforcePrivacyPolicy proposal .fullPrivacy = .ok ()) :
    ∀ step ∈ proposal.steps, step.NoTransparent ∧
      (step.notes ≠ [] → step.paymentPools ≠ [] ∨ step.proposedChange ≠ [] →
        ∃ protocol, step.InPool protocol) := by
  have hleaks : ∀ step ∈ proposal.steps, ∀ leak, leak ∉ step.leaks := by
    intro step hstep leak hleak
    have hle := enforcePrivacyPolicy_iff.mp h step hstep
    rw [PrivacyPolicy.le_iff, stepRequired_allows] at hle
    cases hle hleak
  have hrecipient : ∀ step ∈ proposal.steps, step.hasRecipientIn .transparent = false := by
    intro step hstep
    exact Bool.eq_false_iff.mpr fun hpool => hleaks step hstep _ (recipients_mem hpool)
  have hchange : ∀ step ∈ proposal.steps, ∀ value ∈ step.proposedChange,
      value.outputPool ≠ .transparent := by
    intro step hstep value hvalue heq
    have hpool := hasRecipientIn_change hvalue
    rw [heq, hrecipient step hstep] at hpool
    cases hpool
  intro step hstep
  refine ⟨⟨?_, fun payment hpayment heq => ?_, hchange step hstep, ?_⟩, fun hnotes hout => ?_⟩
  · have hin : step.inputInPool .transparent = false :=
      Bool.eq_false_iff.mpr fun hpool => hleaks step hstep _ (senders_mem hpool)
    obtain ⟨hshielding, hinputs⟩ := Bool.or_eq_false_iff.mp hin
    exact ⟨by simpa using hinputs, hshielding⟩
  · have hpool := hasRecipientIn_payment hpayment
    rw [heq, hrecipient step hstep] at hpool
    cases hpool
  · -- a prior output could only be transparent change, and there is none
    obtain ⟨i, hi⟩ := List.getElem?_of_mem hstep
    refine List.eq_nil_iff_forall_not_mem.mpr fun output houtput => ?_
    obtain ⟨j, index, earlier, value, -, -, hearlier, hvalue, htransparent⟩ :=
      hprior i step hi output houtput
    exact hchange earlier (List.mem_of_getElem? hearlier) value (List.mem_of_getElem? hvalue)
      htransparent
  · obtain ⟨note, hnote⟩ := List.exists_mem_of_ne_nil _ hnotes
    refine ⟨note.protocol, inPool_of_note (hrecipient step hstep)
      (fun hcross => hleaks step hstep _ (amounts_mem hcross)) hnote ?_⟩
    rcases hout with hout | hout
    · obtain ⟨payment, hpayment⟩ := List.exists_mem_of_ne_nil _ hout
      exact ⟨_, hasRecipientIn_payment hpayment⟩
    · obtain ⟨value, hvalue⟩ := List.exists_mem_of_ne_nil _ hout
      exact ⟨_, hasRecipientIn_change hvalue⟩

/-- A step from two Orchard notes to an Orchard payment and change. -/
def orchardStep : Step where
  paymentPools := [(0, .ORCHARD)]
  transparentInputs := []
  shieldedInputs := some ⟨[⟨.orchard⟩, ⟨.orchard⟩], List.cons_ne_nil _ _⟩
  priorStepInputs := []
  proposedChange := [⟨.ORCHARD, false⟩]
  isShielding := false

theorem fullPrivacy_shielded_orchard :
    orchardStep.NoTransparent ∧ (orchardStep.notes ≠ [] →
      orchardStep.paymentPools ≠ [] ∨ orchardStep.proposedChange ≠ [] →
      ∃ protocol, orchardStep.InPool protocol) := by
  refine @fullPrivacy_shielded ⟨[orchardStep], List.cons_ne_nil _ _⟩ ?_ (by decide)
    orchardStep (List.mem_singleton_self _)
  intro i step hi output houtput
  rw [List.mem_singleton.mp (List.mem_of_getElem? hi)] at houtput
  cases houtput

end Zallet
