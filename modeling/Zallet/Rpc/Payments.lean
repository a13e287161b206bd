/-
# `Zallet.Rpc.Payments` — the payment request of a batch

`build_request` of `json_rpc/payments.rs` goes once over the amount parameters
and refuses at the first that has something wrong with it.  Whether a batch is
accepted is nevertheless a property of the whole list: its recipients are
distinct and its total is bounded.  `buildRequest_iff` says which lists are
accepted, and that the request then pays them one by one, in order.

Addresses, memos and payments are those of libraries (`PaymentLib`); what is
relied on is what they accept (`PaymentLib.Documented`).
-/
import Zallet.Rpc.Amounts
import Mathlib.Data.List.Forall2
import Mathlib.Data.List.Nodup

namespace Zallet

open RpcResult

structure AmountParameter where
  address : String
  amount : JsonAmount
  memo : Option String
  deriving DecidableEq, Repr

/-- `zip321::PaymentError` -/
inductive PaymentError where
  | transparentMemo
  | zeroValuedTransparentOutput
  deriving DecidableEq, Repr

/-- A payment, with addresses and memos of the given types. -/
structure Payment (Address MemoBytes : Type) where
  recipientAddress : Address
  amount : Option Zatoshis
  memo : Option MemoBytes
  label : Option String
  message : Option String
  otherParams : List (String × String)
  deriving DecidableEq

/-- What `build_request` uses of its libraries. -/
structure PaymentLib extends MoneyLib where
  Address : Type
  decAddress : DecidableEq Address
  MemoBytes : Type
  TransactionRequest : Type
  /-- `ZcashAddress::from_str` -/
  parseAddress : String → Option Address
  /-- The address has transparent receivers only. -/
  isTransparent : Address → Bool
  /-- `hex::decode` -/
  hexDecode : String → Option (List UInt8)
  /-- `MemoBytes::from_bytes` -/
  memoFromBytes : List UInt8 → Option MemoBytes
  /-- `Zatoshis + Zatoshis` -/
  add : Zatoshis → Zatoshis → Option Zatoshis
  /-- `Payment::new` -/
  newPayment : Address → Option Zatoshis → Option MemoBytes → Option String → Option String →
    List (String × String) → Except PaymentError (Payment Address MemoBytes)
  /-- `TransactionRequest::new`, its error as it is displayed -/
  newRequest : List (Payment Address MemoBytes) → Except String TransactionRequest
  /-- The payments of a request, by their index. -/
  payments : TransactionRequest → List (Payment Address MemoBytes)

attribute [instance] PaymentLib.decAddress

abbrev PaymentLib.Pay (lib : PaymentLib) : Type := Payment lib.Address lib.MemoBytes

/-- What is relied on, where `inputs` are the lists that `TransactionRequest::new` takes. -/
structure PaymentLib.Documented (lib : PaymentLib) (inputs : List lib.Pay → Prop) : Prop where
  add : ∀ a b c, lib.add a b = some c ↔ c.value = a.value + b.value
  newPayment : ∀ address amount memo label message otherParams payment,
    lib.newPayment address amount memo label message otherParams = .ok payment ↔
      payment = ⟨address, amount, memo, label, message, otherParams⟩ ∧
      (lib.isTransparent address = true →
        memo = none ∧ ∀ value, amount = some value → value.value ≠ 0)
  newRequest : ∀ payments, (∃ request, lib.newRequest payments = .ok request) ↔ inputs payments
  payments : ∀ payments request, lib.newRequest payments = .ok request →
    lib.payments request = payments

def maxMemoBytes : ℕ := 512

/-! ## The function -/

section
variable (lib : PaymentLib)

def parseMemo (memoHex : String) : RpcResult Panic lib.MemoBytes := do
  refuseIf (maxMemoBytes * 2 < memoHex.utf8ByteSize)
    (LegacyCode.invalidParameter.withMessage
      "Invalid parameter, memo is longer than the maximum allowed 512 bytes.")
  let memoBytes ← okOr (lib.hexDecode memoHex)
    (LegacyCode.invalidParameter.withMessage
      "Invalid parameter, expected memo data in hexadecimal format.")
  okOr (lib.memoFromBytes memoBytes)
    (LegacyCode.invalidParameter.withMessage
      "Invalid parameter, memo is longer than the maximum allowed 512 bytes.")

/-- `memo().as_deref().map(parse_memo).transpose()?` -/
def parseMemoOption : Option String → RpcResult Panic (Option lib.MemoBytes)
  | none => pure none
  | some memoHex => do
      let memo ← parseMemo lib memoHex
      pure (some memo)

def paymentErrorMessage : PaymentError → String
  | .transparentMemo => "Cannot send memo to transparent recipient"
  | .zeroValuedTransparentOutput => "Cannot send zero-valued output to transparent recipient"

/-- What the loop keeps. -/
structure RequestState where
  recipientAddrs : List lib.Address
  payments : List lib.Pay
  totalOut : Zatoshis

/-- The loop's body: check a parameter and add its payment. -/
def addPayment (s : RequestState lib) (amount : AmountParameter) :
    RpcResult Panic (RequestState lib) := do
  let addr ← okOr (lib.parseAddress amount.address)
    (LegacyCode.invalidParameter.withMessage
      ("Invalid parameter, unknown address format: " ++ amount.address))
  refuseIf (addr ∈ s.recipientAddrs)
    (LegacyCode.invalidParameter.withMessage
      ("Invalid parameter, duplicated recipient address: " ++ amount.address))
  let memo ← parseMemoOption lib amount.memo
  let value ← ExceptT.mk (zatoshisFromValue lib.toMoneyLib amount.amount)
  let payment ← mapErr (lib.newPayment addr (some value) memo none none [])
    fun e => LegacyCode.invalidParameter.withMessage (paymentErrorMessage e)
  let totalOut ← okOr (lib.add s.totalOut value)
    (LegacyCode.invalidParameter.withMessage "Value too large")
  pure ⟨addr :: s.recipientAddrs, s.payments ++ [payment], totalOut⟩

/-- Parses an array of output amounts into a ZIP 321 transaction request. -/
def buildRequest (amounts : List AmountParameter) : RpcResult Panic lib.TransactionRequest := do
  refuseIf (amounts = [])
    (LegacyCode.invalidParameter.withMessage "Invalid parameter, amounts array is empty.")
  let s ← amounts.foldlM (addPayment lib) ⟨[], [], ⟨0, Nat.zero_le _⟩⟩
  mapErr (lib.newRequest s.payments)
    fun e => LegacyCode.invalidParameter.withMessage ("Invalid payment request: " ++ e)

end

/-! ## What is accepted -/

section
variable (lib : PaymentLib)

/-- The value of a parameter's amount; nothing where it does not parse. -/
def AmountParameter.value (amount : AmountParameter) : ℕ :=
  match zatoshisFromValue lib.toMoneyLib amount.amount with
  | .ok (.ok value) => value.value
  | _ => 0

/-- The payment has exactly the parameter's address, value and memo. -/
structure PaysAs (amount : AmountParameter) (payment : lib.Pay) : Prop where
  address : lib.parseAddress amount.address = some payment.recipientAddress
  value : ∃ value, Gives (ExceptT.mk (zatoshisFromValue lib.toMoneyLib amount.amount)) value ∧
    payment.amount = some value
  memo : Gives (parseMemoOption lib amount.memo) payment.memo
  plain : payment.label = none ∧ payment.message = none ∧ payment.otherParams = []

/-- The lists of parameters that are accepted. -/
structure Payable (amounts : List AmountParameter) : Prop where
  nonempty : amounts ≠ []
  addresses : ∀ amount ∈ amounts, ∃ addr, lib.parseAddress amount.address = some addr
  distinct : (amounts.map fun amount => lib.parseAddress amount.address).Nodup
  memos : ∀ amount ∈ amounts, ∀ memoHex, amount.memo = some memoHex →
    ∃ memo, Gives (parseMemo lib memoHex) memo
  values : ∀ amount ∈ amounts, ∃ value,
    Gives (ExceptT.mk (zatoshisFromValue lib.toMoneyLib amount.amount)) value
  transparent : ∀ amount ∈ amounts, ∀ addr, lib.parseAddress amount.address = some addr →
    lib.isTransparent addr = true → amount.memo = none ∧ amount.value lib ≠ 0
  total : (amounts.map (·.value lib)).sum ≤ maxMoney

end

section
variable {lib : PaymentLib} {inputs : List lib.Pay → Prop}

/-- A payment's value. -/
def Payment.value {Address MemoBytes : Type} (payment : Payment Address MemoBytes) : ℕ :=
  payment.amount.elim 0 (·.value)

/-- The payment is not one that a transparent recipient cannot be sent. -/
def Sendable (payment : lib.Pay) : Prop :=
  lib.isTransparent payment.recipientAddress = true → payment.memo = none ∧ payment.value ≠ 0

theorem PaysAs.value_eq {amount : AmountParameter} {payment : lib.Pay}
    (h : PaysAs lib amount payment) : payment.value = amount.value lib := by
  obtain ⟨value, hgives, hpayment⟩ := h.value
  have hgives : zatoshisFromValue lib.toMoneyLib amount.amount = .ok (.ok value) := hgives
  rw [Payment.value, AmountParameter.value, hgives, hpayment]
  rfl

/-- A turn of the loop takes a new recipient, while the total fits. -/
theorem gives_addPayment (hlib : lib.Documented inputs) {s s' : RequestState lib}
    {amount : AmountParameter} :
    Gives (addPayment lib s amount) s' ↔ ∃ payment total, PaysAs lib amount payment ∧
      Sendable payment ∧ payment.recipientAddress ∉ s.recipientAddrs ∧
      total.value = s.totalOut.value + payment.value ∧
      s' = ⟨payment.recipientAddress :: s.recipientAddrs, s.payments ++ [payment], total⟩ := by
  simp only [addPayment, gives_bind, gives_okOr, gives_refuseIf, gives_mapErr, gives_pure]
  constructor
  · rintro ⟨addr, haddr, -, hnew, memo, hmemo, value, hvalue, payment, hpayment, total, htotal, rfl⟩
    obtain ⟨rfl, hsendable⟩ := (hlib.newPayment _ _ _ _ _ _ _).mp hpayment
    have hadd : total.value = s.totalOut.value + value.value := (hlib.add _ _ _).mp htotal
    refine ⟨⟨addr, some value, memo, none, none, []⟩, total,
      ⟨haddr, ⟨value, hvalue, rfl⟩, hmemo, rfl, rfl, rfl⟩, ?_, hnew, hadd, rfl⟩
    intro htransparent
    obtain ⟨hnone, hzero⟩ := hsendable htransparent
    exact ⟨hnone, hzero value rfl⟩
  · rintro ⟨⟨addr, amt, memo, label, message, others⟩, total, hpays, hsendable, hnew, htotal, rfl⟩
    obtain ⟨haddr, ⟨value, hvalue, hamt⟩, hmemo, hlabel, hmessage, hothers⟩ := hpays
    dsimp only at haddr hamt hmemo hlabel hmessage hothers hnew
    subst hamt hlabel hmessage hothers
    refine ⟨addr, haddr, (), hnew, memo, hmemo, value, hvalue, _, ?_, total,
      (hlib.add _ _ _).mpr htotal, rfl⟩
    refine (hlib.newPayment _ _ _ _ _ _ _).mpr ⟨rfl, ?_⟩
    intro htransparent
    obtain ⟨hnone, hzero⟩ := hsendable htransparent
    refine ⟨hnone, ?_⟩
    rintro _ ⟨⟩
    exact hzero

/-! ## The loop -/

/-- What the loop has taken between two of its states. -/
structure Took (s : RequestState lib) (payments : List lib.Pay) (s' : RequestState lib) : Prop where
  sendable : ∀ payment ∈ payments, Sendable payment
  distinct : (payments.map (·.recipientAddress)).Nodup
  fresh : ∀ payment ∈ payments, payment.recipientAddress ∉ s.recipientAddrs
  paid : s'.payments = s.payments ++ payments
  total : s'.totalOut.value = s.totalOut.value + (payments.map (·.value)).sum

theorem took_of_gives (hlib : lib.Documented inputs) {amounts : List AmountParameter}
    {s s' : RequestState lib} (h : Gives (amounts.foldlM (addPayment lib) s) s') :
    ∃ payments, List.Forall₂ (PaysAs lib) amounts payments ∧ Took s payments s' := by
  induction amounts generalizing s with
  | nil =>
      obtain rfl : s = s' := gives_pure.mp h
      refine ⟨[], .nil, by rintro _ ⟨⟩, List.nodup_nil, by rintro _ ⟨⟩, ?_, rfl⟩
      exact (List.append_nil s.payments).symm
  | cons amount amounts ih =>
      rw [List.foldlM_cons, gives_bind] at h
      obtain ⟨s₁, hfirst, hrest⟩ := h
      obtain ⟨payment, total, hpays, hsendable, hnew, htotal, rfl⟩ :=
        (gives_addPayment hlib).mp hfirst
      obtain ⟨payments, hall, htook⟩ := ih hrest
      have hothers : payment.recipientAddress ∉ payments.map (·.recipientAddress) := by
        intro hmem
        obtain ⟨other, hother, heq⟩ := List.mem_map.mp hmem
        exact htook.fresh other hother (heq ▸ List.mem_cons_self)
      refine ⟨payment :: payments, .cons hpays hall, ?_, ?_, ?_, ?_, ?_⟩
      · exact List.forall_mem_cons.mpr ⟨hsendable, htook.sendable⟩
      · exact List.nodup_cons.mpr ⟨hothers, htook.distinct⟩
      · refine List.forall_mem_cons.mpr ⟨hnew, ?_⟩
        intro other hother hmem
        exact htook.fresh other hother (List.mem_cons_of_mem _ hmem)
      · rw [htook.paid, List.append_assoc]
        rfl
      · have hsum := htook.total
        dsimp only at hsum
        rw [hsum, htotal, List.map_cons, List.sum_cons, Nat.add_assoc]

/-- Payments that may be sent, to recipients that are new and distinct, are taken while their total
fits. -/
theorem gives_of_pays (hlib : lib.Documented inputs) {amounts : List AmountParameter}
    {payments : List lib.Pay} (hpays : List.Forall₂ (PaysAs lib) amounts payments)
    {s : RequestState lib} (hsendable : ∀ payment ∈ payments, Sendable payment)
    (hdistinct : (payments.map (·.recipientAddress)).Nodup)
    (hfresh : ∀ payment ∈ payments, payment.recipientAddress ∉ s.recipientAddrs)
    (htotal : s.totalOut.value + (payments.map (·.value)).sum ≤ maxMoney) :
    ∃ s', Gives (amounts.foldlM (addPayment lib) s) s' ∧ s'.payments = s.payments ++ payments := by
  induction hpays generalizing s with
  | nil => exact ⟨s, gives_pure.mpr rfl, (List.append_nil s.payments).symm⟩
  | @cons amount payment amounts payments hfirst _ ih =>
      rw [List.map_cons, List.sum_cons] at htotal
      rw [List.map_cons, List.nodup_cons] at hdistinct
      obtain ⟨hnew, hnews⟩ := List.forall_mem_cons.mp hfresh
      obtain ⟨hsend, hsends⟩ := List.forall_mem_cons.mp hsendable
      let total : Zatoshis := ⟨s.totalOut.value + payment.value, by omega⟩
      let s₁ : RequestState lib :=
        ⟨payment.recipientAddress :: s.recipientAddrs, s.payments ++ [payment], total⟩
      have hstep : Gives (addPayment lib s amount) s₁ :=
        (gives_addPayment hlib).mpr ⟨payment, total, hfirst, hsend, hnew, rfl, rfl⟩
      have hfresh₁ : ∀ other ∈ payments, other.recipientAddress ∉ s₁.recipientAddrs := by
        intro other hother hmem
        rcases List.mem_cons.mp hmem with heq | hmem
        · exact hdistinct.1 (heq ▸ List.mem_map_of_mem hother)
        · exact hnews other hother hmem
      have htotal₁ : s₁.totalOut.value + (payments.map (·.value)).sum ≤ maxMoney := by
        show s.totalOut.value + payment.value + _ ≤ maxMoney
        omega
      obtain ⟨s', hrest, hpaid⟩ := ih hsends hdistinct.2 hfresh₁ htotal₁
      refine ⟨s', ?_, ?_⟩
      · rw [List.foldlM_cons, gives_bind]
        exact ⟨s₁, hstep, hrest⟩
      · rw [hpaid, List.append_assoc]
        rfl

/-! ## The list as a whole -/

theorem PaysAs.unique {amount : AmountParameter} {payment payment' : lib.Pay}
    (h : PaysAs lib amount payment) (h' : PaysAs lib amount payment') : payment = payment' := by
  obtain ⟨addr, amt, memo, label, message, others⟩ := payment
  obtain ⟨addr', amt', memo', label', message', others'⟩ := payment'
  obtain ⟨haddr, ⟨value, hvalue, hamt⟩, hmemo, hlabel, hmessage, hothers⟩ := h
  obtain ⟨haddr', ⟨value', hvalue', hamt'⟩, hmemo', hlabel', hmessage', hothers'⟩ := h'
  dsimp only at *
  obtain rfl : addr = addr' := Option.some.inj (haddr.symm.trans haddr')
  obtain rfl : value = value' := hvalue.unique hvalue'
  obtain rfl : memo = memo' := hmemo.unique hmemo'
  rw [hamt, hamt', hlabel, hlabel', hmessage, hmessage', hothers, hothers']

/-- Two lists that pay the same parameters are the same. -/
theorem pays_unique {amounts : List AmountParameter} {payments payments' : List lib.Pay}
    (h : List.Forall₂ (PaysAs lib) amounts payments)
    (h' : List.Forall₂ (PaysAs lib) amounts payments') : payments = payments' := by
  induction h generalizing payments' with
  | nil =>
      cases h'
      rfl
  | cons hfirst _ ih =>
      cases h' with
      | cons hfirst' hrest' => rw [hfirst.unique hfirst', ih hrest']

theorem pays_addresses {amounts : List AmountParameter} {payments : List lib.Pay}
    (h : List.Forall₂ (PaysAs lib) amounts payments) :
    (amounts.map fun amount => lib.parseAddress amount.address) =
      (payments.map (·.recipientAddress)).map some := by
  induction h with
  | nil => rfl
  | cons hfirst _ ih => rw [List.map_cons, List.map_cons, List.map_cons, ih, hfirst.address]

theorem pays_values {amounts : List AmountParameter} {payments : List lib.Pay}
    (h : List.Forall₂ (PaysAs lib) amounts payments) :
    amounts.map (·.value lib) = payments.map (·.value) := by
  induction h with
  | nil => rfl
  | cons hfirst _ ih => rw [List.map_cons, List.map_cons, ih, hfirst.value_eq]

theorem exists_pays {amounts : List AmountParameter}
    (h : ∀ amount ∈ amounts, ∃ payment, PaysAs lib amount payment) :
    ∃ payments, List.Forall₂ (PaysAs lib) amounts payments := by
  induction amounts with
  | nil => exact ⟨[], .nil⟩
  | cons amount amounts ih =>
      obtain ⟨⟨payment, hpayment⟩, hrest⟩ := List.forall_mem_cons.mp h
      obtain ⟨payments, hpayments⟩ := ih hrest
      exact ⟨payment :: payments, .cons hpayment hpayments⟩

theorem gives_parseMemoOption_none {memo : Option lib.MemoBytes} :
    Gives (parseMemoOption lib none) memo ↔ memo = none := gives_pure.trans eq_comm

theorem gives_parseMemoOption_some {memoHex : String} {memo : Option lib.MemoBytes} :
    Gives (parseMemoOption lib (some memoHex)) memo ↔
      ∃ m, Gives (parseMemo lib memoHex) m ∧ some m = memo := by
  simp only [parseMemoOption, gives_bind, gives_pure]

theorem Payable.pays {amounts : List AmountParameter} (h : Payable lib amounts) :
    ∀ amount ∈ amounts, ∃ payment, PaysAs lib amount payment := by
  intro amount hamount
  obtain ⟨addr, haddr⟩ := h.addresses amount hamount
  obtain ⟨value, hvalue⟩ := h.values amount hamount
  have hmemo : ∃ memo, Gives (parseMemoOption lib amount.memo) memo := by
    have hparses := h.memos amount hamount
    cases hmemo : amount.memo with
    | none => exact ⟨none, gives_parseMemoOption_none.mpr rfl⟩
    | some memoHex =>
        obtain ⟨m, hm⟩ := hparses memoHex hmemo
        exact ⟨some m, gives_parseMemoOption_some.mpr ⟨m, hm, rfl⟩⟩
  obtain ⟨memo, hmemo⟩ := hmemo
  exact ⟨⟨addr, some value, memo, none, none, []⟩, haddr, ⟨value, hvalue, rfl⟩, hmemo,
    rfl, rfl, rfl⟩

/-- What the payment of a parameter may not be, said of the parameter. -/
theorem PaysAs.sendable_iff {amount : AmountParameter} {payment : lib.Pay}
    (h : PaysAs lib amount payment) : Sendable payment ↔
      ∀ addr, lib.parseAddress amount.address = some addr → lib.isTransparent addr = true →
        amount.memo = none ∧ amount.value lib ≠ 0 := by
  have hmemo : payment.memo = none ↔ amount.memo = none := by
    have hparse := h.memo
    cases hm : amount.memo with
    | none =>
        rw [hm] at hparse
        exact iff_of_true (gives_parseMemoOption_none.mp hparse) rfl
    | some memoHex =>
        rw [hm] at hparse
        obtain ⟨m, -, heq⟩ := gives_parseMemoOption_some.mp hparse
        rw [← heq]
        exact iff_of_false (Option.some_ne_none m) (Option.some_ne_none memoHex)
  rw [Sendable, hmemo, h.value_eq]
  constructor
  · intro hsendable addr haddr
    obtain rfl : payment.recipientAddress = addr := Option.some.inj (h.address.symm.trans haddr)
    exact hsendable
  · intro hall
    exact hall payment.recipientAddress h.address

/-- A list is payable if each parameter has its payment, and these go together. -/
theorem payable_iff {amounts : List AmountParameter} : Payable lib amounts ↔
    amounts ≠ [] ∧ ∃ payments, List.Forall₂ (PaysAs lib) amounts payments ∧
      (∀ payment ∈ payments, Sendable payment) ∧ (payments.map (·.recipientAddress)).Nodup ∧
      (payments.map (·.value)).sum ≤ maxMoney := by
  constructor
  · intro h
    obtain ⟨payments, hpays⟩ := exists_pays h.pays
    refine ⟨h.nonempty, payments, hpays, ?_, ?_, ?_⟩
    · intro payment hpayment
      obtain ⟨amount, hamount, hpaysAs⟩ := forall₂_mem hpays.flip payment hpayment
      exact hpaysAs.sendable_iff.mpr (h.transparent amount hamount)
    · have hdistinct := h.distinct
      rw [pays_addresses hpays] at hdistinct
      exact hdistinct.of_map some
    · rw [← pays_values hpays]
      exact h.total
  · rintro ⟨hne, payments, hpays, hsendable, hdistinct, htotal⟩
    have hpaid := forall₂_mem hpays
    refine ⟨hne, ?_, ?_, ?_, ?_, ?_, ?_⟩
    · intro amount hamount
      obtain ⟨payment, -, hpaysAs⟩ := hpaid amount hamount
      exact ⟨_, hpaysAs.address⟩
    · rw [pays_addresses hpays]
      exact hdistinct.map (Option.some_injective _)
    · intro amount hamount memoHex hmemo
      obtain ⟨payment, -, hpaysAs⟩ := hpaid amount hamount
      have hparse := hpaysAs.memo
      rw [hmemo] at hparse
      obtain ⟨m, hm, -⟩ := gives_parseMemoOption_some.mp hparse
      exact ⟨m, hm⟩
    · intro amount hamount
      obtain ⟨payment, -, hpaysAs⟩ := hpaid amount hamount
      obtain ⟨value, hvalue, -⟩ := hpaysAs.value
      exact ⟨value, hvalue⟩
    · intro amount hamount
      obtain ⟨payment, hpayment, hpaysAs⟩ := hpaid amount hamount
      exact hpaysAs.sendable_iff.mp (hsendable payment hpayment)
    · rw [pays_values hpays]
      exact htotal

end

/-- A request is built exactly for the lists that are not empty, whose addresses, memos and amounts
parse, whose addresses are distinct, that send no memo and no zero amount to a transparent
recipient, and whose total is an amount of money, if `TransactionRequest::new` takes their payments;
it has one payment for each parameter, in order, with its address, value and memo. -/
theorem buildRequest_iff (lib : PaymentLib) (inputs : List lib.Pay → Prop)
    (hlib : lib.Documented inputs) (amounts : List AmountParameter) :
    ((∃ request, Gives (buildRequest lib amounts) request) ↔
      Payable lib amounts ∧
        ∀ payments, List.Forall₂ (PaysAs lib) amounts payments → inputs payments) ∧
    ∀ request, Gives (buildRequest lib amounts) request →
      List.Forall₂ (PaysAs lib) amounts (lib.payments request) := by
  have htakes : ∀ request, Gives (buildRequest lib amounts) request → amounts ≠ [] ∧
      ∃ payments s', List.Forall₂ (PaysAs lib) amounts payments ∧
        Took ⟨[], [], ⟨0, Nat.zero_le _⟩⟩ payments s' ∧ lib.newRequest payments = .ok request := by
    intro request h
    simp only [buildRequest, gives_bind, gives_refuseIf, gives_mapErr] at h
    obtain ⟨-, hne, s', hloop, hnew⟩ := h
    obtain ⟨payments, hpays, htook⟩ := took_of_gives hlib hloop
    rw [htook.paid] at hnew
    exact ⟨hne, payments, s', hpays, htook, hnew⟩
  refine ⟨⟨?_, ?_⟩, ?_⟩
  · rintro ⟨request, h⟩
    obtain ⟨hne, payments, s', hpays, htook, hnew⟩ := htakes request h
    have htotal : (payments.map (·.value)).sum ≤ maxMoney := by
      have hsum := htook.total
      dsimp only at hsum
      rw [Nat.zero_add] at hsum
      rw [← hsum]
      exact s'.totalOut.le_maxMoney
    refine ⟨payable_iff.mpr ⟨hne, payments, hpays, htook.sendable, htook.distinct, htotal⟩, ?_⟩
    intro payments' hpays'
    rw [pays_unique hpays' hpays]
    exact (hlib.newRequest payments).mp ⟨request, hnew⟩
  · rintro ⟨hpayable, hinputs⟩
    obtain ⟨hne, payments, hpays, hsendable, hdistinct, htotal⟩ := payable_iff.mp hpayable
    obtain ⟨request, hnew⟩ := (hlib.newRequest payments).mpr (hinputs payments hpays)
    have hstart : 0 + (payments.map (·.value)).sum ≤ maxMoney := by
      rw [Nat.zero_add]
      exact htotal
    obtain ⟨s', hloop, hpaid⟩ := gives_of_pays hlib hpays hsendable hdistinct
      (s := ⟨[], [], ⟨0, Nat.zero_le _⟩⟩) (fun _ _ h => by cases h) hstart
    refine ⟨request, ?_⟩
    simp only [buildRequest, gives_bind, gives_refuseIf, gives_mapErr]
    exact ⟨(), hne, s', hloop, by rwa [hpaid]⟩
  · intro request h
    obtain ⟨-, payments, s', hpays, -, hnew⟩ := htakes request h
    rw [hlib.payments payments request hnew]
    exact hpays

/-! ## A batch -/

/-- A transparent and a Sapling address, as in the tests of `build_request`. -/
def tAddr : String := "t1VydNnkjBzfL1iAMyUbwGKJAF7PgvuCfMY"

def saplingAddr : String :=
  "zs1qqqqqqqqqqqqqqqqqqcguyvaw2vjk4sdyeg0lc970u659lvhqq7t0np6hlup5lusxle75c8v35z"

def isTAddr (s : String) : Bool := s = tAddr

theorem isTAddr_iff {s : String} : isTAddr s = true ↔ s = tAddr := decide_eq_true_iff

def knownAddress (s : String) : Option String :=
  if s = tAddr ∨ s = saplingAddr then some s else none

/-- Make a payment, where the one address is transparent. -/
def payTo (address : String) (amount : Option Zatoshis) (memo : Option (List UInt8))
    (label message : Option String) (otherParams : List (String × String)) :
    Except PaymentError (Payment String (List UInt8)) :=
  if address = tAddr ∧ memo.isSome then .error .transparentMemo
  else if address = tAddr ∧ amount.any (·.value = 0) then .error .zeroValuedTransparentOutput
  else .ok ⟨address, amount, memo, label, message, otherParams⟩

/-- Libraries that know these two. -/
def twoAddresses : PaymentLib where
  toMoneyLib := eightPlaces
  Address := String
  decAddress := inferInstance
  MemoBytes := List UInt8
  TransactionRequest := List (Payment String (List UInt8))
  parseAddress := knownAddress
  isTransparent := isTAddr
  hexDecode s := if s = "f6" then some [0xf6] else none
  memoFromBytes bytes :=
    if bytes.length ≤ 512 then some (bytes ++ List.replicate (512 - bytes.length) 0) else none
  add a b := if h : a.value + b.value ≤ maxMoney then some ⟨a.value + b.value, h⟩ else none
  newPayment := payTo
  newRequest payments :=
    if payments.length ≤ 9999 then .ok payments else .error "too many payments"
  payments request := request

theorem payTo_eq_ok {address : String} {amount : Option Zatoshis} {memo : Option (List UInt8)}
    {label message : Option String} {otherParams : List (String × String)}
    {payment : Payment String (List UInt8)} :
    payTo address amount memo label message otherParams = .ok payment ↔
      payment = ⟨address, amount, memo, label, message, otherParams⟩ ∧
      (address = tAddr → memo = none ∧ ∀ value, amount = some value → value.value ≠ 0) := by
  rw [payTo]
  split_ifs with hmemo hzero
  · refine iff_of_false (by rintro ⟨⟩) ?_
    rintro ⟨-, h⟩
    have hnone := (h hmemo.1).1
    rw [hnone] at hmemo
    cases hmemo.2
  · refine iff_of_false (by rintro ⟨⟩) ?_
    rintro ⟨-, h⟩
    obtain ⟨value, hvalue, hv⟩ := (Option.any_eq_true _ _).mp hzero.2
    exact (h hzero.1).2 value hvalue (of_decide_eq_true hv)
  · rw [Except.ok.injEq, eq_comm]
    refine (and_iff_left ?_).symm
    intro htransparent
    refine ⟨?_, ?_⟩
    · rw [← Option.not_isSome_iff_eq_none]
      exact fun h => hmemo ⟨htransparent, h⟩
    · intro value hvalue hv
      exact hzero ⟨htransparent, (Option.any_eq_true _ _).mpr ⟨value, hvalue, decide_eq_true hv⟩⟩

theorem twoAddresses_documented :
    twoAddresses.Documented fun payments => payments.length ≤ 9999 where
  add := by
    intro a b c
    show (if h : a.value + b.value ≤ maxMoney then some (⟨_, h⟩ : Zatoshis) else none) = some c ↔ _
    obtain ⟨c, hc⟩ := c
    split
    case isTrue h => rw [Option.some.injEq, Zatoshis.mk.injEq, eq_comm]
    case isFalse h =>
      refine iff_of_false (by rintro ⟨⟩) ?_
      rintro rfl
      exact h hc
  newPayment := by
    intro address amount memo label message otherParams payment
    exact payTo_eq_ok.trans (and_congr_right fun _ => imp_congr_left isTAddr_iff.symm)
  newRequest := by
    intro payments
    show (∃ request, ite _ _ _ = _) ↔ _
    split
    case isTrue h => exact iff_of_true ⟨payments, rfl⟩ h
    case isFalse h => exact iff_of_false (by rintro ⟨_, ⟨⟩⟩) h
  payments := by
    intro payments request h
    have h : ite (payments.length ≤ 9999) (.ok payments) (.error "too many payments") =
      (.ok request : Except String (List (Payment String (List UInt8)))) := h
    split at h
    case isTrue =>
      cases h
      rfl
    case isFalse => cases h

/-- A tenth of a coin to the one, two tenths and a memo to the other. -/
def batch : List AmountParameter :=
  [⟨tAddr, .string "0.1", none⟩, ⟨saplingAddr, .number "0.2", some "f6"⟩]

def batchPayments : List (Payment String (List UInt8)) :=
  [⟨tAddr, some ⟨10000000, by decide⟩, none, none, none, []⟩,
    ⟨saplingAddr, some ⟨20000000, by decide⟩, some (0xf6 :: List.replicate 511 0), none, none, []⟩]

theorem batch_pays : List.Forall₂ (PaysAs twoAddresses) batch batchPayments := by
  have htenth : zatoshisFromValue eightPlaces (.string "0.1") =
      .ok (.ok ⟨10000000, by decide⟩) := by
    decide +kernel
  have hfifth : zatoshisFromValue eightPlaces (.number "0.2") =
      .ok (.ok ⟨20000000, by decide⟩) := by
    decide +kernel
  have hknown : knownAddress tAddr = some tAddr := if_pos (.inl rfl)
  have hsapling : knownAddress saplingAddr = some saplingAddr := if_pos (.inr rfl)
  refine .cons ⟨hknown, ⟨_, htenth, rfl⟩, rfl, rfl, rfl, rfl⟩ (.cons ?_ .nil)
  refine ⟨hsapling, ⟨_, hfifth, rfl⟩, ?_, rfl, rfl, rfl⟩
  have hmemo : Gives (parseMemo twoAddresses "f6") (0xf6 :: List.replicate 511 0) := rfl
  exact gives_parseMemoOption_some.mpr ⟨_, hmemo, rfl⟩

theorem buildRequest_iff_batch :
    ∃ request, Gives (buildRequest twoAddresses batch) request ∧
      List.Forall₂ (PaysAs twoAddresses) batch (twoAddresses.payments request) := by
  obtain ⟨hbuilds, hpays⟩ := buildRequest_iff twoAddresses _ twoAddresses_documented batch
  have hpayable : Payable twoAddresses batch := by
    refine payable_iff.mpr ⟨by rintro ⟨⟩, batchPayments, batch_pays, ?_, ?_, ?_⟩
    · refine List.forall_mem_cons.mpr ⟨fun _ => ⟨rfl, by decide⟩, ?_⟩
      refine List.forall_mem_cons.mpr ⟨?_, by rintro _ ⟨⟩⟩
      intro htransparent
      have htransparent : isTAddr saplingAddr = true := htransparent
      exact absurd htransparent (by decide)
    · show [tAddr, saplingAddr].Nodup
      decide
    · decide
  have hfew : ∀ payments, List.Forall₂ (PaysAs twoAddresses) batch payments →
      payments.length ≤ 9999 := by
    intro payments h
    rw [← h.length_eq]
    decide
  obtain ⟨request, hrequest⟩ := hbuilds.mpr ⟨hpayable, hfew⟩
  exact ⟨request, hrequest, hpays request hrequest⟩

end Zallet
