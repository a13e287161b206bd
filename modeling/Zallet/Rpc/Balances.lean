/-
# `Zallet.Rpc.Balances` — balances by account and in total

`json_rpc/methods/get_balances.rs` and `z_get_total_balance.rs`.  Both ask for
the wallet's summary under the same policy; the first shows what each account
has in each pool, and leaves out what is empty, the second adds up what all of
them have and prints it in coins.  The accounts come out of a hash map, so they
come in no particular order.

`totals_agree` says that the totals are those of what is shown.
-/
import Zallet.Data.CheckedSum
import Zallet.Rpc.ListUnspent

namespace Zallet.GetBalances

open CheckedSum

/-! ## What the wallet knows -/

/-- What is used of the balances in a wallet's summary. -/
structure BalanceLib extends MoneyLib where
  add : Zatoshis → Zatoshis → Option Zatoshis
  Balance : Type
  spendableValue : Balance → Zatoshis
  changePendingConfirmation : Balance → Zatoshis
  valuePendingSpendability : Balance → Zatoshis
  uneconomicValue : Balance → Zatoshis
  total : Balance → Zatoshis
  AccountBalance : Type
  saplingBalance : AccountBalance → Balance
  orchardBalance : AccountBalance → Balance
  unshieldedBalance : AccountBalance → Balance
  accountSpendable : AccountBalance → Zatoshis
  accountChangePending : AccountBalance → Zatoshis
  accountValuePending : AccountBalance → Zatoshis
  accountUneconomic : AccountBalance → Zatoshis

section
variable (lib : BalanceLib)

/-- The pools of an account. -/
def BalanceLib.pools (a : lib.AccountBalance) : List lib.Balance :=
  [lib.saplingBalance a, lib.orchardBalance a, lib.unshieldedBalance a]

/-- What is relied on: a total leaves out what is uneconomic, and an account has no more than there
may be; what is pending in an account is pending in its pools. -/
structure BalanceLib.Documented (value : lib.Decimal → ℚ) : Prop where
  money : lib.toMoneyLib.Documented value
  add : ∀ a b c, lib.add a b = some c ↔ c.value = a.value + b.value
  total : ∀ b, (lib.total b).value = (lib.spendableValue b).value +
    (lib.changePendingConfirmation b).value + (lib.valuePendingSpendability b).value
  within : ∀ a, ((lib.pools a).map fun b => (lib.total b).value).sum ≤ maxMoney
  changePending : ∀ a, (lib.accountChangePending a).value ≤
    ((lib.pools a).map fun b => (lib.changePendingConfirmation b).value).sum
  valuePending : ∀ a, (lib.accountValuePending a).value ≤
    ((lib.pools a).map fun b => (lib.valuePendingSpendability b).value).sum

/-- The accounts of a summary, as they are iterated. -/
abbrev Accounts := List (AccountUuid × lib.AccountBalance)

/-- The summary of a wallet that has one. -/
abbrev Wallet := ConfirmationsPolicy → Except String (Option (Accounts lib))

end

/-- `minconf = 0` is taken for the least there is. -/
def policyOf : Option ℕ → ConfirmationsPolicy
  | some minconf => ListUnspent.confirmationsPolicy minconf
  | none => .newSymmetrical ⟨1, Nat.one_pos⟩ false

/-! ## By account -/

/-- In zatoshis. -/
structure Value where
  valueZat : ℕ
  deriving DecidableEq, Repr

/-- Nothing is locked, so that is left out. -/
structure Balance where
  spendable : Value
  pending : Option Value
  dust : Option Value
  deriving DecidableEq, Repr

/-- Coinbase is not told apart yet. -/
structure TransparentBalance where
  regular : Option Balance
  deriving DecidableEq, Repr

structure AccountBalance where
  accountUuid : AccountUuid
  transparent : Option TransparentBalance
  sapling : Option Balance
  orchard : Option Balance
  total : Balance
  deriving DecidableEq

structure Balances where
  accounts : List AccountBalance
  deriving DecidableEq

def value (z : Zatoshis) : Value := ⟨z.value⟩

def optValue (z : Zatoshis) : Option Value := if z.value = 0 then none else some (value z)

def balance (spendable pending dust : Zatoshis) : Balance :=
  ⟨value spendable, optValue pending, optValue dust⟩

def optBalance (spendable pending dust : Zatoshis) : Option Balance :=
  if spendable.value = 0 ∧ pending.value = 0 ∧ dust.value = 0 then none
  else some (balance spendable pending dust)

section
variable (lib : BalanceLib)

/-- What is pending for either reason. -/
def pendingOf (change value : Zatoshis) : Except RpcError Zatoshis :=
  (lib.add change value).elim (.error (LegacyCode.database.withMessage
    "Wallet database is corrupt: storing more than MAX_MONEY")) .ok

def optBalanceFrom (b : lib.Balance) : Except RpcError (Option Balance) := do
  let pending ← pendingOf lib (lib.changePendingConfirmation b) (lib.valuePendingSpendability b)
  pure (optBalance (lib.spendableValue b) pending (lib.uneconomicValue b))

def balanceFrom (a : lib.AccountBalance) : Except RpcError Balance := do
  let pending ← pendingOf lib (lib.accountChangePending a) (lib.accountValuePending a)
  pure (balance (lib.accountSpendable a) pending (lib.accountUneconomic a))

def optTransparentBalance (regular : lib.Balance) :
    Except RpcError (Option TransparentBalance) :=
  if (lib.total regular).value = 0 ∧ (lib.uneconomicValue regular).value = 0 then .ok none
  else do
    let shown ← optBalanceFrom lib regular
    pure (some ⟨shown⟩)

def accountBalance (account : AccountUuid × lib.AccountBalance) :
    Except RpcError AccountBalance := do
  let transparent ← optTransparentBalance lib (lib.unshieldedBalance account.2)
  let sapling ← optBalanceFrom lib (lib.saplingBalance account.2)
  let orchard ← optBalanceFrom lib (lib.orchardBalance account.2)
  let total ← balanceFrom lib account.2
  pure ⟨account.1, transparent, sapling, orchard, total⟩

/-- The summary, if it can be read. -/
def readSummary (wallet : Wallet lib) (minconf : Option ℕ) :
    Except RpcError (Option (Accounts lib)) :=
  (wallet (policyOf minconf)).mapError LegacyCode.database.withMessage

/-- `z_getbalances` -/
def getBalances (wallet : Wallet lib) (minconf : Option ℕ) : Except RpcError Balances := do
  match ← readSummary lib wallet minconf with
  | none => .error (LegacyCode.inWarmup.withMessage "Wallet sync required")
  | some accounts => do
      let accounts ← accounts.mapM (accountBalance lib)
      pure ⟨accounts⟩

/-! ## In total -/

/-- In coins. -/
structure TotalBalance where
  transparent : String
  /-- `private` -/
  shielded : String
  total : String
  deriving DecidableEq, Repr

def zero : Zatoshis := ⟨0, Nat.zero_le _⟩

/-- An amount is added to a sum that has not overflowed. -/
def addTo (sum : Option Zatoshis) (amount : Zatoshis) : Option Zatoshis :=
  sum.bind fun sum => lib.add sum amount

/-- The transparent and the shielded funds of all accounts. -/
def sums (accounts : Accounts lib) : Option Zatoshis × Option Zatoshis :=
  accounts.foldl (fun sums account =>
    (addTo lib sums.1 (lib.total (lib.unshieldedBalance account.2)),
      addTo lib (addTo lib sums.2 (lib.total (lib.saplingBalance account.2)))
        (lib.total (lib.orchardBalance account.2)))) (some zero, some zero)

/-- A sum, in coins. -/
def inCoins (amount : Zatoshis) : String := lib.display (valueFromZatoshis lib.toMoneyLib amount)

def totalBalance (sums : Option Zatoshis × Option Zatoshis) : Option TotalBalance :=
  sums.1.bind fun transparent => sums.2.bind fun shielded =>
    (lib.add transparent shielded).map fun total =>
      ⟨inCoins lib transparent, inCoins lib shielded, inCoins lib total⟩

/-- `z_gettotalbalance` -/
def zGetTotalBalance (wallet : Wallet lib) (minconf : Option ℕ) (includeWatchonly : Option Bool) :
    Except RpcError TotalBalance := do
  if includeWatchonly ≠ some true then
    .error (LegacyCode.misc.withMessage
      "include_watchonly argument must be set to true (for now)")
  let summary ← readSummary lib wallet minconf
  (totalBalance lib (summary.elim (some zero, some zero) (sums lib))).elim
    (.error (LegacyCode.wallet.withMessage "balance overflow")) .ok

end

/-! ## What is shown -/

/-- Dust is no funds. -/
def Balance.funds (b : Balance) : ℕ := b.spendable.valueZat + b.pending.elim 0 (·.valueZat)

def fundsOf (shown : Option Balance) : ℕ := shown.elim 0 Balance.funds

def dustOf (shown : Option Balance) : ℕ := (shown.bind (·.dust)).elim 0 (·.valueZat)

def AccountBalance.regular (a : AccountBalance) : Option Balance := a.transparent.bind (·.regular)

def AccountBalance.transparentFunds (a : AccountBalance) : ℕ := fundsOf a.regular

def AccountBalance.shieldedFunds (a : AccountBalance) : ℕ := fundsOf a.sapling + fundsOf a.orchard

def Balances.transparentFunds (shown : Balances) : ℕ :=
  (shown.accounts.map (·.transparentFunds)).sum

def Balances.shieldedFunds (shown : Balances) : ℕ := (shown.accounts.map (·.shieldedFunds)).sum

section
variable (lib : BalanceLib)

/-- There is nothing in a balance, not even dust. -/
def Empty (b : lib.Balance) : Prop := (lib.total b).value = 0 ∧ (lib.uneconomicValue b).value = 0

/-- What is shown is what there is, and it is left out where there is nothing. -/
structure Shows (b : lib.Balance) (shown : Option Balance) : Prop where
  funds : fundsOf shown = (lib.total b).value
  dust : dustOf shown = (lib.uneconomicValue b).value
  omitted : shown = none ↔ Empty lib b

structure ShowsAccount (account : AccountUuid × lib.AccountBalance) (shown : AccountBalance) :
    Prop where
  uuid : shown.accountUuid = account.1
  transparent : Shows lib (lib.unshieldedBalance account.2) shown.regular
  transparentOmitted : shown.transparent = none ↔ Empty lib (lib.unshieldedBalance account.2)
  sapling : Shows lib (lib.saplingBalance account.2) shown.sapling
  orchard : Shows lib (lib.orchardBalance account.2) shown.orchard

/-- A text that is taken as this amount. -/
def ReadsAs (text : String) (n : ℕ) : Prop :=
  ∃ z : Zatoshis, z.value = n ∧ zatoshisFromValue lib.toMoneyLib (.string text) = .ok (.ok z)

end

section
variable {lib : BalanceLib} {val : lib.Decimal → ℚ} {accounts : Accounts lib}

theorem optValue_elim (z : Zatoshis) : (optValue z).elim 0 (·.valueZat) = z.value := by
  rw [optValue]
  by_cases h : z.value = 0
  · rw [if_pos h]
    exact h.symm
  · rw [if_neg h]
    rfl

theorem shows_optBalance {b : lib.Balance} {pending : Zatoshis}
    (h : (lib.total b).value = (lib.spendableValue b).value + pending.value) :
    Shows lib b (optBalance (lib.spendableValue b) pending (lib.uneconomicValue b)) := by
  rw [optBalance]
  by_cases hzero : (lib.spendableValue b).value = 0 ∧ pending.value = 0 ∧
      (lib.uneconomicValue b).value = 0
  · rw [if_pos hzero]
    obtain ⟨hspendable, hpending, hdust⟩ := hzero
    have htotal : (lib.total b).value = 0 := by omega
    exact ⟨htotal.symm, hdust.symm, iff_of_true rfl ⟨htotal, hdust⟩⟩
  · rw [if_neg hzero]
    refine ⟨?_, optValue_elim _, iff_of_false (fun h => nomatch h) ?_⟩
    · show (lib.spendableValue b).value + (optValue pending).elim 0 (·.valueZat) = _
      rw [optValue_elim, h]
    · rintro ⟨htotal, hdust⟩
      exact hzero ⟨by omega, by omega, hdust⟩

/-- What is pending for either reason does not exceed what there may be. -/
theorem pendingOf_ok (hlib : lib.Documented val) (change pending : Zatoshis)
    (h : change.value + pending.value ≤ maxMoney) :
    ∃ z, z.value = change.value + pending.value ∧ pendingOf lib change pending = .ok z := by
  obtain ⟨z, hz⟩ := ((Zatoshis.checked hlib.add).range _).mpr h
  refine ⟨z, hz, ?_⟩
  rw [pendingOf, ((Zatoshis.checked hlib.add).add change pending z).mpr hz]
  rfl

theorem optBalanceFrom_ok (hlib : lib.Documented val) (b : lib.Balance) :
    ∃ shown, optBalanceFrom lib b = .ok shown ∧ Shows lib b shown := by
  have htotal := hlib.total b
  have hle := (lib.total b).le_maxMoney
  obtain ⟨pending, hpending, hok⟩ := pendingOf_ok hlib (lib.changePendingConfirmation b)
    (lib.valuePendingSpendability b) (by omega)
  refine ⟨optBalance (lib.spendableValue b) pending (lib.uneconomicValue b), ?_,
    shows_optBalance (by omega)⟩
  rw [optBalanceFrom, hok]
  rfl

theorem balanceFrom_ok (hlib : lib.Documented val) (a : lib.AccountBalance) :
    ∃ shown, balanceFrom lib a = .ok shown := by
  have hchange := hlib.changePending a
  have hvalue := hlib.valuePending a
  have hwithin := hlib.within a
  have hsapling := hlib.total (lib.saplingBalance a)
  have horchard := hlib.total (lib.orchardBalance a)
  have hunshielded := hlib.total (lib.unshieldedBalance a)
  simp only [BalanceLib.pools, List.map_cons, List.map_nil, List.sum_cons, List.sum_nil]
    at hchange hvalue hwithin
  obtain ⟨pending, -, hok⟩ := pendingOf_ok hlib (lib.accountChangePending a)
    (lib.accountValuePending a) (by omega)
  refine ⟨balance (lib.accountSpendable a) pending (lib.accountUneconomic a), ?_⟩
  rw [balanceFrom, hok]
  rfl

theorem optTransparentBalance_ok (hlib : lib.Documented val) (b : lib.Balance) :
    ∃ shown, optTransparentBalance lib b = .ok shown ∧ Shows lib b (shown.bind (·.regular)) ∧
      (shown = none ↔ Empty lib b) := by
  rw [optTransparentBalance]
  by_cases h : Empty lib b
  · refine ⟨none, if_pos h, ⟨h.1.symm, h.2.symm, iff_of_true rfl h⟩, iff_of_true rfl h⟩
  · obtain ⟨shown, hok, hshows⟩ := optBalanceFrom_ok hlib b
    refine ⟨some ⟨shown⟩, ?_, hshows, iff_of_false (fun h => nomatch h) h⟩
    refine (if_neg h).trans ?_
    rw [hok]
    rfl

theorem accountBalance_ok (hlib : lib.Documented val) (account : AccountUuid × lib.AccountBalance) :
    ∃ shown, accountBalance lib account = .ok shown ∧ ShowsAccount lib account shown := by
  obtain ⟨transparent, ht, htransparent, homitted⟩ :=
    optTransparentBalance_ok hlib (lib.unshieldedBalance account.2)
  obtain ⟨sapling, hs, hsapling⟩ := optBalanceFrom_ok hlib (lib.saplingBalance account.2)
  obtain ⟨orchard, ho, horchard⟩ := optBalanceFrom_ok hlib (lib.orchardBalance account.2)
  obtain ⟨total, htotal⟩ := balanceFrom_ok hlib account.2
  refine ⟨⟨account.1, transparent, sapling, orchard, total⟩, ?_,
    ⟨rfl, htransparent, homitted, hsapling, horchard⟩⟩
  rw [accountBalance, ht, hs, ho, htotal]
  rfl

theorem accounts_ok (hlib : lib.Documented val) (accounts : Accounts lib) :
    ∃ shown, accounts.mapM (accountBalance lib) = .ok shown ∧
      List.Forall₂ (ShowsAccount lib) accounts shown := by
  induction accounts with
  | nil => exact ⟨[], rfl, .nil⟩
  | cons account accounts ih =>
      obtain ⟨entry, hentry, hshows⟩ := accountBalance_ok hlib account
      obtain ⟨shown, hshown, hall⟩ := ih
      refine ⟨entry :: shown, ?_, .cons hshows hall⟩
      rw [List.mapM_cons, hentry, hshown]
      rfl

/-! ## The sums -/

variable (lib) in
/-- The amounts that are added up. -/
def transparentTotals (accounts : Accounts lib) : List Zatoshis :=
  accounts.map fun account => lib.total (lib.unshieldedBalance account.2)

variable (lib) in
def shieldedTotals (accounts : Accounts lib) : List Zatoshis :=
  accounts.flatMap fun account =>
    [lib.total (lib.saplingBalance account.2), lib.total (lib.orchardBalance account.2)]

theorem foldl_prod {α β γ : Type} (f : α → γ → α) (g : β → γ → β) (xs : List γ) (a : α) (b : β) :
    xs.foldl (fun s x => (f s.1 x, g s.2 x)) (a, b) = (xs.foldl f a, xs.foldl g b) := by
  induction xs generalizing a b with
  | nil => rfl
  | cons x xs ih => exact ih (f a x) (g b x)

theorem foldl_addTo (amounts : List Zatoshis) :
    amounts.foldl (addTo lib) (some zero) = amounts.foldlM lib.add zero :=
  foldl_bind lib.add amounts (some zero)

theorem sums_eq (accounts : Accounts lib) : sums lib accounts =
    ((transparentTotals lib accounts).foldlM lib.add zero,
      (shieldedTotals lib accounts).foldlM lib.add zero) := by
  have hprod : sums lib accounts = _ := foldl_prod
    (fun sum (account : AccountUuid × lib.AccountBalance) =>
      addTo lib sum (lib.total (lib.unshieldedBalance account.2)))
    (fun sum account => [lib.total (lib.saplingBalance account.2),
      lib.total (lib.orchardBalance account.2)].foldl (addTo lib) sum) accounts (some zero)
    (some zero)
  rw [hprod, ← foldl_addTo, ← foldl_addTo, transparentTotals, shieldedTotals, List.foldl_map,
    List.foldl_flatMap]

/-- All of the funds, in a number. -/
def totalOf (amounts : List Zatoshis) : ℕ := (amounts.map Zatoshis.value).sum

/-- The totals are printed as far as there may be as much. -/
theorem totalBalance_sums (hlib : lib.Documented val) (accounts : Accounts lib) :
    (∃ t, totalBalance lib (sums lib accounts) = some t ∧
      ReadsAs lib t.transparent (totalOf (transparentTotals lib accounts)) ∧
      ReadsAs lib t.shielded (totalOf (shieldedTotals lib accounts)) ∧
      ReadsAs lib t.total
        (totalOf (transparentTotals lib accounts) + totalOf (shieldedTotals lib accounts))) ∨
    totalBalance lib (sums lib accounts) = none ∧ maxMoney <
      totalOf (transparentTotals lib accounts) + totalOf (shieldedTotals lib accounts) := by
  have hreads : ∀ z, ReadsAs lib (inCoins lib z) z.value := fun z =>
    ⟨z, rfl, (zatoshisFromValue_eq_ok hlib.money).mpr ⟨_, rfl, parse_display hlib.money z⟩⟩
  have hsum : ∀ xs z, xs.foldlM lib.add zero = some z → z.value = totalOf xs := fun xs z h =>
    ((Zatoshis.checked hlib.add).sum_eq_some.mp h).trans (Nat.zero_add _)
  have hover : ∀ xs, xs.foldlM lib.add zero = none → maxMoney < totalOf xs := by
    intro xs hnone
    by_contra hle
    have hwhole : zero.value + (xs.map Zatoshis.value).sum ≤ maxMoney :=
      (Nat.zero_add _).trans_le (Nat.le_of_not_lt hle)
    obtain ⟨z, hz⟩ := (Zatoshis.checked hlib.add).exists_sum.mpr hwhole
    cases hnone.symm.trans hz
  rw [sums_eq, totalBalance]
  cases ht : (transparentTotals lib accounts).foldlM lib.add zero with
  | none => exact .inr ⟨rfl, Nat.lt_add_right _ (hover _ ht)⟩
  | some transparent =>
      cases hs : (shieldedTotals lib accounts).foldlM lib.add zero with
      | none => exact .inr ⟨rfl, Nat.lt_add_left _ (hover _ hs)⟩
      | some shielded =>
          rw [← hsum _ _ ht, ← hsum _ _ hs]
          cases hadd : lib.add transparent shielded with
          | none =>
              refine .inr ⟨?_, (Zatoshis.checked hlib.add).add_eq_none hadd⟩
              show (lib.add transparent shielded).map _ = none
              rw [hadd]
              rfl
          | some total =>
              refine .inl ⟨⟨inCoins lib transparent, inCoins lib shielded, inCoins lib total⟩, ?_,
                hreads transparent, hreads shielded, ?_⟩
              · show (lib.add transparent shielded).map _ = _
                rw [hadd]
                rfl
              · rw [← ((Zatoshis.checked hlib.add).add _ _ _).mp hadd]
                exact hreads total

/-! ## Both of them -/

theorem shown_totals {shown : List AccountBalance}
    (h : List.Forall₂ (ShowsAccount lib) accounts shown) :
    (shown.map (·.transparentFunds)).sum = totalOf (transparentTotals lib accounts) ∧
      (shown.map (·.shieldedFunds)).sum = totalOf (shieldedTotals lib accounts) := by
  induction h with
  | nil => exact ⟨rfl, rfl⟩
  | @cons account entry accounts shown hshows _ ih =>
      obtain ⟨htransparent, hshielded⟩ := ih
      have hentry : entry.transparentFunds = _ := hshows.transparent.funds
      have hentry' : entry.shieldedFunds = _ :=
        congrArg₂ (· + ·) hshows.sapling.funds hshows.orchard.funds
      constructor
      · rw [List.map_cons, List.sum_cons, htransparent, hentry]
        rfl
      · rw [List.map_cons, List.sum_cons, hshielded, hentry']
        simp only [shieldedTotals, totalOf, List.flatMap_cons, List.map_append, List.sum_append,
          List.map_cons, List.map_nil, List.sum_cons, List.sum_nil, Nat.add_zero]

/-- What `z_gettotalbalance` answers, beside what `z_getbalances` shows. -/
structure Totals (lib : BalanceLib) (shown : Balances) (t : TotalBalance) : Prop where
  transparent : ReadsAs lib t.transparent shown.transparentFunds
  shielded : ReadsAs lib t.shielded shown.shieldedFunds
  total : ReadsAs lib t.total (shown.transparentFunds + shown.shieldedFunds)

def databaseError (e : String) : RpcError := LegacyCode.database.withMessage e

def syncRequired : RpcError := LegacyCode.inWarmup.withMessage "Wallet sync required"

def balanceOverflow : RpcError := LegacyCode.wallet.withMessage "balance overflow"

/-- The accounts of a summary come in one order and another. -/
inductive Reordered : Except String (Option (Accounts lib)) →
    Except String (Option (Accounts lib)) → Prop
  | failed (e : String) : Reordered (.error e) (.error e)
  | unsynced : Reordered (.ok none) (.ok none)
  | summary {accounts accounts' : Accounts lib} : accounts.Perm accounts' →
      Reordered (.ok (some accounts)) (.ok (some accounts'))

/-- What the two methods say of a summary. -/
inductive Answered : Except String (Option (Accounts lib)) → Except RpcError Balances →
    Except RpcError TotalBalance → Prop
  | failed (e : String) : Answered (.error e) (.error (databaseError e)) (.error (databaseError e))
  /-- there are no balances to show yet, and they come to nothing -/
  | unsynced {t : TotalBalance} : Totals lib ⟨[]⟩ t →
      Answered (.ok none) (.error syncRequired) (.ok t)
  | totals {accounts : Accounts lib} {shown : Balances} {t : TotalBalance} :
      List.Forall₂ (ShowsAccount lib) accounts shown.accounts → Totals lib shown t →
      Answered (.ok (some accounts)) (.ok shown) (.ok t)
  | overflow {accounts : Accounts lib} {shown : Balances} :
      List.Forall₂ (ShowsAccount lib) accounts shown.accounts →
      maxMoney < shown.transparentFunds + shown.shieldedFunds →
      Answered (.ok (some accounts)) (.ok shown) (.error balanceOverflow)

theorem zGetTotalBalance_eq {wallet : Wallet lib} {minconf : Option ℕ} :
    zGetTotalBalance lib wallet minconf (some true) =
      (readSummary lib wallet minconf).bind fun summary =>
        (totalBalance lib (summary.elim (some zero, some zero) (sums lib))).elim
          (.error balanceOverflow) .ok := rfl

theorem getBalances_shown (hlib : lib.Documented val) {wallet : Wallet lib} {minconf : Option ℕ}
    (h : wallet (policyOf minconf) = .ok (some accounts)) :
    ∃ shown, getBalances lib wallet minconf = .ok ⟨shown⟩ ∧
      List.Forall₂ (ShowsAccount lib) accounts shown := by
  obtain ⟨shown, hshown, hshows⟩ := accounts_ok hlib accounts
  refine ⟨shown, ?_, hshows⟩
  rw [getBalances, readSummary, h]
  show (do let accounts ← accounts.mapM (accountBalance lib); pure (Balances.mk accounts)) = _
  rw [hshown]
  rfl

/-- The two methods agree on what a wallet has, in whatever order its accounts come: the totals are
those of what is shown, and there are none just where they exceed what there may be. -/
theorem totals_agree (lib : BalanceLib) (val : lib.Decimal → ℚ) (hlib : lib.Documented val)
    (wallet wallet' : Wallet lib) (minconf : Option ℕ)
    (h : Reordered (wallet (policyOf minconf)) (wallet' (policyOf minconf))) :
    Answered (wallet (policyOf minconf)) (getBalances lib wallet minconf)
      (zGetTotalBalance lib wallet' minconf (some true)) := by
  rw [zGetTotalBalance_eq, readSummary]
  generalize hsummary : wallet (policyOf minconf) = summary at h ⊢
  generalize hsummary' : wallet' (policyOf minconf) = summary' at h ⊢
  cases h with
  | failed e =>
      have hget : getBalances lib wallet minconf = .error (databaseError e) := by
        rw [getBalances, readSummary, hsummary]
        rfl
      rw [hget]
      exact .failed e
  | unsynced =>
      have hget : getBalances lib wallet minconf = .error syncRequired := by
        rw [getBalances, readSummary, hsummary]
        rfl
      rw [hget]
      rcases totalBalance_sums hlib [] with ⟨t, ht, hreads⟩ | ⟨-, hover⟩
      · have ht : totalBalance lib (some zero, some zero) = some t := ht
        show Answered _ _ ((totalBalance lib (some zero, some zero)).elim _ _)
        rw [ht]
        exact .unsynced ⟨hreads.1, hreads.2.1, hreads.2.2⟩
      · exact absurd hover (Nat.not_lt_zero _)
  | @summary accounts accounts' hperm =>
      obtain ⟨shown, hget, hshows⟩ := getBalances_shown hlib hsummary
      obtain ⟨htransparent, hshielded⟩ := shown_totals hshows
      have htransparent : Balances.transparentFunds ⟨shown⟩ =
          totalOf (transparentTotals lib accounts') :=
        htransparent.trans ((hperm.map _).map _).sum_eq
      have hshielded : Balances.shieldedFunds ⟨shown⟩ = totalOf (shieldedTotals lib accounts') :=
        hshielded.trans ((hperm.flatMap_right _).map _).sum_eq
      have hsums := totalBalance_sums hlib accounts'
      rw [← htransparent, ← hshielded] at hsums
      rw [hget]
      show Answered _ _ ((totalBalance lib (sums lib accounts')).elim _ _)
      rcases hsums with ⟨t, ht, hreads⟩ | ⟨hnone, hover⟩
      · rw [ht]
        exact .totals hshows ⟨hreads.1, hreads.2.1, hreads.2.2⟩
      · rw [hnone]
        exact .overflow hshows hover

end

/-! ### Two accounts -/

structure PoolFunds where
  spendable : Zatoshis
  change : Zatoshis
  pending : Zatoshis
  dust : Zatoshis
  within : spendable.value + change.value + pending.value ≤ maxMoney

def PoolFunds.total (b : PoolFunds) : Zatoshis :=
  ⟨b.spendable.value + b.change.value + b.pending.value, b.within⟩

structure AccountFunds where
  sapling : PoolFunds
  orchard : PoolFunds
  unshielded : PoolFunds
  within : sapling.total.value + (orchard.total.value + (unshielded.total.value + 0)) ≤ maxMoney

/-- As much as there may be, at most. -/
def upTo (n : ℕ) : Zatoshis := ⟨min n maxMoney, Nat.min_le_right _ _⟩

def boundedAdd (a b : Zatoshis) : Option Zatoshis :=
  if h : a.value + b.value ≤ maxMoney then some ⟨a.value + b.value, h⟩ else none

/-- Amounts in zatoshis; what is said of an account is said of its shielded pools. -/
def plainBalances : BalanceLib where
  toMoneyLib := eightPlaces
  add := boundedAdd
  Balance := PoolFunds
  spendableValue := (·.spendable)
  changePendingConfirmation := (·.change)
  valuePendingSpendability := (·.pending)
  uneconomicValue := (·.dust)
  total := PoolFunds.total
  AccountBalance := AccountFunds
  saplingBalance := (·.sapling)
  orchardBalance := (·.orchard)
  unshieldedBalance := (·.unshielded)
  accountSpendable a := upTo (a.sapling.spendable.value + a.orchard.spendable.value)
  accountChangePending a := upTo (a.sapling.change.value + a.orchard.change.value)
  accountValuePending a := upTo (a.sapling.pending.value + a.orchard.pending.value)
  accountUneconomic a := upTo (a.sapling.dust.value + a.orchard.dust.value)

theorem boundedAdd_eq_some (a b c : Zatoshis) :
    boundedAdd a b = some c ↔ c.value = a.value + b.value := by
  rw [boundedAdd]
  by_cases h : a.value + b.value ≤ maxMoney
  · rw [dif_pos h, Option.some_inj]
    constructor
    · rintro rfl
      rfl
    · intro heq
      exact Zatoshis.value_injective heq.symm
  · rw [dif_neg h]
    refine iff_of_false (fun h => nomatch h) ?_
    intro heq
    exact h (heq ▸ c.le_maxMoney)

theorem plainBalances_documented : plainBalances.Documented eightPlacesValue where
  money := eightPlaces_documented
  add := boundedAdd_eq_some
  total b := rfl
  within a := a.within
  changePending a := by
    show min (a.sapling.change.value + a.orchard.change.value) maxMoney ≤
      a.sapling.change.value + (a.orchard.change.value + (a.unshielded.change.value + 0))
    omega
  valuePending a := by
    show min (a.sapling.pending.value + a.orchard.pending.value) maxMoney ≤
      a.sapling.pending.value + (a.orchard.pending.value + (a.unshielded.pending.value + 0))
    omega

def nothing : PoolFunds := ⟨zero, zero, zero, zero, Nat.zero_le _⟩

/-- The one has shielded funds, some of them pending, and the other some transparent ones and dust. -/
def twoAccounts : Accounts plainBalances :=
  [(⟨1⟩, ⟨⟨upTo 150000000, upTo 50000000, zero, zero, by decide⟩, nothing, nothing, by decide⟩),
    (⟨2⟩, ⟨nothing, ⟨zero, zero, zero, upTo 700, by decide⟩,
      ⟨upTo 25000000, zero, zero, zero, by decide⟩, by decide⟩)]

theorem totals_agree_two :
    zGetTotalBalance plainBalances (fun _ => .ok (some twoAccounts.reverse)) none (some true) =
      .ok ⟨"0.25000000", "2.00000000", "2.25000000"⟩ ∧
    Answered (.ok (some twoAccounts))
      (getBalances plainBalances (fun _ => .ok (some twoAccounts)) none)
      (zGetTotalBalance plainBalances (fun _ => .ok (some twoAccounts.reverse)) none (some true)) :=
  ⟨by decide +kernel, totals_agree plainBalances eightPlacesValue plainBalances_documented
    (fun _ => .ok (some twoAccounts)) (fun _ => .ok (some twoAccounts.reverse)) none
    (.summary (List.reverse_perm _).symm)⟩

end Zallet.GetBalances
