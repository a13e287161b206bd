/-
# `Zallet.Rpc.AccountNumber` — accounts that are named by a number

`parse_account_parameter`.  A number is the ZIP 32 index of an account, as in
zcashd, where all accounts come from one seed.  The code goes through all the
accounts of the wallet, takes the seeds that they come from and the last account
with that index, and answers if there is one seed.

Accounts of a legacy seed are left out, and by its comment so are those from
imported keys.  But the derivation that the code looks for is also known of an
imported spending key, if it was recorded with the key, so such an account can
add a seed, or be the answer.  `resolved_iff_undisturbed` says when it does not.
-/
import Mathlib.Data.Finset.Card
import Zallet.Data.Numeral
import Zallet.Rpc.ListAddresses

/-- The number that is written, without sign, fraction and exponent. -/
def Numeral.natural? (n : Numeral) : Option ℕ :=
  if n.negative = false ∧ n.fraction = none ∧ n.exponent = none then some n.digits else none

/-- `serde_json::Number::as_u64`, which parses what is written. -/
def Numeral.asU64 (n : Numeral) : Option ℕ := n.natural?.filter (· < 2 ^ 64)

namespace Zallet.AccountNumber

open ListAddresses (Zip32Derivation databaseError internalError)

/-! ## The method -/

/-- A JSON value, as far as it is told apart here. -/
inductive JsonValue where
  | number (n : Numeral)
  | string (s : String)
  | other

/-- What is read of the wallet: its accounts, each with its source. -/
structure Wallet where
  getAccountIds : Except String (List AccountUuid)
  getAccount : AccountUuid → Except String (Option ListAddresses.AccountSource)

structure KeyStore where
  listLegacySeedFingerprints : Except String (List SeedFingerprint)

def zcashLegacyAccount : ℕ := 0x7fffffff

def invalidNumber : RpcError :=
  LegacyCode.invalidParameter.withMessage
    "Invalid account number, must be 0 <= account <= (2^31)-2."

def notGenerated (index : ℕ) : RpcError :=
  LegacyCode.wallet.withMessage
    s!"Error: account {index} has not been generated by z_getnewaccount."

def multipleSeeds : RpcError :=
  LegacyCode.wallet.withMessage ("Account numbers are not supported in wallets with multiple " ++
    "seeds. Use the account UUID instead.")

/-- The variables of the loop. -/
structure Scan where
  distinctSeeds : Finset SeedFingerprint
  accountId : Option AccountUuid
  deriving DecidableEq

section
variable (legacySeeds : List SeedFingerprint) (index : ℕ)

/-- What an account adds. -/
def Scan.consider (scan : Scan) (id : AccountUuid) (source : ListAddresses.AccountSource) : Scan :=
  match source.derivation with
  | none => scan
  | some derivation =>
      if derivation.seedFingerprint ∈ legacySeeds then scan
      else
        ⟨insert derivation.seedFingerprint scan.distinctSeeds,
          if derivation.accountIndex = index then some id else scan.accountId⟩

/-- A turn of the loop. -/
def candidate (wallet : Wallet) (scan : Scan) (id : AccountUuid) : Except RpcError Scan := do
  let account ← (wallet.getAccount id).mapError databaseError
  match account with
  | none => .error internalError
  | some source => .ok (scan.consider legacySeeds index id source)

/-- The answer, from what the loop has found. -/
def Scan.answer (scan : Scan) : Except RpcError AccountUuid :=
  if scan.distinctSeeds.card = 1 then scan.accountId.elim (.error (notGenerated index)) .ok
  else .error multipleSeeds

end

/-- `parse_account_parameter` -/
def parseAccountParameter (parseUuid : String → Option AccountUuid) (wallet : Wallet)
    (keystore : KeyStore) : JsonValue → Except RpcError AccountUuid
  | .number n =>
      match n.asU64.filter (· < zcashLegacyAccount) with
      | none => .error invalidNumber
      | some index => do
          let legacySeeds ← keystore.listLegacySeedFingerprints.mapError databaseError
          let ids ← wallet.getAccountIds.mapError databaseError
          let scan ← ids.foldlM (candidate legacySeeds index wallet) ⟨∅, none⟩
          scan.answer index
  | .string s => (parseUuid s).elim (.error RpcErrorCode.invalidParams) .ok
  | .other => .error RpcErrorCode.invalidParams

/-! ## What is asked for -/

/-- An account, and its source. -/
abbrev Account := AccountUuid × ListAddresses.AccountSource

/-- The accounts of a wallet, in the order in which they are listed. -/
abbrev Accounts := List Account

def Wallet.Reads (wallet : Wallet) (accounts : Accounts) : Prop :=
  wallet.getAccountIds = .ok (accounts.map (·.1)) ∧
    ∀ account ∈ accounts, wallet.getAccount account.1 = .ok (some account.2)

/-- The account was derived by the wallet. -/
def isDerived (account : Account) : Bool :=
  match account.2 with
  | .derived _ => true
  | .imported _ => false

/-- The wallet knows the derivation of the account, from a seed that is not a legacy one. -/
def isRecorded (legacySeeds : List SeedFingerprint) (account : Account) : Bool :=
  account.2.derivation.any fun derivation => derivation.seedFingerprint ∉ legacySeeds

def recorded (legacySeeds : List SeedFingerprint) (accounts : Accounts) : Accounts :=
  accounts.filter (isRecorded legacySeeds)

def seeds (accounts : Accounts) : Finset SeedFingerprint :=
  (accounts.filterMap fun account => account.2.derivation.map (·.seedFingerprint)).toFinset

/-- The account has this index. -/
def hasIndex (index : ℕ) (account : Account) : Bool :=
  account.2.derivation.any fun derivation => derivation.accountIndex = index

/-- The last account with this index. -/
def lastWith (index : ℕ) (accounts : Accounts) : Option Account :=
  accounts.reverse.find? (hasIndex index)

section
variable (legacySeeds : List SeedFingerprint) (accounts : Accounts)

/-- The accounts that the wallet derived, from a seed that is not a legacy one. -/
def derived : Accounts := recorded legacySeeds (accounts.filter isDerived)

/-- The derived accounts use one seed, and this is the one with the index. -/
def Numbered (index : ℕ) (id : AccountUuid) : Prop :=
  (∃ seed, seeds (derived legacySeeds accounts) = {seed}) ∧
    ∃ account ∈ derived legacySeeds accounts, account.1 = id ∧ hasIndex index account

/-- For each seed and index, the wallet has derived one account at most. -/
def OneEach : Prop :=
  ∀ account ∈ accounts, ∀ account' ∈ accounts, ∀ derivation,
    account.2 = .derived derivation → account'.2 = .derived derivation → account.1 = account'.1

/-- The imported accounts do not change what a number stands for. -/
structure Undisturbed (index : ℕ) : Prop where
  /-- where the derived accounts use one seed, the others are recorded with that seed as well, and
  of the accounts with the index the last is a derived one -/
  oneSeed : ∀ seed, seeds (derived legacySeeds accounts) = {seed} →
    seeds (recorded legacySeeds accounts) = {seed} ∧
      ∀ account ∈ lastWith index (recorded legacySeeds accounts), isDerived account
  /-- where there are none, the others are not all recorded with the same seed -/
  noSeed : derived legacySeeds accounts = [] →
    ∀ seed, seeds (recorded legacySeeds accounts) ≠ {seed}

end

/-- What a number in the wallet's accounts should be answered with; `others` is the wallet without
the imported accounts. -/
structure Resolved (parse : Wallet → Except RpcError AccountUuid) (wallet others : Wallet)
    (legacySeeds : List SeedFingerprint) (accounts : Accounts) (n : Numeral) : Prop where
  account : ∀ id, parse wallet = .ok id ↔ ∃ index, n.natural? = some index ∧ index ≤ 2 ^ 31 - 2 ∧
    Numbered legacySeeds accounts index id
  unchanged : parse wallet = parse others

/-! ## What the loop finds -/

section
variable {legacySeeds : List SeedFingerprint} {index : ℕ} {accounts : Accounts} {wallet : Wallet}
  {n : Numeral}

/-- The index that a number stands for. -/
def indexOf (n : Numeral) : Option ℕ := n.asU64.filter (· < zcashLegacyAccount)

theorem indexOf_eq_some :
    indexOf n = some index ↔ n.natural? = some index ∧ index ≤ 2 ^ 31 - 2 := by
  rw [indexOf, Numeral.asU64, Option.filter_eq_some_iff, Option.filter_eq_some_iff]
  constructor
  · rintro ⟨⟨hn, -⟩, hlt⟩
    have hlt : index < 0x7fffffff := of_decide_eq_true hlt
    exact ⟨hn, by omega⟩
  · rintro ⟨hn, hle⟩
    exact ⟨⟨hn, decide_eq_true (by omega)⟩, decide_eq_true (Nat.lt_succ_of_le hle)⟩

theorem lastWith_cons {account : Account} :
    lastWith index (account :: accounts) =
      (lastWith index accounts).or (if hasIndex index account then some account else none) := by
  rw [lastWith, lastWith, List.reverse_cons, List.find?_append, List.find?_singleton]

theorem seeds_cons {account : Account} {derivation : Zip32Derivation}
    (h : account.2.derivation = some derivation) :
    seeds (account :: accounts) = insert derivation.seedFingerprint (seeds accounts) := by
  simp [seeds, h]

theorem isRecorded_iff {account : Account} :
    isRecorded legacySeeds account = true ↔
      ∃ derivation, account.2.derivation = some derivation ∧
        derivation.seedFingerprint ∉ legacySeeds := by
  simp [isRecorded, Option.any_eq_true]

theorem consider_skips {account : Account} {scan : Scan}
    (h : ¬ isRecorded legacySeeds account = true) :
    scan.consider legacySeeds index account.1 account.2 = scan := by
  rw [isRecorded_iff, not_exists] at h
  cases hd : account.2.derivation with
  | none => simp only [Scan.consider, hd]
  | some derivation =>
      have hlegacy : derivation.seedFingerprint ∈ legacySeeds := by
        by_contra hnot
        exact h derivation ⟨hd, hnot⟩
      simp only [Scan.consider, hd, hlegacy, if_true]

theorem consider_foldl {scan : Scan} :
    accounts.foldl (fun scan account => scan.consider legacySeeds index account.1 account.2) scan =
      ⟨scan.distinctSeeds ∪ seeds (recorded legacySeeds accounts),
        ((lastWith index (recorded legacySeeds accounts)).map (·.1)).or scan.accountId⟩ := by
  induction accounts generalizing scan with
  | nil => simp [recorded, seeds, lastWith]
  | cons account accounts ih =>
      rw [List.foldl_cons, ih]
      by_cases h : isRecorded legacySeeds account = true
      · obtain ⟨derivation, hd, hlegacy⟩ := isRecorded_iff.mp h
        rw [recorded, recorded, List.filter_cons_of_pos h, seeds_cons hd, lastWith_cons]
        simp only [Scan.consider, hd, hlegacy, if_false, Finset.insert_union, Finset.union_insert,
          hasIndex, Option.any_some, decide_eq_true_eq]
        congr 1
        cases lastWith index (accounts.filter (isRecorded legacySeeds)) with
        | some last => rfl
        | none => by_cases hindex : derivation.accountIndex = index <;> simp [hindex]
      · rw [consider_skips h, recorded, recorded, List.filter_cons_of_neg h]

/-- What the method answers a number with, by the accounts that the loop takes into account. -/
def outcome (index : ℕ) (accounts : Accounts) : Except RpcError AccountUuid :=
  Scan.answer index ⟨seeds accounts, (lastWith index accounts).map (·.1)⟩

theorem scan_eq (h : ∀ account ∈ accounts, wallet.getAccount account.1 = .ok (some account.2))
    {scan : Scan} :
    (accounts.map (·.1)).foldlM (candidate legacySeeds index wallet) scan =
      .ok (accounts.foldl
        (fun scan account => scan.consider legacySeeds index account.1 account.2) scan) := by
  induction accounts generalizing scan with
  | nil => rfl
  | cons account accounts ih =>
      obtain ⟨hfirst, hrest⟩ := List.forall_mem_cons.mp h
      have hstep : candidate legacySeeds index wallet scan account.1 =
          .ok (scan.consider legacySeeds index account.1 account.2) := by
        rw [candidate, hfirst]
        rfl
      rw [List.map_cons, List.foldlM_cons, hstep]
      exact ih hrest

theorem parse_number {parseUuid : String → Option AccountUuid} {keystore : KeyStore}
    (hwallet : wallet.Reads accounts)
    (hkeystore : keystore.listLegacySeedFingerprints = .ok legacySeeds) :
    parseAccountParameter parseUuid wallet keystore (.number n) =
      (indexOf n).elim (.error invalidNumber) fun index =>
        outcome index (recorded legacySeeds accounts) := by
  rw [parseAccountParameter, ← indexOf]
  cases indexOf n with
  | none => rfl
  | some index =>
      show (keystore.listLegacySeedFingerprints.mapError databaseError >>= fun legacySeeds =>
        wallet.getAccountIds.mapError databaseError >>= fun ids =>
          ids.foldlM (candidate legacySeeds index wallet) ⟨∅, none⟩ >>= Scan.answer index) = _
      rw [hkeystore, hwallet.1]
      show ((accounts.map (·.1)).foldlM (candidate legacySeeds index wallet) ⟨∅, none⟩ >>=
        Scan.answer index) = _
      rw [scan_eq hwallet.2, consider_foldl, Finset.empty_union, Option.or_none]
      rfl

/-! ## Outcomes -/

theorem outcome_of_one {seed : SeedFingerprint} (h : seeds accounts = {seed}) :
    outcome index accounts =
      ((lastWith index accounts).map (·.1)).elim (.error (notGenerated index)) .ok := by
  rw [outcome, Scan.answer, if_pos (by rw [h, Finset.card_singleton])]

theorem outcome_of_not_one (h : ∀ seed, seeds accounts ≠ {seed}) :
    outcome index accounts = .error multipleSeeds := by
  rw [outcome, Scan.answer, if_neg]
  intro hcard
  obtain ⟨seed, hseed⟩ := Finset.card_eq_one.mp hcard
  exact h seed hseed

theorem notGenerated_ne : notGenerated index ≠ multipleSeeds := by
  intro h
  have hhead := congrArg (fun e => e.message.toList.head?) h
  simp [notGenerated, multipleSeeds, LegacyCode.withMessage, toString] at hhead

theorem outcome_ne_multiple {seed : SeedFingerprint} (h : seeds accounts = {seed}) :
    outcome index accounts ≠ .error multipleSeeds := by
  rw [outcome_of_one h]
  cases (lastWith index accounts).map (·.1) with
  | none =>
      intro heq
      exact notGenerated_ne (Except.error.inj heq)
  | some id =>
      intro heq
      cases heq

theorem outcome_eq_ok {id : AccountUuid} : outcome index accounts = .ok id ↔
    (∃ seed, seeds accounts = {seed}) ∧ ∃ account ∈ lastWith index accounts, account.1 = id := by
  by_cases hone : ∃ seed, seeds accounts = {seed}
  · obtain ⟨seed, hseed⟩ := hone
    rw [outcome_of_one hseed]
    cases lastWith index accounts with
    | none => simp
    | some account => simp [hseed]
  · rw [not_exists] at hone
    rw [outcome_of_not_one hone]
    refine iff_of_false (by intro h; cases h) ?_
    rintro ⟨⟨seed, hseed⟩, -⟩
    exact hone seed hseed

theorem derived_eq :
    derived legacySeeds accounts = (recorded legacySeeds accounts).filter isDerived := by
  rw [derived, recorded, recorded, List.filter_filter, List.filter_filter]
  simp only [Bool.and_comm]

theorem mem_lastWith {account : Account}
    (h : lastWith index accounts = some account) :
    account ∈ accounts ∧ hasIndex index account = true :=
  ⟨List.mem_reverse.mp (List.mem_of_find?_eq_some h), List.find?_some h⟩

theorem lastWith_isSome {account : Account} (hmem : account ∈ accounts)
    (h : hasIndex index account = true) : ∃ last, lastWith index accounts = some last :=
  Option.isSome_iff_exists.mp (List.find?_isSome.mpr ⟨account, List.mem_reverse.mpr hmem, h⟩)

theorem mem_seeds {seed : SeedFingerprint} : seed ∈ seeds accounts ↔
    ∃ account ∈ accounts, ∃ derivation, account.2.derivation = some derivation ∧
      derivation.seedFingerprint = seed := by
  simp [seeds]

theorem seeds_subset {others : Accounts} (h : others ⊆ accounts) :
    seeds others ⊆ seeds accounts := by
  intro seed hseed
  obtain ⟨account, hmem, hd⟩ := mem_seeds.mp hseed
  exact mem_seeds.mpr ⟨account, h hmem, hd⟩

/-- A derived account, by the derivation it has. -/
theorem derivation_of_derived {account : Account}
    (h : account ∈ derived legacySeeds accounts) :
    account ∈ accounts ∧ ∃ derivation, account.2 = .derived derivation ∧
      derivation.seedFingerprint ∈ seeds (derived legacySeeds accounts) := by
  obtain ⟨hmem, hderived⟩ := List.mem_filter.mp (List.mem_filter.mp h).1
  refine ⟨hmem, ?_⟩
  cases hsource : account.2 with
  | imported purpose => simp [isDerived, hsource] at hderived
  | derived derivation =>
      refine ⟨derivation, rfl, mem_seeds.mpr ⟨account, h, derivation, ?_, rfl⟩⟩
      rw [hsource]
      rfl

theorem hasIndex_derived {account : Account} {derivation : Zip32Derivation}
    (hsource : account.2 = .derived derivation) :
    hasIndex index account = true ↔ derivation.accountIndex = index := by
  simp [hasIndex, hsource, ListAddresses.AccountSource.derivation]

/-- A search that finds an element that is kept finds it among those that are kept. -/
theorem find?_filter_of_kept {α : Type} {p q : α → Bool} {xs : List α}
    (h : ∀ x ∈ xs.find? q, p x = true) : (xs.filter p).find? q = xs.find? q := by
  induction xs with
  | nil => rfl
  | cons x xs ih =>
      rw [List.find?_cons] at h
      by_cases hq : q x = true
      · rw [hq] at h
        rw [List.filter_cons_of_pos (h x rfl), List.find?_cons_of_pos hq, List.find?_cons_of_pos hq]
      · rw [Bool.eq_false_iff.mpr hq] at h
        rw [List.find?_cons_of_neg hq, ← ih h, List.filter_cons]
        split
        · exact List.find?_cons_of_neg hq
        · rfl

theorem lastWith_filter (h : ∀ account ∈ lastWith index accounts, isDerived account = true) :
    lastWith index (accounts.filter isDerived) = lastWith index accounts := by
  rw [lastWith, ← List.filter_reverse]
  exact find?_filter_of_kept h

/-- Without the imported accounts, a number is answered as it should be. -/
theorem outcome_derived (hone : OneEach accounts) {id : AccountUuid} :
    outcome index (derived legacySeeds accounts) = .ok id ↔
      Numbered legacySeeds accounts index id := by
  rw [outcome_eq_ok, Numbered]
  refine and_congr_right ?_
  rintro ⟨seed, hseed⟩
  constructor
  · rintro ⟨account, hlast, rfl⟩
    obtain ⟨hmem, hindex⟩ := mem_lastWith hlast
    exact ⟨account, hmem, rfl, hindex⟩
  · rintro ⟨account, hmem, rfl, hindex⟩
    obtain ⟨last, hlast⟩ := lastWith_isSome hmem hindex
    refine ⟨last, hlast, ?_⟩
    obtain ⟨hmem', hindex'⟩ := mem_lastWith hlast
    obtain ⟨hacc, derivation, hd, hfp⟩ := derivation_of_derived hmem
    obtain ⟨hacc', derivation', hd', hfp'⟩ := derivation_of_derived hmem'
    rw [hseed, Finset.mem_singleton] at hfp hfp'
    rw [hasIndex_derived hd] at hindex
    rw [hasIndex_derived hd'] at hindex'
    have hsame : derivation' = derivation := by
      cases derivation
      cases derivation'
      simp_all
    exact hone last hacc' account hacc derivation (hsame ▸ hd') hd

/-- The accounts of a wallet have ids of their own. -/
theorem Wallet.Reads.apart (h : wallet.Reads accounts)
    {account account' : Account} (hmem : account ∈ accounts)
    (hmem' : account' ∈ accounts) (hid : account.1 = account'.1) : account = account' := by
  have hread := h.2 account hmem
  rw [hid, h.2 account' hmem'] at hread
  have hsource : account'.2 = account.2 := Option.some.inj (Except.ok.inj hread)
  exact Prod.ext hid hsource.symm

theorem derived_subset : derived legacySeeds accounts ⊆ recorded legacySeeds accounts := by
  rw [derived_eq]
  exact List.filter_subset_self _

/-- If the imported accounts do not change the outcome, they are of the seed of the others. -/
theorem seeds_recorded {seed : SeedFingerprint}
    (heq : outcome index (recorded legacySeeds accounts) =
      outcome index (derived legacySeeds accounts))
    (hseed : seeds (derived legacySeeds accounts) = {seed}) :
    seeds (recorded legacySeeds accounts) = {seed} := by
  have hmem : seed ∈ seeds (derived legacySeeds accounts) := hseed ▸ Finset.mem_singleton_self _
  have hmem' := seeds_subset derived_subset hmem
  by_contra hnot
  refine outcome_ne_multiple hseed (heq.symm.trans (outcome_of_not_one ?_))
  intro seed' hseed'
  rw [hseed', Finset.mem_singleton] at hmem'
  exact hnot (hmem' ▸ hseed')

/-- If all the accounts are of one seed, so are the derived ones. -/
theorem seeds_derived {seed : SeedFingerprint} {account : Account}
    (hmem : account ∈ derived legacySeeds accounts)
    (hseed : seeds (recorded legacySeeds accounts) = {seed}) :
    seeds (derived legacySeeds accounts) = {seed} := by
  obtain ⟨-, derivation, -, hfp⟩ := derivation_of_derived hmem
  have hall : seeds (derived legacySeeds accounts) ⊆ {seed} := hseed ▸ seeds_subset derived_subset
  have hsame : derivation.seedFingerprint = seed := Finset.mem_singleton.mp (hall hfp)
  exact Finset.Subset.antisymm hall (Finset.singleton_subset_iff.mpr (hsame ▸ hfp))

/-- If the imported accounts do not change the outcome, the last account with the index is a
derived one. -/
theorem lastWith_derived {seed : SeedFingerprint} {account : Account}
    (hwallet : wallet.Reads accounts)
    (heq : outcome index (recorded legacySeeds accounts) =
      outcome index (derived legacySeeds accounts))
    (hseed : seeds (derived legacySeeds accounts) = {seed})
    (hlast : lastWith index (recorded legacySeeds accounts) = some account) :
    isDerived account = true := by
  rw [outcome_of_one (seeds_recorded heq hseed), outcome_of_one hseed, hlast] at heq
  cases hlast' : lastWith index (derived legacySeeds accounts) with
  | none =>
      rw [hlast'] at heq
      cases heq
  | some last =>
      rw [hlast'] at heq
      have hid : account.1 = last.1 := Except.ok.inj heq
      obtain ⟨hmem, -⟩ := List.mem_filter.mp (mem_lastWith hlast).1
      have hkept := (List.mem_filter.mp (mem_lastWith hlast').1).1
      obtain ⟨hmem', hderived⟩ := List.mem_filter.mp hkept
      rw [hwallet.apart hmem hmem' hid]
      exact hderived

/-- Leaving out the imported accounts changes the outcome unless they are `Undisturbed`. -/
theorem outcome_unchanged_iff (hwallet : wallet.Reads accounts) :
    outcome index (recorded legacySeeds accounts) = outcome index (derived legacySeeds accounts) ↔
      Undisturbed legacySeeds accounts index := by
  constructor
  · intro heq
    constructor
    · intro seed hseed
      refine ⟨seeds_recorded heq hseed, ?_⟩
      intro account hlast
      exact lastWith_derived hwallet heq hseed hlast
    · intro hnone seed hseed
      refine outcome_ne_multiple hseed (heq.trans (outcome_of_not_one ?_))
      intro seed' hseed'
      rw [hnone] at hseed'
      exact Finset.singleton_ne_empty seed' hseed'.symm
  · intro h
    by_cases hone : ∃ seed, seeds (derived legacySeeds accounts) = {seed}
    · obtain ⟨seed, hseed⟩ := hone
      obtain ⟨hrecorded, hlast⟩ := h.oneSeed seed hseed
      rw [outcome_of_one hrecorded, outcome_of_one hseed, derived_eq, lastWith_filter hlast]
    · rw [not_exists] at hone
      rw [outcome_of_not_one hone, outcome_of_not_one]
      intro seed hseed
      cases hd : derived legacySeeds accounts with
      | nil => exact h.noSeed hd seed hseed
      | cons account rest =>
          have hfirst : account ∈ derived legacySeeds accounts := hd ▸ List.mem_cons_self
          exact hone seed (seeds_derived hfirst hseed)

/-- A number is answered as it should be exactly if it is no index at all, or the imported
accounts are `Undisturbed`. -/
theorem resolved_iff_undisturbed (parseUuid : String → Option AccountUuid) (wallet others : Wallet)
    (keystore : KeyStore) (legacySeeds : List SeedFingerprint) (accounts : Accounts) (n : Numeral)
    (hkeystore : keystore.listLegacySeedFingerprints = .ok legacySeeds)
    (hwallet : wallet.Reads accounts) (hothers : others.Reads (accounts.filter isDerived))
    (hone : OneEach accounts) :
    Resolved (fun wallet => parseAccountParameter parseUuid wallet keystore (.number n))
        wallet others legacySeeds accounts n ↔
      ∀ index, n.natural? = some index → index ≤ 2 ^ 31 - 2 →
        Undisturbed legacySeeds accounts index := by
  constructor
  · intro h index hn hle
    have hindex := indexOf_eq_some.mpr ⟨hn, hle⟩
    have hsame := h.unchanged
    rw [parse_number hwallet hkeystore, parse_number hothers hkeystore, hindex] at hsame
    exact (outcome_unchanged_iff hwallet).mp hsame
  · intro h
    have hsame : parseAccountParameter parseUuid wallet keystore (.number n) =
        parseAccountParameter parseUuid others keystore (.number n) := by
      rw [parse_number hwallet hkeystore, parse_number hothers hkeystore]
      cases hindex : indexOf n with
      | none => rfl
      | some index =>
          obtain ⟨hn, hle⟩ := indexOf_eq_some.mp hindex
          exact (outcome_unchanged_iff hwallet).mpr (h index hn hle)
    refine ⟨?_, hsame⟩
    intro id
    rw [hsame, parse_number hothers hkeystore]
    cases hindex : indexOf n with
    | none =>
        refine iff_of_false (by intro heq; cases heq) ?_
        rintro ⟨index, hn, hle, -⟩
        rw [indexOf_eq_some.mpr ⟨hn, hle⟩] at hindex
        cases hindex
    | some index =>
        obtain ⟨hn, hle⟩ := indexOf_eq_some.mp hindex
        refine (outcome_derived hone).trans ?_
        constructor
        · intro hid
          exact ⟨index, hn, hle, hid⟩
        · rintro ⟨index', hn', -, hid⟩
          rw [hn] at hn'
          exact Option.some.inj hn' ▸ hid

/-! ### An imported key of another seed -/

/-- A wallet that reads these accounts. -/
def Wallet.of (accounts : Accounts) : Wallet where
  getAccountIds := .ok (accounts.map (·.1))
  getAccount id := .ok ((accounts.find? (·.1 = id)).map (·.2))

/-- A derived account, and an imported one whose key came with its derivation. -/
def withImported (seed : SeedFingerprint) : Accounts :=
  [(⟨1⟩, .derived ⟨⟨[0xaa]⟩, 0⟩), (⟨2⟩, .imported (.spending (some ⟨seed, 5⟩)))]

theorem withImported_reads (seed : SeedFingerprint) :
    (Wallet.of (withImported seed)).Reads (withImported seed) := by
  refine ⟨rfl, ?_⟩
  intro account hmem
  rcases List.mem_cons.mp hmem with rfl | hmem
  · rfl
  · obtain rfl := List.mem_singleton.mp hmem
    rfl

theorem withImported_others (seed : SeedFingerprint) :
    (Wallet.of ((withImported seed).take 1)).Reads ((withImported seed).filter isDerived) := by
  refine ⟨rfl, ?_⟩
  intro account hmem
  obtain rfl := List.mem_singleton.mp hmem
  rfl

theorem withImported_oneEach (seed : SeedFingerprint) : OneEach (withImported seed) := by
  intro account hmem account' hmem' derivation hd hd'
  rcases List.mem_cons.mp hmem with rfl | hmem
  · rcases List.mem_cons.mp hmem' with rfl | hmem'
    · rfl
    · obtain rfl := List.mem_singleton.mp hmem'
      cases hd'
  · obtain rfl := List.mem_singleton.mp hmem
    cases hd

/-- The number 0. -/
def zero : Numeral := ⟨false, .zero, none, none⟩

/-- With the same seed recorded, the number of the derived account is answered with it. -/
theorem resolved_iff_undisturbed_zero :
    (Wallet.of (withImported ⟨[0xaa]⟩)).Reads (withImported ⟨[0xaa]⟩) ∧
      (Resolved (fun wallet => parseAccountParameter (fun _ => none) wallet ⟨.ok []⟩ (.number zero))
          (Wallet.of (withImported ⟨[0xaa]⟩)) (Wallet.of ((withImported ⟨[0xaa]⟩).take 1)) []
          (withImported ⟨[0xaa]⟩) zero ↔
        ∀ index, zero.natural? = some index → index ≤ 2 ^ 31 - 2 →
          Undisturbed [] (withImported ⟨[0xaa]⟩) index) :=
  ⟨withImported_reads _, resolved_iff_undisturbed _ _ _ _ _ _ _ rfl (withImported_reads _)
    (withImported_others _) (withImported_oneEach _)⟩

/-- With another seed, the wallet is taken for one with two seeds. -/
theorem imported_disturbs :
    (Wallet.of (withImported ⟨[0xbb]⟩)).Reads (withImported ⟨[0xbb]⟩) ∧
      OneEach (withImported ⟨[0xbb]⟩) ∧
      Numbered [] (withImported ⟨[0xbb]⟩) 0 ⟨1⟩ ∧
      parseAccountParameter (fun _ => none) (Wallet.of (withImported ⟨[0xbb]⟩)) ⟨.ok []⟩
        (.number zero) = .error multipleSeeds ∧
      ¬ Resolved
          (fun wallet => parseAccountParameter (fun _ => none) wallet ⟨.ok []⟩ (.number zero))
          (Wallet.of (withImported ⟨[0xbb]⟩)) (Wallet.of ((withImported ⟨[0xbb]⟩).take 1)) []
          (withImported ⟨[0xbb]⟩) zero := by
  have hnumbered : Numbered [] (withImported ⟨[0xbb]⟩) 0 ⟨1⟩ :=
    ⟨⟨⟨[0xaa]⟩, rfl⟩, _, List.mem_cons_self, rfl, rfl⟩
  have hrefused : parseAccountParameter (fun _ => none) (Wallet.of (withImported ⟨[0xbb]⟩)) ⟨.ok []⟩
      (.number zero) = .error multipleSeeds := by
    decide
  refine ⟨withImported_reads _, withImported_oneEach _, hnumbered, hrefused, ?_⟩
  intro h
  have hok := (h.account ⟨1⟩).mpr ⟨0, rfl, by omega, hnumbered⟩
  rw [hrefused] at hok
  cases hok

end

end Zallet.AccountNumber
