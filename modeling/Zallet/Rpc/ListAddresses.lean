/-
# `Zallet.Rpc.ListAddresses` — the addresses that are listed

`listaddresses`: the addresses that the wallet tracks, account by account, under
the source of the account.  The addresses of one account are first told apart by
kind and scope, into five buckets (`classify`), and the buckets are then put
into one of two sources, in the way that the account's derivation allows
(`addAddrs`).

Every tracked address is listed exactly once, under the source of its account,
and no other (`call_lists`), with one exception that the code itself warns of:
the ephemeral addresses of an account of which no derivation is known have no
place in the reply (`Listed`).
-/
import Zallet.Keystore.Keys
import Zallet.Prog.Syntax
import Zallet.Rpc.WalletRead

namespace Zallet.ListAddresses

/-! ## What is read -/

inductive Typecode where
  | p2pkh | p2sh | sapling | orchard
  | unknown (typecode : ℕ)
  deriving DecidableEq, Repr

/-- What is used of the address library, for the wallet's network. -/
structure AddressLib where
  TransparentAddress : Type
  TexAddress : Type
  SaplingAddress : Type
  UnifiedAddress : Type
  encodeTransparent : TransparentAddress → String
  encodeTex : TexAddress → String
  encodeSapling : SaplingAddress → String
  encodeUnified : UnifiedAddress → String
  receiverTypes : UnifiedAddress → List Typecode
  seedFingerprintToString : SeedFingerprint → String
  coinType : ℕ

inductive Address (lib : AddressLib) where
  | transparent (address : lib.TransparentAddress)
  | tex (address : lib.TexAddress)
  | sapling (address : lib.SaplingAddress)
  | unified (address : lib.UnifiedAddress)

/-- How the wallet came to an address: `data_api::AddressSource`. -/
inductive Origin where
  | derived (diversifierIndex : ℕ) (transparentKeyScope : Option TransparentKeyScope)
  | standalone
  deriving DecidableEq, Repr

/-- An imported key has no scope. -/
def Origin.transparentKeyScope : Origin → Option TransparentKeyScope
  | .derived _ scope => scope
  | .standalone => none

structure AddressInfo (lib : AddressLib) where
  address : Address lib
  source : Origin

structure Zip32Derivation where
  seedFingerprint : SeedFingerprint
  accountIndex : ℕ
  deriving DecidableEq, Repr

inductive AccountPurpose where
  | spending (derivation : Option Zip32Derivation)
  | viewOnly
  deriving DecidableEq, Repr

inductive AccountSource where
  | derived (derivation : Zip32Derivation)
  | imported (purpose : AccountPurpose)
  deriving DecidableEq, Repr

structure Account where
  id : AccountUuid
  source : AccountSource
  deriving DecidableEq, Repr

structure Wallet (lib : AddressLib) where
  getAccountIds : Except String (List AccountUuid)
  getAccount : AccountUuid → Except String (Option Account)
  listAddresses : AccountUuid → Except String (List (AddressInfo lib))

/-! ## The reply -/

structure TransparentAddresses where
  addresses : List String
  changeAddresses : List String
  deriving DecidableEq, Repr

structure DerivedTransparentAddresses where
  seedfp : String
  account : ℕ
  addresses : List String
  changeAddresses : List String
  ephemeralAddresses : List String
  deriving DecidableEq, Repr

structure SaplingAddresses where
  zip32KeyPath : Option String
  addresses : List String
  deriving DecidableEq, Repr

structure UnifiedAddress where
  diversifierIndex : ℕ
  receiverTypes : List String
  address : String
  deriving DecidableEq, Repr

structure UnifiedAddresses where
  seedfp : Option String
  account : Option ℕ
  addresses : List UnifiedAddress
  deriving DecidableEq, Repr

structure AddressSource where
  source : String
  transparent : Option TransparentAddresses
  derivedTransparent : List DerivedTransparentAddresses
  sapling : List SaplingAddresses
  unified : List UnifiedAddresses
  deriving DecidableEq, Repr

namespace AddressSource

def empty (source : String) : AddressSource := ⟨source, none, [], [], []⟩

def hasData (s : AddressSource) : Bool :=
  s.transparent.isSome || !s.derivedTransparent.isEmpty || !s.sapling.isEmpty || !s.unified.isEmpty

end AddressSource

/-! ## The method -/

def Typecode.name : Typecode → String
  | .p2pkh => "p2pkh"
  | .p2sh => "p2sh"
  | .sapling => "sapling"
  | .orchard => "orchard"
  | .unknown typecode => s!"unknown({typecode})"

/-- The addresses of one account. -/
structure Buckets where
  transparent : List String
  transparentChange : List String
  transparentEphemeral : List String
  sapling : List String
  unified : List UnifiedAddress
  deriving DecidableEq, Repr

def Buckets.empty : Buckets := ⟨[], [], [], [], []⟩

def internalError : RpcError := RpcErrorCode.internalError "Internal error"

def databaseError (e : String) : RpcError := LegacyCode.database.withMessage e

section
variable (lib : AddressLib)

def Address.encode : Address lib → String
  | .transparent address => lib.encodeTransparent address
  | .tex address => lib.encodeTex address
  | .sapling address => lib.encodeSapling address
  | .unified address => lib.encodeUnified address

def classifyTransparent (buckets : Buckets) (encoded : String) :
    Option TransparentKeyScope → Except RpcError Buckets
  | some .external | none =>
      .ok { buckets with transparent := buckets.transparent ++ [encoded] }
  | some .internal =>
      .ok { buckets with transparentChange := buckets.transparentChange ++ [encoded] }
  | some .ephemeral =>
      .ok { buckets with transparentEphemeral := buckets.transparentEphemeral ++ [encoded] }
  | some (.custom _) => .error internalError

/-- Put an address into its bucket. -/
def classify (buckets : Buckets) (info : AddressInfo lib) : Except RpcError Buckets :=
  match info.address with
  | .transparent _ | .tex _ =>
      classifyTransparent buckets (info.address.encode lib) info.source.transparentKeyScope
  | .sapling _ => .ok { buckets with sapling := buckets.sapling ++ [info.address.encode lib] }
  | .unified address =>
      match info.source with
      | .derived diversifierIndex _ =>
          .ok { buckets with
            unified := buckets.unified ++ [⟨diversifierIndex,
              (lib.receiverTypes address).map Typecode.name, info.address.encode lib⟩] }
      | .standalone => .error internalError

/-- Put the transparent addresses of an account into a source. -/
def addTransparent (buckets : Buckets) (source : AddressSource) :
    Option (String × ℕ) → AddressSource
  | some (seedfp, account) =>
      { source with
        derivedTransparent := source.derivedTransparent ++ [⟨seedfp, account, buckets.transparent,
          buckets.transparentChange, buckets.transparentEphemeral⟩] }
  | none =>
      -- ephemeral addresses are only warned of
      let transparent := source.transparent.getD ⟨[], []⟩
      { source with
        transparent := some ⟨transparent.addresses ++ buckets.transparent,
          transparent.changeAddresses ++ buckets.transparentChange⟩ }

/-- Put the addresses of an account into a source. -/
def addAddrs (buckets : Buckets) (source : AddressSource) (derivation : Option Zip32Derivation) :
    AddressSource :=
  let seedfp := derivation.map fun d => lib.seedFingerprintToString d.seedFingerprint
  let account := derivation.map (·.accountIndex)
  let source :=
    if buckets.transparent = [] ∧ buckets.transparentChange = [] ∧
        buckets.transparentEphemeral = [] then source
    else addTransparent buckets source (seedfp.bind fun seedfp => account.map (seedfp, ·))
  let source :=
    if buckets.sapling = [] then source
    else { source with
      sapling := source.sapling ++
        [⟨account.map fun account => s!"m/32'/{lib.coinType}'/{account}'", buckets.sapling⟩] }
  { source with unified := source.unified ++ [⟨seedfp, account, buckets.unified⟩] }

/-- The derivation of an account's keys, where it is known. -/
def AccountSource.derivation : AccountSource → Option Zip32Derivation
  | .derived derivation => some derivation
  | .imported (.spending derivation) => derivation
  | .imported .viewOnly => none

structure Sources where
  importedWatchonly : AddressSource
  mnemonicSeed : AddressSource
  deriving DecidableEq, Repr

def Sources.empty : Sources := ⟨.empty "imported_watchonly", .empty "mnemonic_seed"⟩

/-- A turn of the loop over the accounts. -/
def addAccount (wallet : Wallet lib) (sources : Sources) (accountId : AccountUuid) :
    Except RpcError Sources := do
  let account ← (wallet.getAccount accountId).mapError databaseError
  match account with
  | none => .error internalError
  | some account => do
      let addresses ← (wallet.listAddresses account.id).mapError databaseError
      let buckets ← addresses.foldlM (classify lib) .empty
      match account.source with
      | .derived derivation =>
          .ok { sources with
            mnemonicSeed := addAddrs lib buckets sources.mnemonicSeed (some derivation) }
      | .imported purpose =>
          .ok { sources with
            importedWatchonly := addAddrs lib buckets sources.importedWatchonly
              (AccountSource.imported purpose).derivation }

/-- `listaddresses` -/
def call (wallet : Wallet lib) : Except RpcError (List AddressSource) := do
  let accountIds ← wallet.getAccountIds.mapError databaseError
  let sources ← accountIds.foldlM (addAccount lib wallet) .empty
  .ok ([sources.importedWatchonly, sources.mnemonicSeed].filter (·.hasData))

end

/-! ## What is listed -/

def TransparentAddresses.listed (t : TransparentAddresses) : List String :=
  t.addresses ++ t.changeAddresses

def DerivedTransparentAddresses.listed (d : DerivedTransparentAddresses) : List String :=
  d.addresses ++ d.changeAddresses ++ d.ephemeralAddresses

/-- All the addresses of a source. -/
def AddressSource.listed (s : AddressSource) : List String :=
  s.transparent.elim [] TransparentAddresses.listed ++
    s.derivedTransparent.flatMap DerivedTransparentAddresses.listed ++
    s.sapling.flatMap SaplingAddresses.addresses ++
    s.unified.flatMap fun u => u.addresses.map (·.address)

/-- The same, with the source that they are under. -/
def AddressSource.entries (s : AddressSource) : List (String × String) :=
  s.listed.map fun address => (s.source, address)

def Buckets.listed (derived : Bool) (b : Buckets) : List String :=
  b.transparent ++ b.transparentChange ++ (if derived then b.transparentEphemeral else []) ++
    b.sapling ++ b.unified.map (·.address)

def AccountSource.name : AccountSource → String
  | .derived _ => "mnemonic_seed"
  | .imported _ => "imported_watchonly"

section
variable (lib : AddressLib)

/-- A transparent address of ephemeral scope. -/
def AddressInfo.ephemeral (info : AddressInfo lib) : Bool :=
  match info.address with
  | .transparent _ | .tex _ => info.source.transparentKeyScope = some .ephemeral
  | _ => false

/-- All the tracked addresses of an account, under its source. -/
def tracked (account : Account × List (AddressInfo lib)) : List (String × String) :=
  account.2.map fun info => (account.1.source.name, info.address.encode lib)

/-- Those that have a place in the reply. -/
def Listed (derivation : Option Zip32Derivation) (info : AddressInfo lib) : Bool :=
  derivation.isSome || !info.ephemeral lib

def trackedListed (account : Account × List (AddressInfo lib)) : List (String × String) :=
  tracked lib (account.1, account.2.filter (Listed lib account.1.source.derivation))

/-- The accounts of the wallet, each with its tracked addresses. -/
def Reads (wallet : Wallet lib) (accountIds : List AccountUuid)
    (accounts : List (Account × List (AddressInfo lib))) : Prop :=
  wallet.getAccountIds = .ok accountIds ∧
    List.Forall₂ (fun accountId account => wallet.getAccount accountId = .ok (some account.1) ∧
      wallet.listAddresses account.1.id = .ok account.2) accountIds accounts

end

section
variable {lib : AddressLib}

theorem bind_eq_ok {α β ε : Type} {x : Except ε α} {f : α → Except ε β} {b : β} :
    x >>= f = .ok b ↔ ∃ a, x = .ok a ∧ f a = .ok b := by
  cases x with
  | error e => exact iff_of_false (by rintro ⟨⟩) (by rintro ⟨_, ⟨⟩, _⟩)
  | ok a => exact ⟨fun h => ⟨a, rfl, h⟩, fun ⟨_, ha, h⟩ => by cases ha; exact h⟩

/-! ### The buckets -/

theorem Buckets.count_listed {derived : Bool} {b : Buckets} {x : String} :
    (b.listed derived).count x = b.transparent.count x + b.transparentChange.count x +
      (if derived then b.transparentEphemeral else []).count x + b.sapling.count x +
      (b.unified.map (·.address)).count x := by
  simp only [Buckets.listed, List.count_append]

/-- A transparent address goes into one bucket. -/
theorem classifyTransparent_listed {derived : Bool} {buckets buckets' : Buckets} {encoded : String}
    {scope : Option TransparentKeyScope}
    (h : classifyTransparent buckets encoded scope = .ok buckets') :
    (buckets'.listed derived).Perm (buckets.listed derived ++
      if derived || scope ≠ some .ephemeral then [encoded] else []) := by
  refine List.perm_iff_count.mpr ?_
  intro x
  rw [List.count_append, Buckets.count_listed, Buckets.count_listed]
  cases scope with
  | none =>
      cases h
      simp
      omega
  | some scope =>
      cases scope with
      | custom index => cases h
      | external | internal =>
          cases h
          simp
          omega
      | ephemeral =>
          cases h
          cases derived with
          | false => simp
          | true =>
              simp
              omega

theorem classify_listed {derivation : Option Zip32Derivation} {buckets buckets' : Buckets}
    {info : AddressInfo lib} (h : classify lib buckets info = .ok buckets') :
    (buckets'.listed derivation.isSome).Perm (buckets.listed derivation.isSome ++
      if Listed lib derivation info then [info.address.encode lib] else []) := by
  obtain ⟨address, source⟩ := info
  cases address with
  | transparent address | tex address =>
      have hlisted : (buckets'.listed derivation.isSome).Perm _ := classifyTransparent_listed h
      simpa [Listed, AddressInfo.ephemeral] using hlisted
  | sapling address =>
      cases h
      refine List.perm_iff_count.mpr ?_
      intro x
      rw [List.count_append, Buckets.count_listed, Buckets.count_listed]
      simp [Listed, AddressInfo.ephemeral]
      omega
  | unified address =>
      cases source with
      | standalone => cases h
      | derived diversifierIndex scope =>
          cases h
          refine List.perm_iff_count.mpr ?_
          intro x
          rw [List.count_append, Buckets.count_listed, Buckets.count_listed]
          simp [Listed, AddressInfo.ephemeral]
          omega

/-- The buckets hold the addresses that were put into them. -/
theorem classified_listed {derivation : Option Zip32Derivation} {buckets buckets' : Buckets}
    {infos : List (AddressInfo lib)} (h : infos.foldlM (classify lib) buckets = .ok buckets') :
    (buckets'.listed derivation.isSome).Perm (buckets.listed derivation.isSome ++
      (infos.filter (Listed lib derivation)).map (·.address.encode lib)) := by
  induction infos generalizing buckets with
  | nil =>
      cases h
      simp
  | cons info infos ih =>
      rw [List.foldlM_cons, bind_eq_ok] at h
      obtain ⟨next, hnext, hrest⟩ := h
      refine (ih hrest).trans ?_
      refine ((classify_listed hnext).append_right _).trans (List.Perm.of_eq ?_)
      rw [List.append_assoc]
      congr 1
      by_cases hlisted : Listed lib derivation info
      · simp [hlisted]
      · simp [hlisted]

/-! ### The sources -/

theorem addTransparent_listed {buckets : Buckets} {source : AddressSource}
    {derivation : Option (String × ℕ)} :
    (addTransparent buckets source derivation).listed.Perm (source.listed ++
      (buckets.transparent ++ buckets.transparentChange ++
        if derivation.isSome then buckets.transparentEphemeral else [])) := by
  refine List.perm_iff_count.mpr ?_
  intro x
  cases derivation with
  | some derivation =>
      simp [addTransparent, AddressSource.listed, DerivedTransparentAddresses.listed]
      omega
  | none =>
      obtain ⟨name, transparent, derivedTransparent, sapling, unified⟩ := source
      cases transparent with
      | none =>
          simp [addTransparent, AddressSource.listed, TransparentAddresses.listed]
          omega
      | some transparent =>
          simp [addTransparent, AddressSource.listed, TransparentAddresses.listed]
          omega

theorem addTransparent_source {buckets : Buckets} {source : AddressSource}
    {derivation : Option (String × ℕ)} :
    (addTransparent buckets source derivation).source = source.source := by
  cases derivation <;> rfl

/-- A source has the addresses of an account that were put into it. -/
theorem addAddrs_listed {buckets : Buckets} {source : AddressSource}
    {derivation : Option Zip32Derivation} :
    (addAddrs lib buckets source derivation).listed.Perm
      (source.listed ++ buckets.listed derivation.isSome) := by
  have hzip : ((derivation.map fun d => lib.seedFingerprintToString d.seedFingerprint).bind
      fun seedfp => (derivation.map (·.accountIndex)).map (seedfp, ·)).isSome =
        derivation.isSome := by
    cases derivation <;> rfl
  unfold addAddrs
  dsimp only
  generalize (derivation.map fun d => lib.seedFingerprintToString d.seedFingerprint).bind
      (fun seedfp => (derivation.map (·.accountIndex)).map (seedfp, ·)) = zipped at hzip ⊢
  -- first the transparent ones, then the Sapling ones, then the unified ones
  have htransparent : (if buckets.transparent = [] ∧ buckets.transparentChange = [] ∧
      buckets.transparentEphemeral = [] then source else
        addTransparent buckets source zipped).listed.Perm (source.listed ++
          (buckets.transparent ++ buckets.transparentChange ++
            if derivation.isSome then buckets.transparentEphemeral else [])) := by
    split
    case isTrue hnone =>
      obtain ⟨h₁, h₂, h₃⟩ := hnone
      rw [h₁, h₂, h₃]
      simp
    case isFalse =>
      rw [← hzip]
      exact addTransparent_listed
  generalize (if buckets.transparent = [] ∧ buckets.transparentChange = [] ∧
    buckets.transparentEphemeral = [] then source else
      addTransparent buckets source zipped) = withTransparent at htransparent ⊢
  refine List.perm_iff_count.mpr ?_
  intro x
  have hcount := htransparent.count_eq x
  rw [List.count_append, List.count_append, List.count_append] at hcount
  rw [List.count_append, Buckets.count_listed]
  by_cases hsapling : buckets.sapling = []
  · rw [if_pos hsapling, hsapling]
    simp [AddressSource.listed] at hcount ⊢
    omega
  · rw [if_neg hsapling]
    simp [AddressSource.listed] at hcount ⊢
    omega

theorem addAddrs_source {buckets : Buckets} {source : AddressSource}
    {derivation : Option Zip32Derivation} :
    (addAddrs lib buckets source derivation).source = source.source := by
  have htransparent : ∀ zipped, (if buckets.transparent = [] ∧ buckets.transparentChange = [] ∧
      buckets.transparentEphemeral = [] then source else
        addTransparent buckets source zipped).source = source.source := by
    intro zipped
    split
    case isTrue => rfl
    case isFalse => exact addTransparent_source
  unfold addAddrs
  dsimp only
  split
  case isTrue => exact htransparent _
  case isFalse => exact htransparent _

/-- The sources go by their names. -/
structure Named (sources : Sources) : Prop where
  importedWatchonly : sources.importedWatchonly.source = "imported_watchonly"
  mnemonicSeed : sources.mnemonicSeed.source = "mnemonic_seed"

def Sources.entries (sources : Sources) : List (String × String) :=
  sources.importedWatchonly.entries ++ sources.mnemonicSeed.entries

theorem addAddrs_entries {infos : List (AddressInfo lib)} {buckets : Buckets}
    {source : AddressSource} (account : Account)
    (h : infos.foldlM (classify lib) .empty = .ok buckets)
    (hname : account.source.name = source.source) :
    (addAddrs lib buckets source account.source.derivation).entries.Perm
      (source.entries ++ trackedListed lib (account, infos)) := by
  have hbuckets : (buckets.listed account.source.derivation.isSome).Perm _ := classified_listed h
  have hlisted : (addAddrs lib buckets source account.source.derivation).listed.Perm _ :=
    addAddrs_listed
  rw [AddressSource.entries, AddressSource.entries, addAddrs_source, trackedListed, tracked, hname]
  refine ((hlisted.trans (hbuckets.append_left _)).map _).trans (List.Perm.of_eq ?_)
  simp [Buckets.listed, Buckets.empty, Function.comp_def]

/-- A turn of the loop adds what is tracked for its account. -/
theorem addAccount_entries {wallet : Wallet lib} {sources sources' : Sources}
    {accountId : AccountUuid} (hnamed : Named sources)
    (h : addAccount lib wallet sources accountId = .ok sources') :
    Named sources' ∧ ∃ account, wallet.getAccount accountId = .ok (some account.1) ∧
      wallet.listAddresses account.1.id = .ok account.2 ∧
      sources'.entries.Perm (sources.entries ++ trackedListed lib account) := by
  unfold addAccount at h
  obtain ⟨account, haccount, h⟩ := bind_eq_ok.mp h
  rw [Prog.mapError_eq_ok] at haccount
  cases account with
  | none => cases h
  | some account =>
      obtain ⟨infos, hinfos, h⟩ := bind_eq_ok.mp h
      rw [Prog.mapError_eq_ok] at hinfos
      obtain ⟨buckets, hbuckets, h⟩ := bind_eq_ok.mp h
      obtain ⟨id, source⟩ := account
      cases source with
      | derived derivation =>
          cases h
          refine ⟨⟨hnamed.importedWatchonly, addAddrs_source.trans hnamed.mnemonicSeed⟩,
            (⟨id, .derived derivation⟩, infos), haccount, hinfos, ?_⟩
          have hadded := addAddrs_entries ⟨id, .derived derivation⟩ hbuckets
            hnamed.mnemonicSeed.symm
          rw [Sources.entries, Sources.entries, List.append_assoc]
          exact hadded.append_left _
      | imported purpose =>
          cases h
          refine ⟨⟨addAddrs_source.trans hnamed.importedWatchonly, hnamed.mnemonicSeed⟩,
            (⟨id, .imported purpose⟩, infos), haccount, hinfos, ?_⟩
          have hadded := addAddrs_entries ⟨id, .imported purpose⟩ hbuckets
            hnamed.importedWatchonly.symm
          rw [Sources.entries, Sources.entries]
          refine (hadded.append_right _).trans ?_
          rw [List.append_assoc, List.append_assoc]
          exact (List.perm_append_comm).append_left _

theorem addAccounts_entries {wallet : Wallet lib} {sources sources' : Sources}
    {accountIds : List AccountUuid} (hnamed : Named sources)
    (h : accountIds.foldlM (addAccount lib wallet) sources = .ok sources') :
    ∃ accounts, List.Forall₂ (fun accountId (account : Account × List (AddressInfo lib)) =>
      wallet.getAccount accountId = .ok (some account.1) ∧
        wallet.listAddresses account.1.id = .ok account.2) accountIds accounts ∧
      sources'.entries.Perm (sources.entries ++ accounts.flatMap (trackedListed lib)) := by
  induction accountIds generalizing sources with
  | nil =>
      cases h
      exact ⟨[], .nil, by simp⟩
  | cons accountId accountIds ih =>
      rw [List.foldlM_cons, bind_eq_ok] at h
      obtain ⟨next, hnext, hrest⟩ := h
      obtain ⟨hnamed', account, haccount, hinfos, hadded⟩ := addAccount_entries hnamed hnext
      obtain ⟨accounts, hreads, hall⟩ := ih hnamed' hrest
      refine ⟨account :: accounts, .cons ⟨haccount, hinfos⟩ hreads, ?_⟩
      rw [List.flatMap_cons, ← List.append_assoc]
      exact hall.trans (hadded.append_right _)

/-- A source that is left out of the reply lists nothing. -/
theorem entries_of_not_hasData {s : AddressSource} (h : s.hasData = false) : s.entries = [] := by
  simp only [AddressSource.hasData, Bool.or_eq_false_iff, Bool.not_eq_false',
    Option.isSome_eq_false_iff, Option.isNone_iff_eq_none, List.isEmpty_iff] at h
  obtain ⟨⟨⟨htransparent, hderived⟩, hsapling⟩, hunified⟩ := h
  simp [AddressSource.entries, AddressSource.listed, htransparent, hderived, hsapling, hunified]

theorem flatMap_filter_hasData {sources : List AddressSource} :
    (sources.filter (·.hasData)).flatMap AddressSource.entries =
      sources.flatMap AddressSource.entries := by
  induction sources with
  | nil => rfl
  | cons s sources ih =>
      cases hdata : s.hasData with
      | true => simp [hdata, ih]
      | false => simp [hdata, ih, entries_of_not_hasData hdata]

end

/-- Every tracked address is listed exactly once, under the source of its account, and nothing else
is; but for the ephemeral addresses of accounts without a derivation, which are not. -/
theorem call_lists (lib : AddressLib) (wallet : Wallet lib) (result : List AddressSource)
    (h : call lib wallet = .ok result) :
    ∃ accountIds accounts, Reads lib wallet accountIds accounts ∧
      (result.flatMap AddressSource.entries).Perm (accounts.flatMap (trackedListed lib)) := by
  unfold call at h
  obtain ⟨accountIds, hids, h⟩ := bind_eq_ok.mp h
  rw [Prog.mapError_eq_ok] at hids
  obtain ⟨sources, hsources, h⟩ := bind_eq_ok.mp h
  cases h
  obtain ⟨accounts, hreads, hall⟩ := addAccounts_entries ⟨rfl, rfl⟩ hsources
  refine ⟨accountIds, accounts, ⟨hids, hreads⟩, ?_⟩
  have hempty : Sources.empty.entries = [] := rfl
  rw [hempty, List.nil_append] at hall
  rw [flatMap_filter_hasData]
  simpa [Sources.entries] using hall

/-! ## Two wallets -/

/-- Addresses are their encodings. -/
def plainLib : AddressLib where
  TransparentAddress := String
  TexAddress := String
  SaplingAddress := String
  UnifiedAddress := String
  encodeTransparent := id
  encodeTex := id
  encodeSapling := id
  encodeUnified := id
  receiverTypes _ := [.orchard, .sapling, .p2pkh]
  seedFingerprintToString _ := "zip32seedfp1uc59thq5rxtjutv06dymwsx7dfna3nm0a2h7jr8j7dazx3zkdnxqqgyu24"
  coinType := 133

/-- An account with a receiving, a change and an ephemeral address. -/
def threeScopes : List (AddressInfo plainLib) :=
  [⟨.transparent "t1SRgDBrpcd4LNMUhGbBfh8S8rs7G335v6R", .derived 0 (some .external)⟩,
    ⟨.transparent "t1Qu7cnr9MtsVk3ZKDvPXhNtJS5BH8ygA35", .derived 0 (some .internal)⟩,
    ⟨.transparent "t1KzZ5n2TPEGYXTZ3WYGL1AYEumEQaRoHaL", .derived 0 (some .ephemeral)⟩]

/-- A wallet of one account that has them. -/
def walletOf (source : AccountSource) : Wallet plainLib where
  getAccountIds := .ok [⟨1⟩]
  getAccount id := .ok (if id = ⟨1⟩ then some ⟨id, source⟩ else none)
  listAddresses _ := .ok threeScopes

theorem call_lists_derived : ∃ result accountIds accounts,
    call plainLib (walletOf (.derived ⟨⟨[]⟩, 0⟩)) = .ok result ∧
      Reads plainLib (walletOf (.derived ⟨⟨[]⟩, 0⟩)) accountIds accounts ∧
      (result.flatMap AddressSource.entries).Perm (accounts.flatMap (trackedListed plainLib)) := by
  have hcall : call plainLib (walletOf (.derived ⟨⟨[]⟩, 0⟩)) =
      .ok [⟨"mnemonic_seed", none, [⟨plainLib.seedFingerprintToString ⟨[]⟩, 0,
        ["t1SRgDBrpcd4LNMUhGbBfh8S8rs7G335v6R"], ["t1Qu7cnr9MtsVk3ZKDvPXhNtJS5BH8ygA35"],
        ["t1KzZ5n2TPEGYXTZ3WYGL1AYEumEQaRoHaL"]⟩], [],
        [⟨some (plainLib.seedFingerprintToString ⟨[]⟩), some 0, []⟩]⟩] := by decide +kernel
  obtain ⟨accountIds, accounts, hreads, hperm⟩ := call_lists plainLib _ _ hcall
  exact ⟨_, accountIds, accounts, hcall, hreads, hperm⟩

/-- The ephemeral address of a view-only account is tracked and not listed. -/
theorem ephemeral_unlisted : ∃ result accountIds accounts,
    call plainLib (walletOf (.imported .viewOnly)) = .ok result ∧
      Reads plainLib (walletOf (.imported .viewOnly)) accountIds accounts ∧
      ("imported_watchonly", "t1KzZ5n2TPEGYXTZ3WYGL1AYEumEQaRoHaL") ∈
        accounts.flatMap (tracked plainLib) ∧
      ("imported_watchonly", "t1KzZ5n2TPEGYXTZ3WYGL1AYEumEQaRoHaL") ∉
        result.flatMap AddressSource.entries := by
  have hcall : call plainLib (walletOf (.imported .viewOnly)) =
      .ok [⟨"imported_watchonly", some ⟨["t1SRgDBrpcd4LNMUhGbBfh8S8rs7G335v6R"],
        ["t1Qu7cnr9MtsVk3ZKDvPXhNtJS5BH8ygA35"]⟩, [], [], [⟨none, none, []⟩]⟩] := by
    decide +kernel
  refine ⟨_, [⟨1⟩], [(⟨⟨1⟩, .imported .viewOnly⟩, threeScopes)], hcall, ⟨rfl, ?_⟩, ?_, ?_⟩
  · exact .cons ⟨rfl, rfl⟩ .nil
  · decide +kernel
  · decide +kernel

end Zallet.ListAddresses
