/-
# `Zallet.Rpc.ListUnspent` — the outputs that are listed

`json_rpc/methods/list_unspent.rs`: the unspent outputs of all accounts, by how
often they are confirmed and by the addresses they were received at.  The three
pools are gone through one after the other, each with the filters written out
again, and not in the same way:

  * transparent outputs are bounded below by the query, and by nothing else;
  * notes are dropped when they are mined too late or confirmed too often, and
    kept only when every listed address received them.

`Listed` is what these filters come to and `Wanted` what the parameters ask
for.  `call_lists_wanted_iff` says of which wallets and parameters they agree
(`Agreeable`); with the default parameters they do not, on a note that is not
mined yet (`call_lists_unmined`).
-/
import Zallet.Rpc.WalletRead
import Mathlib.Data.List.Nodup
import Mathlib.Data.List.ReduceOption

namespace Zallet.ListUnspent

open RpcResult

/-- Ids of transactions and accounts are the ids themselves; they are told apart by their text. -/
structure UnspentOutput (lib : AddressLib) where
  txid : TxId
  pool : String
  outindex : ℕ
  confirmations : ℕ
  isWatchOnly : Bool
  address : Option String
  accountUuid : AccountUuid
  walletInternal : Bool
  value : lib.Decimal
  valueZat : ℕ
  memo : Option String
  memoStr : Option String

abbrev Response (α : Type) := ExceptT ErrorObject (Except String) α

structure Params where
  minconf : Option ℕ
  maxconf : Option ℕ
  includeWatchonly : Option Bool
  addresses : Option (List String)
  asOfHeight : Option ℤ
  deriving DecidableEq, Repr

/-! ## The parameters -/

def parseAsOfHeight : Option ℤ → Except RpcError (Option ℕ)
  | none => .ok none
  | some h =>
      if h = -1 then .ok none
      else if h < 0 then
        .error (LegacyCode.invalidParameter.withMessage
          "Can not perform the query as of a negative block height")
      else if h = 0 then
        .error (LegacyCode.invalidParameter.withMessage
          "Can not perform the query as of the genesis block")
      else if h < 2 ^ 32 then .ok (some h.toNat)
      else
        .error (LegacyCode.invalidParameter.withMessage "`as_of_height` parameter out of range")

def parseMinconf (minconf : Option ℕ) (default : ℕ) (asOfHeight : Option ℕ) :
    Except RpcError ℕ :=
  match minconf with
  | none => .ok default
  | some 0 =>
      if asOfHeight.isSome then
        .error (LegacyCode.invalidParameter.withMessage
          "Require a minimum of 1 confirmation when `asOfHeight` is provided")
      else .ok 0
  | some d => .ok d

def databaseError (message : String) (e : String) : ErrorObject :=
  ⟨LegacyCode.database.withMessage message, some e⟩

/-- What the parameters ask for. -/
structure Query (lib : AddressLib) where
  minconf : ℕ
  maxconf : Option ℕ
  addresses : List lib.Address
  targetHeight : ℕ

/-- `TargetHeight::from(h + 1)`; the addition saturates. -/
def targetHeightAfter (h : ℕ) : ℕ := min (h + 1) (2 ^ 32 - 1)

section
variable {lib : AddressLib} (wallet : WalletRead lib)

/-- The first part of `call`; there is nothing to list where the wallet has no chain height. -/
def parseParams (params : Params) : Response (Option (Query lib)) := do
  let asOfHeight ← mapErr (parseAsOfHeight params.asOfHeight) RpcError.noData
  let minconf ← mapErr (parseMinconf params.minconf 1 asOfHeight) RpcError.noData
  let addresses ← (params.addresses.getD []).mapM fun addr =>
    okOr (lib.decode addr)
      ⟨LegacyCode.invalidParameter.withMessage "Not a valid Zcash address", some addr⟩
  let height ← match asOfHeight with
    | none => mapErr wallet.chainHeight (databaseError "WalletDb::chain_height failed")
    | some h => pure (some h)
  pure (height.map fun h => ⟨minconf, params.maxconf, addresses, targetHeightAfter h⟩)

/-! ## Transparent outputs -/

def confirmationsPolicy : ℕ → ConfirmationsPolicy
  | 0 => .newSymmetrical 1 true
  | c + 1 => .newSymmetrical c.succPNat false

def transparentOutput (q : Query lib) (account : AccountUuid) (isWatchOnly : Bool) (utxo : Utxo) :
    Response (UnspentOutput lib) := do
  let metadata ← mapErr (wallet.getTransparentAddressMetadata account utxo.recipientAddress)
    (databaseError "WalletDb::get_transparent_address_metadata failed")
  pure
    { txid := utxo.outpoint.txid
      pool := "transparent"
      outindex := utxo.outpoint.n
      confirmations := confirmationsAt q.targetHeight utxo.minedHeight
      isWatchOnly
      address := utxo.txoutRecipientAddress.map lib.encodeTransparent
      accountUuid := account
      walletInternal := metadata.any (·.scope = some .internal)
      value := valueFromZatoshis lib.toMoneyLib utxo.value
      valueZat := utxo.value.value
      memo := none
      memoStr := none }

/-- The outputs at all the account's addresses. -/
def accountUtxos (q : Query lib) (account : AccountUuid) : Response (List Utxo) := do
  let receivers ← mapErr (wallet.getTransparentReceivers account true true)
    (databaseError "WalletDb::get_transparent_receivers failed")
  let utxos ← receivers.mapM fun receiver =>
    mapErr (wallet.getSpendableTransparentOutputs receiver.1 q.targetHeight
        (confirmationsPolicy q.minconf) .all)
      (databaseError "WalletDb::get_spendable_transparent_outputs failed")
  pure utxos.flatten

/-! ## Notes -/

/-- A note's memo in hexadecimal, and as a text if it is one. -/
def getMemo (note : NoteId) : Response (String × Option String) := do
  let memo ← mapErr (wallet.getMemo note) (databaseError "WalletDb::get_memo failed")
  pure (memo.elim ("TODO: Always enhance every note", none) fun memo =>
    (lib.hexEncode (lib.encodeMemo memo), memo.text?))

/-- Too few confirmations according to `minconf`, or too many according to `maxconf`. -/
def skips (q : Query lib) (minedHeight : Option ℕ) : Bool :=
  minedHeight.any (q.targetHeight - q.minconf < ·) ||
    q.maxconf.any (· < confirmationsAt q.targetHeight minedHeight)

/-- The address that is told of a note, encoded. -/
def noteAddress {Recipient : Type} (encode : Recipient → Response String)
    (note : ReceivedNote Recipient) : Response (Option String) :=
  if note.spendingKeyScope = .internal then pure none else some <$> encode note.recipient

/-- A note that is not skipped. -/
def renderNote {Recipient : Type} (pool : ShieldedPool) (poolName : String)
    (encode : Recipient → Response String) (q : Query lib) (account : AccountUuid)
    (isWatchOnly : Bool) (note : ReceivedNote Recipient) (minedHeight : Option ℕ) :
    Response (UnspentOutput lib) := do
  let memo ← getMemo wallet ⟨note.txid, pool, note.outputIndex⟩
  let address ← noteAddress encode note
  pure
    { txid := note.txid
      pool := poolName
      outindex := note.outputIndex
      confirmations := confirmationsAt q.targetHeight minedHeight
      isWatchOnly
      address
      accountUuid := account
      walletInternal := note.spendingKeyScope = .internal
      value := valueFromZatoshis lib.toMoneyLib note.value
      valueZat := note.value.value
      memo := some memo.1
      memoStr := memo.2 }

/-- What the two pools of notes do alike. -/
def noteOutput {Recipient : Type} (pool : ShieldedPool) (poolName : String)
    (encode : Recipient → Response String) (q : Query lib) (account : AccountUuid)
    (isWatchOnly : Bool) (note : ReceivedNote Recipient) :
    Response (Option (UnspentOutput lib)) := do
  let minedHeight ← mapErr (wallet.getTxHeight note.txid)
    (databaseError "WalletDb::get_tx_height failed")
  if skips q minedHeight then pure none
  else some <$> renderNote wallet pool poolName encode q account isWatchOnly note minedHeight

section
variable (lib)

def encodeSapling (recipient : lib.SaplingAddress) : Response String :=
  pure (lib.encodeSapling recipient)

/-- A unified address with this receiver only. -/
def encodeOrchard (recipient : lib.OrchardAddress) : Response String := do
  let address ← expect (lib.fromReceivers (some recipient) none none) "valid"
  pure (lib.encodeUnified address)

end

def saplingOutput (q : Query lib) (account : AccountUuid) (isWatchOnly : Bool)
    (note : ReceivedNote lib.SaplingAddress) : Response (Option (UnspentOutput lib)) :=
  noteOutput wallet .sapling "sapling" (encodeSapling lib) q account isWatchOnly note

def orchardOutput (q : Query lib) (account : AccountUuid) (isWatchOnly : Bool)
    (note : ReceivedNote lib.OrchardAddress) : Response (Option (UnspentOutput lib)) :=
  noteOutput wallet .orchard "orchard" (encodeOrchard lib) q account isWatchOnly note

def saplingMatches (q : Query lib) (note : ReceivedNote lib.SaplingAddress) : Bool :=
  q.addresses.all fun addr => lib.toSaplingAddress addr = some note.recipient

def orchardMatches (q : Query lib) (note : ReceivedNote lib.OrchardAddress) : Bool :=
  q.addresses.all fun addr => (lib.asUnderstoodUnifiedReceivers addr).any fun
    | .orchard address => address = note.recipient
    | _ => false

/-! ## The call -/

def accountOutputs (q : Query lib) (account : AccountUuid) :
    Response (List (UnspentOutput lib)) := do
  let found ← mapErr (wallet.getAccount account) (databaseError "WalletDb::get_account failed")
  -- The account may have been deleted since the ids were read.
  let purpose ← okOr found (RpcErrorCode.internalError "Internal error").noData
  let isWatchOnly : Bool := purpose ≠ .spending
  let utxos ← accountUtxos wallet q account
  let transparent ← utxos.mapM (transparentOutput wallet q account isWatchOnly)
  let notes ← mapErr (wallet.selectUnspentNotes account [.sapling, .orchard] q.targetHeight)
    (databaseError "WalletDb::select_unspent_notes failed")
  let sapling ← (notes.sapling.filter (saplingMatches q)).mapM
    (saplingOutput wallet q account isWatchOnly)
  let orchard ← (notes.orchard.filter (orchardMatches q)).mapM
    (orchardOutput wallet q account isWatchOnly)
  pure (transparent ++ sapling.reduceOption ++ orchard.reduceOption)

def call (params : Params) : Response (List (UnspentOutput lib)) := do
  match ← parseParams wallet params with
  | none => pure []
  | some q =>
      let accounts ← mapErr wallet.getAccountIds (databaseError "WalletDb::get_account_ids failed")
      let outputs ← accounts.mapM (accountOutputs wallet q)
      pure outputs.flatten

end

/-! ## What a wallet holds -/

/-- An unspent output of the wallet. -/
inductive HeldOutput (lib : AddressLib) where
  | transparent (utxo : Utxo)
  | sapling (note : ReceivedNote lib.SaplingAddress)
  | orchard (note : ReceivedNote lib.OrchardAddress)
  | ironwood (note : ReceivedNote lib.OrchardAddress)

/-- An output's pool, transaction and index. -/
structure OutputId where
  pool : String
  txid : TxId
  outindex : ℕ
  deriving DecidableEq, Repr

def UnspentOutput.id {lib : AddressLib} (o : UnspentOutput lib) : OutputId :=
  ⟨o.pool, o.txid, o.outindex⟩

namespace HeldOutput

variable {lib : AddressLib}

def id : HeldOutput lib → OutputId
  | transparent utxo => ⟨"transparent", utxo.outpoint.txid, utxo.outpoint.n⟩
  | sapling note => ⟨"sapling", note.txid, note.outputIndex⟩
  | orchard note => ⟨"orchard", note.txid, note.outputIndex⟩
  | ironwood note => ⟨"ironwood", note.txid, note.outputIndex⟩

/-- The output was received by the address. -/
def ReceivedBy (addr : lib.Address) : HeldOutput lib → Prop
  | transparent utxo => lib.toTransparentAddress addr = some utxo.recipientAddress
  | sapling note => lib.toSaplingAddress addr = some note.recipient
  | orchard note | ironwood note =>
      .orchard note.recipient ∈ lib.asUnderstoodUnifiedReceivers addr

/-- It is one of the notes that the call looks at. -/
def IsNote : HeldOutput lib → Prop
  | sapling _ | orchard _ => True
  | transparent _ | ironwood _ => False

end HeldOutput

/-- An address of an account, and what is unspent there. -/
structure HeldReceiver where
  address : TransparentAddress
  metadata : TransparentAddressMetadata
  utxos : List Utxo

structure HeldAccount (lib : AddressLib) where
  uuid : AccountUuid
  purpose : AccountPurpose
  receivers : List HeldReceiver
  notes : ReceivedNotes lib

def HeldAccount.outputs {lib : AddressLib} (a : HeldAccount lib) : List (HeldOutput lib) :=
  (a.receivers.flatMap (·.utxos)).map .transparent ++ a.notes.sapling.map .sapling ++
    a.notes.orchard.map .orchard ++ a.notes.ironwood.map .ironwood

/-- What is unspent in a wallet at some height; no output is there twice. -/
structure Holdings (lib : AddressLib) where
  accounts : List (HeldAccount lib)
  /-- The height of a transaction, if it is mined. -/
  minedHeight : TxId → Option ℕ
  distinct : ((accounts.flatMap (·.outputs)).map (·.id)).Nodup

section
variable {lib : AddressLib}

def Holdings.outputs (s : Holdings lib) : List (HeldOutput lib) := s.accounts.flatMap (·.outputs)

def Holdings.heightOf (s : Holdings lib) : HeldOutput lib → Option ℕ
  | .transparent utxo => utxo.minedHeight
  | .sapling note | .orchard note | .ironwood note => s.minedHeight note.txid

/-- The database answers, and answers for what the wallet holds at this height, mined or not; what
it is asked to leave out is other pools' notes and too little confirmed transparent outputs. -/
structure HoldsAt (wallet : WalletRead lib) (target : ℕ) (s : Holdings lib) : Prop where
  accounts : wallet.getAccountIds = .ok (s.accounts.map (·.uuid))
  account : ∀ a ∈ s.accounts, wallet.getAccount a.uuid = .ok (some a.purpose)
  receivers : ∀ a ∈ s.accounts, wallet.getTransparentReceivers a.uuid true true =
    .ok (a.receivers.map fun r => (r.address, r.metadata))
  utxos : ∀ a ∈ s.accounts, ∀ r ∈ a.receivers, ∀ policy,
    wallet.getSpendableTransparentOutputs r.address target policy .all =
      .ok (r.utxos.filter fun u => policy.transparent ≤ confirmationsAt target u.minedHeight)
  metadata : ∀ account address, ∃ m, wallet.getTransparentAddressMetadata account address = .ok m
  notes : ∀ a ∈ s.accounts, ∀ sources,
    wallet.selectUnspentNotes a.uuid sources target = .ok (a.notes.only sources)
  memos : ∀ note, ∃ memo, wallet.getMemo note = .ok memo
  heights : ∀ txid, wallet.getTxHeight txid = .ok (s.minedHeight txid)

/-! ## What is asked for, and what is listed -/

/-- The output is confirmed as often as is asked for, and not too often. -/
structure InBounds (s : Holdings lib) (q : Query lib) (o : HeldOutput lib) : Prop where
  minconf : q.minconf ≤ confirmationsAt q.targetHeight (s.heightOf o)
  maxconf : ∀ c, q.maxconf = some c → confirmationsAt q.targetHeight (s.heightOf o) ≤ c

/-- The output is one that the parameters ask for. -/
structure Wanted (s : Holdings lib) (q : Query lib) (o : HeldOutput lib) : Prop where
  bounds : InBounds s q o
  address : q.addresses = [] ∨ ∃ addr ∈ q.addresses, o.ReceivedBy addr

/-- Exactly the outputs that are asked for are there, each of them once. -/
structure ListsWanted (s : Holdings lib) (q : Query lib) (listed : List (UnspentOutput lib)) :
    Prop where
  once : (listed.map (·.id)).Nodup
  wanted : ∀ id, id ∈ listed.map (·.id) ↔ ∃ o ∈ s.outputs, Wanted s q o ∧ o.id = id

/-- The outputs that the three filters leave. -/
def listed (s : Holdings lib) (q : Query lib) : HeldOutput lib → Bool
  | .transparent utxo => q.minconf ≤ confirmationsAt q.targetHeight utxo.minedHeight
  | .sapling note => saplingMatches q note && !skips q (s.minedHeight note.txid)
  | .orchard note => orchardMatches q note && !skips q (s.minedHeight note.txid)
  | .ironwood _ => false

theorem transparent_confirmationsPolicy (minconf : ℕ) :
    (confirmationsPolicy minconf).transparent = minconf := by
  cases minconf with
  | zero => rfl
  | succ c => rfl

/-! ## What the call returns -/

section
variable {wallet : WalletRead lib} {q : Query lib} {s : Holdings lib}

theorem gives_transparentOutput (h : HoldsAt wallet q.targetHeight s) (account : AccountUuid)
    (isWatchOnly : Bool) (utxo : Utxo) :
    ∃ o, Gives (transparentOutput wallet q account isWatchOnly utxo) o ∧
      o.id = (HeldOutput.transparent utxo : HeldOutput lib).id := by
  obtain ⟨m, hm⟩ := h.metadata account utxo.recipientAddress
  simp only [transparentOutput, gives_bind, gives_mapErr, gives_pure, hm]
  exact ⟨_, ⟨m, rfl, rfl⟩, rfl⟩

theorem gives_accountUtxos (h : HoldsAt wallet q.targetHeight s) {a : HeldAccount lib}
    (ha : a ∈ s.accounts) :
    Gives (accountUtxos wallet q a.uuid) ((a.receivers.flatMap (·.utxos)).filter fun u =>
      q.minconf ≤ confirmationsAt q.targetHeight u.minedHeight) := by
  simp only [accountUtxos, gives_bind, gives_mapErr, gives_pure, gives_mapM, h.receivers a ha]
  refine ⟨_, rfl, a.receivers.map fun r => r.utxos.filter fun u =>
    q.minconf ≤ confirmationsAt q.targetHeight u.minedHeight, ?_, ?_⟩
  · rw [List.forall₂_map_left_iff, List.forall₂_map_right_iff, List.forall₂_same]
    intro r hr
    have hutxos := h.utxos a ha r hr (confirmationsPolicy q.minconf)
    rwa [transparent_confirmationsPolicy] at hutxos
  · rw [List.filter_flatMap]
    rfl

theorem gives_getMemo (h : HoldsAt wallet q.targetHeight s) (note : NoteId) :
    ∃ memo, Gives (getMemo wallet note) memo := by
  obtain ⟨memo, hmemo⟩ := h.memos note
  simp only [getMemo, gives_bind, gives_mapErr, gives_pure, hmemo]
  exact ⟨_, memo, rfl, rfl⟩

section
variable {Recipient : Type} {encode : Recipient → Response String}

theorem gives_noteAddress (hencode : ∀ recipient, ∃ address, Gives (encode recipient) address)
    (note : ReceivedNote Recipient) : ∃ address, Gives (noteAddress encode note) address := by
  obtain ⟨address, haddress⟩ := hencode note.recipient
  rw [noteAddress]
  split
  case isTrue => exact ⟨none, gives_pure.mpr rfl⟩
  case isFalse => exact ⟨some address, gives_map.mpr ⟨address, haddress, rfl⟩⟩

theorem gives_noteOutput (h : HoldsAt wallet q.targetHeight s)
    (hencode : ∀ recipient, ∃ address, Gives (encode recipient) address) (pool : ShieldedPool)
    (poolName : String) (account : AccountUuid) (isWatchOnly : Bool) (note : ReceivedNote Recipient) :
    ∃ o, Gives (noteOutput wallet pool poolName encode q account isWatchOnly note) o ∧
      o.map (·.id) = if skips q (s.minedHeight note.txid) then none
        else some ⟨poolName, note.txid, note.outputIndex⟩ := by
  simp only [noteOutput, gives_bind, gives_mapErr, h.heights note.txid]
  by_cases hskips : skips q (s.minedHeight note.txid)
  · rw [if_pos hskips]
    refine ⟨none, ⟨_, rfl, ?_⟩, rfl⟩
    rw [if_pos hskips]
    exact gives_pure.mpr rfl
  · obtain ⟨memo, hmemo⟩ := gives_getMemo h ⟨note.txid, pool, note.outputIndex⟩
    obtain ⟨address, haddress⟩ := gives_noteAddress hencode note
    have hrender : ∃ o, Gives (renderNote wallet pool poolName encode q account isWatchOnly note
        (s.minedHeight note.txid)) o ∧ o.id = ⟨poolName, note.txid, note.outputIndex⟩ := by
      simp only [renderNote, gives_bind, gives_pure]
      exact ⟨_, ⟨memo, hmemo, address, haddress, rfl⟩, rfl⟩
    obtain ⟨o, ho, hid⟩ := hrender
    rw [if_neg hskips]
    refine ⟨some o, ⟨_, rfl, ?_⟩, congrArg some hid⟩
    rw [if_neg hskips]
    exact gives_map.mpr ⟨o, ho, rfl⟩

/-- The notes that are not skipped. -/
theorem reduceOption_skips {α β : Type} {skip : α → Bool} {f : α → β} {xs : List α} :
    (xs.map fun x => if skip x then none else some (f x)).reduceOption =
      (xs.filter fun x => !skip x).map f := by
  induction xs with
  | nil => rfl
  | cons x xs ih =>
      cases hskip : skip x with
      | true =>
          rw [List.map_cons, List.filter_cons, hskip, if_pos rfl]
          exact ih
      | false =>
          rw [List.map_cons, List.filter_cons, hskip]
          exact congrArg (f x :: ·) ih

/-- The outputs that one of the two pools of notes gives. -/
theorem gives_notes (h : HoldsAt wallet q.targetHeight s)
    (hencode : ∀ recipient, ∃ address, Gives (encode recipient) address) (pool : ShieldedPool)
    (poolName : String) (account : AccountUuid) (isWatchOnly : Bool) (notes : List (ReceivedNote Recipient)) :
    ∃ outputs, Gives (notes.mapM
        (noteOutput wallet pool poolName encode q account isWatchOnly)) outputs ∧
      outputs.reduceOption.map (·.id) =
        (notes.filter fun note => !skips q (s.minedHeight note.txid)).map fun note =>
          ⟨poolName, note.txid, note.outputIndex⟩ := by
  have hnote : ∀ note ∈ notes, ∃ o,
      Gives (noteOutput wallet pool poolName encode q account isWatchOnly note) o ∧
        o.map (·.id) = if skips q (s.minedHeight note.txid) then none
          else some ⟨poolName, note.txid, note.outputIndex⟩ :=
    fun note _ => gives_noteOutput h hencode pool poolName account isWatchOnly note
  obtain ⟨outputs, hgives, hids⟩ := exists_gives_mapM hnote
  refine ⟨outputs, hgives, ?_⟩
  rw [← List.reduceOption_map, hids]
  exact reduceOption_skips

end

theorem gives_encodeSapling (recipient : lib.SaplingAddress) :
    ∃ address, Gives (encodeSapling lib recipient) address := ⟨_, gives_pure.mpr rfl⟩

theorem gives_encodeOrchard (hlib : lib.Documented) (recipient : lib.OrchardAddress) :
    ∃ address, Gives (encodeOrchard lib recipient) address := by
  obtain ⟨address, haddress⟩ := hlib.fromReceivers recipient
  exact ⟨_, gives_bind.mpr ⟨address, gives_expect.mpr haddress, gives_pure.mpr rfl⟩⟩

/-- What is left of an account's outputs, pool by pool. -/
theorem filter_listed (a : HeldAccount lib) : a.outputs.filter (listed s q) =
    ((a.receivers.flatMap (·.utxos)).filter fun u =>
      q.minconf ≤ confirmationsAt q.targetHeight u.minedHeight).map .transparent ++
    ((a.notes.sapling.filter (saplingMatches q)).filter fun note =>
      !skips q (s.minedHeight note.txid)).map .sapling ++
    ((a.notes.orchard.filter (orchardMatches q)).filter fun note =>
      !skips q (s.minedHeight note.txid)).map .orchard := by
  have hironwood : (a.notes.ironwood.map HeldOutput.ironwood).filter (listed s q) = [] := by
    rw [List.filter_map, List.map_eq_nil_iff, List.filter_eq_nil_iff]
    rintro note - ⟨⟩
  have hand : ∀ {α : Type} (xs : List α) (f g : α → Bool),
      (xs.filter f).filter g = xs.filter fun x => f x && g x := by
    intro α xs f g
    rw [List.filter_filter]
    exact List.filter_congr fun x _ => Bool.and_comm _ _
  rw [HeldAccount.outputs, List.filter_append, hironwood, List.append_nil, List.filter_append,
    List.filter_append, List.filter_map, List.filter_map, List.filter_map, hand, hand]
  rfl

theorem gives_accountOutputs (hlib : lib.Documented) (h : HoldsAt wallet q.targetHeight s)
    {a : HeldAccount lib} (ha : a ∈ s.accounts) :
    ∃ outputs, Gives (accountOutputs wallet q a.uuid) outputs ∧
      outputs.map (·.id) = (a.outputs.filter (listed s q)).map (·.id) := by
  let isWatchOnly : Bool := a.purpose ≠ .spending
  obtain ⟨transparent, htransparent, htids⟩ := exists_gives_mapM fun utxo
    (_ : utxo ∈ (a.receivers.flatMap (·.utxos)).filter fun u =>
      q.minconf ≤ confirmationsAt q.targetHeight u.minedHeight) =>
    gives_transparentOutput h a.uuid isWatchOnly utxo
  obtain ⟨sapling, hsapling, hsids⟩ := gives_notes h gives_encodeSapling .sapling "sapling"
    a.uuid isWatchOnly (a.notes.sapling.filter (saplingMatches q))
  obtain ⟨orchard, horchard, hoids⟩ := gives_notes h (gives_encodeOrchard hlib) .orchard "orchard"
    a.uuid isWatchOnly (a.notes.orchard.filter (orchardMatches q))
  refine ⟨transparent ++ sapling.reduceOption ++ orchard.reduceOption, ?_, ?_⟩
  · simp only [accountOutputs, gives_bind, gives_mapErr, gives_okOr, gives_pure, h.account a ha,
      h.notes a ha]
    exact ⟨_, rfl, _, rfl, _, gives_accountUtxos h ha, transparent, htransparent, _, rfl,
      sapling, hsapling, orchard, horchard, rfl⟩
  · rw [filter_listed, List.map_append, List.map_append, List.map_append, List.map_append, htids,
      hsids, hoids, List.map_map, List.map_map, List.map_map]
    rfl

/-- The call returns, and returns what the three filters leave. -/
theorem gives_call (hlib : lib.Documented) (h : HoldsAt wallet q.targetHeight s) {params : Params}
    (hparams : Gives (parseParams wallet params) (some q)) :
    ∃ outputs, Gives (call wallet params) outputs ∧
      outputs.map (·.id) = (s.outputs.filter (listed s q)).map (·.id) := by
  obtain ⟨outputs, houtputs, hids⟩ := exists_gives_mapM fun a (ha : a ∈ s.accounts) =>
    gives_accountOutputs hlib h ha
  refine ⟨outputs.flatten, ?_, ?_⟩
  · rw [call, gives_bind]
    refine ⟨some q, hparams, ?_⟩
    simp only [gives_bind, gives_mapErr, gives_pure, gives_mapM, h.accounts]
    refine ⟨_, rfl, outputs, ?_, rfl⟩
    rw [List.forall₂_map_left_iff]
    exact gives_mapM.mp houtputs
  · rw [List.map_flatten, hids, Holdings.outputs, List.filter_flatMap, List.map_flatMap]
    rfl

end

/-! ## Where the two agree -/

/-- Heights whose confirmations the call does not count right: it takes what is not mined for
confirmed often enough, and so what was mined in the first block; without a `minconf` it takes what
was mined above the target for not confirmed often enough. -/
def Miscounted (q : Query lib) (minedHeight : Option ℕ) : Prop :=
  minedHeight = none ∧ 0 < q.minconf ∨ minedHeight = some 0 ∧ q.targetHeight < q.minconf ∨
    q.minconf = 0 ∧ ∃ h, minedHeight = some h ∧ q.targetHeight < h

/-- What a wallet and parameters are like for which exactly the wanted outputs are listed. -/
structure Agreeable (s : Holdings lib) (q : Query lib) : Prop where
  /-- A transparent output with enough confirmations has not too many, and is at a listed address. -/
  transparent : ∀ utxo, .transparent utxo ∈ s.outputs →
    q.minconf ≤ confirmationsAt q.targetHeight utxo.minedHeight →
      (∀ c, q.maxconf = some c → confirmationsAt q.targetHeight utxo.minedHeight ≤ c) ∧
        (q.addresses = [] ∨ ∃ addr ∈ q.addresses,
          lib.toTransparentAddress addr = some utxo.recipientAddress)
  /-- A note that one of the listed addresses received, all of them received. -/
  addresses : ∀ o ∈ s.outputs, o.IsNote → InBounds s q o →
    ∀ addr ∈ q.addresses, o.ReceivedBy addr → ∀ addr' ∈ q.addresses, o.ReceivedBy addr'
  /-- A note that they all received is counted right. -/
  counted : ∀ o ∈ s.outputs, o.IsNote →
    (∀ c, q.maxconf = some c → confirmationsAt q.targetHeight (s.heightOf o) ≤ c) →
      (∀ addr ∈ q.addresses, o.ReceivedBy addr) → ¬ Miscounted q (s.heightOf o)
  /-- No Ironwood note is asked for. -/
  ironwood : ∀ note, .ironwood note ∈ s.outputs → ¬ Wanted s q (.ironwood note)

section
variable {q : Query lib} {s : Holdings lib}

theorem skips_eq_false {minedHeight : Option ℕ} : skips q minedHeight = false ↔
    (∀ h, minedHeight = some h → h ≤ q.targetHeight - q.minconf) ∧
      ∀ c, q.maxconf = some c → confirmationsAt q.targetHeight minedHeight ≤ c := by
  simp only [skips, Bool.or_eq_false_iff, Option.any_eq_false, decide_eq_false_iff_not, not_lt]

/-- The comparison of heights differs from that of confirmations where they are miscounted. -/
theorem miscounted_iff {minedHeight : Option ℕ} : Miscounted q minedHeight ↔
    ¬ ((∀ h, minedHeight = some h → h ≤ q.targetHeight - q.minconf) ↔
      q.minconf ≤ confirmationsAt q.targetHeight minedHeight) := by
  cases minedHeight with
  | none =>
      simp only [Miscounted, confirmationsAt, Option.elim_none, reduceCtorEq, true_and, false_and,
        false_implies, implies_true, exists_const, and_false, or_false, true_iff]
      omega
  | some h =>
      simp only [Miscounted, confirmationsAt, Option.elim_some, reduceCtorEq, Option.some.injEq,
        false_and, false_or, exists_eq_left', forall_eq']
      omega

theorem orchardMatches_iff {note : ReceivedNote lib.OrchardAddress} :
    orchardMatches q note = true ↔ ∀ addr ∈ q.addresses,
      .orchard note.recipient ∈ lib.asUnderstoodUnifiedReceivers addr := by
  rw [orchardMatches, List.all_eq_true]
  refine forall₂_congr fun addr _ => ?_
  rw [List.any_eq_true]
  constructor
  · rintro ⟨receiver, hmem, hreceiver⟩
    cases receiver with
    | orchard address =>
        obtain rfl : address = note.recipient := of_decide_eq_true hreceiver
        exact hmem
    | sapling _ => cases hreceiver
    | transparent _ => cases hreceiver
  · intro hmem
    exact ⟨_, hmem, decide_eq_true rfl⟩

/-- What a note has to be like to be listed. -/
theorem listed_note {o : HeldOutput lib} (ho : o.IsNote) : listed s q o = true ↔
    (∀ addr ∈ q.addresses, o.ReceivedBy addr) ∧
      (∀ h, s.heightOf o = some h → h ≤ q.targetHeight - q.minconf) ∧
        ∀ c, q.maxconf = some c → confirmationsAt q.targetHeight (s.heightOf o) ≤ c := by
  cases o with
  | transparent utxo => exact ho.elim
  | ironwood note => exact ho.elim
  | sapling note =>
      rw [listed, Bool.and_eq_true, Bool.not_eq_true', skips_eq_false, saplingMatches,
        List.all_eq_true]
      simp only [decide_eq_true_iff]
      rfl
  | orchard note =>
      rw [listed, Bool.and_eq_true, Bool.not_eq_true', skips_eq_false, orchardMatches_iff]
      rfl

/-- A note is listed just when it is wanted, if the listed addresses agree on it and it is counted
right. -/
theorem listed_note_iff {o : HeldOutput lib} (ho : o.IsNote) :
    (listed s q o = true ↔ Wanted s q o) ↔
      (InBounds s q o → ∀ addr ∈ q.addresses, o.ReceivedBy addr →
        ∀ addr' ∈ q.addresses, o.ReceivedBy addr') ∧
      ((∀ c, q.maxconf = some c → confirmationsAt q.targetHeight (s.heightOf o) ≤ c) →
        (∀ addr ∈ q.addresses, o.ReceivedBy addr) → ¬ Miscounted q (s.heightOf o)) := by
  have hsome : (∀ addr ∈ q.addresses, o.ReceivedBy addr) →
      q.addresses = [] ∨ ∃ addr ∈ q.addresses, o.ReceivedBy addr := by
    intro hall
    cases haddresses : q.addresses with
    | nil => exact .inl rfl
    | cons addr _ =>
        have hmem : addr ∈ q.addresses := haddresses ▸ List.mem_cons_self
        exact .inr ⟨addr, List.mem_cons_self, hall addr hmem⟩
  rw [listed_note ho, miscounted_iff, not_not]
  constructor
  · intro h
    refine ⟨?_, ?_⟩
    · intro hbounds addr hmem haddr
      exact (h.mpr ⟨hbounds, .inr ⟨addr, hmem, haddr⟩⟩).1
    · intro hmax hall
      constructor
      · intro htimely
        exact (h.mp ⟨hall, htimely, hmax⟩).bounds.minconf
      · intro hmin
        exact (h.mpr ⟨⟨hmin, hmax⟩, hsome hall⟩).2.1
  · rintro ⟨hagree, hcounted⟩
    constructor
    · rintro ⟨hall, htimely, hmax⟩
      exact ⟨⟨(hcounted hmax hall).mp htimely, hmax⟩, hsome hall⟩
    · rintro ⟨hbounds, haddress⟩
      have hall : ∀ addr ∈ q.addresses, o.ReceivedBy addr := by
        rcases haddress with hempty | ⟨addr, hmem, haddr⟩
        · rw [hempty]
          rintro _ ⟨⟩
        · exact hagree hbounds addr hmem haddr
      exact ⟨hall, (hcounted hbounds.maxconf hall).mpr hbounds.minconf, hbounds.maxconf⟩

/-- Each output is listed just when it is wanted, for the wallets and parameters told of. -/
theorem agreeable_iff : Agreeable s q ↔ ∀ o ∈ s.outputs, (listed s q o = true ↔ Wanted s q o) := by
  constructor
  · intro h o ho
    cases o with
    | transparent utxo =>
        constructor
        · intro hlisted
          have hmin : q.minconf ≤ confirmationsAt q.targetHeight utxo.minedHeight :=
            of_decide_eq_true hlisted
          obtain ⟨hmax, haddress⟩ := h.transparent utxo ho hmin
          exact ⟨⟨hmin, hmax⟩, haddress⟩
        · intro hwanted
          exact decide_eq_true hwanted.bounds.minconf
    | sapling note =>
        exact (listed_note_iff (o := .sapling note) trivial).mpr
          ⟨h.addresses _ ho trivial, h.counted _ ho trivial⟩
    | orchard note =>
        exact (listed_note_iff (o := .orchard note) trivial).mpr
          ⟨h.addresses _ ho trivial, h.counted _ ho trivial⟩
    | ironwood note => exact iff_of_false Bool.false_ne_true (h.ironwood note ho)
  · intro h
    refine ⟨?_, ?_, ?_, ?_⟩
    · intro utxo ho hmin
      have hwanted := (h _ ho).mp (decide_eq_true hmin)
      exact ⟨hwanted.bounds.maxconf, hwanted.address⟩
    · intro o ho hnote
      exact ((listed_note_iff hnote).mp (h o ho)).1
    · intro o ho hnote
      exact ((listed_note_iff hnote).mp (h o ho)).2
    · intro note ho hwanted
      exact Bool.false_ne_true ((h _ ho).mpr hwanted)

/-- What is listed by the three filters is what is wanted, if that holds output by output. -/
theorem listsWanted_iff {outputs : List (UnspentOutput lib)}
    (hids : outputs.map (·.id) = (s.outputs.filter (listed s q)).map (·.id)) :
    ListsWanted s q outputs ↔ Agreeable s q := by
  have hnodup : (s.outputs.map (·.id)).Nodup := s.distinct
  have hmem : ∀ id, id ∈ outputs.map (·.id) ↔
      ∃ o ∈ s.outputs, listed s q o = true ∧ o.id = id := by
    intro id
    simp only [hids, List.mem_map, List.mem_filter, and_assoc]
  rw [agreeable_iff]
  constructor
  · intro h o ho
    have hsame : ∀ o' ∈ s.outputs, o'.id = o.id → o' = o := fun o' ho' =>
      List.inj_on_of_nodup_map hnodup ho' ho
    constructor
    · intro hlisted
      obtain ⟨o', ho', hwanted, hid⟩ := (h.wanted o.id).mp ((hmem o.id).mpr ⟨o, ho, hlisted, rfl⟩)
      rwa [hsame o' ho' hid] at hwanted
    · intro hwanted
      obtain ⟨o', ho', hlisted, hid⟩ := (hmem o.id).mp ((h.wanted o.id).mpr ⟨o, ho, hwanted, rfl⟩)
      rwa [hsame o' ho' hid] at hlisted
  · intro h
    refine ⟨?_, ?_⟩
    · rw [hids]
      exact hnodup.sublist (List.filter_sublist.map _)
    · intro id
      rw [hmem]
      exact exists_congr fun o => and_congr_right fun ho => and_congr_left fun _ => h o ho

end

end

/-- Where the database answers for all that the wallet holds, the call lists exactly the outputs
asked for, each once, for the wallets and parameters that are `Agreeable`, and for no others. -/
theorem call_lists_wanted_iff (lib : AddressLib) (hlib : lib.Documented) (wallet : WalletRead lib)
    (params : Params) (q : Query lib) (hparams : Gives (parseParams wallet params) (some q))
    (s : Holdings lib) (h : HoldsAt wallet q.targetHeight s) :
    (∃ outputs, Gives (call wallet params) outputs ∧ ListsWanted s q outputs) ↔
      Agreeable s q := by
  obtain ⟨outputs, houtputs, hids⟩ := gives_call hlib h hparams
  constructor
  · rintro ⟨outputs', houtputs', hlists⟩
    rw [houtputs'.unique houtputs] at hlists
    exact (listsWanted_iff hids).mp hlists
  · intro hagreeable
    exact ⟨outputs, houtputs, (listsWanted_iff hids).mpr hagreeable⟩

/-! ## A wallet with one account -/

/-- Addresses that are one receiver each. -/
def singleReceivers : AddressLib where
  toMoneyLib := eightPlaces
  SaplingAddress := ℕ
  OrchardAddress := ℕ
  decSapling := inferInstance
  decOrchard := inferInstance
  Address := AddressReceiver ℕ ℕ
  UnifiedAddress := ℕ
  decode _ := none
  toTransparentAddress
    | .transparent address => some address
    | _ => none
  toSaplingAddress
    | .sapling address => some address
    | _ => none
  asUnderstoodUnifiedReceivers address := [address]
  fromReceivers orchard _ _ := orchard
  encodeTransparent address := "t1" ++ toString address.bytes
  encodeSapling address := "zs1" ++ toString address
  encodeUnified address := "u1" ++ toString address
  encodeMemo _ := []
  hexEncode _ := ""

theorem singleReceivers_documented : singleReceivers.Documented := ⟨fun orchard => ⟨orchard, rfl⟩⟩

/-- Three confirmations at height 10. -/
def receiver : HeldReceiver :=
  ⟨⟨7⟩, ⟨some .external⟩, [⟨⟨⟨1⟩, 0⟩, ⟨7⟩, some ⟨7⟩, ⟨10000, by decide⟩, some 8⟩]⟩

def saplingNote : ReceivedNote ℕ := ⟨⟨2⟩, 0, 5, ⟨20000, by decide⟩, .external⟩

def account : HeldAccount singleReceivers :=
  ⟨⟨0⟩, .spending, [receiver], ⟨[saplingNote], [], []⟩⟩

/-- The note's transaction is mined, or it is not. -/
def holdings (minedHeight : Option ℕ) : Holdings singleReceivers where
  accounts := [account]
  minedHeight _ := minedHeight
  distinct := by decide

def wallet (minedHeight : Option ℕ) : WalletRead singleReceivers where
  chainHeight := .ok (some 10)
  getAccountIds := .ok [account.uuid]
  getAccount _ := .ok (some account.purpose)
  getTransparentReceivers _ _ _ := .ok [(receiver.address, receiver.metadata)]
  getTransparentAddressMetadata _ _ := .ok (some receiver.metadata)
  getSpendableTransparentOutputs _ target policy _ :=
    .ok (receiver.utxos.filter fun u => policy.transparent ≤ confirmationsAt target u.minedHeight)
  selectUnspentNotes _ sources _ := .ok (account.notes.only sources)
  getMemo _ := .ok none
  getTxHeight _ := .ok minedHeight

theorem wallet_holdsAt (minedHeight : Option ℕ) (target : ℕ) :
    HoldsAt (wallet minedHeight) target (holdings minedHeight) where
  accounts := rfl
  account := by
    intro a ha
    obtain rfl := List.mem_singleton.mp ha
    rfl
  receivers := by
    intro a ha
    obtain rfl := List.mem_singleton.mp ha
    rfl
  utxos := by
    intro a ha r hr policy
    obtain rfl := List.mem_singleton.mp ha
    obtain rfl := List.mem_singleton.mp hr
    rfl
  metadata _ _ := ⟨_, rfl⟩
  notes := by
    intro a ha sources
    obtain rfl := List.mem_singleton.mp ha
    rfl
  memos _ := ⟨none, rfl⟩
  heights _ := rfl

def defaults : Params := ⟨none, none, none, none, none⟩

/-- The defaults: confirmed once, at any address. -/
def defaultQuery : Query singleReceivers := ⟨1, none, [], 11⟩

theorem parse_defaults (minedHeight : Option ℕ) :
    Gives (parseParams (wallet minedHeight) defaults) (some defaultQuery) := rfl

theorem mined_agreeable : Agreeable (holdings (some 9)) defaultQuery := by
  rw [agreeable_iff]
  refine List.forall_mem_cons.mpr ⟨?_, List.forall_mem_cons.mpr ⟨?_, by rintro _ ⟨⟩⟩⟩
  · exact iff_of_true rfl ⟨⟨by decide, by rintro _ ⟨⟩⟩, .inl rfl⟩
  · exact iff_of_true rfl ⟨⟨by decide, by rintro _ ⟨⟩⟩, .inl rfl⟩

theorem call_lists_wanted_iff_mined : ∃ outputs,
    Gives (call (wallet (some 9)) defaults) outputs ∧
      ListsWanted (holdings (some 9)) defaultQuery outputs :=
  (call_lists_wanted_iff singleReceivers singleReceivers_documented (wallet (some 9)) defaults
    defaultQuery (parse_defaults _) (holdings (some 9)) (wallet_holdsAt _ _)).mpr mined_agreeable

/-- Before the note is mined it has no confirmation, and is listed with those that have one. -/
theorem call_lists_unmined : ∃ outputs,
    Gives (call (wallet none) defaults) outputs ∧
      HeldOutput.id (.sapling saplingNote : HeldOutput singleReceivers) ∈ outputs.map (·.id) ∧
        ¬ ListsWanted (holdings none) defaultQuery outputs := by
  obtain ⟨outputs, houtputs, hids⟩ := gives_call singleReceivers_documented
    (wallet_holdsAt none 11) (parse_defaults none)
  have hmem : (.sapling saplingNote : HeldOutput singleReceivers) ∈ (holdings none).outputs :=
    .tail _ (.head _)
  refine ⟨outputs, houtputs, ?_, ?_⟩
  · rw [hids]
    exact List.mem_map_of_mem (List.mem_filter.mpr ⟨hmem, rfl⟩)
  · intro hlists
    have hcounted := ((listsWanted_iff hids).mp hlists).counted _ hmem trivial
    exact hcounted (by rintro _ ⟨⟩) (by rintro _ ⟨⟩) (.inl ⟨rfl, by decide⟩)

end Zallet.ListUnspent
