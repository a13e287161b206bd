/-
# `Zallet.Rpc.ListTransactions` — the wallet's history, page by page

`z_listtransactions`: the rows of `v_transactions` that the account and the
heights select, sorted by the height at which a transaction was mined or else
expires, and of these `limit` from `offset` on.  Each row is turned into a
`WalletTx` with the outputs of its transaction; a row that cannot be read fails
the call.

The sort has no second key.  What SQLite makes of rows of one height, and of the
outputs of a transaction, is the `Engine`'s choice, anew for each call.  The
pages of `k` rows are together what one call without a limit gives, whatever is
chosen, just when each height's rows are on one page, or are all alike
(`whole_iff`): a transaction can be on two pages, and another on none
(`repeated_and_lost`).
-/
import Mathlib.Algebra.Order.Ring.Int
import Mathlib.Data.Multiset.Basic
import Zallet.Data.Paging
import Zallet.Rpc.Amounts

namespace Zallet.ListTransactions

open RpcResult

/-! ## What is read -/

structure Uuid where
  bytes : List UInt8
  length_eq : bytes.length = 16
  deriving DecidableEq

inductive Memo where
  | empty
  | text (memo : String)
  | future (bytes : List UInt8)
  | arbitrary (bytes : List UInt8)
  deriving DecidableEq, Repr

inductive RusqliteError where
  | integralValueOutOfRange (column : ℕ) (value : ℤ)
  /-- A blob that has not the size of what is made of it. -/
  | fromSqlConversionFailure (column : ℕ) (size : ℕ)
  deriving DecidableEq, Repr

inductive SqliteClientError where
  | corruptedData (reason : String)
  | dbError (e : RusqliteError)
  deriving DecidableEq, Repr

/-- What is used of `uuid`, `time`, `zcash_protocol` and `zcash_client_sqlite`; an error of these
is the text it is shown as. -/
structure ListTxLib where
  tryParseUuid : String → Option Uuid
  OffsetDateTime : Type
  fromUnixTimestamp : ℤ → Except String OffsetDateTime
  formatRfc3339 : OffsetDateTime → Option String
  memo : List UInt8 → Except String Memo
  displayError : SqliteClientError → String

/-- A row of `v_transactions`. -/
@[ext]
structure TxRow where
  accountUuid : List UInt8
  minedHeight : Option ℤ
  txid : List UInt8
  expiryHeight : Option ℤ
  accountBalanceDelta : ℤ
  feePaid : Option ℤ
  sentNoteCount : ℤ
  receivedNoteCount : ℤ
  blockTime : Option ℤ
  expiredUnmined : Bool
  deriving DecidableEq, Repr

/-- A row of `v_tx_outputs`. -/
structure OutputRow where
  txid : List UInt8
  outputPool : ℤ
  outputIndex : ℤ
  fromAccountUuid : Option (List UInt8)
  toAccountUuid : Option (List UInt8)
  toAddress : Option String
  value : ℤ
  isChange : Bool
  memo : Option (List UInt8)
  deriving DecidableEq, Repr

structure Db where
  transactions : List TxRow
  outputs : List OutputRow

/-! ## What is listed -/

structure WalletTxOutput where
  pool : String
  outputIndex : ℕ
  fromAccount : Option String
  toAccount : Option String
  toAddress : Option String
  value : ℕ
  isChange : Bool
  memo : Option String
  deriving DecidableEq, Repr

structure WalletTx where
  accountUuid : String
  minedHeight : Option ℕ
  txid : String
  expiryHeight : Option ℕ
  accountBalanceDelta : ℤ
  feePaid : Option ℕ
  sentNoteCount : ℕ
  receivedNoteCount : ℕ
  blockTime : Option ℤ
  blockDatetime : Option String
  expiredUnmined : Bool
  outputs : List WalletTxOutput
  deriving DecidableEq, Repr

/-- What a transaction is, where the order of its outputs does not matter. -/
def WalletTx.content (tx : WalletTx) : WalletTx × Multiset WalletTxOutput :=
  ({ tx with outputs := [] }, tx.outputs)

/-! ## The texts of bytes -/

def hexByte (b : UInt8) : List Char := [Nat.digitChar (b.toNat / 16), Nat.digitChar (b.toNat % 16)]

def hexEncode (bytes : List UInt8) : List Char := bytes.flatMap hexByte

/-- With hyphens. -/
def Uuid.chars (uuid : Uuid) : List Char :=
  hexEncode (uuid.bytes.take 4) ++ '-' :: (hexEncode ((uuid.bytes.drop 4).take 2) ++
    '-' :: (hexEncode ((uuid.bytes.drop 6).take 2) ++ '-' :: (hexEncode ((uuid.bytes.drop 8).take 2)
      ++ '-' :: hexEncode (uuid.bytes.drop 10))))

def Uuid.toString (uuid : Uuid) : String := String.ofList uuid.chars

/-- A transaction's identifier is shown from its last byte on. -/
def txidToString (bytes : List UInt8) : String := String.ofList (hexEncode bytes.reverse)

/-! ## The columns -/

/-- Code that reads the database, and may panic. -/
abbrev Read (α : Type) := ExceptT SqliteClientError (Except String) α

def corrupted (reason : String) : SqliteClientError := .corruptedData reason

/-- An integer type of the values up to `bound`. -/
def integer (column bound : ℕ) (value : ℤ) : Read ℕ :=
  if 0 ≤ value ∧ value < bound then pure value.toNat
  else throw (.dbError (.integralValueOutOfRange column value))

/-- A column that may be `NULL`. -/
def nullable {α β : Type} (f : α → Read β) : Option α → Read (Option β)
  | none => pure none
  | some a => some <$> f a

def Uuid.fromBytes (bytes : List UInt8) : Option Uuid :=
  if h : bytes.length = 16 then some ⟨bytes, h⟩ else none

def uuidColumn (column : ℕ) (bytes : List UInt8) : Read Uuid :=
  okOr (Uuid.fromBytes bytes) (.dbError (.fromSqlConversionFailure column bytes.length))

/-- How `{e:?}` shows it. -/
def debugBalanceError : BalanceError → String
  | .overflow => "Overflow"
  | .underflow => "Underflow"

/-- `Zatoshis::from_nonnegative_i64`, and `Zatoshis::from_u64` -/
def zatoshisOf (value : ℤ) : Except BalanceError Zatoshis :=
  if h : value.toNat ≤ maxMoney then
    if 0 ≤ value then .ok ⟨value.toNat, h⟩ else .error .underflow
  else .error .overflow

/-- `ZatBalance::from_i64` -/
def zatBalanceOf (value : ℤ) : Except BalanceError ZatBalance :=
  if h : |value| ≤ maxMoney then .ok ⟨value, h⟩
  else .error (if value < 0 then .underflow else .overflow)

/-! ## The rows -/

section
variable (lib : ListTxLib)

inductive PoolType where
  | transparent | sapling | orchard
  deriving DecidableEq, Repr

def parsePoolCode (poolCode : ℤ) : Option PoolType :=
  if poolCode = 0 then some .transparent
  else if poolCode = 2 then some .sapling
  else if poolCode = 3 then some .orchard
  else none

def PoolType.name : PoolType → String
  | .transparent => "transparent"
  | .sapling => "sapling"
  | .orchard => "orchard"

def Memo.shown : Memo → Option String
  | .empty => none
  | .text memo => some memo
  | .future bytes => some (String.ofList (hexEncode bytes))
  | .arbitrary bytes => some (String.ofList (hexEncode bytes))

def readMemo (bytes : List UInt8) : Read Memo :=
  mapErr (lib.memo bytes) fun e => corrupted s!"Invalid memo data: {e}"

def WalletTxOutput.new (poolCode : ℤ) (outputIndex : ℕ) (fromAccount toAccount : Option Uuid)
    (toAddress : Option String) (value : ℤ) (isChange : Bool) (memo : Option (List UInt8)) :
    Read WalletTxOutput := do
  let pool ← okOr (parsePoolCode poolCode) (corrupted s!"Invalid pool code: {poolCode}")
  let zatoshis ← mapErr (zatoshisOf value) fun e =>
    corrupted s!"Invalid output value {value}: {debugBalanceError e}"
  let memo ← nullable (readMemo lib) memo
  pure ⟨pool.name, outputIndex, fromAccount.map Uuid.toString, toAccount.map Uuid.toString,
    toAddress, zatoshis.value, isChange, memo.bind Memo.shown⟩

/-- The closure over `out_row` -/
def readOutput (row : OutputRow) : Read WalletTxOutput := do
  let outputIndex ← integer 1 (2 ^ 32) row.outputIndex
  let fromAccount ← nullable (uuidColumn 2) row.fromAccountUuid
  let toAccount ← nullable (uuidColumn 3) row.toAccountUuid
  WalletTxOutput.new lib row.outputPool outputIndex fromAccount toAccount row.toAddress row.value
    row.isChange row.memo

def readDatetime (t : ℤ) : Read String := do
  let datetime ← mapErr (lib.fromUnixTimestamp t) fun e =>
    corrupted s!"Invalid unix timestamp {t}: {e}"
  expect (lib.formatRfc3339 datetime) "datetime can be formatted"

def readFee (v : ℕ) : Read ℕ := do
  let fee ← mapErr (zatoshisOf v) fun e =>
    corrupted s!"Invalid fee value {v}: {debugBalanceError e}"
  pure fee.value

def WalletTx.fromParts (accountUuid : List UInt8) (minedHeight : Option ℕ) (txid : List UInt8)
    (expiryHeight : Option ℕ) (accountBalanceDelta : ℤ) (feePaid : Option ℕ)
    (sentNoteCount receivedNoteCount : ℕ) (blockTime : Option ℤ) (expiredUnmined : Bool)
    (outputs : List WalletTxOutput) : Read WalletTx := do
  let uuid ← okOr (Uuid.fromBytes accountUuid)
    (corrupted s!"Invalid account uuid: {accountUuid.length}")
  refuseIf (txid.length ≠ 32) (corrupted s!"Invalid txid: {txid.length}")
  let delta ← mapErr (zatBalanceOf accountBalanceDelta) fun e =>
    corrupted s!"Invalid balance delta {accountBalanceDelta}: {debugBalanceError e}"
  let fee ← nullable readFee feePaid
  let datetime ← nullable (readDatetime lib) blockTime
  pure ⟨uuid.toString, minedHeight, txidToString txid, expiryHeight, delta.value, fee,
    sentNoteCount, receivedNoteCount, blockTime, datetime, expiredUnmined, outputs⟩

/-- The closure over `row`, after it has asked for the outputs. -/
def readTx (row : TxRow) (outputs : List OutputRow) : Read WalletTx := do
  let outputs ← outputs.mapM (readOutput lib)
  let minedHeight ← nullable (integer 1 (2 ^ 32)) row.minedHeight
  let expiryHeight ← nullable (integer 3 (2 ^ 32)) row.expiryHeight
  let feePaid ← nullable (integer 5 (2 ^ 64)) row.feePaid
  let sentNoteCount ← integer 6 (2 ^ 64) row.sentNoteCount
  let receivedNoteCount ← integer 7 (2 ^ 64) row.receivedNoteCount
  WalletTx.fromParts lib row.accountUuid minedHeight row.txid expiryHeight row.accountBalanceDelta
    feePaid sentNoteCount receivedNoteCount row.blockTime row.expiredUnmined outputs

/-! ## The query -/

/-- `sort_height`, with `NULL` last. -/
def sortHeight (row : TxRow) : WithTop ℤ :=
  row.minedHeight <|> row.expiryHeight.filter (· ≠ 0)

/-- The `WHERE` clause; a comparison with `NULL` does not hold. -/
def Selected (account : Option Uuid) (startHeight endHeight : Option ℕ) (row : TxRow) : Prop :=
  (∀ uuid ∈ account, row.accountUuid = uuid.bytes) ∧
  (∀ start ∈ startHeight, (∃ mined ∈ row.minedHeight, (start : ℤ) ≤ mined) ∨
    (row.minedHeight = none ∧ endHeight = none)) ∧
  (∀ stop ∈ endHeight, ∃ mined ∈ row.minedHeight, mined < (stop : ℤ))

instance (account : Option Uuid) (startHeight endHeight : Option ℕ) :
    DecidablePred (Selected account startHeight endHeight) := fun _ =>
  inferInstanceAs (Decidable (_ ∧ _ ∧ _))

def Db.selected (db : Db) (account : Option Uuid) (startHeight endHeight : Option ℕ) : List TxRow :=
  db.transactions.filter (Selected account startHeight endHeight)

def Db.outputsOf (db : Db) (row : TxRow) : List OutputRow := db.outputs.filter (·.txid = row.txid)

/-- What SQLite may choose in one call: the order of rows of one sort height, and for the row it is
at, the order of the outputs. -/
structure Engine where
  order : List TxRow → List TxRow
  arranged : ∀ rows, Paging.Arranged sortHeight rows (order rows)
  outputs : ℕ → List OutputRow → List OutputRow
  outputs_perm : ∀ n rows, (outputs n rows).Perm rows

/-- `LIMIT` and `OFFSET`; a negative limit is none. -/
def limited {α : Type} (limit : ℤ) (offset : ℕ) (rows : List α) : List α :=
  if limit < 0 then rows.drop offset else (rows.drop offset).take limit.toNat

/-- The rows of `stmt_txs`. -/
def asked (engine : Engine) (db : Db) (account : Option Uuid)
    (startHeight endHeight offset limit : Option ℕ) : List TxRow :=
  limited (limit.elim (-1) Int.ofNat) (offset.getD 0)
    (engine.order (db.selected account startHeight endHeight))

def queryTransactions (engine : Engine) (db : Db) (account : Option Uuid)
    (startHeight endHeight offset limit : Option ℕ) : Read (List WalletTx) :=
  (asked engine db account startHeight endHeight offset limit).zipIdx.mapM fun row =>
    readTx lib row.1 (engine.outputs row.2 (db.outputsOf row.1))

def parseAccount (accountUuid : Option String) : RpcResult String (Option Uuid) :=
  match accountUuid with
  | none => pure none
  | some s => some <$> okOr (lib.tryParseUuid s)
      (LegacyCode.invalidParameter.withMessage s!"not a valid UUID: {s}")

/-- `z_listtransactions`, where the database can be read. -/
def call (engine : Engine) (db : Db) (accountUuid : Option String)
    (startHeight endHeight offset limit : Option ℕ) : RpcResult String (List WalletTx) := do
  let account ← parseAccount lib accountUuid
  (queryTransactions lib engine db account startHeight endHeight offset limit).adapt fun e =>
    LegacyCode.database.withMessage (lib.displayError e)

/-! ## The pages -/

/-- How many of the offsets `0`, `k`, `2 * k`, … there are: an offset has 32 bits. -/
def offsets (k : ℕ) : ℕ := (2 ^ 32 - 1) / k + 1

/-- Where a call without a limit lists transactions, so do the calls for pages of `k`, and together
they list the same transactions as often, whatever is chosen in each call. -/
def Whole (db : Db) (accountUuid : Option String) (startHeight endHeight : Option ℕ) (k : ℕ) :
    Prop :=
  ∀ (engine : Engine) (engines : ℕ → Engine) (whole : List WalletTx),
    Gives (call lib engine db accountUuid startHeight endHeight none none) whole →
    ∃ pages : ℕ → List WalletTx,
      (∀ i < offsets k, Gives (call lib (engines i) db accountUuid startHeight endHeight
        (some (i * k)) (some k)) (pages i)) ∧
      (((List.range (offsets k)).flatMap pages).map WalletTx.content).Perm
        (whole.map WalletTx.content)

/-- No column of the row or of its outputs is out of its range. -/
def Readable (db : Db) (row : TxRow) : Prop := ∃ tx, Gives (readTx lib row (db.outputsOf row)) tx

/-- What the row is listed as, if it can be read. -/
def shown (db : Db) (row : TxRow) : Option (WalletTx × Multiset WalletTxOutput) :=
  match (readTx lib row (db.outputsOf row)).run with
  | .ok (.ok tx) => some tx.content
  | _ => none

end

section
variable {lib : ListTxLib}

/-! ### Texts tell bytes apart -/

theorem hexByte_injective : Function.Injective hexByte := by
  have hdigit : ∀ m < 16, ∀ n < 16, Nat.digitChar m = Nat.digitChar n → m = n := by decide
  intro a b h
  have hhigh := hdigit _ (by have := a.toNat_lt; omega) _ (by have := b.toNat_lt; omega)
    (List.cons.inj h).1
  have hlow := hdigit _ (Nat.mod_lt _ (by omega)) _ (Nat.mod_lt _ (by omega))
    (List.cons.inj (List.cons.inj h).2).1
  exact UInt8.toNat_inj.mp (by omega)

theorem hexEncode_injective : Function.Injective hexEncode := by
  intro a
  induction a with
  | nil =>
      intro b h
      cases b with
      | nil => rfl
      | cons y b => cases h
  | cons x a ih =>
      intro b h
      cases b with
      | nil => cases h
      | cons y b =>
          obtain ⟨hbyte, hrest⟩ := List.append_inj h rfl
          rw [hexByte_injective hbyte, ih hrest]

theorem hexEncode_append (a b : List UInt8) : hexEncode (a ++ b) = hexEncode a ++ hexEncode b :=
  List.flatMap_append

theorem hexEncode_filter (bytes : List UInt8) :
    (hexEncode bytes).filter (· ≠ '-') = hexEncode bytes := by
  have hdigit : ∀ n < 16, Nat.digitChar n ≠ '-' := by decide
  refine List.filter_eq_self.mpr ?_
  intro c hc
  obtain ⟨b, _, hb⟩ := List.mem_flatMap.mp hc
  have hlt := b.toNat_lt
  rcases List.mem_pair.mp hb with rfl | rfl
  · exact decide_eq_true (hdigit _ (by omega))
  · exact decide_eq_true (hdigit _ (by omega))

/-- Without the hyphens, it is the bytes. -/
theorem Uuid.chars_filter (uuid : Uuid) : uuid.chars.filter (· ≠ '-') = hexEncode uuid.bytes := by
  have hsplit : ∀ m n,
      (uuid.bytes.drop m).take n ++ uuid.bytes.drop (m + n) = uuid.bytes.drop m := by
    intro m n
    rw [← List.drop_drop, List.take_append_drop]
  have hhyphen : ∀ cs : List Char, ('-' :: cs).filter (· ≠ '-') = cs.filter (· ≠ '-') :=
    fun _ => List.filter_cons_of_neg (by decide)
  rw [chars, List.filter_append, hhyphen, List.filter_append, hhyphen, List.filter_append, hhyphen,
    List.filter_append, hhyphen, hexEncode_filter, hexEncode_filter, hexEncode_filter,
    hexEncode_filter, hexEncode_filter, ← hexEncode_append, hsplit 8 2, ← hexEncode_append,
    hsplit 6 2, ← hexEncode_append, hsplit 4 2, ← hexEncode_append, List.take_append_drop]

theorem Uuid.toString_injective : Function.Injective Uuid.toString := by
  intro a b h
  have hbytes := congrArg (List.filter (· ≠ '-')) (String.ofList_injective h)
  rw [a.chars_filter, b.chars_filter] at hbytes
  cases a
  cases b
  cases hexEncode_injective hbytes
  rfl

theorem txidToString_injective : Function.Injective txidToString := by
  intro a b h
  exact List.reverse_injective (hexEncode_injective (String.ofList_injective h))

/-! ### A transaction shows its row -/

/-- Where what `f` gives tells what it was given, so does what it gives of a nullable column. -/
theorem nullable_shows {α β : Type} {f : α → Read β} {g : β → α} {x : Option α} {y : Option β}
    (hf : ∀ a b, Gives (f a) b → g b = a) (h : Gives (nullable f x) y) : y.map g = x := by
  cases x with
  | none =>
      cases gives_pure.mp h
      rfl
  | some a =>
      obtain ⟨b, hb, rfl⟩ := gives_map.mp h
      rw [Option.map_some, hf a b hb]

theorem integer_shows {column bound n : ℕ} {value : ℤ} (h : Gives (integer column bound value) n) :
    (n : ℤ) = value := by
  rw [integer] at h
  split at h
  case isTrue hrange =>
    rw [← gives_pure.mp h, Int.toNat_of_nonneg hrange.1]
  case isFalse => exact absurd h not_gives_throw

theorem fromBytes_eq_some {bytes : List UInt8} {uuid : Uuid} :
    Uuid.fromBytes bytes = some uuid ↔ uuid.bytes = bytes := by
  rw [Uuid.fromBytes]
  split
  case isTrue hlength =>
    constructor
    · intro h
      cases h
      rfl
    · intro h
      cases h
      rfl
  case isFalse hlength =>
    refine iff_of_false nofun ?_
    rintro rfl
    exact hlength uuid.length_eq

theorem zatoshisOf_eq_ok {value : ℤ} {z : Zatoshis} :
    zatoshisOf value = .ok z ↔ (z.value : ℤ) = value := by
  have hmoney := z.le_maxMoney
  rw [zatoshisOf]
  split
  case isTrue hle =>
    split
    case isTrue hnonneg =>
      constructor
      · intro h
        cases h
        exact Int.toNat_of_nonneg hnonneg
      · intro h
        cases h
        rfl
    case isFalse hneg =>
      refine iff_of_false ?_ (by omega)
      intro h
      cases h
  case isFalse hlarge =>
    refine iff_of_false ?_ (by omega)
    intro h
    cases h

theorem zatBalanceOf_eq_ok {value : ℤ} {z : ZatBalance} :
    zatBalanceOf value = .ok z ↔ z.value = value := by
  rw [zatBalanceOf]
  split
  case isTrue hwithin =>
    constructor
    · intro h
      cases h
      rfl
    · intro h
      cases h
      rfl
  case isFalse hlarge =>
    refine iff_of_false nofun ?_
    rintro rfl
    exact hlarge z.within

theorem readFee_shows {v fee : ℕ} (h : Gives (readFee v) fee) : fee = v := by
  obtain ⟨zatoshis, hzatoshis, hfee⟩ := gives_bind.mp h
  obtain ⟨hmoney, rfl⟩ := zatoshisOf_eq_ok.mp (gives_mapErr.mp hzatoshis)
  exact (gives_pure.mp hfee).symm

/-- Each column is shown as it is, the two identifiers by their texts. -/
structure WalletTx.Shows (tx : WalletTx) (row : TxRow) : Prop where
  accountUuid : ∃ uuid : Uuid, uuid.bytes = row.accountUuid ∧ uuid.toString = tx.accountUuid
  minedHeight : tx.minedHeight.map Int.ofNat = row.minedHeight
  txid : txidToString row.txid = tx.txid
  expiryHeight : tx.expiryHeight.map Int.ofNat = row.expiryHeight
  accountBalanceDelta : tx.accountBalanceDelta = row.accountBalanceDelta
  feePaid : tx.feePaid.map Int.ofNat = row.feePaid
  sentNoteCount : tx.sentNoteCount = row.sentNoteCount
  receivedNoteCount : tx.receivedNoteCount = row.receivedNoteCount
  blockTime : tx.blockTime = row.blockTime
  expiredUnmined : tx.expiredUnmined = row.expiredUnmined

theorem readTx_shows {row : TxRow} {outputs : List OutputRow} {tx : WalletTx}
    (h : Gives (readTx lib row outputs) tx) : tx.Shows row := by
  obtain ⟨outs, -, h⟩ := gives_bind.mp h
  obtain ⟨mined, hmined, h⟩ := gives_bind.mp h
  obtain ⟨expiry, hexpiry, h⟩ := gives_bind.mp h
  obtain ⟨fee, hfee, h⟩ := gives_bind.mp h
  obtain ⟨sent, hsent, h⟩ := gives_bind.mp h
  obtain ⟨received, hreceived, h⟩ := gives_bind.mp h
  obtain ⟨uuid, huuid, h⟩ := gives_bind.mp h
  obtain ⟨_, -, h⟩ := gives_bind.mp h
  obtain ⟨delta, hdelta, h⟩ := gives_bind.mp h
  obtain ⟨paid, hpaid, h⟩ := gives_bind.mp h
  obtain ⟨datetime, -, h⟩ := gives_bind.mp h
  cases gives_pure.mp h
  have hbytes := fromBytes_eq_some.mp (gives_okOr.mp huuid)
  have hmoney := zatBalanceOf_eq_ok.mp (gives_mapErr.mp hdelta)
  have hpaid : paid = fee := by
    rw [← Option.map_id_apply (x := paid)]
    exact nullable_shows (g := id) (fun _ _ h => readFee_shows h) hpaid
  exact
    { accountUuid := ⟨uuid, hbytes, rfl⟩
      minedHeight := nullable_shows (fun _ _ h => integer_shows h) hmined
      txid := rfl
      expiryHeight := nullable_shows (fun _ _ h => integer_shows h) hexpiry
      accountBalanceDelta := hmoney
      feePaid := hpaid ▸ nullable_shows (fun _ _ h => integer_shows h) hfee
      sentNoteCount := integer_shows hsent
      receivedNoteCount := integer_shows hreceived
      blockTime := rfl
      expiredUnmined := rfl }

/-- Rows that are listed alike are the same. -/
theorem WalletTx.Shows.row_eq {tx tx' : WalletTx} {row row' : TxRow} (h : tx.Shows row)
    (h' : tx'.Shows row') (hcontent : tx.content = tx'.content) : row = row' := by
  obtain ⟨uuid, hbytes, huuid⟩ := h.accountUuid
  obtain ⟨uuid', hbytes', huuid'⟩ := h'.accountUuid
  have hcolumns := (Prod.mk.inj hcontent).1
  simp only [WalletTx.mk.injEq, and_true] at hcolumns
  obtain ⟨haccount, hmined, htxid, hexpiry, hdelta, hfee, hsent, hreceived, htime, -, hexpired⟩ :=
    hcolumns
  have huuids : uuid = uuid' := Uuid.toString_injective (huuid.trans (haccount.trans huuid'.symm))
  exact TxRow.ext (hbytes.symm.trans ((congrArg Uuid.bytes huuids).trans hbytes'))
    (h.minedHeight.symm.trans ((congrArg _ hmined).trans h'.minedHeight))
    (txidToString_injective (h.txid.trans (htxid.trans h'.txid.symm)))
    (h.expiryHeight.symm.trans ((congrArg _ hexpiry).trans h'.expiryHeight))
    (h.accountBalanceDelta.symm.trans (hdelta.trans h'.accountBalanceDelta))
    (h.feePaid.symm.trans ((congrArg _ hfee).trans h'.feePaid))
    (h.sentNoteCount.symm.trans ((congrArg _ hsent).trans h'.sentNoteCount))
    (h.receivedNoteCount.symm.trans ((congrArg _ hreceived).trans h'.receivedNoteCount))
    (h.blockTime.symm.trans (htime.trans h'.blockTime))
    (h.expiredUnmined.symm.trans (hexpired.trans h'.expiredUnmined))

/-! ### What a call lists -/

/-- In which order the outputs come makes no difference to the content. -/
theorem readTx_perm {row : TxRow} {outputs outputs' : List OutputRow} {tx : WalletTx}
    (h : Gives (readTx lib row outputs) tx) (hperm : outputs.Perm outputs') :
    ∃ tx', Gives (readTx lib row outputs') tx' ∧ tx'.content = tx.content := by
  obtain ⟨outs, houts, h⟩ := gives_bind.mp h
  obtain ⟨outs', houts', hsame⟩ := gives_mapM_perm houts hperm
  simp only [WalletTx.fromParts, gives_bind, gives_pure] at h
  obtain ⟨mined, hmined, expiry, hexpiry, fee, hfee, sent, hsent, received, hreceived, uuid, huuid,
    _, htxid, delta, hdelta, paid, hpaid, datetime, hdatetime, htx⟩ := h
  refine ⟨{ tx with outputs := outs' }, gives_bind.mpr ⟨outs', houts', ?_⟩, ?_⟩
  · subst htx
    simp only [WalletTx.fromParts, gives_bind, gives_pure]
    exact ⟨mined, hmined, expiry, hexpiry, fee, hfee, sent, hsent, received, hreceived, uuid, huuid,
      (), htxid, delta, hdelta, paid, hpaid, datetime, hdatetime, rfl⟩
  · subst htx
    exact Prod.ext rfl (Quot.sound hsame)

theorem shown_eq {db : Db} {row : TxRow} {tx : WalletTx}
    (h : Gives (readTx lib row (db.outputsOf row)) tx) : shown lib db row = some tx.content := by
  rw [shown, show (readTx lib row (db.outputsOf row)).run = .ok (.ok tx) from h]

theorem shown_inj {db : Db} {row row' : TxRow} (h : Readable lib db row)
    (h' : Readable lib db row') (heq : shown lib db row = shown lib db row') : row = row' := by
  obtain ⟨tx, htx⟩ := h
  obtain ⟨tx', htx'⟩ := h'
  rw [shown_eq htx, shown_eq htx'] at heq
  exact (readTx_shows htx).row_eq (readTx_shows htx') (Option.some.inj heq)

variable {engine : Engine} {db : Db} {account : Option Uuid}
  {startHeight endHeight offset limit : Option ℕ}

theorem mem_asked {row : TxRow}
    (h : row ∈ asked engine db account startHeight endHeight offset limit) :
    row ∈ db.selected account startHeight endHeight := by
  refine (engine.arranged _).1.mem_iff.mp ?_
  rw [asked, limited] at h
  split at h
  case isTrue => exact List.mem_of_mem_drop h
  case isFalse => exact List.mem_of_mem_drop (List.mem_of_mem_take h)

/-- Where its rows can be read, a call lists each as it is shown. -/
theorem exists_queryTransactions (lib : ListTxLib) (engine : Engine) (db : Db)
    (account : Option Uuid) (startHeight endHeight offset limit : Option ℕ)
    (h : ∀ row ∈ asked engine db account startHeight endHeight offset limit, Readable lib db row) :
    ∃ txs, Gives (queryTransactions lib engine db account startHeight endHeight offset limit) txs ∧
      txs.map (fun tx => some tx.content) =
        (asked engine db account startHeight endHeight offset limit).map (shown lib db) := by
  have hrows : ∀ row ∈ (asked engine db account startHeight endHeight offset limit).zipIdx,
      ∃ tx, Gives (readTx lib row.1 (engine.outputs row.2 (db.outputsOf row.1))) tx ∧
        some tx.content = shown lib db row.1 := by
    intro row hrow
    obtain ⟨tx, htx⟩ := h row.1 (List.fst_mem_of_mem_zipIdx hrow)
    obtain ⟨tx', htx', hcontent⟩ := readTx_perm htx (engine.outputs_perm row.2 _).symm
    exact ⟨tx', htx', by rw [hcontent, shown_eq htx]⟩
  obtain ⟨txs, htxs, hshown⟩ := exists_gives_mapM hrows
  refine ⟨txs, htxs, hshown.trans ?_⟩
  have hfst : (fun row : TxRow × ℕ => shown lib db row.1) = shown lib db ∘ Prod.fst := rfl
  rw [hfst, ← List.map_map, List.zipIdx_map_fst]

/-- A call lists nothing, unless it can read all its rows. -/
theorem readable_of_queryTransactions {txs : List WalletTx}
    (h : Gives (queryTransactions lib engine db account startHeight endHeight offset limit) txs) :
    ∀ row ∈ asked engine db account startHeight endHeight offset limit, Readable lib db row := by
  intro row hrow
  obtain ⟨i, hi, rfl⟩ := List.getElem_of_mem hrow
  obtain ⟨tx, _, htx⟩ := forall₂_mem (gives_mapM.mp h) (_, i)
    (List.mem_zipIdx_iff_getElem?.mpr (List.getElem?_eq_getElem hi))
  obtain ⟨tx', htx', -⟩ := readTx_perm htx (engine.outputs_perm i _)
  exact ⟨tx', htx'⟩

theorem shown_of_queryTransactions {txs : List WalletTx}
    (h : Gives (queryTransactions lib engine db account startHeight endHeight offset limit) txs) :
    txs.map (fun tx => some tx.content) =
      (asked engine db account startHeight endHeight offset limit).map (shown lib db) := by
  obtain ⟨txs', htxs', hshown⟩ := exists_queryTransactions lib engine db account startHeight
    endHeight offset limit (readable_of_queryTransactions h)
  rwa [h.unique htxs']

/-! ### What the pages list -/

theorem asked_whole (engine : Engine) (db : Db) (account : Option Uuid)
    (startHeight endHeight : Option ℕ) :
    asked engine db account startHeight endHeight none none =
      engine.order (db.selected account startHeight endHeight) := by
  rw [asked, limited, if_pos (by decide)]
  rfl

theorem asked_page (engine : Engine) (db : Db) (account : Option Uuid)
    (startHeight endHeight : Option ℕ) (k i : ℕ) :
    asked engine db account startHeight endHeight (some (i * k)) (some k) =
      Paging.page k i (engine.order (db.selected account startHeight endHeight)) := by
  rw [asked, limited, if_neg (by simp)]
  rfl

theorem whole_shown {whole : List WalletTx}
    (h : Gives (queryTransactions lib engine db account startHeight endHeight none none) whole) :
    ((whole.map WalletTx.content).map some).Perm
      ((db.selected account startHeight endHeight).map (shown lib db)) := by
  have hshown := shown_of_queryTransactions h
  rw [asked_whole] at hshown
  rw [List.map_map]
  exact (List.Perm.of_eq hshown).trans ((engine.arranged _).1.map _)

/-- An engine that has chosen this order for these rows. -/
def Engine.choosing (rows order : List TxRow) (h : Paging.Arranged sortHeight rows order) :
    Engine where
  order rows' := if rows' = rows then order else Paging.sorted sortHeight rows'
  arranged rows' := by
    split
    case isTrue heq => exact heq ▸ h
    case isFalse => exact Paging.arranged_sorted sortHeight rows'
  outputs _ rows' := rows'
  outputs_perm _ rows' := .refl rows'

theorem Engine.choosing_order {rows order : List TxRow}
    (h : Paging.Arranged sortHeight rows order) : (choosing rows order h).order rows = order :=
  if_pos rfl

theorem gives_call {accountUuid : Option String} {txs : List WalletTx} :
    Gives (call lib engine db accountUuid startHeight endHeight offset limit) txs ↔
      ∃ account, Gives (parseAccount lib accountUuid) account ∧
        Gives (queryTransactions lib engine db account startHeight endHeight offset limit) txs := by
  simp only [call, gives_bind, gives_adapt]

/-- What the pages list is what they show of the rows. -/
theorem flatMap_shown {engines : ℕ → Engine} {pages : ℕ → List WalletTx} {k n : ℕ}
    (h : ∀ i < n, Gives (queryTransactions lib (engines i) db account startHeight endHeight
      (some (i * k)) (some k)) (pages i)) :
    (((List.range n).flatMap pages).map WalletTx.content).map some =
      ((List.range n).flatMap fun i => Paging.page k i
        ((engines i).order (db.selected account startHeight endHeight))).map (shown lib db) := by
  rw [List.map_map, List.map_flatMap, List.map_flatMap]
  refine List.flatMap_congr ?_
  intro i hi
  rw [← asked_page]
  exact shown_of_queryTransactions (h i (List.mem_range.mp hi))

theorem Whole.unsplit {accountUuid : Option String} {k : ℕ} (hk : 0 < k)
    (h : Whole lib db accountUuid startHeight endHeight k)
    (haccount : Gives (parseAccount lib accountUuid) account)
    (hreadable : ∀ row ∈ db.selected account startHeight endHeight, Readable lib db row) :
    (db.selected account startHeight endHeight).length ≤ offsets k * k ∧
      Paging.Unsplit sortHeight id (db.selected account startHeight endHeight) k := by
  have hpages := (Paging.pages_iff sortHeight (shown lib db)
    (db.selected account startHeight endHeight) hk (offsets k)).mp ?_
  · refine ⟨hpages.1, (Paging.unsplit_iff_id ?_).mp hpages.2⟩
    intro row hrow row' hrow' heq
    exact shown_inj (hreadable row hrow) (hreadable row' hrow') heq
  · intro order horder
    let engines (i : ℕ) := Engine.choosing _ (order i) (horder i)
    obtain ⟨whole, hwhole, -⟩ := exists_queryTransactions lib (engines 0) db account
      startHeight endHeight none none fun row hrow => hreadable row (mem_asked hrow)
    obtain ⟨pages, hpages, hperm⟩ := h (engines 0) engines whole
      (gives_call.mpr ⟨account, haccount, hwhole⟩)
    have hlisted : ∀ i < offsets k, Gives (queryTransactions lib (engines i) db account startHeight
        endHeight (some (i * k)) (some k)) (pages i) := by
      intro i hi
      obtain ⟨account', haccount', hpage⟩ := gives_call.mp (hpages i hi)
      rwa [haccount.unique haccount']
    have hrows := hperm.map some
    rw [flatMap_shown hlisted] at hrows
    have horders : ∀ i, (engines i).order (db.selected account startHeight endHeight) = order i :=
      fun i => Engine.choosing_order (horder i)
    simp only [horders] at hrows
    exact hrows.trans (whole_shown hwhole)

theorem whole_of_unsplit {accountUuid : Option String} {k : ℕ} (hk : 0 < k)
    (h : ∀ account, Gives (parseAccount lib accountUuid) account →
      (∀ row ∈ db.selected account startHeight endHeight, Readable lib db row) →
      (db.selected account startHeight endHeight).length ≤ offsets k * k ∧
        Paging.Unsplit sortHeight id (db.selected account startHeight endHeight) k) :
    Whole lib db accountUuid startHeight endHeight k := by
  intro engine engines whole hwhole
  obtain ⟨account, haccount, hquery⟩ := gives_call.mp hwhole
  have hreadable : ∀ row ∈ db.selected account startHeight endHeight, Readable lib db row := by
    intro row hrow
    refine readable_of_queryTransactions hquery row ?_
    rw [asked_whole]
    exact (engine.arranged _).1.mem_iff.mpr hrow
  obtain ⟨hcover, hunsplit⟩ := h account haccount hreadable
  have hunsplit := (Paging.unsplit_iff_id fun row hrow row' hrow' heq =>
    shown_inj (hreadable row hrow) (hreadable row' hrow') heq).mpr hunsplit
  have hpage : ∀ i, ∃ page, Gives (queryTransactions lib (engines i) db account startHeight
      endHeight (some (i * k)) (some k)) page := by
    intro i
    obtain ⟨page, hpage, -⟩ := exists_queryTransactions lib (engines i) db account startHeight
      endHeight (some (i * k)) (some k) fun row hrow => hreadable row (mem_asked hrow)
    exact ⟨page, hpage⟩
  choose pages hpages using hpage
  refine ⟨pages, fun i _ => gives_call.mpr ⟨account, haccount, hpages i⟩, ?_⟩
  refine (List.map_perm_map_iff (Option.some_injective _)).mp ?_
  rw [flatMap_shown fun i _ => hpages i]
  exact ((Paging.pages_iff _ _ _ hk _).mpr ⟨hcover, hunsplit⟩ _ fun i => (engines i).arranged _).trans
    (whole_shown hquery).symm

/-- The pages are together what a call without a limit lists, whatever the engine chooses, just
when an offset reaches each row, and rows of one sort height that differ are on one page. -/
theorem whole_iff (lib : ListTxLib) (db : Db) (accountUuid : Option String)
    (startHeight endHeight : Option ℕ) (k : ℕ) (hk : 0 < k) :
    Whole lib db accountUuid startHeight endHeight k ↔
      ∀ account, Gives (parseAccount lib accountUuid) account →
        (∀ row ∈ db.selected account startHeight endHeight, Readable lib db row) →
        (db.selected account startHeight endHeight).length ≤ offsets k * k ∧
          Paging.Unsplit sortHeight id (db.selected account startHeight endHeight) k :=
  ⟨fun h _ haccount hreadable => h.unsplit hk haccount hreadable, whole_of_unsplit hk⟩

end

/-! ### Two transactions of one block -/

/-- Of no use here: no row below has a time or a memo. -/
def timelessLib : ListTxLib where
  tryParseUuid _ := none
  OffsetDateTime := ℤ
  fromUnixTimestamp t := if t = 0 then .ok 0 else .error "not needed"
  formatRfc3339 t := if t = 0 then some "1970-01-01T00:00:00Z" else none
  memo _ := .error "not needed"
  displayError _ := "not needed"

/-- A transaction that pays the account a zatoshi. -/
def received (height : ℤ) (id : UInt8) : TxRow where
  accountUuid := List.replicate 16 7
  minedHeight := some height
  txid := List.replicate 32 id
  expiryHeight := some 0
  accountBalanceDelta := 1
  feePaid := none
  sentNoteCount := 0
  receivedNoteCount := 1
  blockTime := none
  expiredUnmined := false

def receivedTx (height : ℕ) (id : UInt8) : WalletTx where
  accountUuid := Uuid.toString ⟨List.replicate 16 7, rfl⟩
  minedHeight := some height
  txid := txidToString (List.replicate 32 id)
  expiryHeight := some 0
  accountBalanceDelta := 1
  feePaid := none
  sentNoteCount := 0
  receivedNoteCount := 1
  blockTime := none
  blockDatetime := none
  expiredUnmined := false
  outputs := []

def twoBlocks : Db := ⟨[received 5 1, received 6 2], []⟩

theorem whole_iff_two_blocks : 0 < 1 ∧ Whole timelessLib twoBlocks none none none 1 := by
  refine ⟨by decide, (whole_iff timelessLib twoBlocks none none none 1 (by decide)).mpr ?_⟩
  intro account haccount _
  cases gives_pure.mp haccount
  decide

def oneBlock : Db := ⟨[received 5 1, received 5 2], []⟩

/-- The engine that has the second transaction first. -/
def secondFirst : Engine :=
  .choosing (oneBlock.selected none none none) [received 5 2, received 5 1] (by decide)

/-- The engine that has them in the order of the table. -/
def firstFirst : Engine :=
  .choosing (oneBlock.selected none none none) [received 5 1, received 5 2] (by decide)

theorem repeated_and_lost :
    Gives (call timelessLib firstFirst oneBlock none none none none none)
      [receivedTx 5 1, receivedTx 5 2] ∧
    Gives (call timelessLib firstFirst oneBlock none none none (some 0) (some 1))
      [receivedTx 5 1] ∧
    Gives (call timelessLib secondFirst oneBlock none none none (some 1) (some 1))
      [receivedTx 5 1] ∧
    ¬ Whole timelessLib oneBlock none none none 1 := by
  refine ⟨rfl, rfl, rfl, ?_⟩
  intro h
  have hreadable : ∀ row ∈ oneBlock.selected none none none, Readable timelessLib oneBlock row := by
    intro row hrow
    rcases List.mem_pair.mp hrow with rfl | rfl
    · exact ⟨receivedTx 5 1, rfl⟩
    · exact ⟨receivedTx 5 2, rfl⟩
  have hunsplit := (h.unsplit (by decide) (gives_pure.mpr rfl) hreadable).2
  exact absurd hunsplit (by decide)

end Zallet.ListTransactions
