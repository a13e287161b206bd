/-
# `Zallet.Rpc.RawTransaction` — a transaction and the block it is in

`json_rpc/methods/get_raw_transaction.rs`: what is said of the block that a
transaction is in.  The reply is documented to name the block's height, or -1
where the block is not in the best chain, and the number of confirmations, or
0 there; the code copies them from what the chain view returns, so they are as
documented only where the backend knows the transaction at a place that its
view has (`Backend.Placed`):

  * Zebra returns a block without its height for a transaction on a side
    chain, and a height without a block for one above the tip of the view;
  * Zaino returns an orphaned block with its height.

The rendering of the transaction itself is the library's (`RawTxLib`).
-/
import Mathlib.Algebra.Group.Nat.Defs
import Mathlib.Algebra.Ring.Int.Defs
import Zallet.Backends
import Zallet.Rpc.Error
import Zallet.Zebra.Pinned

namespace Zallet.RawTransaction

open Prog RpcResult

/-! ## The call -/

/-- What the call uses of its libraries. -/
structure RawTxLib where
  /-- What `tx_to_json` makes of a transaction and its size. -/
  TransactionDetails : Type
  txToJson : Transaction → ℕ → TransactionDetails
  hexEncode : List UInt8 → String
  /-- `ReverseHex::decode` -/
  decodeTxid : String → Option TxId
  decodeBlockHash : String → Option BlockHash

/-- A transaction as the chain view returns it, with its bytes. -/
structure FetchedTx extends ChainTx where
  raw : List UInt8

/-- What the chain view answers; each method is called at most once. -/
structure RawTxView where
  getTransaction : TxId → Except ChainError (Option FetchedTx)
  getBlockHeader : ℕ → Except ChainError (Option BlockHeader)
  tip : Except ChainError ChainBlock

/-- Verbose information about a transaction.  `time` is always `blocktime`. -/
structure TransactionInfo (lib : RawTxLib) where
  inActiveChain : Option Bool
  hex : String
  inner : lib.TransactionDetails
  blockhash : Option BlockHash
  height : Option ℤ
  confirmations : Option ℕ
  time : Option ℕ
  blocktime : Option ℕ

inductive ResultType (lib : RawTxLib) where
  | concise (hex : String)
  | verbose (info : TransactionInfo lib)

/-- A panic is told by its message. -/
abbrev Response (α : Type) := RpcResult String α

/-- How a chain error reads. -/
def displayError : ChainError → String
  | .unavailable e => "chain source unavailable: " ++ e
  | .invalidData e => "chain source returned invalid data: " ++ e
  | .backend e => "chain backend error: " ++ e

def databaseError (e : ChainError) : RpcError := LegacyCode.database.withMessage (displayError e)

/-- `i32::try_from(..).ok()` of a height. -/
def heightOfI32 (height : ℕ) : Option ℤ := if height < 2 ^ 31 then some height else none

def parseBlockHash (lib : RawTxLib) : Option String → Response (Option BlockHash)
  | none => pure none
  | some s => some <$> okOr (lib.decodeBlockHash s)
      (LegacyCode.invalidParameter.withMessage "invalid blockhash")

/-- Whether the requested block is the one of the active chain at its height; the transaction has to
be in it. -/
def inActiveChain (view : RawTxView) (tx : ChainTx) :
    Option BlockHash → Response (Option Bool)
  | none => pure none
  | some requested => do
      refuseIf (tx.blockHash ≠ some requested)
        (LegacyCode.invalidAddressOrKey.withMessage
          "No such transaction found in the provided block")
      let minedHeight ← expect tx.minedHeight "a transaction with a block hash has a mined height"
      let header ← mapErr (view.getBlockHeader minedHeight) databaseError
      pure (some (header.map (·.hash) = some requested))

def call (lib : RawTxLib) (snapshot : Except ChainError RawTxView) (txidStr : String)
    (verbose : Option ℕ) (blockhash : Option String) : Response (ResultType lib) := do
  let txid ← okOr (lib.decodeTxid txidStr) (LegacyCode.invalidParameter.withMessage "invalid txid")
  let requestedBlock ← parseBlockHash lib blockhash
  let view ← mapErr snapshot databaseError
  let found ← mapErr (view.getTransaction txid) databaseError
  let tx ← okOr found (LegacyCode.invalidAddressOrKey.withMessage
    "No such mempool or blockchain transaction")
  let active ← inActiveChain view tx.toChainTx requestedBlock
  let chainTip ← mapErr view.tip databaseError
  if verbose.any (· ≠ 0) then
    pure (.verbose
      { inActiveChain := active
        hex := lib.hexEncode tx.raw
        inner := lib.txToJson tx.inner tx.raw.length
        blockhash := tx.blockHash
        height := tx.minedHeight.bind heightOfI32
        confirmations := tx.minedHeight.map (chainTip.height + 1 - ·)
        time := tx.blockTime
        blocktime := tx.blockTime })
  else pure (.concise (lib.hexEncode tx.raw))

/-! ## What the reply is documented to be -/

/-- The best chain of a view.  No two of its blocks have the same hash. -/
structure ViewChain extends History where
  distinct : (blocks.map (·.hash)).Nodup

/-- The documentation of the fields `blockhash`, `height` and `confirmations`. -/
structure TransactionInfo.Documented {lib : RawTxLib} (c : ViewChain) (info : TransactionInfo lib) :
    Prop where
  unknown : info.blockhash = none → info.height = none ∧ info.confirmations = none
  bestChain : ∀ hash height, info.blockhash = some hash → c.hashAt height = some hash →
    info.height = some (height : ℤ) ∧ info.confirmations = some (c.tip.height - height + 1)
  offBestChain : ∀ hash, info.blockhash = some hash → (∀ height, c.hashAt height ≠ some hash) →
    info.height = some (-1) ∧ info.confirmations = some 0

/-- Whatever is requested of the transaction, the call comes back, and what it says is as
documented. -/
structure Documents (c : ViewChain) (lib : RawTxLib) (snapshot : Except ChainError RawTxView)
    (txidStr : String) : Prop where
  settles : ∀ verbose blockhash, Settles (call lib snapshot txidStr verbose blockhash)
  replies : ∀ verbose blockhash info,
    Gives (call lib snapshot txidStr verbose blockhash) (.verbose info) → info.Documented c

/-- The transaction is in a block of the view's best chain, or in none. -/
inductive RightPlace (c : ViewChain) (tx : ChainTx) : Prop
  | mined {height : ℕ} {hash : BlockHash} :
      c.hashAt height = some hash → height < 2 ^ 31 → tx.minedHeight = some height →
      tx.blockHash = some hash → RightPlace c tx
  | unmined : tx.minedHeight = none → tx.blockHash = none → RightPlace c tx

section
variable {c : ViewChain} {lib : RawTxLib}

theorem ViewChain.hashAt_inj {height height' : ℕ} {hash : BlockHash}
    (h : c.hashAt height = some hash) (h' : c.hashAt height' = some hash) : height = height' := by
  have hmap : ∀ i, c.hashAt i = (c.blocks.map (·.hash))[i]? := by
    intro i
    rw [History.hashAt, List.getElem?_map]
  rw [hmap] at h h'
  obtain ⟨hlt, -⟩ := List.getElem?_eq_some_iff.mp h
  exact (List.getElem?_inj hlt c.distinct).mp (h.trans h'.symm)

theorem heightOfI32_eq_some {height : ℕ} {z : ℤ} :
    heightOfI32 height = some z ↔ height < 2 ^ 31 ∧ (height : ℤ) = z := by
  rw [heightOfI32]
  split
  case isTrue hlt => rw [Option.some_inj, and_iff_right hlt]
  case isFalse hlarge => exact iff_of_false nofun fun h => hlarge h.1

theorem TransactionInfo.Documented.rightPlace {tx : ChainTx} {info : TransactionInfo lib}
    (h : info.Documented c) (hblock : info.blockhash = tx.blockHash)
    (hheight : info.height = tx.minedHeight.bind heightOfI32)
    (hconfirmations : info.confirmations = tx.minedHeight.map (c.tip.height + 1 - ·)) :
    RightPlace c tx := by
  cases hhash : tx.blockHash with
  | none =>
      have hnone := (h.unknown (hblock.trans hhash)).2
      rw [hconfirmations] at hnone
      exact .unmined (Option.map_eq_none_iff.mp hnone) hhash
  | some hash =>
      by_cases hon : ∃ height, c.hashAt height = some hash
      · obtain ⟨height, hon⟩ := hon
        have htold := (h.bestChain hash height (hblock.trans hhash) hon).1
        rw [hheight] at htold
        obtain ⟨mined, hmined, hfits⟩ := Option.bind_eq_some_iff.mp htold
        obtain ⟨hlt, hsame⟩ := heightOfI32_eq_some.mp hfits
        obtain rfl : mined = height := by exact_mod_cast hsame
        exact .mined hon hlt hmined hhash
      · have htold := (h.offBestChain hash (hblock.trans hhash) (not_exists.mp hon)).1
        rw [hheight] at htold
        obtain ⟨mined, -, hfits⟩ := Option.bind_eq_some_iff.mp htold
        have hnegative := (heightOfI32_eq_some.mp hfits).2
        omega

theorem RightPlace.documented {tx : ChainTx} {info : TransactionInfo lib} (h : RightPlace c tx)
    (hblock : info.blockhash = tx.blockHash) (hheight : info.height = tx.minedHeight.bind heightOfI32)
    (hconfirmations : info.confirmations = tx.minedHeight.map (c.tip.height + 1 - ·)) :
    info.Documented c := by
  cases h with
  | unmined hmined hhash =>
      rw [hmined] at hheight hconfirmations
      rw [hhash] at hblock
      refine ⟨fun _ => ⟨hheight, hconfirmations⟩, ?_, ?_⟩
      · intro hash height hsome
        cases hblock.symm.trans hsome
      · intro hash hsome
        cases hblock.symm.trans hsome
  | @mined height hash hon hlt hmined hhash =>
      rw [hmined] at hheight hconfirmations
      rw [hhash] at hblock
      refine ⟨?_, ?_, ?_⟩
      · intro hnone
        cases hblock.symm.trans hnone
      · intro hash' height' hsome hon'
        cases hblock.symm.trans hsome
        obtain rfl := ViewChain.hashAt_inj hon hon'
        have hle := History.height_le_tip hon
        have hcount : c.tip.height + 1 - height = c.tip.height - height + 1 := by omega
        constructor
        · exact hheight.trans (heightOfI32_eq_some.mpr ⟨hlt, rfl⟩)
        · rw [hconfirmations, Option.map_some, hcount]
      · intro hash' hsome hoff
        cases hblock.symm.trans hsome
        exact absurd hon (hoff height)

/-- A reply copies the transaction's place, so it is documented just when that is the right one. -/
theorem documented_iff {tx : ChainTx} {info : TransactionInfo lib}
    (hblock : info.blockhash = tx.blockHash) (hheight : info.height = tx.minedHeight.bind heightOfI32)
    (hconfirmations : info.confirmations = tx.minedHeight.map (c.tip.height + 1 - ·)) :
    info.Documented c ↔ RightPlace c tx :=
  ⟨fun h => h.rightPlace hblock hheight hconfirmations, fun h =>
    h.documented hblock hheight hconfirmations⟩

end

/-! ## Where the backends know transactions -/

/-- An index of the best chain `c`, and of blocks that are not on it. -/
structure IndexOf (c : History) extends IndexState where
  best : ∀ {txid hash height}, (location txid).1 = some (.block hash height) →
    c.hashAt height = some hash
  orphaned : ∀ {txid hash height}, .block hash height ∈ (location txid).2 →
    ∀ height', c.hashAt height' ≠ some hash

def IndexOf.Answers {c : History} (s : IndexOf c) : IndexEvent → Prop
  | ⟨.bestChaintip _, .ok r⟩ => r = c.tip
  | e => s.toIndexState.Answers e

/-- What a backend has of transactions.  Zebra's answers are each from some state of a later best
chain; a lookup asks each question once. -/
abbrev PlaceState (c : ViewChain) : Backend → Type
  | .zebra => TxState
  | .zaino => IndexOf c.toHistory

def ZebraAnswers (c : ViewChain) (s : TxState) (e : ReaderEvent) : Prop :=
  (∃ later : LaterState c.toHistory, later.Answers e) ∧ s.Answers e

/-- The view's answer about a transaction, without its bytes. -/
def RawTxView.lookup (view : RawTxView) (txid : TxId) : Except ChainError (Option ChainTx) :=
  (view.getTransaction txid).map (Option.map (·.toChainTx))

/-- The view's answers about the transaction and the tip are the backend's. -/
def Serves (c : ViewChain) : (b : Backend) → PlaceState c b → RawTxView → TxId → Prop
  | .zebra, s, view, txid =>
      Outcome (ZebraAnswers c s) (c.view.getTransaction txid) (view.lookup txid) ∧
      Outcome (ZebraAnswers c s) c.view.getTip view.tip
  | .zaino, s, view, txid => ∃ pinned : ZainoChainView,
      Outcome (IndexOf.Answers s) (pinned.getTransaction txid) (view.lookup txid) ∧
      Outcome (IndexOf.Answers s) pinned.getTip view.tip

/-- The backend does not know the transaction in a block above the tip of the view, nor only in one
that is off the best chain; its height has 31 bits. -/
def Placed (c : ViewChain) : (b : Backend) → PlaceState c b → TxId → Prop
  | .zebra, s, txid =>
      (∀ info, TxState.mined s txid = some info →
        info.height ≤ c.tip.height ∧ info.height < 2 ^ 31) ∧
      (TxState.mined s txid = none → TxState.side s txid = none)
  | .zaino, s, txid =>
      ¬ (IndexOf.toIndexState s).Strays txid ∧
      ∀ hash height, (IndexState.location (IndexOf.toIndexState s) txid).1 =
        some (.block hash height) → height < 2 ^ 31

section
variable {c : ViewChain} {txid : TxId} {tx : ChainTx}

/-- Zebra gives a transaction the height it has on the best chain, and the block of the view there;
or the side chain's block; or nothing, in the mempool. -/
theorem zebra_place {s : TxState}
    (h : Outcome (ZebraAnswers c s) (c.view.getTransaction txid) (.ok (some tx))) :
    (∃ info, s.mined txid = some info ∧ tx.minedHeight = some info.height ∧
      tx.blockHash = c.hashAt info.height) ∨
    (s.mined txid = none ∧ ∃ side, s.side txid = some side ∧ tx.minedHeight = none ∧
      tx.blockHash = some side.blockHash) ∨
    (s.mined txid = none ∧ s.side txid = none ∧ tx.minedHeight = none ∧ tx.blockHash = none) := by
  obtain ⟨tr, hrun, hA⟩ := h
  obtain ⟨_, mined, l, rfl, rfl, hrest⟩ := hrun.query_bind_ret
  have hmined : mined = s.mined txid := (hA _ List.mem_cons_self).2
  cases mined with
  | some info =>
      obtain ⟨tx', l₁, l₂, rfl, htx, hret⟩ := hrest.bind_ret
      cases hret
      have hpath : Path (pinning c.toHistory).step [] l₁ l₁ := by
        refine Path.recall fun e he => (hA e ?_).1
        exact List.mem_cons_of_mem _ (List.mem_append_left _ he)
      obtain ⟨hheight, hhash⟩ := minedTx_pinned.sound htx hpath
      exact .inl ⟨info, hmined.symm, hheight, hhash⟩
  | none =>
      refine .inr ?_
      obtain ⟨_, side, l₁, rfl, rfl, hrest₂⟩ := hrest.query_bind_ret
      have hside : side = s.side txid := (hA _ (List.mem_cons_of_mem _ List.mem_cons_self)).2
      cases side with
      | some side =>
          obtain ⟨tx', _, _, rfl, htx, hret⟩ := hrest₂.bind_ret
          cases hret
          exact .inl ⟨hmined.symm, side, hside.symm, sideTx_ret htx⟩
      | none => exact .inr ⟨hmined.symm, hside.symm, mempoolTx_unplaced hrest₂⟩

theorem zebra_placed_iff {s : TxState}
    (h : Outcome (ZebraAnswers c s) (c.view.getTransaction txid) (.ok (some tx))) :
    Placed c .zebra s txid ↔ RightPlace c tx := by
  rcases zebra_place h with ⟨info, hmined, hheight, hhash⟩ | ⟨hmined, side, hside, hheight, hhash⟩ |
    ⟨hmined, hside, hheight, hhash⟩
  · constructor
    · intro hplaced
      obtain ⟨hle, hlt⟩ := hplaced.1 info hmined
      obtain ⟨hash, hon⟩ := History.hashAt_below hle
      exact .mined hon hlt hheight (hhash.trans hon)
    · intro hright
      cases hright with
      | unmined hnone _ => cases hheight.symm.trans hnone
      | mined hon hlt hheight' hhash' =>
          cases hheight.symm.trans hheight'
          constructor
          · intro info' hmined'
            cases hmined.symm.trans hmined'
            exact ⟨History.height_le_tip hon, hlt⟩
          · intro hnone
            cases hmined.symm.trans hnone
  · refine iff_of_false ?_ ?_
    · intro hplaced
      cases hside.symm.trans (hplaced.2 hmined)
    · intro hright
      cases hright with
      | unmined _ hnone => cases hhash.symm.trans hnone
      | mined _ _ hheight' _ => cases hheight.symm.trans hheight'
  · refine iff_of_true ⟨?_, fun _ => hside⟩ (.unmined hheight hhash)
    intro info hmined'
    cases hmined.symm.trans hmined'

theorem IndexOf.Answers.lookups {s : IndexOf c.toHistory} {e : IndexEvent} (h : s.Answers e) :
    s.toIndexState.Answers e := by
  obtain ⟨op, a⟩ := e
  cases op with
  | bestChaintip _ => trivial
  | getRawTransaction _ _ => exact h
  | getTransactionStatus _ _ => exact h
  | getBlockRange _ _ _ => trivial

/-- Zaino gives a transaction the block and the height of one of its places, if that is a block. -/
theorem zaino_place {s : IndexOf c.toHistory} {pinned : ZainoChainView}
    (h : Outcome s.Answers (pinned.getTransaction txid) (.ok (some tx))) :
    tx.blockHash = (ZainoChainView.reportedPlace (s.location txid)).1 ∧
      tx.minedHeight = (ZainoChainView.reportedPlace (s.location txid)).2.1 := by
  obtain ⟨tr, hrun, hA⟩ := h
  rcases getTransaction_reported hrun fun e he => (hA e he).lookups with ⟨-, hnone⟩ |
    ⟨-, tx', htx, hplace⟩
  · cases hnone
  · cases htx
    exact hplace

theorem zaino_placed_iff {s : IndexOf c.toHistory} {pinned : ZainoChainView}
    (h : Outcome s.Answers (pinned.getTransaction txid) (.ok (some tx))) :
    Placed c .zaino s txid ↔ RightPlace c tx := by
  obtain ⟨hhash, hheight⟩ := zaino_place h
  show ¬ s.Strays txid ∧ (∀ hash height, (s.location txid).1 = some (.block hash height) →
    height < 2 ^ 31) ↔ _
  have hbest := @IndexOf.best _ s txid
  have horphaned := @IndexOf.orphaned _ s txid
  unfold IndexState.Strays
  generalize s.location txid = locations at hhash hheight hbest horphaned ⊢
  obtain ⟨best, others⟩ := locations
  cases best with
  | some place =>
      cases place with
      | block hash height =>
          constructor
          · rintro ⟨-, hlt⟩
            exact .mined (hbest rfl) (hlt hash height rfl) hheight hhash
          · intro hright
            refine ⟨by rintro ⟨⟨⟩, -⟩, ?_⟩
            rintro _ _ ⟨⟩
            cases hright with
            | unmined hnone _ => cases hheight.symm.trans hnone
            | mined _ hlt hheight' _ =>
                cases hheight.symm.trans hheight'
                exact hlt
      | mempool =>
          refine iff_of_true ⟨by rintro ⟨⟨⟩, -⟩, ?_⟩ (.unmined hheight hhash)
          rintro _ _ ⟨⟩
  | none =>
      have hbounded : ∀ hash height, (none, others).1 = some (BestChainLocation.block hash height) →
          height < 2 ^ 31 := by
        rintro _ _ ⟨⟩
      rw [and_iff_left hbounded]
      cases others with
      | nil =>
          refine iff_of_true ?_ (.unmined hheight hhash)
          rintro ⟨-, _, _, ⟨⟩⟩
      | cons place rest =>
          cases place with
          | block hash height =>
              refine iff_of_false (not_not_intro ⟨rfl, hash, height, rfl⟩) ?_
              intro hright
              cases hright with
              | unmined _ hnone => cases hhash.symm.trans hnone
              | mined hon _ _ hhash' =>
                  cases hhash.symm.trans hhash'
                  exact horphaned List.mem_cons_self _ hon
          | mempool =>
              refine iff_of_true ?_ (.unmined hheight hhash)
              rintro ⟨-, _, _, ⟨⟩⟩

end

section
variable {c : ViewChain} {b : Backend} {s : PlaceState c b} {view : RawTxView} {txid : TxId}

theorem lookup_eq {tx : FetchedTx} (h : view.getTransaction txid = .ok (some tx)) :
    view.lookup txid = .ok (some tx.toChainTx) := by
  rw [RawTxView.lookup, h]
  rfl

theorem Serves.placed_iff {tx : FetchedTx} (h : Serves c b s view txid)
    (htx : view.getTransaction txid = .ok (some tx)) :
    Placed c b s txid ↔ RightPlace c tx.toChainTx := by
  have hlookup := lookup_eq htx
  cases b with
  | zebra =>
      obtain ⟨hget, -⟩ := h
      rw [hlookup] at hget
      exact zebra_placed_iff hget
  | zaino =>
      obtain ⟨pinned, hget, -⟩ := h
      rw [hlookup] at hget
      exact zaino_placed_iff hget

theorem zebra_tip {s : TxState} (h : Serves c .zebra s view txid) : view.tip = .ok c.tip := by
  obtain ⟨-, tr, hrun, -⟩ := h
  cases htip : view.tip with
  | ok tip =>
      rw [htip] at hrun
      cases hrun
      rfl
  | error e =>
      rw [htip] at hrun
      cases hrun

theorem Serves.tip {tip : ChainBlock} (h : Serves c b s view txid) (htip : view.tip = .ok tip) :
    tip = c.tip := by
  cases b with
  | zebra =>
      rw [zebra_tip h] at htip
      cases htip
      rfl
  | zaino =>
      obtain ⟨pinned, -, tr, hrun, hA⟩ := h
      rw [htip] at hrun
      cases hrun with
      | @call _ _ a l _ hrest =>
          have htold := hA _ List.mem_cons_self
          cases a with
          | error e => cases hrest
          | ok tip' =>
              cases hrest
              exact htold

/-- A block without its height only comes from Zebra, for what is not in its place. -/
theorem Serves.height_of_block {tx : FetchedTx} (h : Serves c b s view txid)
    (htx : view.getTransaction txid = .ok (some tx))
    (hplaced : ∀ tip, view.tip = .ok tip → Placed c b s txid) (hblock : tx.blockHash ≠ none) :
    tx.minedHeight ≠ none := by
  cases b with
  | zebra =>
      cases (h.placed_iff htx).mp (hplaced _ (zebra_tip h)) with
      | unmined _ hnone => exact absurd hnone hblock
      | mined _ _ hheight _ =>
          rw [hheight]
          exact Option.some_ne_none _
  | zaino =>
      obtain ⟨pinned, hget, -⟩ := h
      rw [lookup_eq htx] at hget
      obtain ⟨hhash, hheight⟩ := zaino_place hget
      rw [hhash] at hblock
      rw [hheight]
      generalize IndexState.location (IndexOf.toIndexState s) txid = locations at hblock ⊢
      obtain ⟨best, others⟩ := locations
      cases best with
      | some place =>
          cases place with
          | block hash height => exact Option.some_ne_none _
          | mempool => exact absurd rfl hblock
      | none =>
          cases others with
          | nil => exact absurd rfl hblock
          | cons place rest =>
              cases place with
              | block hash height => exact Option.some_ne_none _
              | mempool => exact absurd rfl hblock

end

/-! ## What the call makes of it -/

section
variable {c : ViewChain} {lib : RawTxLib} {view : RawTxView} {txidStr : String} {txid : TxId}
  {tx : FetchedTx}

/-- What a verbose reply copies. -/
theorem call_gives {snapshot : Except ChainError RawTxView} {verbose : Option ℕ}
    {blockhash : Option String} {info : TransactionInfo lib}
    (h : Gives (call lib snapshot txidStr verbose blockhash) (.verbose info)) :
    ∃ txid view tx tip, lib.decodeTxid txidStr = some txid ∧ snapshot = .ok view ∧
      view.getTransaction txid = .ok (some tx) ∧ view.tip = .ok tip ∧
      info.blockhash = tx.blockHash ∧ info.height = tx.minedHeight.bind heightOfI32 ∧
      info.confirmations = tx.minedHeight.map (tip.height + 1 - ·) := by
  simp only [call, gives_bind, gives_okOr, gives_mapErr] at h
  obtain ⟨txid, htxid, _, -, view, hview, _, hfound, tx, rfl, _, -, tip, htip, h⟩ := h
  split at h
  case isTrue =>
    cases gives_pure.mp h
    exact ⟨txid, view, tx, tip, htxid, hview, hfound, htip, rfl, rfl, rfl⟩
  case isFalse => cases gives_pure.mp h

/-- Where no block is requested, there is a verbose reply to a transaction that is found. -/
theorem exists_call_gives {tip : ChainBlock} (htxid : lib.decodeTxid txidStr = some txid)
    (htx : view.getTransaction txid = .ok (some tx)) (htip : view.tip = .ok tip) :
    ∃ info : TransactionInfo lib, Gives (call lib (.ok view) txidStr (some 1) none) (.verbose info) ∧
      info.blockhash = tx.blockHash ∧ info.height = tx.minedHeight.bind heightOfI32 ∧
      info.confirmations = tx.minedHeight.map (tip.height + 1 - ·) := by
  refine ⟨⟨none, lib.hexEncode tx.raw, lib.txToJson tx.inner tx.raw.length, tx.blockHash,
    tx.minedHeight.bind heightOfI32, tx.minedHeight.map (tip.height + 1 - ·), tx.blockTime,
    tx.blockTime⟩, ?_, rfl, rfl, rfl⟩
  simp only [call, gives_bind, gives_okOr, gives_mapErr]
  exact ⟨txid, htxid, none, rfl, view, rfl, some tx, htx, tx, rfl, none, rfl, tip, htip, rfl⟩

/-- The call panics only for want of a height beside a block. -/
theorem settles_call {snapshot : Except ChainError RawTxView} {verbose : Option ℕ}
    {blockhash : Option String}
    (h : ∀ txid view tx, lib.decodeTxid txidStr = some txid → snapshot = .ok view →
      view.getTransaction txid = .ok (some tx) → tx.blockHash ≠ none → tx.minedHeight ≠ none) :
    Settles (call lib snapshot txidStr verbose blockhash) := by
  simp only [call, settles_bind, settles_okOr, settles_mapErr, gives_okOr, gives_mapErr, true_and]
  intro txid htxid
  refine ⟨?_, fun requestedBlock _ view hview found hfound tx hsome => ?_⟩
  · cases blockhash with
    | none => exact settles_pure
    | some s =>
        rw [parseBlockHash, map_eq_pure_bind, settles_bind]
        exact ⟨settles_okOr, fun _ _ => settles_pure⟩
  · subst hsome
    constructor
    · cases requestedBlock with
      | none => exact settles_pure
      | some requested =>
          simp only [inActiveChain, settles_bind, gives_refuseIf, not_not]
          refine ⟨?_, fun _ hrequested => ⟨?_, fun _ _ => ⟨settles_mapErr, fun _ _ => settles_pure⟩⟩⟩
          · rw [refuseIf]
            split
            · exact settles_throw
            · exact settles_pure
          · rw [settles_expect, ← Option.ne_none_iff_exists']
            refine h txid view tx htxid hview hfound ?_
            rw [hrequested]
            exact Option.some_ne_none _
    · intro _ _ _ _
      split
      · exact settles_pure
      · exact settles_pure

end

/-- Whatever is requested of a transaction, the call comes back and its reply is as documented, just
when the backend knows the transaction at a place that the view has. -/
theorem documents_iff (b : Backend) (c : ViewChain) (s : PlaceState c b) (lib : RawTxLib)
    (snapshot : Except ChainError RawTxView) (txidStr : String)
    (hserved : ∀ txid view, lib.decodeTxid txidStr = some txid → snapshot = .ok view →
      Serves c b s view txid) :
    Documents c lib snapshot txidStr ↔ ∀ txid view tx tip, lib.decodeTxid txidStr = some txid →
      snapshot = .ok view → view.getTransaction txid = .ok (some tx) → view.tip = .ok tip →
        Placed c b s txid := by
  constructor
  · rintro h txid view tx tip htxid rfl htx htip
    have hserves := hserved txid view htxid rfl
    obtain ⟨info, hinfo, hblock, hheight, hconfirmations⟩ := exists_call_gives htxid htx htip
    rw [hserves.tip htip] at hconfirmations
    have hdocumented := h.replies _ _ info hinfo
    exact (hserves.placed_iff htx).mpr
      ((documented_iff hblock hheight hconfirmations).mp hdocumented)
  · intro h
    constructor
    · intro verbose blockhash
      refine settles_call fun txid view tx htxid hview htx hblock => ?_
      refine (hserved txid view htxid hview).height_of_block htx ?_ hblock
      intro tip htip
      exact h txid view tx tip htxid hview htx htip
    · intro verbose blockhash info hinfo
      obtain ⟨txid, view, tx, tip, htxid, hview, htx, htip, hblock, hheight, hconfirmations⟩ :=
        call_gives hinfo
      have hserves := hserved txid view htxid hview
      rw [hserves.tip htip] at hconfirmations
      exact (documented_iff hblock hheight hconfirmations).mpr
        ((hserves.placed_iff htx).mp (h txid view tx tip htxid hview htx htip))

/-! ## A transaction on the best chain, on a side chain, and in an orphaned block -/

theorem captured_distinct : (captured.blocks.map (·.hash)).Nodup := by decide

def capturedChain : ViewChain := ⟨captured, captured_distinct⟩

/-- One transaction and one block hash are asked for. -/
def askingFor (txid : TxId) (hash : BlockHash) : RawTxLib where
  TransactionDetails := TxId
  txToJson tx _ := tx.txid
  hexEncode _ := ""
  decodeTxid s := if s = "txid" then some txid else none
  decodeBlockHash s := if s = "hash" then some hash else none

/-- A view that answers so of the transaction, at the tip of the chain. -/
def answering (tx : ChainTx) : RawTxView where
  getTransaction _ := .ok (some ⟨tx, []⟩)
  getBlockHeader _ := .ok none
  tip := .ok captured.tip

def minedRaw : MinedTxInfo := ⟨⟨fun _ => .ok ⟨⟨71⟩⟩⟩, 1, 0⟩

def sideRaw : SideTxInfo := ⟨⟨fun _ => .ok ⟨⟨73⟩⟩⟩, ⟨50⟩⟩

/-- One transaction is mined in the block at the tip, and one is on a side chain. -/
def forkedState : TxState where
  mined txid := if txid = ⟨71⟩ then some minedRaw else none
  side txid := if txid = ⟨73⟩ then some sideRaw else none
  mempool := []

def minedTx : ChainTx := ⟨⟨⟨71⟩⟩, some ⟨1⟩, some 1, some 0⟩

def sideTx : ChainTx := ⟨⟨⟨73⟩⟩, some ⟨50⟩, none, none⟩

theorem serves_mined : Serves capturedChain .zebra forkedState (answering minedTx) ⟨71⟩ := by
  refine ⟨⟨[⟨.transaction ⟨71⟩, .ok (some minedRaw)⟩, ⟨.cacheGet 1, some ⟨1⟩⟩],
    .call (.call (.refl _)), ?_⟩, ⟨[], .refl _, by rintro _ ⟨⟩⟩⟩
  rw [List.forall_mem_cons, List.forall_mem_singleton]
  refine ⟨⟨⟨grown, rfl⟩, rfl⟩, ⟨grown, ?_⟩, trivial⟩
  rintro _ ⟨⟩
  rfl

theorem serves_side : Serves capturedChain .zebra forkedState (answering sideTx) ⟨73⟩ := by
  refine ⟨⟨[⟨.transaction ⟨73⟩, .ok none⟩, ⟨.sideChainTransaction ⟨73⟩, .ok (some sideRaw)⟩],
    .call (.call (.refl _)), ?_⟩, ⟨[], .refl _, by rintro _ ⟨⟩⟩⟩
  rw [List.forall_mem_cons, List.forall_mem_singleton]
  exact ⟨⟨⟨grown, rfl⟩, rfl⟩, ⟨grown, trivial⟩, rfl⟩

theorem documents_iff_mined :
    Documents capturedChain (askingFor ⟨71⟩ ⟨1⟩) (.ok (answering minedTx)) "txid" ∧
    ∃ info, Gives (call (askingFor ⟨71⟩ ⟨1⟩) (.ok (answering minedTx)) "txid" (some 1) (some "hash"))
      (.verbose info) ∧ info.height = some 1 := by
  refine ⟨(documents_iff .zebra capturedChain forkedState _ _ _ ?_).mpr ?_, _, rfl, rfl⟩
  · rintro txid view htxid ⟨⟩
    cases htxid
    exact serves_mined
  · rintro txid view tx tip htxid ⟨⟩ - -
    cases htxid
    refine ⟨?_, by rintro ⟨⟩⟩
    rintro _ ⟨⟩
    decide

/-- An index with one transaction, in an orphaned block. -/
def orphanIndex : IndexOf capturedChain.toHistory where
  toIndexState := placedAt (none, [.block ⟨50⟩ 5])
  best := by
    intro txid hash height h
    by_cases htxid : txid = ⟨7⟩
    · subst htxid
      cases h
    · simp only [placedAt, if_neg htxid] at h
      cases h
  orphaned := by
    intro txid hash height h height' hon
    obtain ⟨hle, rfl⟩ := captured_hashAt hon
    by_cases htxid : txid = ⟨7⟩
    · subst htxid
      rcases List.mem_singleton.mp h
      omega
    · simp only [placedAt, if_neg htxid] at h
      cases h

def orphanTx : ChainTx := ⟨⟨⟨7⟩⟩, some ⟨50⟩, some 5, none⟩

theorem serves_orphan : Serves capturedChain .zaino orphanIndex (answering orphanTx) ⟨7⟩ := by
  refine ⟨⟨⟨0⟩⟩, ⟨[⟨.getRawTransaction ⟨0⟩ ⟨7⟩, .ok (some ⟨⟨fun _ => .ok ⟨⟨7⟩⟩⟩, none⟩)⟩,
    ⟨.bestChaintip ⟨0⟩, .ok captured.tip⟩,
    ⟨.getTransactionStatus ⟨0⟩ ⟨7⟩, .ok (none, [.block ⟨50⟩ 5])⟩],
    .call (.call (.call (.refl _))), ?_⟩, [⟨.bestChaintip ⟨0⟩, .ok captured.tip⟩],
    .call (.refl _), ?_⟩
  · rw [List.forall_mem_cons, List.forall_mem_cons, List.forall_mem_singleton]
    exact ⟨rfl, rfl, rfl⟩
  · exact List.forall_mem_singleton.mpr rfl

/-- A transaction on a side chain, served by Zebra: asked for in its block the call panics, and
otherwise the reply has the block and no height.  One in an orphaned block, served by Zaino: it is
said to have the height of that block, and confirmations. -/
theorem off_best_chain_undocumented :
    (Serves capturedChain .zebra forkedState (answering sideTx) ⟨73⟩ ∧
      ¬ Settles (call (askingFor ⟨73⟩ ⟨50⟩) (.ok (answering sideTx)) "txid" none (some "hash")) ∧
      ∃ info, Gives (call (askingFor ⟨73⟩ ⟨50⟩) (.ok (answering sideTx)) "txid" (some 1) none)
        (.verbose info) ∧ info.blockhash = some ⟨50⟩ ∧ info.height = none ∧
        ¬ info.Documented capturedChain) ∧
    (Serves capturedChain .zaino orphanIndex (answering orphanTx) ⟨7⟩ ∧
      ∃ info, Gives (call (askingFor ⟨7⟩ ⟨50⟩) (.ok (answering orphanTx)) "txid" (some 1) none)
        (.verbose info) ∧ info.blockhash = some ⟨50⟩ ∧ info.height = some 5 ∧
        ¬ info.Documented capturedChain) := by
  have hoff : ∀ height, capturedChain.hashAt height ≠ some ⟨50⟩ := by
    intro height hon
    obtain ⟨hle, heq⟩ := captured_hashAt hon
    cases heq
    omega
  refine ⟨⟨serves_side, fun h => h _ rfl, _, rfl, rfl, rfl, ?_⟩, serves_orphan, _, rfl, rfl, rfl, ?_⟩
  · intro h
    cases (h.offBestChain ⟨50⟩ rfl hoff).1
  · intro h
    cases (h.offBestChain ⟨50⟩ rfl hoff).1

end Zallet.RawTransaction
