/-
# `Zallet.Zebra.Transactions` — the transaction lookups of the Zebra backend

Both lookups go through the same requests: the best chain, then the side
chains, then the mempool (`Found`).  So in one state of zebrad they always say
the same of a transaction.
-/
import Zallet.Zebra.View
import Zallet.Chain.Agreement

namespace Zallet

open Prog

/-- Where the requests of a lookup found a transaction. -/
inductive Found (tr : ReaderTrace) (txid : TxId) : TransactionStatus → Prop
  | mined (info : MinedTxInfo) :
      (⟨.transaction txid, .ok (some info)⟩ : ReaderEvent) ∈ tr → Found tr txid (.mined info.height)
  | side (info : SideTxInfo) :
      (⟨.transaction txid, .ok none⟩ : ReaderEvent) ∈ tr →
      (⟨.sideChainTransaction txid, .ok (some info)⟩ : ReaderEvent) ∈ tr →
      Found tr txid .notInMainChain
  | mempool (txids : List TxId) :
      (⟨.transaction txid, .ok none⟩ : ReaderEvent) ∈ tr →
      (⟨.sideChainTransaction txid, .ok none⟩ : ReaderEvent) ∈ tr →
      (⟨.getRawMempool, .ok txids⟩ : ReaderEvent) ∈ tr →
      Found tr txid (if txid ∈ txids then .notInMainChain else .txidNotRecognized)

section
variable {view : ZebraChainView} {txid : TxId} {tr : ReaderTrace} {tx : ChainTx}

theorem ofExcept_ret {α : Type} {x : Except ChainError α} {a : α}
    (h : Run (ofExcept id x : Reads α) tr (.ret a)) : x = .ok a ∧ tr = [] := by
  cases x with
  | error e => cases h
  | ok b =>
      cases h
      exact ⟨rfl, rfl⟩

theorem minedTx_ret {mined : MinedTxInfo} (h : Run (view.minedTx mined) tr (.ret tx)) :
    tx.minedHeight = some mined.height := by
  obtain ⟨inner, l, r, rfl, -, h⟩ := h.bind_ret
  obtain ⟨blockHash, l, r, rfl, -, h⟩ := h.bind_ret
  cases h
  rfl

theorem sideTx_ret {side : SideTxInfo} (h : Run (view.sideTx side) tr (.ret tx)) :
    tx.minedHeight = none ∧ tx.blockHash = some side.blockHash := by
  obtain ⟨inner, l, r, rfl, -, h⟩ := h.bind_ret
  cases h
  exact ⟨rfl, rfl⟩

theorem rawMempool_ret {txids : List TxId} (h : Run ZebraChainView.rawMempool tr (.ret txids)) :
    tr = [⟨.getRawMempool, .ok txids⟩] := by
  cases h with
  | @call _ _ a l _ h =>
      have h : Run (ofExcept id (a.mapError .backend) : Reads _) l (.ret txids) := h
      obtain ⟨ha, rfl⟩ := ofExcept_ret h
      cases a with
      | error msg => cases ha
      | ok txids' =>
          cases ha
          rfl

/-- A transaction of the mempool is in no block. -/
theorem mempoolTx_unplaced (h : Run (view.mempoolTx txid) tr (.ret (some tx))) :
    tx.minedHeight = none ∧ tx.blockHash = none := by
  obtain ⟨txids, _, _, rfl, -, hrest⟩ := h.bind_ret
  split at hrest
  · obtain ⟨raw, _, _, rfl, -, hrest⟩ := hrest.bind_ret
    obtain ⟨inner, _, _, rfl, -, hrest⟩ := hrest.bind_ret
    cases hrest
    exact ⟨rfl, rfl⟩
  · cases hrest

theorem mempoolTx_ret {r : Option ChainTx} (h : Run (view.mempoolTx txid) tr (.ret r)) :
    ∃ txids, (⟨.getRawMempool, .ok txids⟩ : ReaderEvent) ∈ tr ∧
      foundStatus r = if txid ∈ txids then .notInMainChain else .txidNotRecognized := by
  obtain ⟨txids, l, m, rfl, hmempool, hrest⟩ := h.bind_ret
  obtain rfl := rawMempool_ret hmempool
  refine ⟨txids, List.mem_append_left _ (List.mem_singleton_self _), ?_⟩
  split at hrest
  · rename_i hmem
    obtain ⟨raw, _, _, rfl, -, hrest⟩ := hrest.bind_ret
    obtain ⟨inner, _, _, rfl, -, hrest⟩ := hrest.bind_ret
    cases hrest
    rw [if_pos hmem]
    rfl
  · rename_i hmem
    cases hrest
    rw [if_neg hmem]
    rfl

/-- The transaction is given as it was found. -/
theorem getTransaction_found {r : Option ChainTx} (h : Run (view.getTransaction txid) tr (.ret r)) :
    Found tr txid (foundStatus r) := by
  obtain ⟨_, mined, l, rfl, rfl, hrest⟩ := h.query_bind_ret
  cases mined with
  | some info =>
      obtain ⟨tx, m, _, rfl, htx, hend⟩ := hrest.bind_ret
      cases hend
      have hfound : foundStatus (some tx) = .mined info.height :=
        foundStatus_mined.mpr ⟨tx, rfl, minedTx_ret htx⟩
      exact hfound ▸ .mined info List.mem_cons_self
  | none =>
      obtain ⟨_, side, m, rfl, rfl, hrest₂⟩ := hrest.query_bind_ret
      cases side with
      | some info =>
          obtain ⟨tx, n, _, rfl, htx, hend⟩ := hrest₂.bind_ret
          cases hend
          have hfound : foundStatus (some tx) = .notInMainChain :=
            foundStatus_unmined.mpr ⟨tx, rfl, (sideTx_ret htx).1⟩
          exact hfound ▸ .side info List.mem_cons_self (List.mem_cons_of_mem _ List.mem_cons_self)
      | none =>
          obtain ⟨txids, hmem, hfound⟩ := mempoolTx_ret hrest₂
          exact hfound ▸ .mempool txids List.mem_cons_self
            (List.mem_cons_of_mem _ List.mem_cons_self)
            (List.mem_cons_of_mem _ (List.mem_cons_of_mem _ hmem))

theorem getTransactionStatus_found {status : TransactionStatus}
    (h : Run (ZebraChainView.getTransactionStatus txid) tr (.ret status)) :
    Found tr txid status := by
  obtain ⟨_, mined, l, rfl, rfl, hrest⟩ := h.query_bind_ret
  cases mined with
  | some info =>
      cases hrest
      exact .mined info List.mem_cons_self
  | none =>
      obtain ⟨_, side, m, rfl, rfl, hrest₂⟩ := hrest.query_bind_ret
      cases side with
      | some info =>
          cases hrest₂
          exact .side info List.mem_cons_self (List.mem_cons_of_mem _ List.mem_cons_self)
      | none =>
          obtain ⟨txids, n, _, rfl, hmempool, hend⟩ := hrest₂.bind_ret
          obtain rfl := rawMempool_ret hmempool
          cases hend
          exact .mempool txids List.mem_cons_self (List.mem_cons_of_mem _ List.mem_cons_self)
            (List.mem_cons_of_mem _ (List.mem_cons_of_mem _ List.mem_cons_self))

end

/-! ## In one state -/

/-- What zebrad has of transactions: on its best chain, on side chains, in its mempool. -/
structure TxState where
  mined : TxId → Option MinedTxInfo
  side : TxId → Option SideTxInfo
  mempool : List TxId

namespace TxState

variable (s : TxState)

def Answers : ReaderEvent → Prop
  | ⟨.transaction txid, .ok r⟩ => r = s.mined txid
  | ⟨.sideChainTransaction txid, .ok r⟩ => r = s.side txid
  | ⟨.getRawMempool, .ok r⟩ => r = s.mempool
  | _ => True

/-- Where a transaction is in this state. -/
def whereabouts (txid : TxId) : TransactionStatus :=
  match s.mined txid with
  | some info => .mined info.height
  | none =>
      if (s.side txid).isSome ∨ txid ∈ s.mempool then .notInMainChain else .txidNotRecognized

end TxState

/-- What is found is where it is. -/
theorem Found.whereabouts {tr : ReaderTrace} {txid : TxId} {status : TransactionStatus}
    {s : TxState} (h : Found tr txid status) (hs : ∀ e ∈ tr, s.Answers e) :
    status = s.whereabouts txid := by
  unfold TxState.whereabouts
  cases h with
  | mined info hmined =>
      rw [← show some info = s.mined txid from hs _ hmined]
  | side info hmined hside =>
      rw [← show none = s.mined txid from hs _ hmined, ← show some info = s.side txid from hs _ hside]
      rfl
  | mempool txids hmined hside hmempool =>
      rw [← show none = s.mined txid from hs _ hmined, ← show none = s.side txid from hs _ hside,
        ← show txids = s.mempool from hs _ hmempool]
      simp

end Zallet
