/-
# `Zallet.Zaino.Transactions` — the transaction lookups of the Zaino backend

Both lookups ask the index for a transaction's locations, and read them
differently: `getTransactionStatus` never calls an orphaned block a mined one,
`getTransaction` reports the first orphaned block it is given as the place where
the transaction is mined (`getTransaction_whereabouts`).
-/
import Zallet.Zaino.View
import Zallet.Chain.Agreement

namespace Zallet

open Prog

/-- What the chain index holds of transactions, for one snapshot. -/
structure IndexState where
  location : TxId → TxLocations
  raw : TxId → Option RawIndexTx
  held : ∀ txid, raw txid = none ↔ location txid = (none, [])

namespace IndexState

variable (s : IndexState)

def Answers : IndexEvent → Prop
  | ⟨.getRawTransaction _ txid, .ok r⟩ => r = s.raw txid
  | ⟨.getTransactionStatus _ txid, .ok r⟩ => r = s.location txid
  | _ => True

/-- Where a transaction is in this state. -/
def whereabouts (txid : TxId) : TransactionStatus :=
  match (s.location txid).1 with
  | some (.block _ height) => .mined height
  | _ => if (s.raw txid).isSome then .notInMainChain else .txidNotRecognized

/-- The best chain does not know the transaction, and the first of the other places given for it
is an orphaned block. -/
def Strays (txid : TxId) : Prop :=
  (s.location txid).1 = none ∧ ∃ hash height, (s.location txid).2.head? = some (.block hash height)

end IndexState

section
variable {s : IndexState} {view : ZainoChainView} {txid : TxId} {tr : IndexTrace}

/-- A transaction that is found is reported at the place its locations give it. -/
theorem getTransaction_reported {r : Option ChainTx}
    (h : Run (view.getTransaction txid) tr (.ret r)) (hs : ∀ e ∈ tr, s.Answers e) :
    (s.raw txid = none ∧ r = none) ∨
    (s.raw txid ≠ none ∧ ∃ tx, r = some tx ∧
      tx.blockHash = (ZainoChainView.reportedPlace (s.location txid)).1 ∧
      tx.minedHeight = (ZainoChainView.reportedPlace (s.location txid)).2.1) := by
  obtain ⟨a, raw, l, rfl, ha, hrest⟩ := h.query_bind_ret
  rcases a with msg | raw'
  · cases ha
  · cases ha
    have hraw : raw = s.raw txid := hs _ List.mem_cons_self
    cases raw with
    | none =>
        cases hrest
        exact .inl ⟨hraw.symm, rfl⟩
    | some rawTx =>
        obtain ⟨inner, l₁, l₂, rfl, -, hrest₂⟩ := hrest.bind_ret
        obtain ⟨b, locations, l₃, rfl, hb, hrest₃⟩ := hrest₂.query_bind_ret
        rcases b with msg | locations'
        · cases hb
        · cases hb
          have hloc : locations = s.location txid :=
            hs _ (List.mem_cons_of_mem _ (List.mem_append_right _ List.mem_cons_self))
          obtain ⟨time, l₄, l₅, rfl, -, hend⟩ := hrest₃.bind_ret
          cases hend
          refine .inr ⟨fun hnone => ?_, _, rfl, ?_, ?_⟩
          · rw [← hraw] at hnone
            cases hnone
          · rw [← hloc]
            rfl
          · rw [← hloc]
            rfl

/-- What is found is given the place it has, but for strays. -/
theorem getTransaction_whereabouts {r : Option ChainTx}
    (h : Run (view.getTransaction txid) tr (.ret r)) (hs : ∀ e ∈ tr, s.Answers e) :
    foundStatus r = s.whereabouts txid ↔ ¬ s.Strays txid := by
  unfold IndexState.whereabouts IndexState.Strays
  rcases getTransaction_reported h hs with ⟨hraw, rfl⟩ | ⟨hraw, tx, rfl, -, htx⟩
  · rw [(s.held txid).mp hraw, hraw]
    exact iff_of_true rfl (by simp)
  · have hraw : (s.raw txid).isSome := Option.isSome_iff_ne_none.mpr hraw
    rw [foundStatus, htx, if_pos hraw]
    obtain ⟨best, orphans⟩ := s.location txid
    rcases best with _ | ⟨hash, height⟩ | _
    · rcases orphans with _ | ⟨⟨hash, height⟩ | _, rest⟩
      · exact iff_of_true rfl (by simp)
      · exact iff_of_false (by simp [ZainoChainView.reportedPlace]) (by simp)
      · exact iff_of_true rfl (by simp)
    · exact iff_of_true rfl (by simp)
    · exact iff_of_true rfl (by simp)

/-- A stray is given the height of its orphaned block, and is mined at none. -/
theorem IndexState.Strays.misplaced {tx : ChainTx} (hstray : s.Strays txid)
    (h : Run (view.getTransaction txid) tr (.ret (some tx))) (hs : ∀ e ∈ tr, s.Answers e) :
    tx.minedHeight ≠ (s.whereabouts txid).height? := by
  intro heq
  obtain ⟨hbest, hash, height, hfirst⟩ := hstray
  rcases getTransaction_reported h hs with ⟨-, hnone⟩ | ⟨hraw, tx', htx, -, hheight⟩
  · cases hnone
  · cases htx
    have hplace : s.location txid = (none, (s.location txid).2) := Prod.ext hbest rfl
    have hunmined : (s.whereabouts txid).height? = none := by
      rw [IndexState.whereabouts, hbest]
      split
      · rename_i hmined
        cases hmined
      · split <;> rfl
    rw [heq, hunmined, hplace, ZainoChainView.reportedPlace, hfirst] at hheight
    cases hheight

/-- The status given is where the transaction is. -/
theorem getTransactionStatus_whereabouts {status : TransactionStatus}
    (h : Run (view.getTransactionStatus txid) tr (.ret status)) (hs : ∀ e ∈ tr, s.Answers e) :
    status = s.whereabouts txid := by
  obtain ⟨a, locations, l, rfl, ha, hend⟩ := h.query_bind_ret
  rcases a with msg | locations'
  · cases ha
  · cases ha
    cases hend
    obtain rfl : locations = s.location txid := hs _ List.mem_cons_self
    have hheld := s.held txid
    unfold IndexState.whereabouts
    generalize s.location txid = locations at hheld ⊢
    obtain ⟨best, orphans⟩ := locations
    have hraw : best ≠ none ∨ orphans ≠ [] → (s.raw txid).isSome := by
      intro hplace
      refine Option.isSome_iff_ne_none.mpr fun hnone => ?_
      cases hheld.mp hnone
      simp at hplace
    rcases best with _ | ⟨hash, height⟩ | _
    · cases orphans with
      | nil =>
          rw [hheld.mpr rfl]
          rfl
      | cons orphan rest =>
          show TransactionStatus.notInMainChain = _
          rw [if_pos (hraw (.inr (List.cons_ne_nil _ _)))]
    · rfl
    · show TransactionStatus.notInMainChain = _
      rw [if_pos (hraw (.inl (by simp)))]

end

end Zallet
