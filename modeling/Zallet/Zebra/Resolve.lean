/-
# `Zallet.Zebra.Resolve` — pinning by hash

A view captured at the tip of a chain keeps answering for that chain when the
backend has moved on: `resolve` returns the chain's hash at the height or fails
(`resolve_pinned`), because a block's hash determines its parent's.  Two facts
about the backend carry this, and `LaterState` has them as fields: a hash
belongs to one block, and blocks a thousand deep stay.  The shared cache holds
hashes of the pinned chain only, and `resolve` adds no others.
-/
import Zallet.Prog.Total
import Zallet.Zebra.View
import Zallet.Chain.History

namespace Zallet

open Prog

/-- The view captured at the tip of a chain. -/
abbrev History.view (c : History) : ZebraChainView := .capture c.tip

/-- Zebrad's state at a moment: its best chain, every header it holds, its spend index. -/
structure ReadState where
  best : History
  known : BlockHash → Option HeaderInfo
  spendIndex : OutPoint → Option TxId

/-- The state at a moment after the view of `c` was captured. -/
structure LaterState (c : History) extends ReadState where
  known_pinned : ∀ {height hash info}, c.hashAt height = some hash → known hash = some info →
    info.height = height ∧ (0 < height → c.hashAt (height - 1) = some info.previousBlockHash)
  best_pinned : ∀ {height height' hash}, c.hashAt height = some hash →
    best.hashAt height' = some hash → height' = height
  final : ∀ height ≤ c.view.finalizedFloor, best.hashAt height = c.hashAt height

/-- What requests are answered with in a state.  Requests answer for the best chain, or for all
that is known; the cache answers for the pinned chain. -/
def LaterState.Answers {c : History} (s : LaterState c) : ReaderEvent → Prop
  | ⟨.tip, .ok r⟩ => r = some s.best.tip
  | ⟨.bestChainBlockHash height, .ok r⟩ => r = s.best.hashAt height
  | ⟨.blockHeaderByHash hash, .ok r⟩ => r = s.known hash
  | ⟨.findForkPoint locator, .ok r⟩ => r = s.best.forkPoint locator
  | ⟨.transaction txid, .ok r⟩ => r.map (·.height) = s.best.minedAt txid
  | ⟨.isUnspent outpoint, .ok r⟩ => r = s.best.unspent outpoint
  | ⟨.spendingTransaction outpoint, .ok r⟩ => r = s.spendIndex outpoint
  | ⟨.cacheGet height, r⟩ => ∀ hash, r = some hash → c.hashAt height = some hash
  | ⟨.cacheFrom height, r⟩ => height ≤ c.tip.height →
      ∃ start, r = some start ∧ height ≤ start.1 ∧ c.hashAt start.1 = some start.2
  | _ => True

/-- What is put into the cache is pinned. -/
def CachePinned (c : History) : ReaderOp → Prop
  | .cacheInsert height hash => c.hashAt height = some hash
  | _ => True

/-- The world of a view of `c`: every request is answered in some later state. -/
abbrev pinning (c : History) : World readerSig ReaderTrace :=
  .recall (fun e => ∃ s : LaterState c, s.Answers e) (fun _ => CachePinned c) fun _ => False

section
variable {c : History} {tr : ReaderTrace}

theorem parentOf_pinned {height : Nat} {hash : BlockHash} (hpos : 0 < height)
    (h : c.hashAt height = some hash) :
    wp (pinning c) (ZebraChainView.parentOf hash)
      (fun _ parent => c.hashAt (height - 1) = some parent) (fun _ _ => True) tr := by
  rw [ZebraChainView.parentOf, wp_query]
  refine ⟨trivial, fun a tr' hstep => ?_⟩
  obtain ⟨⟨s, hs⟩, -, -⟩ := World.recall_step hstep
  rcases a with e | _ | header
  · trivial
  · trivial
  · have hknown : s.known hash = some header := Eq.symm hs
    exact (s.known_pinned h hknown).2 hpos

/-- The walk stays on the pinned chain, down to the height. -/
theorem walkDown_pinned {height : Nat} {start : Nat × BlockHash} (hle : height ≤ start.1)
    (hstart : c.hashAt start.1 = some start.2) :
    wp (pinning c) (ZebraChainView.walkDown height start)
      (fun _ hash => c.hashAt height = some hash) (fun _ _ => True) tr := by
  refine wp_iterate (fun cur _ => height ≤ cur.1 ∧ c.hashAt cur.1 = some cur.2) ⟨hle, hstart⟩ ?_
  rintro ⟨curHeight, curHash⟩ tr₁ ⟨hle, hcur⟩
  dsimp only at hle hcur ⊢
  split
  · rename_i hlt
    rw [wp_bind]
    refine wp_mono (fun tr₂ parent hparent => ?_) (fun _ _ h => h)
      (parentOf_pinned (Nat.zero_lt_of_lt hlt) hcur)
    rw [wp_bind]
    refine ⟨hparent, fun _ tr₃ _ => ?_⟩
    exact ⟨Nat.le_sub_one_of_lt hlt, hparent⟩
  · rename_i hnot
    have heq : curHeight = height := by omega
    exact heq ▸ hcur

theorem resolvePinned_pinned {height : Nat} (h : height ≤ c.tip.height) :
    wp (pinning c) (ZebraChainView.resolvePinned height)
      (fun _ hash => c.hashAt height = some hash) (fun _ _ => True) tr := by
  rw [ZebraChainView.resolvePinned, wp_bind]
  refine ⟨trivial, fun a tr₁ hstep => ?_⟩
  obtain ⟨⟨s, hs⟩, -, -⟩ := World.recall_step hstep
  cases a with
  | some hash => exact hs hash rfl
  | none =>
      show wp _ (_ >>= _) _ _ _
      rw [wp_bind]
      refine ⟨trivial, fun a tr₂ hstep => ?_⟩
      obtain ⟨⟨s, hs⟩, -, -⟩ := World.recall_step hstep
      obtain ⟨start, rfl, hle, hstart⟩ := hs h
      exact walkDown_pinned hle hstart

/-- A view resolves heights to the chain it was captured at, whatever became of the best chain. -/
theorem resolve_pinned {height : Nat} :
    wp (pinning c) (c.view.resolve height) (fun _ r => r = c.hashAt height) (fun _ _ => True)
      tr := by
  unfold ZebraChainView.resolve
  split
  · rename_i habove
    exact (History.hashAt_above habove).symm
  · rename_i hbelow
    split
    · rename_i hfloor
      rw [wp_query]
      refine ⟨trivial, fun a tr' hstep => ?_⟩
      obtain ⟨⟨s, hs⟩, -, -⟩ := World.recall_step hstep
      cases a with
      | error e => trivial
      | ok r => exact Eq.trans hs (s.final height hfloor)
    · rw [wp_bind]
      refine wp_mono (fun tr' hash hhash => ?_) (fun _ _ h => h)
        (resolvePinned_pinned (Nat.le_of_not_lt hbelow))
      exact hhash.symm

end

/-! ## Resolving comes to an end -/

/-- The requests of `resolve` are answered as the chain has it, or with an error that satisfies
`R`. -/
structure Resolving (c : History) (A : ReaderEvent → Prop) (R : ChainError → Prop) : Prop where
  best : ∀ height ≤ c.view.finalizedFloor,
    Ensures A (Ends (fun r => r = c.hashAt height) R) (query (.bestChainBlockHash height) id)
  parent : ∀ height hash, 0 < height → c.hashAt height = some hash →
    Ensures A (Ends (fun parent => c.hashAt (height - 1) = some parent) R)
      (ZebraChainView.parentOf hash)
  cached : ∀ height, (∃ a, A ⟨.cacheGet height, a⟩) ∧
    ∀ a, A ⟨.cacheGet height, a⟩ → ∀ hash, a = some hash → c.hashAt height = some hash
  lowest : ∀ height ≤ c.tip.height, (∃ a, A ⟨.cacheFrom height, a⟩) ∧
    ∀ a, A ⟨.cacheFrom height, a⟩ →
      ∃ start, a = some start ∧ height ≤ start.1 ∧ c.hashAt start.1 = some start.2
  inserts : ∀ height hash, ∃ a, A ⟨.cacheInsert height hash, a⟩

section
variable {c : History} {A : ReaderEvent → Prop} {R : ChainError → Prop} {height : Nat}

/-- The walk down goes one block further at each turn. -/
theorem Resolving.walkDown (h : Resolving c A R) {start : Nat × BlockHash} (hle : height ≤ start.1)
    (hstart : c.hashAt start.1 = some start.2) :
    Ensures A (Ends (fun hash => c.hashAt height = some hash) R)
      (ZebraChainView.walkDown height start) := by
  refine .iterate (fun cur => height ≤ cur.1 ∧ c.hashAt cur.1 = some cur.2) Prod.fst ⟨hle, hstart⟩ ?_
  rintro ⟨curHeight, curHash⟩ ⟨hle, hcur⟩
  dsimp only at hle hcur ⊢
  split
  case isTrue hlt =>
    refine .bind (.mono ?_ (h.parent curHeight curHash (Nat.zero_lt_of_lt hlt) hcur))
    rintro (e | parent) hparent
    · exact hparent
    · refine .bind (.ask (h.inserts (curHeight - 1) parent) ?_)
      intro _ _
      exact .pure ⟨⟨Nat.le_sub_one_of_lt hlt, hparent⟩, Nat.sub_one_lt_of_lt hlt⟩
  case isFalse hnot =>
    obtain rfl : curHeight = height := by omega
    exact .pure hcur

theorem Resolving.resolvePinned (h : Resolving c A R) (hle : height ≤ c.tip.height) :
    Ensures A (Ends (fun hash => c.hashAt height = some hash) R)
      (ZebraChainView.resolvePinned height) := by
  obtain ⟨hget, hpinned⟩ := h.cached height
  refine .bind (.ask hget ?_)
  intro a ha
  cases a with
  | some hash => exact .pure (hpinned _ ha hash rfl)
  | none =>
      obtain ⟨hfrom, hlowest⟩ := h.lowest height hle
      refine .bind (.ask hfrom ?_)
      intro a ha
      obtain ⟨start, rfl, hstart, hhash⟩ := hlowest a ha
      exact h.walkDown hstart hhash

/-- Each height of the chain is resolved. -/
theorem Resolving.resolve (h : Resolving c A R) (hle : height ≤ c.tip.height) :
    Ensures A (Ends (fun r => r = c.hashAt height) R) (c.view.resolve height) := by
  rw [ZebraChainView.resolve, if_neg (show ¬ c.view.tip.height < height from Nat.not_lt.mpr hle)]
  split
  case isTrue hfloor => exact h.best height hfloor
  case isFalse =>
    refine .bind (.mono ?_ (h.resolvePinned hle))
    rintro (e | hash) hhash
    · exact hhash
    · exact .pure hhash.symm

end

end Zallet
