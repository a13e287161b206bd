/-
# `Zallet.Chain.History` — one fixed chain history

What a pinned view is a view of: the blocks of one chain, from genesis to a
tip.  The lookups here say what the right answers to a view's questions are;
they are definitions of ours, to hold the backends' answers against.
-/
import Zallet.Chain.Types

namespace Zallet

/-- What a transaction does to the transparent outputs. -/
structure TxData where
  txid : TxId
  outputs : Nat
  spends : List OutPoint
  deriving DecidableEq, Repr

/-- A block, with the note commitment trees after it. -/
structure BlockData where
  hash : BlockHash
  txs : List TxData
  saplingTree : Tree
  orchardTree : Tree
  ironwoodTree : Tree
  deriving DecidableEq, Repr

/-- The blocks of a chain, by height. -/
structure History where
  blocks : List BlockData
  nonempty : blocks ≠ []
  deriving DecidableEq

namespace History

variable (c : History)

def tip : ChainBlock := ⟨c.blocks.length - 1, (c.blocks.getLast c.nonempty).hash⟩

/-- The hash of the block at `height`, up to the tip. -/
def hashAt (height : Nat) : Option BlockHash := c.blocks[height]?.map (·.hash)

/-- The height of a block of this chain. -/
def heightOf (hash : BlockHash) : Option Nat := c.blocks.findIdx? (·.hash = hash)

/-- The height at which a transaction is mined on this chain. -/
def minedAt (txid : TxId) : Option Nat :=
  c.blocks.findIdx? fun block => block.txs.any (·.txid = txid)

def txs : List TxData := c.blocks.flatMap (·.txs)

/-- The transaction of this chain that spends an output. -/
def spender (outpoint : OutPoint) : Option TxId :=
  (c.txs.find? fun tx => outpoint ∈ tx.spends).map (·.txid)

/-- The output exists on this chain and is not spent on it. -/
def unspent (outpoint : OutPoint) : Bool :=
  (c.txs.any fun tx => tx.txid = outpoint.txid ∧ outpoint.n < tx.outputs) &&
    (c.spender outpoint).isNone

/-- The most recent entry of the locator that lies on this chain. -/
def forkPoint (locator : BlockLocator) : Option ChainBlock :=
  locator.hashes.findSome? fun hash => (c.heightOf hash).map (⟨·, hash⟩)

variable {c}

theorem hashAt_heightOf {hash : BlockHash} {height : Nat} (h : c.heightOf hash = some height) :
    c.hashAt height = some hash := by
  obtain ⟨hlt, hhash, -⟩ := List.findIdx?_eq_some_iff_getElem.mp h
  rw [hashAt, List.getElem?_eq_getElem hlt, Option.map_some]
  exact congrArg some (of_decide_eq_true hhash)

theorem hashAt_above {height : Nat} (h : c.tip.height < height) : c.hashAt height = none := by
  have hlen : c.blocks.length ≤ height := by
    have : c.blocks.length - 1 < height := h
    omega
  rw [hashAt, List.getElem?_eq_none hlen, Option.map_none]

theorem hashAt_below {height : Nat} (h : height ≤ c.tip.height) : ∃ hash, c.hashAt height = some hash := by
  have hpos := List.length_pos_iff.mpr c.nonempty
  have hlt : height < c.blocks.length := by
    have : height ≤ c.blocks.length - 1 := h
    omega
  exact ⟨_, by rw [hashAt, List.getElem?_eq_getElem hlt, Option.map_some]⟩

theorem hashAt_tip : c.hashAt c.tip.height = some c.tip.hash := by
  rw [hashAt, tip, ← List.getLast?_eq_getElem?, List.getLast?_eq_some_getLast c.nonempty]
  rfl

theorem height_le_tip {height : Nat} {hash : BlockHash} (h : c.hashAt height = some hash) :
    height ≤ c.tip.height := by
  refine Nat.le_of_not_lt fun habove => ?_
  rw [hashAt_above habove] at h
  cases h

/-- What is spent is not unspent. -/
theorem unspent_spender {outpoint : OutPoint} {txid : TxId} (h : c.spender outpoint = some txid) :
    c.unspent outpoint = false := by
  rw [unspent, h, Option.isNone_some, Bool.and_false]

end History

end Zallet
