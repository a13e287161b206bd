/-
# `Zallet.Zebra.TreeState` — tree states and pools that are not active yet

Asked for a pool's tree, zebrad answers `None` both before the pool's
activation and for a block that left the best chain.  `treeStateAsOf` takes the
first meaning for finalized blocks and the second for all others.  So while the
chain of a view stands, a tree state is given exactly for the finalized blocks
and those at which every pool is active (`treeStateAsOf_standing`); at a tip
before an activation the steady state re-pins for ever (`inactive_stuck`).
-/
import Zallet.Prog.Total
import Zallet.Zebra.Pinned
import Zallet.Sync.Engine

namespace Zallet

open Prog

/-- The heights at which the pools become active. -/
structure Activation where
  sapling : Nat
  orchard : Nat
  ironwood : Nat
  deriving DecidableEq, Repr

/-- Every pool is active at `height`. -/
def Activation.AllActive (act : Activation) (height : Nat) : Prop :=
  act.sapling ≤ height ∧ act.orchard ≤ height ∧ act.ironwood ≤ height

instance {act : Activation} {height : Nat} : Decidable (act.AllActive height) :=
  inferInstanceAs (Decidable (_ ∧ _ ∧ _))

/-- A pool's tree after a block: empty before the pool's activation. -/
def poolTree (activation height : Nat) (tree : Tree) : Tree :=
  if activation ≤ height then tree else .empty

/-- The chain state after the block at `height`. -/
def History.stateAt (c : History) (act : Activation) (height : Nat) : Option ChainState :=
  c.blocks[height]?.map fun block =>
    ⟨height, block.hash, poolTree act.sapling height block.saplingTree,
      poolTree act.orchard height block.orchardTree,
      poolTree act.ironwood height block.ironwoodTree⟩

/-- A state in which the captured chain still stands: the best chain goes on from it, and its
headers are known. -/
structure Standing (c : History) extends LaterState c where
  stands : ∀ height ≤ c.tip.height, best.blocks[height]? = c.blocks[height]?
  knows : ∀ {height hash}, c.hashAt height = some hash → (known hash).isSome

namespace Standing

variable {c : History} (s : Standing c) (act : Activation)

/-- A pool's tree bytes: none off the best chain, and none before the pool's activation. -/
def treeBytes (activation : Nat) (tree : BlockData → Tree) (hash : BlockHash) : Option RawTree :=
  (s.best.heightOf hash).bind fun height =>
    if activation ≤ height then s.best.blocks[height]?.map fun block => ⟨.ok (tree block)⟩ else none

/-- What requests are answered with: no error, and trees as they are at the time. -/
def Answers : ReaderEvent → Prop
  | ⟨.saplingTreeBytes hash, r⟩ => r = .ok (s.treeBytes act.sapling (·.saplingTree) hash)
  | ⟨.orchardTreeBytes hash, r⟩ => r = .ok (s.treeBytes act.orchard (·.orchardTree) hash)
  | ⟨.ironwoodTreeBytes hash, r⟩ => r = .ok (s.treeBytes act.ironwood (·.ironwoodTree) hash)
  | e => readerErrorOf e = none ∧ s.toLaterState.Answers e

end Standing

section
variable {c : History} {s : Standing c} {act : Activation} {height : Nat}

/-! ## Resolving -/

theorem block_at (h : height ≤ c.tip.height) : ∃ block, c.blocks[height]? = some block := by
  obtain ⟨hash, hhash⟩ := History.hashAt_below h
  obtain ⟨block, hblock, -⟩ := Option.map_eq_some_iff.mp hhash
  exact ⟨block, hblock⟩

theorem Standing.resolving : Resolving c (s.Answers act) (fun _ => False) where
  best height hfloor := by
    refine .query ⟨.ok (c.hashAt height), rfl, (s.final height hfloor).symm⟩ ?_
    rintro a ⟨herror, ha⟩
    cases a with
    | error e => cases herror
    | ok r => exact Eq.trans ha (s.final height hfloor)
  parent height hash hpos h := by
    obtain ⟨info, hinfo⟩ := Option.isSome_iff_exists.mp (s.knows h)
    refine .query ⟨.ok (some info), rfl, hinfo.symm⟩ ?_
    rintro a ⟨herror, ha⟩
    cases a with
    | error e => cases herror
    | ok r =>
        obtain rfl : r = some info := Eq.trans ha hinfo
        exact (s.known_pinned h hinfo).2 hpos
  cached height := by
    refine ⟨⟨none, rfl, fun _ h => by cases h⟩, ?_⟩
    rintro a ⟨-, ha⟩
    exact ha
  lowest height h := by
    refine ⟨⟨some (c.tip.height, c.tip.hash), rfl, fun _ => ⟨_, rfl, h, History.hashAt_tip⟩⟩, ?_⟩
    rintro a ⟨-, ha⟩
    exact ha h
  inserts height hash := ⟨(), rfl, trivial⟩

/-- While the captured chain stands, each of its heights is resolved. -/
theorem resolve_standing (h : height ≤ c.tip.height) :
    Ensures (s.Answers act) (fun r => r = .ok (c.hashAt height)) (c.view.resolve height) := by
  refine .mono ?_ (s.resolving.resolve h)
  rintro (e | r) hr
  · exact hr.elim
  · exact congrArg Except.ok hr

/-! ## Trees -/

/-- The bytes of a block of the captured chain are those of its own tree. -/
theorem treeBytes_at {block : BlockData} (h : height ≤ c.tip.height)
    (hblock : c.blocks[height]? = some block) {activation : Nat} {tree : BlockData → Tree} :
    s.treeBytes activation tree block.hash =
      if activation ≤ height then some ⟨.ok (tree block)⟩ else none := by
  have hbest : s.best.blocks[height]? = some block := (s.stands height h).trans hblock
  have hpinned : c.hashAt height = some block.hash := by rw [History.hashAt, hblock, Option.map_some]
  have hplace : s.best.heightOf block.hash = some height := by
    cases hfound : s.best.heightOf block.hash with
    | none =>
        have hnot := List.findIdx?_eq_none_iff.mp hfound block (List.mem_of_getElem? hbest)
        simp at hnot
    | some height' => rw [s.best_pinned hpinned (History.hashAt_heightOf hfound)]
  rw [Standing.treeBytes, hplace, Option.bind_some, hbest, Option.map_some]

/-- How reading a pool's tree ends. -/
def poolEnd (activation height : Nat) (finalized : Bool) (gone : String) (tree : Tree) :
    Except ChainError Tree :=
  if activation ≤ height ∨ finalized then .ok (poolTree activation height tree)
  else .error (.unavailable gone)

theorem readTree_at {block : BlockData} (h : height ≤ c.tip.height)
    (hblock : c.blocks[height]? = some block) {activation : Nat} {tree : BlockData → Tree}
    {finalized : Bool} {gone : String} :
    ZebraChainView.readTree finalized gone (.ok (s.treeBytes activation tree block.hash)) =
      poolEnd activation height finalized gone (tree block) := by
  rw [treeBytes_at h hblock, poolEnd, poolTree]
  by_cases hactive : activation ≤ height <;> cases finalized <;>
    simp [hactive, ZebraChainView.readTree, mapError_ok]

/-- How reading a tree state ends: with the state, or as if the block had been reorged away. -/
def StateEnd (c : History) (act : Activation) (height : Nat) (r : Except ChainError (Option ChainState)) :
    Prop :=
  if height ≤ c.view.finalizedFloor ∨ act.AllActive height then
    ∃ state ∈ c.stateAt act height, r = .ok (some state)
  else ∃ gone, r = .error (.unavailable gone)

theorem stateEnd_error {gone : String} (h : ¬ (height ≤ c.view.finalizedFloor ∨ act.AllActive height)) :
    StateEnd c act height (.error (.unavailable gone)) := by
  rw [StateEnd, if_neg h]
  exact ⟨gone, rfl⟩

/-- Reading one pool's tree on the way to a tree state. -/
theorem pool_bind {α : Type} {A : ReaderEvent → Prop} {op : ReaderOp}
    {f : op.Ans → Except ChainError Tree} {activation : Nat} {finalized : Bool} {gone : String}
    {tree : Tree} {k : Tree → Reads α} {Q : Except ChainError α → Prop} (hop : ∃ a, A ⟨op, a⟩)
    (hread : ∀ a, A ⟨op, a⟩ → f a = poolEnd activation height finalized gone tree)
    (hok : activation ≤ height ∨ finalized → Ensures A Q (k (poolTree activation height tree)))
    (herror : ¬ (activation ≤ height ∨ finalized) → Q (.error (.unavailable gone))) :
    Ensures A Q (query (E := readerSig) op f >>= k) := by
  refine .bind (.query hop fun a ha => ?_)
  rw [hread a ha, poolEnd]
  split
  · rename_i hactive
    exact hok hactive
  · rename_i hinactive
    exact herror hinactive

theorem treeStateAsOf_ends (h : height ≤ c.tip.height) :
    Ensures (s.Answers act) (StateEnd c act height) (c.view.treeStateAsOf height) := by
  obtain ⟨block, hblock⟩ := block_at h
  have hhash : c.hashAt height = some block.hash := by rw [History.hashAt, hblock, Option.map_some]
  refine .bind (.mono ?_ (resolve_standing h))
  rintro r rfl
  rw [hhash]
  refine pool_bind ⟨_, rfl⟩ (fun a ha => ha ▸ readTree_at h hblock) (fun hsapling => ?_)
    fun hnot => stateEnd_error fun hall => ?_
  · refine pool_bind ⟨_, rfl⟩ (fun a ha => ha ▸ readTree_at h hblock) (fun horchard => ?_)
      fun hnot => stateEnd_error fun hall => ?_
    · refine pool_bind ⟨_, rfl⟩ (fun a ha => ha ▸ readTree_at h hblock) (fun hironwood => ?_)
        fun hnot => stateEnd_error fun hall => ?_
      · refine .pure ?_
        have hgiven : height ≤ c.view.finalizedFloor ∨ act.AllActive height := by
          rcases Nat.lt_or_ge c.view.finalizedFloor height with hlt | hge
          · have hpinned := decide_eq_false (Nat.not_le.mpr hlt)
            rw [hpinned] at hsapling horchard hironwood
            simp only [Bool.false_eq_true, or_false] at hsapling horchard hironwood
            exact .inr ⟨hsapling, horchard, hironwood⟩
          · exact .inl hge
        rw [StateEnd, if_pos hgiven]
        exact ⟨_, by rw [History.stateAt, hblock]; rfl, rfl⟩
      · exact hnot (hall.elim (fun hfinal => .inr (decide_eq_true hfinal)) fun hact => .inl hact.2.2)
    · exact hnot (hall.elim (fun hfinal => .inr (decide_eq_true hfinal)) fun hact => .inl hact.2.1)
  · exact hnot (hall.elim (fun hfinal => .inr (decide_eq_true hfinal)) fun hact => .inl hact.1)

/-- While the chain of a view stands, `treeStateAsOf` gives the state after the block exactly at
the finalized heights and at those where every pool is active. -/
theorem treeStateAsOf_standing {c : History} {act : Activation} {height : Nat} (s : Standing c)
    (h : height ≤ c.tip.height) :
    Ensures (s.Answers act) (fun r => ∃ state ∈ c.stateAt act height, r = .ok (some state))
      (c.view.treeStateAsOf height) ↔
    height ≤ c.view.finalizedFloor ∨ act.AllActive height := by
  have hends := @treeStateAsOf_ends c s act height h
  constructor
  · intro hgives
    refine Classical.byContradiction fun hnot => ?_
    obtain ⟨r, ⟨state, -, rfl⟩, hr⟩ := hgives.both hends
    rw [StateEnd, if_neg hnot] at hr
    obtain ⟨gone, hgone⟩ := hr
    cases hgone
  · intro hgiven
    refine .mono (fun r hr => ?_) hends
    rwa [StateEnd, if_pos hgiven] at hr

end

/-- A chain of three blocks. -/
def young : History := ⟨[blockOf 0 80, blockOf 1 81, blockOf 2 82], List.cons_ne_nil _ _⟩

theorem young_hashAt {height : Nat} {hash : BlockHash} (h : young.hashAt height = some hash) :
    height ≤ 2 ∧ hash = ⟨height⟩ := by
  match height with
  | 0 => exact ⟨by omega, (Option.some.inj h).symm⟩
  | 1 => exact ⟨by omega, (Option.some.inj h).symm⟩
  | 2 => exact ⟨by omega, (Option.some.inj h).symm⟩
  | n + 3 => cases h

/-- The backend, that has just this chain. -/
def youngState : Standing young where
  best := young
  known hash := if hash.bytes ≤ 2 then some ⟨hash.bytes, ⟨hash.bytes - 1⟩⟩ else none
  spendIndex _ := none
  known_pinned := by
    intro height hash info h hknown
    obtain ⟨hle, rfl⟩ := young_hashAt h
    rw [if_pos hle] at hknown
    cases hknown
    refine ⟨rfl, fun hpos => ?_⟩
    match height with
    | 1 => rfl
    | 2 => rfl
    | n + 3 => omega
  best_pinned := by
    intro height height' hash h h'
    obtain ⟨-, rfl⟩ := young_hashAt h
    exact BlockHash.mk.inj (young_hashAt h').2.symm
  final _ _ := rfl
  stands _ _ := rfl
  knows := by
    intro height hash h
    obtain ⟨hle, rfl⟩ := young_hashAt h
    rw [if_pos hle]
    rfl

theorem treeStateAsOf_standing_young :
    Ensures (youngState.Answers ⟨0, 0, 1⟩)
      (fun r => ∃ state ∈ young.stateAt ⟨0, 0, 1⟩ 1, r = .ok (some state))
      (young.view.treeStateAsOf 1) ↔
    1 ≤ young.view.finalizedFloor ∨ Activation.AllActive ⟨0, 0, 1⟩ 1 :=
  treeStateAsOf_standing youngState (by decide)

/-- A reader for it, where the last pool is yet to become active. -/
def youngReader : Answer readerSig Unit := fun _ op =>
  match op with
  | .tip => (.ok (some young.tip), ())
  | .bestChainBlockHash height => (.ok (young.hashAt height), ())
  | .rawBlockByHash hash => (.ok (some ⟨.ok ⟨hash.bytes, ⟨hash, 0⟩⟩, .ok ⟨hash, 0⟩⟩), ())
  | .blockHeaderByHash hash => (.ok (youngState.known hash), ())
  | .saplingTreeBytes hash => (.ok (youngState.treeBytes 0 (·.saplingTree) hash), ())
  | .orchardTreeBytes hash => (.ok (youngState.treeBytes 0 (·.orchardTree) hash), ())
  | .ironwoodTreeBytes hash => (.ok (youngState.treeBytes 10 (·.ironwoodTree) hash), ())
  | .findForkPoint locator => (.ok (young.forkPoint locator), ())
  | .transaction txid =>
      (.ok ((young.minedAt txid).map fun height => ⟨⟨fun _ => .ok ⟨txid⟩⟩, height, 0⟩), ())
  | .sideChainTransaction _ => (.ok none, ())
  | .isUnspent outpoint => (.ok (young.unspent outpoint), ())
  | .spendingTransaction _ => (.ok none, ())
  | .getRawMempool => (.ok [], ())
  | .getRawTransaction _ => (.error "no such transaction", ())
  | .cacheGet _ => (none, ())
  | .cacheFrom _ => (some (2, ⟨2⟩), ())
  | .cacheInsert _ _ => ((), ())

theorem youngReader_answers (t : Unit) (op : ReaderOp) :
    youngState.Answers ⟨0, 0, 10⟩ ⟨op, (youngReader t op).1⟩ := by
  cases op with
  | saplingTreeBytes hash => exact rfl
  | orchardTreeBytes hash => exact rfl
  | ironwoodTreeBytes hash => exact rfl
  | tip => exact ⟨rfl, rfl⟩
  | bestChainBlockHash height => exact ⟨rfl, rfl⟩
  | blockHeaderByHash hash => exact ⟨rfl, rfl⟩
  | findForkPoint locator => exact ⟨rfl, rfl⟩
  | transaction txid =>
      refine ⟨rfl, ?_⟩
      show Option.map _ (Option.map _ (young.minedAt txid)) = young.minedAt txid
      rw [Option.map_map]
      exact Option.map_id'
  | isUnspent outpoint => exact ⟨rfl, rfl⟩
  | spendingTransaction outpoint => exact ⟨rfl, rfl⟩
  | cacheGet height => exact ⟨rfl, fun _ h => by cases h⟩
  | cacheFrom height => exact ⟨rfl, fun h => ⟨_, rfl, h, rfl⟩⟩
  | _ => exact ⟨rfl, trivial⟩

/-- A wallet at height 1 of this chain, under a view of all of it. -/
def waiting : Answer (syncSig ZebraChainView) Unit := fun _ op =>
  match op with
  | .getBlockHash height => (.ok (young.hashAt height), ())
  | .findForkPoint _ locator => (.ok (young.forkPoint locator), ())
  | .tip view => (.ok view.tip, ())
  | .tryNext _ _ _ => (.ok (some ⟨2, ⟨⟨2⟩, 0⟩⟩), ())
  | .treeStateAsOf _ _ => (.error (.unavailable "pinned ironwood treestate reorged away"), ())
  | op => (op.idle young.view, ())

/-- A turn of its steady state. -/
def waitingTurn : SyncTrace ZebraChainView := (exec waiting 30 () (steadyTurn none ⟨1, ⟨1⟩⟩)).1

theorem waitingTurn_eq : waitingTurn =
    [⟨.snapshot, .ok young.view⟩, ⟨.tip young.view, .ok ⟨2, ⟨2⟩⟩⟩, ⟨.fetchUpdateBoundary 2, 0⟩,
      ⟨.notifyOne, ()⟩, ⟨.getWalletBirthday, .ok none⟩, ⟨.getBlockHash 1, .ok (some ⟨1⟩)⟩,
      ⟨.getBlockHash 0, .ok (some ⟨0⟩)⟩,
      ⟨.findForkPoint young.view ⟨[⟨1⟩, ⟨0⟩]⟩, .ok (some ⟨1, ⟨1⟩⟩)⟩,
      ⟨.tryNext young.view (.toTip 2) 0, .ok (some ⟨2, ⟨⟨2⟩, 0⟩⟩)⟩,
      ⟨.treeStateAsOf young.view 1, .error (.unavailable "pinned ironwood treestate reorged away")⟩,
      ⟨.sleep reorgRetryBackoff, ()⟩] := by
  decide +kernel

theorem waitingTurn_served :
    ∀ e ∈ waitingTurn, ZebraAnswer (youngState.Answers ⟨0, 0, 10⟩) e := by
  rw [waitingTurn_eq]
  intro e he
  simp only [List.mem_cons, List.not_mem_nil, or_false] at he
  rcases he with rfl | rfl | rfl | rfl | rfl | rfl | rfl | rfl | rfl | rfl | rfl
  · show Outcome _ zebraSnapshot _
    exact Outcome.of_exec_ok (n := 9) (s := ()) youngReader_answers (by decide +kernel)
  · exact Outcome.pure
  · trivial
  · trivial
  · trivial
  · trivial
  · trivial
  · show Outcome _ (ZebraChainView.findForkPoint _) _
    exact Outcome.of_exec_ok (n := 9) (s := ()) youngReader_answers (by decide +kernel)
  · show Outcome _ (young.view.getBlock 2) _
    exact Outcome.of_exec_ok (n := 9) (s := ()) youngReader_answers (by decide +kernel)
  · show Outcome _ (young.view.treeStateAsOf 1) _
    exact Outcome.of_exec_error (n := 9) (s := ()) youngReader_answers (by decide +kernel)
  · trivial

theorem waitingTurn_run : Run (steadyTurn none ⟨1, ⟨1⟩⟩) waitingTurn (.ret (.inl ⟨1, ⟨1⟩⟩)) :=
  exec_ret (by decide +kernel)

/-- Any number of such turns, the wallet staying where it is. -/
theorem waitingTurns (n : Nat) :
    Turns (steadyTurn none) ⟨1, ⟨1⟩⟩ (List.replicate n waitingTurn).flatten ⟨1, ⟨1⟩⟩ := by
  induction n with
  | zero => exact .start
  | succ n ih =>
      rw [List.replicate_succ', List.flatten_concat]
      exact .turn ih waitingTurn_run

/-- At a tip before an activation a tree state is refused though the chain stands, and the steady
state may re-pin any number of times without moving. -/
theorem inactive_stuck :
    (¬ ∀ (c : History) (act : Activation) (height : Nat) (s : Standing c), height ≤ c.tip.height →
      Ensures (s.Answers act) (fun r => ∃ state ∈ c.stateAt act height, r = .ok (some state))
        (c.view.treeStateAsOf height)) ∧
    ∀ n, ∃ tr : SyncTrace ZebraChainView,
      Turns (steadyTurn none) ⟨1, ⟨1⟩⟩ tr ⟨1, ⟨1⟩⟩ ∧
      (∀ e ∈ tr, ZebraAnswer (youngState.Answers ⟨0, 0, 10⟩) e) ∧
      (tr.filter (fun e => e.op = .snapshot)).length = n := by
  constructor
  · intro h
    have hends : Ensures (youngState.Answers ⟨0, 0, 10⟩) (StateEnd young ⟨0, 0, 10⟩ 1) _ :=
      treeStateAsOf_ends (by decide)
    obtain ⟨r, ⟨state, -, rfl⟩, hr⟩ := (h young ⟨0, 0, 10⟩ 1 youngState (by decide)).both hends
    rw [StateEnd, if_neg (by decide)] at hr
    obtain ⟨gone, hgone⟩ := hr
    cases hgone
  · intro n
    refine ⟨_, waitingTurns n, fun e he => ?_, ?_⟩
    · obtain ⟨tr, htr, he⟩ := List.mem_flatten.mp he
      rw [List.eq_of_mem_replicate htr] at he
      exact waitingTurn_served e he
    · have hone : (waitingTurn.filter (fun e => e.op = .snapshot)).length = 1 := by
        rw [waitingTurn_eq]
        decide
      induction n with
      | zero => rfl
      | succ n ih =>
          rw [List.replicate_succ', List.flatten_concat, List.filter_append, List.length_append, ih,
            hone]

end Zallet
