/-
# `Zallet.Sync.ForkSearch` — when the fork search gives up

A fork search compares two histories, the wallet's and the best chain's, and
gives up with `WalletDivergedBelowBirthday` when none of the heights it probes
holds a common block.  It probes the sampled heights of the locator, and then
every tenth height down to the birthday: `Histories.Probes` says when that
finds something, `locateForkPoint_halts` that it gives up exactly when not.

`genuine_halt` is what this means for `steady_state`: it halts only on a real
divergence just when the histories, where they have a block in common at all,
have one at a probed height.  Sparse ones need not (`sparse_halt`).
-/
import Zallet.Sync.Runs
import Zallet.Prog.Outcome
import Zallet.Prog.Raises

namespace Zallet

variable {V : Type}

open Prog

/-- The wallet's record of the chain, its birthday, and the backend's best chain.  A hash
belongs to a block of one height. -/
structure Histories where
  wallet : Nat → Option BlockHash
  birthday : Option Nat
  chain : Nat → Option BlockHash
  heightOf : BlockHash → Nat
  wallet_height : ∀ {height hash}, wallet height = some hash → heightOf hash = height
  chain_height : ∀ {height hash}, chain height = some hash → heightOf hash = height

namespace Histories

variable (H : Histories)

/-- The wallet's block at `height` is on the best chain. -/
def Shares (height : Nat) : Prop := ∃ hash, H.wallet height = some hash ∧ H.chain height = some hash

/-- No block of the wallet from its birthday up to `top` is on the best chain. -/
def Diverged (top : Nat) : Prop := ∀ height, H.birthday.getD 0 ≤ height → height ≤ top → ¬ H.Shares height

/-- What a backend with this best chain answers to a locator: a block of the best chain, be it an
entry or an ancestor of one, or none where no entry is on the best chain. -/
def Forks (locator : BlockLocator) : Option ChainBlock → Prop
  | some fork => H.chain fork.height = some fork.hash
  | none => ∀ hash ∈ locator.hashes, H.chain (H.heightOf hash) ≠ some hash

/-- The answers of a wallet and a backend with these histories. -/
def Tells : SyncEvent V → Prop
  | ⟨.getWalletBirthday, r⟩ => r = .ok H.birthday
  | ⟨.getBlockHash height, r⟩ => r = .ok (H.wallet height)
  | ⟨.findForkPoint _ locator, r⟩ => ∃ fork, r = .ok fork ∧ H.Forks locator fork
  | ⟨.getBlockHeader _ height, r⟩ =>
      ∃ header, r = .ok header ∧ header.map (·.hash) = H.chain height
  | _ => True

/-- The locator built from the wallet's blocks at the sampled heights. -/
def locator (tip : Nat) : BlockLocator := ⟨(locatorBlockHeights tip).filterMap H.wallet⟩

/-- The heights the walk back from `height` goes through; it probes all but the first. -/
def walkHeight (birthday height : Nat) : Nat → Nat
  | 0 => height
  | k + 1 => (rewindStep (walkHeight birthday height k) birthday).1

/-- The search from `top` finds a height to resume at: the wallet has no history, or a sampled or
a walked height holds a common block. -/
def Probes (top : Nat) : Prop :=
  (∀ height ∈ locatorBlockHeights top, H.wallet height = none) ∨
  (∃ height ∈ locatorBlockHeights top, H.Shares height) ∨
  ∃ k, H.Shares (walkHeight (H.birthday.getD 0) top (k + 1))

end Histories

example : (List.range 5).map (Histories.walkHeight 3 25) = [25, 15, 5, 3, 3] := by decide

/-! ## The walk's heights -/

theorem walkHeight_next {birthday height : Nat} : ∀ k,
    Histories.walkHeight birthday (rewindStep height birthday).1 k =
      Histories.walkHeight birthday height (k + 1)
  | 0 => rfl
  | k + 1 => by rw [Histories.walkHeight, walkHeight_next k, ← Histories.walkHeight]

theorem rewindStep_last {height birthday : Nat} (h : (rewindStep height birthday).2 = true) :
    (rewindStep height birthday).1 = birthday := by
  simp only [rewindStep, decide_eq_true_eq] at h ⊢
  omega

theorem rewindStep_lt {height birthday : Nat} (h : (rewindStep height birthday).2 = false) :
    (rewindStep height birthday).1 < height := by
  have habove : ¬ max (height - forkSearchStep) birthday ≤ birthday := of_decide_eq_false h
  show max (height - forkSearchStep) birthday < height
  unfold forkSearchStep at *
  omega

/-- Past the birthday the walk stands still. -/
theorem walkHeight_last {height birthday : Nat} (h : (rewindStep height birthday).2 = true) :
    ∀ k, Histories.walkHeight birthday height (k + 1) = birthday
  | 0 => rewindStep_last h
  | k + 1 => by
      rw [Histories.walkHeight, walkHeight_last h k]
      simp only [rewindStep]
      omega

/-! ## What the search finds -/

section
variable {H : Histories} {view : V} {tr : SyncTrace V}

/-- The world of these histories. -/
abbrev Histories.telling (H : Histories) (V : Type) : World (syncSig V) (SyncTrace V) :=
  .recall H.Tells (fun _ _ => True) fun _ => True

/-- Errors other than the search's own. -/
abbrev Undiverged (e : SyncError) : Prop := ∀ birthday, e ≠ .walletDivergedBelowBirthday birthday

theorem telling_getBlockHash {Q : SyncTrace V → Option BlockHash → Prop}
    {R : SyncTrace V → SyncError → Prop} {height : Nat}
    (h : ∀ tr', Q tr' (H.wallet height)) :
    wp (H.telling V) (dbCall (.getBlockHash height) id) Q R tr := by
  rw [wp_dbCall]
  refine ⟨trivial, fun a tr' hstep => ?_⟩
  obtain rfl : a = .ok (H.wallet height) := (World.recall_step hstep).1
  exact h tr'

theorem getBlockHash_outcome {height : Nat} :
    Outcome H.Tells (dbCall (.getBlockHash height) id : Sync V _) (.ok (H.wallet height)) := by
  have htold : H.Tells (⟨.getBlockHash height, .ok (H.wallet height)⟩ : SyncEvent V) := rfl
  exact .query htold rfl

/-- The blocks sampled for a locator. -/
def Histories.sampled (H : Histories) (heights : List Nat) : List ChainBlock :=
  heights.filterMap fun height => (H.wallet height).map (⟨height, ·⟩)

theorem sampled_heights (heights : List Nat) :
    ((H.sampled heights).map (·.height)).Sublist heights :=
  recorded_heights H.wallet heights

theorem sampled_hashes (heights : List Nat) :
    (H.sampled heights).map (·.hash) = heights.filterMap H.wallet := by
  rw [Histories.sampled, List.map_filterMap]
  congr 1
  funext height
  cases H.wallet height <;> rfl

theorem fromBlocks_sampled (tip : Nat) :
    (BlockLocator.fromBlocks (H.sampled (locatorBlockHeights tip)) : Sync V _) =
      .ret (H.locator tip) := by
  have hdec := (locatorBlockHeights_decreasing tip).sublist (sampled_heights (H := H) _)
  rw [fromBlocks_eq hdec, sampled_hashes]
  rfl

theorem sampleBlocks_telling {tip : Nat} :
    wp (H.telling V) (sampleBlocks tip) (fun _ blocks => blocks = H.sampled (locatorBlockHeights tip))
      (fun _ => Undiverged) tr := by
  refine wp_foldlM (fun heights blocks _ => blocks = H.sampled heights) rfl ?_
  rintro l height r blocks tr₁ - rfl
  rw [sampleBlock, wp_bind]
  refine telling_getBlockHash fun tr₂ => ?_
  unfold Histories.sampled
  rw [List.filterMap_append]
  cases hw : H.wallet height with
  | none => simp [hw]
  | some hash => simp [hw]

theorem buildBlockLocator_telling {tip : Nat} :
    wp (H.telling V) (buildBlockLocator tip) (fun _ locator => locator = H.locator tip)
      (fun _ => Undiverged) tr := by
  rw [buildBlockLocator, wp_bind]
  refine wp_mono (fun tr' blocks hblocks => ?_) (fun _ _ h => h) sampleBlocks_telling
  rw [hblocks, fromBlocks_sampled]
  exact rfl

theorem sampleBlocks_outcome {tip : Nat} :
    Outcome H.Tells (sampleBlocks tip : Sync V _) (.ok (H.sampled (locatorBlockHeights tip))) := by
  have hstep : ∀ (blocks : List ChainBlock) (height : Nat),
      Outcome H.Tells (sampleBlock blocks height : Sync V _)
        (.ok (blocks ++ ((H.wallet height).map (ChainBlock.mk height)).toList)) := by
    intro blocks height
    refine .bind getBlockHash_outcome ?_
    cases H.wallet height with
    | none =>
        rw [Option.map_none, Option.toList_none, List.append_nil]
        exact .pure
    | some hash => exact .pure
  have h : Outcome H.Tells (sampleBlocks tip : Sync V _) _ := Outcome.foldlM hstep
  rw [foldl_append_toList, List.nil_append] at h
  exact h

theorem buildBlockLocator_outcome {tip : Nat} :
    Outcome H.Tells (buildBlockLocator tip : Sync V _) (.ok (H.locator tip)) := by
  refine .bind sampleBlocks_outcome ?_
  rw [fromBlocks_sampled]
  exact .pure

/-- The backend knows none of the locator's blocks exactly when no sampled height holds a common
block. -/
theorem forks_locator_none {tip : Nat} :
    H.Forks (H.locator tip) none ↔ ¬ ∃ height ∈ locatorBlockHeights tip, H.Shares height := by
  constructor
  · rintro hnone ⟨height, hmem, hash, hwallet, hchain⟩
    refine hnone hash (List.mem_filterMap.mpr ⟨height, hmem, hwallet⟩) ?_
    rw [H.wallet_height hwallet]
    exact hchain
  · intro h hash hmem hchain
    obtain ⟨height, hheight, hwallet⟩ := List.mem_filterMap.mp hmem
    rw [H.wallet_height hwallet] at hchain
    exact h ⟨height, hheight, hash, hwallet, hchain⟩

theorem locator_nil {tip : Nat} :
    (H.locator tip).hashes = [] ↔ ∀ height ∈ locatorBlockHeights tip, H.wallet height = none :=
  List.filterMap_eq_nil_iff

/-! ## When it gives up -/

/-- What the walk does at a height that holds no common block. -/
theorem probe_outcome {height : Nat} (h : ¬ H.Shares height)
    {p : Sync V (Nat ⊕ ChainBlock)} {r : Except SyncError (Nat ⊕ ChainBlock)}
    (hp : Outcome H.Tells p r) :
    Outcome H.Tells (do
      match ← dbCall (.getBlockHash height) id with
      | none => p
      | some wh => do
          let bestChainHash ← chainCall (.getBlockHeader view height) id
          if bestChainHash.map (·.hash) = some wh then pure (.inr ⟨height, wh⟩)
          else p) r := by
  refine .bind getBlockHash_outcome ?_
  cases hw : H.wallet height with
  | none => exact hp
  | some wh =>
      let header := (H.chain height).map fun hash => BlockHeader.mk hash 0
      have hheader : header.map (·.hash) = H.chain height := by
        cases hc : H.chain height <;> simp [header, hc]
      have htold : H.Tells (⟨.getBlockHeader view height, .ok header⟩ : SyncEvent V) :=
        ⟨header, rfl, hheader⟩
      refine .bind (.query htold rfl) ?_
      have hne : header.map (·.hash) ≠ some wh := fun heq =>
        h ⟨wh, hw, hheader.symm.trans heq⟩
      rw [if_neg hne]
      exact hp

/-- A walk none of whose heights holds a common block comes to the birthday and gives up. -/
theorem stepBack_outcome {birthday : Nat} {prevTip : ChainBlock}
    (h : ∀ k, ¬ H.Shares (Histories.walkHeight birthday prevTip.height (k + 1))) :
    Outcome H.Tells (stepBackToBestChain view prevTip birthday fun height =>
      dbCall (.getBlockHash height) id) (.error (.walletDivergedBelowBirthday birthday)) := by
  unfold stepBackToBestChain
  generalize prevTip.height = height at h
  induction height using Nat.strongRecOn with
  | ind height ih =>
      have hmiss : ¬ H.Shares (rewindStep height birthday).1 := h 0
      cases hlast : (rewindStep height birthday).2 with
      | true =>
          refine .last_error (probe_outcome hmiss ?_)
          rw [probeMissed, hlast]
          exact .fail
      | false =>
          refine .next (probe_outcome hmiss ?_) (ih _ (rewindStep_lt hlast) fun k => ?_)
          · rw [probeMissed, hlast]
            exact .pure
          · rw [walkHeight_next]
            exact h (k + 1)

/-- The heights still to be walked decide about those walked so far, when this one is missed. -/
theorem probeMissed_telling {Q : Prop} {birthday height : Nat}
    (hrest : (∀ k, ¬ H.Shares (Histories.walkHeight birthday height (k + 1))) → Q)
    (hmiss : ¬ H.Shares (rewindStep height birthday).1) :
    wp (H.telling V) (probeMissed birthday (rewindStep height birthday))
      (fun _ => Sum.elim (fun z => (∀ k, ¬ H.Shares (Histories.walkHeight birthday z (k + 1))) → Q)
        fun _ => True)
      (fun _ e => ¬ Undiverged e → Q) tr := by
  unfold probeMissed
  split
  · rename_i hlast
    intro _
    refine hrest fun k => ?_
    rw [walkHeight_last hlast, ← rewindStep_last hlast]
    exact hmiss
  · intro hnext
    refine hrest fun k => ?_
    cases k with
    | zero => exact hmiss
    | succ k =>
        rw [← walkHeight_next]
        exact hnext k

/-- A walk that gives up found no common block at any of its heights. -/
theorem stepBack_telling {birthday : Nat} {prevTip : ChainBlock} :
    wp (H.telling V) (stepBackToBestChain view prevTip birthday fun height =>
        dbCall (.getBlockHash height) id)
      (fun _ _ => True)
      (fun _ e => ¬ Undiverged e →
        ∀ k, ¬ H.Shares (Histories.walkHeight birthday prevTip.height (k + 1))) tr := by
  refine wp_iterate (fun height _ =>
    (∀ k, ¬ H.Shares (Histories.walkHeight birthday height (k + 1))) →
      ∀ k, ¬ H.Shares (Histories.walkHeight birthday prevTip.height (k + 1))) id ?_
  intro height tr₁ hinv
  rw [wp_bind]
  refine telling_getBlockHash fun tr₂ => ?_
  cases hw : H.wallet (rewindStep height birthday).1 with
  | none =>
      refine probeMissed_telling hinv ?_
      rintro ⟨hash, hwallet, -⟩
      rw [hw] at hwallet
      cases hwallet
  | some wh =>
      simp only [wp_bind, wp_chainCall]
      refine ⟨trivial, fun a tr₃ hstep => ?_⟩
      obtain ⟨header, rfl, hheader⟩ := (World.recall_step hstep).1
      simp only [id, ends_ok]
      split
      · trivial
      · rename_i hne
        refine probeMissed_telling hinv ?_
        rintro ⟨hash, hwallet, hchain⟩
        rw [hw] at hwallet
        cases hwallet
        exact hne (hheader.trans hchain)

theorem getWalletBirthday_told : H.Tells (⟨.getWalletBirthday, .ok H.birthday⟩ : SyncEvent V) := rfl

/-- A search that gives up probed no height that holds a common block. -/
theorem locateForkPoint_telling {prevTip : ChainBlock} :
    wp (H.telling V) (locateForkPoint view prevTip) (fun _ _ => True)
      (fun _ e => ¬ Undiverged e → ¬ H.Probes prevTip.height) tr := by
  rw [locateForkPoint, wp_bind, wp_dbCall]
  refine ⟨trivial, fun a tr₁ hstep => ?_⟩
  obtain rfl : a = .ok H.birthday := (World.recall_step hstep).1
  simp only [id, ends_ok, wp_bind]
  refine wp_mono (fun tr₂ locator hlocator => ?_) (fun _ e h hne => absurd h hne)
    buildBlockLocator_telling
  obtain rfl := hlocator
  rw [wp_chainCall]
  refine ⟨trivial, fun a tr₃ hstep => ?_⟩
  obtain ⟨fork, rfl, hfork⟩ := (World.recall_step hstep).1
  cases fork with
  | some fork => trivial
  | none =>
      simp only [id, ends_ok]
      split
      · trivial
      · rename_i hnil
        refine wp_mono (fun _ _ _ => trivial) (fun _ e hwalk hne => ?_) stepBack_telling
        rintro (hempty | hshares | ⟨k, hk⟩)
        · exact hnil (locator_nil.mpr hempty)
        · exact forks_locator_none.mp hfork hshares
        · exact hwalk hne k hk

/-- A search that probes no height that holds a common block gives up. -/
theorem locateForkPoint_outcome {prevTip : ChainBlock} (h : ¬ H.Probes prevTip.height) :
    Outcome H.Tells (locateForkPoint view prevTip)
      (.error (.walletDivergedBelowBirthday (H.birthday.getD 0))) := by
  refine .bind (.query getWalletBirthday_told rfl) ?_
  refine .bind buildBlockLocator_outcome ?_
  have hnone : H.Forks (H.locator prevTip.height) none :=
    forks_locator_none.mpr fun hshares => h (.inr (.inl hshares))
  have htold : H.Tells (⟨.findForkPoint view (H.locator prevTip.height), .ok none⟩ :
    SyncEvent V) := ⟨none, rfl, hnone⟩
  refine .bind (.query htold rfl) ?_
  have hnil : (H.locator prevTip.height).hashes ≠ [] := fun hempty =>
    h (.inl (locator_nil.mp hempty))
  show Outcome _ (ite _ _ _) _
  rw [if_neg hnil]
  exact stepBack_outcome fun k hk => h (.inr (.inr ⟨k, hk⟩))

theorem locateForkPoint_halts {prevTip : ChainBlock} :
    (∃ n, Outcome H.Tells (locateForkPoint view prevTip)
      (.error (.walletDivergedBelowBirthday n))) ↔ ¬ H.Probes prevTip.height := by
  constructor
  · rintro ⟨n, houtcome⟩
    exact houtcome.ends locateForkPoint_telling fun h => h n rfl
  · intro h
    exact ⟨_, locateForkPoint_outcome h⟩

/-- The recovery from a conflict also gives up when the wallet has no block right below it. -/
theorem recoverConflict_halts (view : V) {height : Nat} :
    (∃ n, Outcome H.Tells (recoverConflict height : Sync V _)
      (.error (.walletDivergedBelowBirthday n))) ↔
      H.wallet (height - 1) = none ∨ ¬ H.Probes (height - 1) := by
  constructor
  · rintro ⟨n, houtcome⟩
    suffices hwp : wp (H.telling V) (recoverConflict height) (fun _ _ => True)
        (fun _ e => ¬ Undiverged e → H.wallet (height - 1) = none ∨ ¬ H.Probes (height - 1)) [] from
      houtcome.ends hwp fun h => h n rfl
    rw [recoverConflict, wp_bind, wp_query]
    refine ⟨trivial, fun a tr₁ hstep => ?_⟩
    obtain rfl : a = .ok (H.wallet (height - 1)) := (World.recall_step hstep).1
    cases hw : H.wallet (height - 1) with
    | none => exact fun _ => .inl rfl
    | some hash =>
        simp only [Except.mapError, Except.bind, Option.elim_some, ends_ok, wp_bind, wp_chainCall]
        refine ⟨trivial, fun a tr₂ _ => ?_⟩
        cases a with
        | error e =>
            intro hne
            refine absurd (fun birthday h => ?_) hne
            cases h
        | ok view =>
            refine wp_mono (fun tr₃ fork _ => ?_) (fun _ e h hne => .inr (h hne))
              locateForkPoint_telling
            rw [wp_dbCall]
            refine ⟨trivial, fun a tr₄ _ => ?_⟩
            cases a with
            | error e =>
                intro hne
                refine absurd (fun birthday h => ?_) hne
                cases h
            | ok _ => trivial
  · intro h
    have htold : H.Tells (⟨.getBlockHash (height - 1), .ok (H.wallet (height - 1))⟩ :
      SyncEvent V) := rfl
    cases hw : H.wallet (height - 1) with
    | none =>
        rw [hw] at htold
        exact ⟨height - 1, .bind_error (.query htold rfl)⟩
    | some hash =>
        rw [hw] at htold h
        have hsnapshot : H.Tells (⟨.snapshot, .ok view⟩ : SyncEvent V) := trivial
        refine ⟨H.birthday.getD 0, .bind (.query htold rfl) (.bind (.query hsnapshot rfl) ?_)⟩
        refine .bind_error (locateForkPoint_outcome ?_)
        exact h.resolve_left fun hnone => by cases hnone

end

/-! ## Halting runs -/

section
variable {shutdownHeight : Option Nat} {view : V}

theorem chainCall_undiverged {α : Type} {op : Op V}
    {f : (syncSig V).Ans op → Except ChainError α} : Raises Undiverged (chainCall op f) := by
  refine .query fun a e h n hn => ?_
  cases hf : f a with
  | ok b =>
      rw [hf] at h
      cases h
  | error ce =>
      rw [hf, hn] at h
      cases h

theorem dbCall_undiverged {α : Type} {op : Op V}
    {f : (syncSig V).Ans op → Except SqliteClientError α} : Raises Undiverged (dbCall op f) := by
  refine .query fun a e h n hn => ?_
  cases hf : f a with
  | ok b =>
      rw [hf] at h
      cases h
  | error ce =>
      rw [hf, hn] at h
      cases h

theorem transparentAddressIndex_undiverged :
    Raises Undiverged (transparentAddressIndex : Sync V _) :=
  .bind dbCall_undiverged fun _ => .foldlM fun _ _ => .bind dbCall_undiverged fun _ => .pure

theorem scanBlock_undiverged {block : Block} :
    Raises Undiverged (scanBlock view block shutdownHeight) := by
  unfold scanBlock
  dsimp only
  split
  · exact .pure
  · have hdecryptor : ∀ {op : Op V} {f : (syncSig V).Ans op → Option Unit},
        Raises Undiverged
          (query op (fun r => (f r).elim (.error .batchDecryptorUnavailable) .ok) : Sync V _) := by
      intro op f
      refine .query fun a e h n hn => ?_
      cases hf : f a with
      | none =>
          rw [hf, hn] at h
          cases h
      | some u =>
          rw [hf] at h
          cases h
    refine .bind chainCall_undiverged fun _ => .bind hdecryptor fun _ => ?_
    refine .bind dbCall_undiverged fun _ => .bind transparentAddressIndex_undiverged fun _ => ?_
    refine .bind hdecryptor fun _ => .bind (.query fun a e h n hn => ?_) fun _ => ?_
    · rcases a with msg | ⟨sapling, orchard, ironwood⟩
      · cases h
        cases hn
      · cases h
    · exact .bind dbCall_undiverged fun _ => .pure

theorem leaving_undiverged {α : Type} {p : Sync V α} {prevTip : ChainBlock}
    (hp : Raises Undiverged p) :
    Raises (fun e : ChainBlock × SyncError => Undiverged e.2) (leaving prevTip p) :=
  .mapErr hp

theorem applyBlocks_undiverged {start : Nat} {prevTip : ChainBlock} :
    Raises (fun e : ChainBlock × SyncError => Undiverged e.2)
      (applyBlocks view start prevTip shutdownHeight) := by
  refine .iterate fun x => leaving_undiverged (.bind chainCall_undiverged fun block => ?_)
  cases block with
  | none => exact .pure
  | some block =>
      refine .bind .check fun _ => .bind scanBlock_undiverged fun flow => ?_
      cases flow with
      | brk _ => exact .pure
      | cont _ => exact .bind dbCall_undiverged fun _ => .pure

theorem followMempool_undiverged {currentTip : ChainBlock} {tipChanged : Bool} :
    Raises Undiverged (followMempool view currentTip tipChanged shutdownHeight) := by
  have hstream : Raises Undiverged (streamMempool view) := by
    refine .iterate fun _ => .bind .ask fun tx => ?_
    cases tx with
    | none => exact .pure
    | some tx => exact .bind dbCall_undiverged fun _ => .pure
  unfold followMempool
  split
  · exact .pure
  · refine .bind (.bind chainCall_undiverged fun stream => ?_) fun _ => .pure
    cases stream with
    | some _ => exact hstream
    | none =>
        dsimp only
        split
        · exact .pure
        · exact .ask

/-- An iteration that gives up on the fork search ran one from its `prev_tip`. -/
theorem iteration_diverged {prevTip p : ChainBlock} {tr : SyncTrace V} {n : Nat}
    (h : Run (steadyStateIteration shutdownHeight prevTip) tr
      (.fail (p, .walletDivergedBelowBirthday n))) :
    ∃ s m view, tr = s ++ m ∧
      Run (locateForkPoint view prevTip) m (.fail (.walletDivergedBelowBirthday n)) := by
  rcases h.bind_fail with h | ⟨view, l₁, r₁, rfl, -, h⟩
  · exact absurd rfl (leaving_undiverged chainCall_undiverged tr _ h n)
  rcases h.bind_fail with h | ⟨currentTip, l₂, r₂, rfl, -, h⟩
  · exact absurd rfl (leaving_undiverged chainCall_undiverged r₁ _ h n)
  rcases h.bind_fail with h | ⟨⟨prevTip', flow⟩, l₃, r₃, rfl, -, h⟩
  · unfold catchUp at h
    split at h
    · rcases h.bind_fail with h | ⟨_, l₃, r₃, rfl, -, h⟩
      · cases h with
        | call h => cases h
      rcases h.bind_fail with h | ⟨_, l₄, r₄, rfl, -, h⟩
      · cases h with
        | call h => cases h
      rcases h.bind_fail with h | ⟨fork, l₅, r₅, rfl, -, h⟩
      · obtain ⟨e, he, h⟩ := h.mapErr_fail
        cases he
        exact ⟨l₁ ++ (l₂ ++ (l₃ ++ l₄)), r₄, view, by simp, h⟩
      · -- with a fork point found, no error is the search's
        suffices hrest : Raises (fun e : ChainBlock × SyncError => Undiverged e.2) _ from
          absurd rfl (hrest r₅ _ h n)
        refine .bind .check fun _ => ?_
        split
        · exact applyBlocks_undiverged
        · exact .bind .check fun _ => .bind (leaving_undiverged dbCall_undiverged) fun _ =>
            applyBlocks_undiverged
    · cases h
  · cases flow with
    | brk _ => cases h
    | cont _ =>
        rcases h.bind_fail with h | ⟨_, _, _, -, -, h⟩
        · exact absurd rfl (leaving_undiverged followMempool_undiverged r₃ _ h n)
        · cases h

/-- The search that a run of `steady_state` halted in. -/
inductive HaltingSearch (shutdownHeight : Option Nat) (start : ChainBlock) (n : Nat) :
    SyncTrace V → Prop
  | reorg {l s m : SyncTrace V} {prevTip : ChainBlock} {view : V} :
      Turns (steadyTurn shutdownHeight) start l prevTip →
      Run (locateForkPoint view prevTip) m (.fail (.walletDivergedBelowBirthday n)) →
      HaltingSearch shutdownHeight start n (⟨.notifyOne, ()⟩ :: (l ++ s ++ m))
  | conflict {l s m : SyncTrace V} {prevTip p : ChainBlock} {height : Nat} :
      Turns (steadyTurn shutdownHeight) start l prevTip →
      Run (steadyStateIteration shutdownHeight prevTip) s
        (.fail (p, .other (.blockConflict height))) →
      Run (recoverConflict height) m (.fail (.walletDivergedBelowBirthday n)) →
      HaltingSearch shutdownHeight start n (⟨.notifyOne, ()⟩ :: (l ++ s ++ m))

/-- `steady_state` gives up only in the search of a reorg, from its `prev_tip`, or in that of a
conflict. -/
theorem steadyState_diverged {start : ChainBlock} {tr : SyncTrace V} {n : Nat}
    (h : Run (steadyState shutdownHeight start) tr (.fail (.walletDivergedBelowBirthday n))) :
    HaltingSearch shutdownHeight start n tr := by
  rcases h.bind_fail with h | ⟨u, l', r', rfl, hnotify, hloop⟩
  · cases h with
    | call h => cases h
  · cases hnotify with
    | call hnotify =>
        cases hnotify
        obtain ⟨l, m, prevTip, rfl, hturns, hfail⟩ := hloop.iterate_fail
        rcases steadyTurn_fail hfail with ⟨-, p, hiter⟩ | ⟨s, r, p, height, rfl, hiter, hrecover⟩
        · obtain ⟨s, r, view, rfl, hsearch⟩ := iteration_diverged hiter
          have hhalt := HaltingSearch.reorg (s := s) hturns hsearch
          simpa using hhalt
        · have hhalt := HaltingSearch.conflict hturns hiter hrecover
          simpa using hhalt

end

/-! ## Genuine halts -/

/-- `steady_state` gives up only in one of two searches.  Each of them gives up only on a real
divergence if and only if, whenever the histories have a block in common in its range, the search
probes a height that holds one; for a conflict, from a height at which the wallet has a block. -/
theorem genuine_halt (view : V) :
    (∀ (shutdownHeight : Option Nat) (start : ChainBlock) (tr : SyncTrace V) (n : Nat),
      Run (steadyState shutdownHeight start) tr (.fail (.walletDivergedBelowBirthday n)) →
      HaltingSearch shutdownHeight start n tr) ∧
    (∀ (H : Histories) (prevTip : ChainBlock),
      ((∃ n, Outcome H.Tells (locateForkPoint view prevTip)
          (.error (.walletDivergedBelowBirthday n))) → H.Diverged prevTip.height) ↔
        (¬ H.Diverged prevTip.height → H.Probes prevTip.height)) ∧
    ∀ (H : Histories) (height : Nat),
      ((∃ n, Outcome H.Tells (recoverConflict height : Sync V _)
          (.error (.walletDivergedBelowBirthday n))) → H.Diverged (height - 1)) ↔
        (¬ H.Diverged (height - 1) →
          H.wallet (height - 1) ≠ none ∧ H.Probes (height - 1)) := by
  refine ⟨fun _ _ _ _ h => steadyState_diverged h, fun H prevTip => ?_, fun H height => ?_⟩
  · rw [locateForkPoint_halts]
    exact not_imp_comm
  · have hiff : H.wallet (height - 1) = none ∨ ¬ H.Probes (height - 1) ↔
        ¬ (H.wallet (height - 1) ≠ none ∧ H.Probes (height - 1)) := by
      rw [not_and_or, not_not]
    rw [recoverConflict_halts view, hiff]
    exact not_imp_comm

/-- A wallet with two blocks, of which only the lower is on the best chain. -/
def sparse : Histories where
  wallet height := if height = 100 then some ⟨1100⟩ else if height = 93 then some ⟨93⟩ else none
  birthday := some 50
  chain height := if height ≤ 110 then some ⟨height⟩ else none
  heightOf hash := if hash.bytes = 1100 then 100 else hash.bytes
  wallet_height := by
    intro height hash h
    split at h
    · cases h
      symm
      assumption
    · split at h
      · cases h
        symm
        assumption
      · cases h
  chain_height := by
    intro height hash h
    split at h
    · cases h
      show (if height = 1100 then 100 else height) = height
      split
      · omega
      · rfl
    · cases h

theorem sparse_shares : sparse.Shares 93 := ⟨⟨93⟩, rfl, rfl⟩

/-- The block in common lies between two probes. -/
theorem sparse_not_probed : ¬ sparse.Probes 100 := by
  have hmiss : ∀ height, height ≠ 93 → ¬ sparse.Shares height := by
    rintro height hne ⟨hash, hwallet, hchain⟩
    simp only [sparse, if_neg hne] at hwallet hchain
    split at hwallet
    · cases hwallet
      split at hchain
      · have := BlockHash.mk.inj (Option.some.inj hchain)
        omega
      · cases hchain
    · cases hwallet
  have hwalk : ∀ k, Histories.walkHeight 50 100 k % 10 = 0 := by
    intro k
    induction k with
    | zero => rfl
    | succ k ih =>
        show max (Histories.walkHeight 50 100 k - 10) 50 % 10 = 0
        omega
  rintro (hempty | ⟨height, hmem, hshares⟩ | ⟨k, hk⟩)
  · exact absurd (hempty 100 (by decide)) (by decide)
  · have hnot : 93 ∉ locatorBlockHeights 100 := by decide
    exact hmiss height (fun h => hnot (h ▸ hmem)) hshares
  · have hk : sparse.Shares (Histories.walkHeight 50 100 (k + 1)) := hk
    refine hmiss _ (fun h => ?_) hk
    have hten := hwalk (k + 1)
    rw [h] at hten
    cases hten

/-- A search of a sparse history gives up although the histories share a block in its range. -/
theorem sparse_halt :
    ¬ ∀ (H : Histories) (prevTip : ChainBlock),
      (∃ n, Outcome H.Tells (locateForkPoint () prevTip)
        (.error (.walletDivergedBelowBirthday n))) → H.Diverged prevTip.height := by
  intro h
  have hhalts : ∃ n, Outcome sparse.Tells (locateForkPoint () ⟨100, ⟨1100⟩⟩)
      (.error (.walletDivergedBelowBirthday n)) := locateForkPoint_halts.mpr sparse_not_probed
  exact h sparse ⟨100, ⟨1100⟩⟩ hhalts 93 (by decide) (by decide) sparse_shares

end Zallet
