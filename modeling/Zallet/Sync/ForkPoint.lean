/-
# `Zallet.Sync.ForkPoint` — what a fork search does

`locateForkPoint` reads the wallet and the view and nothing else, so all of it
can be said by its trace: which reads it makes (`SearchReads`), where the block
it returns comes from (`ForkFound`), and where an error of the chain comes from.
`locateForkPoint_history` is that description; the callers' proofs use it and
never look inside the search again.
-/
import Zallet.Sync.Engine

namespace Zallet

variable {V : Type}

open Prog

/-- The operations of a fork search on a view. -/
def SearchReads (view : V) : Op V → Prop
  | .getWalletBirthday => True
  | .getBlockHash _ => True
  | .findForkPoint v _ => v = view
  | .getBlockHeader v _ => v = view
  | _ => False

/-- The wallet answered that its block at `height` is `hash`. -/
def WalletHas (tr : SyncTrace V) (height : Nat) (hash : BlockHash) : Prop :=
  (⟨.getBlockHash height, .ok (some hash)⟩ : SyncEvent V) ∈ tr

/-- The wallet answered that it has no block at `height`. -/
def WalletLacks (tr : SyncTrace V) (height : Nat) : Prop :=
  (⟨.getBlockHash height, .ok none⟩ : SyncEvent V) ∈ tr

/-- Where the block a fork search returns comes from: the view named it, the wallet has no
history to compare, or the walk found one of the wallet's blocks on the view's chain. -/
inductive ForkFound (view : V) (prevTip : ChainBlock) (tr : SyncTrace V) (fork : ChainBlock) :
    Prop
  | named (locator : BlockLocator) :
      (∀ hash ∈ locator.hashes, ∃ height ≤ prevTip.height, WalletHas tr height hash) →
      (⟨.findForkPoint view locator, .ok (some fork)⟩ : SyncEvent V) ∈ tr →
      ForkFound view prevTip tr fork
  | fresh :
      (⟨.findForkPoint view ⟨[]⟩, .ok none⟩ : SyncEvent V) ∈ tr →
      (∀ height ∈ locatorBlockHeights prevTip.height, WalletLacks tr height) →
      fork = prevTip → ForkFound view prevTip tr fork
  | walked (birthday : Option Nat) (header : BlockHeader) :
      (⟨.getWalletBirthday, .ok birthday⟩ : SyncEvent V) ∈ tr →
      fork.height < prevTip.height ∨ fork.height = birthday.getD 0 →
      WalletHas tr fork.height fork.hash → header.hash = fork.hash →
      (⟨.getBlockHeader view fork.height, .ok (some header)⟩ : SyncEvent V) ∈ tr →
      ForkFound view prevTip tr fork

/-- An error of the chain is one that a read of the search answered. -/
def SearchFailed (tr : SyncTrace V) (e : SyncError) : Prop :=
  ∀ ce, e = .chain ce → ∃ ev ∈ tr, chainErrorOf ev = some ce

/-! ## The locator -/

/-- What has a place in a descending list of heights may be asked for in a locator. -/
theorem fromBlocks_eq {blocks : List ChainBlock}
    (h : (blocks.map (·.height)).Pairwise (· > ·)) :
    (BlockLocator.fromBlocks blocks : Sync V _) = .ret ⟨blocks.map (·.hash)⟩ := by
  suffices H : ∀ (blocks : List ChainBlock) (prev : Option Nat) (hashes : List BlockHash),
      (blocks.map (·.height)).Pairwise (· > ·) →
      (∀ p ∈ prev, ∀ b ∈ blocks, b.height < p) →
      ∃ prev', (blocks.foldlM BlockLocator.addBlock (prev, hashes) : Sync V _) =
          .ret (prev', hashes ++ blocks.map (·.hash)) by
    obtain ⟨prev', hprev⟩ := H blocks none [] h (by simp)
    rw [BlockLocator.fromBlocks, hprev]
    rfl
  intro blocks
  induction blocks with
  | nil => intro prev hashes _ _; exact ⟨prev, by simp [pure]⟩
  | cons b blocks ih =>
      intro prev hashes hdec hprev
      obtain ⟨hb, hdec⟩ := List.pairwise_cons.mp hdec
      obtain ⟨prev', hprev'⟩ := ih (some b.height) (hashes ++ [b.hash]) hdec (by
        intro p hp c hc
        obtain rfl := Option.mem_some.mp hp
        exact hb _ (List.mem_map_of_mem hc))
      have hc : prev.all (fun p => b.height < p) = true := by
        cases prev with
        | none => rfl
        | some p => simpa using hprev p rfl b List.mem_cons_self
      refine ⟨prev', ?_⟩
      rw [List.foldlM_cons]
      simp only [BlockLocator.addBlock, hc, check, if_true]
      refine Eq.trans hprev' ?_
      rw [List.map_cons, List.append_assoc, List.singleton_append]

/-- The blocks sampled for a locator, in the order of their heights. -/
structure Sampled (heights : List Nat) (tr : SyncTrace V) (blocks : List ChainBlock) : Prop where
  sub : (blocks.map (·.height)).Sublist heights
  has : ∀ b ∈ blocks, WalletHas tr b.height b.hash
  all : ∀ height ∈ heights, height ∈ blocks.map (·.height) ∨ WalletLacks tr height

theorem WalletHas.mono {tr tr' : SyncTrace V} {height : Nat} {hash : BlockHash}
    (h : WalletHas tr height hash) (hpre : tr <+: tr') : WalletHas tr' height hash :=
  hpre.subset h

theorem sampleBlocks_history {G : Op V → Prop} (hG : ∀ height, G (.getBlockHash height))
    {tip : Nat} {tr : SyncTrace V} :
    wp (World.history G) (sampleBlocks tip)
      (fun tr' blocks => tr <+: tr' ∧ Sampled (locatorBlockHeights tip) tr' blocks)
      (fun _ e => ∀ ce, e ≠ .chain ce) tr := by
  refine wp_foldlM (fun heights blocks tr' => tr <+: tr' ∧ Sampled heights tr' blocks)
    ⟨List.prefix_refl _, by simp, by simp, by simp⟩ ?_
  intro l height r blocks tr₁ _ ⟨hpre, hsampled⟩
  simp only [sampleBlock, wp_bind, wp_dbCall]
  refine ⟨hG height, fun a tr₂ hstep => ?_⟩
  obtain ⟨hpre₂, hev⟩ := World.history_step hstep
  have hold : ∀ b ∈ blocks, WalletHas tr₂ b.height b.hash := fun b hb =>
    (hsampled.has b hb).mono hpre₂
  have hall : ∀ k ∈ l, k ∈ blocks.map (·.height) ∨ WalletLacks tr₂ k := fun k hk =>
    (hsampled.all k hk).imp_right fun h => hpre₂.subset h
  rcases a with e | _ | hash
  · intro ce h
    cases h
  · refine ⟨hpre.trans hpre₂, hsampled.sub.trans (List.sublist_append_left _ _), hold, ?_⟩
    intro k hk
    rcases List.mem_append.mp hk with hk | hk
    · exact hall k hk
    · rw [List.mem_singleton.mp hk]
      exact .inr hev
  · refine ⟨hpre.trans hpre₂, ?_, ?_, ?_⟩
    · rw [List.map_append]
      exact hsampled.sub.append (List.Sublist.refl _)
    · intro b hb
      rcases List.mem_append.mp hb with hb | hb
      · exact hold b hb
      · rw [List.mem_singleton.mp hb]
        exact hev
    · intro k hk
      rw [List.map_append]
      rcases List.mem_append.mp hk with hk | hk
      · exact (hall k hk).imp_left (List.mem_append_left _)
      · exact .inl (List.mem_append_right _ hk)

theorem buildBlockLocator_history {G : Op V → Prop} (hG : ∀ height, G (.getBlockHash height))
    {tip : Nat} {tr : SyncTrace V} :
    wp (World.history G) (buildBlockLocator tip)
      (fun tr' locator => tr <+: tr' ∧
        (∀ hash ∈ locator.hashes, ∃ height ≤ tip, WalletHas tr' height hash) ∧
        (locator.hashes = [] → ∀ height ∈ locatorBlockHeights tip, WalletLacks tr' height))
      (fun _ e => ∀ ce, e ≠ .chain ce) tr := by
  rw [buildBlockLocator, wp_bind]
  refine wp_mono ?_ (fun _ _ h => h) (sampleBlocks_history hG)
  rintro tr' blocks ⟨hpre, hsampled⟩
  rw [fromBlocks_eq ((locatorBlockHeights_decreasing tip).sublist hsampled.sub)]
  refine ⟨hpre, fun hash hhash => ?_, fun hnil height hheight => ?_⟩
  · obtain ⟨b, hb, rfl⟩ := List.mem_map.mp hhash
    have hmem := hsampled.sub.subset (List.mem_map_of_mem hb)
    exact ⟨b.height, locatorBlockHeights_le hmem, hsampled.has b hb⟩
  · obtain rfl : blocks = [] := List.map_eq_nil_iff.mp hnil
    exact (hsampled.all height hheight).resolve_left List.not_mem_nil

/-! ## The walk -/

section
variable {view : V}

theorem rewindStep_le {height birthday : Nat} (h : (rewindStep height birthday).2 = false) :
    (rewindStep height birthday).1 ≤ height := by
  simp only [rewindStep, decide_eq_false_iff_not] at h ⊢
  omega

theorem rewindStep_lt_or {height birthday : Nat} :
    (rewindStep height birthday).1 < height ∨ (rewindStep height birthday).1 = birthday := by
  simp only [rewindStep, forkSearchStep]
  omega

theorem probeMissed_history {prevTip : ChainBlock} {birthday height : Nat} {tr : SyncTrace V}
    (hle : height ≤ prevTip.height) {I : SyncTrace V → Prop} (hI : I tr) :
    wp (World.history (SearchReads view)) (probeMissed birthday (rewindStep height birthday))
      (fun t => Sum.elim (fun z => I t ∧ z ≤ prevTip.height) (ForkFound view prevTip t))
      SearchFailed tr := by
  unfold probeMissed
  split
  · intro ce h
    cases h
  · rename_i hn
    exact ⟨hI, le_trans (rewindStep_le (by simpa using hn)) hle⟩

theorem stepBack_history {prevTip : ChainBlock} {birthday : Option Nat} {tr : SyncTrace V}
    (hb : (⟨.getWalletBirthday, .ok birthday⟩ : SyncEvent V) ∈ tr) :
    wp (World.history (SearchReads view))
      (stepBackToBestChain view prevTip (birthday.getD 0) fun height =>
        dbCall (.getBlockHash height) id)
      (ForkFound view prevTip) SearchFailed tr := by
  refine wp_iterate (fun height tr' => tr <+: tr' ∧ height ≤ prevTip.height)
    ⟨List.prefix_refl _, le_refl _⟩ ?_
  rintro height tr₁ ⟨hpre, hle⟩
  simp only [wp_bind, wp_dbCall]
  refine ⟨trivial, fun a tr₂ hstep => ?_⟩
  obtain ⟨hpre₂, hwallet⟩ := World.history_step hstep
  rcases a with e | _ | wh
  · intro ce h
    cases h
  · exact probeMissed_history hle (hpre.trans hpre₂)
  · simp only [id, ends_ok, wp_bind, wp_chainCall]
    refine ⟨rfl, fun a tr₃ hstep => ?_⟩
    obtain ⟨hpre₃, hheader⟩ := World.history_step hstep
    rcases a with e | header
    · intro ce h
      cases h
      exact ⟨_, hheader, rfl⟩
    · simp only [ends_ok]
      split
      · rename_i hhash
        cases header with
        | none => exact absurd hhash (by simp)
        | some header =>
            obtain rfl : header.hash = wh := by simpa using hhash
            refine ForkFound.walked birthday header ((hpre.trans (hpre₂.trans hpre₃)).subset hb) ?_
              (hpre₃.subset hwallet) rfl hheader
            have := @rewindStep_lt_or height (birthday.getD 0)
            show (rewindStep height _).1 < _ ∨ (rewindStep height _).1 = _
            omega
      · exact probeMissed_history hle (hpre.trans (hpre₂.trans hpre₃))

/-- What a fork search does, whatever it is answered. -/
theorem locateForkPoint_history {prevTip : ChainBlock} :
    wp (World.history (SearchReads view)) (locateForkPoint view prevTip)
      (ForkFound view prevTip) SearchFailed [] := by
  simp only [locateForkPoint, wp_bind, wp_dbCall]
  refine ⟨trivial, fun a tr hstep => ?_⟩
  obtain ⟨-, hbirthday⟩ := World.history_step hstep
  rcases a with e | birthday
  · intro ce h
    cases h
  simp only [id, ends_ok]
  refine wp_mono ?_ (fun tr e h => ?_) (buildBlockLocator_history fun _ => trivial)
  · rintro tr' locator ⟨hpre, hloc, hlacks⟩
    simp only [wp_chainCall]
    refine ⟨rfl, fun a tr'' hstep => ?_⟩
    obtain ⟨hpre', hnamed⟩ := World.history_step hstep
    rcases a with e | _ | fork
    · intro ce h
      cases h
      exact ⟨_, hnamed, rfl⟩
    · simp only [id, ends_ok]
      split
      · rename_i hnil
        obtain rfl : locator = ⟨[]⟩ := by cases locator; exact congrArg _ hnil
        refine .fresh hnamed (fun height hheight => ?_) rfl
        exact hpre'.subset (hlacks rfl height hheight)
      · exact stepBack_history ((hpre.trans hpre').subset hbirthday)
    · refine .named locator (fun hash hhash => ?_) hnamed
      obtain ⟨height, hle, hhas⟩ := hloc hash hhash
      exact ⟨height, hle, hhas.mono hpre'⟩
  · intro ce hce
    exact absurd hce (h ce)

/-- A fork search is safe wherever its reads are, and it never fails an assertion. -/
theorem locateForkPoint_safe {S : Type} {W : World (syncSig V) S}
    (h : ∀ s op, SearchReads view op → W.guard s op) {prevTip : ChainBlock} :
    Safe W (locateForkPoint view prevTip) := fun s =>
  locateForkPoint_history.of_history (s := s) (fun _ t op _ _ hop => h t op hop)
    (fun _ _ _ _ _ _ => trivial) (fun _ _ _ _ _ _ => trivial)

end

end Zallet
