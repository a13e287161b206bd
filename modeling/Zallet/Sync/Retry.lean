/-
# `Zallet.Sync.Retry` — stale views and who retries them

A view whose blocks were reorged away answers `Unavailable`, and the engine is
to re-pin and go on.  Two loops do so, and each has calls that are outside of
it: in `initialize`, the subtree roots and the pinning of the view itself
(`Bare`); in `steady_state`, everything the recovery from a block conflict asks
of the chain.  `stale_view_not_fatal` says that these are all, and that after a
stale answer to any other call the next thing asked for is a new view.
-/
import Zallet.Sync.Runs
import Zallet.Prog.Exec
import Zallet.Prog.Fatal

namespace Zallet

variable {V : Type}

open Prog

/-- A call to the chain was answered with `Unavailable`. -/
def Stale (e : SyncEvent V) : Prop := ∃ source, chainErrorOf e = some (.unavailable source)

/-- The calls of `initialize` whose errors leave it: the subtree roots, pinning a view, and
reading the tip of the view just pinned. -/
inductive Bare : SyncTrace V → Op V → Prop
  | saplingRoots {l : SyncTrace V} : Bare l .getSaplingSubtreeRoots
  | orchardRoots {l : SyncTrace V} : Bare l .getOrchardSubtreeRoots
  | snapshot {l : SyncTrace V} : Bare l .snapshot
  | tip {l : SyncTrace V} {view : V} : Bare (l ++ [⟨.snapshot, .ok view⟩]) (.tip view)

/-- A stale answer just came to a bare call. -/
def BareStale (tr : SyncTrace V) : Prop := ∃ l e, tr = l ++ [e] ∧ Bare l e.op ∧ Stale e

theorem retryable_chain {ce : ChainError} (h : isRetryable (.chain ce) = true) :
    ∃ source, ce = .unavailable source := by
  cases ce with
  | unavailable source => exact ⟨source, rfl⟩
  | _ => cases h

/-! ## `initialize` -/

/-- The world in which `initialize` is watched. -/
abbrev watching (V : Type) : World (syncSig V) (SyncTrace V) :=
  .recall (fun _ => True) (fun _ _ => True) fun _ => True

theorem watching_bounded {shutdownHeight : Option Nat} :
    Bounded (watching V) shutdownHeight (fun _ => True) where
  quiet _ _ _ := trivial
  truncate _ _ := trivial
  put _ := trivial
  below _ := trivial
  range _ _ := trivial
  mempool _ _ := streamMempool_safe (fun _ => trivial) fun _ _ => trivial

/-- Retryable errors only come from bare calls. -/
def OnlyBare (tr : SyncTrace V) (e : SyncError) : Prop := isRetryable e = true → BareStale tr

/-- A bare call of which every error is an error of the whole program. -/
theorem bare_chainCall {α : Type} {op : Op V} {f : (syncSig V).Ans op → Except ChainError α}
    {Q : SyncTrace V → α → Prop} {tr : SyncTrace V} (hbare : Bare tr op)
    (herror : ∀ a ce, f a = .error ce → chainErrorOf ⟨op, a⟩ = some ce)
    (hok : ∀ a b, f a = .ok b → Q (tr ++ [⟨op, a⟩]) b) :
    wp (watching V) (chainCall op f) Q OnlyBare tr := by
  rw [wp_chainCall]
  refine ⟨trivial, fun a tr' hstep => ?_⟩
  obtain rfl := hstep.2
  cases hf : f a with
  | ok b => exact hok a b hf
  | error ce =>
      intro hretry
      obtain ⟨source, rfl⟩ := retryable_chain hretry
      exact ⟨tr, ⟨op, a⟩, rfl, hbare, source, herror a _ hf⟩

theorem dbCall_onlyBare {α : Type} {op : Op V} {f : (syncSig V).Ans op → Except SqliteClientError α}
    {Q : SyncTrace V → α → Prop} {tr : SyncTrace V} (hok : ∀ tr' b, Q tr' b) :
    wp (watching V) (dbCall op f) Q OnlyBare tr := by
  rw [wp_dbCall]
  refine ⟨trivial, fun a tr' _ => ?_⟩
  cases f a with
  | ok b => exact hok tr' b
  | error e => exact fun hretry => by cases hretry

theorem updateSubtreeRoots_onlyBare {tr : SyncTrace V} :
    wp (watching V) (updateSubtreeRoots : Sync V _) (fun _ _ => True) OnlyBare tr := by
  have hput : ∀ {op : Op V} {f : (syncSig V).Ans op → Except String Unit}
      {Q : SyncTrace V → Unit → Prop} {tr : SyncTrace V}, (∀ tr', Q tr' ()) →
      wp (watching V) (query op fun a => (f a).mapError .tree) Q OnlyBare tr := by
    intro op f Q tr hQ
    rw [wp_query]
    refine ⟨trivial, fun a tr' _ => ?_⟩
    cases f a with
    | ok b => exact hQ tr'
    | error e => exact fun hretry => by cases hretry
  simp only [updateSubtreeRoots, wp_bind]
  refine bare_chainCall .saplingRoots (fun a ce h => ?_) fun a roots _ => ?_
  · cases h
    rfl
  refine hput fun tr' => ?_
  refine bare_chainCall .orchardRoots (fun a ce h => ?_) fun a roots _ => ?_
  · cases h
    rfl
  exact hput fun tr' => trivial

theorem bestEffortTipScan_onlyBare {view : V} {currentTip : ChainBlock}
    {shutdownHeight : Option Nat} {tr : SyncTrace V} :
    wp (watching V) (bestEffortTipScan view currentTip shutdownHeight) (fun _ _ => True)
      OnlyBare tr := by
  unfold bestEffortTipScan
  split
  · rw [wp_bind]
    refine dbCall_onlyBare fun tr' metadata => ?_
    cases metadata with
    | some _ => trivial
    | none =>
        simp only [wp_bind, wp_attempt]
        exact (Safe.bind (safe_chainCall fun _ => trivial)
          fun _ => scanBlock_safe watching_bounded) tr'
  · trivial

/-- Retryable errors leave `initialize` only through its bare calls. -/
theorem initializeSync_onlyBare {shutdownHeight : Option Nat} :
    wp (watching V) (initializeSync shutdownHeight) (fun _ _ => True) OnlyBare [] := by
  simp only [initializeSync, initializeTurn, wp_bind]
  refine wp_mono (fun tr _ _ => ?_) (fun _ _ h => h) updateSubtreeRoots_onlyBare
  refine wp_iterate (fun _ _ => True) trivial fun _ tr _ => ?_
  simp only [wp_bind]
  refine bare_chainCall .snapshot (fun a ce h => ?_) fun a view ha => ?_
  · cases h
    rfl
  obtain rfl : a = .ok view := ha
  refine bare_chainCall .tip (fun a ce h => ?_) fun a currentTip _ => ?_
  · cases h
    rfl
  refine dbCall_onlyBare fun tr' _ => dbCall_onlyBare fun tr'' ranges => ?_
  split
  · rw [wp_bind]
    exact wp_mono (fun _ _ _ => trivial) (fun _ _ h => h) bestEffortTipScan_onlyBare
  · rename_i scanRange _
    simp only [wp_bind, wp_attempt]
    refine wp_mono (fun t flow _ => ?_) (fun t error _ => ?_)
      (scanBlocks_safe watching_bounded tr'')
    · cases flow <;> trivial
    · split
      · exact ⟨trivial, fun _ _ _ => trivial⟩
      · rename_i hretry
        exact fun h => absurd h hretry

/-! ## Conflict recovery -/

/-- Retryable errors leave the recovery from a conflict with any stale answer it gets. -/
theorem recoverConflict_stale {height : Nat} :
    wp (World.history fun _ : Op V => True) (recoverConflict height) (fun _ _ => True)
      (fun tr e => isRetryable e = true → ∃ ev ∈ tr, Stale ev) [] := by
  simp only [recoverConflict, wp_bind, wp_query]
  refine ⟨trivial, fun a t _ => ?_⟩
  rcases a with e | _ | hash
  · exact fun h => by cases h
  · exact fun h => by cases h
  simp only [Except.mapError, Except.bind, Option.elim_some, ends_ok, wp_chainCall]
  refine ⟨trivial, fun a t₁ hstep => ?_⟩
  obtain ⟨-, hev⟩ := World.history_step hstep
  cases a with
  | error ce =>
      intro h
      obtain ⟨source, rfl⟩ := retryable_chain h
      exact ⟨_, hev, source, rfl⟩
  | ok view =>
      refine locateForkPoint_history.of_history (fun _ _ _ _ _ _ => trivial) ?_ ?_
      · intro tr t₂ fork _ _ _
        simp only [wp_dbCall]
        refine ⟨trivial, fun a _ _ => ?_⟩
        cases a with
        | error e => exact fun h => by cases h
        | ok _ => trivial
      · intro tr t₂ e hpath _ hfailed h
        obtain ⟨rfl, -⟩ := hpath.recall_inv
        cases e with
        | chain ce =>
            obtain ⟨source, rfl⟩ := retryable_chain h
            obtain ⟨ev, hmem, hsearch⟩ := hfailed _ rfl
            exact ⟨ev, List.mem_append_right _ hmem, source, hsearch⟩
        | _ => cases h

/-! ## Stale answers are passed on -/

section
variable {view : V} {shutdownHeight : Option Nat}

/-- A stale answer ends the program, with a retryable error. -/
abbrev PassesOn {α : Type} (p : Sync V α) : Prop := Breaks Stale (fun e => isRetryable e = true) p

/-- The same of code that moves `prev_tip`. -/
abbrev SteadyPassesOn {α : Type} (p : Steady V α) : Prop :=
  Breaks Stale (fun e => isRetryable e.2 = true) p

theorem passesOn_chainCall {α : Type} {op : Op V} {f : (syncSig V).Ans op → Except ChainError α}
    (h : ∀ a ce, chainErrorOf ⟨op, a⟩ = some ce → f a = .error ce) : PassesOn (chainCall op f) := by
  refine .query ?_
  rintro a ⟨source, hstale⟩
  refine ⟨.chain (.unavailable source), ?_, rfl⟩
  rw [h a _ hstale]
  rfl

/-- A call that is not to the chain. -/
theorem passesOn_query {α ε : Type} {R : ε → Prop} {op : Op V} {f : (syncSig V).Ans op → Except ε α}
    (h : ∀ a, chainErrorOf ⟨op, a⟩ = none) : Breaks Stale R (query (E := syncSig V) op f) := by
  refine .query ?_
  rintro a ⟨source, hstale⟩
  rw [h a] at hstale
  cases hstale

theorem passesOn_ask {ε : Type} {R : ε → Prop} {op : Op V}
    (h : ∀ a, chainErrorOf ⟨op, a⟩ = none) :
    Breaks Stale R (perform op : Prog (syncSig V) ε _) := by
  refine .ask ?_
  rintro a ⟨source, hstale⟩
  rw [h a] at hstale
  cases hstale

theorem transparentAddressIndex_passesOn : PassesOn (transparentAddressIndex : Sync V _) :=
  .bind (passesOn_query fun _ => rfl) fun _ =>
    .foldlM fun _ _ => .bind (passesOn_query fun _ => rfl) fun _ => .pure

theorem queueBlocks_passesOn {start stop : Nat} : PassesOn (queueBlocks view start stop) := by
  refine .iterate fun x => .bind (passesOn_chainCall fun a ce h => ?_) fun block => ?_
  · cases a <;> cases h
    rfl
  · cases block with
    | none => exact .pure
    | some block => exact .bind (passesOn_query fun _ => rfl) fun _ => .pure

theorem scanBatch_passesOn {fromState : ChainState} {batch : List Block} :
    PassesOn (scanBatch fromState batch : Sync V _) := by
  refine .bind (.foldlM fun x block => ?_) fun _ => .pure
  refine .bind (passesOn_query fun _ => rfl) fun _ => ?_
  exact .bind (passesOn_query fun _ => rfl) fun _ => .pure

theorem scanBlocks_passesOn {scanRange : ScanRange} :
    PassesOn (scanBlocks view scanRange shutdownHeight) := by
  unfold scanBlocks
  split
  · exact .pure
  · refine .bind (passesOn_chainCall fun a ce h => ?_) fun fromState => ?_
    · cases a <;> cases h
      rfl
    cases fromState with
    | none =>
        refine .bind (passesOn_chainCall fun a ce h => ?_) fun _ => .pure
        cases a <;> cases h
        rfl
    | some fromState =>
        refine .bind queueBlocks_passesOn fun _ => .bind (passesOn_query fun _ => rfl) fun _ => ?_
        refine .bind transparentAddressIndex_passesOn fun _ => .bind scanBatch_passesOn fun _ => ?_
        exact .bind (passesOn_query fun _ => rfl) fun _ => .pure

theorem scanBlock_passesOn {block : Block} : PassesOn (scanBlock view block shutdownHeight) := by
  unfold scanBlock
  dsimp only
  split
  · exact .pure
  · refine .bind (passesOn_chainCall fun a ce h => ?_) fun _ => ?_
    · cases a <;> cases h
      rfl
    refine .bind (passesOn_query fun _ => rfl) fun _ => ?_
    refine .bind (passesOn_query fun _ => rfl) fun _ => ?_
    refine .bind transparentAddressIndex_passesOn fun _ => ?_
    refine .bind (passesOn_query fun _ => rfl) fun _ => ?_
    refine .bind (passesOn_query fun _ => rfl) fun _ => ?_
    exact .bind (passesOn_query fun _ => rfl) fun _ => .pure

theorem scanTipBlock_passesOn {currentTip : ChainBlock} :
    PassesOn (scanTipBlock view currentTip shutdownHeight) := by
  refine .bind (passesOn_chainCall fun a ce h => ?_) fun _ => scanBlock_passesOn
  cases a <;> cases h
  rfl

theorem buildBlockLocator_passesOn {tip : Nat} : PassesOn (buildBlockLocator tip : Sync V _) := by
  refine .bind (.foldlM fun blocks height => .bind (passesOn_query fun _ => rfl) fun hash => ?_)
    fun _ => .bind (.foldlM fun _ _ => .bind .check fun _ => .pure) fun _ => .pure
  cases hash with
  | none => exact .pure
  | some hash => exact .pure

theorem stepBack_passesOn {prevTip : ChainBlock} {birthday : Nat} :
    PassesOn (stepBackToBestChain view prevTip birthday fun height =>
      dbCall (.getBlockHash height) id) := by
  have hmissed : ∀ next, PassesOn (probeMissed birthday next : Sync V _) := by
    intro next
    unfold probeMissed
    split
    · exact .fail
    · exact .pure
  refine .iterate fun height => .bind (passesOn_query fun _ => rfl) fun hash => ?_
  cases hash with
  | none => exact hmissed _
  | some wh =>
      refine .bind (passesOn_chainCall fun a ce h => ?_) fun header => ?_
      · cases a <;> cases h
        rfl
      · split
        · exact .pure
        · exact hmissed _

theorem locateForkPoint_passesOn {prevTip : ChainBlock} :
    PassesOn (locateForkPoint view prevTip) := by
  refine .bind (passesOn_query fun _ => rfl) fun birthday => ?_
  refine .bind buildBlockLocator_passesOn fun locator => ?_
  refine .bind (passesOn_chainCall fun a ce h => ?_) fun fork => ?_
  · cases a <;> cases h
    rfl
  · cases fork with
    | some fork => exact .pure
    | none =>
        dsimp only
        split
        · exact .pure
        · exact stepBack_passesOn

theorem applyBlocks_passesOn {start : Nat} {prevTip : ChainBlock} :
    SteadyPassesOn (applyBlocks view start prevTip shutdownHeight) := by
  refine .iterate fun x => .mapErr (.bind (passesOn_chainCall fun a ce h => ?_) fun block => ?_)
  · cases a <;> cases h
    rfl
  · cases block with
    | none => exact .pure
    | some block =>
        refine .bind .check fun _ => .bind scanBlock_passesOn fun flow => ?_
        cases flow with
        | brk _ => exact .pure
        | cont _ => exact .bind (passesOn_query fun _ => rfl) fun _ => .pure

theorem catchUp_passesOn {currentTip prevTip : ChainBlock} :
    SteadyPassesOn (catchUp view currentTip prevTip shutdownHeight) := by
  unfold catchUp
  split
  · refine .bind (passesOn_ask fun _ => rfl) fun _ => .bind (passesOn_ask fun _ => rfl) fun _ => ?_
    refine .bind (.mapErr locateForkPoint_passesOn) fun fork => .bind .check fun _ => ?_
    split
    · exact applyBlocks_passesOn
    · exact .bind .check fun _ => .bind (.mapErr (passesOn_query fun _ => rfl)) fun _ =>
        applyBlocks_passesOn
  · exact .pure

theorem followMempool_passesOn {currentTip : ChainBlock} {tipChanged : Bool} :
    PassesOn (followMempool view currentTip tipChanged shutdownHeight) := by
  have hstream : PassesOn (streamMempool view) := by
    refine .iterate fun _ => .bind (passesOn_ask fun _ => rfl) fun tx => ?_
    cases tx with
    | none => exact .pure
    | some tx => exact .bind (passesOn_query fun _ => rfl) fun _ => .pure
  unfold followMempool
  split
  · exact .pure
  · refine .bind (.bind (passesOn_chainCall fun a ce h => ?_) fun stream => ?_) fun _ => .pure
    · cases a <;> cases h
      rfl
    · cases stream with
      | some _ => exact hstream
      | none =>
          dsimp only
          split
          · exact .pure
          · exact passesOn_ask fun _ => rfl

theorem steadyStateIteration_passesOn {prevTip : ChainBlock} :
    SteadyPassesOn (steadyStateIteration shutdownHeight prevTip : Steady V _) := by
  refine .bind (.mapErr (passesOn_chainCall fun a ce h => ?_)) fun view => ?_
  · cases a <;> cases h
    rfl
  refine .bind (.mapErr (passesOn_chainCall fun a ce h => ?_)) fun currentTip => ?_
  · cases a <;> cases h
    rfl
  refine .bind catchUp_passesOn fun x => ?_
  rcases x with ⟨prevTip', _ | _⟩
  · exact .pure
  · exact .bind (.mapErr followMempool_passesOn) fun _ => .pure

end

/-! ## Going on after a stale answer -/

/-- A call that was not stale, and a program that goes on from its answer. -/
theorem goes_on {α β ε : Type} {op : Op V} {f : (syncSig V).Ans op → Except ε α}
    {g : α → Prog (syncSig V) ε β} {l : SyncTrace V} {ev : SyncEvent V}
    {q : Prog (syncSig V) ε β} (hop : l = [] → ev.op ≠ op)
    (h : Run ((query (E := syncSig V) op f).bind g) (l ++ [ev]) q) :
    ∃ a x l', l = ⟨op, a⟩ :: l' ∧ f a = .ok x ∧ Run (g x) (l' ++ [ev]) q := by
  rcases h.query_bind_inv with ⟨hnil, -⟩ | ⟨a, l', htr, hrest⟩
  · simp at hnil
  · cases l with
    | nil =>
        obtain ⟨rfl, -⟩ := List.cons.inj htr
        exact absurd rfl (hop rfl)
    | cons e l =>
        obtain ⟨rfl, rfl⟩ := List.cons.inj htr
        rcases hrest with ⟨e, -, hnil, -⟩ | ⟨x, hx, hrun⟩
        · simp at hnil
        · exact ⟨a, x, l, rfl, hx, hrun⟩

theorem Stale.op_ne {op : Op V} {ev : SyncEvent V} (h : Stale ev)
    (hop : ∀ a, chainErrorOf ⟨op, a⟩ = none) : ev.op ≠ op := by
  rintro rfl
  obtain ⟨source, hsource⟩ := h
  rw [hop ev.ans] at hsource
  cases hsource

section
variable {shutdownHeight : Option Nat} {l : SyncTrace V} {ev : SyncEvent V}

/-- The pause before a view is pinned anew. -/
abbrev backoff : SyncEvent V := ⟨.sleep reorgRetryBackoff, ()⟩

/-- What may pass between a stale answer that is tolerated and the pinning of the next view: the
pause of either loop, or the start of `steady_state`. -/
inductive Pause : SyncTrace V → Prop
  | backoff : Pause [backoff]
  | started : Pause [⟨.notifyOne, ()⟩]

/-- What both loops do with a retryable error. -/
theorem pauses {α : Type} {a : α} {err : SyncError} {other : Sync V α}
    (h : isRetryable err = true) :
    Run (if isRetryable err then perform (.sleep reorgRetryBackoff) >>= fun _ => pure a else other)
      [backoff] (.ret a) := by
  rw [if_pos h]
  exact .call (.refl _)

theorem pause_answered {α : Type} {a : α} {err : SyncError} {other : Sync V α}
    (h : Breaks Stale (fun _ => False) other) :
    Breaks Stale (fun _ => False) (if isRetryable err then
      perform (.sleep reorgRetryBackoff) >>= fun _ => pure a else other) := by
  split
  · exact .bind (passesOn_ask fun _ => rfl) fun _ => .pure
  · exact h

/-- The scan of the tip is given up without an error. -/
theorem bestEffortTipScan_goes_on {view : V} {currentTip : ChainBlock} {q : Sync V Unit}
    (hstale : Stale ev)
    (h : Run (bestEffortTipScan view currentTip shutdownHeight) (l ++ [ev]) q) :
    Run (bestEffortTipScan view currentTip shutdownHeight) (l ++ [ev]) (.ret ()) := by
  unfold bestEffortTipScan at h ⊢
  split at h
  · rename_i hpos
    rw [if_pos hpos]
    obtain ⟨a, metadata, l', rfl, ha, h⟩ := goes_on (fun _ => hstale.op_ne fun _ => rfl) h
    refine .query_ok ha ?_
    cases metadata with
    | some _ => exact absurd h Run.ret_event
    | none =>
        rcases scanTipBlock_passesOn.attempt_bind hstale h with
          ⟨err, -, hfail⟩ | ⟨a, l₁, l₂, -, -, h⟩
        · exact hfail.caught.bind _
        · exact absurd h Run.ret_event
  · exact absurd h Run.ret_event

theorem Bare.prepend {m : SyncTrace V} {op : Op V} (h : Bare l op) : Bare (m ++ l) op := by
  cases h with
  | saplingRoots => exact .saplingRoots
  | orchardRoots => exact .orchardRoots
  | snapshot => exact .snapshot
  | tip =>
      rw [← List.append_assoc]
      exact .tip

/-- Scanning the suggested blocks is tried again, on a new view. -/
theorem initializeTurn_goes_on {q : Sync V (Unit ⊕ (ChainBlock × Nat))} (hstale : Stale ev)
    (hbare : ¬ Bare l ev.op) (h : Run (initializeTurn shutdownHeight) (l ++ [ev]) q) :
    Run (initializeTurn shutdownHeight) (l ++ [ev] ++ [backoff]) (.ret (.inl ())) ∨
      ∃ start, Run (initializeTurn shutdownHeight) (l ++ [ev]) (.ret (.inr start)) := by
  have hsnapshot : l = [] → ev.op ≠ .snapshot := fun _ hop => hbare (hop ▸ .snapshot)
  obtain ⟨a, view, l₁, rfl, ha, h₁⟩ := goes_on hsnapshot h
  obtain rfl : a = .ok view := mapError_eq_ok.mp ha
  have htip : l₁ = [] → ev.op ≠ .tip view := by
    rintro rfl hop
    rw [hop] at hbare
    exact hbare (.tip (l := []))
  obtain ⟨a', currentTip, l₂, rfl, ha', h₂⟩ := goes_on htip h₁
  obtain ⟨u, _, l₃, rfl, hu, h₃⟩ := goes_on (fun _ => hstale.op_ne fun _ => rfl) h₂
  obtain ⟨r, ranges, l₄, rfl, hr, h₄⟩ := goes_on (fun _ => hstale.op_ne fun _ => rfl) h₃
  -- what comes of the rest comes of the turn
  have hturn : ∀ {m : SyncTrace V} {q : Sync V (Unit ⊕ (ChainBlock × Nat))}, Run _ m q →
      Run (initializeTurn shutdownHeight) (⟨.snapshot, .ok view⟩ :: ⟨.tip view, a'⟩ ::
        ⟨.updateChainTip currentTip.height, u⟩ :: ⟨.suggestScanRanges, r⟩ :: m) q :=
    fun hrun => .query_ok ha (.query_ok ha' (.query_ok hu (.query_ok hr hrun)))
  cases hhead : (ranges.filterMap (initialRange (updateBoundary 0 currentTip.height))).head? with
  | none =>
      simp only [hhead] at h₄ hturn
      rcases h₄.bind_event with ⟨p, hp⟩ | ⟨_, _, _, -, -, hrest⟩
      · exact .inr ⟨_, hturn ((bestEffortTipScan_goes_on hstale hp).bind _)⟩
      · exact absurd hrest Run.ret_event
  | some scanRange =>
      simp only [hhead] at h₄ hturn
      rcases scanBlocks_passesOn.attempt_bind hstale h₄ with
        ⟨err, hretry, hfail⟩ | ⟨x, m₁, m₂, -, -, hrest⟩
      · -- the handler pauses, and the turn is over
        exact .inl ((hturn (hfail.caught.bind _)).trans (pauses hretry))
      · rcases x with error | _ | _
        · obtain ⟨_, -, hfalse⟩ := (pause_answered .fail).hit hrest hstale
          exact hfalse.elim
        · exact absurd hrest Run.ret_event
        · exact absurd hrest Run.ret_event

theorem updateSubtreeRoots_bare {q : Sync V Unit} (hstale : Stale ev)
    (h : Run (updateSubtreeRoots : Sync V Unit) (l ++ [ev]) q) : Bare l ev.op := by
  by_contra hbare
  have hsapling : l = [] → ev.op ≠ .getSaplingSubtreeRoots := fun _ hop =>
    hbare (hop ▸ .saplingRoots)
  obtain ⟨a, roots, l₁, rfl, -, h₁⟩ := goes_on hsapling h
  obtain ⟨b, _, l₂, rfl, -, h₂⟩ := goes_on (fun _ => hstale.op_ne fun _ => rfl) h₁
  have horchard : l₂ = [] → ev.op ≠ .getOrchardSubtreeRoots := fun _ hop =>
    hbare (hop ▸ .orchardRoots)
  obtain ⟨c, roots', l₃, rfl, -, h₃⟩ := goes_on horchard h₂
  rw [← Prog.bind_ret (query _ _)] at h₃
  obtain ⟨d, _, l₄, rfl, -, h₄⟩ := goes_on (fun _ => hstale.op_ne fun _ => rfl) h₃
  exact Run.ret_event h₄

/-- A stale answer to the handling of an error is given to a recovery from a conflict. -/
theorem handleError_event {prevTip : ChainBlock} {error : SyncError} {q : Sync V PassEnd}
    (hstale : Stale ev) (h : Run (handleError prevTip error) (l ++ [ev]) q) :
    ∃ height q', error = .other (.blockConflict height) ∧
      Run (recoverConflict height : Sync V _) (l ++ [ev]) q' := by
  unfold handleError at h
  split at h
  · obtain ⟨_, -, hfalse⟩ := (Breaks.bind (R := fun _ => False) (passesOn_ask fun _ => rfl)
      fun _ => .pure).hit h hstale
    exact hfalse.elim
  · split at h
    · rename_i height _
      rcases h.bind_event with ⟨p', hp'⟩ | ⟨r, _, _, -, -, hrest⟩
      · obtain ⟨q', hrun, -⟩ := hp'.attempt_inv
        exact ⟨height, q', rfl, hrun⟩
      · cases r <;> exact absurd hrest Run.ret_event
    · exact absurd h Run.ret_event

/-- A stale answer in a turn of `steady_state` is given to an iteration, and the next turn begins
after a pause; or it is given to a recovery from a conflict. -/
theorem steadyTurn_goes_on {p : ChainBlock} {q : Sync V (ChainBlock ⊕ Unit)} (hstale : Stale ev)
    (h : Run (steadyTurn shutdownHeight p) (l ++ [ev]) q) :
    (∃ p', Run (steadyTurn shutdownHeight p) (l ++ [ev] ++ [backoff]) (.ret (.inl p'))) ∨
      ∃ m₁ m₂ prevTip height q', l = m₁ ++ m₂ ∧
        Run (steadyStateIteration shutdownHeight p) m₁
          (.fail (prevTip, .other (.blockConflict height))) ∧
        Run (recoverConflict height : Sync V _) (m₂ ++ [ev]) q' := by
  rcases h.bind_event with ⟨pass, hpass⟩ | ⟨passEnd, _, _, -, -, hrest⟩
  · rcases steadyStateIteration_passesOn.attempt_bind hstale hpass with
      ⟨⟨prevTip, err⟩, hretry, hfail⟩ | ⟨x, m₁, m₂, rfl, hiter, hrest⟩
    · have hagain : Run (steadyStatePass shutdownHeight p) (l ++ [ev] ++ [backoff])
          (.ret (.again prevTip)) := (hfail.caught.bind _).trans (pauses hretry)
      exact .inl ⟨prevTip, hagain.bind _⟩
    · rcases x with ⟨prevTip, error⟩ | ⟨prevTip, _ | _⟩
      · obtain ⟨height, q', rfl, hrecover⟩ := handleError_event hstale hrest
        exact .inr ⟨m₁, m₂, prevTip, height, q', rfl, hiter.attempt_error, hrecover⟩
      · exact absurd hrest Run.ret_event
      · exact absurd hrest Run.ret_event
  · cases passEnd with
    | again _ => exact absurd hrest Run.ret_event
    | shutdown _ _ => exact absurd hrest Run.ret_event
    | fatal _ error =>
        obtain ⟨_, hrest, -⟩ := hrest.split
        cases hrest

/-- Each turn of `initialize` begins with a new view. -/
theorem follow_turn {l m : SyncTrace V}
    (hroots : Run (updateSubtreeRoots : Sync V Unit) l (.ret ()))
    (hturns : Turns (fun _ => initializeTurn shutdownHeight) () m ()) :
    StopsAt (follow shutdownHeight) (l ++ m) (.asks .snapshot) := by
  have hsnapshot : StopsAt (initializeTurn shutdownHeight : Sync V _) [] (.asks .snapshot) :=
    ⟨_, .refl _, rfl⟩
  have hturn := hturns.asks hsnapshot
  rw [List.append_nil] at hturn
  exact (hroots.then_stops (f := fun _ => iterate () _) hturn).asks_bind

/-- Each iteration of `steady_state` begins with a new view. -/
theorem IterationFrom.snapshots {p : ChainBlock} {tr : SyncTrace V}
    (h : IterationFrom shutdownHeight tr p) :
    StopsAt (follow shutdownHeight) tr (.asks .snapshot) := by
  cases h with
  | intro hinit hturns =>
      have hsnapshot : StopsAt (steadyTurn shutdownHeight p : Sync V _) [] (.asks .snapshot) :=
        ⟨_, .refl _, rfl⟩
      have hturn := hturns.asks hsnapshot
      rw [List.append_nil] at hturn
      obtain ⟨q, hrun, hq⟩ := hturn
      exact hinit.then_stops ⟨q, .call hrun, hq⟩

/-- A stale answer to a call of either loop is tolerated: a pause, and a view is pinned anew. -/
theorem follow_goes_on {q : Sync V Unit} (hstale : Stale ev)
    (h : Run (follow shutdownHeight) (l ++ [ev]) q)
    (hinit : ∀ q', Run (initializeSync shutdownHeight) (l ++ [ev]) q' →
      ¬ BareStale (l ++ [ev]))
    (hrecover : ∀ m₁ m₂ height q', l = m₁ ++ m₂ → RecoveryFrom shutdownHeight m₁ height →
      ¬ Run (recoverConflict height : Sync V _) (m₂ ++ [ev]) q') :
    ∃ w, Pause w ∧ StopsAt (follow shutdownHeight) (l ++ [ev] ++ w) (.asks .snapshot) := by
  rcases h.bind_event with ⟨p, hp⟩ | ⟨⟨startingTip, boundary⟩, l₁, l₂, rfl, hstart, h₁⟩
  · have hbare : ¬ Bare l ev.op := fun hbare => hinit p hp ⟨l, ev, rfl, hbare, hstale⟩
    rcases Run.bind_event hp with ⟨p', hp'⟩ | ⟨_, l₁, l₂, rfl, hroots, h₁⟩
    · exact absurd (updateSubtreeRoots_bare hstale hp') hbare
    · obtain ⟨m₁, m₂, _, p', rfl, hturns, hturn, -⟩ := Run.iterate_event h₁
      have hbare' : ¬ Bare m₂ ev.op := fun h => hbare (h.prepend.prepend)
      rcases initializeTurn_goes_on hstale hbare' hturn with hagain | ⟨start, hdone⟩
      · exact ⟨[backoff], .backoff, by simpa using follow_turn hroots (hturns.turn hagain)⟩
      · have hlast : Run (iterate () fun _ => initializeTurn shutdownHeight) _ (.ret start) :=
          hturns.iterate.trans (.loop (hdone.bind _))
        have hinit' : Run (initializeSync shutdownHeight) _ (.ret start) :=
          Run.seq (f := fun _ => iterate () fun _ => initializeTurn shutdownHeight) hroots hlast
        have hnext := (IterationFrom.intro hinit' .start).snapshots
        exact ⟨[⟨.notifyOne, ()⟩], .started, by simpa using hnext⟩
  · rcases Run.bind_event h₁ with ⟨_, hnotify⟩ | ⟨_, n, l₃, rfl, hnotify, h₂⟩
    · obtain ⟨_, -, hfalse⟩ := (passesOn_ask (R := fun _ => False) fun _ => rfl).hit hnotify hstale
      exact hfalse.elim
    · obtain ⟨m₁, m₂, p, q', rfl, hturns, hturn, -⟩ := Run.iterate_event h₂
      cases hnotify with
      | call hnotify =>
          cases hnotify
          rcases steadyTurn_goes_on hstale hturn with
            ⟨p', hagain⟩ | ⟨n₁, n₂, prevTip, height, q'', rfl, hiter, hrec⟩
          · have hnext := (IterationFrom.intro hstart (hturns.turn hagain)).snapshots
            exact ⟨[backoff], .backoff, by simpa using hnext⟩
          · refine absurd hrec (hrecover (l₁ ++ ⟨.notifyOne, ()⟩ :: m₁ ++ n₁) n₂ height q'' ?_ ?_)
            · simp
            · exact .intro (.intro hstart hturns) hiter

end

/-- A run that fails does not fail with a retryable error. -/
theorem follow_fail_not_retryable {shutdownHeight : Option Nat} {tr : SyncTrace V} {e : SyncError}
    (hrun : Run (follow shutdownHeight) tr (.fail e))
    (hinit : ∀ l q, l <+: tr → Run (initializeSync shutdownHeight) l q → ¬ BareStale l)
    (hrecover : ∀ l m height q, l ++ m <+: tr → RecoveryFrom shutdownHeight l height →
      Run (recoverConflict height) m q → ∀ ev ∈ m, ¬ Stale ev) :
    isRetryable e = false := by
  rcases follow_fail hrun with he | h | ⟨l, r, height, rfl, hrec, h⟩
  · exact he
  · have honly : OnlyBare tr e := initializeSync_onlyBare.sound h (Path.recall fun _ _ => trivial)
    refine Bool.eq_false_iff.mpr fun he => ?_
    exact hinit tr _ (List.prefix_refl _) h (honly he)
  · have hstale := recoverConflict_stale.sound h (Path.recall fun _ _ => trivial)
    refine Bool.eq_false_iff.mpr fun he => ?_
    obtain ⟨ev, hev, hst⟩ := hstale he
    exact hrecover l r height _ (List.prefix_refl _) hrec h ev hev hst

/-- With no stale answer to a bare call of `initialize` and none in a conflict recovery, no
stale view is fatal: the run goes on, by pinning a new view. -/
theorem stale_view_not_fatal {shutdownHeight : Option Nat} {tr : SyncTrace V} {q : Sync V Unit}
    (hrun : Run (follow shutdownHeight) tr q)
    (hinit : ∀ l q, l <+: tr → Run (initializeSync shutdownHeight) l q → ¬ BareStale l)
    (hrecover : ∀ l m height q, l ++ m <+: tr → RecoveryFrom shutdownHeight l height →
      Run (recoverConflict height) m q → ∀ ev ∈ m, ¬ Stale ev) :
    (∀ e, q = .fail e → isRetryable e = false) ∧
    ∀ l ev, l ++ [ev] <+: tr → Stale ev →
      ∃ w, Pause w ∧ StopsAt (follow shutdownHeight) (l ++ [ev] ++ w) (.asks .snapshot) := by
  constructor
  · rintro e rfl
    exact follow_fail_not_retryable hrun hinit hrecover
  · rintro l ev ⟨r, rfl⟩ hstale
    obtain ⟨k, hask, -⟩ := Run.split (by simpa using hrun)
    refine follow_goes_on hstale (hask.trans (.call (.refl _))) ?_ ?_
    · exact fun q' => hinit _ q' (List.prefix_append _ r)
    · rintro m₁ m₂ height q' rfl hfrom hrecovery
      refine hrecover m₁ (m₂ ++ [ev]) height q' ?_ hfrom hrecovery ev (by simp) hstale
      rw [← List.append_assoc]
      exact List.prefix_append _ r

/-- A chain that serves views, reorged while the wallet starts, under a wallet database that
fills up. -/
def reorgedOnce : Answer (syncSig Unit) Bool := fun reorged op =>
  match op with
  | .snapshot => (.ok (), reorged)
  | .suggestScanRanges => (.ok [⟨0, 1, .verify⟩], reorged)
  | .treeStateAsOf _ _ => (.error (.unavailable "reorged away"), true)
  | .updateChainTip _ => (if reorged then .error (.other "disk full") else .ok (), reorged)
  | op => (op.idle (), reorged)

def reorgedOnceRun : SyncTrace Unit := (exec reorgedOnce 30 false (follow none)).1

theorem reorgedOnceRun_stale : ∀ e ∈ reorgedOnceRun, Stale e →
    ∃ height, e.op = .treeStateAsOf () height := by
  refine exec_forall (fun reorged op => ?_) _ _ _
  rintro ⟨source, hsource⟩
  cases op with
  | treeStateAsOf view height => exact ⟨height, rfl⟩
  | updateChainTip height => cases reorged <;> cases hsource
  | _ => cases hsource

/-- The first scan of `initialize` meets the reorg, the second attempt the full disk. -/
theorem stale_view_not_fatal_reorged :
    isRetryable (.other (.other "disk full")) = false ∧
      ∃ w, Pause w ∧ StopsAt (follow none)
        (reorgedOnceRun.take 8 ++
          [⟨.treeStateAsOf () 0, .error (.unavailable "reorged away")⟩] ++ w)
        (.asks .snapshot) := by
  have hrun : Run (follow none) reorgedOnceRun (.fail (.other (.other "disk full"))) :=
    exec_fail (by decide +kernel)
  have hspec := stale_view_not_fatal hrun ?_ ?_
  · exact ⟨hspec.1 _ rfl, hspec.2 _ _ ⟨reorgedOnceRun.drop 9, by decide +kernel⟩ ⟨_, rfl⟩⟩
  · rintro l q hpre - ⟨l', e, rfl, hbare, hstale⟩
    obtain ⟨height, hop⟩ := reorgedOnceRun_stale e (hpre.subset (by simp)) hstale
    rw [hop] at hbare
    cases hbare
  · -- the run never leaves `initialize`
    rintro l m height q hpre ⟨⟨_, _⟩, _⟩ -
    have hnotify : ∀ e ∈ reorgedOnceRun, e.op ≠ .notifyOne := by decide +kernel
    exact absurd rfl (hnotify ⟨.notifyOne, ()⟩ (hpre.subset (by simp)))

/-- A chain that has no view to serve when the wallet starts. -/
def noView : Answer (syncSig Unit) Unit := fun _ op =>
  match op with
  | .snapshot => (.error (.unavailable "no tip yet"), ())
  | op => (op.idle (), ())

/-- The wallet that is started then stops. -/
theorem stale_view_fatal :
    ¬ ∀ (shutdownHeight : Option Nat) (tr : SyncTrace Unit) (e : SyncError),
      Run (follow shutdownHeight) tr (.fail e) → isRetryable e = false := by
  intro h
  have hrun : Run (follow none) (exec noView 30 () (follow none)).1
      (.fail (.chain (.unavailable "no tip yet"))) := exec_fail (by decide +kernel)
  exact absurd (h _ _ _ hrun) (by decide)

end Zallet
