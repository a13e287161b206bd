/-
# `Zallet.Spend.Sending` — what a run sends, and in what order

Both methods only read until they have the keys, and then make transactions and
broadcast them.  A run is watched by what it has seen (`Permitted`): when it
makes transactions it has seen whatever the method asks for first (`Auth`, a
parameter here), and what it broadcasts is the next of the transactions it
made.  From that, at every point of every run, what the network has accepted is
a beginning of what was made (`InOrder`); a run that returns has sent all of
it, and one that fails has not (`wp_run`).
-/
import Zallet.Spend.ShieldCoinbase

namespace Zallet.Spend

open Prog RpcResult
open ListAddresses (Account Zip32Derivation)

abbrev SpendTrace (lib : SpendLib) : Type := Trace (spendSig lib)

variable {lib : SpendLib} {tr tr' : SpendTrace lib} {α : Type}

/-! ## What was sent -/

/-- Asks for transactions to be made or broadcast. -/
def SpendOp.sends : SpendOp lib → Bool
  | .createProposedTransactions _ _ | .broadcastTransaction _ => true
  | _ => false

/-- Nothing was asked to be made or broadcast. -/
def Quiet (tr : SpendTrace lib) : Prop := ∀ e ∈ tr, SpendOp.sends e.op = false

def created? : Event (spendSig lib) → Option (List TxId)
  | ⟨.createProposedTransactions _ _, .ok txids⟩ => some txids.1
  | _ => none

def accepted? : Event (spendSig lib) → Option Transaction
  | ⟨.broadcastTransaction tx, .ok _⟩ => some tx
  | _ => none

/-- The transactions that were made, by the requests that made them. -/
def created (tr : SpendTrace lib) : List (List TxId) := tr.filterMap created?

/-- The transactions that the network accepted. -/
def accepted (tr : SpendTrace lib) : List Transaction := tr.filterMap accepted?

/-- The wallet answered that these ids are those of these transactions. -/
def Stored (tr : SpendTrace lib) (txids : List TxId) (txs : List Transaction) : Prop :=
  List.Forall₂
    (fun txid tx => (⟨.getTransaction txid, .ok (some tx)⟩ : Event (spendSig lib)) ∈ tr) txids txs

/-- What was accepted is a beginning of what was made, if anything was. -/
def InOrder (tr : SpendTrace lib) : Prop :=
  (created tr = [] ∧ accepted tr = []) ∨
    ∃ sent rest, created tr = [sent ++ rest] ∧ Stored tr sent (accepted tr)

/-- The transaction is the next one to be sent. -/
def Next (tr : SpendTrace lib) (tx : Transaction) : Prop :=
  ∃ sent txid rest, created tr = [sent ++ txid :: rest] ∧ Stored tr sent (accepted tr) ∧
    (⟨.getTransaction txid, .ok (some tx)⟩ : Event (spendSig lib)) ∈ tr

theorem created_append : created (tr ++ tr') = created tr ++ created tr' := List.filterMap_append

theorem accepted_append : accepted (tr ++ tr') = accepted tr ++ accepted tr' :=
  List.filterMap_append

theorem created_quiet (h : Quiet tr) : created tr = [] := by
  refine List.filterMap_eq_nil_iff.mpr ?_
  rintro ⟨op, a⟩ he
  have hop : SpendOp.sends op = false := h _ he
  cases op with
  | createProposedTransactions proposal keys => cases hop
  | _ => rfl

theorem accepted_quiet (h : Quiet tr) : accepted tr = [] := by
  refine List.filterMap_eq_nil_iff.mpr ?_
  rintro ⟨op, a⟩ he
  have hop : SpendOp.sends op = false := h _ he
  cases op with
  | broadcastTransaction tx => cases hop
  | _ => rfl

theorem Stored.mono {txids : List TxId} {txs : List Transaction} (hsub : tr ⊆ tr')
    (h : Stored tr txids txs) : Stored tr' txids txs := by
  refine List.Forall₂.imp ?_ h
  intro txid tx hmem
  exact hsub hmem

theorem Stored.concat {txids : List TxId} {txs : List Transaction} {txid : TxId}
    {tx : Transaction} (h : Stored tr txids txs)
    (hlast : (⟨.getTransaction txid, .ok (some tx)⟩ : Event (spendSig lib)) ∈ tr) :
    Stored tr (txids ++ [txid]) (txs ++ [tx]) :=
  List.rel_append h (.cons hlast .nil)

theorem quiet_singleton {e : Event (spendSig lib)} (h : SpendOp.sends e.op = false) :
    Quiet [e] := by
  intro e' he'
  obtain rfl := List.mem_singleton.mp he'
  exact h

/-- An event that reads changes neither what was made nor what was accepted. -/
theorem created_read {e : Event (spendSig lib)} (h : SpendOp.sends e.op = false) :
    created (tr ++ [e]) = created tr := by
  rw [created_append, created_quiet (quiet_singleton h), List.append_nil]

theorem accepted_read {e : Event (spendSig lib)} (h : SpendOp.sends e.op = false) :
    accepted (tr ++ [e]) = accepted tr := by
  rw [accepted_append, accepted_quiet (quiet_singleton h), List.append_nil]

/-! ## Watching a run -/

/-- What may be asked for next, after what was seen. -/
def Permitted (Auth : SpendTrace lib → Proposal → SpendingKeys lib → Prop)
    (tr : SpendTrace lib) : SpendOp lib → Prop
  | .createProposedTransactions proposal keys => Quiet tr ∧ Auth tr proposal keys
  | .broadcastTransaction tx => Next tr tx
  | _ => True

/-- The world in which a run is watched. -/
abbrev watched (Auth : SpendTrace lib → Proposal → SpendingKeys lib → Prop) :
    World (spendSig lib) (SpendTrace lib) :=
  World.recall (fun _ => True) (Permitted Auth) fun _ => True

variable {Auth : SpendTrace lib → Proposal → SpendingKeys lib → Prop}

/-- What is permitted keeps to the order. -/
theorem InOrder.step {op : SpendOp lib} {a : op.Ans} (h : InOrder tr)
    (hpermitted : Permitted Auth tr op) : InOrder (tr ++ [⟨op, a⟩]) := by
  have hsub : tr ⊆ tr ++ [⟨op, a⟩] := List.subset_append_left _ _
  have hread : SpendOp.sends op = false → InOrder (tr ++ [⟨op, a⟩]) := by
    intro hop
    rw [InOrder, created_read hop, accepted_read hop]
    refine h.imp id ?_
    rintro ⟨sent, rest, hcreated, hstored⟩
    exact ⟨sent, rest, hcreated, hstored.mono hsub⟩
  cases op with
  | createProposedTransactions proposal keys =>
      obtain ⟨hquiet, -⟩ := hpermitted
      rw [InOrder, created_append, accepted_append, created_quiet hquiet, accepted_quiet hquiet]
      cases a with
      | error e => exact .inl ⟨rfl, rfl⟩
      | ok txids => exact .inr ⟨[], txids.1, rfl, .nil⟩
  | broadcastTransaction tx =>
      obtain ⟨sent, txid, rest, hcreated, hstored, hlast⟩ := hpermitted
      refine .inr ?_
      rw [created_append, accepted_append, hcreated]
      cases a with
      | error e =>
          refine ⟨sent, txid :: rest, rfl, ?_⟩
          show Stored _ sent (accepted tr ++ [])
          rw [List.append_nil]
          exact hstored.mono hsub
      | ok _ =>
          refine ⟨sent ++ [txid], rest, ?_, (hstored.concat hlast).mono hsub⟩
          rw [List.append_assoc]
          rfl
  | _ => exact hread rfl

/-- What was read between two points of a run. -/
def Reads (tr tr' : SpendTrace lib) : Prop := ∃ more, tr' = tr ++ more ∧ Quiet more

theorem Reads.refl : Reads tr tr := ⟨[], (List.append_nil tr).symm, by rintro _ ⟨⟩⟩

theorem Reads.trans {tr'' : SpendTrace lib} (h : Reads tr tr') (h' : Reads tr' tr'') :
    Reads tr tr'' := by
  obtain ⟨more, rfl, hquiet⟩ := h
  obtain ⟨more', rfl, hquiet'⟩ := h'
  exact ⟨more ++ more', List.append_assoc _ _ _, List.forall_mem_append.mpr ⟨hquiet, hquiet'⟩⟩

theorem Reads.one {e : Event (spendSig lib)} (h : SpendOp.sends e.op = false) :
    Reads tr (tr ++ [e]) := ⟨[e], rfl, quiet_singleton h⟩

theorem Reads.subset (h : Reads tr tr') : tr ⊆ tr' := by
  obtain ⟨more, rfl, -⟩ := h
  exact List.subset_append_left _ _

theorem Reads.quiet (h : Reads tr tr') (hquiet : Quiet tr) : Quiet tr' := by
  obtain ⟨more, rfl, hmore⟩ := h
  exact List.forall_mem_append.mpr ⟨hquiet, hmore⟩

/-! ## Rules -/

section
variable {Q : SpendTrace lib → α → Prop} {R : SpendTrace lib → RpcError → Prop}

/-- The rule for an operation that reads. -/
theorem wp_read {op : SpendOp lib} (h : op.sends = false) {f : op.Ans → Except RpcError α} :
    wp (watched Auth) (query op f) Q R tr ↔
      ∀ a, Ends (Q (tr ++ [⟨op, a⟩])) (R (tr ++ [⟨op, a⟩])) (f a) := by
  rw [wp_query]
  constructor
  · rintro ⟨-, hall⟩ a
    exact hall a _ ⟨trivial, rfl⟩
  · intro hall
    refine ⟨?_, ?_⟩
    · cases op with
      | createProposedTransactions proposal keys => cases h
      | broadcastTransaction tx => cases h
      | _ => trivial
    · rintro a _ ⟨-, rfl⟩
      exact hall a

theorem wp_ofRpc {W : World (spendSig lib) (SpendTrace lib)} (hcrash : ∀ s, W.crash s)
    {r : RpcResult Panic α} (hQ : ∀ a, Gives r a → Q tr a)
    (hR : ∀ e, r.run = .ok (.error e) → R tr e) : wp W (ofRpc lib r) Q R tr := by
  unfold ofRpc
  split
  case h_1 a ha => exact hQ a ha
  case h_2 e he => exact hR e he
  case h_3 => exact hcrash tr
  case h_4 => exact hcrash tr

theorem wp_enforce {W : World (spendSig lib) (SpendTrace lib)} (hcrash : ∀ s, W.crash s)
    {proposal : Proposal} {policy : PrivacyPolicy} {Q : SpendTrace lib → Unit → Prop}
    (hQ : proposal.leaks ⊆ policy.allows → Q tr ()) (hR : ∀ e, R tr e) :
    wp W (enforce lib proposal policy) Q R tr := by
  unfold enforce
  split
  case h_1 h => exact hQ (leaks_subset_iff.mpr (enforcePrivacyPolicy_iff.mp h))
  case h_2 => exact hR _
  case h_3 => exact hcrash tr

end

/-! ## The account of an address -/

/-- The wallet answered that the address is one of an account, and what this account is. -/
def Owns (tr : SpendTrace lib) (address : lib.Decoded) (account : Account) : Prop :=
  ∃ accountId addresses,
    (⟨.listAddresses accountId, .ok addresses⟩ : Event (spendSig lib)) ∈ tr ∧
      address ∈ addresses ∧
      (⟨.getAccount accountId, .ok (some account)⟩ : Event (spendSig lib)) ∈ tr

theorem Owns.mono {address : lib.Decoded} {account : Account} (hsub : tr ⊆ tr')
    (h : Owns tr address account) : Owns tr' address account := by
  obtain ⟨accountId, addresses, hlisted, hmem, haccount⟩ := h
  exact ⟨accountId, addresses, hsub hlisted, hmem, hsub haccount⟩

theorem wp_findAccount {address : lib.Decoded} {accountIds : List AccountUuid} :
    wp (watched Auth) (findAccount lib address accountIds)
      (fun tr' account => Reads tr tr' ∧ Owns tr' address account) (fun tr' _ => Reads tr tr') tr := by
  induction accountIds generalizing tr with
  | nil => exact Reads.refl
  | cons accountId rest ih =>
      rw [findAccount, wp_bind, wp_read rfl]
      intro a
      have hread : Reads tr (tr ++ [⟨.listAddresses accountId, a⟩]) := .one rfl
      cases a with
      | error e => exact hread
      | ok addresses =>
          by_cases hmem : address ∈ addresses
          · simp only [if_pos hmem, orReport, Except.mapError, ends_ok, wp_bind]
            rw [wp_read rfl]
            intro b
            have hread' := hread.trans (.one (e := ⟨.getAccount accountId, b⟩) rfl)
            cases b with
            | error e => exact hread'
            | ok found =>
                cases found with
                | none => exact trivial
                | some account =>
                    refine ⟨hread', accountId, addresses, ?_, hmem, ?_⟩
                    · refine List.mem_append_left _ (List.mem_append_right _ ?_)
                      exact List.mem_singleton_self _
                    · exact List.mem_append_right _ (List.mem_singleton_self _)
          · simp only [if_neg hmem, orReport, Except.mapError, ends_ok]
            refine wp_mono ?_ ?_ ih
            · rintro tr' account ⟨hrest, howns⟩
              exact ⟨hread.trans hrest, howns⟩
            · intro tr' e hrest
              exact hread.trans hrest

theorem wp_getAccountForAddress {address : lib.Decoded} :
    wp (watched Auth) (getAccountForAddress lib address)
      (fun tr' account => Reads tr tr' ∧ Owns tr' address account) (fun tr' _ => Reads tr tr') tr := by
  rw [getAccountForAddress, wp_bind, wp_read rfl]
  intro a
  have hread : Reads tr (tr ++ [⟨.getAccountIds, a⟩]) := .one rfl
  cases a with
  | error e => exact hread
  | ok accountIds =>
      refine wp_mono ?_ ?_ wp_findAccount
      · rintro tr' account ⟨hrest, howns⟩
        exact ⟨hread.trans hrest, howns⟩
      · intro tr' e hrest
        exact hread.trans hrest

/-! ## The keys of a proposal -/

/-- The addresses that were imported standalone. -/
def standaloneAddrs (receivers : List (TransparentAddress × TransparentAddressSource)) :
    List TransparentAddress := (receivers.filter (·.2.isStandalone)).map (·.1)

/-- The keys of these inputs: one for each input that names an imported address, in a place of that
address, as the keystore has it. -/
def KeysOf (tr : SpendTrace lib) (standalone : List TransparentAddress)
    (inputs : List WalletTransparentOutput) (keys : TransparentAddress → List lib.SecretKey) :
    Prop :=
  ∀ address,
    (keys address).length = (if address ∈ standalone then
      inputs.countP fun input => (lib.txout input).scriptAddress = some address else 0) ∧
    ∀ key ∈ keys address,
      (⟨.decryptStandaloneTransparentKey address, .ok key⟩ : Event (spendSig lib)) ∈ tr

/-- The keys are those that the keystore has for the account and for the proposal. -/
structure Signs (tr : SpendTrace lib) (accountId : AccountUuid) (derivation : Zip32Derivation)
    (proposal : Proposal) (keys : SpendingKeys lib) : Prop where
  usk : ∃ seed,
    (⟨.decryptSeed derivation.seedFingerprint, .ok seed⟩ : Event (spendSig lib)) ∈ tr ∧
      lib.fromSeed seed derivation.accountIndex = .ok keys.usk
  standalone : ∃ receivers,
    (⟨.getTransparentReceivers accountId true true, .ok receivers⟩ : Event (spendSig lib)) ∈ tr ∧
      KeysOf tr (standaloneAddrs receivers) (Proposal.transparentInputs proposal)
        keys.standaloneKeys

theorem KeysOf.skip {standalone : List TransparentAddress} {inputs : List WalletTransparentOutput}
    {keys : TransparentAddress → List lib.SecretKey} {input : WalletTransparentOutput}
    (h : KeysOf tr standalone inputs keys)
    (hskip : ∀ address ∈ standalone, (lib.txout input).scriptAddress ≠ some address) :
    KeysOf tr standalone (inputs ++ [input]) keys := by
  intro address
  refine ⟨?_, (h address).2⟩
  rw [(h address).1, List.countP_append]
  split
  case isTrue hmem => simp [hskip address hmem]
  case isFalse => rfl

theorem KeysOf.push {standalone : List TransparentAddress} {inputs : List WalletTransparentOutput}
    {keys : TransparentAddress → List lib.SecretKey} {input : WalletTransparentOutput}
    {address : TransparentAddress} {key : lib.SecretKey} (h : KeysOf tr standalone inputs keys)
    (hmem : address ∈ standalone) (hnamed : (lib.txout input).scriptAddress = some address) :
    KeysOf (tr ++ [⟨.decryptStandaloneTransparentKey address, .ok key⟩]) standalone
      (inputs ++ [input]) (pushKey keys address key) := by
  intro other
  by_cases heq : other = address
  · subst heq
    rw [pushKey, Function.update_self, List.length_append, (h other).1, List.countP_append,
      if_pos hmem, if_pos hmem]
    refine ⟨by simp [hnamed], ?_⟩
    intro k hk
    rcases List.mem_append.mp hk with hk | hk
    · exact List.mem_append_left _ ((h other).2 k hk)
    · obtain rfl := List.mem_singleton.mp hk
      exact List.mem_append_right _ (List.mem_singleton_self _)
  · have hother : (lib.txout input).scriptAddress ≠ some other := by
      rw [hnamed]
      intro hsome
      exact heq (Option.some.inj hsome).symm
    rw [pushKey, Function.update_of_ne heq, (h other).1, List.countP_append]
    refine ⟨by simp [hother], ?_⟩
    intro k hk
    exact List.mem_append_left _ ((h other).2 k hk)

theorem KeysOf.mono {standalone : List TransparentAddress} {inputs : List WalletTransparentOutput}
    {keys : TransparentAddress → List lib.SecretKey} (hsub : tr ⊆ tr')
    (h : KeysOf tr standalone inputs keys) : KeysOf tr' standalone inputs keys := by
  intro address
  refine ⟨(h address).1, ?_⟩
  intro key hkey
  exact hsub ((h address).2 key hkey)

theorem wp_collect {accountId : AccountUuid} {proposal : Proposal} :
    wp (watched Auth) (collectStandaloneTransparentKeys lib accountId proposal)
      (fun tr' keys => Reads tr tr' ∧ ∃ receivers,
        (⟨.getTransparentReceivers accountId true true, .ok receivers⟩ : Event (spendSig lib)) ∈ tr'
          ∧ KeysOf tr' (standaloneAddrs receivers) (Proposal.transparentInputs proposal) keys)
      (fun tr' _ => Reads tr tr') tr := by
  rw [collectStandaloneTransparentKeys, wp_bind, wp_read rfl]
  intro a
  have hread : Reads tr (tr ++ [⟨.getTransparentReceivers accountId true true, a⟩]) := .one rfl
  cases a with
  | error e => exact hread
  | ok receivers =>
      have hasked : (⟨.getTransparentReceivers accountId true true, .ok receivers⟩ :
          Event (spendSig lib)) ∈
          tr ++ [⟨.getTransparentReceivers accountId true true, .ok receivers⟩] :=
        List.mem_append_right _ (List.mem_singleton_self _)
      refine wp_mono ?_ (fun _ _ h => h) (wp_foldlM (fun inputs keys tr' => Reads tr tr' ∧
        (⟨.getTransparentReceivers accountId true true, .ok receivers⟩ : Event (spendSig lib)) ∈ tr'
          ∧ KeysOf tr' (standaloneAddrs receivers) inputs keys) ⟨hread, hasked, ?_⟩ ?_)
      · rintro tr' keys ⟨hread', hasked', hkeys⟩
        exact ⟨hread', receivers, hasked', hkeys⟩
      · intro address
        refine ⟨?_, by rintro _ ⟨⟩⟩
        split <;> rfl
      · rintro done input rest keys tr' - ⟨hread', hasked', hkeys⟩
        unfold collectKey
        split
        case h_1 hnone =>
          refine ⟨hread', hasked', hkeys.skip ?_⟩
          intro address _
          rw [hnone]
          rintro ⟨⟩
        case h_2 address hnamed =>
          split
          case isTrue hmem =>
            rw [wp_bind, wp_read rfl]
            intro b
            have hread'' := hread'.trans
              (.one (e := ⟨.decryptStandaloneTransparentKey address, b⟩) rfl)
            cases b with
            | error e => exact hread''
            | ok key => exact ⟨hread'', List.mem_append_left _ hasked', hkeys.push hmem hnamed⟩
          case isFalse hmem =>
            refine ⟨hread', hasked', hkeys.skip ?_⟩
            intro other hother
            rw [hnamed]
            intro hsome
            exact hmem (Option.some.inj hsome ▸ hother)

theorem wp_spendingKeys {accountId : AccountUuid} {derivation : Zip32Derivation}
    {proposal : Proposal} :
    wp (watched Auth) (spendingKeys lib accountId derivation proposal)
      (fun tr' keys => Reads tr tr' ∧ Signs tr' accountId derivation proposal keys)
      (fun tr' _ => Reads tr tr') tr := by
  rw [spendingKeys, wp_bind, wp_read rfl]
  intro a
  have hread : Reads tr (tr ++ [⟨.decryptSeed derivation.seedFingerprint, a⟩]) := .one rfl
  cases a with
  | error e => exact hread
  | ok seed =>
      simp only [Except.mapError, ends_ok, wp_bind, wp_ofExcept]
      cases husk : lib.fromSeed seed derivation.accountIndex with
      | error e => exact hread
      | ok usk =>
          refine wp_mono ?_ ?_ wp_collect
          · rintro tr' keys ⟨hrest, hkeys⟩
            refine ⟨hread.trans hrest, ⟨seed, hrest.subset ?_, husk⟩, hkeys⟩
            exact List.mem_append_right _ (List.mem_singleton_self _)
          · intro tr' e hrest
            exact hread.trans hrest

/-! ## Transactions -/

/-- Of what was made, something was not accepted. -/
def Unsent (tr : SpendTrace lib) : Prop :=
  ∀ txids ∈ created tr, (accepted tr).length < txids.length

/-- What a run that returns has sent, and what it says. -/
def Delivered (cfg : SpendConfig) (tr : SpendTrace lib) (result : SendResult) : Prop :=
  ∃ txids, created tr = [txids] ∧ result = .new lib txids ∧
    if cfg.broadcast then Stored tr txids (accepted tr) else accepted tr = []

theorem wp_broadcastOne {txids sent rest : List TxId} {txid : TxId}
    (htxids : txids = sent ++ txid :: rest) (hcreated : created tr = [txids])
    (hstored : Stored tr sent (accepted tr)) :
    wp (watched Auth) (broadcastOne lib txid)
      (fun tr' _ => created tr' = [txids] ∧ Stored tr' (sent ++ [txid]) (accepted tr'))
      (fun tr' _ => Unsent tr') tr := by
  have hshort : ∀ tr' : SpendTrace lib, created tr' = [txids] → accepted tr' = accepted tr →
      Unsent tr' := by
    intro tr' hmade hsame txids' hmem
    rw [hmade, List.mem_singleton] at hmem
    rw [hsame, hmem, htxids, ← hstored.length_eq, List.length_append, List.length_cons]
    omega
  rw [broadcastOne, wp_bind, wp_read rfl]
  intro a
  have hmade : created (tr ++ [⟨.getTransaction txid, a⟩]) = [txids] := by
    rw [created_read rfl, hcreated]
  have hsame : accepted (tr ++ [⟨.getTransaction txid, a⟩]) = accepted tr := accepted_read rfl
  match a with
  | .error e => exact hshort _ hmade hsame
  | .ok none => exact hshort _ hmade hsame
  | .ok (some tx) =>
      have hlast : (⟨.getTransaction txid, .ok (some tx)⟩ : Event (spendSig lib)) ∈
          tr ++ [⟨.getTransaction txid, .ok (some tx)⟩] :=
        List.mem_append_right _ (List.mem_singleton_self _)
      have hstored' : Stored (tr ++ [⟨.getTransaction txid, .ok (some tx)⟩]) sent (accepted tr) :=
        hstored.mono (List.subset_append_left _ _)
      refine wp_query.mpr ⟨⟨sent, txid, rest, ?_, ?_, hlast⟩, ?_⟩
      · rw [hmade, htxids]
      · rwa [hsame]
      · rintro b _ ⟨-, rfl⟩
        cases b with
        | error e =>
            refine hshort _ ?_ ?_
            · rw [created_append, hmade]
              rfl
            · rw [accepted_append, hsame]
              exact List.append_nil _
        | ok _ =>
            refine ⟨?_, ?_⟩
            · rw [created_append, hmade]
              rfl
            · rw [accepted_append, hsame]
              exact (hstored'.concat hlast).mono (List.subset_append_left _ _)

/-- From where it is authorized, a run makes transactions once and sends them in their order. -/
theorem wp_run {failure : String} {cfg : SpendConfig} {proposal : Proposal}
    {keys : SpendingKeys lib} (hquiet : Quiet tr) (hauth : Auth tr proposal keys) :
    wp (watched Auth) (run lib failure cfg proposal keys) (Delivered cfg) (fun tr' _ => Unsent tr')
      tr := by
  rw [run, wp_bind]
  refine wp_query.mpr ⟨⟨hquiet, hauth⟩, ?_⟩
  rintro a _ ⟨-, rfl⟩
  cases a with
  | error e =>
      intro txids hmem
      rw [created_append, created_quiet hquiet] at hmem
      cases hmem
  | ok txids =>
      have hmade : created (tr ++ [⟨.createProposedTransactions proposal keys, .ok txids⟩]) =
          [txids.1] := by
        rw [created_append, created_quiet hquiet]
        rfl
      have hnone : accepted (tr ++ [⟨.createProposedTransactions proposal keys, .ok txids⟩]) =
          [] := by
        rw [accepted_append, accepted_quiet hquiet]
        rfl
      simp only [orReport, Except.mapError, ends_ok, broadcastTransactions]
      by_cases hcfg : cfg.broadcast
      · rw [if_pos hcfg, wp_bind]
        refine wp_mono ?_ (fun _ _ h => h) (wp_forM (fun sent tr' => created tr' = [txids.1] ∧
          Stored tr' sent (accepted tr')) ⟨hmade, ?_⟩ ?_)
        · rintro tr' _ ⟨hcreated, hstored⟩
          refine ⟨txids.1, hcreated, rfl, ?_⟩
          rwa [if_pos hcfg]
        · rw [hnone]
          exact .nil
        · rintro sent txid rest tr' htxids ⟨hcreated, hstored⟩
          exact wp_broadcastOne htxids hcreated hstored
      · rw [if_neg hcfg]
        refine ⟨txids.1, hmade, rfl, ?_⟩
        rwa [if_neg hcfg]

end Zallet.Spend
