/-
# `Zallet.Keystore.Sealed` — what the keystore's rows are

A row of the keystore is sealed: its ciphertext is one that the library gave for
the secret that belongs under its key, to recipients of the wallet (`Sound`).
Rows are only added, each under a new key, and added rows are sealed; so are the
recipients, whoever adds them (`Grown`).  That is all that a call relies on of
what happens between its statements, and all that it does itself (`rely`).
-/
import Mathlib.Data.List.Infix
import Zallet.Keystore.Vault
import Zallet.Prog.Rely
import Zallet.Prog.Schedule

namespace Zallet.Vault

open Prog
open Text (utf8)

/-! ## The state -/

structure VaultState where
  recipients : List String
  identities : List Identity
  tables : Store → Table (List UInt8) (List UInt8)
  /-- the wallet's addresses, with the public keys that were imported for them -/
  addresses : List (String × List UInt8)
  accounts : List (AccountUuid × String × Seed)

/-- What is left open of the libraries and the chain: the ciphertexts that may be given, the
identities that decrypt for a recipient, the recipients the wallet has an identity for, and the
height of a view. -/
structure Surroundings where
  encrypts : Format → List String → List UInt8 → List UInt8 → Prop
  opens : Identity → String → Prop
  known : String → Prop
  tipOf : ChainViewRef → ℕ

namespace VaultState

variable (s : VaultState)

def keys (store : Store) : List (List UInt8) := (s.tables store).map (·.1)

def insert (store : Store) (rows : List Row) : VaultState :=
  { s with tables := Function.update s.tables store ((s.tables store).insertAll rows) }

variable {s}

@[simp] theorem insert_tables {store : Store} {rows : List Row} :
    (s.insert store rows).tables store = (s.tables store).insertAll rows :=
  Function.update_self _ _ _

@[simp] theorem insert_tables_ne {store store' : Store} {rows : List Row} (h : store' ≠ store) :
    (s.insert store rows).tables store' = s.tables store' :=
  Function.update_of_ne h _ _

end VaultState

/-! ## What is documented -/

section
variable (lib : VaultLib) (env : Surroundings)

structure Documented : Prop where
  decrypts : ∀ {recipients plaintext ciphertext identities},
    env.encrypts .binary recipients plaintext ciphertext →
    (∃ recipient ∈ recipients, ∃ identity ∈ identities, env.opens identity recipient) →
    lib.decrypt identities ciphertext = .ok plaintext
  authentic : ∀ {recipients plaintext ciphertext identities plaintext'},
    env.encrypts .binary recipients plaintext ciphertext →
    lib.decrypt identities ciphertext = .ok plaintext' → plaintext' = plaintext
  secretKey : ∀ key, lib.secretKeyFromSlice (lib.secretBytes key) = .ok key

/-- It reads as a phrase of the same seed, whose length is right. -/
structure GenuineMnemonic (mnemonic : Mnemonic) : Prop where
  phrase : ∃ mnemonic', lib.mnemonicFromPhrase mnemonic.phrase = .ok mnemonic' ∧
    lib.toSeed mnemonic' = lib.toSeed mnemonic
  fingerprint : (lib.seedFingerprintFromSeed (lib.toSeed mnemonic)).isSome

/-- Its bytes and those of its viewing key read as what they are. -/
structure GenuineKey (key : ExtendedSpendingKey) : Prop where
  bytes : lib.extendedSpendingKeyFromBytes key.bytes = some key
  dfvk : lib.dfvkFromBytes (lib.toDiversifiableFullViewingKey key).bytes =
    some (lib.toDiversifiableFullViewingKey key)
  dfvkLength : (lib.toDiversifiableFullViewingKey key).bytes.length = 128

/-! ## The rows -/

/-- The secret that belongs under a key. -/
def SecretOf : Store → List UInt8 → List UInt8 → Prop
  | .mnemonics, key, secret => ∃ mnemonic seedFp, GenuineMnemonic lib mnemonic ∧
      lib.seedFingerprintFromSeed (lib.toSeed mnemonic) = some seedFp ∧
      key = seedFp.bytes ∧ secret = utf8 mnemonic.phrase
  | .legacySeeds, key, secret => ∃ seed seedFp,
      lib.seedFingerprintFromSeed seed = some seedFp ∧ key = seedFp.bytes ∧ secret = seed.bytes
  | .saplingKeys, key, secret => ∃ extsk, GenuineKey lib extsk ∧
      key = (lib.toDiversifiableFullViewingKey extsk).bytes ∧ secret = extsk.bytes
  | .transparentKeys, key, secret => ∃ secretKey,
      key = (lib.publicKey secretKey).bytes ∧ secret = lib.secretBytes secretKey

/-- The row is of a secret that belongs under its key, encrypted to some of the recipients. -/
def Sealed (recipients : List String) (store : Store) (row : Row) : Prop :=
  ∃ secret whom, SecretOf lib store row.1 secret ∧ whom ≠ [] ∧ whom ⊆ recipients ∧
    env.encrypts .binary whom secret row.2

/-- A seed that is in the keystore. -/
def StoredSeed (s : VaultState) (seed : Seed) : Prop :=
  ∃ seedFp, lib.seedFingerprintFromSeed seed = some seedFp ∧ seedFp.bytes ∈ s.keys .mnemonics

structure Sound (s : VaultState) : Prop where
  rows : ∀ store, ∀ row ∈ s.tables store, Sealed lib env s.recipients store row
  unique : ∀ store, (s.keys store).Nodup
  addresses : ∀ row ∈ s.addresses, row.1 = lib.addressFromPubkey ⟨row.2⟩
  accounts : ∀ account ∈ s.accounts, StoredSeed lib s account.2.2

/-- Nothing is changed or lost, but the identities in memory. -/
structure Grown (s s' : VaultState) : Prop where
  recipients : s.recipients ⊆ s'.recipients
  tables : ∀ store, s.tables store <+: s'.tables store
  addresses : s.addresses ⊆ s'.addresses
  accounts : s.accounts <+: s'.accounts

/-- What may happen between two statements. -/
def Moved (s s' : VaultState) : Prop := Grown s s' ∧ (Sound lib env s → Sound lib env s')

/-! ## What the surroundings do -/

/-- What others than the calls do: the identities are set and cleared, and recipients and addresses
added. -/
structure Outside (s s' : VaultState) : Prop where
  recipients : s.recipients ⊆ s'.recipients
  tables : s'.tables = s.tables
  accounts : s'.accounts = s.accounts
  addresses : s.addresses ⊆ s'.addresses
  imported : ∀ row ∈ s'.addresses, row ∈ s.addresses ∨ row.1 = lib.addressFromPubkey ⟨row.2⟩

/-- The one row that the query by an address finds, if any. -/
def FindsByAddress (s : VaultState) (address : String) : Option (List UInt8) → Prop
  | some encrypted => ∃ pubkey, (address, pubkey) ∈ s.addresses ∧
      (pubkey, encrypted) ∈ s.tables .transparentKeys
  | none => ∀ pubkey, (address, pubkey) ∈ s.addresses → pubkey ∉ s.keys .transparentKeys

/-- How the database, the libraries and the chain answer: what fails changes nothing. -/
def answers (s : VaultState) : (op : VaultOp) → op.Ans → VaultState → Prop
  | .identities, identities, s' => identities = s.identities ∧ s' = s
  | .selectRecipients, .ok recipients, s' => recipients.Perm s.recipients ∧ s' = s
  | .encrypt format recipients plaintext, .ok ciphertext, s' =>
      env.encrypts format recipients plaintext ciphertext ∧ s' = s
  | .insert store rows, .ok _, s' => s' = s.insert store rows
  | .select store key, .ok found, s' => (s.tables store).Finds key found ∧ s' = s
  | .selectKeys store, .ok keys, s' => keys.Perm (s.keys store) ∧ s' = s
  | .selectAll store, .ok rows, s' => rows.Perm (s.tables store) ∧ s' = s
  | .selectByAddress address, .ok found, s' => FindsByAddress s address found ∧ s' = s
  | .tip view, .ok height, s' => height = env.tipOf view ∧ s' = s
  | .treeStateAsOf view height, .ok none, s' => env.tipOf view < height ∧ s' = s
  | .createAccount name seed _, .ok uuid, s' =>
      s' = { s with accounts := s.accounts ++ [(uuid, name, seed)] }
  | _, _, s' => s' = s

/-- Rows are sealed, and accounts are made from seeds that are there. -/
def Allowed (s : VaultState) : VaultOp → Prop
  | .insert store rows => ∀ row ∈ rows, Sealed lib env s.recipients store row
  | .createAccount _ seed _ => StoredSeed lib s seed
  | _ => True

/-- `P` is what more is known of the answers. -/
def vaultWorld (P : VaultState → (op : VaultOp) → op.Ans → Prop) : World vaultSig VaultState where
  step s op a s' := ∃ s₁, Outside lib s s₁ ∧ answers env s₁ op a s' ∧ P s₁ op a
  guard := Allowed lib env
  crash _ := False

/-- Nothing fails that a call needs: statements are done, recipients read, and the keystore is
unlocked, with an identity for every known recipient. -/
def Works : (op : VaultOp) → op.Ans → Prop
  | .identities, identities => identities ≠ [] ∧
      ∀ recipient, env.known recipient → ∃ identity ∈ identities, env.opens identity recipient
  | .handle, a => a.isOk = true
  | .selectRecipients, a =>
      ∃ recipients, a = .ok recipients ∧ (lib.readRecipients recipients).isOk = true
  | .encrypt _ _ _, a => a.isOk = true
  | .insert _ _, a => a.isOk = true
  | .select _ _, a => a.isOk = true
  | .selectKeys _, a => a.isOk = true
  | .selectAll _, a => a.isOk = true
  | .selectByAddress _, a => a.isOk = true
  | _, _ => True

/-- The surroundings serve: nothing fails, and all recipients are known ones. -/
def Serving (P : VaultState → (op : VaultOp) → op.Ans → Prop) : Prop :=
  ∀ s op a, P s op a → (∀ recipient ∈ s.recipients, env.known recipient) ∧ Works lib env op a

end

variable {lib : VaultLib} {env : Surroundings}
  {P : VaultState → (op : VaultOp) → op.Ans → Prop} {s s₁ s₂ s' : VaultState}

/-! ## Nothing is lost -/

theorem Grown.refl (s : VaultState) : Grown s s where
  recipients := List.Subset.refl _
  tables _ := List.prefix_rfl
  addresses := List.Subset.refl _
  accounts := List.prefix_rfl

theorem Grown.trans (h : Grown s s₁) (h' : Grown s₁ s₂) : Grown s s₂ where
  recipients := List.Subset.trans h.recipients h'.recipients
  tables store := (h.tables store).trans (h'.tables store)
  addresses := List.Subset.trans h.addresses h'.addresses
  accounts := h.accounts.trans h'.accounts

theorem Grown.keys (h : Grown s s') (store : Store) : s.keys store ⊆ s'.keys store := by
  intro key hkey
  obtain ⟨row, hrow, rfl⟩ := List.mem_map.mp hkey
  exact List.mem_map_of_mem ((h.tables store).subset hrow)

theorem Moved.refl (s : VaultState) : Moved lib env s s := ⟨.refl s, id⟩

theorem Moved.trans (h : Moved lib env s s₁) (h' : Moved lib env s₁ s₂) : Moved lib env s s₂ :=
  ⟨h.1.trans h'.1, fun hs => h'.2 (h.2 hs)⟩

theorem Sealed.mono {store : Store} {row : Row} (hgrown : Grown s s')
    (h : Sealed lib env s.recipients store row) : Sealed lib env s'.recipients store row := by
  obtain ⟨secret, whom, hsecret, hne, hsub, hencrypted⟩ := h
  exact ⟨secret, whom, hsecret, hne, List.Subset.trans hsub hgrown.recipients, hencrypted⟩

theorem StoredSeed.mono {seed : Seed} (hgrown : Grown s s') (h : StoredSeed lib s seed) :
    StoredSeed lib s' seed := by
  obtain ⟨seedFp, hseedFp, hmem⟩ := h
  exact ⟨seedFp, hseedFp, hgrown.keys .mnemonics hmem⟩

theorem Allowed.mono {op : VaultOp} (hgrown : Grown s s') (h : Allowed lib env s op) :
    Allowed lib env s' op := by
  cases op with
  | insert store rows =>
      intro row hrow
      exact (h row hrow).mono hgrown
  | createAccount name seed birthday => exact StoredSeed.mono hgrown h
  | _ => trivial

/-! ## What the moves are -/

theorem Outside.grown (h : Outside lib s s') : Grown s s' where
  recipients := h.recipients
  tables store := by rw [h.tables]
  addresses := h.addresses
  accounts := by rw [h.accounts]

theorem Outside.moved (h : Outside lib s s') : Moved lib env s s' := by
  refine ⟨h.grown, ?_⟩
  intro hs
  have hkeys : ∀ store, s'.keys store = s.keys store := fun store => by
    rw [VaultState.keys, h.tables]
    rfl
  constructor
  · intro store row hrow
    rw [h.tables] at hrow
    exact (hs.rows store row hrow).mono h.grown
  · intro store
    rw [hkeys]
    exact hs.unique store
  · intro row hrow
    rcases h.imported row hrow with hold | hnew
    · exact hs.addresses row hold
    · exact hnew
  · intro account haccount
    rw [h.accounts] at haccount
    exact (hs.accounts account haccount).mono h.grown

theorem insert_grown {store : Store} {rows : List Row} : Grown s (s.insert store rows) where
  recipients := List.Subset.refl _
  tables store' := by
    by_cases heq : store' = store
    · subst heq
      rw [VaultState.insert_tables]
      exact Table.prefix_insertAll
    · rw [VaultState.insert_tables_ne heq]
  addresses := List.Subset.refl _
  accounts := List.prefix_rfl

theorem insert_moved {store : Store} {rows : List Row}
    (hsealed : ∀ row ∈ rows, Sealed lib env s.recipients store row) :
    Moved lib env s (s.insert store rows) := by
  refine ⟨insert_grown, ?_⟩
  intro hs
  constructor
  · intro store' row hrow
    by_cases heq : store' = store
    · subst heq
      rw [VaultState.insert_tables] at hrow
      rcases Table.mem_insertAll hrow with hold | hnew
      · exact hs.rows store' row hold
      · exact hsealed row hnew
    · rw [VaultState.insert_tables_ne heq] at hrow
      exact hs.rows store' row hrow
  · intro store'
    by_cases heq : store' = store
    · subst heq
      rw [VaultState.keys, VaultState.insert_tables]
      exact Table.nodup_insertAll (hs.unique store')
    · rw [VaultState.keys, VaultState.insert_tables_ne heq]
      exact hs.unique store'
  · exact hs.addresses
  · intro account haccount
    exact (hs.accounts account haccount).mono insert_grown

theorem createAccount_moved {uuid : AccountUuid} {name : String} {seed : Seed}
    (hstored : StoredSeed lib s seed) :
    Moved lib env s { s with accounts := s.accounts ++ [(uuid, name, seed)] } := by
  refine ⟨⟨List.Subset.refl _, fun _ => List.prefix_rfl, List.Subset.refl _,
    List.prefix_append _ _⟩, ?_⟩
  intro hs
  refine ⟨hs.rows, hs.unique, hs.addresses, ?_⟩
  intro account haccount
  rcases List.mem_append.mp haccount with hold | hnew
  · exact hs.accounts account hold
  · rw [List.mem_singleton.mp hnew]
    exact hstored

/-- Operations that change nothing. -/
def VaultOp.reads : VaultOp → Bool
  | .insert _ _ | .createAccount _ _ _ => false
  | _ => true

theorem answers_still {op : VaultOp} (hop : op.reads = true) {a : op.Ans}
    (h : answers env s op a s') : s' = s := by
  cases op with
  | insert | createAccount => cases hop
  | handle | snapshot | chainHeight => exact h
  | identities => exact h.2
  | treeStateAsOf view height =>
      cases a with
      | error e => exact h
      | ok found =>
          cases found with
          | none => exact h.2
          | some chainState => exact h
  | selectRecipients | encrypt | select | selectKeys | selectAll | selectByAddress | tip =>
      cases a with
      | ok a => exact h.2
      | error e => exact h

theorem answers_moved {op : VaultOp} {a : op.Ans} (hallowed : Allowed lib env s op)
    (h : answers env s op a s') : Moved lib env s s' := by
  cases op with
  | insert store rows =>
      cases a with
      | ok _ =>
          obtain rfl : s' = s.insert store rows := h
          exact insert_moved hallowed
      | error e =>
          obtain rfl : s' = s := h
          exact .refl s'
  | createAccount name seed birthday =>
      cases a with
      | ok uuid =>
          obtain rfl : s' = { s with accounts := s.accounts ++ [(uuid, name, seed)] } := h
          exact createAccount_moved hallowed
      | error e =>
          obtain rfl : s' = s := h
          exact .refl s'
  | _ =>
      rw [answers_still rfl h]
      exact .refl s

/-- Whatever a call does is what every call relies on. -/
theorem rely : Rely (vaultWorld lib env P) (Moved lib env) where
  refl := .refl
  trans _ _ _ := .trans
  step s op a s' hallowed h := by
    obtain ⟨s₁, hout, hans, -⟩ := h
    exact hout.moved.trans (answers_moved (hallowed.mono hout.grown) hans)

/-! ## Rules -/

/-- The world of one call among others. -/
abbrev shared (lib : VaultLib) (env : Surroundings)
    (P : VaultState → (op : VaultOp) → op.Ans → Prop) : World vaultSig VaultState :=
  (vaultWorld lib env P).shared (Moved lib env)

section
variable {α ε : Type} {Q : VaultState → α → Prop} {R : VaultState → ε → Prop}

/-- A statement that reads, at some moment. -/
theorem wp_read {op : VaultOp} (hop : op.reads = true) {f : op.Ans → Except ε α}
    (h : ∀ t a, Moved lib env s t → answers env t op a t → P t op a → Ends (Q t) (R t) (f a)) :
    wp (shared lib env P) (query (E := vaultSig) op f) Q R s := by
  rw [wp_query]
  constructor
  · intro t _
    cases op with
    | insert | createAccount => cases hop
    | _ => trivial
  · rintro a s' ⟨t, hmoved, t₁, hout, hans, hP⟩
    obtain rfl := answers_still hop hans
    exact h s' a (hmoved.trans hout.moved) hans hP

theorem wp_insert {store : Store} {rows : List Row} {f : Except String Unit → Except ε α}
    (hsealed : ∀ row ∈ rows, Sealed lib env s.recipients store row)
    (hok : ∀ t, Moved lib env s t → (∀ row ∈ rows, row.1 ∈ t.keys store) →
      Ends (Q t) (R t) (f (.ok ())))
    (herror : ∀ t e, Moved lib env s t → P t (.insert store rows) (.error e) →
      Ends (Q t) (R t) (f (.error e))) :
    wp (shared lib env P) (query (E := vaultSig) (.insert store rows) f) Q R s := by
  rw [wp_query]
  constructor
  · intro t hmoved row hrow
    exact (hsealed row hrow).mono hmoved.1
  · rintro a s' ⟨t, hmoved, t₁, hout, hans, hP⟩
    have hmoved₁ := hmoved.trans hout.moved
    cases a with
    | ok _ =>
        obtain rfl : s' = t₁.insert store rows := hans
        refine hok _ (hmoved₁.trans (insert_moved ?_)) ?_
        · intro row hrow
          exact (hsealed row hrow).mono hmoved₁.1
        · intro row hrow
          rw [VaultState.keys, VaultState.insert_tables]
          exact Table.key_mem_insertAll hrow
    | error e =>
        obtain rfl : s' = t₁ := hans
        exact herror s' e hmoved₁ hP

end

end Zallet.Vault
