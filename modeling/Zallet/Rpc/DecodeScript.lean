/-
# `Zallet.Rpc.DecodeScript` — scripts and the addresses they name

`decodescript`, the outputs of the transaction decoders, which share
`script_to_json`, and the result of `z_importaddress`.  A public key stands in a
script or a request in one of its forms, and its owner's address is the hash of
that form.  The code parses the key and asks for the address of what it parsed,
which is the hash of the compressed form.  So the addresses are the owners' just
when the keys are in compressed form (`addresses_iff`).
-/
import Zallet.Rpc.Amounts
import Zallet.Rpc.Imports

namespace Zallet.DecodeScript

open Prog

/-! ## Scripts -/

inductive TransparentAddress where
  | publicKeyHash (hash : List UInt8)
  | scriptHash (hash : List UInt8)
  deriving DecidableEq, Repr

/-- What the solver makes of a standard script. -/
inductive ScriptKind where
  | pubKeyHash (hash : List UInt8)
  | scriptHash (hash : List UInt8)
  | pubKey (data : List UInt8)
  | multiSig (required : Nat) (pubkeys : List (List UInt8))
  | nullData (data : List (List UInt8))
  deriving DecidableEq, Repr

/-- What is used of the script, key, hash and encoding libraries, for the wallet's network. -/
structure ScriptLib extends KeyLib, MoneyLib where
  /-- of a key, its compressed form -/
  serialize : PublicKey → List UInt8
  hash160 : List UInt8 → List UInt8
  encode : TransparentAddress → String
  hexEncode : List UInt8 → String
  toAsm : List UInt8 → String
  /-- `to_component`, `refine` and `solver::standard` -/
  standard : List UInt8 → Option ScriptKind

structure TransparentScript where
  asm : String
  reqSigs : Option Nat
  kind : String
  addresses : List String
  deriving DecidableEq, Repr

structure ResultType where
  inner : TransparentScript
  p2sh : String
  deriving DecidableEq, Repr

structure TxOut where
  value : Zatoshis
  scriptPubkey : List UInt8

structure TransparentScriptPubKey where
  hex : String
  inner : TransparentScript
  deriving DecidableEq, Repr

structure TransparentOutput (lib : ScriptLib) where
  value : lib.Decimal
  valueZat : Nat
  valueSat : Nat
  n : Nat
  scriptPubKey : TransparentScriptPubKey

/-- `LegacyCode::Deserialization` -/
def deserialization (message : String) : RpcError := ⟨-22, message⟩

section
variable (lib : ScriptLib)

def pubkeyToP2pkhAddress (pubkeyBytes : List UInt8) : Option String :=
  (lib.publicKeyFromSlice pubkeyBytes).map lib.addressFromPubkey

/-- The type of a script, how many signatures it asks for, and its addresses. -/
def detectScriptInfo (code : List UInt8) : String × Option Nat × List String :=
  match lib.standard code with
  | some (.pubKeyHash hash) => ("pubkeyhash", some 1, [lib.encode (.publicKeyHash hash)])
  | some (.scriptHash hash) => ("scripthash", some 1, [lib.encode (.scriptHash hash)])
  | some (.pubKey data) =>
      let addresses := (pubkeyToP2pkhAddress lib data).toList
      ("pubkey", if addresses = [] then none else some 1, addresses)
  | some (.multiSig required pubkeys) =>
      let addresses := pubkeys.filterMap (pubkeyToP2pkhAddress lib)
      ("multisig", if addresses = [] then none else some required, addresses)
  | some (.nullData _) => ("nulldata", none, [])
  | none => ("nonstandard", none, [])

def scriptToJson (code : List UInt8) : TransparentScript :=
  let (kind, reqSigs, addresses) := detectScriptInfo lib code
  ⟨lib.toAsm code, reqSigs, kind, addresses⟩

/-- `decodescript` -/
def call (hexstring : String) : Except RpcError ResultType :=
  match lib.hexDecode hexstring with
  | none => .error (deserialization "Hex decoding failed")
  | some code => .ok ⟨scriptToJson lib code, lib.addressFromScriptHash code⟩

/-- An output, as the decoders of transactions give it. -/
def TransparentOutput.encode (txOut : TxOut) (n : Nat) : TransparentOutput lib where
  value := valueFromZatoshis lib.toMoneyLib txOut.value
  valueZat := txOut.value.value
  valueSat := txOut.value.value
  n := n
  scriptPubKey := ⟨lib.hexEncode txOut.scriptPubkey, scriptToJson lib txOut.scriptPubkey⟩

def transparentOutputs (vout : List TxOut) : List (TransparentOutput lib) :=
  vout.zipIdx.map fun txOut => TransparentOutput.encode lib txOut.1 txOut.2

/-! ## Whose addresses they are -/

/-- The public keys that a script of this kind consists of. -/
def ScriptKind.keys : ScriptKind → Option (List (List UInt8))
  | .pubKey data => some [data]
  | .multiSig _ pubkeys => some pubkeys
  | _ => none

/-- The address that the owner of the key uses: that of the hash of these bytes. -/
def ownersAddress (key : List UInt8) : String := lib.encode (.publicKeyHash (lib.hash160 key))

def Valid (key : List UInt8) : Prop := (lib.publicKeyFromSlice key).isSome

instance : DecidablePred (Valid lib) := fun _ => inferInstanceAs (Decidable (_ = true))

/-- The owners' addresses, of all the valid keys in their order, and no others. -/
def OwnersAddresses (keys : List (List UInt8)) (addresses : List String) : Prop :=
  addresses = (keys.filter (Valid lib ·)).map (ownersAddress lib)

/-- Every valid key is in its compressed form. -/
def Compressed (keys : List (List UInt8)) : Prop := ∀ key ∈ keys, Valid lib key → key.length = 33

/-- What is relied on. -/
structure ScriptLib.Documented : Prop where
  addressFromPubkey : ∀ pubkey, lib.addressFromPubkey pubkey = ownersAddress lib (lib.serialize pubkey)
  serialize_length : ∀ pubkey, (lib.serialize pubkey).length = 33
  serialize_parsed : ∀ {key pubkey}, lib.publicKeyFromSlice key = some pubkey → key.length = 33 →
    lib.serialize pubkey = key

/-- No key has the address of another form of it. -/
def Apart (keys : List (List UInt8)) : Prop :=
  ∀ key ∈ keys, ∀ pubkey, lib.publicKeyFromSlice key = some pubkey →
    ownersAddress lib (lib.serialize pubkey) = ownersAddress lib key → lib.serialize pubkey = key

end

section
variable {lib : ScriptLib}

/-- One key: the address is its owner's just when it is compressed. -/
theorem addressFromPubkey_iff (hlib : lib.Documented) {key : List UInt8} {pubkey : PublicKey}
    (hkey : lib.publicKeyFromSlice key = some pubkey) (hapart : Apart lib [key]) :
    lib.addressFromPubkey pubkey = ownersAddress lib key ↔ key.length = 33 := by
  rw [hlib.addressFromPubkey]
  constructor
  · intro heq
    rw [← hapart key List.mem_cons_self pubkey hkey heq]
    exact hlib.serialize_length pubkey
  · intro hlength
    rw [hlib.serialize_parsed hkey hlength]

theorem filterMap_ownersAddresses (hlib : lib.Documented) {keys : List (List UInt8)}
    (hapart : Apart lib keys) :
    OwnersAddresses lib keys (keys.filterMap (pubkeyToP2pkhAddress lib)) ↔ Compressed lib keys := by
  induction keys with
  | nil => exact iff_of_true rfl (by rintro _ ⟨⟩)
  | cons key keys ih =>
      have hrest : Apart lib keys := fun key' hmem => hapart key' (List.mem_cons_of_mem _ hmem)
      have hcompressed : Compressed lib (key :: keys) ↔
          (Valid lib key → key.length = 33) ∧ Compressed lib keys := List.forall_mem_cons
      rw [hcompressed, ← ih hrest]
      cases hkey : lib.publicKeyFromSlice key with
      | none =>
          have hinvalid : ¬ Valid lib key := by simp [Valid, hkey]
          simp [OwnersAddresses, pubkeyToP2pkhAddress, hkey, hinvalid]
      | some pubkey =>
          have hvalid : Valid lib key := by simp [Valid, hkey]
          have hone : Apart lib [key] := by
            intro key' hmem
            rw [List.mem_singleton.mp hmem]
            exact hapart key List.mem_cons_self
          rw [← addressFromPubkey_iff hlib hkey hone]
          simp [OwnersAddresses, pubkeyToP2pkhAddress, hkey, hvalid]

/-- The addresses of a script of keys. -/
theorem scriptToJson_addresses {code : List UInt8} {kind : ScriptKind}
    {keys : List (List UInt8)} (hkind : lib.standard code = some kind)
    (hkeys : kind.keys = some keys) :
    (scriptToJson lib code).addresses = keys.filterMap (pubkeyToP2pkhAddress lib) := by
  unfold scriptToJson detectScriptInfo
  rw [hkind]
  cases kind with
  | pubKey data =>
      cases hkeys
      simp only [List.filterMap_cons, List.filterMap_nil]
      cases pubkeyToP2pkhAddress lib data <;> rfl
  | multiSig required pubkeys =>
      cases hkeys
      rfl
  | _ => cases hkeys

theorem scriptToJson_iff (hlib : lib.Documented) {code : List UInt8} {kind : ScriptKind}
    {keys : List (List UInt8)} (hkind : lib.standard code = some kind)
    (hkeys : kind.keys = some keys) (hapart : Apart lib keys) :
    OwnersAddresses lib keys (scriptToJson lib code).addresses ↔ Compressed lib keys := by
  rw [scriptToJson_addresses hkind hkeys]
  exact filterMap_ownersAddresses hlib hapart

theorem call_ok {hexstring : String} {code : List UInt8}
    (hcode : lib.hexDecode hexstring = some code) :
    call lib hexstring = .ok ⟨scriptToJson lib code, lib.addressFromScriptHash code⟩ := by
  unfold call
  rw [hcode]

theorem getElem?_transparentOutputs {vout : List TxOut} {n : ℕ} {txOut : TxOut}
    (h : vout[n]? = some txOut) :
    (transparentOutputs lib vout)[n]? = some (TransparentOutput.encode lib txOut n) := by
  simp [transparentOutputs, h]

/-- A key that `z_importaddress` imports is reported with the address of the parsed key. -/
theorem zImportAddress_address {account hexData : String} {rescan : Option Bool}
    {bytes : List UInt8} {pubkey : PublicKey} {tr : Trace importSig} {result : ImportAddressResult}
    (hbytes : lib.hexDecode hexData = some bytes) (hkey : lib.publicKeyFromSlice bytes = some pubkey)
    (h : Run (zImportAddress lib.toKeyLib account hexData rescan) tr (.ret result)) :
    result.address = lib.addressFromPubkey pubkey := by
  have hparse : parseImport lib.toKeyLib hexData =
      .ok (.p2pkh pubkey ⟨"p2pkh", lib.addressFromPubkey pubkey⟩) := by
    unfold parseImport
    rw [hbytes]
    dsimp only
    rw [hkey]
  unfold zImportAddress at h
  obtain ⟨accountId, _, _, -, -, h₁⟩ := h.bind_ret
  obtain ⟨parsed, _, _, -, hparsed, h₂⟩ := h₁.bind_ret
  rw [hparse] at hparsed
  cases hparsed
  obtain ⟨imported, _, _, -, himported, h₃⟩ := h₂.bind_ret
  obtain ⟨_, _, _, -, -, himported⟩ := himported.query_bind_ret
  cases himported
  split at h₃
  case isTrue =>
    obtain ⟨_, _, _, -, -, h₄⟩ := h₃.bind_ret
    cases h₄
    rfl
  case isFalse =>
    cases h₃
    rfl

end

/-- The addresses of a script of keys, in the reply of `decodescript` and in the outputs of the
transaction decoders, and the address in the reply of `z_importaddress` are the owners' just when
the keys are in their compressed form. -/
theorem addresses_iff (lib : ScriptLib) (hlib : lib.Documented) :
    (∀ hexstring code kind keys, lib.hexDecode hexstring = some code →
      lib.standard code = some kind → kind.keys = some keys → Apart lib keys →
      ∃ result, call lib hexstring = .ok result ∧
        (OwnersAddresses lib keys result.inner.addresses ↔ Compressed lib keys)) ∧
    (∀ (vout : List TxOut) (n : ℕ) txOut kind keys, vout[n]? = some txOut →
      lib.standard txOut.scriptPubkey = some kind → kind.keys = some keys → Apart lib keys →
      ∃ output, (transparentOutputs lib vout)[n]? = some output ∧
        (OwnersAddresses lib keys output.scriptPubKey.inner.addresses ↔ Compressed lib keys)) ∧
    ∀ account hexData rescan bytes pubkey tr result, lib.hexDecode hexData = some bytes →
      lib.publicKeyFromSlice bytes = some pubkey → Apart lib [bytes] →
      Run (zImportAddress lib.toKeyLib account hexData rescan) tr (.ret result) →
        (result.address = ownersAddress lib bytes ↔ bytes.length = 33) := by
  refine ⟨?_, ?_, ?_⟩
  · intro hexstring code kind keys hcode hkind hkeys hapart
    exact ⟨_, call_ok hcode, scriptToJson_iff hlib hkind hkeys hapart⟩
  · intro vout n txOut kind keys htxOut hkind hkeys hapart
    exact ⟨_, getElem?_transparentOutputs htxOut, scriptToJson_iff hlib hkind hkeys hapart⟩
  · intro account hexData rescan bytes pubkey tr result hbytes hkey hapart hrun
    rw [zImportAddress_address hbytes hkey hrun]
    exact addressFromPubkey_iff hlib hkey hapart

/-! ## The two forms of one key -/

/-- The public key of the tests of `decodescript`, and its other form. -/
def compressed : List UInt8 :=
  [0x03, 0xb0, 0xda, 0x74, 0x97, 0x30, 0xdc, 0x9b, 0x4b, 0x1f, 0x4a, 0x14, 0xd6, 0x90, 0x28, 0x77,
    0xa9, 0x25, 0x41, 0xf5, 0x36, 0x87, 0x78, 0x85, 0x3d, 0x9c, 0x4a, 0x0c, 0xb7, 0x80, 0x2d, 0xcf,
    0xb2]

def uncompressed : List UInt8 :=
  0x04 :: compressed.drop 1 ++
    [0x5e, 0x01, 0xfc, 0x8f, 0xde, 0x47, 0xc9, 0x6c, 0x98, 0xa4, 0xf3, 0xa8, 0x12, 0x3e, 0x33, 0xa3,
      0x8a, 0x50, 0xcf, 0x90, 0x25, 0xcc, 0x8c, 0x44, 0x94, 0xa5, 0x18, 0xf9, 0x91, 0x79, 0x2b,
      0xb7]

def uncompressedHex : String :=
  "04b0da749730dc9b4b1f4a14d6902877a92541f5368778853d9c4a0cb7802dcfb2" ++
    "5e01fc8fde47c96c98a4f3a8123e33a38a50cf9025cc8c4494a518f991792bb7"

/-- The hashes of the two forms. -/
def compressedHash : List UInt8 :=
  [0x5d, 0xd1, 0xd3, 0xa0, 0x48, 0x11, 0x9c, 0x27, 0xb2, 0x82, 0x93, 0x05, 0x67, 0x24, 0xd9, 0x52,
    0x2f, 0x26, 0xd9, 0x45]

def uncompressedHash : List UInt8 :=
  [0x4d, 0x12, 0x03, 0xc4, 0xc3, 0x78, 0x4a, 0x84, 0x6d, 0x6e, 0xc1, 0x2e, 0x17, 0xda, 0xf8, 0xf0,
    0xa4, 0xab, 0x24, 0xaf]

def compressedAddress : String := "t1SRgDBrpcd4LNMUhGbBfh8S8rs7G335v6R"

def uncompressedAddress : String := "t1Qu7cnr9MtsVk3ZKDvPXhNtJS5BH8ygA35"

/-- The libraries, on this key and the script of its uncompressed form. -/
def lib : ScriptLib where
  seedFingerprintFromStr _ := .error "invalid"
  seedFingerprintToString _ := ""
  hexDecode s :=
    if s = uncompressedHex then some uncompressed
    else if s = "41" ++ uncompressedHex ++ "ac" then some (0x41 :: uncompressed ++ [0xac])
    else none
  accountIdTryFrom n := if n < 2 ^ 31 then .ok n else .error "out of range"
  accountUuidFromStr s := if s = "ffffffff-ffff-ffff-ffff-ffffffffffff" then some ⟨1⟩ else none
  hrpSaplingExtendedSpendingKey := "secret-extended-key-main"
  hrpSaplingPaymentAddress := "zs"
  decodeExtendedSpendingKey _ _ := .error "invalid Bech32 encoding"
  encodeDefaultAddress _ _ := ""
  toDiversifiableFullViewingKey extsk := ⟨extsk.bytes⟩
  ufvkFromSapling _ := .error "unsupported"
  publicKeyFromSlice slice :=
    if slice = compressed ∨ slice = uncompressed then some ⟨compressed⟩ else none
  addressFromPubkey _ := compressedAddress
  addressFromScriptHash _ := "t3"
  redeemParse _ := none
  toMoneyLib := eightPlaces
  serialize _ := compressed
  hash160 bytes := if bytes = compressed then compressedHash
    else if bytes = uncompressed then uncompressedHash else []
  encode address := if address = .publicKeyHash compressedHash then compressedAddress
    else if address = .publicKeyHash uncompressedHash then uncompressedAddress else ""
  hexEncode _ := ""
  toAsm _ := uncompressedHex ++ " OP_CHECKSIG"
  standard code := if code = 0x41 :: uncompressed ++ [0xac] then some (.pubKey uncompressed)
    else none

theorem lib_documented : lib.Documented where
  addressFromPubkey _ := by
    have haddress : compressedAddress = ownersAddress lib compressed := by decide +kernel
    exact haddress
  serialize_length _ := rfl
  serialize_parsed {key pubkey} hkey hlength := by
    have hkey : (if key = compressed ∨ key = uncompressed then some (⟨compressed⟩ : PublicKey)
      else none) = some pubkey := hkey
    split at hkey
    case isTrue hform =>
      rcases hform with rfl | rfl
      · rfl
      · cases hlength
    case isFalse => cases hkey

theorem uncompressed_apart : Apart lib [uncompressed] := by
  have hne : ownersAddress lib compressed ≠ ownersAddress lib uncompressed := by decide +kernel
  intro key hmem pubkey _ heq
  rw [List.mem_singleton.mp hmem] at heq
  exact absurd heq hne

theorem addresses_iff_uncompressed : ∃ result,
    call lib ("41" ++ uncompressedHex ++ "ac") = .ok result ∧
      (OwnersAddresses lib [uncompressed] result.inner.addresses ↔
        Compressed lib [uncompressed]) :=
  (addresses_iff lib lib_documented).1 _ (0x41 :: uncompressed ++ [0xac]) (.pubKey uncompressed) _
    (by decide +kernel) (by decide +kernel) rfl uncompressed_apart

/-- A script that pays to the uncompressed form of a key is reported with the address of the
compressed form. -/
theorem uncompressed_misnamed : ∃ result,
    call lib ("41" ++ uncompressedHex ++ "ac") = .ok result ∧
      result.inner.addresses = [compressedAddress] ∧
      ownersAddress lib uncompressed = uncompressedAddress ∧
      ¬ OwnersAddresses lib [uncompressed] result.inner.addresses := by
  have hcall : call lib ("41" ++ uncompressedHex ++ "ac") =
      .ok ⟨⟨uncompressedHex ++ " OP_CHECKSIG", some 1, "pubkey", [compressedAddress]⟩, "t3"⟩ := by
    decide +kernel
  refine ⟨_, hcall, rfl, by decide +kernel, ?_⟩
  unfold OwnersAddresses
  decide +kernel

end Zallet.DecodeScript
