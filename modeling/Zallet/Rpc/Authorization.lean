/-
# `Zallet.Rpc.Authorization` — who may use the JSON-RPC interface

The users of the configuration and the cookie user, each with a salted hash of
the password (`AuthorizationLayer::new`), and the check of an `Authorization`
header (`is_authorized`).  The header holds the base64 of `user:password`, which
is split at its first colon: a password may have colons in it.  A user name may
not, but `new` takes any name, and so does `zallet rpc add-user`; the password
of such a user is never accepted for that user.  `authorizes_iff` says what this
leaves of it that a header is accepted exactly if it names a user and the user's
password.
-/
import Mathlib.Algebra.Order.Ring.Nat
import Mathlib.Data.Char
import Mathlib.Order.Lattice.Nat
import Zallet.Data.BaseEncoding
import Zallet.Data.Text
import Zallet.Rpc.Error

namespace Zallet.Authorization

open Text (utf8 fromUtf8 fromUtf8_eq_some utf8_injective splitString splitString_eq_some)

/-! ## Password hashes -/

/-- `CtOutput<Hmac<Sha256>>` -/
structure MacOutput where
  bytes : List UInt8
  length : bytes.length = 32
  deriving DecidableEq

structure PasswordHash where
  salt : String
  hash : MacOutput
  deriving DecidableEq

namespace PasswordHash

def fromStr (s : String) : Option PasswordHash := do
  let parts ← splitString '$' s
  let hash ← Base16.decode parts.2.toList
  if h : hash.length = 32 then some ⟨parts.1, hash, h⟩ else none

def toString (h : PasswordHash) : String :=
  h.salt ++ "$" ++ String.ofList (Base16.encode h.hash.bytes)

end PasswordHash

section
variable (hmacSha256 : List UInt8 → List UInt8 → MacOutput)

/-- `hash_password`; the salt is the key. -/
def hashPassword (password salt : String) : MacOutput := hmacSha256 (utf8 salt) (utf8 password)

/-- The salt of 16 bytes is drawn for each password. -/
def PasswordHash.fromBare (salt : List UInt8) (password : String) : PasswordHash :=
  let salt := String.ofList (Base16.encode salt)
  ⟨salt, hashPassword hmacSha256 password salt⟩

def PasswordHash.check (h : PasswordHash) (password : String) : Bool :=
  hashPassword hmacSha256 password h.salt = h.hash

/-! ## The users -/

structure RpcAuthSection where
  user : String
  password : Option String
  pwhash : Option String
  deriving DecidableEq, Repr

/-- A map from names to hashes, the newest entry first. -/
abbrev Users := List (String × PasswordHash)

/-- The entry for a section, with the salt that is drawn if it has a bare password. -/
def userEntry (a : RpcAuthSection) (salt : List UInt8) : Option (String × PasswordHash) :=
  match a.password, a.pwhash with
  | some password, none => some (a.user, .fromBare hmacSha256 salt password)
  | none, some pwhash => (PasswordHash.fromStr pwhash).map (a.user, ·)
  | _, _ => none

/-- What `AuthorizationLayer::new` is given, with the salts that are drawn. -/
structure Setup where
  auth : List (RpcAuthSection × List UInt8)
  cookie : Option (String × PasswordHash)

/-- `AuthorizationLayer::new` -/
def newLayer (setup : Setup) : Option Users := do
  let users ← setup.auth.mapM fun a => userEntry hmacSha256 a.1 a.2
  some (setup.cookie.toList ++ users.reverse)

/-! ## The check -/

/-- A header, by what `to_str` gives. -/
structure HeaderValue where
  toStr : Option String
  deriving DecidableEq

/-- The `user:password` that a header holds. -/
def encodedUserPass (header : HeaderValue) : Option String := do
  let s ← header.toStr
  let s ← s.toList.dropPrefix? "Basic ".toList
  let b ← Base64.decode s
  fromUtf8 b

def isAuthorized (users : Users) (header : HeaderValue) : Bool :=
  match encodedUserPass header with
  | none => false
  | some encoded =>
      match splitString ':' encoded with
      | none => false
      | some (user, pass) =>
          match users.lookup user with
          | none => false
          | some hash => hash.check hmacSha256 pass

/-! ## What is asked for -/

/-- The header with a name and a password. -/
def basic (user pass : String) : HeaderValue :=
  ⟨some (String.ofList ("Basic ".toList ++ Base64.encode (utf8 (user ++ ":" ++ pass))))⟩

/-- The password of a section, or one that its hash is of. -/
def RpcAuthSection.HasPassword (a : RpcAuthSection) (pass : String) : Prop :=
  a.password = some pass ∨
    ∃ pwhash ∈ a.pwhash, ∃ h ∈ PasswordHash.fromStr pwhash, h.check hmacSha256 pass = true

/-- A configured user, or the cookie user, has this password. -/
def Setup.Owns (setup : Setup) (user pass : String) : Prop :=
  (∃ a ∈ setup.auth, a.1.user = user ∧ a.1.HasPassword hmacSha256 pass) ∨
    ∃ c ∈ setup.cookie, c.1 = user ∧ c.2.check hmacSha256 pass = true

def Setup.names (setup : Setup) : List String :=
  setup.auth.map (·.1.user) ++ setup.cookie.toList.map (·.1)

/-- The header names a user with a bare password, and another password with the same hash. -/
def Setup.Collides (setup : Setup) (header : HeaderValue) : Prop :=
  ∃ a ∈ setup.auth, ∃ password ∈ a.1.password, ∃ pass, header = basic a.1.user pass ∧
    pass ≠ password ∧ (PasswordHash.fromBare hmacSha256 a.2 password).check hmacSha256 pass = true

/-- A header is accepted exactly if it names a user and a password of that user, collisions of the
hash apart; and the texts of password hashes are read back. -/
structure Authorizes (setup : Setup) (users : Users) : Prop where
  header : ∀ header, ¬ setup.Collides hmacSha256 header →
    (isAuthorized hmacSha256 users header = true ↔
      ∃ user pass, setup.Owns hmacSha256 user pass ∧ header = basic user pass)
  parsed : ∀ s h, PasswordHash.fromStr s = some h → PasswordHash.fromStr h.toString = some h
  bare : ∀ salt password, PasswordHash.fromStr
    (PasswordHash.fromBare hmacSha256 salt password).toString =
      some (.fromBare hmacSha256 salt password)

/-- Where a name has a colon in it, the part before the first is a name as well, and what then
follows, with each password of the first user, is a password of that one. -/
def ColonsHarmless (setup : Setup) : Prop :=
  ∀ user pass, setup.Owns hmacSha256 user pass → ¬ setup.Collides hmacSha256 (basic user pass) →
    ∀ front rest, user = front ++ ":" ++ rest → ':' ∉ front.toList →
      setup.Owns hmacSha256 front (rest ++ ":" ++ pass)

end

/-! ## Password hashes are read back -/

theorem fromStr_toString {h : PasswordHash} (hsalt : '$' ∉ h.salt.toList) :
    PasswordHash.fromStr h.toString = some h := by
  have hsplit : splitString '$' h.toString =
      some (h.salt, String.ofList (Base16.encode h.hash.bytes)) := by
    rw [splitString_eq_some, PasswordHash.toString]
    exact ⟨by simp, hsalt⟩
  rw [PasswordHash.fromStr, hsplit]
  simp only [Option.bind_eq_bind, Option.bind_some, String.toList_ofList, Base16.decode_encode,
    h.hash.length, dite_true]

theorem salt_of_fromStr {s : String} {h : PasswordHash} (hs : PasswordHash.fromStr s = some h) :
    '$' ∉ h.salt.toList := by
  simp only [PasswordHash.fromStr, Option.bind_eq_bind, Option.bind_eq_some_iff] at hs
  obtain ⟨⟨salt, hash⟩, hsplit, bytes, -, hs⟩ := hs
  split at hs
  · cases hs
    exact (splitString_eq_some.mp hsplit).2
  · cases hs

theorem base16_noDollar (bytes : List UInt8) : '$' ∉ Base16.encode bytes := by
  have hdigit : ∀ n < 16, '$' ≠ Base16.digit n := by decide
  induction bytes with
  | nil => exact List.not_mem_nil
  | cons b bytes ih =>
      have hlt := b.toNat_lt
      rw [Base16.encode, List.mem_cons, List.mem_cons, not_or, not_or]
      exact ⟨hdigit _ (by omega), hdigit _ (by omega), ih⟩

section
variable {hmacSha256 : List UInt8 → List UInt8 → MacOutput} {setup : Setup} {users : Users}
  {header : HeaderValue} {user pass : String}

/-! ## The header -/

theorem encodedUserPass_eq_some {s : String} : encodedUserPass header = some s ↔
    header = ⟨some (String.ofList ("Basic ".toList ++ Base64.encode (utf8 s)))⟩ := by
  simp only [encodedUserPass, Option.bind_eq_bind, Option.bind_eq_some_iff,
    List.dropPrefix?_eq_some_iff, Base64.decode_eq_some, fromUtf8_eq_some]
  constructor
  · rintro ⟨t, ht, rest, ⟨front, hfront, hprefix⟩, bytes, rfl, rfl⟩
    obtain rfl := eq_of_beq hprefix
    obtain ⟨text⟩ := header
    rw [← hfront, String.ofList_toList]
    exact congrArg HeaderValue.mk ht
  · rintro rfl
    exact ⟨_, rfl, _, ⟨_, String.toList_ofList, beq_self_eq_true _⟩, _, rfl, rfl⟩

theorem basic_inj {user' pass' : String} :
    basic user pass = basic user' pass' ↔ user ++ ":" ++ pass = user' ++ ":" ++ pass' := by
  constructor
  · intro h
    have hs := encodedUserPass_eq_some.mpr (rfl : basic user pass = basic user pass)
    rw [h] at hs
    rw [encodedUserPass_eq_some.mpr (rfl : basic user' pass' = basic user' pass')] at hs
    exact (Option.some.inj hs).symm
  · intro h
    rw [basic, h, basic]

/-- A header does not tell where the name ends. -/
theorem basic_shift {front rest : String} :
    basic (front ++ ":" ++ rest) pass = basic front (rest ++ ":" ++ pass) := by
  rw [basic_inj]
  simp only [String.append_assoc]

/-- Which headers are accepted, by the map of the users. -/
theorem isAuthorized_iff : isAuthorized hmacSha256 users header = true ↔
    ∃ user pass, ':' ∉ user.toList ∧ header = basic user pass ∧
      ∃ h, users.lookup user = some h ∧ h.check hmacSha256 pass = true := by
  constructor
  · intro h
    cases henc : encodedUserPass header with
    | none =>
        simp only [isAuthorized, henc] at h
        cases h
    | some encoded =>
        cases hsplit : splitString ':' encoded with
        | none =>
            simp only [isAuthorized, henc, hsplit] at h
            cases h
        | some parts =>
            cases hget : users.lookup parts.1 with
            | none =>
                simp only [isAuthorized, henc, hsplit, hget] at h
                cases h
            | some hash =>
                simp only [isAuthorized, henc, hsplit, hget] at h
                obtain ⟨htext, hcolon⟩ := splitString_eq_some.mp hsplit
                have hencoded : encoded = parts.1 ++ ":" ++ parts.2 := by
                  rw [← String.toList_inj, htext]
                  simp
                refine ⟨parts.1, parts.2, hcolon, ?_, hash, hget, h⟩
                rw [basic, ← hencoded]
                exact encodedUserPass_eq_some.mp henc
  · rintro ⟨user, pass, hcolon, rfl, hash, hget, hcheck⟩
    have henc : encodedUserPass (basic user pass) = some (user ++ ":" ++ pass) :=
      encodedUserPass_eq_some.mpr rfl
    have hsplit : splitString ':' (user ++ ":" ++ pass) = some (user, pass) :=
      splitString_eq_some.mpr ⟨by simp, hcolon⟩
    simp only [isAuthorized, henc, hsplit, hget, hcheck]

/-! ## The users -/

theorem mapM_eq_some {α β : Type} {f : α → Option β} {xs : List α} {ys : List β} :
    xs.mapM f = some ys ↔ List.Forall₂ (fun x y => f x = some y) xs ys := by
  induction xs generalizing ys with
  | nil =>
      rw [List.mapM_nil, List.forall₂_nil_left_iff]
      exact Option.some_inj.trans eq_comm
  | cons x xs ih =>
      simp only [List.mapM_cons, Option.bind_eq_bind, Option.bind_eq_some_iff, ih,
        List.forall₂_cons_left_iff]
      constructor
      · rintro ⟨y, hy, ys', hys, heq⟩
        exact ⟨y, ys', hy, hys, (Option.some.inj heq).symm⟩
      · rintro ⟨y, ys', hy, hys, rfl⟩
        exact ⟨y, hy, ys', hys, rfl⟩

theorem lookup_of_nodup {entries : Users} (h : (entries.map (·.1)).Nodup) {hash : PasswordHash} :
    entries.lookup user = some hash ↔ (user, hash) ∈ entries := by
  rw [List.lookup_eq_some_iff]
  constructor
  · rintro ⟨l, r, rfl, -⟩
    exact List.mem_append_right _ List.mem_cons_self
  · intro hmem
    obtain ⟨l, r, rfl⟩ := List.append_of_mem hmem
    refine ⟨l, r, rfl, ?_⟩
    intro entry hentry
    rw [List.map_append, List.map_cons, List.nodup_append] at h
    rw [bne_iff_ne]
    exact (h.2.2 entry.1 (List.mem_map_of_mem hentry) user List.mem_cons_self).symm

theorem userEntry_name {a : RpcAuthSection × List UInt8} {name : String} {hash : PasswordHash}
    (h : userEntry hmacSha256 a.1 a.2 = some (name, hash)) : name = a.1.user := by
  obtain ⟨⟨sectionUser, password, pwhash⟩, salt⟩ := a
  cases password with
  | none =>
      cases pwhash with
      | none => cases h
      | some pwhash =>
          obtain ⟨parsed, -, heq⟩ := Option.map_eq_some_iff.mp h
          cases heq
          rfl
  | some password =>
      cases pwhash with
      | none =>
          cases h
          rfl
      | some pwhash => cases h

/-- The entry of a section accepts the passwords of the section, and no others but for a collision
with a bare password. -/
theorem userEntry_checks (pass : String) {a : RpcAuthSection × List UInt8} {name : String}
    {hash : PasswordHash} (h : userEntry hmacSha256 a.1 a.2 = some (name, hash)) :
    (a.1.HasPassword hmacSha256 pass → hash.check hmacSha256 pass = true) ∧
      (hash.check hmacSha256 pass = true → a.1.HasPassword hmacSha256 pass ∨
        ∃ password ∈ a.1.password, pass ≠ password ∧
          (PasswordHash.fromBare hmacSha256 a.2 password).check hmacSha256 pass = true) := by
  obtain ⟨⟨sectionUser, password, pwhash⟩, salt⟩ := a
  cases password with
  | none =>
      cases pwhash with
      | none => cases h
      | some pwhash =>
          obtain ⟨parsed, hparsed, heq⟩ := Option.map_eq_some_iff.mp h
          cases heq
          constructor
          · rintro (hbare | ⟨_, ⟨⟩, other, hother, hcheck⟩)
            · cases hbare
            · cases hparsed.symm.trans hother
              exact hcheck
          · intro hcheck
            exact .inl (.inr ⟨pwhash, rfl, hash, hparsed, hcheck⟩)
  | some password =>
      cases pwhash with
      | some pwhash => cases h
      | none =>
          cases h
          constructor
          · rintro (hbare | ⟨_, ⟨⟩, -⟩)
            cases hbare
            exact decide_eq_true rfl
          · intro hcheck
            by_cases hpass : pass = password
            · exact .inl (.inl (hpass ▸ rfl))
            · exact .inr ⟨password, rfl, hpass, hcheck⟩

/-- The map is that of the cookie user and of the sections' entries. -/
theorem newLayer_eq_some (h : newLayer hmacSha256 setup = some users) :
    ∃ entries, List.Forall₂ (fun a entry => userEntry hmacSha256 a.1 a.2 = some entry) setup.auth
      entries ∧ users = setup.cookie.toList ++ entries.reverse := by
  obtain ⟨entries, hentries, heq⟩ := Option.bind_eq_some_iff.mp h
  exact ⟨entries, mapM_eq_some.mp hentries, (Option.some.inj heq).symm⟩

theorem entries_names {auth : List (RpcAuthSection × List UInt8)} {entries : Users}
    (h : List.Forall₂ (fun a entry => userEntry hmacSha256 a.1 a.2 = some entry) auth entries) :
    entries.map (·.1) = auth.map (·.1.user) := by
  induction h with
  | nil => rfl
  | cons hfirst _ ih =>
      rw [List.map_cons, List.map_cons, ih, userEntry_name hfirst]

theorem names_perm (h : newLayer hmacSha256 setup = some users) :
    (users.map (·.1)).Perm setup.names := by
  obtain ⟨entries, hentries, rfl⟩ := newLayer_eq_some h
  rw [List.map_append, List.map_reverse, entries_names hentries, Setup.names]
  exact (List.perm_append_comm).trans (List.Perm.append_right _ (List.reverse_perm _))

theorem mem_users (h : newLayer hmacSha256 setup = some users) {hash : PasswordHash} :
    (user, hash) ∈ users ↔
      (∃ a ∈ setup.auth, userEntry hmacSha256 a.1 a.2 = some (user, hash)) ∨
        ∃ c ∈ setup.cookie, c = (user, hash) := by
  obtain ⟨entries, hentries, rfl⟩ := newLayer_eq_some h
  rw [List.mem_append, List.mem_reverse, or_comm, Option.mem_toList]
  refine or_congr ?_ (by simp)
  constructor
  · intro hmem
    exact RpcResult.forall₂_mem hentries.flip _ hmem
  · rintro ⟨a, ha, hentry⟩
    obtain ⟨entry, hmem, hentry'⟩ := RpcResult.forall₂_mem hentries a ha
    cases hentry.symm.trans hentry'
    exact hmem

theorem entry_of_section (h : newLayer hmacSha256 setup = some users)
    {a : RpcAuthSection × List UInt8} (ha : a ∈ setup.auth) :
    ∃ hash, userEntry hmacSha256 a.1 a.2 = some (a.1.user, hash) := by
  obtain ⟨entries, hentries, -⟩ := newLayer_eq_some h
  obtain ⟨⟨name, hash⟩, -, hentry⟩ := RpcResult.forall₂_mem hentries a ha
  exact ⟨hash, userEntry_name hentry ▸ hentry⟩

/-- What the map of the users accepts is what they own. -/
theorem users_iff_owns (h : newLayer hmacSha256 setup = some users) (hnames : setup.names.Nodup)
    (hcollides : ¬ setup.Collides hmacSha256 (basic user pass)) :
    (∃ hash, users.lookup user = some hash ∧ hash.check hmacSha256 pass = true) ↔
      setup.Owns hmacSha256 user pass := by
  simp only [lookup_of_nodup ((names_perm h).nodup_iff.mpr hnames), mem_users h]
  constructor
  · rintro ⟨hash, ⟨a, ha, hentry⟩ | ⟨c, hc, rfl⟩, hcheck⟩
    · obtain rfl := userEntry_name hentry
      rcases (userEntry_checks pass hentry).2 hcheck with hhas | ⟨password, hpassword, hne, hsame⟩
      · exact .inl ⟨a, ha, rfl, hhas⟩
      · exact absurd ⟨a, ha, password, hpassword, pass, rfl, hne, hsame⟩ hcollides
    · exact .inr ⟨_, hc, rfl, hcheck⟩
  · rintro (⟨a, ha, rfl, hhas⟩ | ⟨c, hc, rfl, hcheck⟩)
    · obtain ⟨hash, hentry⟩ := entry_of_section h ha
      exact ⟨hash, .inl ⟨a, ha, hentry⟩, (userEntry_checks pass hentry).1 hhas⟩
    · exact ⟨c.2, .inr ⟨c, hc, rfl⟩, hcheck⟩

/-- Headers are accepted for the names that have no colon in them. -/
theorem accepted_iff (h : newLayer hmacSha256 setup = some users) (hnames : setup.names.Nodup)
    (hcollides : ¬ setup.Collides hmacSha256 header) :
    isAuthorized hmacSha256 users header = true ↔
      ∃ user pass, ':' ∉ user.toList ∧ header = basic user pass ∧
        setup.Owns hmacSha256 user pass := by
  rw [isAuthorized_iff]
  constructor
  · rintro ⟨user, pass, hcolon, rfl, hget⟩
    exact ⟨user, pass, hcolon, rfl, (users_iff_owns h hnames hcollides).mp hget⟩
  · rintro ⟨user, pass, hcolon, rfl, howns⟩
    exact ⟨user, pass, hcolon, rfl, (users_iff_owns h hnames hcollides).mpr howns⟩

/-- The layer does what is asked for exactly if the colons in names are harmless. -/
theorem authorizes_iff (hmacSha256 : List UInt8 → List UInt8 → MacOutput) (setup : Setup)
    (users : Users) (h : newLayer hmacSha256 setup = some users) (hnames : setup.names.Nodup) :
    Authorizes hmacSha256 setup users ↔ ColonsHarmless hmacSha256 setup := by
  constructor
  · intro hall user pass howns hcollides front rest hname hfront
    have haccepted := (hall.header _ hcollides).mpr ⟨user, pass, howns, rfl⟩
    obtain ⟨user', pass', hcolon, heq, howns'⟩ := (accepted_iff h hnames hcollides).mp haccepted
    rw [hname, basic_shift, basic_inj, ← String.toList_inj] at heq
    simp only [String.toList_append] at heq
    obtain ⟨hfront', hrest⟩ := Text.split_unique hfront hcolon (by simpa using heq)
    have hrest : rest ++ ":" ++ pass = pass' := by
      rw [← String.toList_inj]
      simpa using hrest
    rw [String.toList_inj.mp hfront', hrest]
    exact howns'
  · intro hharmless
    refine ⟨?_, fun s h hs => fromStr_toString (salt_of_fromStr hs), ?_⟩
    · intro header hcollides
      rw [accepted_iff h hnames hcollides]
      constructor
      · rintro ⟨user, pass, -, rfl, howns⟩
        exact ⟨user, pass, howns, rfl⟩
      · rintro ⟨user, pass, howns, rfl⟩
        by_cases hcolon : ':' ∈ user.toList
        · obtain ⟨front, rest, hname, hfront⟩ := List.eq_append_cons_of_mem hcolon
          have hname : user = String.ofList front ++ ":" ++ String.ofList rest := by
            rw [← String.toList_inj, hname]
            simp
          have hfront : ':' ∉ (String.ofList front).toList := by rwa [String.toList_ofList]
          refine ⟨_, _, hfront, ?_, hharmless user pass howns hcollides _ _ hname hfront⟩
          rw [hname, basic_shift]
        · exact ⟨user, pass, hcolon, rfl, howns⟩
    · intro salt password
      refine fromStr_toString ?_
      rw [PasswordHash.fromBare, String.toList_ofList]
      exact base16_noDollar salt

/-- Without colons in the names there is nothing to ask for. -/
theorem colonsHarmless_of_none (h : ∀ name ∈ setup.names, ':' ∉ name.toList) :
    ColonsHarmless hmacSha256 setup := by
  intro user pass howns _ front rest hname _
  have hmem : user ∈ setup.names := by
    rcases howns with ⟨a, ha, rfl, -⟩ | ⟨c, hc, rfl, -⟩
    · exact List.mem_append_left _ (List.mem_map_of_mem ha)
    · exact List.mem_append_right _ (List.mem_map_of_mem (Option.mem_toList.mpr hc))
  refine absurd ?_ (h user hmem)
  rw [hname]
  simp

/-! ### A name with a colon -/

/-- A function of the type of the hash. -/
def paddedMac (_ message : List UInt8) : MacOutput where
  bytes := (message ++ List.replicate 32 0).take 32
  length := by simp

/-- One user with a bare password. -/
def oneUser (user pass : String) : Setup := ⟨[(⟨user, some pass, none⟩, List.replicate 16 0)], none⟩

def oneEntry (user pass : String) : Users :=
  [(user, .fromBare paddedMac (List.replicate 16 0) pass)]

/-- Colons in passwords are harmless. -/
theorem authorizes_iff_alice :
    newLayer paddedMac (oneUser "alice" "a:b") = some (oneEntry "alice" "a:b") ∧
      (oneUser "alice" "a:b").names.Nodup ∧
      Authorizes paddedMac (oneUser "alice" "a:b") (oneEntry "alice" "a:b") := by
  have hnames : (oneUser "alice" "a:b").names.Nodup := List.nodup_singleton _
  refine ⟨rfl, hnames, (authorizes_iff paddedMac _ _ rfl hnames).mpr (colonsHarmless_of_none ?_)⟩
  intro name hname
  obtain rfl := List.mem_singleton.mp hname
  decide

/-- The user `a:b` cannot authenticate. -/
theorem colon_refused :
    newLayer paddedMac (oneUser "a:b" "p") = some (oneEntry "a:b" "p") ∧
      (oneUser "a:b" "p").names.Nodup ∧
      (oneUser "a:b" "p").Owns paddedMac "a:b" "p" ∧
      isAuthorized paddedMac (oneEntry "a:b" "p") (basic "a:b" "p") = false ∧
      ¬ Authorizes paddedMac (oneUser "a:b" "p") (oneEntry "a:b" "p") := by
  have howns : (oneUser "a:b" "p").Owns paddedMac "a:b" "p" :=
    .inl ⟨_, List.mem_cons_self, rfl, .inl rfl⟩
  have hcollides : ¬ (oneUser "a:b" "p").Collides paddedMac (basic "a:b" "p") := by
    rintro ⟨a, ha, password, hpassword, pass, heq, hne, -⟩
    obtain rfl := List.mem_singleton.mp ha
    cases hpassword
    rw [basic_inj, String.append_right_inj] at heq
    exact hne heq.symm
  have hrefused : isAuthorized paddedMac (oneEntry "a:b" "p") (basic "a:b" "p") = false := by
    rw [Bool.eq_false_iff]
    intro haccepted
    obtain ⟨user, pass, hcolon, heq, hash, hget, -⟩ := isAuthorized_iff.mp haccepted
    rw [basic_inj, ← String.toList_inj] at heq
    have hsplit : ['a'] ++ ':' :: ['b', ':', 'p'] = user.toList ++ ':' :: pass.toList := by
      simpa using heq
    have hfront : ':' ∉ ['a'] := by decide
    obtain ⟨huser, -⟩ := Text.split_unique hfront hcolon hsplit
    obtain rfl : user = "a" := String.toList_inj.mp huser.symm
    have hnone : (oneEntry "a:b" "p").lookup "a" = none := by
      rw [oneEntry, List.lookup_cons]
      rfl
    rw [hnone] at hget
    cases hget
  refine ⟨rfl, List.nodup_singleton _, howns, hrefused, ?_⟩
  intro hall
  have haccepted := (hall.header _ hcollides).mpr ⟨"a:b", "p", howns, rfl⟩
  rw [hrefused] at haccepted
  cases haccepted

end

end Zallet.Authorization
