/-
# `Zallet.Process.Credentials` — whether `zallet rpc` gets in

`zallet rpc` sends a configured password, or else the cookie that it reads.
While a process has the lock, either is one that its server accepts
(`rpc_accepted`): a cookie that another server left is not there any more.
-/
import Mathlib.Data.Bool.AllAny
import Zallet.Process.Together

namespace Zallet.Process

open Prog Authorization Directory
open Text (utf8)

section
variable {hmacSha256 : List UInt8 → List UInt8 → MacOutput} {random : List UInt8 → Prop}
  {ι : Type} [DecidableEq ι] {configs : ι → Config} {datadir password : String}
  {s s' : State ι} {d : Dir String} {i : ι}

/-! ## What `zallet rpc` sends -/

theorem mem_encodeString {bytes : List UInt8} {c : Char} (h : c ∈ (encodeString bytes).toList) :
    33 ≤ c.toNat ∧ c.toNat < 127 ∧ ZcashConf.isWhitespace c = false := by
  rw [encodeString, String.toList_ofList] at h
  have hdigit : ∀ n < 64, 33 ≤ (Base64.digit n).toNat ∧ (Base64.digit n).toNat < 127 ∧
      ZcashConf.isWhitespace (Base64.digit n) = false := by decide
  rcases Base64.mem_encode h with rfl | ⟨n, hn, rfl⟩
  · decide
  · exact hdigit n hn

theorem encodeString_ne_nil {bytes : List UInt8} (h : bytes ≠ []) :
    (encodeString bytes).toList ≠ [] := by
  rw [encodeString, String.toList_ofList]
  fun_cases Base64.encode bytes with
  | case1 => exact absurd rfl h
  | _ => exact List.cons_ne_nil _ _

/-- A header can always be made of credentials, and it is the one with them. -/
theorem authHeader_eq (user pass : String) :
    authHeader (user ++ ":" ++ pass) = .ok (basic user pass) := by
  have hall : ∀ c ∈ ("Basic " ++ encodeString (utf8 (user ++ ":" ++ pass))).toList,
      32 ≤ c.toNat ∧ c.toNat < 127 := by
    have hbasic : ∀ c ∈ "Basic ".toList, 32 ≤ c.toNat ∧ c.toNat < 127 :=
      List.all_iff_forall_prop.mp rfl
    intro c hc
    rw [String.toList_append, List.mem_append] at hc
    rcases hc with hc | hc
    · exact hbasic c hc
    · have hvisible := mem_encodeString hc
      omega
  have hcontrol : (("Basic " ++ encodeString (utf8 (user ++ ":" ++ pass))).toList.all
      fun c => c.toNat = 9 ∨ 32 ≤ c.toNat ∧ c.toNat ≠ 127) = true := by
    refine List.all_eq_true.mpr fun c hc => decide_eq_true ?_
    have hvisible := hall c hc
    omega
  have hascii : (("Basic " ++ encodeString (utf8 (user ++ ":" ++ pass))).toList.all
      fun c => c.toNat < 127) = true :=
    List.all_eq_true.mpr fun c hc => decide_eq_true (hall c hc).2
  have htext : "Basic " ++ encodeString (utf8 (user ++ ":" ++ pass)) =
      String.ofList ("Basic ".toList ++ Base64.encode (utf8 (user ++ ":" ++ pass))) := by
    rw [String.ofList_append, String.ofList_toList]
    rfl
  rw [authHeader, headerFromStr, if_pos hcontrol, if_pos hascii, Option.elim_some, basic, htext]

/-- The text of the cookie that is there. -/
theorem Put.text {text : String} (h : Put datadir password d)
    (hread : ∃ file, d.read (cookiePath datadir) = some file ∧
      Text.fromUtf8 file.bytes = some text) : text = cookieText password := by
  obtain ⟨file, hfile, htext⟩ := hread
  obtain ⟨n, hn, hget⟩ := d.read_eq_some.mp hfile
  obtain ⟨file', hget', hbytes, -⟩ := h n hn
  cases hget.symm.trans hget'
  exact Text.utf8_injective ((Text.fromUtf8_eq_some.mp htext).symm.trans hbytes)

/-- What was written as a cookie is read as it is. -/
theorem cookieOfText_drawn (h : Drawn random password) :
    cookieOfText (cookieText password) = .ok (cookieText password) := by
  obtain ⟨bytes, hlength, -, rfl⟩ := h
  have htext : (cookieText (encodeString bytes)).toList =
      (cookieUser ++ ":").toList ++ (encodeString bytes).toList := by
    rw [cookieText, String.toList_append]
  have hne : (encodeString bytes).toList ≠ [] := encodeString_ne_nil (by
    rintro rfl
    cases hlength)
  have htrim : Text.trim ZcashConf.isWhitespace (cookieText (encodeString bytes)).toList =
      (cookieText (encodeString bytes)).toList := by
    refine Text.trim_of_clean ?_ ?_
    · rintro c hc
      rw [htext, List.head?_append_of_ne_nil _ (by decide)] at hc
      cases hc
      rfl
    · intro c hc
      rw [htext, List.getLast?_append_of_ne_nil _ hne] at hc
      exact (mem_encodeString (List.mem_of_getLast? hc)).2.2
  rw [cookieOfText, htrim, String.ofList_toList, if_pos]
  rw [htext]
  exact List.prefix_append _ _

section
variable {config : Config} {users : Users}

/-- The users have different names, of whom the cookie's is one. -/
theorem Serves.names (h : Serves hmacSha256 random config users (some password))
    (hnames : (config.auth.map (·.user)).Nodup) {setup : Setup} {salt : List UInt8}
    (hauth : setup.auth.map Prod.fst = config.auth)
    (hcookie : setup.cookie = some (cookieUser, .fromBare hmacSha256 salt password)) :
    setup.names.Nodup := by
  have hsections : setup.auth.map (fun a => a.1.user) = config.auth.map (·.user) := by
    rw [← hauth, List.map_map]
    rfl
  rw [Setup.names, hsections, hcookie, List.nodup_append]
  refine ⟨hnames, List.nodup_singleton _, ?_⟩
  rintro name hname other hother rfl
  obtain ⟨a, ha, rfl⟩ := List.mem_map.mp hname
  have hnone := h.user.mp ⟨a, ha, List.mem_singleton.mp hother⟩
  cases hnone

theorem Serves.lookup {cookie : Option String} (h : Serves hmacSha256 random config users cookie)
    (hnames : (config.auth.map (·.user)).Nodup) :
    ∃ setup : Setup, newLayer hmacSha256 setup = some users ∧
      setup.auth.map Prod.fst = config.auth ∧ (users.map (·.1)).Nodup ∧
        ∀ pw ∈ cookie, ∃ salt, setup.cookie = some (cookieUser, .fromBare hmacSha256 salt pw) := by
  obtain ⟨setup, hlayer, hauth, hnone, hcookie⟩ := h.layer
  refine ⟨setup, hlayer, hauth, (names_perm hlayer).nodup_iff.mpr ?_, hcookie⟩
  cases cookie with
  | none =>
      have hsections : setup.auth.map (fun a => a.1.user) = config.auth.map (·.user) := by
        rw [← hauth, List.map_map]
        rfl
      rw [Setup.names, hsections, hnone rfl, Option.toList_none, List.map_nil, List.append_nil]
      exact hnames
  | some pw =>
      obtain ⟨salt, hsome⟩ := hcookie pw rfl
      exact h.names hnames hauth hsome

/-- A configured password is accepted. -/
theorem Serves.accepts {cookie : Option String} (h : Serves hmacSha256 random config users cookie)
    (hnames : (config.auth.map (·.user)).Nodup) {a : RpcAuthSection} (ha : a ∈ config.auth)
    (hcolon : ':' ∉ a.user.toList) {pass : String} (hpass : a.password = some pass) :
    isAuthorized hmacSha256 users (basic a.user pass) = true := by
  obtain ⟨setup, hlayer, hauth, hnodup, -⟩ := h.lookup hnames
  rw [← hauth] at ha
  obtain ⟨section', hsection, rfl⟩ := List.mem_map.mp ha
  obtain ⟨hash, hentry⟩ := entry_of_section hlayer hsection
  refine isAuthorized_iff.mpr ⟨_, pass, hcolon, rfl, hash, ?_, ?_⟩
  · exact (lookup_of_nodup hnodup).mpr ((mem_users hlayer).mpr (.inl ⟨section', hsection, hentry⟩))
  · exact (userEntry_checks pass hentry).1 (.inl hpass)

/-- And so is the cookie's. -/
theorem Serves.accepts_cookie (h : Serves hmacSha256 random config users (some password))
    (hnames : (config.auth.map (·.user)).Nodup) :
    isAuthorized hmacSha256 users (basic cookieUser password) = true := by
  obtain ⟨setup, hlayer, -, hnodup, hcookie⟩ := h.lookup hnames
  obtain ⟨salt, hsome⟩ := hcookie password rfl
  have hlookup := (lookup_of_nodup hnodup).mpr ((mem_users hlayer).mpr (.inr ⟨_, hsome, rfl⟩))
  exact isAuthorized_iff.mpr ⟨cookieUser, password, by decide, rfl, _, hlookup, decide_eq_true rfl⟩

end

/-- A header that the server accepts, or none because the cookie could not be read. -/
def Sent (hmacSha256 : List UInt8 → List UInt8 → MacOutput) (datadir : String) (users : Users)
    (tr : Trace procSig) (header : Option HeaderValue) : Prop :=
  (∃ value, header = some value ∧ isAuthorized hmacSha256 users value = true) ∨
    header = none ∧ ∃ e : IoError,
      (⟨.file (.readToString (cookiePath datadir)), .error e⟩ : Event procSig) ∈ tr

/-- A file is read as it is in the directory. -/
def ReadFrom (d : Dir String) (e : Event procSig) : Prop :=
  ∀ path text, e = ⟨.file (.readToString path), .ok text⟩ →
    ∃ file, d.read path = some file ∧ Text.fromUtf8 file.bytes = some text

/-- The world of `zallet rpc`, where a client must have credentials that are accepted. -/
abbrev cliWorld (hmacSha256 : List UInt8 → List UInt8 → MacOutput) (datadir : String)
    (users : Users) (d : Dir String) : World procSig (Trace procSig) :=
  World.recall (ReadFrom d) (fun tr op => ∀ addr header, op = .buildClient addr header →
    Sent hmacSha256 datadir users tr header) fun _ => False

section
variable {users : Users} {tr : Trace procSig} {header : Option HeaderValue}

theorem Sent.append (h : Sent hmacSha256 datadir users tr header) (more : Trace procSig) :
    Sent hmacSha256 datadir users (tr ++ more) header := by
  rcases h with haccepted | ⟨hnone, e, he⟩
  · exact .inl haccepted
  · exact .inr ⟨hnone, e, List.mem_append_left _ he⟩

theorem wp_buildClient {addrs : List String} (h : Sent hmacSha256 datadir users tr header) :
    wp (cliWorld hmacSha256 datadir users d) (buildClient header addrs) (fun _ _ => True)
      (fun _ _ => True) tr := by
  induction addrs generalizing tr with
  | nil => trivial
  | cons addr addrs ih =>
      rw [buildClient, wp_bind, wp_ask]
      refine ⟨?_, ?_⟩
      · rintro _ _ ⟨⟩
        exact h
      · rintro a t ⟨-, rfl⟩
        cases a with
        | ok _ => trivial
        | error e => exact ih (h.append _)

theorem wp_connect {bind : List String} (h : Sent hmacSha256 datadir users tr header) :
    wp (cliWorld hmacSha256 datadir users d) (connect header bind) (fun _ _ => True)
      (fun _ _ => True) tr := by
  rw [connect]
  by_cases hbind : bind = []
  · rw [if_pos hbind]
    trivial
  · rw [if_neg hbind]
    exact wp_buildClient h

theorem wp_send {parses : String → Bool} {command : String} {params : List String} :
    wp (cliWorld hmacSha256 datadir users d) (send parses command params) (fun _ _ => True)
      (fun _ _ => True) tr := by
  cases hfind : params.find? fun param => !parses param with
  | some param =>
      simp only [send, hfind]
      trivial
  | none =>
      simp only [send, hfind]
      rw [wp_query]
      refine ⟨(fun _ _ h => nomatch h), ?_⟩
      intro a t' _
      cases a <;> trivial

/-- The credentials are those of a user, or there are none because the cookie could not be read. -/
def Found (hmacSha256 : List UInt8 → List UInt8 → MacOutput) (datadir : String) (users : Users)
    (tr : Trace procSig) (creds : Option String) : Prop :=
  (∃ user pass, creds = some (user ++ ":" ++ pass) ∧
    isAuthorized hmacSha256 users (basic user pass) = true) ∨
  creds = none ∧ Sent hmacSha256 datadir users tr none

/-- With good credentials, the header is good. -/
theorem wp_rpcCli {config : Config} {parses : String → Bool} {command : String}
    {params : List String}
    (h : wp (cliWorld hmacSha256 datadir users d) (credentials config)
      (Found hmacSha256 datadir users) (fun _ _ => True) tr) :
    wp (cliWorld hmacSha256 datadir users d) (rpcCli parses config command params)
      (fun _ _ => True) (fun _ _ => True) tr := by
  rw [rpcCli, wp_bind, wp_mapErr]
  refine wp_mono ?_ (fun _ _ h => h) h
  intro t creds hcreds
  have hheader : ∃ header, creds.mapM authHeader = .ok header ∧
      Sent hmacSha256 datadir users t header := by
    rcases hcreds with ⟨user, pass, rfl, haccepted⟩ | ⟨rfl, hsent⟩
    · refine ⟨some (basic user pass), ?_, .inl ⟨_, rfl, haccepted⟩⟩
      rw [Option.mapM_some, authHeader_eq]
      exact map_pure some (basic user pass)
    · exact ⟨none, rfl, hsent⟩
  obtain ⟨header, hmap, hsent⟩ := hheader
  rw [hmap, wp_bind, wp_ofExcept, ends_ok, wp_bind]
  exact wp_mono (fun _ _ _ => wp_send) (fun _ _ h => h) (wp_connect hsent)

theorem Serves.found {config : Config} (h : Serves hmacSha256 random config users (some password))
    (hnames : (config.auth.map (·.user)).Nodup) (tr : Trace procSig) :
    Found hmacSha256 datadir users tr (some (cookieText password)) :=
  .inl ⟨cookieUser, password, rfl, h.accepts_cookie hnames⟩

omit [DecidableEq ι] in
/-- The credentials that are found while the server of a process is there, and the process has the
lock. -/
theorem wp_credentials {before : Dir String} {guard : Option String}
    (hinv : Inv hmacSha256 random configs (configs i).datadir before s)
    (hholder : s.holder = some i) (hspawned : s.spawned i = some (users, guard))
    (hnames : ((configs i).auth.map (·.user)).Nodup)
    (hcolon : ∀ a ∈ (configs i).auth, ':' ∉ a.user.toList)
    (hpassword : (∃ a ∈ (configs i).auth, a.user = cookieUser) →
      ∃ a ∈ (configs i).auth, a.password.isSome) :
    wp (cliWorld hmacSha256 (configs i).datadir users s.dir) (credentials (configs i))
      (Found hmacSha256 (configs i).datadir users) (fun _ _ => True) [] := by
  obtain ⟨cookie, hserves, -, hput⟩ := hinv.serves i users guard hspawned
  cases hconf : configuredCredentials (configs i) with
  | some creds =>
      simp only [credentials, hconf]
      obtain ⟨a, ha, hcreds⟩ := List.exists_of_findSome?_eq_some hconf
      obtain ⟨pass, hpass, rfl⟩ := Option.map_eq_some_iff.mp hcreds
      exact .inl ⟨a.user, pass, rfl, hserves.accepts hnames ha (hcolon a ha) hpass⟩
  | none =>
      simp only [credentials, hconf]
      have hnone : ∀ a ∈ (configs i).auth, a.password = none := by
        intro a ha
        exact Option.map_eq_none_iff.mp (List.findSome?_eq_none_iff.mp hconf a ha)
      -- without a password in the configuration there is no cookie user in it either
      have hcookie : cookie ≠ none := by
        intro h
        obtain ⟨a, ha, hsome⟩ := hpassword (hserves.user.mpr h)
        rw [hnone a ha] at hsome
        cases hsome
      obtain ⟨pw, rfl⟩ := Option.ne_none_iff_exists'.mp hcookie
      rw [wp_bind, wp_attempt, readCookie, wp_bind, wp_query]
      refine ⟨(fun _ _ h => nomatch h), ?_⟩
      rintro a t ⟨hread, rfl⟩
      cases a with
      | error e => exact .inr ⟨rfl, .inr ⟨rfl, e, List.mem_singleton_self _⟩⟩
      | ok text =>
          have htext := (hput hholder pw rfl).text (hread _ text rfl)
          have hcookie : cookieOfText text = .ok text := by
            rw [htext]
            exact cookieOfText_drawn (hserves.drawn pw rfl)
          rw [Except.mapError, ends_ok, hcookie, htext]
          exact hserves.found hnames _

/-- As long as the process of a server has the lock, and whatever other processes were started,
died or stopped: what `zallet rpc` sends is what the server accepts.  It sends nothing only if it
could not read the cookie. -/
theorem rpc_accepted (hdatadir : ∀ i, (configs i).datadir = datadir)
    (hnone : ∀ i, s.spawned i = none) {tr : List ((ι × Role) × Event procSig)}
    {qs : ι × Role → ProcProg Unit} (h : Interleave (starts hmacSha256 configs) tr qs)
    (hpath : Paths (fun t => aliveStep t.1) s tr s') {guard : Option String}
    (hholder : s'.holder = some i) (hspawned : s'.spawned i = some (users, guard))
    (hnames : ((configs i).auth.map (·.user)).Nodup)
    (hcolon : ∀ a ∈ (configs i).auth, ':' ∉ a.user.toList)
    (hpassword : (∃ a ∈ (configs i).auth, a.user = cookieUser) →
      ∃ a ∈ (configs i).auth, a.password.isSome)
    {parses : String → Bool} {command : String} {params : List String} {tr' : Trace procSig}
    {q : CliProg String} (hrun : Run (rpcCli parses (configs i) command params) tr' q)
    (hread : ∀ e ∈ tr', ReadFrom s'.dir e) {addr : String}
    {answer : Except String Unit}
    (hsent : (⟨.buildClient addr header, answer⟩ : Event procSig) ∈ tr') :
    Sent hmacSha256 datadir users tr' header := by
  have hinv := starts_inv hdatadir hnone h hpath
  rw [← hdatadir i] at hinv ⊢
  have hwp : wp (cliWorld hmacSha256 (configs i).datadir users s'.dir)
      (rpcCli parses (configs i) command params) (fun _ _ => True) (fun _ _ => True) [] :=
    wp_rpcCli (wp_credentials hinv hholder hspawned hnames hcolon hpassword)
  obtain ⟨l, r, rfl⟩ := List.append_of_mem hsent
  have hbefore : Path (cliWorld hmacSha256 (configs i).datadir users s'.dir).step [] l l :=
    Path.recall fun e he => hread e (List.mem_append_left _ he)
  exact (hwp.guarded hrun hbefore addr header rfl).append _

end

end

/-! ### In the middle of a start -/

/-- The cookie that `zallet rpc` reads there. -/
def newCookie : String := cookieText (encodeString (List.replicate 32 7))

def cliAnswer : Answer procSig Calm
  | c, .file (.readToString path) =>
      if path = cookiePath "/zallet" then (.ok newCookie, c) else (.error ⟨.notFound, ""⟩, c)
  | c, op => ((calmAnswer (true, .main) c op).1, c)

theorem newCookie_read :
    ∃ file, startRun.2.1.dir.read (cookiePath "/zallet") = some file ∧
      Text.fromUtf8 file.bytes = some newCookie := by
  have hread : ((startRun.2.1.dir.read (cookiePath "/zallet")).map (·.bytes)) =
      some (utf8 newCookie) := by decide +kernel
  obtain ⟨file, hfile, hbytes⟩ := Option.map_eq_some_iff.mp hread
  exact ⟨file, hfile, Text.fromUtf8_eq_some.mpr hbytes⟩

def cliRun : Trace procSig × Calm × CliProg String :=
  exec cliAnswer 10 startRun.2.1 (rpcCli (fun _ => true) localConfig "getwalletinfo" [])

theorem cliRun_read : ∀ e ∈ cliRun.1, ReadFrom startRun.2.1.dir e := by
  refine exec_forall ?_ _ _ _
  intro c op path text heq
  obtain ⟨rfl, hans⟩ := Event.mk.inj heq
  have hans : (cliAnswer c (.file (.readToString path))).1 = .ok text := eq_of_heq hans
  rw [cliAnswer] at hans
  by_cases hpath : path = cookiePath "/zallet"
  · rw [if_pos hpath] at hans
    cases hans
    exact hpath ▸ newCookie_read
  · rw [if_neg hpath] at hans
    cases hans

/-- The header that a client is built with. -/
def clientHeader (e : Event procSig) : Option (Option HeaderValue) :=
  match e.op with
  | .buildClient _ header => some header
  | _ => none

theorem mem_clientHeader {tr : Trace procSig} {header : Option HeaderValue}
    (h : header ∈ tr.filterMap clientHeader) :
    ∃ addr answer, (⟨.buildClient addr header, answer⟩ : Event procSig) ∈ tr := by
  obtain ⟨⟨op, answer⟩, hmem, heq⟩ := List.mem_filterMap.mp h
  cases op with
  | buildClient addr header' =>
      cases heq
      exact ⟨addr, answer, hmem⟩
  | _ => cases heq

/-- `zallet rpc` gets in while the server that has the lock runs. -/
theorem rpc_accepted_new : ∃ users guard,
    startRun.2.1.state.spawned false = some (users, guard) ∧
      ∃ header ∈ cliRun.1.filterMap clientHeader, Sent paddedMac "/zallet" users cliRun.1 header := by
  have hspawned : (startRun.2.1.spawned false).isSome = true := by decide +kernel
  have hholder : startRun.2.1.holder = some false := by decide +kernel
  have hsent : (cliRun.1.filterMap clientHeader).head?.isSome = true := by decide +kernel
  obtain ⟨⟨users, guard⟩, hspawned⟩ := Option.isSome_iff_exists.mp hspawned
  obtain ⟨header, hheader⟩ := Option.isSome_iff_exists.mp hsent
  have hmem := List.mem_of_head? hheader
  obtain ⟨addr, answer, hevent⟩ := mem_clientHeader hmem
  refine ⟨users, guard, hspawned, header, hmem, ?_⟩
  exact rpc_accepted (i := false) (fun _ => rfl) (fun _ => rfl) startRun_interleave startRun_paths
    hholder hspawned List.nodup_nil (fun _ h => nomatch h) (fun ⟨_, h, _⟩ => nomatch h)
    (exec_run _ _ _ _) cliRun_read hevent

end Zallet.Process
