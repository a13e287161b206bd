/-
# `Zallet.Process.Together` — processes that share a data directory

Any number of `zallet start`, of which each may die anywhere.  Each task, taken
by itself among the others, keeps to what it may do: before the cookie is
renamed into its place it is all written, and a server is spawned with the
cookie that is there.  So a cookie is never seen in part (`cookie_whole`).
-/
import Zallet.Process.Kept

namespace Zallet.Process

open Prog Authorization Directory
open Text (utf8)

section
variable {hmacSha256 : List UInt8 → List UInt8 → MacOutput} {random : List UInt8 → Prop}
  {ι : Type} {configs : ι → Config} {datadir password : String} {before : Dir String}
  {s s' : State ι} {d : Dir String} {i : ι}

/-! ## A task among others -/

/-- What a process that does not die has, and knows of the directory. -/
def Held (i : ι) (P : Dir String → Prop) (s : State ι) : Prop :=
  s.gone i = false → s.holder = some i ∧ s.spawned i = none ∧ P s.dir

/-- The removal of a cookie does not matter to it. -/
def Lasts (datadir : String) (P : Dir String → Prop) : Prop :=
  ∀ d, P d → P (d.remove (cookiePath datadir))

/-- A process that has the lock, about to be answered. -/
structure Now (hmacSha256 : List UInt8 → List UInt8 → MacOutput) (random : List UInt8 → Prop)
    (configs : ι → Config) (datadir : String) (before : Dir String) (i : ι)
    (P : Dir String → Prop) (s : State ι) : Prop where
  holder : s.holder = some i
  spawned : s.spawned i = none
  dir : P s.dir
  inv : Inv hmacSha256 random configs datadir before s

theorem Now.held {P : Dir String → Prop} (h : Now hmacSha256 random configs datadir before i P s) :
    Held i P s :=
  fun _ => ⟨h.holder, h.spawned, h.dir⟩

/-- The temporary file is the process's own, and this much is written to it. -/
def Written (datadir : String) (fd : Nat) (written : List UInt8) (d : Dir String) : Prop :=
  d.names (cookieTmpPath datadir) = some fd ∧
    ∃ file, d.file? fd = some file ∧ file.bytes = written ∧ file.mode &&& 0o077 = 0

theorem lasts_written {fd : Nat} {written : List UInt8} :
    Lasts datadir (Written datadir fd written) := by
  rintro d ⟨hname, hfile⟩
  refine ⟨?_, hfile⟩
  rw [Dir.names_remove, if_neg cookieTmpPath_ne]
  exact hname

theorem lasts_put : Lasts datadir (Put datadir password) :=
  fun _ h => sameCookie_remove.put h

theorem lasts_true : Lasts datadir fun _ => True := fun _ _ => trivial

theorem Held.weaken {P : Dir String → Prop} (h : Held i P s) : Held i (fun _ => True) s :=
  fun halive => ⟨(h halive).1, (h halive).2.1, trivial⟩

theorem private_mode {umask : UInt16} : ownerOnly &&& ~~~umask &&& 0o077 = 0 := by
  rw [UInt16.and_assoc, UInt16.and_comm (~~~umask), ← UInt16.and_assoc]
  exact UInt16.zero_and

theorem wp_onError {W : World procSig (State ι)} {α : Type} {p : ProcProg α}
    {drop : ProcProg Unit} {Q : State ι → α → Prop} {R : State ι → Stop → Prop}
    (h : wp W p Q (fun t e => wp W drop (fun u _ => R u e) R t) s) :
    wp W (onError p drop) Q R s := by
  rw [onError, wp_bind', wp_attempt]
  refine wp_mono (fun _ _ h => h) ?_ h
  intro t e h
  exact wp_bind'.mpr h

variable [DecidableEq ι]

variable (hmacSha256 random configs datadir before) in
/-- The world of the main task of a process. -/
abbrev mainWorld (i : ι) : World procSig (State ι) :=
  (procWorld hmacSha256 random configs datadir (i, .main)).among
    (Inv hmacSha256 random configs datadir before) (Around datadir (i, .main))

section
variable {P : Dir String → Prop} {op : ProcOp} {α : Type} {f : op.Ans → Except Stop α}
  {C : op.Ans → State ι → Prop}

/-- What is asked by a process that knows `K` as long as it lives. -/
theorem alive_step {K : State ι → Prop} (h : s.gone i = false → K s)
    (haround : ∀ s t, Around datadir (i, .main) s t → t.gone i = false → K s → K t)
    (hdies : ∀ s t, Dies s t → t.gone i = false → K s → K t)
    (hallowed : ∀ t, K t → Inv hmacSha256 random configs datadir before t →
      mainAllowed hmacSha256 random configs datadir i t op)
    (hstep : ∀ t a t', K t → Inv hmacSha256 random configs datadir before t →
      procStep i t op a t' → Draws random op a → C a t') :
    (mainWorld hmacSha256 random configs datadir before i).guard s op ∧
      ∀ a t', (mainWorld hmacSha256 random configs datadir before i).step s op a t' → C a t' := by
  have hknown : ∀ t, Around datadir (i, .main) s t → t.gone i = false → K t :=
    fun t hs halive => haround s t hs halive (h (hs halive).1)
  refine ⟨fun t hs hinv halive => hallowed t (hknown t hs halive) hinv, ?_⟩
  rintro a t' ⟨t, hs, hinv, ⟨t₁, hd, halive, hstep'⟩, hdraws⟩
  have hK := hdies t t₁ hd halive (hknown t hs (hd.gone i halive))
  exact hstep t₁ a t' hK (hinv.dies hd) hstep' hdraws

/-- What is asked with the lock held. -/
theorem own_step (hP : Lasts datadir P) (h : Held i P s)
    (hallowed : ∀ t, Now hmacSha256 random configs datadir before i P t →
      mainAllowed hmacSha256 random configs datadir i t op)
    (hstep : ∀ t a t', Now hmacSha256 random configs datadir before i P t →
      procStep i t op a t' → Draws random op a → C a t') :
    (mainWorld hmacSha256 random configs datadir before i).guard s op ∧
      ∀ a t', (mainWorld hmacSha256 random configs datadir before i).step s op a t' → C a t' := by
  refine alive_step (K := fun t => t.holder = some i ∧ t.spawned i = none ∧ P t.dir) h ?_ ?_
    (fun t hK hinv => hallowed t ⟨hK.1, hK.2.1, hK.2.2, hinv⟩)
    (fun t a t' hK hinv => hstep t a t' ⟨hK.1, hK.2.1, hK.2.2, hinv⟩)
  · rintro s t hs halive ⟨hholder, hnone, hdir⟩
    obtain ⟨-, hspawned, hheld⟩ := hs halive
    obtain ⟨hholder', hsame⟩ := hheld hholder
    refine ⟨hholder', hspawned.trans hnone, ?_⟩
    rcases hsame with hsame | hsame
    · rwa [hsame]
    · rw [hsame]
      exact hP _ hdir
  · rintro s t hd halive ⟨hholder, hnone, hdir⟩
    refine ⟨(hd.holder i).mpr ⟨hholder, halive⟩, ?_, hd.dir ▸ hdir⟩
    rw [hd.spawned]
    exact hnone

/-- What is asked before the server is spawned. -/
theorem fresh_step (h : s.gone i = false → s.spawned i = none)
    (hallowed : ∀ t, t.spawned i = none → mainAllowed hmacSha256 random configs datadir i t op)
    (hstep : ∀ t a t', t.spawned i = none → procStep i t op a t' → C a t') :
    (mainWorld hmacSha256 random configs datadir before i).guard s op ∧
      ∀ a t', (mainWorld hmacSha256 random configs datadir before i).step s op a t' → C a t' := by
  refine alive_step (K := fun t => t.spawned i = none) h ?_ ?_ (fun t hK _ => hallowed t hK)
    (fun t a t' hK _ hs _ => hstep t a t' hK hs)
  · intro s t hs halive hnone
    exact (hs halive).2.1.trans hnone
  · intro s t hd _ hnone
    exact (congrFun hd.spawned i).trans hnone

/-- What may always be asked. -/
theorem any_step (hallowed : ∀ t, mainAllowed hmacSha256 random configs datadir i t op)
    (hC : ∀ a t', C a t') :
    (mainWorld hmacSha256 random configs datadir before i).guard s op ∧
      ∀ a t', (mainWorld hmacSha256 random configs datadir before i).step s op a t' → C a t' :=
  ⟨fun t _ _ _ => hallowed t, fun a t' _ => hC a t'⟩

end

section
variable {P : Dir String → Prop}

theorem wp_removeTmp (hP : Lasts datadir P) (h : Held i P s) {R : State ι → Stop → Prop} :
    wp (mainWorld hmacSha256 random configs datadir before i) (removeFile (cookieTmpPath datadir))
      (fun t _ => Held i (fun _ => True) t) R s := by
  rw [removeFile, wp_bind, wp_ask]
  refine own_step hP h (fun t ht => .inr ⟨rfl, ht.holder⟩) ?_
  rintro t a t' ht ⟨d, -, rfl⟩ -
  exact ht.held.weaken

/-- What is drawn at random. -/
theorem wp_gen (hP : Lasts datadir P) (h : Held i P s) {length : Nat}
    {R : State ι → Stop → Prop} :
    wp (mainWorld hmacSha256 random configs datadir before i) (ask (E := procSig) (.gen length))
      (fun t bytes => bytes.length = length ∧ (length = 32 → random bytes) ∧ Held i P t) R s := by
  rw [wp_ask]
  refine own_step hP h (fun _ _ => trivial) ?_
  rintro t a t' ht ⟨hlength, rfl⟩ hdraws
  exact ⟨hlength, hdraws, ht.held⟩

/-- What changes nothing that is looked at here. -/
theorem wp_still (hP : Lasts datadir P) (h : Held i P s) {op : ProcOp}
    {f : op.Ans → Except Stop Unit}
    (hallowed : ∀ t, mainAllowed hmacSha256 random configs datadir i t op)
    (hstill : ∀ t a t', procStep i t op a t' → t' = t) :
    wp (mainWorld hmacSha256 random configs datadir before i) (query op f) (fun t _ => Held i P t)
      (fun _ _ => True) s := by
  rw [wp_query]
  refine own_step hP h (fun t _ => hallowed t) ?_
  intro t a t' ht hs _
  obtain rfl := hstill t a t' hs
  cases f a with
  | ok _ => exact ht.held
  | error e => trivial

end

/-- Somebody who writes to the temporary file writes to that alone. -/
theorem write_step {fd : Nat} {written rest : List UInt8}
    (h : Held i (Written datadir fd written) s) :
    (mainWorld hmacSha256 random configs datadir before i).guard s (.file (.write fd rest)) ∧
      ∀ a t,
        (mainWorld hmacSha256 random configs datadir before i).step s (.file (.write fd rest)) a t →
        Ends (fun n => Held i (Written datadir fd (written ++ rest.take n)) t)
          (fun _ => Held i (Written datadir fd written) t) a := by
  refine own_step lasts_written h (fun u hu => ⟨hu.holder, hu.dir.1⟩) ?_
  rintro u a t hu ⟨d, hfile, rfl⟩ -
  cases a with
  | error e =>
      obtain rfl : d = u.dir := hfile
      exact hu.held
  | ok n =>
      obtain ⟨-, rfl⟩ := hfile
      obtain ⟨hname, file, hget, rfl, hmode⟩ := hu.dir
      exact fun _ => ⟨hu.holder, hu.spawned, hname, _, u.dir.file?_change_self hget, rfl, hmode⟩

theorem wp_writeFile {fd : Nat} {bytes : List UInt8} (h : Held i (Written datadir fd []) s) :
    wp (mainWorld hmacSha256 random configs datadir before i) (writeFile fd bytes)
      (fun t _ => Held i (Written datadir fd bytes) t) (fun t _ => Held i (fun _ => True) t) s := by
  rw [writeFile, wp_mapErr]
  refine wp_writeAll (fun written t => Held i (Written datadir fd written) t) h ?_ ?_ ?_
  · intro written rest t _ ht
    exact (write_step ht).1
  · intro written rest t a t' _ ht hs
    exact (write_step ht).2 a t' hs
  · intro written t e ht
    exact ht.weaken

/-- Under the lock a cookie is made, and nobody replaces it. -/
theorem wp_generateCookie (h : Held i (fun _ => True) s) :
    wp (mainWorld hmacSha256 random configs datadir before i) (generateCookie hmacSha256 datadir)
      (fun t r => ∃ pw salt, r = (cookieUser, .fromBare hmacSha256 salt pw, cookiePath datadir) ∧
        Drawn random pw ∧ Held i (Put datadir pw) t) (fun _ _ => True) s := by
  rw [generateCookie, wp_bind]
  refine wp_mono ?_ (fun _ _ h => h) (wp_gen lasts_true h)
  rintro s bytes ⟨hlength, hrandom, h⟩
  have hdrawn : Drawn random (encodeString bytes) := ⟨bytes, hlength, hrandom rfl, rfl⟩
  rw [wp_bind]
  refine wp_mono ?_ (fun _ _ h => h) (wp_removeTmp lasts_true h)
  intro s _ h
  rw [wp_bind, wp_query]
  refine own_step lasts_true h (fun t ht => ⟨rfl, ht.holder⟩) ?_
  rintro t a s ht ⟨d, hfile, rfl⟩ -
  cases a with
  | error e => trivial
  | ok fd =>
      obtain ⟨-, rfl, umask, rfl⟩ := hfile
      have hwritten : Held i (Written datadir t.dir.files.length [])
          { t with dir := t.dir.create (cookieTmpPath datadir) (ownerOnly &&& ~~~umask) } := by
        refine fun _ => ⟨ht.holder, ht.spawned, ?_, ⟨ownerOnly &&& ~~~umask, [], false⟩, ?_, rfl,
          private_mode⟩
        · show (t.dir.create _ _).names _ = _
          rw [Dir.names_create, if_pos rfl]
        · show (t.dir.create _ _).file? _ = _
          rw [Dir.file?_create, if_pos rfl]
      show wp _ (_ >>= _) _ _ _
      rw [wp_bind]
      refine wp_onError (wp_mono ?_ ?_ (wp_writeFile hwritten))
      · intro s _ h
        rw [wp_bind]
        refine wp_onError ?_
        rw [wp_query]
        refine own_step lasts_written h ?_ ?_
        · rintro t ht
          obtain ⟨hname, file, hget, hbytes, hmode⟩ := ht.dir
          exact ⟨rfl, rfl, ht.holder, ht.spawned, _, file, hname, hget, _, hdrawn, hbytes, hmode⟩
        · rintro t a s ht ⟨d, hfile, rfl⟩ -
          cases a with
          | error e =>
              obtain rfl : d = t.dir := hfile
              exact wp_mono (fun _ _ _ => trivial) (fun _ _ h => h)
                (wp_removeTmp (R := fun _ _ => True) lasts_written ht.held)
          | ok _ =>
              obtain ⟨-, rfl⟩ := hfile
              have hput : Held i (Put datadir (encodeString bytes))
                  { t with dir := t.dir.rename (cookieTmpPath datadir) (cookiePath datadir) } := by
                refine fun _ => ⟨ht.holder, ht.spawned, ?_⟩
                obtain ⟨hname, file, hget, hbytes, hmode⟩ := ht.dir
                intro n hn
                rw [Dir.names_rename, if_neg cookieTmpPath_ne.symm, if_pos rfl, hname] at hn
                cases hn
                exact ⟨file, hget, hbytes, hmode⟩
              show wp _ (_ >>= _) _ _ _
              rw [wp_bind]
              refine wp_mono ?_ (fun _ _ h => h) (wp_gen lasts_put hput)
              rintro s salt ⟨-, -, h⟩
              exact ⟨_, salt, rfl, hdrawn, h⟩
      · intro s e h
        exact wp_mono (fun _ _ _ => trivial) (fun _ _ h => h) (wp_removeTmp lasts_true h)

theorem wp_drawSalts {P : Dir String → Prop} (hP : Lasts datadir P) (h : Held i P s)
    {auth : List RpcAuthSection} :
    wp (mainWorld hmacSha256 random configs datadir before i) (drawSalts auth)
      (fun t r => r.map Prod.fst = auth ∧ Held i P t) (fun _ _ => True) s := by
  induction auth generalizing s with
  | nil => exact ⟨rfl, h⟩
  | cons a auth ih =>
      rw [drawSalts, wp_bind]
      refine wp_mono ?_ (fun _ _ h => h) (wp_gen hP h)
      rintro s salt ⟨-, -, h⟩
      rw [wp_bind]
      refine wp_mono ?_ (fun _ _ h => h) (ih h)
      rintro s rest ⟨hrest, h⟩
      exact ⟨by rw [List.map_cons, hrest], h⟩

/-- The server is spawned with the users that the cookie there is for. -/
theorem wp_serve (password : Option String) {config : Config} (hconfig : configs i = config)
    {listenAddr : String} {cookie : Option (String × PasswordHash)}
    (huser : (∃ a ∈ config.auth, a.user = cookieUser) ↔ password = none)
    (hnone : password = none → cookie = none)
    (hcookie : ∀ pw ∈ password, ∃ salt, cookie = some (cookieUser, .fromBare hmacSha256 salt pw))
    (hdrawn : ∀ pw ∈ password, Drawn random pw)
    (h : Held i (fun d => ∀ pw ∈ password, Put datadir pw d) s) :
    wp (mainWorld hmacSha256 random configs datadir before i)
      (serve hmacSha256 config listenAddr cookie (password.map fun _ => cookiePath datadir))
      (fun _ _ => True) (fun _ _ => True) s := by
  have hP : Lasts datadir fun d => ∀ pw ∈ password, Put datadir pw d :=
    fun d h pw hpw => lasts_put d (h pw hpw)
  rw [serve, wp_bind]
  refine wp_mono ?_ (fun _ _ h => h) (wp_drawSalts hP h)
  rintro s auth ⟨hauth, h⟩
  rw [wp_bind, wp_ofExcept]
  cases hlayer : newLayer hmacSha256 ⟨auth, cookie⟩ with
  | none => trivial
  | some users =>
      have hserves : Serves hmacSha256 random config users password :=
        ⟨⟨⟨auth, cookie⟩, hlayer, hauth, hnone, hcookie⟩, huser, hdrawn⟩
      show wp _ (_ >>= _) _ _ _
      rw [wp_bind]
      refine wp_mono ?_ (fun _ _ h => h) (wp_still hP h (fun _ => trivial) fun _ _ _ hs => hs)
      intro s _ h
      rw [wp_bind]
      refine wp_mono ?_ (fun _ _ h => h) (wp_still hP h (fun _ => trivial) fun _ _ _ hs => hs)
      intro s _ h
      rw [wp_bind]
      refine wp_mono ?_ (fun _ _ h => h) (wp_still hP h (fun _ => trivial) fun _ _ _ hs => hs)
      intro s _ h
      rw [wp_ask]
      refine own_step hP h ?_ fun _ _ _ _ _ _ => trivial
      intro t ht
      exact ⟨ht.holder, password, hconfig ▸ hserves, rfl, fun _ => ht.dir⟩

theorem wp_dropGuard {R : State ι → Stop → Prop} :
    wp (mainWorld hmacSha256 random configs datadir before i) (dropGuard (cookiePath datadir))
      (fun _ _ => True) R s := by
  rw [dropGuard, removeFile, wp_bind, wp_ask]
  exact any_step (fun _ => .inl rfl) fun _ _ => trivial

theorem wp_spawnServer {config : Config} (hconfig : configs i = config)
    (hdatadir : config.datadir = datadir) (hbind : config.bind.length = 1)
    (h : Held i (fun _ => True) s) :
    wp (mainWorld hmacSha256 random configs datadir before i) (spawnServer hmacSha256 config)
      (fun _ _ => True) (fun _ _ => True) s := by
  obtain ⟨listenAddr, hbind⟩ := List.length_eq_one_iff.mp hbind
  rw [spawnServer, hbind]
  by_cases huser : (config.auth.any fun a => a.user = cookieUser) = true
  · simp only [if_pos huser]
    refine wp_serve none hconfig ?_ (fun _ => rfl) (fun _ h => by cases h)
      (fun _ h => by cases h) ?_
    · refine iff_of_true ?_ rfl
      obtain ⟨a, ha, hname⟩ := List.any_eq_true.mp huser
      exact ⟨a, ha, of_decide_eq_true hname⟩
    · exact fun halive => ⟨(h halive).1, (h halive).2.1, fun _ h => by cases h⟩
  · simp only [if_neg huser]
    rw [wp_bind, hdatadir]
    refine wp_mono ?_ (fun _ _ h => h) (wp_generateCookie h)
    rintro s r ⟨pw, salt, rfl, hdrawn, h⟩
    refine wp_onError (wp_mono (R := fun _ _ => True) (fun _ _ h => h)
      (fun _ _ _ => wp_dropGuard) ?_)
    refine wp_serve (some pw) hconfig ?_ (fun h => by cases h) ?_
      (fun _ h => Option.some.inj h ▸ hdrawn) ?_
    · refine iff_of_false ?_ (by simp)
      rintro ⟨a, ha, hname⟩
      exact huser (List.any_eq_true.mpr ⟨a, ha, decide_eq_true hname⟩)
    · rintro _ ⟨⟩
      exact ⟨salt, rfl⟩
    · refine fun halive => ⟨(h halive).1, (h halive).2.1, ?_⟩
      rintro _ ⟨⟩
      exact (h halive).2.2

theorem wp_spawnJsonRpc {config : Config} (hconfig : configs i = config)
    (hdatadir : config.datadir = datadir) (h : Held i (fun _ => True) s) :
    wp (mainWorld hmacSha256 random configs datadir before i) (spawnJsonRpc hmacSha256 config)
      (fun _ _ => True) (fun _ _ => True) s := by
  rw [spawnJsonRpc]
  by_cases hnone : config.bind = []
  · rw [if_pos hnone, wp_ask]
    exact any_step (fun _ => trivial) fun _ _ => trivial
  · rw [if_neg hnone]
    by_cases hmany : 1 < config.bind.length
    · rw [if_pos hmany]
      trivial
    · rw [if_neg hmany]
      have hpos := List.length_pos_iff.mpr hnone
      exact wp_spawnServer hconfig hdatadir (by omega) h

/-- What is asked for when nothing needs to be known any more. -/
theorem wp_any {op : ProcOp} {f : op.Ans → Except Stop Unit}
    (hallowed : ∀ t, mainAllowed hmacSha256 random configs datadir i t op) :
    wp (mainWorld hmacSha256 random configs datadir before i) (query op f) (fun _ _ => True)
      (fun _ _ => True) s := by
  rw [wp_query]
  refine any_step hallowed ?_
  intro a t'
  cases f a <;> trivial

theorem wp_runLocked {config : Config} (hconfig : configs i = config)
    (hdatadir : config.datadir = datadir) (h : Held i (fun _ => True) s) :
    wp (mainWorld hmacSha256 random configs datadir before i) (runLocked hmacSha256 config)
      (fun _ _ => True) (fun _ _ => True) s := by
  rw [runLocked, wp_bind]
  refine wp_mono ?_ (fun _ _ h => h) (wp_still lasts_true h (fun _ => trivial) fun _ _ _ hs => hs)
  intro s _ h
  rw [wp_bind]
  refine wp_mono ?_ (fun _ _ h => h) (wp_still lasts_true h (fun _ => trivial) fun _ _ _ hs => hs)
  intro s _ h
  rw [wp_bind]
  refine wp_mono ?_ (fun _ _ h => h) (wp_still lasts_true h (fun _ => trivial) fun _ _ _ hs => hs)
  intro s _ h
  rw [wp_bind]
  refine wp_mono ?_ (fun _ _ h => h) (wp_spawnJsonRpc hconfig hdatadir h)
  intro s _ _
  rw [wp_bind]
  refine wp_mono ?_ (fun _ _ h => h) (wp_any fun _ => trivial)
  intro s _ _
  rw [wp_bind]
  refine wp_mono ?_ (fun _ _ h => h) (wp_any fun _ => trivial)
  intro s _ _
  rw [wp_ask]
  exact any_step (fun _ => trivial) fun _ _ => trivial

/-- The main task of a process keeps to what it may do. -/
theorem wp_runWith {config : Config} (hconfig : configs i = config)
    (hdatadir : config.datadir = datadir) (h : s.gone i = false → s.spawned i = none) :
    wp (mainWorld hmacSha256 random configs datadir before i) (runWith hmacSha256 config)
      (fun _ _ => True) (fun _ _ => True) s := by
  rw [runWith, wp_bind, lockDatadir, wp_bind, wp_query]
  refine fresh_step h (fun _ _ => trivial) ?_
  rintro t a s hnone rfl
  cases a with
  | error e => trivial
  | ok _ =>
      show wp _ (_ >>= _) _ _ _
      rw [wp_bind, wp_query]
      refine fresh_step (fun _ => hnone) (fun _ h => h) ?_
      intro t a s hnone hstep
      cases a with
      | error e => trivial
      | ok locked =>
          cases locked with
          | false => trivial
          | true =>
              obtain ⟨-, rfl⟩ := hstep
              show wp _ (_ >>= _) _ _ _
              rw [wp_bind, wp_attempt]
              have hheld : Held i (fun _ => True) { t with holder := some i } :=
                fun _ => ⟨rfl, hnone, trivial⟩
              have hunlock : ∀ (u : State ι) (r : Except Stop Unit),
                  wp (mainWorld hmacSha256 random configs datadir before i)
                    (ask (E := procSig) .unlock >>= fun _ => ofExcept id r)
                    (fun _ _ => True) (fun _ _ => True) u := by
                intro u r
                rw [wp_bind, wp_ask]
                refine any_step (fun _ => trivial) ?_
                intro a u'
                cases r <;> trivial
              exact wp_mono (fun u _ _ => hunlock u _) (fun u e _ => hunlock u (.error e))
                (wp_runLocked hconfig hdatadir hheld)

/-- And so does the task of its server. -/
theorem wp_serverTask :
    wp ((procWorld hmacSha256 random configs datadir (i, .server)).among
      (Inv hmacSha256 random configs datadir before) (Around datadir (i, .server))) serverTask
      (fun _ _ => True) (fun _ _ => True) s := by
  rw [serverTask, wp_bind, wp_ask]
  refine ⟨fun _ _ _ => trivial, ?_⟩
  rintro ⟨users, guard⟩ s ⟨t, -, hinv, ⟨t₁, hd, -, hspawned, rfl⟩, -⟩
  obtain ⟨password, -, rfl, -⟩ := (hinv.dies hd).serves i users guard hspawned
  rw [wp_bind, wp_ask]
  refine ⟨fun _ _ _ => trivial, ?_⟩
  rintro a u -
  cases password with
  | none => trivial
  | some pw => exact ⟨fun _ _ _ => rfl, fun _ _ _ => trivial⟩

/-! ## All of them -/

omit [DecidableEq ι] in
theorem inv_of_fresh (hnone : ∀ i, s.spawned i = none) :
    Inv hmacSha256 random configs datadir s.dir s where
  whole n hn := by
    obtain ⟨file, hfile⟩ := s.dir.file?_isSome hn
    exact ⟨file, hfile, .inr (s.dir.read_eq_some.mpr ⟨n, hn, hfile⟩)⟩
  serves i users guard hi := by
    rw [hnone i] at hi
    cases hi

/-- The 32 bytes that were drawn, by whichever task. -/
def drawnIn (tr : List ((ι × Role) × Event procSig)) (bytes : List UInt8) : Prop :=
  ∃ t, (t, (⟨.gen 32, bytes⟩ : Event procSig)) ∈ tr

theorem starts_inv (hdatadir : ∀ i, (configs i).datadir = datadir)
    (hnone : ∀ i, s.spawned i = none) {tr : List ((ι × Role) × Event procSig)}
    {qs : ι × Role → ProcProg Unit} (h : Interleave (starts hmacSha256 configs) tr qs)
    (hpath : Paths (fun t => aliveStep t.1) s tr s') :
    Inv hmacSha256 (drawnIn tr) configs datadir s.dir s' := by
  have hdraws : ∀ e ∈ tr, Draws (drawnIn tr) e.2.op e.2.ans := by
    rintro ⟨t, op, a⟩ he
    cases op with
    | gen length =>
        rintro rfl
        exact ⟨t, he⟩
    | _ => exact trivial
  refine (h.relies (Q := fun _ _ _ => True) (R := fun _ _ _ => True) around_relies
    (fun _ _ _ _ _ h => h) (fun _ _ _ _ _ h => h) ?_ (inv_of_fresh hnone)
    (hpath.with_events hdraws)).2
  rintro ⟨i, role⟩
  cases role with
  | main => exact wp_runWith rfl (hdatadir i) fun _ => hnone i
  | server => exact wp_serverTask

/-- Whatever processes are started, in whatever order they go on and wherever they die, the cookie
is never seen in part: it is that of one server, with the password that was drawn for it and for its
owner only, or the one from before. -/
theorem cookie_whole (hdatadir : ∀ i, (configs i).datadir = datadir)
    (hnone : ∀ i, s.spawned i = none) {tr : List ((ι × Role) × Event procSig)}
    {qs : ι × Role → ProcProg Unit} (h : Interleave (starts hmacSha256 configs) tr qs)
    (hpath : Paths (fun t => aliveStep t.1) s tr s') {file : File}
    (hfile : s'.dir.read (cookiePath datadir) = some file) :
    Whole (drawnIn tr) file ∨ s.dir.read (cookiePath datadir) = some file := by
  obtain ⟨n, hn, hget⟩ := s'.dir.read_eq_some.mp hfile
  obtain ⟨file', hget', hwhole⟩ := (starts_inv hdatadir hnone h hpath).whole n hn
  cases hget.symm.trans hget'
  exact hwhole

end

/-! ### A server, and another that does not get the lock -/

/-- What is seen of a directory in which nobody dies. -/
structure Calm where
  dir : Dir String
  holder : Option Bool
  spawned : Bool → Option (Users × Option String)

def Calm.state (c : Calm) : State Bool := ⟨c.dir, c.holder, c.spawned, fun _ => false⟩

/-- Everything is done that can be, and the same bytes are drawn again and again. -/
def calmAnswer (t : Bool × Role) : Answer procSig Calm
  | c, .file op => let r := fileAnswer (fun _ => "/zallet/.tmp") c.dir op; (r.1, { c with dir := r.2 })
  | c, .gen length => (List.replicate length 7, c)
  | c, .tryLockExclusive _ =>
      if c.holder = none then (.ok true, { c with holder := some t.1 }) else (.ok false, c)
  | c, .unlock => ((), { c with holder := if c.holder = some t.1 then none else c.holder })
  | c, .spawnServer users guard =>
      ((), { c with spawned := Function.update c.spawned t.1 (some (users, guard)) })
  | c, .begin => (([], none), c)
  | c, .createLockfile _ | c, .openDatabase | c, .newKeyStore | c, .buildChain | c, .spawnSync
  | c, .buildServer _ _ | c, .localAddr | c, .mergeMethods | c, .taskExited
  | c, .buildClient _ _ => (.ok (), c)
  | c, .spawnPending | c, .abortTasks | c, .serverStopped => ((), c)
  | c, .request _ _ => (.error "connection refused", c)

theorem calm_dies (c : Calm) : Dies c.state c.state :=
  ⟨rfl, rfl, fun _ h => h, fun _ => (and_iff_left rfl).symm⟩

theorem calmAnswer_step (t : Bool × Role) (c : Calm) (op : ProcOp) (hop : op ≠ .begin) :
    aliveStep t.1 c.state op (calmAnswer t c op).1 (calmAnswer t c op).2.state := by
  refine ⟨c.state, calm_dies c, rfl, ?_⟩
  cases op with
  | file op => exact ⟨_, fileAnswer_step _ _ _, rfl⟩
  | gen length => exact ⟨List.length_replicate, rfl⟩
  | tryLockExclusive path =>
      rw [calmAnswer]
      by_cases h : c.holder = none
      · rw [if_pos h]
        exact ⟨h, rfl⟩
      · rw [if_neg h]
        exact ⟨h, rfl⟩
  | begin => exact absurd rfl hop
  | _ => rfl

def localConfig : Config := ⟨"/zallet", ["127.0.0.1:28232"], []⟩

/-- A server died here, and another before it could rename its cookie. -/
def leftOver : Calm where
  dir := ((Dir.empty.create "/zallet/.cookie" ownerOnly).append 0 (utf8 "__cookie__:old")).create
    "/zallet/.cookie.tmp" ownerOnly
  holder := none
  spawned _ := none

/-- The one process starts until its tasks run, and then the other begins. -/
def startRun : List ((Bool × Role) × Event procSig) × Calm × (Bool × Role → ProcProg Unit) :=
  scheduleAs calmAnswer [((false, .main), 18), ((true, .main), 4)] leftOver
    (starts paddedMac fun _ => localConfig)

theorem startRun_interleave :
    Interleave (starts paddedMac fun _ => localConfig) startRun.1 startRun.2.2 :=
  scheduleAs_interleave _ _ _ _

theorem startRun_paths : Paths (fun t : Bool × Role => aliveStep t.1) leftOver.state startRun.1
    startRun.2.1.state := by
  refine scheduleAs_paths Calm.state (G := fun op : ProcOp => op ≠ .begin) calmAnswer_step _ _ _ ?_
  have hall : startRun.1.all (fun e => decide (e.2.op ≠ .begin)) = true := by decide +kernel
  exact fun e he => of_decide_eq_true (List.all_eq_true.mp hall e he)

/-- The cookie that is there then is the new one. -/
theorem cookie_whole_new : ∃ file, startRun.2.1.dir.read (cookiePath "/zallet") = some file ∧
    (Whole (drawnIn startRun.1) file ∨ leftOver.dir.read (cookiePath "/zallet") = some file) := by
  have hsome : (startRun.2.1.dir.read (cookiePath "/zallet")).isSome = true := by decide +kernel
  obtain ⟨file, hfile⟩ := Option.isSome_iff_exists.mp hsome
  exact ⟨file, hfile, cookie_whole (fun _ => rfl) (fun _ => rfl) startRun_interleave startRun_paths
    hfile⟩

end Zallet.Process
