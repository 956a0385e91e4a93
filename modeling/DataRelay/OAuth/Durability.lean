import DataRelay.OAuth.Integrity
import DataRelay.OAuth.Pending
import DataRelay.OAuth.Unseen

/-! What was acknowledged is in the state file.

    `Kept` says that a fact about the records holds in memory while the service is up, and of
    whatever a start reads back. A step that spares the records keeps it: its save, if it has one,
    writes the memory it leaves, or the front of it, which no start reads. A run from the
    acknowledgement on keeps it, over crashes anywhere, saves that fail or fall short, and any number
    of restarts. -/

namespace DataRelay.OAuth
open Lib

variable {cfg : Config} {sys sys' : System} {a : Act} {r : Resp} {k : String}

/-- The records of the state file, as a service that holds nothing else. -/
def OAuthService.reading (file : Option (List Char))
    (read : Dict String RegisteredClient × Dict String RefreshToken) : OAuthService :=
  { OAuthService.empty file with clients := read.1, refreshTokens := read.2 }

/-- Whatever a start reads from the state file has the property, and a file that no save has cut
    short is read. -/
structure Stored (P : OAuthService → Prop) (file : Option (List Char)) : Prop where
  reads : ∀ read, readFile file = some read → P (.reading file read)
  whole : WholeFile file → ∃ read, readFile file = some read

/-- In memory while the service is up, and in the state file. -/
structure Kept (P : OAuthService → Prop) (sys : System) : Prop where
  memory : sys.up = true → P sys.svc
  file : Stored P sys.svc.file

/-! ### One step -/

/-- A file with the front of a payload is read when it is the whole of it, and then it gives the
    records of the memory. -/
theorem stored_of_take {P : OAuthService → Prop} {s : OAuthService} (hv : s.Valid)
    (hreload : ∀ read, Reloads s.clients s.refreshTokens read → P (.reading s.file read)) {n : ℕ}
    (hfile : s.file = some ((Json.dumps (payload s.clients s.refreshTokens)).take n)) :
    Stored P s.file := by
  have htokens : Keyed RefreshToken.token s.refreshTokens :=
    fun k t ht => (hv.filed.refresh k t ht).1
  constructor
  · intro read hread
    refine hreload read ?_
    rw [hfile] at hread
    exact readFile_take hv.filed.clients htokens hread
  · intro hwhole
    rw [hfile] at hwhole ⊢
    rw [take_of_wholeFile hwhole]
    obtain ⟨read, hread, -⟩ := readFile_dumps hv.filed.clients htokens
    exact ⟨read, hread⟩

/-- A save that returned has stored what the memory holds. -/
theorem persist_stored {P : OAuthService → Prop} {env : Env} {s svc : OAuthService} {now : Time}
    (hstore : cfg.store ≠ none) (hok : (s.persist cfg env now).2 = .ok ())
    (hsvc : svc = (s.persist cfg env now).1) (hv : svc.Valid)
    (hreload : ∀ read, Reloads svc.clients svc.refreshTokens read → P (.reading svc.file read)) :
    Stored P svc.file := by
  subst hsvc
  rcases persist_ok hok with hnone | ⟨n, hn⟩
  · exact absurd hnone hstore
  · exact stored_of_take hv hreload hn

/-- The service is up for every stretch that is not a start. -/
theorem step_up (h : sys.step cfg a = some (sys', r)) (hop : ∀ calls, a.op ≠ .restart calls) :
    sys.up = true := by
  unfold System.step at h
  obtain ⟨r1, h1, -⟩ := Option.map_eq_some_iff.mp h
  split at h1
  · next calls heq => exact absurd heq (hop calls)
  · split at h1
    · assumption
    · cases h1

/-- Behind a step that leaves the service up stands the whole of its effect, and a start that
    returned. -/
theorem step_effect_up (h : sys.step cfg a = some (sys', r)) (hup : sys'.up = true) :
    Effect cfg a.env sys a.op sys'.svc r ∧ ∀ calls, a.op = .restart calls →
      (OAuthService.start cfg a.env calls sys.svc.file).2 = .ok () := by
  unfold System.step at h
  obtain ⟨⟨sys1, r1⟩, h1, h2⟩ := Option.map_eq_some_iff.mp h
  split at h2
  · cases h2
    cases hup
  cases h2
  split at h1
  · next calls hop =>
    have heff : Effect cfg a.env sys (.restart calls) _ _ := .start calls
    rw [hop]
    -- a start that raises leaves the process down, so an up one has started
    unfold System.restarted at h1
    dsimp only at h1
    cases hs : (OAuthService.start cfg a.env calls sys.svc.file).2 with
    | error e =>
      rw [hs] at h1
      cases h1
      cases hup
    | ok u =>
      rw [hs] at h1 heff
      cases h1
      exact ⟨heff, fun _ hcalls => Op.restart.inj hcalls ▸ hs⟩
  · next hop =>
    split at h1
    · exact ⟨stretch_effect h1, fun calls hcalls => absurd hcalls (hop calls)⟩
    · cases h1

/-- What a start does with the state file: it refuses the file, or cleans up what it read and saves
    what is left when something was removed. -/
inductive Started (cfg : Config) (env : Env) (file : Option (List Char)) :
    OAuthService × Except PyError Unit → Prop where
  | refused (e : PyError) : Started cfg env file (.empty file, .error e)
  | read {read : Dict String RegisteredClient × Dict String RefreshToken}
      (h : readFile file = some read) : Started cfg env file
        (((OAuthService.reading file read).cleanupInactiveClients env.t0 0).1, .ok ())
  | saved {read : Dict String RegisteredClient × Dict String RefreshToken}
      (h : readFile file = some read) : Started cfg env file
        (((OAuthService.reading file read).cleanupInactiveClients env.t0 0).1.persist cfg env
          env.t1)

theorem start_started (hstore : cfg.store ≠ none) (env : Env) (calls : OAuthService.StartCalls)
    (file : Option (List Char)) : Started cfg env file (OAuthService.start cfg env calls file) := by
  unfold OAuthService.start
  split
  · next hnone => exact absurd hnone hstore
  split
  · exact .refused _
  · next s hload =>
    obtain ⟨read, hread, rfl⟩ := loaded_eq hload
    dsimp only
    split
    · exact .read hread
    · exact .saved hread

/-- A fact that survives its way through a file, that the stretches of a service that is up keep,
    and that the cleanup and the save of a start keep, is kept by the step. -/
theorem step_kept {P : OAuthService → Prop} (hstore : cfg.store ≠ none)
    (h : sys.step cfg a = some (sys', r)) (hv : sys.Valid)
    (hreload : ∀ s read, OAuthService.Valid s → P s → Reloads s.clients s.refreshTokens read →
      ∀ file, P (.reading file read))
    (heffect : ∀ svc r, Effect cfg a.env sys a.op svc r → (∀ calls, a.op ≠ .restart calls) →
      P sys.svc → P svc)
    (hclean : ∀ calls read, a.op = .restart calls → readFile sys.svc.file = some read →
      P (.reading sys.svc.file read) →
      P ((OAuthService.reading sys.svc.file read).cleanupInactiveClients a.env.t0 0).1)
    (hpersist : ∀ s now, P s → P (OAuthService.persist cfg a.env s now).1)
    (hk : Kept P sys) : Kept P sys' := by
  obtain ⟨svc, resp, heff, hcase⟩ := step_effect h
  have hsvcv : svc.Valid := (effect_evolves heff).valid
    (newOf_valid fun tid req p ht => hv.threads tid _ ht) hv.svc
  have hsame : sys'.svc.file = svc.file := by
    rcases hcase with ⟨-, rfl, -⟩ | ⟨rfl, -⟩ <;> rfl
  -- The memory behind the effect, unless a start refused the file.
  have hmem : P svc ∨ (∃ calls e, a.op = .restart calls ∧
      (OAuthService.start cfg a.env calls sys.svc.file).2 = .error e ∧
      svc = .empty sys.svc.file) := by
    by_cases hop : ∃ calls, a.op = .restart calls
    · obtain ⟨calls, hop⟩ := hop
      have hsvc : svc = (OAuthService.start cfg a.env calls sys.svc.file).1 := by
        rw [hop] at heff
        cases heff with
        | idle hidle => cases hidle
        | start => rfl
      have hstart := start_started hstore a.env calls sys.svc.file
      generalize hres : OAuthService.start cfg a.env calls sys.svc.file = res at hstart hsvc
      cases hstart with
      | refused e => exact .inr ⟨calls, e, hop, by rw [hres], hsvc⟩
      | read hread =>
        exact .inl (hsvc ▸ hclean calls _ hop hread (hk.file.reads _ hread))
      | saved hread =>
        exact .inl (hsvc ▸ hpersist _ _ (hclean calls _ hop hread (hk.file.reads _ hread)))
    · have hop := not_exists.mp hop
      exact .inl (heffect svc resp heff hop (hk.memory (step_up h hop)))
  refine ⟨fun hup' => ?_, ?_⟩
  · obtain ⟨-, hok⟩ := step_effect_up h hup'
    rcases hcase with ⟨-, rfl, -⟩ | ⟨rfl, -⟩
    · rcases hmem with hmem | ⟨calls, e, hop, he, -⟩
      · exact hmem
      · rw [hok calls hop] at he
        cases he
    · cases hup'
  -- the file is the one there was, or has the front of what the memory came to hold
  · rw [hsame]
    rcases (effect_evolves heff).file with heq | ⟨-, n, htake⟩
    · rw [heq]
      exact hk.file
    · rcases hmem with hmem | ⟨-, -, -, -, rfl⟩
      · exact stored_of_take hsvcv (fun read hre => hreload svc read hsvcv hmem hre _) htake
      · exact hk.file

/-- A fact that one stretch establishes and every later one of some kind keeps is kept by the
    run. -/
theorem kept_since {P : OAuthService → Prop} {Q : Event → Prop}
    (hkeep : ∀ e tr, (machine cfg).Run (e :: tr) e.post → Fresh (e :: tr) → Q e →
      k ∈ generated tr → Kept P e.pre → Kept P e.post)
    {newer tr : Trace} {e : Event} (h : (machine cfg).Run (newer ++ e :: tr) sys)
    (hfresh : Fresh (newer ++ e :: tr)) (hgen : k ∈ e.act.generates) (hk : Kept P e.post)
    (hall : ∀ x ∈ newer, Q x) : Kept P sys := by
  have hrun := Machine.Run.since (A := Fresh) (Q := Q)
    (J := fun tr s => k ∈ generated tr ∧ Kept P s) (fun x tr hf => hf.tail)
    (fun x tr hx hf hq hj => ⟨generated_tail x hj.1, hkeep x tr hx hf hq hj.1 hj.2⟩)
    h hfresh ⟨by rw [generated_cons]; exact List.mem_append_left _ hgen, hk⟩ hall
  exact hrun.2

/-- The cleanup of a start takes the evicted clients, with their tokens, and nothing else. -/
theorem cleanup_keeps_rest {s : OAuthService} (hk : Keyed RegisteredClient.clientId s.clients)
    (now : Time) : Keeps ⟨(· ∈ s.evicted now 0), fun _ => False, fun _ => False⟩ s
      (s.cleanupInactiveClients now 0).1 :=
  OAuthService.cleanup_keeps hk 0 fun _ => id

/-! ### A refresh token -/

/-- The memory holds the token, it is not revoked, and its client is registered. -/
structure Usable (k : String) (t : RefreshToken) (s : OAuthService) : Prop where
  stored : s.refreshTokens.get? k = some t
  unrevoked : t.revoked = false
  registered : s.clients.contains t.clientId = true

/-- The stretch neither revokes the refresh token nor redeems it, and is over before it expires. -/
def SparesToken (cfg : Config) (k : String) (t : RefreshToken) (e : Event) : Prop :=
  (∀ form, e.act.op = .revoke form → getD form "token" "" ≠ k) ∧
    (∀ form, e.act.op = .exchange form → ¬ Rotates cfg e.act.env e.pre.svc form k) ∧
    e.act.env.t0 ≤ t.expiresAt ∧ e.act.env.t1 ≤ t.expiresAt

/-- A client with a refresh token that is live is not evicted. -/
theorem not_evicted {s : OAuthService} {t : RefreshToken} {now : Time} {n : ℕ}
    (hk : Keyed RegisteredClient.clientId s.clients) (ht : s.refreshTokens.get? k = some t)
    (hr : t.revoked = false) (hlive : now ≤ t.expiresAt) : t.clientId ∉ s.evicted now n := by
  intro hmem
  obtain ⟨c, hc, hev⟩ := OAuthService.evictable_of_evicted hk hmem
  have hid : c.clientId = t.clientId := hk _ c hc
  have hrefresh : s.clientHasLiveRefresh c.clientId now = true :=
    (OAuthService.hasLiveRefresh_iff _ _ _).mpr ⟨k, t, ht, hid.symm, hr, hlive⟩
  simp [OAuthService.evictable, hrefresh] at hev

theorem keeps_usable {s s' : OAuthService} {t : RefreshToken} {loss : Loss} (h : Keeps loss s s')
    (hc : ¬ loss.client t.clientId) (hr : ¬ loss.refresh k) (ht : Usable k t s) :
    Usable k t s' := by
  obtain ⟨c, hget⟩ := (Dict.contains_iff _ _).mp ht.registered
  obtain ⟨c', hget', -⟩ := h.clients t.clientId c hget hc
  exact ⟨h.refresh k t ht.stored ht.unrevoked hc hr, ht.unrevoked,
    (Dict.contains_iff _ _).mpr ⟨c', hget'⟩⟩

theorem usable_reload {s : OAuthService} {t : RefreshToken} (hv : s.Valid) (ht : Usable k t s)
    {read : Dict String RegisteredClient × Dict String RefreshToken}
    (hre : Reloads s.clients s.refreshTokens read) (file : Option (List Char)) :
    Usable k t (.reading file read) := by
  have hvalid : t.Valid k := hv.refresh k t (.inl ht.stored)
  obtain ⟨c, hget⟩ := (Dict.contains_iff _ _).mp ht.registered
  refine ⟨?_, ht.unrevoked, (Dict.contains_iff _ _).mpr ⟨c.reload, ?_⟩⟩
  · show read.2.get? k = some t
    rw [hre.2, ht.stored, Option.map_some, hvalid.reload]
  · show read.1.get? t.clientId = some c.reload
    rw [hre.1, hget, Option.map_some]

section Token
variable {tr : Trace} {e : Event} {t : RefreshToken}

/-- A stretch that spares the token keeps it. -/
theorem token_step (hstore : cfg.store ≠ none) (h : (machine cfg).Run (e :: tr) e.post)
    (hfresh : Fresh (e :: tr)) (hs : SparesToken cfg k t e) (hgen : k ∈ generated tr)
    (hk : Kept (Usable k t) e.pre) : Kept (Usable k t) e.post := by
  obtain ⟨hrun, hstep, -⟩ := h.cons
  have hv := run_valid hrun
  obtain ⟨hrevoke, hexchange, hlive0, hlive1⟩ := hs
  have hnew : ∀ x, x ∈ generated tr → x ∉ e.act.generates := fun x => hfresh.not_generates
  refine step_kept hstore hstep hv (fun s read hv' ht hre => usable_reload hv' ht hre) ?_ ?_
    (fun s now ht => keeps_usable (s.persist_keeps cfg e.act.env now : Keeps {} _ _) id id ht) hk
  · intro svc r heff hop ht
    have hclient : t.clientId ∈ generated tr := by
      obtain ⟨c, hc⟩ := (Dict.contains_iff _ _).mp ht.registered
      exact client_generated hrun (.inl hc)
    refine keeps_usable (effect_keeps hv.svc heff) (fun hl => ?_) (fun hl => ?_) ht
    · -- its client is protected by the token itself, in a registration's cleanup too
      rcases lossOf_client hl with ⟨body, source, hop', hev | hid⟩ | ⟨calls, hop'⟩
      · exact not_evicted hv.svc.filed.clients ht.stored ht.unrevoked hlive1 hev.2
      · exact hnew _ hclient (by simp [Act.generates, hop', hid])
      · exact hop calls hop'
    · cases hop' : e.act.op with
      | exchange form =>
        rw [hop'] at hl
        rcases hl with hl | hl
        · exact hexchange form hop' hl
        · exact hnew k hgen (by simp [Act.generates, hop', hl])
      | revoke form =>
        rw [hop'] at hl
        exact hrevoke form hop' hl.symm
      | restart calls => exact hop calls hop'
      | _ => rw [hop'] at hl; exact hl
  · intro calls read hop hread ht
    have hkeyed : Keyed RegisteredClient.clientId
        (OAuthService.reading e.pre.svc.file read).clients :=
      fun id c hc => (hv.svc.clients id c (.inr ⟨read, hread, hc⟩)).1
    exact keeps_usable (cleanup_keeps_rest hkeyed e.act.env.t0)
      (not_evicted hkeyed ht.stored ht.unrevoked hlive0) id ht

/-- Behind an exchange that was answered, the new refresh token is in memory and in the file. -/
theorem token_issued (hstore : cfg.store ≠ none) (h : (machine cfg).Run (e :: tr) e.post)
    {r : TokenResponse} (hr : e.resp = .issued r) :
    r.refreshToken ∈ e.act.generates ∧ ∃ t, Usable r.refreshToken t e.post.svc ∧
      Kept (Usable r.refreshToken t) e.post := by
  obtain ⟨hrun, hstep, -⟩ := h.cons
  obtain ⟨form, hop, hsvc, hok⟩ := step_issued (hr ▸ hstep)
  have hv' := (run_valid h).svc
  have hex := exchange_exchanged cfg e.act.env e.pre.svc form
  generalize e.pre.svc.exchangeToken cfg e.act.env form = res at hsvc hok hex
  cases hex with
  | refused => cases hok
  | @issued s0 clientId resource scopes =>
    -- an answer means that the save behind the two new records returned
    have hname : r.refreshToken =
        (OAuthService.newRefresh e.act.env clientId resource scopes).token := by
      unfold OAuthService.issueTokens at hok
      dsimp only at hok
      split at hok
      · cases hok
      · cases hok
        rfl
    obtain ⟨s1, -, hset, heq, hpersist⟩ := @issueTokens_eq cfg e.act.env s0 clientId resource scopes
    rw [heq] at hsvc
    have hget : e.post.svc.refreshTokens.get? r.refreshToken =
        some (OAuthService.newRefresh e.act.env clientId resource scopes) := by
      rw [hsvc]
      refine (s1.persist_keeps cfg e.act.env _ : Keeps {} _ _).refresh _ _ ?_ rfl id id
      rw [hset, hname, Dict.get?_set_self]
    have hmem : Usable r.refreshToken (OAuthService.newRefresh e.act.env clientId resource scopes)
        e.post.svc := ⟨hget, rfl, (run_whole h).memory.owner _ _ hget⟩
    refine ⟨by simp [Act.generates, hop, hname, OAuthService.newRefresh], _, hmem,
      fun _ => hmem, ?_⟩
    exact persist_stored hstore (hpersist r hok) hsvc hv' fun read hre =>
      usable_reload hv' hmem hre _

/-- An acknowledged refresh token is kept with its client, whatever runs, crashes, fails to save and
    restarts behind it, until a stretch revokes or redeems it or it expires: it is in memory while
    the service is up, and in whatever a start reads back, with every field as it was issued. -/
theorem issued_durable {newer : Trace} (hstore : cfg.store ≠ none)
    (h : (machine cfg).Run (newer ++ e :: tr) sys) (hfresh : Fresh (newer ++ e :: tr))
    {r : TokenResponse} (hr : e.resp = .issued r) : ∃ t, Usable r.refreshToken t e.post.svc ∧
      ((∀ x ∈ newer, SparesToken cfg r.refreshToken t x) → Kept (Usable r.refreshToken t) sys) := by
  obtain ⟨hgen, t, hmem, hkept⟩ := token_issued hstore h.split.1 hr
  exact ⟨t, hmem, kept_since (fun x tr hx hf hs hg hk => token_step hstore hx hf hs hg hk) h
    hfresh hgen hkept⟩

end Token

/-! ### A registration -/

/-- The memory holds the client, perhaps used since. -/
def Registered (k : String) (c : RegisteredClient) (s : OAuthService) : Prop :=
  ∃ c', s.clients.get? k = some c' ∧ c.Ages c'

/-- No cleanup of the stretch evicts the client, neither one that makes room for a registration nor
    the one behind a start. -/
def SparesClient (k : String) (e : Event) : Prop :=
  (∀ body source, e.act.op = .register body source → ¬ Evicts e.act.env e.pre.svc source k) ∧
    ∀ calls read, e.act.op = .restart calls → readFile e.pre.svc.file = some read →
      k ∉ (OAuthService.reading e.pre.svc.file read).evicted e.act.env.t0 0

theorem keeps_registered {s s' : OAuthService} {c : RegisteredClient} {loss : Loss}
    (h : Keeps loss s s') (hn : ¬ loss.client k) (hc : Registered k c s) : Registered k c s' := by
  obtain ⟨c1, hc1, ha1⟩ := hc
  obtain ⟨c2, hc2, ha2⟩ := h.clients k c1 hc1 hn
  exact ⟨c2, hc2, ha1.trans ha2⟩

theorem registered_reload {s : OAuthService} {c : RegisteredClient} (hv : s.Valid)
    (hc : Registered k c s) {read : Dict String RegisteredClient × Dict String RefreshToken}
    (hre : Reloads s.clients s.refreshTokens read) (file : Option (List Char)) :
    Registered k c (.reading file read) := by
  obtain ⟨c1, hc1, ha1⟩ := hc
  have hvalid : c1.Valid k := hv.clients k c1 (.inl hc1)
  refine ⟨c1.reload, ?_, ha1.trans hvalid.reload⟩
  show read.1.get? k = some c1.reload
  rw [hre.1, hc1, Option.map_some]

/-- The client says what the answer said. -/
def OAuthService.Registration.Describes (r : OAuthService.Registration) (c : RegisteredClient) :
    Prop :=
  c = ⟨r.clientId, r.redirectUris, r.clientName, r.tokenEndpointAuthMethod, r.grantTypes,
    r.responseTypes, r.clientIdIssuedAt, c.lastUsedAt⟩

section Client
variable {tr : Trace} {e : Event} {c : RegisteredClient}

/-- A stretch that evicts the client at most by a cleanup, and spares it, keeps it. -/
theorem client_step (hstore : cfg.store ≠ none) (h : (machine cfg).Run (e :: tr) e.post)
    (hfresh : Fresh (e :: tr)) (hs : SparesClient k e) (hgen : k ∈ generated tr)
    (hk : Kept (Registered k c) e.pre) : Kept (Registered k c) e.post := by
  obtain ⟨hrun, hstep, -⟩ := h.cons
  have hv := run_valid hrun
  refine step_kept hstore hstep hv (fun s read hv' hc hre => registered_reload hv' hc hre)
    ?_ ?_ (fun s now hc => keeps_registered
      (s.persist_keeps cfg e.act.env now : Keeps {} _ _) id hc) hk
  · intro svc r heff hop hc
    refine keeps_registered (effect_keeps hv.svc heff) (fun hl => ?_) hc
    -- a client is lost to an eviction, or to a new one of its id, which fresh ids exclude
    rcases lossOf_client hl with ⟨body, source, hop', hev | hid⟩ | ⟨calls, hop'⟩
    · exact hs.1 body source hop' hev
    · exact hfresh.not_generates hgen (by simp [Act.generates, hop', hid])
    · exact hop calls hop'
  · intro calls read hop hread hc
    have hkeyed : Keyed RegisteredClient.clientId
        (OAuthService.reading e.pre.svc.file read).clients :=
      fun id c hc => (hv.svc.clients id c (.inr ⟨read, hread, hc⟩)).1
    exact keeps_registered (cleanup_keeps_rest hkeyed e.act.env.t0) (hs.2 calls read hop hread) hc

/-- A registration that reached its caller comes from one whose save returned. -/
theorem step_registered {body : Json} {source : String} {r : OAuthService.Registration}
    (h : sys.step cfg a = some (sys', .registered r)) (hop : a.op = .register body source) :
    sys'.svc = (sys.svc.registerClient cfg a.env body source).1 ∧
      (sys.svc.registerClient cfg a.env body source).2 = .ok r := by
  have heff := step_answered h (by simp) (by simp)
  rw [hop] at heff
  generalize hsvc : sys'.svc = svc at heff
  generalize hresp : Resp.registered r = resp at heff
  cases heff with
  | idle hidle => cases hidle
  | register =>
    refine ⟨rfl, ?_⟩
    cases hres : (sys.svc.registerClient cfg a.env body source).2 with
    | ok r' => rw [hres] at hresp; cases hresp; rfl
    | error e => rw [hres] at hresp; cases hresp

/-- A registration that returns has saved the client that it describes. -/
theorem register_saved {s : OAuthService} {env : Env} {body : Json} {source : String}
    (hk : Keyed RegisteredClient.clientId s.clients) {r : OAuthService.Registration}
    (h : (s.registerClient cfg env body source).2 = .ok r) : ∃ c, r.Describes c ∧
      c.clientId = newToken "client" env.random0 ∧
      s.registerClient cfg env body source = ((s.saved cfg env source c).1, .ok r) ∧
      (s.saved cfg env source c).2 = .ok () := by
  rw [OAuthService.registerClient_eq cfg env s hk] at h ⊢
  split at h
  · cases h
  split at h
  · cases h
  split at h
  · cases h
  next hlimit hinactive hsize =>
  rw [if_neg hlimit, if_neg hinactive, if_neg hsize]
  cases hbody : OAuthService.checkBody body with
  | error e => rw [hbody] at h; cases h
  | ok fields =>
    obtain ⟨uris, grants, name⟩ := fields
    rw [hbody] at h
    refine ⟨OAuthService.newClient env uris grants name, ?_⟩
    cases hs : (s.saved cfg env source (OAuthService.newClient env uris grants name)).2 with
    | error e => simp only [hs] at h; cases h
    | ok u =>
      simp only [hs] at h
      cases h
      exact ⟨rfl, rfl, by simp only [hs]; rfl, rfl⟩

/-- Behind a registration that was answered, the client is in memory and in the file. -/
theorem client_registered (hstore : cfg.store ≠ none) (h : (machine cfg).Run (e :: tr) e.post)
    {body : Json} {source : String} (hop : e.act.op = .register body source)
    {r : OAuthService.Registration} (hr : e.resp = .registered r) : r.clientId ∈ e.act.generates ∧
      ∃ c, r.Describes c ∧ Kept (Registered r.clientId c) e.post := by
  obtain ⟨hrun, hstep, -⟩ := h.cons
  have hv' := (run_valid h).svc
  obtain ⟨hsvc, hok⟩ := step_registered (hr ▸ hstep) hop
  obtain ⟨c, hdesc, hid, heq, hsaved⟩ := register_saved (run_valid hrun).svc.filed.clients hok
  rw [heq] at hsvc
  have hname : r.clientId = c.clientId := by rw [hdesc]
  have hmem : Registered r.clientId c e.post.svc := by
    rw [hsvc, hname]
    refine keeps_registered (OAuthService.persist_keeps cfg e.act.env _ _ : Keeps {} _ _) id
      ⟨c, ?_, .refl c⟩
    exact Dict.get?_set_self ..
  refine ⟨by simp [Act.generates, hop, hname, hid], c, hdesc, fun _ => hmem, ?_⟩
  exact persist_stored hstore hsaved hsvc hv' fun read hre => registered_reload hv' hmem hre _

/-- An acknowledged registration is kept over crashes, failed saves and restarts until a cleanup
    evicts it: the client is in memory while the service is up, and in whatever a start reads back,
    with every field that the answer described. -/
theorem registered_durable {newer : Trace} (hstore : cfg.store ≠ none)
    (h : (machine cfg).Run (newer ++ e :: tr) sys) (hfresh : Fresh (newer ++ e :: tr))
    {body : Json} {source : String} (hop : e.act.op = .register body source)
    {r : OAuthService.Registration} (hr : e.resp = .registered r) : ∃ c, r.Describes c ∧
      ((∀ x ∈ newer, SparesClient r.clientId x) → Kept (Registered r.clientId c) sys) := by
  obtain ⟨hgen, c, hdesc, hkept⟩ := client_registered hstore h.split.1 hop hr
  exact ⟨c, hdesc, kept_since (fun x tr hx hf hs hg hk => client_step hstore hx hf hs hg hk) h
    hfresh hgen hkept⟩

end Client

/-! ### A restart behind a refused refresh -/

/-- What a start reads from the state file is what the memory holds. -/
def OAuthService.InStep (s : OAuthService) : Prop :=
  ∀ read, readFile s.file = some read → Reloads s.clients s.refreshTokens read

/-- A save that returned leaves the file in step with the memory. -/
theorem persist_inStep {env : Env} {s : OAuthService} {now : Time} (hstore : cfg.store ≠ none)
    (hok : (s.persist cfg env now).2 = .ok ()) (hv : (s.persist cfg env now).1.Valid) :
    (s.persist cfg env now).1.InStep := by
  intro read hread
  rcases persist_ok hok with hnone | ⟨n, hn⟩
  · exact absurd hnone hstore
  · rw [hn] at hread
    exact readFile_take hv.filed.clients (fun k t ht => (hv.filed.refresh k t ht).1) hread

/-- The first map lacks some tokens of the second, none of which can be redeemed from `now` on. -/
def Lapsed (now : Time) (m m' : Dict String RefreshToken) : Prop :=
  ∀ k, m.get? k = m'.get? k ∨
    (m.get? k = none ∧ ∃ t, m'.get? k = some t ∧ (t.revoked = true ∨ t.expiresAt < now))

theorem Lapsed.trans {now : Time} {m m' m2 : Dict String RefreshToken} (h : Lapsed now m m')
    (h' : Lapsed now m' m2) : Lapsed now m m2 := by
  intro k
  rcases h k with heq | ⟨hnone, t, hsome, hdead⟩
  · rw [heq]
    exact h' k
  · rcases h' k with heq' | ⟨hnone', -⟩
    · exact .inr ⟨hnone, t, heq' ▸ hsome, hdead⟩
    · rw [hnone'] at hsome
      cases hsome

theorem persist_lapsed (s : OAuthService) (env : Env) (now later : Time) :
    Lapsed later (s.persist cfg env now).1.refreshTokens s.refreshTokens := by
  intro k
  cases hk : (s.persist cfg env now).1.refreshTokens.get? k with
  | some t => exact .inl (s.persist_refresh cfg env now hk).symm
  | none =>
    cases hold : s.refreshTokens.get? k with
    | none => exact .inl rfl
    | some t =>
      refine .inr ⟨rfl, t, rfl, .inl ?_⟩
      by_contra hlive
      have hkept := (s.persist_keeps cfg env now : Keeps {} _ _).refresh k t hold
        (Bool.eq_false_of_not_eq_true hlive) id id
      rw [hk] at hkept
      cases hkept

theorem cleanup_lapsed {s : OAuthService} (hk : Keyed RegisteredClient.clientId s.clients)
    {now later : Time} (hlater : now ≤ later) :
    Lapsed later (s.cleanupInactiveClients now 0).1.refreshTokens s.refreshTokens := by
  intro k
  rw [OAuthService.cleanup_eq hk, OAuthService.refresh_removeClients]
  cases hold : s.refreshTokens.get? k with
  | none => exact .inl rfl
  | some t =>
    rw [Option.filter_some]
    split
    · exact .inl rfl
    next hevicted =>
    refine .inr ⟨rfl, t, rfl, ?_⟩
    by_contra hlive
    obtain ⟨hr, hexp⟩ := not_or.mp hlive
    have hnot := not_evicted (n := 0) hk hold (Bool.eq_false_of_not_eq_true hr)
      (hlater.trans (not_lt.mp hexp))
    exact hevicted (by simpa using hnot)

/-- A start from a file in step with the memory lacks what lapsed. -/
theorem start_lapsed {s svc : OAuthService} (hv : s.Valid) (hs : s.InStep)
    (hstore : cfg.store ≠ none) {env : Env} {calls : OAuthService.StartCalls}
    (hstart : OAuthService.start cfg env calls s.file = (svc, .ok ())) {later : Time}
    (hlater : env.t0 ≤ later) : Lapsed later svc.refreshTokens s.refreshTokens := by
  have hread : ∀ read, readFile s.file = some read →
      Lapsed later ((OAuthService.reading s.file read).cleanupInactiveClients env.t0 0).1.refreshTokens
        s.refreshTokens := by
    intro read hread
    have hkeyed : Keyed RegisteredClient.clientId (OAuthService.reading s.file read).clients :=
      fun id c hc => (hv.clients id c (.inr ⟨read, hread, hc⟩)).1
    refine (cleanup_lapsed hkeyed hlater).trans fun k => .inl ?_
    show read.2.get? k = s.refreshTokens.get? k
    rw [(hs read hread).2]
    cases hk : s.refreshTokens.get? k with
    | none => rfl
    | some t => rw [Option.map_some, (hv.refresh k t (.inl hk)).reload]
  have hcase := start_started hstore env calls s.file
  generalize OAuthService.start cfg env calls s.file = res at hcase hstart
  cases hcase with
  | refused e => cases hstart
  | read h =>
    obtain ⟨rfl, -⟩ := Prod.mk.inj hstart
    exact hread _ h
  | saved h =>
    obtain rfl := congrArg Prod.fst hstart
    exact (persist_lapsed _ env env.t1 later).trans (hread _ h)

theorem persist_result (s s' : OAuthService) (env : Env) (now : Time) :
    (s.persist cfg env now).2 = (s'.persist cfg env now).2 := by
  unfold OAuthService.persist
  cases cfg.store with
  | none => rfl
  | some store =>
    dsimp only
    rw [OAuthService.result_save store env.save (accepted_payload _ _) (accepted_payload _ _)]

/-- A refresh is answered alike without the tokens that lapsed. -/
theorem refresh_answer {env : Env} {s s' : OAuthService}
    (h : Lapsed env.t0 s'.refreshTokens s.refreshTokens) {form : Dict String String}
    (hg : getD form "grant_type" "" = "refresh_token") :
    (s'.exchangeToken cfg env form).2 = (s.exchangeToken cfg env form).2 := by
  have hne : getD form "grant_type" "" ≠ "authorization_code" := by rw [hg]; decide
  simp only [OAuthService.exchangeToken, if_neg hne, if_pos hg]
  unfold OAuthService.exchangeRefreshToken
  rcases h (getD form "refresh_token" "") with heq | ⟨hnone, t, hsome, hdead⟩
  · rw [heq]
    cases s.refreshTokens.get? (getD form "refresh_token" "") with
    | none => rfl
    | some record =>
      dsimp only
      cases OAuthService.checkRefresh cfg env form record with
      | error e => rfl
      | ok u =>
        dsimp only
        cases OAuthService.refreshScopes form record with
        | error e => rfl
        | ok scopes =>
          dsimp only
          rw [OAuthService.issueTokens_eq, OAuthService.issueTokens_eq]
          exact congrArg (Except.map _) (persist_result _ _ env env.t3)
  -- an unknown token and one that cannot be redeemed are refused with the same words
  · rw [hnone, hsome]
    have hcheck : OAuthService.checkRefresh cfg env form t =
        .error (invalidGrant "invalid refresh token") := by
      simp only [OAuthService.checkRefresh, bind, Except.bind]
      rw [if_pos hdead]
    dsimp only
    rw [hcheck]

/-- Behind a refresh that was refused and spared the service, where the last save returned, a
    restart answers every refresh as the running service does. -/
theorem OAuthService.Spared.restart {s s' svc : OAuthService} (h : Spared cfg s s') (hv : s.Valid)
    (hs : s.InStep) (hstore : cfg.store ≠ none) {env later : Env} {calls : StartCalls}
    (hstart : start cfg env calls s'.file = (svc, .ok ())) (hlater : env.t0 ≤ later.t0)
    {form : Dict String String} (hg : getD form "grant_type" "" = "refresh_token") :
    (svc.exchangeToken cfg later form).2 = (s'.exchangeToken cfg later form).2 := by
  rw [h.file] at hstart
  rw [h.again, refresh_answer (start_lapsed hv hs hstore hstart hlater) hg]

/-! ### A crash and a restart -/

/-- The sample run with a state file, a crash behind the exchange, and a restart. -/
def restartedRun : List Act :=
  grantedRun ++ [⟨.validate none ∅, later 5, true⟩,
    (Op.restart ⟨⟨false, .safe⟩, ⟨.safe, true⟩⟩).run 6 "" ""]

/-- The stretch neither registers nor evicts the sample client. -/
def sparesSampleClient (x : Event) : Bool :=
  match x.act.op with
  | .register _ _ => false
  | .restart _ => (readFile x.pre.svc.file).all fun read =>
      !(((OAuthService.reading x.pre.svc.file read).evicted x.act.env.t0 0).contains "client_c")
  | _ => true

/-- The stretch is not about the sample token, and over before it expires. -/
def sparesSampleToken (x : Event) : Bool :=
  match x.act.op with
  | .revoke _ | .exchange _ => false
  | _ => x.act.env.t0 ≤ 6 && x.act.env.t1 ≤ 6

def issuedOf : Resp → Option TokenResponse
  | .issued r => some r
  | _ => none

def registeredOf (e : Event) : Option OAuthService.Registration :=
  match e.act.op, e.resp with
  | .register _ _, .registered r => some r
  | _, _ => none

/-- What is seen of the run: it crashed and is up again, its identifiers differ, and behind their
    acknowledgements the token and the client are spared. -/
def restartedSeen (r : Trace × System) : Bool :=
  r.2.up && (r.1.any fun e => e.act.crash) && decide (generated r.1).Nodup &&
    (r.1.take 2).all sparesSampleToken && (r.1.take 11).all sparesSampleClient &&
    (r.1[2]?.bind fun e => issuedOf e.resp).any (fun r => r.refreshToken = "rtk_y") &&
    (r.1[2]?.all fun e => (e.post.svc.refreshTokens.get? "rtk_y").all fun t => 6 ≤ t.expiresAt) &&
    (r.1[11]?.bind registeredOf).any fun r => r.clientId = "client_c"

theorem restarted_seen : restartedSeen (after storeConfig restartedRun) = true := by
  decide +kernel

theorem issuedOf_eq {r : Resp} {t : TokenResponse} (h : issuedOf r = some t) : r = .issued t := by
  cases r <;> cases h
  rfl

theorem registeredOf_eq {e : Event} {r : OAuthService.Registration} (h : registeredOf e = some r) :
    (∃ body source, e.act.op = .register body source) ∧ e.resp = .registered r := by
  unfold registeredOf at h
  split at h
  · next hop hresp =>
    cases h
    exact ⟨⟨_, _, hop⟩, hresp⟩
  · cases h

theorem sparesClient_of_sample {x : Event} (h : sparesSampleClient x = true) :
    SparesClient "client_c" x := by
  unfold sparesSampleClient at h
  constructor
  · intro body source hop
    rw [hop] at h
    cases h
  · intro calls read hop hread
    rw [hop] at h
    simpa [hread] using h

theorem sparesToken_of_sample {x : Event} {t : RefreshToken} (h : sparesSampleToken x = true)
    (ht : 6 ≤ t.expiresAt) : SparesToken storeConfig "rtk_y" t x := by
  unfold sparesSampleToken at h
  refine ⟨fun form hop => ?_, fun form hop => ?_, ?_⟩
  · rw [hop] at h
    cases h
  · rw [hop] at h
    cases h
  · split at h
    · cases h
    · cases h
    · simp only [Bool.and_eq_true, decide_eq_true_eq] at h
      exact ⟨h.1.trans ht, h.2.trans ht⟩

/-- The token of the sample run is usable behind the crash and the restart. -/
theorem issued_durable_sample : ∃ tr sys t, (machine storeConfig).Run tr sys ∧
    (tr.any fun e => e.act.crash) = true ∧ sys.up = true ∧ Usable "rtk_y" t sys.svc := by
  have hrun := after_run storeConfig restartedRun
  have hseen := restarted_seen
  generalize after storeConfig restartedRun = res at hrun hseen
  obtain ⟨tr, sys⟩ := res
  simp only [restartedSeen, Bool.and_eq_true, decide_eq_true_eq] at hseen
  obtain ⟨⟨⟨⟨⟨⟨⟨hup, hcrash⟩, hnodup⟩, hspares⟩, -⟩, hissued⟩, hlive⟩, -⟩ := hseen
  obtain ⟨r, hr, hname⟩ := (Option.any_eq_true _ _).mp hissued
  simp only [decide_eq_true_eq] at hname
  obtain ⟨newer, e, older, rfl, hlen, hresp⟩ := entry_eq hr
  have hget : (newer ++ e :: older)[2]? = some e := by simp [← hlen]
  have htake : (newer ++ e :: older).take 2 = newer := by simp [← hlen]
  rw [hget] at hlive
  rw [htake] at hspares
  obtain ⟨t, hmem, hkept⟩ := issued_durable (by decide) hrun hnodup (issuedOf_eq hresp)
  rw [hname] at hmem hkept
  have hexpires : 6 ≤ t.expiresAt := by simpa [hmem.stored] using hlive
  have hsys := hkept fun x hx =>
    sparesToken_of_sample (List.all_eq_true.mp hspares x hx) hexpires
  exact ⟨_, sys, t, hrun, hcrash, hup, hsys.memory hup⟩

/-- The client of the sample run is registered behind the crash and the restart. -/
theorem registered_durable_sample : ∃ tr sys c, (machine storeConfig).Run tr sys ∧
    (tr.any fun e => e.act.crash) = true ∧ sys.up = true ∧ Registered "client_c" c sys.svc := by
  have hrun := after_run storeConfig restartedRun
  have hseen := restarted_seen
  generalize after storeConfig restartedRun = res at hrun hseen
  obtain ⟨tr, sys⟩ := res
  simp only [restartedSeen, Bool.and_eq_true, decide_eq_true_eq] at hseen
  obtain ⟨⟨⟨⟨⟨⟨⟨hup, hcrash⟩, hnodup⟩, -⟩, hspares⟩, -⟩, -⟩, hregistered⟩ := hseen
  obtain ⟨r, hr, hname⟩ := (Option.any_eq_true _ _).mp hregistered
  simp only [decide_eq_true_eq] at hname
  obtain ⟨newer, e, older, rfl, hlen, hresp⟩ := entry_eq hr
  have htake : (newer ++ e :: older).take 11 = newer := by simp [← hlen]
  rw [htake] at hspares
  obtain ⟨⟨body, source, hop⟩, hresp⟩ := registeredOf_eq hresp
  obtain ⟨c, -, hkept⟩ := registered_durable (by decide) hrun hnodup hop hresp
  rw [hname] at hkept
  have hsys := hkept fun x hx => sparesClient_of_sample (List.all_eq_true.mp hspares x hx)
  exact ⟨_, sys, c, hrun, hcrash, hup, hsys.memory hup⟩

end DataRelay.OAuth
