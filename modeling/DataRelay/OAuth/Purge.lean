import DataRelay.OAuth.Registration

/-! What a save drops, and that nobody notices.

    `_persist_locked` drops the refresh tokens that are both revoked and past their expiry. `Hides`
    relates a service without some revoked tokens to one that still has them, in memory or in the
    state file. Every operation gives both the same response and keeps them related: what reads the
    tokens (liveness, rotation, revocation, a start) reads past the revoked ones. -/

namespace DataRelay.OAuth
open Lib

/-! ### Maps without some revoked tokens -/

/-- The first map lacks some tokens of the second, all of them revoked. -/
def Fewer (m m' : Dict String RefreshToken) : Prop :=
  ∀ k, m.get? k = m'.get? k ∨
    (m.get? k = none ∧ ∃ t, m'.get? k = some t ∧ t.revoked = true ∧ t.Valid k)

variable {m m' m2 : Dict String RefreshToken}

theorem Fewer.refl (m : Dict String RefreshToken) : Fewer m m := fun _ => .inl rfl

theorem Fewer.trans (h : Fewer m m') (h' : Fewer m' m2) : Fewer m m2 := by
  intro k
  rcases h k with heq | ⟨hnone, t, hsome, hdead⟩
  · rw [heq]
    exact h' k
  · rcases h' k with heq' | ⟨hnone', -⟩
    · exact .inr ⟨hnone, t, heq' ▸ hsome, hdead⟩
    · rw [hnone'] at hsome
      cases hsome

theorem Fewer.valid (h : Fewer m m') (hm : ∀ k t, m.get? k = some t → t.Valid k) :
    ∀ k t, m'.get? k = some t → t.Valid k := by
  intro k t hk
  rcases h k with heq | ⟨-, t', hsome, -, hvalid⟩
  · exact hm k t (heq.trans hk)
  · rw [hk] at hsome
    cases hsome
    exact hvalid

theorem Fewer.filter (h : Fewer m m') (p : String → RefreshToken → Bool) :
    Fewer (m.filter p) (m'.filter p) := by
  intro k
  rw [Dict.get?_filter, Dict.get?_filter]
  rcases h k with h | ⟨hnone, t, hsome, hdead⟩
  · exact .inl (by rw [h])
  · rw [hnone, hsome, Option.filter_some]
    split
    · exact .inr ⟨rfl, t, rfl, hdead⟩
    · exact .inl rfl

theorem Fewer.set (h : Fewer m m') (k : String) (t : RefreshToken) :
    Fewer (m.set k t) (m'.set k t) := by
  intro j
  rw [Dict.get?_set, Dict.get?_set]
  split
  · exact .inl rfl
  · exact h j

theorem Fewer.revoke (h : Fewer m m') (k : String) :
    Fewer (m.modify k fun t => { t with revoked := true })
      (m'.modify k fun t => { t with revoked := true }) := by
  intro j
  rw [Dict.get?_modify, Dict.get?_modify]
  split
  · rcases h j with h | ⟨hnone, t, hsome, -, hvalid⟩
    · exact .inl (by rw [h])
    · exact .inr ⟨by rw [hnone]; rfl, { t with revoked := true }, by rw [hsome]; rfl, rfl, hvalid⟩
  · exact h j

/-- The same tokens read back. -/
theorem Fewer.reload (h : Fewer m m') {r r' : Dict String RefreshToken}
    (hr : ∀ k, r.get? k = (m.get? k).map RefreshToken.reload)
    (hr' : ∀ k, r'.get? k = (m'.get? k).map RefreshToken.reload) : Fewer r r' := by
  intro k
  rw [hr, hr']
  rcases h k with h | ⟨hnone, t, hsome, hrevoked, hvalid⟩
  · exact .inl (by rw [h])
  · refine .inr ⟨by rw [hnone]; rfl, t, ?_, hrevoked, hvalid⟩
    rw [hsome, Option.map_some, hvalid.reload]

/-- What a save drops. -/
theorem fewer_dropExpired (s : OAuthService) (now : Time)
    (hs : ∀ k t, s.refreshTokens.get? k = some t → t.Valid k) :
    Fewer (s.dropExpired now).refreshTokens s.refreshTokens := by
  intro k
  rw [OAuthService.dropExpired, Dict.get?_filter]
  cases hk : s.refreshTokens.get? k with
  | none => exact .inl rfl
  | some t =>
    rw [Option.filter_some]
    split
    · exact .inl rfl
    next hdrop =>
    have hdrop : t.expiresAt < now ∧ t.revoked = true := by simpa using hdrop
    exact .inr ⟨rfl, t, rfl, hdrop.2, hs k t hk⟩

/-! ### Files that a start reads alike -/

/-- A file that no save has cut short. -/
def WholeFile (file : Option (List Char)) : Prop :=
  ∀ text, file = some text → ∃ clients m, text = Json.dumps (payload clients m)

/-- A write that left a whole file has transferred the whole text. -/
theorem take_of_wholeFile {clients : Dict String RegisteredClient} {n : ℕ}
    (h : WholeFile (some ((Json.dumps (payload clients m)).take n))) :
    (Json.dumps (payload clients m)).take n = Json.dumps (payload clients m) := by
  by_contra hne
  have hlt : n < (Json.dumps (payload clients m)).length := by
    by_contra hge
    exact hne (List.take_of_length_le (not_lt.mp hge))
  obtain ⟨clients', m', htext⟩ := h _ rfl
  have hnone := Json.loads_take (payload_WF clients m) hlt
  have hsome := Json.loads_dumps (payload_WF clients' m')
  rw [← htext] at hsome
  have hnone' : Json.loads ((Json.dumps (payload clients m)).take n) = none := hnone
  rw [hnone'] at hsome
  cases hsome

/-- The clients that are read back depend on the clients of the payload only. -/
theorem loadPayload_clients {clients : Dict String RegisteredClient}
    {read read' : Dict String RegisteredClient × Dict String RefreshToken}
    (h : loadPayload (Json.sortKeys (payload clients m)) = .ok read)
    (h' : loadPayload (Json.sortKeys (payload clients m')) = .ok read') : read.1 = read'.1 := by
  have hitems : ∀ m, itemsOf (Json.sortKeys (payload clients m)) "clients" =
      itemsOf (Json.sortKeys (payload clients ∅)) "clients" := by
    intro m
    have field (m) := get?_sorted ⟨_, rfl, by simp⟩ (v := payload clients m) (k := "clients")
      (w := .obj (clients.items.map fun e => (e.1, clientRecord e.2))) rfl
    rw [itemsOf, itemsOf, field, field]
  simp only [loadPayload, hitems, bind, Except.bind, pure, Except.pure] at h h'
  split at h
  · cases h
  next hcs =>
  split at h
  · cases h
  rw [hcs] at h'
  dsimp only at h'
  split at h'
  · cases h'
  cases h
  cases h'
  rfl

/-- A start reads the same clients from the two files, and from the first fewer tokens. -/
def Alike (file file' : Option (List Char)) : Prop :=
  ∀ store calls,
    (∃ e, OAuthService.loaded store calls file = .error e ∧
      OAuthService.loaded store calls file' = .error e) ∨
    ∃ clients m m', Fewer m m' ∧
      OAuthService.loaded store calls file =
        .ok { OAuthService.empty file with clients := clients, refreshTokens := m } ∧
      OAuthService.loaded store calls file' =
        .ok { OAuthService.empty file' with clients := clients, refreshTokens := m' }

theorem Alike.refl (file : Option (List Char)) : Alike file file := by
  intro store calls
  cases h : OAuthService.loaded store calls file with
  | error e => exact .inl ⟨e, rfl, rfl⟩
  | ok s =>
    obtain ⟨read, -, rfl⟩ := loaded_eq h
    exact .inr ⟨_, _, _, .refl _, rfl, rfl⟩

theorem Alike.trans {file file' file2 : Option (List Char)} (h : Alike file file')
    (h' : Alike file' file2) : Alike file file2 := by
  intro store calls
  rcases h store calls with ⟨e, h1, h2⟩ | ⟨clients, m, m', hm, h1, h2⟩
  · rcases h' store calls with ⟨e', h1', h2'⟩ | ⟨_, _, _, _, h1', _⟩
    · rw [h2] at h1'
      cases h1'
      exact .inl ⟨e, h1, h2'⟩
    · rw [h2] at h1'
      cases h1'
  · rcases h' store calls with ⟨e', h1', -⟩ | ⟨clients', m1, m2, hm', h1', h2'⟩
    · rw [h2] at h1'
      cases h1'
    · rw [h2] at h1'
      cases h1'
      exact .inr ⟨clients, m, m2, hm.trans hm', h1, h2'⟩

/-- The payloads of the same clients, with fewer tokens in the first. -/
theorem alike_dumps {clients : Dict String RegisteredClient}
    (hc : Keyed RegisteredClient.clientId clients) (hm : ∀ k t, m.get? k = some t → t.Valid k)
    (h : Fewer m m') :
    Alike (some (Json.dumps (payload clients m))) (some (Json.dumps (payload clients m'))) := by
  obtain ⟨c, r, hload, -, hr⟩ := loadPayload_payload hc fun k t hk => (hm k t hk).1
  obtain ⟨c', r', hload', -, hr'⟩ := loadPayload_payload hc fun k t hk => (h.valid hm k t hk).1
  obtain rfl : c = c' := loadPayload_clients hload hload'
  intro store calls
  unfold OAuthService.loaded
  simp only [bind, Except.bind, pure, Except.pure]
  cases store.init calls.init with
  | error e => exact .inl ⟨e, rfl, rfl⟩
  | ok u =>
    simp only [DurableOAuthStore.load]
    cases store.assertSafeFileMode calls.load.mode with
    | error e => exact .inl ⟨e, rfl, rfl⟩
    | ok u =>
      dsimp only
      by_cases hread : calls.load.read = false
      · rw [if_pos hread, if_pos hread]
        exact .inl ⟨_, rfl, rfl⟩
      · rw [if_neg hread, if_neg hread, Json.loads_dumps (payload_WF clients m),
          Json.loads_dumps (payload_WF clients m')]
        dsimp only
        rw [checkPayload_sorted, checkPayload_sorted]
        dsimp only
        rw [hload, hload']
        exact .inr ⟨c, r, r', h.reload hr hr', rfl, rfl⟩

/-! ### Services that cannot be told apart -/

/-- The first service lacks some revoked tokens of the second, in memory or in the state file. -/
def Hides (s s' : OAuthService) : Prop :=
  ∃ m file, s = { s' with refreshTokens := m, file := file } ∧ Fewer m s'.refreshTokens ∧
    Alike file s'.file

/-- The same response, and services that still cannot be told apart. -/
def Same {α : Type} (r r' : OAuthService × α) : Prop := r.2 = r'.2 ∧ Hides r.1 r'.1

theorem Hides.refl (s : OAuthService) : Hides s s :=
  ⟨s.refreshTokens, s.file, rfl, .refl _, .refl _⟩

theorem Hides.trans {s s' s2 : OAuthService} (h : Hides s s') (h' : Hides s' s2) : Hides s s2 := by
  obtain ⟨m, file, rfl, hm, hf⟩ := h
  obtain ⟨m', file', rfl, hm', hf'⟩ := h'
  exact ⟨m, file, rfl, hm.trans hm', hf.trans hf'⟩

theorem Same.map {α β : Type} {r r' : OAuthService × Except PyError α} (h : Same r r')
    (f : α → β) : Same (r.1, r.2.map f) (r'.1, r'.2.map f) :=
  ⟨congrArg (Except.map f) h.1, h.2⟩

theorem Same.bind {α β : Type} {r r' : OAuthService × Except PyError α} (h : Same r r')
    (f : α → Except PyError β) : Same (r.1, r.2.bind f) (r'.1, r'.2.bind f) :=
  ⟨congrArg (Except.bind · f) h.1, h.2⟩

namespace OAuthService
variable {s s' : OAuthService}

theorem hasLiveRefresh_hides (h : Hides s s') (id : String) (t : Time) :
    s.clientHasLiveRefresh id t = s'.clientHasLiveRefresh id t := by
  obtain ⟨m, file, rfl, hm, -⟩ := h
  rw [Bool.eq_iff_iff, hasLiveRefresh_iff, hasLiveRefresh_iff]
  constructor
  · rintro ⟨k, token, hk, hid, hr, hlive⟩
    rcases hm k with heq | ⟨hnone, -⟩
    · exact ⟨k, token, heq ▸ hk, hid, hr, hlive⟩
    · have hk' : m.get? k = some token := hk
      rw [hnone] at hk'
      cases hk'
  · rintro ⟨k, token, hk, hid, hr, hlive⟩
    rcases hm k with heq | ⟨-, dead, hsome, hdead, -⟩
    · exact ⟨k, token, heq.trans hk, hid, hr, hlive⟩
    · rw [hk] at hsome
      cases hsome
      rw [hr] at hdead
      cases hdead

theorem hides_removeClients (h : Hides s s') (ids : List String) :
    Hides (s.removeClients ids) (s'.removeClients ids) := by
  obtain ⟨m, file, rfl, hm, hf⟩ := h
  exact ⟨_, file, rfl, hm.filter _, hf⟩

theorem evictable_hides (h : Hides s s') (t : Time) : s.evictable t = s'.evictable t := by
  funext c
  unfold evictable
  rw [hasLiveRefresh_hides h]
  obtain ⟨m, file, rfl, -, -⟩ := h
  rfl

theorem inactiveOccupancy_hides (h : Hides s s') (t : Time) :
    s.inactiveOccupancy t = s'.inactiveOccupancy t := by
  unfold inactiveOccupancy
  simp only [hasLiveRefresh_hides h]
  obtain ⟨m, file, rfl, -, -⟩ := h
  rfl

theorem clients_hides (h : Hides s s') : s.clients = s'.clients := by
  obtain ⟨m, file, rfl, -, -⟩ := h
  rfl

theorem inactiveClients_hides (h : Hides s s') (t : Time) :
    s.inactiveClients t = s'.inactiveClients t := by
  unfold inactiveClients
  rw [evictable_hides h, clients_hides h]

/-- The same clients are evicted. -/
theorem evicted_hides (h : Hides s s') (t : Time) (n : ℕ) : s.evicted t n = s'.evicted t n := by
  have hstale : s.stale t = s'.stale t := by
    funext c
    unfold stale
    rw [evictable_hides h]
  have hwithout : Hides (s.withoutStale t) (s'.withoutStale t) := by
    unfold withoutStale
    rw [hstale, clients_hides h]
    exact hides_removeClients h _
  unfold evicted excess
  rw [hstale, clients_hides h, inactiveClients_hides hwithout, inactiveOccupancy_hides hwithout,
    clients_hides hwithout]

/-! ### One save -/

/-- What a save raises does not depend on what it saves. -/
theorem result_save (store : DurableOAuthStore) (calls : DurableOAuthStore.SaveCalls) {p p' : Json}
    (hp : DurableOAuthStore.Accepted p) (hp' : DurableOAuthStore.Accepted p') (dir dir' : Dir) :
    (store.save calls p dir).result = (store.save calls p' dir').result := by
  unfold DurableOAuthStore.save
  rw [hp.1, hp.2, hp'.1, hp'.2]
  cases store.assertSafeDir calls.dir with
  | error e => rfl
  | ok u =>
    cases calls.mkstemp with
    | false => rfl
    | true =>
      cases calls.write with
      | none => rfl
      | some n =>
        cases (calls.fsync && calls.close && calls.chmodTmp && calls.replace) with
        | false => rfl
        | true => rfl

theorem file_of_renames (store : DurableOAuthStore) {calls : DurableOAuthStore.SaveCalls} {p : Json}
    (hp : DurableOAuthStore.Accepted p) {n : ℕ} (hr : calls.Renames n) (dir : Dir) :
    ((store.save calls p dir).last dir).file = some ((Json.dumps p).take n) := by
  rw [DurableOAuthStore.save_of_renames store calls p dir hp hr]
  rfl

theorem file_of_not_renames (store : DurableOAuthStore) {calls : DurableOAuthStore.SaveCalls}
    {dir : Dir} (htmp : dir.tmp = none) (hr : ∀ n, ¬ calls.Renames n) (p : Json) :
    ((store.save calls p dir).last dir).file = dir.file := by
  have h := DurableOAuthStore.save_of_not_renames store calls p dir hr htmp
  unfold DurableOAuthStore.Saved.last
  cases hl : (store.save calls p dir).states.getLast? with
  | none => rfl
  | some d => exact h.1 d (List.mem_of_getLast? hl)

/-- Two saves of the same clients, with fewer tokens in the first: they end alike. -/
theorem save_alike (store : DurableOAuthStore) (calls : DurableOAuthStore.SaveCalls)
    {clients : Dict String RegisteredClient} (hc : Keyed RegisteredClient.clientId clients)
    (hm : ∀ k t, m.get? k = some t → t.Valid k) (h : Fewer m m') {file file' : Option (List Char)}
    (hf : Alike file file')
    (hw : WholeFile ((store.save calls (payload clients m) ⟨file, none⟩).last ⟨file, none⟩).file)
    (hw' : WholeFile
      ((store.save calls (payload clients m') ⟨file', none⟩).last ⟨file', none⟩).file) :
    (store.save calls (payload clients m) ⟨file, none⟩).result =
        (store.save calls (payload clients m') ⟨file', none⟩).result ∧
      Alike ((store.save calls (payload clients m) ⟨file, none⟩).last ⟨file, none⟩).file
        ((store.save calls (payload clients m') ⟨file', none⟩).last ⟨file', none⟩).file := by
  refine ⟨result_save store calls (accepted_payload _ _) (accepted_payload _ _) _ _, ?_⟩
  by_cases hr : ∃ n, calls.Renames n
  · obtain ⟨n, hr⟩ := hr
    rw [file_of_renames store (accepted_payload _ _) hr] at hw hw' ⊢
    rw [file_of_renames store (accepted_payload _ _) hr, take_of_wholeFile hw,
      take_of_wholeFile hw']
    exact alike_dumps hc hm h
  · have hr := not_exists.mp hr
    rw [file_of_not_renames store rfl hr, file_of_not_renames store rfl hr]
    exact hf

variable (cfg : Config) (env : Env)

/-- The records of a service are filed under their identifiers. -/
structure Filed (s : OAuthService) : Prop where
  clients : Keyed RegisteredClient.clientId s.clients
  refresh : ∀ k t, s.refreshTokens.get? k = some t → t.Valid k

theorem Valid.filed (hv : s.Valid) : Filed s :=
  ⟨fun k c hc => (hv.clients k c (.inl hc)).1, fun k t ht => hv.refresh k t (.inl ht)⟩

theorem Filed.fades {s1 : OAuthService} (h : Filed s) (hf : Fades s s1) : Filed s1 := by
  refine ⟨fun k c' hc' => ?_, fun k t' ht' => ?_⟩
  · obtain ⟨c, hc, ha⟩ := hf.clients k c' hc'
    rw [ha]
    exact h.clients k c hc
  · obtain ⟨t, ht, ha⟩ := hf.refresh k t' ht'
    exact (h.refresh k t ht).ages ha

/-- A save in both services: the files it leaves are read alike. -/
theorem persist_same (h : Hides s s') (hs : Filed s) {now : Time}
    (hw : WholeFile (s.persist cfg env now).1.file)
    (hw' : WholeFile (s'.persist cfg env now).1.file) :
    Same (s.persist cfg env now) (s'.persist cfg env now) := by
  obtain ⟨m, file, rfl, hfewer, hfile⟩ := h
  unfold persist at hw hw' ⊢
  cases hstore : cfg.store with
  | none => exact ⟨rfl, m, file, rfl, hfewer, hfile⟩
  | some store =>
    rw [hstore] at hw hw'
    have hdropped := hfewer.filter fun _ t => !(t.expiresAt < now && t.revoked)
    have hvalid : ∀ k t, (m.filter fun _ t => !(t.expiresAt < now && t.revoked)).get? k = some t →
        t.Valid k := fun k t hk => hs.refresh k t (Dict.get?_of_filter hk).1
    obtain ⟨hresult, halike⟩ := save_alike store env.save hs.clients hvalid hdropped hfile hw hw'
    refine ⟨?_, _, _, rfl, hdropped, halike⟩
    dsimp only [dropExpired]
    rw [hresult]

/-! ### One operation -/

theorem keyed_set {α : Type} {ident : α → String} {d : Dict String α} (h : Keyed ident d) {v : α}
    {k : String} (hv : ident v = k) : Keyed ident (d.set k v) := by
  intro j w hj
  rcases Dict.get?_of_set hj with ⟨rfl, rfl⟩ | ⟨-, hj⟩
  · exact hv
  · exact h j w hj

theorem register_same (h : Hides s s') (hs : Filed s) (body : Json) (source : String)
    (hw : WholeFile (s.registerClient cfg env body source).1.file)
    (hw' : WholeFile (s'.registerClient cfg env body source).1.file) :
    Same (s.registerClient cfg env body source) (s'.registerClient cfg env body source) := by
  have hk' : Keyed RegisteredClient.clientId s'.clients := clients_hides h ▸ hs.clients
  have hlimiter : s.dcrLimiter = s'.dcrLimiter := by
    obtain ⟨m, file, rfl, -, -⟩ := h
    rfl
  have hasked : Hides (s.asked env source) (s'.asked env source) := by
    obtain ⟨m, file, rfl, hm, hf⟩ := h
    exact ⟨m, file, rfl, hm, hf⟩
  have hroom : Hides (s.roomMade env source) (s'.roomMade env source) := by
    unfold roomMade
    rw [evicted_hides h]
    exact hides_removeClients hasked _
  have hsaved : ∀ c, WholeFile (s.saved cfg env source c).1.file →
      WholeFile (s'.saved cfg env source c).1.file →
      Same (s.saved cfg env source c) (s'.saved cfg env source c) := by
    intro c hw hw'
    have hinserted : Hides ((s.roomMade env source).inserted env source c)
        ((s'.roomMade env source).inserted env source c) := by
      obtain ⟨m, file, heq, hm, hf⟩ := hroom
      exact ⟨m, file, by rw [heq]; rfl, hm, hf⟩
    have hfiled : Filed ((s.roomMade env source).inserted env source c) :=
      ⟨keyed_set (keyed_removeClients hs.clients) rfl,
        fun k t ht => hs.refresh k t (Dict.get?_of_filter ht).1⟩
    exact persist_same cfg env hinserted hfiled hw hw'
  rw [registerClient_eq cfg env s hs.clients, hlimiter, inactiveOccupancy_hides hroom,
    clients_hides hroom] at hw ⊢
  rw [registerClient_eq cfg env s' hk'] at hw' ⊢
  split
  · exact ⟨rfl, hasked⟩
  next h1 =>
  rw [if_neg h1] at hw hw'
  split
  · exact ⟨rfl, hroom⟩
  next h2 =>
  rw [if_neg h2] at hw hw'
  split
  · exact ⟨rfl, hroom⟩
  next h3 =>
  rw [if_neg h3] at hw hw'
  split
  · exact ⟨rfl, hroom⟩
  next uris grants name hb =>
  rw [hb] at hw hw'
  exact (hsaved (newClient env uris grants name) hw hw').map _

/-- The service with a new code in it. -/
def coded (s : OAuthService) (c : AuthCode) : OAuthService :=
  { s with codes := s.codes.set c.code c }

theorem completeStore_eq (s : OAuthService) (p : PendingAuthorization) (c : AuthCode) :
    s.completeStore cfg env p c = (((s.coded c).persist cfg env env.t0).1,
      ((s.coded c).persist cfg env env.t0).2.bind fun _ => redirect cfg p [("code", c.code)]) := by
  unfold completeStore coded
  dsimp only
  split <;> next hp => rw [hp]; rfl

theorem store_same (h : Hides s s') (hs : Filed s) (p : PendingAuthorization) (c : AuthCode)
    (hw : WholeFile (s.completeStore cfg env p c).1.file)
    (hw' : WholeFile (s'.completeStore cfg env p c).1.file) :
    Same (s.completeStore cfg env p c) (s'.completeStore cfg env p c) := by
  have hcoded : Hides (s.coded c) (s'.coded c) := by
    obtain ⟨m, file, rfl, hm, hf⟩ := h
    exact ⟨m, file, rfl, hm, hf⟩
  rw [completeStore_eq] at hw hw'
  rw [completeStore_eq, completeStore_eq]
  exact (persist_same cfg env hcoded ⟨hs.clients, hs.refresh⟩ hw hw').bind _

/-- The service with a new pair of tokens in it. -/
def tokened (s : OAuthService) (clientId resource : String) (scopes : Finset String) :
    OAuthService :=
  let access := newAccess env clientId resource scopes
  let refresh := newRefresh env clientId resource scopes
  { s with
    accessTokens := s.accessTokens.set access.token access
    refreshTokens := s.refreshTokens.set refresh.token refresh }

def tokenResponse (clientId resource : String) (scopes : Finset String) : TokenResponse :=
  ⟨(newAccess env clientId resource scopes).token, "Bearer", accessTtlS,
    (newRefresh env clientId resource scopes).token, " ".intercalate (sorted scopes), resource⟩

theorem issueTokens_eq (s : OAuthService) (clientId resource : String) (scopes : Finset String) :
    s.issueTokens cfg env clientId resource scopes =
      (((s.tokened env clientId resource scopes).persist cfg env env.t3).1,
        ((s.tokened env clientId resource scopes).persist cfg env env.t3).2.map fun _ =>
          tokenResponse env clientId resource scopes) := by
  unfold issueTokens tokened
  dsimp only
  split <;> next hp => rw [hp]; rfl

theorem issue_same (h : Hides s s') (hs : Filed s) (clientId resource : String)
    (scopes : Finset String)
    (hw : WholeFile (s.issueTokens cfg env clientId resource scopes).1.file)
    (hw' : WholeFile (s'.issueTokens cfg env clientId resource scopes).1.file) :
    Same (s.issueTokens cfg env clientId resource scopes)
      (s'.issueTokens cfg env clientId resource scopes) := by
  have htokened : Hides (s.tokened env clientId resource scopes)
      (s'.tokened env clientId resource scopes) := by
    obtain ⟨m, file, rfl, hm, hf⟩ := h
    exact ⟨_, file, rfl, hm.set _ _, hf⟩
  have hfiled : Filed (s.tokened env clientId resource scopes) := by
    refine ⟨hs.clients, fun k t ht => ?_⟩
    rcases Dict.get?_of_set ht with ⟨rfl, rfl⟩ | ⟨-, ht⟩
    · exact ⟨rfl, relayOwner_ne, _, rfl⟩
    · exact hs.refresh k t ht
  rw [issueTokens_eq] at hw hw'
  rw [issueTokens_eq, issueTokens_eq]
  exact (persist_same cfg env htokened hfiled hw hw').map _

theorem touch_hides (h : Hides s s') (clientId : String) (t : Time) :
    Hides (s.touch clientId t) (s'.touch clientId t) := by
  obtain ⟨m, file, rfl, hm, hf⟩ := h
  exact ⟨m, file, rfl, hm, hf⟩

theorem redeem_same (h : Hides s s') (hs : Filed s) (clientId resource : String)
    (scopes : Finset String)
    (hw : WholeFile ((s.touch clientId env.t1).issueTokens cfg env clientId resource scopes).1.file)
    (hw' : WholeFile
      ((s'.touch clientId env.t1).issueTokens cfg env clientId resource scopes).1.file) :
    Same ((s.touch clientId env.t1).issueTokens cfg env clientId resource scopes)
      ((s'.touch clientId env.t1).issueTokens cfg env clientId resource scopes) :=
  issue_same cfg env (touch_hides h clientId env.t1)
    (hs.fades (s.touch_fades clientId env.t1)) clientId resource scopes hw hw'

theorem exchangeCode_same (h : Hides s s') (hs : Filed s) (form : Dict String String)
    (hw : WholeFile (s.exchangeAuthorizationCode cfg env form).1.file)
    (hw' : WholeFile (s'.exchangeAuthorizationCode cfg env form).1.file) :
    Same (s.exchangeAuthorizationCode cfg env form)
      (s'.exchangeAuthorizationCode cfg env form) := by
  have hcodes : s.codes = s'.codes := by
    obtain ⟨m, file, rfl, -, -⟩ := h
    rfl
  have herased : Hides { s with codes := s.codes.erase (getD form "code" "") }
      { s' with codes := s'.codes.erase (getD form "code" "") } := by
    obtain ⟨m, file, rfl, hm, hf⟩ := h
    exact ⟨m, file, rfl, hm, hf⟩
  have hcheck : ∀ record, checkCode cfg env
      { s with codes := s.codes.erase (getD form "code" "") } form record =
        checkCode cfg env { s' with codes := s'.codes.erase (getD form "code" "") } form
          record := by
    intro record
    obtain ⟨m, file, rfl, -, -⟩ := h
    rfl
  unfold exchangeAuthorizationCode at hw hw' ⊢
  cases hc : s'.codes.get? (getD form "code" "") with
  | none =>
    rw [hcodes, hc]
    exact ⟨rfl, h⟩
  | some record =>
    have hcode : s.codes.get? (getD form "code" "") = some record := hcodes ▸ hc
    rw [hcode] at hw ⊢
    rw [hc] at hw'
    dsimp only at hw hw' ⊢
    rw [hcheck] at hw ⊢
    cases hok : checkCode cfg env { s' with codes := s'.codes.erase (getD form "code" "") } form
        record with
    | error e => exact ⟨rfl, herased⟩
    | ok u =>
      rw [hok] at hw hw'
      exact redeem_same cfg env herased ⟨hs.clients, hs.refresh⟩ _ _ _ hw hw'

theorem revokeRefresh_hides (h : Hides s s') (token : String) :
    Hides (s.revokeRefresh token) (s'.revokeRefresh token) := by
  obtain ⟨m, file, rfl, hm, hf⟩ := h
  exact ⟨_, file, rfl, hm.revoke token, hf⟩

theorem revokeAccess_hides (h : Hides s s') (token : String) :
    Hides (s.revokeAccess token) (s'.revokeAccess token) := by
  obtain ⟨m, file, rfl, hm, hf⟩ := h
  exact ⟨m, file, rfl, hm, hf⟩

/-- A dead token is refused as one that is not there. -/
theorem checkRefresh_dead {form : Dict String String} {t : RefreshToken} (h : t.revoked = true) :
    checkRefresh cfg env form t = .error (invalidGrant "invalid refresh token") := by
  simp [checkRefresh, h, bind, Except.bind]

theorem exchangeRefresh_same (h : Hides s s') (hs : Filed s) (form : Dict String String)
    (hw : WholeFile (s.exchangeRefreshToken cfg env form).1.file)
    (hw' : WholeFile (s'.exchangeRefreshToken cfg env form).1.file) :
    Same (s.exchangeRefreshToken cfg env form) (s'.exchangeRefreshToken cfg env form) := by
  have htokens : s.refreshTokens.get? (getD form "refresh_token" "") =
        s'.refreshTokens.get? (getD form "refresh_token" "") ∨
      (s.refreshTokens.get? (getD form "refresh_token" "") = none ∧
        ∃ t, s'.refreshTokens.get? (getD form "refresh_token" "") = some t ∧
          t.revoked = true ∧ t.Valid (getD form "refresh_token" "")) := by
    obtain ⟨m, file, rfl, hm, -⟩ := h
    exact hm _
  unfold exchangeRefreshToken at hw hw' ⊢
  rcases htokens with heq | ⟨hnone, t, hsome, hdead, -⟩
  · cases hr : s'.refreshTokens.get? (getD form "refresh_token" "") with
    | none =>
      rw [heq, hr]
      exact ⟨rfl, h⟩
    | some record =>
      rw [heq, hr] at hw
      rw [hr] at hw'
      rw [heq, hr]
      dsimp only at hw hw' ⊢
      cases hok : checkRefresh cfg env form record with
      | error e => exact ⟨rfl, h⟩
      | ok u =>
        rw [hok] at hw hw'
        dsimp only at hw hw' ⊢
        cases hscopes : refreshScopes form record with
        | error e => exact ⟨rfl, revokeRefresh_hides h _⟩
        | ok scopes =>
          rw [hscopes] at hw hw'
          exact redeem_same cfg env (revokeRefresh_hides h _)
            (hs.fades (s.revokeRefresh_fades _)) _ _ _ hw hw'
  · rw [hnone, hsome]
    dsimp only
    rw [checkRefresh_dead cfg env hdead]
    exact ⟨rfl, h⟩

theorem exchange_same (h : Hides s s') (hs : Filed s) (form : Dict String String)
    (hw : WholeFile (s.exchangeToken cfg env form).1.file)
    (hw' : WholeFile (s'.exchangeToken cfg env form).1.file) :
    Same (s.exchangeToken cfg env form) (s'.exchangeToken cfg env form) := by
  unfold exchangeToken at hw hw' ⊢
  split
  · next hg =>
    rw [if_pos hg] at hw hw'
    exact exchangeCode_same cfg env h hs form hw hw'
  next hg =>
  rw [if_neg hg] at hw hw'
  split
  · next hg' =>
    rw [if_pos hg'] at hw hw'
    exact exchangeRefresh_same cfg env h hs form hw hw'
  · exact ⟨rfl, h⟩

/-- A refresh token is not taken for an access token. -/
theorem markRevoked_hides (h : Hides s s') (hv : s.Valid) (token hint : String) :
    Hides (s.markRevoked token hint) (s'.markRevoked token hint) := by
  have haccess : s.accessTokens = s'.accessTokens := by
    obtain ⟨m, file, rfl, -, -⟩ := h
    rfl
  have htokens : s.refreshTokens.get? token = s'.refreshTokens.get? token ∨
      (s.refreshTokens.get? token = none ∧ ∃ t, s'.refreshTokens.get? token = some t ∧
        t.revoked = true ∧ t.Valid token) := by
    obtain ⟨m, file, rfl, hm, -⟩ := h
    exact hm _
  unfold markRevoked
  rw [haccess]
  split
  · exact revokeAccess_hides h token
  rcases htokens with heq | ⟨hnone, t, hsome, -, hvalid⟩
  · rw [Dict.contains, Dict.contains, heq]
    split
    · exact revokeRefresh_hides h token
    · exact revokeRefresh_hides (revokeAccess_hides h token) token
  · have hnever : s.accessTokens.get? token = none := by
      rw [Option.eq_none_iff_forall_ne_some]
      intro a ha
      obtain ⟨-, r, hr⟩ := hv.access token a ha
      obtain ⟨-, -, r', hr'⟩ := hvalid
      have := newToken_kind (by decide) (by decide) (hr.symm.trans hr')
      revert this
      decide
    have hself : s.revokeAccess token = s := by
      unfold revokeAccess
      rw [Dict.modify_of_none hnever]
    rw [if_neg fun hc => by simp [Dict.contains, hnone] at hc]
    split
    · rw [hself]
      exact revokeRefresh_hides h token
    · exact revokeRefresh_hides (revokeAccess_hides h token) token

theorem revoke_same (h : Hides s s') (hv : s.Valid) (form : Dict String String)
    (hw : WholeFile (s.revoke cfg env form).1.file)
    (hw' : WholeFile (s'.revoke cfg env form).1.file) :
    Same (s.revoke cfg env form) (s'.revoke cfg env form) :=
  persist_same cfg env (markRevoked_hides h hv _ _) (hv.filed.fades (s.markRevoked_fades _ _)) hw
    hw'

end OAuthService

end DataRelay.OAuth
