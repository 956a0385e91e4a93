import DataRelay.OAuth.Registration

/-! The integrity of the store: every refresh token belongs to a registered client, and there are
    at most as many clients as the limit says, in memory and in the state file.

    A client is removed together with its tokens, tokens are issued to registered clients only, and
    the file is written from the maps in memory. -/

namespace DataRelay.OAuth
open Lib

/-- Every refresh token belongs to a client, and the clients are within the limit. -/
structure Linked (clients : Dict String RegisteredClient)
    (refreshTokens : Dict String RefreshToken) : Prop where
  owner : ∀ k t, refreshTokens.get? k = some t → clients.contains t.clientId = true
  size : clients.size ≤ maxDcrClients

variable {clients clients' : Dict String RegisteredClient}
variable {refreshTokens refreshTokens' : Dict String RefreshToken}

theorem linked_empty : Linked ∅ ∅ where
  owner k t h := by cases h
  size := Nat.zero_le _

/-- The same clients, and tokens of clients that had some before. -/
theorem Linked.congr (h : Linked clients refreshTokens)
    (hc : ∀ k, clients'.contains k = clients.contains k)
    (hr : ∀ k t, refreshTokens'.get? k = some t →
      ∃ t', refreshTokens.get? k = some t' ∧ t'.clientId = t.clientId) :
    Linked clients' refreshTokens' where
  owner k t ht := by
    obtain ⟨t', ht', hid⟩ := hr k t ht
    rw [hc, ← hid]
    exact h.owner k t' ht'
  size := by
    have hle : clients'.size ≤ clients.size :=
      Dict.size_le_of_contains fun k hk => (hc k).symm.trans hk
    exact hle.trans h.size

/-- One more token, of a client. -/
theorem Linked.issue (h : Linked clients refreshTokens) {t : RefreshToken}
    (ht : clients.contains t.clientId = true) (k : String) :
    Linked clients (refreshTokens.set k t) where
  owner j t' hj := by
    rcases Dict.get?_of_set hj with ⟨-, rfl⟩ | ⟨-, hj⟩
    · exact ht
    · exact h.owner j t' hj
  size := h.size

/-- One more client, where there is room. -/
theorem Linked.insert (h : Linked clients refreshTokens) (hroom : clients.size < maxDcrClients)
    (k : String) (c : RegisteredClient) : Linked (clients.set k c) refreshTokens where
  owner j t hj := by
    obtain ⟨c', hc'⟩ := (Dict.contains_iff _ _).mp (h.owner j t hj)
    rw [Dict.contains_iff]
    by_cases hk : t.clientId = k
    · exact ⟨c, hk ▸ Dict.get?_set_self clients k c⟩
    · exact ⟨c', (Dict.get?_set_ne clients hk c).trans hc'⟩
  size := by
    have hset := Dict.count_set_le clients k c fun _ _ => true
    rw [← Dict.size_eq_count, ← Dict.size_eq_count, if_pos rfl] at hset
    omega

/-- What was read back of a linked store is linked. -/
theorem Linked.reloads (h : Linked clients refreshTokens)
    {read : Dict String RegisteredClient × Dict String RefreshToken}
    (hread : Reloads clients refreshTokens read) : Linked read.1 read.2 := by
  refine h.congr (fun k => ?_) fun k t ht => ?_
  · rw [Dict.contains, hread.1, Option.isSome_map]
    rfl
  · rw [hread.2] at ht
    obtain ⟨t', ht', rfl⟩ := Option.map_eq_some_iff.mp ht
    exact ⟨t', ht', rfl⟩

namespace OAuthService
variable {s s' : OAuthService}

/-- The maps in memory are linked, and so are those that a start would read. -/
structure Whole (s : OAuthService) : Prop where
  memory : Linked s.clients s.refreshTokens
  file : ∀ read, readFile s.file = some read → Linked read.1 read.2

/-! ### The maps in memory -/

/-- A state with nothing new that kept its clients. -/
theorem linked_fades {loss : Loss} (h : Linked s.clients s.refreshTokens) (hf : Fades s s')
    (hk : Keeps loss s s') (hl : ∀ k, ¬ loss.client k) : Linked s'.clients s'.refreshTokens := by
  refine h.congr (fun k => ?_) fun k t ht => ?_
  · rw [Bool.eq_iff_iff, Dict.contains_iff, Dict.contains_iff]
    constructor
    · rintro ⟨c, hc⟩
      obtain ⟨c', hc', -⟩ := hf.clients k c hc
      exact ⟨c', hc'⟩
    · rintro ⟨c, hc⟩
      obtain ⟨c', hc', -⟩ := hk.clients k c hc (hl k)
      exact ⟨c', hc'⟩
  · obtain ⟨t', ht', ha⟩ := hf.refresh k t ht
    refine ⟨t', ht', ?_⟩
    rw [ha.1]

theorem linked_removeClients (h : Linked s.clients s.refreshTokens) (ids : List String) :
    Linked (s.removeClients ids).clients (s.removeClients ids).refreshTokens where
  owner k t ht := by
    rw [refresh_removeClients] at ht
    obtain ⟨ht, hid⟩ := Option.filter_eq_some_iff.mp ht
    obtain ⟨c, hc⟩ := (Dict.contains_iff _ _).mp (h.owner k t ht)
    refine (Dict.contains_iff _ _).mpr ⟨c, ?_⟩
    rw [clients_removeClients, if_neg (by simpa using hid)]
    exact hc
  size := (Dict.size_filter_le _ _).trans h.size

theorem linked_persist (cfg : Config) (env : Env) (now : Time)
    (h : Linked s.clients s.refreshTokens) :
    Linked (s.persist cfg env now).1.clients (s.persist cfg env now).1.refreshTokens := by
  have hkeeps : Keeps {} s (s.persist cfg env now).1 := s.persist_keeps cfg env now
  exact linked_fades h (s.persist_fades cfg env now) hkeeps fun _ => id

theorem linked_touch (h : Linked s.clients s.refreshTokens) (clientId : String) (now : Time) :
    Linked (s.touch clientId now).clients (s.touch clientId now).refreshTokens := by
  have hkeeps : Keeps {} s (s.touch clientId now) := s.touch_keeps clientId now
  exact linked_fades h (s.touch_fades clientId now) hkeeps fun _ => id

variable (cfg : Config) (env : Env)

theorem linked_register (hk : Keyed RegisteredClient.clientId s.clients)
    (h : Linked s.clients s.refreshTokens) (body : Json) (source : String) :
    Linked (s.registerClient cfg env body source).1.clients
      (s.registerClient cfg env body source).1.refreshTokens := by
  have hreg := register_registers cfg env s hk body source
  generalize s.registerClient cfg env body source = r at hreg
  have hroom : Linked (s.roomMade env source).clients (s.roomMade env source).refreshTokens :=
    linked_removeClients (s := s.asked env source) h _
  cases hreg with
  | limited => exact h
  | full => exact hroom
  | refused => exact hroom
  | @saved uris grants name _ _ hf =>
    refine linked_persist cfg env env.t2 ?_
    have hlt := Nat.lt_of_not_le (not_or.mp hf).2
    exact hroom.insert hlt _ _

/-- Tokens are issued to registered clients. -/
theorem issues_registered (h : Linked s.clients s.refreshTokens) {form : Dict String String}
    {access : AccessToken} {t : RefreshToken} (hi : Issues cfg env s form access t) :
    s.clients.contains t.clientId = true := by
  cases hi with
  | code _ _ hok => exact (checkCode_ok cfg env s hok).2.2.2.1
  | @refresh record _ _ hr => exact h.owner _ record hr

theorem linked_exchange (h : Linked s.clients s.refreshTokens) (form : Dict String String) :
    Linked (s.exchangeToken cfg env form).1.clients
      (s.exchangeToken cfg env form).1.refreshTokens := by
  have hex := exchange_exchanged cfg env s form
  generalize s.exchangeToken cfg env form = r at hex
  cases hex with
  | refused e hf hk => exact linked_fades h hf hk fun _ => id
  | @issued s0 clientId resource scopes hi hf hk =>
    have h0 : Linked s0.clients s0.refreshTokens := linked_fades h hf hk fun _ => id
    have howner : s.clients.contains clientId = true := issues_registered cfg env h hi
    have hkept : s0.clients.contains clientId = true := by
      obtain ⟨c, hc⟩ := (Dict.contains_iff _ _).mp howner
      obtain ⟨c', hc', -⟩ := hk.clients clientId c hc id
      exact (Dict.contains_iff _ _).mpr ⟨c', hc'⟩
    have hset := h0.issue (t := newRefresh env clientId resource scopes) hkept
      (newRefresh env clientId resource scopes).token
    have hsaved := linked_persist (s := { s0 with
      accessTokens := s0.accessTokens.set (newAccess env clientId resource scopes).token
        (newAccess env clientId resource scopes)
      refreshTokens := s0.refreshTokens.set (newRefresh env clientId resource scopes).token
        (newRefresh env clientId resource scopes) }) cfg env env.t3 hset
    unfold issueTokens
    dsimp only
    split <;> rename_i hp <;> rw [← congrArg Prod.fst hp] <;> exact hsaved

theorem linked_revoke (h : Linked s.clients s.refreshTokens) (form : Dict String String) :
    Linked (s.revoke cfg env form).1.clients (s.revoke cfg env form).1.refreshTokens := by
  have hkeeps : Keeps { refresh := fun _ => True } s
      (s.markRevoked (getD form "token" "") (getD form "token_type_hint" "")) :=
    markRevoked_keeps _ trivial
  exact linked_persist cfg env env.t0
    (linked_fades h (s.markRevoked_fades _ _) hkeeps fun _ => id)

theorem linked_decide (h : Linked s.clients s.refreshTokens) (req : CompleteRequest)
    (p : PendingAuthorization) : Linked (s.completeDecide cfg env req p).1.clients
      (s.completeDecide cfg env req p).1.refreshTokens := by
  unfold completeDecide
  dsimp only
  split
  · exact h
  split
  · exact h
  split
  · exact h
  · exact h
  · exact linked_touch h _ _

theorem linked_store (h : Linked s.clients s.refreshTokens) (p : PendingAuthorization)
    (c : AuthCode) : Linked (s.completeStore cfg env p c).1.clients
      (s.completeStore cfg env p c).1.refreshTokens := by
  have hsaved := linked_persist (s := { s with codes := s.codes.set c.code c }) cfg env env.t0 h
  unfold completeStore
  dsimp only
  split <;> rename_i hp <;> rw [← congrArg Prod.fst hp] <;> exact hsaved

theorem linked_admit (h : Linked s.clients s.refreshTokens) (p : PendingAuthorization)
    (source : String) : Linked (s.beginAdmit env p source).1.clients
      (s.beginAdmit env p source).1.refreshTokens := by
  unfold beginAdmit
  dsimp only
  split
  · exact h
  split
  · exact h
  split <;> exact h

/-- A start reads a linked store, and its cleanup keeps it so. -/
theorem linked_start (hv : s.Valid) (h : s.Whole) (calls : StartCalls) :
    Linked (start cfg env calls s.file).1.clients (start cfg env calls s.file).1.refreshTokens := by
  unfold start
  split
  · exact linked_empty
  split
  · exact linked_empty
  next hload =>
  obtain ⟨read, hread, rfl⟩ := loaded_eq hload
  have hkeyed : Keyed RegisteredClient.clientId read.1 :=
    fun k c hc => (hv.clients k c (.inr ⟨read, hread, hc⟩)).1
  have hclean : cleanupInactiveClients { empty s.file with
      clients := read.1, refreshTokens := read.2 } env.t0 0 = _ := cleanup_eq hkeyed 0
  have hremoved := linked_removeClients (s := { empty s.file with
    clients := read.1, refreshTokens := read.2 }) (h.file read hread)
    (evicted { empty s.file with clients := read.1, refreshTokens := read.2 } env.t0 0)
  rw [hclean]
  dsimp only
  split
  · exact hremoved
  · exact linked_persist cfg env env.t1 hremoved

end OAuthService

/-! ### One step -/

variable {cfg : Config} {env : Env} {sys sys' : System} {op : Op} {svc : OAuthService} {r : Resp}

theorem effect_linked (hv : sys.svc.Valid) (h : sys.svc.Whole) (he : Effect cfg env sys op svc r) :
    Linked svc.clients svc.refreshTokens := by
  have hk : Keyed RegisteredClient.clientId sys.svc.clients :=
    fun k c hc => (hv.clients k c (.inl hc)).1
  cases he with
  | idle => exact h.memory
  | validate => exact h.memory
  | register body source => exact OAuthService.linked_register cfg env hk h.memory body source
  | admission => exact OAuthService.linked_admit env h.memory _ _
  | pop => exact h.memory
  | decide => exact OAuthService.linked_decide cfg env h.memory _ _
  | store => exact OAuthService.linked_store cfg env h.memory _ _
  | exchange form => exact OAuthService.linked_exchange cfg env h.memory form
  | revoke form => exact OAuthService.linked_revoke cfg env h.memory form
  | start calls => exact OAuthService.linked_start cfg env hv h calls

/-- The file of an effect is the old one, or holds what the memory holds. -/
theorem effect_whole (hv : svc.Valid) (hold : sys.svc.Whole)
    (hlinked : Linked svc.clients svc.refreshTokens) (he : Effect cfg env sys op svc r) :
    svc.Whole where
  memory := hlinked
  file read hread := by
    rcases (effect_evolves he).file.read (fun k c hc => hv.clients k c (.inl hc))
      (fun k t ht => hv.refresh k t (.inl ht)) hread with hsame | hnew
    · exact hold.file read hsame
    · exact hlinked.reloads hnew

theorem step_whole {a : Act} (h : sys.step cfg a = some (sys', r)) (hv : sys.Valid)
    (hw : sys.svc.Whole) : sys'.svc.Whole := by
  obtain ⟨svc, resp, heff, hcase⟩ := step_effect h
  have hsvc : svc.Valid := (effect_evolves heff).valid
    (newOf_valid fun tid req p ht => hv.threads tid _ ht) hv.svc
  have hwhole := effect_whole hsvc hw (effect_linked hv.svc hw heff) heff
  rcases hcase with ⟨-, rfl, -⟩ | ⟨rfl, -⟩
  · exact hwhole
  · exact ⟨linked_empty, hwhole.file⟩

/-! ### Every reachable state -/

theorem run_whole {tr : Trace} (h : (machine cfg).Run tr sys) : sys.svc.Whole :=
  h.invariant (A := fun _ => True) (I := fun _ s => s.svc.Whole) (fun _ _ _ => trivial)
    (by
      rintro _ rfl
      refine ⟨linked_empty, fun read hread => ?_⟩
      cases hread
      exact linked_empty)
    (fun _ _ _ _ _ hrun _ hw hstep => step_whole hstep (run_valid hrun) hw) trivial

/-- The store is sound in every reachable state: every record is filed under its own identifier,
    every refresh token belongs to a registered client, and the clients are within the limit. -/
theorem store_integrity {tr : Trace} (h : (machine cfg).Run tr sys) :
    (∀ k c, sys.svc.clients.get? k = some c → c.clientId = k) ∧
    (∀ k c, sys.svc.codes.get? k = some c → c.code = k) ∧
    (∀ k t, sys.svc.accessTokens.get? k = some t → t.token = k) ∧
    (∀ k t, sys.svc.refreshTokens.get? k = some t → t.token = k) ∧
    (∀ k p, sys.svc.pending.get? k = some p → p.requestId = k) ∧
    (∀ k t, sys.svc.refreshTokens.get? k = some t →
      ∃ c, sys.svc.clients.get? t.clientId = some c) ∧
    sys.svc.clients.size ≤ maxDcrClients := by
  have hv := (run_valid h).svc
  have hw := (run_whole h).memory
  exact ⟨fun k c hc => (hv.clients k c (.inl hc)).1, hv.codes, fun k t ht => (hv.access k t ht).1,
    fun k t ht => (hv.refresh k t (.inl ht)).1, hv.pending,
    fun k t ht => (Dict.contains_iff _ _).mp (hw.owner k t ht), hw.size⟩

/-- The tokens of the sample run belong to its client. -/
theorem store_integrity_sample :
    (∀ k t, (after sampleConfig sampleRun).2.svc.refreshTokens.get? k = some t →
      ∃ c, (after sampleConfig sampleRun).2.svc.clients.get? t.clientId = some c) ∧
    (after sampleConfig sampleRun).2.svc.refreshTokens.size = 1 :=
  ⟨(store_integrity (after_run sampleConfig sampleRun)).2.2.2.2.2.1, by decide +kernel⟩

end DataRelay.OAuth
