import DataRelay.OAuth.Purge
import DataRelay.OAuth.Rotation

/-! Whether a purge can be noticed, and what it leaves in the file.

    `Keeping` lifts the relation between a service that drops revoked tokens and one that keeps
    them to the whole system, and every step preserves it. So no later sequence of operations tells
    the two apart, whatever the second one keeps at its later saves. What a save does leave behind
    is the expired tokens that nobody revoked. -/

namespace DataRelay.OAuth
open Lib

namespace OAuthService
variable (cfg : Config) (env : Env) {s s' : OAuthService}

/-! ### The operations that do not look at a refresh token -/

theorem beginCheck_hides (h : Hides s s') (req : AuthorizeRequest) :
    s.beginCheck cfg req = s'.beginCheck cfg req := by
  obtain ⟨m, file, rfl, -, -⟩ := h
  rfl

theorem errorRedirect_hides (h : Hides s s') (req : AuthorizeRequest) (e : PyError) :
    s.errorRedirect cfg req e = s'.errorRedirect cfg req e := by
  obtain ⟨m, file, rfl, -, -⟩ := h
  rfl

theorem validateBearer_hides (h : Hides s s') (authorization : Option String)
    (requiredScopes : Finset String) : s.validateBearer cfg env authorization requiredScopes =
      s'.validateBearer cfg env authorization requiredScopes := by
  obtain ⟨m, file, rfl, -, -⟩ := h
  rfl

theorem pop_same (h : Hides s s') (req : CompleteRequest) :
    Same (s.completePop req) (s'.completePop req) := by
  obtain ⟨m, file, rfl, hm, hf⟩ := h
  exact ⟨rfl, m, file, rfl, hm, hf⟩

theorem admit_same (h : Hides s s') (p : PendingAuthorization) (source : String) :
    Same (s.beginAdmit env p source) (s'.beginAdmit env p source) := by
  obtain ⟨m, file, rfl, hm, hf⟩ := h
  unfold beginAdmit
  dsimp only
  split
  · exact ⟨rfl, m, file, rfl, hm, hf⟩
  split
  · next hclient =>
    split
    · exact ⟨rfl, m, file, rfl, hm, hf⟩
    · next hclient' => exact absurd hclient hclient'
  next hclient =>
  split
  · next hall =>
    split
    · next hclient' => exact absurd hclient' hclient
    · rw [if_pos (by exact hall)]
      exact ⟨rfl, m, file, rfl, hm, hf⟩
  next hall =>
  split
  · next hclient' => exact absurd hclient' hclient
  · rw [if_neg (by exact hall)]
    exact ⟨rfl, m, file, rfl, hm, hf⟩

theorem decide_same (h : Hides s s') (req : CompleteRequest) (p : PendingAuthorization) :
    Same (s.completeDecide cfg env req p) (s'.completeDecide cfg env req p) := by
  obtain ⟨m, file, rfl, hm, hf⟩ := h
  unfold completeDecide
  simp only [putBack, touch]
  split
  · exact ⟨rfl, m, file, rfl, hm, hf⟩
  split
  · exact ⟨rfl, m, file, rfl, hm, hf⟩
  split
  · exact ⟨rfl, m, file, rfl, hm, hf⟩
  · exact ⟨rfl, m, file, rfl, hm, hf⟩
  · exact ⟨rfl, m, file, rfl, hm, hf⟩

theorem file_admit (s : OAuthService) (p : PendingAuthorization) (source : String) :
    (s.beginAdmit env p source).1.file = s.file := by
  unfold beginAdmit
  dsimp only
  split
  · rfl
  split
  · rfl
  split <;> rfl

theorem file_decide (s : OAuthService) (req : CompleteRequest) (p : PendingAuthorization) :
    (s.completeDecide cfg env req p).1.file = s.file := by
  unfold completeDecide
  dsimp only
  split
  · rfl
  split
  · rfl
  split <;> rfl

/-! ### A start -/

theorem start_same {svc : OAuthService} (hv : svc.Valid) {file' : Option (List Char)}
    (hf : Alike svc.file file') (calls : StartCalls)
    (hw : WholeFile (start cfg env calls svc.file).1.file)
    (hw' : WholeFile (start cfg env calls file').1.file) :
    Same (start cfg env calls svc.file) (start cfg env calls file') := by
  have hempty : Hides (empty svc.file) (empty file') := ⟨∅, svc.file, rfl, .refl _, hf⟩
  unfold start at hw hw' ⊢
  cases hstore : cfg.store with
  | none => exact ⟨rfl, hempty⟩
  | some store =>
    rw [hstore] at hw hw'
    dsimp only at hw hw' ⊢
    rcases hf store calls with ⟨e, he, he'⟩ | ⟨clients, m, m', hm, hok, hok'⟩
    · rw [he, he']
      exact ⟨rfl, hempty⟩
    · rw [hok] at hw
      rw [hok'] at hw'
      rw [hok, hok']
      dsimp only at hw hw' ⊢
      have hfiled : Filed { empty svc.file with clients := clients, refreshTokens := m } := by
        obtain ⟨read, hread, heq⟩ := loaded_eq hok
        cases heq
        exact ⟨fun k c hc => (hv.clients k c (.inr ⟨read, hread, hc⟩)).1,
          fun k t ht => hv.refresh k t (.inr ⟨read, hread, ht⟩)⟩
      have hhides : Hides { empty svc.file with clients := clients, refreshTokens := m }
          { empty file' with clients := clients, refreshTokens := m' } :=
        ⟨m, svc.file, rfl, hm, hf⟩
      rw [cleanup_eq hfiled.clients] at hw ⊢
      rw [cleanup_eq (by exact hfiled.clients)] at hw' ⊢
      rw [← evicted_hides hhides] at hw' ⊢
      dsimp only at hw hw' ⊢
      have hcleaned := hides_removeClients hhides
        (evicted { empty svc.file with clients := clients, refreshTokens := m } env.t0 0)
      split
      · exact ⟨rfl, hcleaned⟩
      next hevicted =>
      rw [if_neg hevicted] at hw hw'
      exact persist_same cfg env hcleaned ⟨keyed_removeClients hfiled.clients,
        fun k t ht => hfiled.refresh k t (Dict.get?_of_filter ht).1⟩ hw hw'

end OAuthService

/-! ### One step of the system -/

theorem Hides.file {s s' : OAuthService} (h : Hides s s') : Alike s.file s'.file := by
  obtain ⟨m, file, rfl, -, hf⟩ := h
  exact hf

/-- Losing the memory tells them apart no more. -/
theorem Hides.empty {s s' : OAuthService} (h : Hides s s') :
    Hides (OAuthService.empty s.file) (OAuthService.empty s'.file) :=
  ⟨∅, s.file, rfl, .refl _, h.file⟩

/-- The second system keeps revoked tokens that the first has dropped. -/
def Keeping (sys sys' : System) : Prop :=
  Hides sys.svc sys'.svc ∧ sys.threads = sys'.threads ∧ sys.up = sys'.up

theorem Keeping.refl (sys : System) : Keeping sys sys := ⟨.refl _, rfl, rfl⟩

theorem Keeping.trans {sys sys' sys2 : System} (h : Keeping sys sys') (h' : Keeping sys' sys2) :
    Keeping sys sys2 :=
  ⟨h.1.trans h'.1, h.2.1.trans h'.2.1, h.2.2.trans h'.2.2⟩

/-- Neither system moves, or both do, with the same response, and the second goes on keeping what
    the first has dropped as long as no save cuts a file short. -/
def Alongside : Option (System × Resp) → Option (System × Resp) → Prop
  | none, none => True
  | some r, some r' => WholeFile r.1.svc.file → WholeFile r'.1.svc.file →
    r.2 = r'.2 ∧ Keeping r.1 r'.1
  | _, _ => False

/-- The process dies in both, or in neither. -/
theorem Alongside.crash {o o' : Option (System × Resp)} (h : Alongside o o') (c : Bool) :
    Alongside (o.map fun r => if c then (r.1.crash, .crashed) else r)
      (o'.map fun r => if c then (r.1.crash, .crashed) else r) := by
  cases o with
  | none =>
    cases o' with
    | none => trivial
    | some r' => exact h
  | some r =>
    cases o' with
    | none => exact h
    | some r' =>
      cases c with
      | false => exact h
      | true =>
        intro hw hw'
        obtain ⟨-, hkeep⟩ := h hw hw'
        exact ⟨rfl, hkeep.1.empty, rfl, rfl⟩

theorem Alongside.none_iff {o o' : Option (System × Resp)} (h : Alongside o o') :
    o = none ↔ o' = none := by
  cases o <;> cases o' <;> first | exact h.elim | simp

section Step
variable {cfg : Config} {env : Env} {sys sys' : System} {svc svc' : OAuthService}

theorem alongside_goOn (h : Keeping sys sys') (hs : Hides svc svc') (tid : ℕ) (th : Thread) :
    Alongside (some (sys.goOn tid svc th)) (some (sys'.goOn tid svc' th)) :=
  fun _ _ => ⟨rfl, hs, congrArg (Dict.set · tid th) h.2.1, h.2.2⟩

theorem alongside_finish {α : Type} (h : Keeping sys sys') (tid : ℕ)
    {r r' : OAuthService × Except PyError α}
    (hr : WholeFile r.1.file → WholeFile r'.1.file → Same r r') (f : α → Resp) :
    Alongside (some (sys.finish tid r.1 (respond f r.2)))
      (some (sys'.finish tid r'.1 (respond f r'.2))) := by
  intro hw hw'
  obtain ⟨hresp, hhides⟩ := hr hw hw'
  exact ⟨congrArg (respond f) hresp, hhides, congrArg (Dict.erase · tid) h.2.1, h.2.2⟩

theorem alongside_atOnce {α : Type} (h : Keeping sys sys')
    {r r' : OAuthService × Except PyError α}
    (hr : WholeFile r.1.file → WholeFile r'.1.file → Same r r') (f : α → Resp) :
    Alongside (some (sys.atOnce r.1 (respond f r.2)))
      (some (sys'.atOnce r'.1 (respond f r'.2))) := by
  intro hw hw'
  obtain ⟨hresp, hhides⟩ := hr hw hw'
  exact ⟨congrArg (respond f) hresp, hhides, h.2⟩

theorem checked_alongside (h : Keeping sys sys') (tid : ℕ) (req : CompleteRequest)
    (pending : Option PendingAuthorization) :
    Alongside (some (sys.checked cfg env tid req pending))
      (some (sys'.checked cfg env tid req pending)) := by
  unfold System.checked
  split
  · exact fun _ _ => ⟨rfl, h.1, congrArg (Dict.erase · tid) h.2.1, h.2.2⟩
  · exact fun _ _ => ⟨rfl, h.1, congrArg (Dict.erase · tid) h.2.1, h.2.2⟩
  · exact alongside_goOn h h.1 tid _

theorem decided_alongside (h : Keeping sys sys') (tid : ℕ) (req : CompleteRequest)
    (p : PendingAuthorization) :
    Alongside (some (sys.decided cfg env tid req p)) (some (sys'.decided cfg env tid req p)) := by
  obtain ⟨hr, hhides⟩ := OAuthService.decide_same cfg env h.1 req p
  unfold System.decided
  dsimp only
  rw [hr]
  split
  · exact fun _ _ => ⟨rfl, hhides, congrArg (Dict.erase · tid) h.2.1, h.2.2⟩
  · exact alongside_goOn h hhides tid _

theorem begun_alongside (h : Keeping sys sys') (tid : ℕ) (params : Dict String String)
    (source : String) : Alongside (some (sys.begun cfg tid params source))
      (some (sys'.begun cfg tid params source)) := by
  unfold System.begun
  dsimp only
  rw [OAuthService.beginCheck_hides cfg h.1]
  split
  · exact fun _ _ => ⟨rfl, h⟩
  · exact alongside_goOn h h.1 tid _
  · exact alongside_goOn h h.1 tid _

theorem onThread_alongside (h : Keeping sys sys') (hv : sys.Valid) (tid : ℕ) (op : Op)
    (th : Thread) :
    Alongside (sys.onThread cfg env tid op th) (sys'.onThread cfg env tid op th) := by
  cases op with
  | beginRedirect _ =>
    cases th with
    | beginError req e =>
      have hr := OAuthService.errorRedirect_hides cfg h.1 req e
      exact fun _ _ => ⟨congrArg (respond .errorRedirected) hr, h.1,
        congrArg (Dict.erase · tid) h.2.1, h.2.2⟩
    | _ => trivial
  | beginBuild _ =>
    cases th with
    | beginChecked req source scopes => exact alongside_goOn h h.1 tid _
    | _ => trivial
  | beginAdmit _ =>
    cases th with
    | beginReady source p =>
      exact alongside_finish h tid (fun _ _ => OAuthService.admit_same env h.1 p source) _
    | _ => trivial
  | completeCheck _ =>
    cases th with
    | completePopped req pending => exact checked_alongside h tid req pending
    | _ => trivial
  | completeDecide _ =>
    cases th with
    | completeDeciding req p => exact decided_alongside h tid req p
    | _ => trivial
  | completeBuild _ =>
    cases th with
    | completeApproved req p => exact alongside_goOn h h.1 tid _
    | _ => trivial
  | completeStore _ =>
    cases th with
    | completeReady req p c =>
      exact alongside_finish h tid (OAuthService.store_same cfg env h.1 hv.svc.filed p c) _
    | _ => trivial
  | _ => cases th <;> trivial

theorem stretch_alongside (h : Keeping sys sys') (hv : sys.Valid) (op : Op) :
    Alongside (sys.stretch cfg env op) (sys'.stretch cfg env op) := by
  unfold System.stretch
  rw [← h.2.1]
  cases hr : op.resumes with
  | some tid =>
    dsimp only
    cases sys.threads.get? tid with
    | none => trivial
    | some th => exact onThread_alongside h hv tid op th
  | none =>
    dsimp only
    split
    · trivial
    cases op with
    | register body source =>
      exact alongside_atOnce h (OAuthService.register_same cfg env h.1 hv.svc.filed body source) _
    | beginCall tid params source => exact begun_alongside h tid params source
    | completeCall tid req =>
      obtain ⟨hp, hhides⟩ := OAuthService.pop_same h.1 req
      dsimp only
      rw [hp]
      exact alongside_goOn h hhides tid _
    | exchange form =>
      exact alongside_atOnce h (OAuthService.exchange_same cfg env h.1 hv.svc.filed form) _
    | revoke form =>
      exact alongside_atOnce h (OAuthService.revoke_same cfg env h.1 hv.svc form) _
    | validate authorization requiredScopes =>
      have hb := OAuthService.validateBearer_hides cfg env h.1 authorization requiredScopes
      exact fun _ _ => ⟨congrArg (respond .bearer) hb, h⟩
    | _ => trivial

theorem restarted_alongside (h : Keeping sys sys') (hv : sys.Valid)
    (calls : OAuthService.StartCalls) :
    Alongside (some (sys.restarted cfg env calls)) (some (sys'.restarted cfg env calls)) := by
  have hfile : ∀ sys : System, (sys.restarted cfg env calls).1.svc.file =
      (OAuthService.start cfg env calls sys.svc.file).1.file := by
    intro sys
    unfold System.restarted
    dsimp only
    split <;> rfl
  intro hw hw'
  rw [hfile] at hw hw'
  obtain ⟨hr, hhides⟩ := OAuthService.start_same cfg env hv.svc h.1.file calls hw hw'
  unfold System.restarted
  dsimp only
  rw [hr]
  split
  · exact ⟨rfl, hhides.empty, rfl, rfl⟩
  · exact ⟨rfl, hhides, rfl, rfl⟩

end Step

/-- The step of an action before the process may die. -/
def System.ran (cfg : Config) (sys : System) (a : Act) : Option (System × Resp) :=
  match a.op with
  | .restart calls => some (sys.restarted cfg a.env calls)
  | op => if sys.up then sys.stretch cfg a.env op else none

/-- The two systems stay alongside each other through every step. -/
theorem step_alongside {cfg : Config} {sys sys' : System} (h : Keeping sys sys') (hv : sys.Valid)
    (a : Act) : Alongside (sys.step cfg a) (sys'.step cfg a) := by
  have hran : Alongside (sys.ran cfg a) (sys'.ran cfg a) := by
    unfold System.ran
    split
    · exact restarted_alongside h hv _
    · rw [← h.2.2]
      split
      · exact stretch_alongside h hv _
      · trivial
  exact hran.crash a.crash

/-! ### What can be seen -/

/-- Nothing but the step happens, and it leaves a whole file. -/
def SavesWhole (sys sys' : System) : Prop := WholeFile sys.svc.file ∧ sys' = sys

/-- The step leaves a whole file, and of what it dropped some is kept after all. -/
def SavesKeeping (sys sys' : System) : Prop := WholeFile sys.svc.file ∧ Keeping sys sys'

/-- No later sequence of operations tells the system from one that has kept what it dropped, and
    may keep what later saves drop: the responses are the same, and so are the clients. (The two
    write texts of different length, so each write is taken to transfer the whole of its own.) -/
def Invisible (cfg : Config) (sys : System) : Prop :=
  ∀ kept acts seen seen', Keeping sys kept →
    (machine cfg).Observes SavesWhole (fun s => s.svc.clients) acts sys seen →
    (machine cfg).Observes SavesKeeping (fun s => s.svc.clients) acts kept seen' → seen = seen'

theorem valid_invisible {cfg : Config} {sys : System} (hv : sys.Valid) : Invisible cfg sys := by
  intro kept acts seen seen' hkeep h h'
  refine h.eq (B := Keeping) (I := System.Valid) ?_ ?_ h' hv hkeep
  · intro s s' a hv hb
    have hside : Alongside (s.step cfg a) (s'.step cfg a) := step_alongside hb hv a
    exact hside.none_iff
  · rintro s s' a s1 s1' s2 s2' r r' hv hb hs ⟨hw, rfl⟩ hs' ⟨hw', hput⟩
    have hside : Alongside (s.step cfg a) (s'.step cfg a) := step_alongside hb hv a
    have h1 : s.step cfg a = some (s2, r) := hs
    have h2 : s'.step cfg a = some (s1', r') := hs'
    rw [h1, h2] at hside
    obtain ⟨rfl, hb'⟩ := hside hw hw'
    exact ⟨rfl, OAuthService.clients_hides (hb'.trans hput).1, step_valid h1 hv, hb'.trans hput⟩

/-! ### What a save is made of -/

namespace OAuthService
variable (cfg : Config) (env : Env)

/-- The payload that `_persist_locked` builds at the time `now`. -/
def saving (s : OAuthService) (now : Time) : Json :=
  payload (s.dropExpired now).clients (s.dropExpired now).refreshTokens

/-- `_persist_locked` without the drop. -/
def persistKeeping (s : OAuthService) : OAuthService × Except PyError Unit :=
  match cfg.store with
  | none => (s, .ok ())
  | some store =>
    let dir : Dir := ⟨s.file, none⟩
    let saved := store.save env.save (payload s.clients s.refreshTokens) dir
    ({ s with file := (saved.last dir).file },
      match saved.result with
      | .error (.oauthState message) => .error (.oauth "server_error" message 500)
      | r => r)

/-- What it leaves is a service that keeps what was dropped. -/
theorem persistKeeping_same {s : OAuthService} (hs : Filed s) {now : Time}
    (hw : WholeFile (s.persist cfg env now).1.file)
    (hw' : WholeFile (s.persistKeeping cfg env).1.file) :
    Same (s.persist cfg env now) (s.persistKeeping cfg env) := by
  unfold persist at hw ⊢
  unfold persistKeeping at hw' ⊢
  cases hstore : cfg.store with
  | none => exact ⟨rfl, .refl s⟩
  | some store =>
    rw [hstore] at hw hw'
    have hdropped := fewer_dropExpired s now hs.refresh
    have hvalid : ∀ k t, (s.dropExpired now).refreshTokens.get? k = some t → t.Valid k :=
      fun k t hk => hs.refresh k t (Dict.get?_of_filter hk).1
    obtain ⟨hresult, halike⟩ :=
      save_alike store env.save hs.clients hvalid hdropped (.refl s.file) hw hw'
    refine ⟨?_, _, _, rfl, hdropped, halike⟩
    dsimp only
    rw [← hresult]
    rfl

end OAuthService

/-- The service that an operation saves, and when. -/
inductive Saves (cfg : Config) (env : Env) (sys : System) : Op → OAuthService → Time → Prop where
  | register {body : Json} {source : String} {uris grants : List String} {name : Option String}
      (hlimit : (sys.svc.dcrLimiter.allow source env.t0).2 = true)
      (hroom : ¬ (sys.svc.roomMade env source).Full env.t1)
      (hb : OAuthService.checkBody body = .ok (uris, grants, name)) :
      Saves cfg env sys (.register body source) ((sys.svc.roomMade env source).inserted env source
        (OAuthService.newClient env uris grants name)) env.t2
  | store {tid : ℕ} {req : CompleteRequest} {p : PendingAuthorization} {c : AuthCode}
      (ht : sys.threads.get? tid = some (.completeReady req p c)) :
      Saves cfg env sys (.completeStore tid) (sys.svc.coded c) env.t0
  | issue {form : Dict String String} {s : OAuthService} {clientId resource : String}
      {scopes : Finset String} (hf : Fades sys.svc s) (hx : sys.svc.exchangeToken cfg env form =
        s.issueTokens cfg env clientId resource scopes) :
      Saves cfg env sys (.exchange form) (s.tokened env clientId resource scopes) env.t3
  | revoke (form : Dict String String) :
      Saves cfg env sys (.revoke form)
        (sys.svc.markRevoked (getD form "token" "") (getD form "token_type_hint" "")) env.t0
  | start {calls : OAuthService.StartCalls} {store : DurableOAuthStore} {s : OAuthService}
      (hs : cfg.store = some store)
      (hl : OAuthService.loaded store calls sys.svc.file = .ok s)
      (hremoved : (s.cleanupInactiveClients env.t0 0).2 ≠ []) :
      Saves cfg env sys (.restart calls) (s.cleanupInactiveClients env.t0 0).1 env.t1

/-- Every effect leaves the file alone or is one of these saves. -/
theorem effect_saves {cfg : Config} {env : Env} {sys : System} (hv : sys.Valid) {op : Op}
    {svc : OAuthService} {r : Resp} (h : Effect cfg env sys op svc r) : svc.file = sys.svc.file ∨
      ∃ s now, Saves cfg env sys op s now ∧ svc = (s.persist cfg env now).1 := by
  cases h with
  | idle => exact .inl rfl
  | validate => exact .inl rfl
  | register body source =>
    have hr := OAuthService.register_registers cfg env sys.svc hv.svc.filed.clients body source
    generalize sys.svc.registerClient cfg env body source = res at hr
    cases hr with
    | limited => exact .inl rfl
    | full => exact .inl rfl
    | refused => exact .inl rfl
    | saved hlimit hroom hb => exact .inr ⟨_, _, .register hlimit hroom hb, rfl⟩
  | admission => exact .inl (OAuthService.file_admit _ _ _ _)
  | pop => exact .inl rfl
  | decide => exact .inl (OAuthService.file_decide _ _ _ _ _)
  | store ht =>
    exact .inr ⟨_, _, .store ht, by rw [OAuthService.completeStore_eq]⟩
  | exchange form =>
    have hx := exchange_exchanged cfg env sys.svc form
    generalize hres : sys.svc.exchangeToken cfg env form = res at hx
    cases hx with
    | refused _ _ _ hfile => exact .inl hfile
    | issued _ hf => exact .inr ⟨_, _, .issue hf hres, by rw [OAuthService.issueTokens_eq]⟩
  | revoke form => exact .inr ⟨_, _, .revoke form, rfl⟩
  | start calls =>
    unfold OAuthService.start
    split
    · exact .inl rfl
    next store hstore =>
    split
    · exact .inl rfl
    next s hl =>
    dsimp only
    split
    · obtain ⟨clients, tokens, hrest⟩ := s.cleanup_rest env.t0 0
      have hfile : s.file = sys.svc.file := by
        obtain ⟨read, -, rfl⟩ := loaded_eq hl
        rfl
      exact .inl (by rw [hrest]; exact hfile)
    · next hremoved => exact .inr ⟨_, _, .start hstore hl hremoved, rfl⟩

/-- And each of these saves is made by an effect of the operation. -/
theorem Saves.effect {cfg : Config} {env : Env} {sys : System} (hv : sys.Valid) {op : Op}
    {s : OAuthService} {now : Time} (h : Saves cfg env sys op s now) :
    ∃ r, Effect cfg env sys op (s.persist cfg env now).1 r := by
  cases h with
  | @register body source uris grants name hlimit hroom hb =>
    have heff : Effect cfg env sys _ _ _ := .register body source
    obtain ⟨hinactive, hsize⟩ := not_or.mp hroom
    rw [OAuthService.registerClient_eq cfg env sys.svc hv.svc.filed.clients,
      if_neg (by simp [hlimit]), if_neg hinactive, if_neg hsize, hb] at heff
    exact ⟨_, heff⟩
  | store ht =>
    have heff : Effect cfg env sys _ _ _ := .store ht
    rw [OAuthService.completeStore_eq] at heff
    exact ⟨_, heff⟩
  | @issue form s clientId resource scopes _ hx =>
    have heff : Effect cfg env sys _ _ _ := .exchange form
    rw [hx, OAuthService.issueTokens_eq] at heff
    exact ⟨_, heff⟩
  | revoke form => exact ⟨_, .revoke form⟩
  | @start calls store s hs hl hremoved =>
    have heff : Effect cfg env sys _ _ _ := .start calls
    have hstart : OAuthService.start cfg env calls sys.svc.file =
        (s.cleanupInactiveClients env.t0 0).1.persist cfg env env.t1 := by
      unfold OAuthService.start
      rw [hs]
      dsimp only
      rw [hl]
      exact if_neg hremoved
    rw [hstart] at heff
    exact ⟨_, heff⟩

/-! ### What a save leaves in the file -/

/-- No refresh token of a payload is past its expiry. -/
def NoneExpired (p : Json) (now : Time) : Prop :=
  ∀ item ∈ itemsOf p "refresh_tokens", ∀ x, item.2.get? "expires_at" = some (.float x) → now ≤ x

/-- A save drops what is revoked and expired, so what is expired and left is not revoked. -/
theorem noneExpired_iff (s : OAuthService) (now : Time) : NoneExpired (s.saving now) now ↔
    ∀ k t, s.refreshTokens.get? k = some t → t.expiresAt < now → t.revoked = true := by
  have hitems : itemsOf (s.saving now) "refresh_tokens" =
      (s.dropExpired now).refreshTokens.items.map fun e => (e.1, refreshRecord e.2) := rfl
  unfold NoneExpired
  rw [hitems]
  constructor
  · intro h k t hk hexp
    by_contra hlive
    -- expired and not revoked: the filter keeps it, and so does the payload
    have hkept : (s.dropExpired now).refreshTokens.get? k = some t := by
      rw [OAuthService.dropExpired, Dict.get?_filter, hk, Option.filter_some,
        Bool.eq_false_of_not_eq_true hlive]
      simp
    have hmem := List.mem_map_of_mem
      (f := fun e : String × RefreshToken => (e.1, refreshRecord e.2))
      ((Dict.get?_iff_mem _ _ _).mp hkept)
    exact absurd (h _ hmem t.expiresAt rfl) (not_le.mpr hexp)
  · intro h item hitem x hx
    obtain ⟨⟨k, t⟩, hmem, rfl⟩ := List.mem_map.mp hitem
    obtain ⟨hk, hkept⟩ := Dict.get?_of_filter ((Dict.get?_iff_mem _ _ _).mpr hmem)
    obtain rfl : t.expiresAt = x := Json.float.inj (Option.some.inj hx)
    by_contra hexp
    have hrevoked := h k t hk (not_le.mp hexp)
    simp [not_le.mp hexp, hrevoked] at hkept

/-- A save of the operation that returns. -/
def Stores (cfg : Config) (e : Event) (s : OAuthService) (now : Time) : Prop :=
  Saves cfg e.act.env e.pre e.act.op s now ∧ cfg.store ≠ none ∧
    (s.persist cfg e.act.env now).2 = .ok ()

/-- Dropping is never noticed, and a save that returns has dropped every expired token exactly when
    all the expired tokens it found were revoked. -/
theorem expired_dropped_iff {cfg : Config} {tr : Trace} {sys : System}
    (h : (machine cfg).Run tr sys) {e : Event} (he : e ∈ tr) :
    ((∀ s now, Stores cfg e s now → NoneExpired (s.saving now) now) ∧ Invisible cfg e.post) ↔
      ∀ s now, Stores cfg e s now → ∀ k t, s.refreshTokens.get? k = some t →
        t.expiresAt < now → t.revoked = true := by
  obtain ⟨newer, older, rfl⟩ := List.append_of_mem he
  -- that nobody sees what was dropped holds of every valid state
  have hv : e.post.Valid := run_valid h.split.1
  simp only [noneExpired_iff, and_iff_left (valid_invisible hv)]

/-! ### A month later -/

/-- A revocation of a token that does not exist, a month after the sample run: it only saves. -/
def lateRevoke : Act :=
  (Op.revoke (.ofList [("token", "t")])).run (seconds (refreshTtlS + 5)) "" ""

/-- The sample run up to the moment where its client gives `rtk_y` back. -/
def returnedRun : List Act :=
  grantedRun ++ [(Op.revoke (.ofList [("token", "rtk_y")])).run 5 "" ""]

/-- What `lateRevoke` saves. -/
def lateService (as : List Act) : OAuthService :=
  (after storeConfig as).2.svc.markRevoked "t" ""

theorem late_stores {as : List Act} {sys : System} {r : Resp} {s : OAuthService} {now : Time}
    (h : Stores storeConfig ⟨(after storeConfig as).2, lateRevoke, sys, r⟩ s now) :
    s = lateService as := by
  obtain ⟨hs, -, -⟩ := h
  cases hs
  rfl

/-- A token that was given back is dropped. -/
theorem expired_dropped_sample : ∃ tr sys e, (machine storeConfig).Run tr sys ∧ e ∈ tr ∧
    Stores storeConfig e (lateService returnedRun) (seconds (refreshTtlS + 5)) ∧
    (lateService returnedRun).refreshTokens.contains "rtk_y" = true ∧
    (∀ s now, Stores storeConfig e s now → NoneExpired (s.saving now) now) ∧
      Invisible storeConfig e.post := by
  have hsome : ((machine storeConfig).step (after storeConfig returnedRun).2
      lateRevoke).isSome := by decide +kernel
  obtain ⟨⟨sys, r⟩, hstep⟩ := Option.isSome_iff_exists.mp hsome
  have hrun := Machine.Run.step (after_run storeConfig returnedRun) hstep
  have hok : ((lateService returnedRun).persist storeConfig lateRevoke.env
      (seconds (refreshTtlS + 5))).2 = .ok () := by decide +kernel
  have hall : (lateService returnedRun).refreshTokens.items.all (fun item => item.2.revoked) =
      true := by decide +kernel
  have hiff := expired_dropped_iff hrun List.mem_cons_self
  refine ⟨_, _, _, hrun, List.mem_cons_self, ⟨.revoke _, by decide, hok⟩, by decide +kernel,
    hiff.mpr fun s now hs k t hk _ => ?_⟩
  rw [late_stores hs] at hk
  exact List.all_eq_true.mp hall (k, t) ((Dict.get?_iff_mem _ _ _).mp hk)

/-- A token that was never given back is saved again and again. -/
theorem expired_kept : ∃ tr sys e, (machine storeConfig).Run tr sys ∧ e ∈ tr ∧
    ¬ ((∀ s now, Stores storeConfig e s now → NoneExpired (s.saving now) now) ∧
      Invisible storeConfig e.post) := by
  have hsome : ((machine storeConfig).step (after storeConfig grantedRun).2 lateRevoke).isSome := by
    decide +kernel
  obtain ⟨⟨sys, r⟩, hstep⟩ := Option.isSome_iff_exists.mp hsome
  have hok : ((lateService grantedRun).persist storeConfig lateRevoke.env
      (seconds (refreshTtlS + 5))).2 = .ok () := by decide +kernel
  refine ⟨_, _, _, .step (after_run storeConfig grantedRun) hstep, List.mem_cons_self, fun h => ?_⟩
  have hnone := h.1 (lateService grantedRun) (seconds (refreshTtlS + 5))
    ⟨.revoke _, by decide, hok⟩
  have hkept : ((lateService grantedRun).refreshTokens.get? "rtk_y").any (fun t =>
      t.expiresAt < seconds (refreshTtlS + 5) && !t.revoked) = true := by decide +kernel
  obtain ⟨t, hk, ht⟩ := (Option.any_eq_true _ _).mp hkept
  simp only [Bool.and_eq_true, decide_eq_true_eq, Bool.not_eq_true'] at ht
  have hdead := (noneExpired_iff _ _).mp hnone "rtk_y" t hk ht.1
  rw [ht.2] at hdead
  cases hdead

end DataRelay.OAuth
