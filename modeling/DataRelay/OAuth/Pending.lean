import DataRelay.OAuth.Approval
import DataRelay.OAuth.Cleanup
import DataRelay.OAuth.SingleUse

/-! The pending requests: how many there can be, and whether their clients are registered.

    An entry comes into `pending` at two points. `begin_authorization` admits it behind a check of
    the two caps, but its client was checked under an earlier lock; a failing approval puts it back
    behind no check. `Admits` and `PutsBack` are conditions on the state before. Where every entry
    put back finds room, the caps hold in every reachable state; where every entry inserted finds
    its client, every live consent refers to a registered client. -/

namespace DataRelay.OAuth
open Lib

/-! ### Insertions -/

namespace OAuthService

/-- There is room for one more entry of the client. -/
def Room (s : OAuthService) (clientId : String) : Prop :=
  s.pendingCountForClient clientId < maxPendingPerClient ∧
    s.pending.size < maxPendingAuthorizations

/-- The source is within its rate, and behind the sweep there is room. -/
def Admits (env : Env) (s : OAuthService) (p : PendingAuthorization) (source : String) : Prop :=
  (s.authzLimiter.allow source env.t0).2 = true ∧ (s.cleanupPending env.t1).Room p.clientId

instance (s : OAuthService) (clientId : String) : Decidable (s.Room clientId) :=
  inferInstanceAs (Decidable (_ ∧ _))

instance (env : Env) (s : OAuthService) (p : PendingAuthorization) (source : String) :
    Decidable (s.Admits env p source) :=
  inferInstanceAs (Decidable (_ ∧ _))

instance (cfg : Config) (env : Env) (s : OAuthService) (req : CompleteRequest) :
    Decidable (s.PutsBack cfg env req) :=
  inferInstanceAs (Decidable (_ ∨ _ ∨ _))

variable {env : Env} {s : OAuthService} {p : PendingAuthorization} {source : String}

theorem admit_pending (h : s.Admits env p source) : (s.beginAdmit env p source).1.pending =
    (s.cleanupPending env.t1).pending.set p.requestId p := by
  obtain ⟨hallow, hclient, hall⟩ := h
  have hclient' := not_le.mpr hclient
  have hall' := not_le.mpr hall
  simp only [cleanupPending, pendingCountForClient] at hclient' hall'
  simp only [beginAdmit, cleanupPending, pendingCountForClient, hallow, hclient', hall',
    Bool.true_eq_false, if_false]

theorem refuse_pending (h : ¬ s.Admits env p source) {k : String} {q : PendingAuthorization}
    (hk : (s.beginAdmit env p source).1.pending.get? k = some q) : s.pending.get? k = some q := by
  unfold beginAdmit at hk
  dsimp only at hk
  split at hk
  · exact hk
  rename_i hallow
  split at hk
  · exact (Dict.get?_of_filter hk).1
  rename_i hclient
  split at hk
  · exact (Dict.get?_of_filter hk).1
  rename_i hall
  exact absurd ⟨by simpa using hallow, not_le.mp hclient, not_le.mp hall⟩ h

end OAuthService

/-- The entry that the stretch admits, unless the process dies behind it. -/
def admittedOf (e : Event) : Option PendingAuthorization :=
  match e.act.op with
  | .beginAdmit tid =>
    match e.pre.threads.get? tid with
    | some (.beginReady source p) =>
      if e.act.crash = false ∧ e.pre.svc.Admits e.act.env p source then some p else none
    | _ => none
  | _ => none

/-- The entry that the stretch puts back, unless the process dies behind it. -/
def putBackOf (cfg : Config) (e : Event) : Option PendingAuthorization :=
  match e.act.op with
  | .completeDecide tid =>
    match e.pre.threads.get? tid with
    | some (.completeDeciding req p) =>
      if e.act.crash = false ∧ e.pre.svc.PutsBack cfg e.act.env req then some p else none
    | _ => none
  | _ => none

/-- What a stretch does to `pending`: it takes entries out, or it inserts one. -/
inductive PendingStep (cfg : Config) (e : Event) : Prop where
  | shrinks (hp : putBackOf cfg e = none)
      (h : ∀ k p, e.post.svc.pending.get? k = some p → e.pre.svc.pending.get? k = some p)
  | admits {p : PendingAuthorization} (hp : admittedOf e = some p)
      (h : e.post.svc.pending =
        (e.pre.svc.cleanupPending e.act.env.t1).pending.set p.requestId p)
  | putsBack {p : PendingAuthorization} (hp : putBackOf cfg e = some p)
      (h : e.post.svc.pending = e.pre.svc.pending.set p.requestId p)

section Step
variable {cfg : Config} {e : Event}

theorem putBackOf_eq {p : PendingAuthorization} (h : putBackOf cfg e = some p) :
    ∃ tid req, e.act.op = .completeDecide tid ∧
      e.pre.threads.get? tid = some (.completeDeciding req p) ∧ e.act.crash = false ∧
      e.pre.svc.PutsBack cfg e.act.env req := by
  unfold putBackOf at h
  split at h
  · rename_i tid hop
    split at h
    · rename_i req q ht
      split at h
      · rename_i hc
        cases h
        exact ⟨tid, req, hop, ht, hc⟩
      · cases h
    · cases h
  · cases h

theorem admittedOf_eq {p : PendingAuthorization} (h : admittedOf e = some p) :
    ∃ tid source, e.act.op = .beginAdmit tid ∧
      e.pre.threads.get? tid = some (.beginReady source p) ∧ e.act.crash = false ∧
      e.pre.svc.Admits e.act.env p source := by
  unfold admittedOf at h
  split at h
  · rename_i tid hop
    split at h
    · rename_i source q ht
      split at h
      · rename_i hc
        cases h
        exact ⟨tid, source, hop, ht, hc⟩
      · cases h
    · cases h
  · cases h

/-- Only a second lock that lets the process live puts an entry back. -/
theorem putBackOf_none (h : ∀ tid, e.act.op = .completeDecide tid → e.act.crash = true) :
    putBackOf cfg e = none := by
  rw [Option.eq_none_iff_forall_ne_some]
  intro p hp
  obtain ⟨tid, req, hop, -, hcrash, -⟩ := putBackOf_eq hp
  rw [h tid hop] at hcrash
  cases hcrash

theorem step_pendingStep (h : e.pre.step cfg e.act = some (e.post, e.resp)) (hv : e.pre.Valid) :
    PendingStep cfg e := by
  obtain ⟨sys, ⟨op, env, crash⟩, sys', r⟩ := e
  obtain ⟨svc, resp, heff, ⟨rfl, rfl, -⟩ | ⟨rfl, hlost⟩⟩ := step_effect h
  · have hrest (hb : ∀ tid, op ≠ .beginAdmit tid) (hd : ∀ tid, op ≠ .completeDecide tid) :
        PendingStep cfg ⟨sys, ⟨op, env, false⟩, sys', r⟩ := by
      refine .shrinks (putBackOf_none fun tid hop => absurd hop (hd tid)) fun k p hk =>
        (step_pending h hk).resolve_right ?_
      rintro (⟨tid, -, hop, -⟩ | ⟨tid, -, hop, -⟩)
      · exact hb tid hop
      · exact hd tid hop
    -- only an admission and a decided approval can add a pending entry
    generalize hsvc : sys'.svc = svc at heff
    cases heff with
    | @admission tid source p ht =>
      by_cases hadm : sys.svc.Admits env p source
      · refine .admits (p := p) ?_ ?_
        · simp only [admittedOf, ht, hadm, and_self, if_true]
        · exact (congrArg OAuthService.pending hsvc).trans (OAuthService.admit_pending hadm)
      · refine .shrinks (putBackOf_none fun tid hop => by cases hop) fun k q hk =>
          OAuthService.refuse_pending hadm ?_
        rw [← hsvc]
        exact hk
    | @decide tid req p ht =>
      by_cases hback : sys.svc.PutsBack cfg env req
      · refine .putsBack (p := p) ?_ ?_
        · simp only [putBackOf, ht, hback, and_self, if_true]
        · obtain ⟨limiter, hd⟩ := decide_putsBack (p := p) hback
          have hid : p.requestId = req.requestId := hv.threads _ _ ht
          rw [hd] at hsvc
          rw [hid]
          exact congrArg OAuthService.pending hsvc
      · have hnone : putBackOf cfg ⟨sys, ⟨.completeDecide tid, env, false⟩, sys', r⟩ = none := by
          simp only [putBackOf, ht, hback, and_false, if_false]
        refine .shrinks hnone fun k q hk => ?_
        rw [← decide_not_putsBack (p := p) hback, ← hsvc]
        exact hk
    | idle hop =>
      refine hrest ?_ ?_ <;> rintro tid rfl <;> cases hop
    | _ => exact hrest (by simp) (by simp)
  · -- a crash or a start leaves no pending entry at all
    refine .shrinks (putBackOf_none fun tid hop => ?_) fun _ _ hk => by cases hk
    rcases hlost with ⟨hcrash, -⟩ | ⟨calls, -, hop', -⟩
    · exact hcrash
    · cases hop.symm.trans hop'

end Step

/-! ### Capacity -/

/-- At most so many entries in all, and of one client. -/
structure Capacity (s : OAuthService) : Prop where
  all : s.pending.size ≤ maxPendingAuthorizations
  client : ∀ clientId, s.pendingCountForClient clientId ≤ maxPendingPerClient

section Capacity
variable {cfg : Config} {s s' : OAuthService} {e : Event} {tr : Trace} {sys : System}

theorem Capacity.shrinks (h : Capacity s)
    (hs : ∀ k p, s'.pending.get? k = some p → s.pending.get? k = some p) : Capacity s' where
  all := by
    rw [Dict.size_eq_count]
    exact (Dict.count_le_of_get? hs _).trans (s.pending.size_eq_count ▸ h.all)
  client clientId := (Dict.count_le_of_get? hs _).trans (h.client clientId)

theorem Capacity.set (h : Capacity s) {k : String} {p : PendingAuthorization}
    (hroom : s.Room p.clientId) (hs : s'.pending = s.pending.set k p) : Capacity s' where
  all := by
    have hle := s.pending.count_set_le k p fun _ _ => true
    have hsize := hroom.2
    rw [hs, Dict.size_eq_count]
    rw [Dict.size_eq_count] at hsize
    simp only [if_true] at hle
    omega
  client clientId := by
    have hle := s.pending.count_set_le k p fun _ q => q.clientId = clientId
    have hold := h.client clientId
    have hcount := hroom.1
    unfold OAuthService.pendingCountForClient at hold hcount ⊢
    rw [hs]
    by_cases hc : p.clientId = clientId
    · subst hc
      simp only [decide_true, if_true] at hle
      omega
    · simp only [hc, decide_false, Bool.false_eq_true, if_false] at hle
      omega

/-- An entry that the stretch puts back finds room. -/
def FindsRoom (cfg : Config) (e : Event) : Prop :=
  ∀ p ∈ putBackOf cfg e, e.pre.svc.Room p.clientId

theorem step_capacity (h : PendingStep cfg e) (hroom : FindsRoom cfg e) (hc : Capacity e.pre.svc) :
    Capacity e.post.svc := by
  cases h with
  | shrinks _ hs => exact hc.shrinks hs
  | @admits p hp hs =>
    have hsweep : Capacity (e.pre.svc.cleanupPending e.act.env.t1) :=
      hc.shrinks fun _ _ hk => (Dict.get?_of_filter hk).1
    obtain ⟨tid, source, -, -, -, hadm⟩ := admittedOf_eq hp
    exact hsweep.set hadm.2 hs
  | putsBack hp hs => exact hc.set (hroom _ hp) hs

/-- The caps on pending requests hold in every reachable state, as long as every entry that a
    failing approval puts back finds room. -/
theorem pending_capacity (h : (machine cfg).Run tr sys) (hroom : ∀ e ∈ tr, FindsRoom cfg e) :
    Capacity sys.svc := by
  refine h.invariant (A := fun tr => ∀ e ∈ tr, FindsRoom cfg e) (I := fun _ s => Capacity s.svc)
    (fun e tr ha e' he' => ha e' (List.mem_cons_of_mem e he')) ?_ ?_ hroom
  · rintro _ rfl
    exact ⟨Nat.zero_le _, fun _ => Nat.zero_le _⟩
  · -- the invariant needs the room at this step only
    intro tr s a s' r hrun ha hc hstep
    exact step_capacity (step_pendingStep (e := ⟨s, a, s', r⟩) hstep (run_valid hrun))
      (ha _ List.mem_cons_self) hc

/-- And only as long: an entry put back without room breaks a cap. -/
theorem putBack_overflows (h : (machine cfg).Run (e :: tr) sys) (hfresh : Fresh tr)
    {p : PendingAuthorization} (hp : putBackOf cfg e = some p)
    (hfull : ¬ e.pre.svc.Room p.clientId) : ¬ Capacity sys.svc := by
  obtain ⟨hrun, hstep, rfl⟩ := h.cons
  obtain ⟨tid, req, hop, ht, hcrash, hback⟩ := putBackOf_eq hp
  have hnone : e.pre.svc.pending.get? p.requestId = none := by
    rw [Option.eq_none_iff_forall_ne_some]
    intro q hq
    have hid := (run_valid hrun).svc.pending _ q hq
    have hsame := run_unique hrun hfresh (.request p.requestId) .pending (.thread tid)
      ⟨q, by rw [hid], hid ▸ hq⟩ ⟨_, ht, rfl⟩
    cases hsame
  cases step_pendingStep hstep (run_valid hrun) with
  | shrinks hnot => rw [hp] at hnot; cases hnot
  | admits hp' =>
    obtain ⟨_, _, hop', -⟩ := admittedOf_eq hp'
    cases hop.symm.trans hop'
  | putsBack hp' hs =>
    obtain rfl := Option.some.inj (hp.symm.trans hp')
    intro hc
    refine hfull ⟨?_, ?_⟩
    · have hcount := Dict.count_set_of_none hnone p fun _ q => q.clientId = p.clientId
      have hle := hc.client p.clientId
      unfold OAuthService.pendingCountForClient at hle ⊢
      rw [hs, hcount] at hle
      simp only [decide_true, if_true] at hle
      omega
    · have hcount := Dict.count_set_of_none hnone p fun _ _ => true
      have hle := hc.all
      rw [hs, Dict.size_eq_count, hcount] at hle
      rw [Dict.size_eq_count]
      simp only [if_true] at hle
      omega

end Capacity

instance (cfg : Config) : DecidablePred (FindsRoom cfg) := fun e =>
  inferInstanceAs (Decidable (∀ p ∈ putBackOf cfg e, _))

/-- A `complete_authorization` on thread `tid` that gives a wrong secret, up to its second lock. -/
def guessOps (tid : ℕ) (requestId : String) (t : Time) : List Act :=
  [(Op.completeCall tid ⟨requestId, "wrong", "approve", "o"⟩).run t "" "",
    (Op.completeCheck tid).run t "" ""]

/-- One pending request, and a wrong secret for it. -/
def guessRun : List Act :=
  (Op.register sampleBody "a").run 1 "c" "" :: beginOps 0 "client_c" "p1" 2 ++
    guessOps 1 "authreq_p1" 3 ++ [(Op.completeDecide 1).run 4 "" ""]

theorem pending_capacity_guess : Capacity (after sampleConfig guessRun).2.svc ∧
    (after sampleConfig guessRun).2.svc.pendingCountForClient "client_c" = 1 :=
  ⟨pending_capacity (after_run sampleConfig guessRun) (by decide +kernel), by decide +kernel⟩

/-- While the entry is out for a wrong secret, a fifth request takes its room. -/
def overflowRun : List Act :=
  (Op.register sampleBody "a").run 1 "c" "" :: beginOps 0 "client_c" "p1" 2 ++
    beginOps 0 "client_c" "p2" 2 ++ beginOps 0 "client_c" "p3" 2 ++ beginOps 0 "client_c" "p4" 2 ++
    guessOps 1 "authreq_p1" 3 ++ beginOps 0 "client_c" "p5" 4 ++
    [(Op.completeDecide 1).run 5 "" ""]

/-- A run into a state with five pending requests of one client. -/
theorem pending_overflow :
    (machine sampleConfig).Run (after sampleConfig overflowRun).1
        (after sampleConfig overflowRun).2 ∧
      Fresh (after sampleConfig overflowRun).1 ∧
      (after sampleConfig overflowRun).2.svc.pendingCountForClient "client_c" = 5 ∧
      ¬ Capacity (after sampleConfig overflowRun).2.svc := by
  have hcount : (after sampleConfig overflowRun).2.svc.pendingCountForClient "client_c" = 5 := by
    decide +kernel
  refine ⟨after_run sampleConfig overflowRun, ?_, hcount, fun hc => ?_⟩
  · unfold Fresh
    decide +kernel
  · have hle := hc.client "client_c"
    rw [hcount] at hle
    exact absurd hle (by decide)

/-! ### Live consent -/

/-- No reading of the clock is past `now`. -/
def Env.Before (env : Env) (now : Time) : Prop :=
  env.t0 ≤ now ∧ env.t1 ≤ now ∧ env.t2 ≤ now ∧ env.t3 ≤ now

/-- No stretch of the history read the clock past `now`. -/
def Clocked (now : Time) (tr : Trace) : Prop := ∀ e ∈ tr, e.act.env.Before now

/-- Every unexpired entry of `pending` names a registered client with its redirect URI. -/
def LiveConsent (now : Time) (s : OAuthService) : Prop :=
  ∀ k p, s.pending.get? k = some p → now ≤ p.expiresAt →
    s.clientAllows p.clientId p.redirectUri = true

/-- An entry that the stretch inserts, unexpired as yet, finds its client. -/
def FindsClient (cfg : Config) (e : Event) : Prop :=
  ∀ p ∈ (admittedOf e).toList ++ (putBackOf cfg e).toList, e.act.env.Before p.expiresAt →
    e.pre.svc.clientAllows p.clientId p.redirectUri = true

instance (env : Env) (now : Time) : Decidable (env.Before now) :=
  inferInstanceAs (Decidable (_ ∧ _ ∧ _ ∧ _))

instance (now : Time) (tr : Trace) : Decidable (Clocked now tr) :=
  inferInstanceAs (Decidable (∀ e ∈ tr, _))

instance (cfg : Config) : DecidablePred (FindsClient cfg) := fun e =>
  inferInstanceAs (Decidable (∀ p ∈ (admittedOf e).toList ++ (putBackOf cfg e).toList, _ → _))

section Consent
variable {cfg : Config} {env : Env} {sys sys' : System} {op : Op} {a : Act} {r : Resp} {tr : Trace}
  {k uri : String} {now : Time}

theorem clientAllows_iff {s : OAuthService} : s.clientAllows k uri = true ↔
    ∃ c, s.clients.get? k = some c ∧ uri ∈ c.redirectUris := by
  unfold OAuthService.clientAllows
  split
  · rename_i hc
    simp [hc]
  · rename_i c hc
    simp [hc]

theorem Keeps.clientAllows {loss : Loss} {s s' : OAuthService} (h : Keeps loss s s')
    (hn : ¬ loss.client k) (ha : s.clientAllows k uri = true) : s'.clientAllows k uri = true := by
  obtain ⟨c, hc, huri⟩ := clientAllows_iff.mp ha
  obtain ⟨c', hc', hage⟩ := h.clients k c hc hn
  refine clientAllows_iff.mpr ⟨c', hc', ?_⟩
  rw [hage]
  exact huri

/-- A client is lost to a registration or a restart only. -/
theorem lossOf_client (h : (lossOf cfg env sys op).client k) :
    (∃ body source, op = .register body source ∧
      (Evicts env sys.svc source k ∨ k = newToken "client" env.random0)) ∨
      ∃ calls, op = .restart calls := by
  cases op with
  | register body source => exact Or.inl ⟨body, source, rfl, h⟩
  | restart calls => exact Or.inr ⟨calls, rfl⟩
  | _ => exact h.elim

/-- The identifier of a client, in memory or in the state file, was generated. -/
theorem client_generated (h : (machine cfg).Run tr sys) {c : RegisteredClient}
    (hc : sys.svc.HoldsClient k c) : k ∈ generated tr := by
  refine h.invariant (A := fun _ => True) (I := fun tr s => ∀ k c, s.svc.HoldsClient k c →
    k ∈ generated tr) (fun _ _ _ => trivial) ?_ ?_ trivial k c hc
  · rintro _ rfl k c (hc | ⟨read, hread, hc⟩)
    · cases hc
    · cases hread; cases hc
  · intro tr s a s' r hrun _ hg hstep k c hc
    rcases step_holdsClient hstep (run_valid hrun) hc with
      ⟨c0, hold, -⟩ | ⟨c0, rfl, -, body, source, hop, -, -, -, -, rfl⟩
    · exact generated_tail _ (hg k c0 hold)
    · exact generated_entry [] tr (by simp [Act.generates, hop])

theorem Env.Before.trans {now' : Time} (h : env.Before now) (hle : now ≤ now') : env.Before now' :=
  ⟨h.1.trans hle, h.2.1.trans hle, h.2.2.1.trans hle, h.2.2.2.trans hle⟩

/-- A live pending request protects its client. -/
theorem not_evicts (hv : sys.svc.Valid) {p : PendingAuthorization}
    (hp : sys.svc.pending.get? k = some p) (hlive : env.t1 ≤ p.expiresAt) {source : String} :
    ¬ Evicts env sys.svc source p.clientId := by
  rintro ⟨-, hmem⟩
  obtain ⟨c, hc, hev⟩ := OAuthService.evictable_of_evicted
    (fun k c hc => (hv.clients k c (Or.inl hc)).1) hmem
  have hid : c.clientId = p.clientId := (hv.clients _ c (Or.inl hc)).1
  have hpend : sys.svc.clientHasLivePending c.clientId env.t1 = true :=
    (OAuthService.hasLivePending_iff _ _ _).mpr ⟨k, p, hp, hid.symm, hlive⟩
  simp [OAuthService.evictable, hpend] at hev

theorem step_liveConsent {e : Event} (h : (machine cfg).Run (e :: tr) e.post)
    (hfresh : Fresh (e :: tr)) (hclock : e.act.env.Before now) (hfind : FindsClient cfg e)
    (hl : LiveConsent now e.pre.svc) : LiveConsent now e.post.svc := by
  obtain ⟨hrun, hstep, -⟩ := h.cons
  have hv := run_valid hrun
  intro k p hk hlive
  -- a client that is there before the step is there behind it, if no cleanup evicts it
  have hstays (hne : ∀ body source, e.act.op = .register body source →
        ¬ Evicts e.act.env e.pre.svc source p.clientId)
      (ha : e.pre.svc.clientAllows p.clientId p.redirectUri = true) :
      e.post.svc.clientAllows p.clientId p.redirectUri = true := by
    obtain ⟨svc, resp, heff, ⟨-, hsvc, -⟩ | ⟨hlost, -⟩⟩ := step_effect hstep
    · rw [hsvc] at hk ⊢
      refine (effect_keeps hv.svc heff).clientAllows (fun hloss => ?_) ha
      rcases lossOf_client hloss with ⟨body, source, hop, hev | hnew⟩ | ⟨calls, hop⟩
      · exact hne body source hop hev
      · obtain ⟨c, hc, -⟩ := clientAllows_iff.mp ha
        refine hfresh.not_generates (client_generated hrun (Or.inl hc)) ?_
        simp [Act.generates, hop, hnew]
      · rw [hop] at heff
        generalize hst : svc = svc' at heff
        cases heff with
        | idle hop => cases hop
        | start =>
          obtain ⟨cs, ts, file, hrest⟩ := @start_rest cfg e.act.env calls e.pre.svc.file
          rw [hst, hrest] at hk
          cases hk
    · rw [hlost] at hk
      cases hk
  have hold (hpre : e.pre.svc.pending.get? k = some p) :
      e.post.svc.clientAllows p.clientId p.redirectUri = true :=
    hstays (fun _ _ _ => not_evicts hv.svc hpre (hclock.2.1.trans hlive)) (hl k p hpre hlive)
  have hnew (hp : p ∈ (admittedOf e).toList ++ (putBackOf cfg e).toList)
      (hop : ∀ body source, e.act.op ≠ .register body source) :
      e.post.svc.clientAllows p.clientId p.redirectUri = true :=
    hstays (fun body source h => absurd h (hop body source))
      (hfind p hp (hclock.trans hlive))
  cases step_pendingStep hstep hv with
  | shrinks _ hs => exact hold (hs k p hk)
  | @admits q hp hs =>
    rw [hs] at hk
    rcases Dict.get?_of_set hk with ⟨rfl, rfl⟩ | ⟨-, hk⟩
    · obtain ⟨tid, source, hop, -⟩ := admittedOf_eq hp
      exact hnew (by simp [hp]) (by simp [hop])
    · exact hold (Dict.get?_of_filter hk).1
  | @putsBack q hp hs =>
    rw [hs] at hk
    rcases Dict.get?_of_set hk with ⟨rfl, rfl⟩ | ⟨-, hk⟩
    · obtain ⟨tid, req, hop, -⟩ := putBackOf_eq hp
      exact hnew (by simp [hp]) (by simp [hop])
    · exact hold hk

/-- Every live consent refers to a registered client in every reachable state, as long as every
    entry that is inserted finds its client. -/
theorem live_consent (h : (machine cfg).Run tr sys) (hfresh : Fresh tr) (hclock : Clocked now tr)
    (hfind : ∀ e ∈ tr, FindsClient cfg e) : LiveConsent now sys.svc := by
  refine h.invariant (A := fun tr => Fresh tr ∧ Clocked now tr ∧ ∀ e ∈ tr, FindsClient cfg e)
    (I := fun _ s => LiveConsent now s.svc) ?_ ?_ ?_ ⟨hfresh, hclock, hfind⟩
  · -- what is assumed of a run holds of its older part
    rintro e tr ⟨hf, hc, ha⟩
    exact ⟨hf.tail, fun e' he' => hc e' (List.mem_cons_of_mem e he'),
      fun e' he' => ha e' (List.mem_cons_of_mem e he')⟩
  · rintro _ rfl k p hk
    cases hk
  · -- nothing is pending at the start; a step keeps the clients of what is
    rintro tr s a s' r hrun ⟨hf, hc, ha⟩ hl hstep
    exact step_liveConsent (e := ⟨s, a, s', r⟩) (.step hrun hstep) hf (hc _ List.mem_cons_self)
      (ha _ List.mem_cons_self) hl

end Consent

theorem live_consent_guess : LiveConsent 10 (after sampleConfig guessRun).2.svc ∧
    (after sampleConfig guessRun).2.svc.pending.size = 1 := by
  have hfresh : Fresh (after sampleConfig guessRun).1 := by
    unfold Fresh
    decide +kernel
  exact ⟨live_consent (after_run sampleConfig guessRun) hfresh (by decide +kernel)
    (by decide +kernel), by decide +kernel⟩

/-- Between the check of a request and its admission, a registration evicts the client. -/
def orphanRun : List Act :=
  [(Op.register sampleBody "a").run 1 "c" "",
    (Op.beginCall 0 (sampleParams "client_c") "a").run (seconds 3700) "" "",
    (Op.register sampleBody "b").run (seconds 3700) "d" "",
    (Op.beginBuild 0).run (seconds 3700) "p" "", (Op.beginAdmit 0).run (seconds 3700) "" ""]

/-- A run into a state with a live consent for a client that is gone. -/
theorem consent_orphaned :
    (machine sampleConfig).Run (after sampleConfig orphanRun).1 (after sampleConfig orphanRun).2 ∧
      Fresh (after sampleConfig orphanRun).1 ∧
      Clocked (seconds 3700) (after sampleConfig orphanRun).1 ∧
      ¬ LiveConsent (seconds 3700) (after sampleConfig orphanRun).2.svc := by
  refine ⟨after_run sampleConfig orphanRun, ?_, by decide +kernel, fun hl => ?_⟩
  · unfold Fresh
    decide +kernel
  · have horphan : ((after sampleConfig orphanRun).2.svc.pending.get? "authreq_p").any (fun p =>
        decide (seconds 3700 ≤ p.expiresAt) &&
          !(after sampleConfig orphanRun).2.svc.clientAllows p.clientId p.redirectUri) = true := by
      decide +kernel
    obtain ⟨p, hp, hbad⟩ := (Option.any_eq_true _ _).mp horphan
    simp only [Bool.and_eq_true, decide_eq_true_eq, Bool.not_eq_true'] at hbad
    rw [hl _ p hp hbad.1] at hbad
    exact absurd hbad.2 (by simp)

end DataRelay.OAuth
