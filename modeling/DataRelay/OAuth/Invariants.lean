import DataRelay.OAuth.Frame

/-! What holds in every reachable state: every record is filed under its own identifier, in memory
    and in the state file, and comes back from the file unchanged.

    `System.Valid` is kept by every step. On top of it, `step_holdsRefresh` and its siblings say where
    a record that is held after a step comes from; every statement about tokens goes through them. -/

namespace DataRelay.OAuth
open Lib

/-! ### Valid records -/

/-- A client filed under `k`, none of whose fields is replaced by a default when it is read. -/
def RegisteredClient.Valid (k : String) (c : RegisteredClient) : Prop :=
  c.clientId = k ∧ c.grantTypes ≠ [] ∧ c.responseTypes ≠ []

/-- An access token filed under `k`. -/
def AccessToken.Valid (k : String) (t : AccessToken) : Prop :=
  t.token = k ∧ ∃ random, k = newToken "atk" random

/-- A refresh token filed under `k`, none of whose fields is replaced when it is read. -/
def RefreshToken.Valid (k : String) (t : RefreshToken) : Prop :=
  t.token = k ∧ t.subject ≠ "" ∧ ∃ random, k = newToken "rtk" random

theorem RegisteredClient.Valid.ages {k : String} {c c' : RegisteredClient} (h : c.Valid k)
    (ha : c.Ages c') : c'.Valid k := by
  rw [ha]; exact h

theorem AccessToken.Valid.ages {k : String} {t t' : AccessToken} (h : t.Valid k)
    (ha : t.Ages t') : t'.Valid k := by
  rw [ha.1]; exact h

theorem RefreshToken.Valid.ages {k : String} {t t' : RefreshToken} (h : t.Valid k)
    (ha : t.Ages t') : t'.Valid k := by
  rw [ha.1]; exact h

theorem RegisteredClient.Valid.reload {k : String} {c : RegisteredClient} (h : c.Valid k) :
    c.Ages c.reload := by
  simp only [Ages, RegisteredClient.reload, if_neg h.2.1, if_neg h.2.2]

theorem RefreshToken.Valid.reload {k : String} {t : RefreshToken} (h : t.Valid k) :
    t.reload = t := by
  simp only [RefreshToken.reload, if_neg h.2.1]

/-- Every record of the service is filed under its own identifier. -/
structure OAuthService.Valid (s : OAuthService) : Prop where
  clients : ∀ k c, s.HoldsClient k c → c.Valid k
  refresh : ∀ k t, s.HoldsRefresh k t → t.Valid k
  codes : ∀ k c, s.codes.get? k = some c → c.code = k
  access : ∀ k t, s.accessTokens.get? k = some t → t.Valid k
  pending : ∀ k p, s.pending.get? k = some p → p.requestId = k

theorem OAuthService.HoldsClient.of_empty {s : OAuthService} {k : String} {c : RegisteredClient}
    (h : (OAuthService.empty s.file).HoldsClient k c) : s.HoldsClient k c :=
  Or.inr (Or.resolve_left h fun h => nomatch h)

theorem OAuthService.HoldsRefresh.of_empty {s : OAuthService} {k : String} {t : RefreshToken}
    (h : (OAuthService.empty s.file).HoldsRefresh k t) : s.HoldsRefresh k t :=
  Or.inr (Or.resolve_left h fun h => nomatch h)

/-- Losing the memory loses no validity. -/
theorem OAuthService.Valid.empty {s : OAuthService} (h : s.Valid) :
    (OAuthService.empty s.file).Valid where
  clients k c h' := h.clients k c (OAuthService.HoldsClient.of_empty h')
  refresh k t h' := h.refresh k t (OAuthService.HoldsRefresh.of_empty h')
  codes _ _ h' := nomatch h'
  access _ _ h' := nomatch h'
  pending _ _ h' := nomatch h'

/-! ### Where a record comes from -/

section Origin
variable {cfg : Config} {new : New} {s s' : OAuthService}

/-- What a file written by a step holds is what the memory holds. -/
theorem Writes.read (h : Writes cfg s s') (hc : ∀ k c, s'.clients.get? k = some c → c.Valid k)
    (hr : ∀ k t, s'.refreshTokens.get? k = some t → t.Valid k)
    {read : Dict String RegisteredClient × Dict String RefreshToken}
    (hread : readFile s'.file = some read) :
    readFile s.file = some read ∨ Reloads s'.clients s'.refreshTokens read := by
  rcases h with h | ⟨-, n, h⟩
  · exact Or.inl (h ▸ hread)
  · rw [h] at hread
    exact Or.inr (readFile_take (fun k c hk => (hc k c hk).1) (fun k t hk => (hr k t hk).1) hread)

variable (h : Evolves cfg new s s') (hc : ∀ k c, s'.clients.get? k = some c → c.Valid k)
  (hr : ∀ k t, s'.refreshTokens.get? k = some t → t.Valid k)
include h hc hr

theorem Evolves.holdsClient {k : String} {c' : RegisteredClient} (hk : s'.HoldsClient k c') :
    (∃ c, s.HoldsClient k c ∧ c.Ages c') ∨
      ∃ c, k = c.clientId ∧ new.client c ∧ c.Ages c' := by
  have hmem : ∀ c1, s'.clients.get? k = some c1 → c1.Ages c' →
      (∃ c, s.HoldsClient k c ∧ c.Ages c') ∨ ∃ c, k = c.clientId ∧ new.client c ∧ c.Ages c' := by
    intro c1 h1 ha
    rcases h.clients k c1 h1 with ⟨c, hc, ha'⟩ | ⟨hk, hn⟩
    · exact Or.inl ⟨c, hc, ha'.trans ha⟩
    · exact Or.inr ⟨c1, hk, hn, ha⟩
  rcases hk with hk | ⟨read, hread, hk⟩
  · exact hmem c' hk (.refl c')
  · rcases h.file.read hc hr hread with hold | hre
    · exact Or.inl ⟨c', Or.inr ⟨read, hold, hk⟩, .refl c'⟩
    · rw [hre.1] at hk
      obtain ⟨c1, h1, rfl⟩ := Option.map_eq_some_iff.mp hk
      exact hmem c1 h1 (hc k c1 h1).reload

theorem Evolves.holdsRefresh {k : String} {t' : RefreshToken} (hk : s'.HoldsRefresh k t') :
    (∃ t, s.HoldsRefresh k t ∧ t.Ages t') ∨ (k = t'.token ∧ new.refresh t') := by
  rcases hk with hk | ⟨read, hread, hk⟩
  · exact h.refresh_holds k t' hk
  · rcases h.file.read hc hr hread with hold | hre
    · exact Or.inl ⟨t', Or.inr ⟨read, hold, hk⟩, .refl t'⟩
    · rw [hre.2] at hk
      obtain ⟨t1, h1, rfl⟩ := Option.map_eq_some_iff.mp hk
      rw [(hr k t1 h1).reload]
      exact h.refresh_holds k t1 h1

end Origin

/-- What an operation makes is filed under its own identifier. -/
structure New.Valid (new : New) : Prop where
  client : ∀ c, new.client c → c.Valid c.clientId
  access : ∀ t, new.access t → t.Valid t.token
  refresh : ∀ t, new.refresh t → t.Valid t.token
  pending : ∀ k p, new.pending k p → p.requestId = k

theorem Evolves.valid {cfg : Config} {new : New} {s s' : OAuthService} (h : Evolves cfg new s s')
    (hn : new.Valid) (hv : s.Valid) : s'.Valid := by
  have hc : ∀ k c, s'.clients.get? k = some c → c.Valid k := by
    intro k c hk
    rcases h.clients k c hk with ⟨c0, h0, ha⟩ | ⟨rfl, hc⟩
    · exact (hv.clients k c0 h0).ages ha
    · exact hn.client c hc
  have hr : ∀ k t, s'.refreshTokens.get? k = some t → t.Valid k := by
    intro k t hk
    rcases h.refresh_holds k t hk with ⟨t0, h0, ha⟩ | ⟨rfl, ht⟩
    · exact (hv.refresh k t0 h0).ages ha
    · exact hn.refresh t ht
  -- each record is an old one that has aged, or the new one
  refine ⟨fun k c hk => ?_, fun k t hk => ?_, fun k c hk => ?_, fun k t hk => ?_,
    fun k p hk => ?_⟩
  · rcases h.holdsClient hc hr hk with ⟨c0, h0, ha⟩ | ⟨c0, rfl, h0, ha⟩
    · exact (hv.clients k c0 h0).ages ha
    · exact (hn.client c0 h0).ages ha
  · rcases h.holdsRefresh hc hr hk with ⟨t0, h0, ha⟩ | ⟨rfl, ht⟩
    · exact (hv.refresh k t0 h0).ages ha
    · exact hn.refresh t ht
  · rcases h.codes k c hk with h0 | ⟨rfl, -⟩
    · exact hv.codes k c h0
    · rfl
  · rcases h.access k t hk with ⟨t0, h0, ha⟩ | ⟨rfl, ht⟩
    · exact (hv.access k t0 h0).ages ha
    · exact hn.access t ht
  · rcases h.pending k p hk with h0 | h0
    · exact hv.pending k p h0
    · exact hn.pending k p h0

/-! ### Every reachable state -/

theorem orDefault_ne_nil {v : Option Json} {d : String} {ds : List String} {items : List Json}
    (h : orDefault v (strs (d :: ds)) = .arr items) : items ≠ [] := by
  rintro rfl
  unfold orDefault at h
  split at h
  · rename_i ht
    cases v with
    | none => cases ht
    | some v => rw [Option.getD_some] at h; subst h; cases ht
  · cases h

/-- The grant types that pass the check are strings, and there is one. -/
theorem checkGrants_ok : ∀ {items : List Json}, items ≠ [] →
    OAuthService.checkGrants items = .ok () → items.filterMap asStr ≠ []
  | g :: gs, _, h => by
    unfold OAuthService.checkGrants at h
    split at h
    · cases h
    split at h
    · rename_i ht
      cases g <;> simp [OAuthService.isText] at ht
      simp [asStr]
    · cases h

theorem checkGrantTypes_ok {value : Option Json} {grants : List String}
    (h : OAuthService.checkGrantTypes value = .ok grants) : grants ≠ [] := by
  unfold OAuthService.checkGrantTypes at h
  split at h
  · rename_i items hd
    cases hg : OAuthService.checkGrants items with
    | error e => rw [hg] at h; cases h
    | ok u =>
      rw [hg] at h; cases h
      exact checkGrants_ok (orDefault_ne_nil hd) hg
  · cases h

/-- A registration names at least one grant type. -/
theorem checkBody_grants {body : Json} {uris grants : List String} {name : Option String}
    (h : OAuthService.checkBody body = .ok (uris, grants, name)) : grants ≠ [] := by
  simp only [OAuthService.checkBody, bind, Except.bind, pure, Except.pure] at h
  split at h
  · cases h
  split at h
  · cases h
  split at h
  · cases h
  rename_i hg
  split at h
  · cases h
  · cases h; exact checkGrantTypes_ok hg

theorem relayOwner_ne : relayOwner ≠ "" := by decide

theorem newOf_valid {cfg : Config} {env : Env} {sys : System} {op : Op}
    (ht : ∀ tid req p, sys.threads.get? tid = some (.completeDeciding req p) →
      p.requestId = req.requestId) : (newOf cfg env sys op).Valid where
  client c h := by
    cases op with
    | register body source =>
      obtain ⟨uris, grants, name, hb, rfl⟩ := h
      exact ⟨rfl, checkBody_grants hb, by simp⟩
    | _ => cases h
  access t h := by
    cases op with
    | exchange form =>
      obtain ⟨t', h⟩ := h
      cases h <;> exact ⟨rfl, _, rfl⟩
    | _ => cases h
  refresh t h := by
    cases op with
    | exchange form =>
      obtain ⟨t', h⟩ := h
      cases h <;> exact ⟨rfl, relayOwner_ne, _, rfl⟩
    | _ => cases h
  pending k p h := by
    cases op with
    | beginAdmit tid => exact h.1.symm
    | completeDecide tid =>
      obtain ⟨req, rfl, h, -⟩ := h
      exact ht tid req p h
    | _ => cases h

/-- A service without a store has no state file. -/
theorem step_file {cfg : Config} {sys sys' : System} {a : Act} {r : Resp}
    (h : sys.step cfg a = some (sys', r)) (hs : cfg.store = none) : sys'.svc.file = sys.svc.file := by
  obtain ⟨svc, resp, heff, hcase⟩ := step_effect h
  have hfile : svc.file = sys.svc.file :=
    (effect_evolves heff).file.resolve_right fun hw => hw.1 hs
  rcases hcase with ⟨-, rfl, -⟩ | ⟨rfl, -⟩
  · exact hfile
  · exact hfile

/-- A thread that has taken an entry out knows under which identifier. -/
def Thread.Valid : Thread → Prop
  | .completePopped req (some p) => p.requestId = req.requestId
  | .completeDeciding req p => p.requestId = req.requestId
  | _ => True

structure System.Valid (sys : System) : Prop where
  svc : sys.svc.Valid
  threads : ∀ tid th, sys.threads.get? tid = some th → th.Valid

theorem Arises.valid {cfg : Config} {env : Env} {sys : System} {tid : ℕ} {op : Op} {th : Thread}
    (h : Arises cfg env sys tid op th) (hv : sys.Valid) : th.Valid := by
  cases h with
  | popped req =>
    cases hp : sys.svc.pending.get? req.requestId with
    | none => trivial
    | some p => exact hv.svc.pending _ p hp
  | deciding ht =>
    have h := hv.threads _ _ ht
    exact h
  | _ => trivial

theorem step_valid {cfg : Config} {sys sys' : System} {a : Act} {r : Resp}
    (h : sys.step cfg a = some (sys', r)) (hv : sys.Valid) : sys'.Valid := by
  obtain ⟨svc, resp, heff, hcase⟩ := step_effect h
  have hsvc : svc.Valid := (effect_evolves heff).valid
    (newOf_valid fun tid req p ht => hv.threads tid _ ht) hv.svc
  refine ⟨?_, fun tid th ht => ?_⟩
  · rcases hcase with ⟨-, rfl, -⟩ | ⟨rfl, -⟩
    · exact hsvc
    · exact hsvc.empty
  · rcases (step_threads h ht).2 with ⟨-, ht⟩ | ⟨-, ha⟩
    · exact hv.threads tid th ht
    · exact ha.valid hv

theorem init_valid : System.initial.Valid where
  svc := by
    refine ⟨fun k c h => ?_, fun k t h => ?_, fun _ _ h => (nomatch h), fun _ _ h => (nomatch h),
      fun _ _ h => (nomatch h)⟩
    · rcases h with h | ⟨read, hread, h⟩
      · cases h
      · cases hread; cases h
    · rcases h with h | ⟨read, hread, h⟩
      · cases h
      · cases hread; cases h
  threads _ _ h := nomatch h

/-- Every state that a run reaches is valid. -/
theorem run_valid {cfg : Config} {tr : Trace} {sys : System}
    (h : (machine cfg).Run tr sys) : sys.Valid :=
  h.invariant (A := fun _ => True) (I := fun _ s => s.Valid) (fun _ _ _ => trivial)
    (fun _ hs => hs ▸ init_valid) (fun _ _ _ _ _ _ _ hv hstep => step_valid hstep hv) trivial

theorem run_file {cfg : Config} {tr : Trace} {sys : System} (h : (machine cfg).Run tr sys)
    (hs : cfg.store = none) : sys.svc.file = none :=
  h.invariant (A := fun _ => True) (I := fun _ s => s.svc.file = none) (fun _ _ _ => trivial)
    (by rintro _ rfl; rfl) (fun _ _ _ _ _ _ _ hf hstep => (step_file hstep hs).trans hf) trivial

/-! ### Where a record that is held after a step comes from -/

section NewOf
variable {cfg : Config} {env : Env} {sys : System} {op : Op}

theorem newOf_client {c : RegisteredClient} (h : (newOf cfg env sys op).client c) :
    ∃ body source, op = .register body source ∧ NewClient env body c := by
  cases op with
  | register body source => exact ⟨body, source, rfl, h⟩
  | _ => exact h.elim

theorem newOf_code {c : AuthCode} (h : (newOf cfg env sys op).code c) :
    ∃ tid req p, op = .completeStore tid ∧
      sys.threads.get? tid = some (.completeReady req p c) := by
  cases op with
  | completeStore tid =>
    obtain ⟨req, p, h⟩ := h
    exact ⟨tid, req, p, rfl, h⟩
  | _ => exact h.elim

theorem newOf_access {t : AccessToken} (h : (newOf cfg env sys op).access t) :
    ∃ form t', op = .exchange form ∧ Issues cfg env sys.svc form t t' := by
  cases op with
  | exchange form =>
    obtain ⟨t', h⟩ := h
    exact ⟨form, t', rfl, h⟩
  | _ => exact h.elim

theorem newOf_refresh {t' : RefreshToken} (h : (newOf cfg env sys op).refresh t') :
    ∃ form t, op = .exchange form ∧ Issues cfg env sys.svc form t t' := by
  cases op with
  | exchange form =>
    obtain ⟨t, h⟩ := h
    exact ⟨form, t, rfl, h⟩
  | _ => exact h.elim

theorem newOf_pending {k : String} {p : PendingAuthorization}
    (h : (newOf cfg env sys op).pending k p) :
    (∃ tid source, op = .beginAdmit tid ∧ k = p.requestId ∧
        sys.threads.get? tid = some (.beginReady source p)) ∨
      ∃ tid req, op = .completeDecide tid ∧ k = req.requestId ∧
        sys.threads.get? tid = some (.completeDeciding req p) ∧
        (sys.svc.completeDecide cfg env req p).2 ≠ .ok () := by
  cases op with
  | beginAdmit tid =>
    obtain ⟨hk, source, h⟩ := h
    exact Or.inl ⟨tid, source, rfl, hk, h⟩
  | completeDecide tid =>
    obtain ⟨req, hk, h⟩ := h
    exact Or.inr ⟨tid, req, rfl, hk, h⟩
  | _ => exact h.elim

end NewOf

section Steps
variable {cfg : Config} {sys sys' : System} {a : Act} {r : Resp}
  (h : sys.step cfg a = some (sys', r))
include h

theorem step_evolves : ∃ svc, Evolves cfg (newOf cfg a.env sys a.op) sys.svc svc ∧
    (sys'.svc = svc ∨ sys'.svc = .empty svc.file) := by
  obtain ⟨svc, resp, heff, hcase⟩ := step_effect h
  refine ⟨svc, effect_evolves heff, ?_⟩
  rcases hcase with ⟨-, h, -⟩ | ⟨rfl, -⟩
  · exact Or.inl h
  · exact Or.inr rfl

theorem step_codes {k : String} {c : AuthCode} (hk : sys'.svc.codes.get? k = some c) :
    sys.svc.codes.get? k = some c ∨ (k = c.code ∧
      ∃ tid req p, a.op = .completeStore tid ∧
        sys.threads.get? tid = some (.completeReady req p c)) := by
  obtain ⟨svc, hev, hcase | hcase⟩ := step_evolves h
  · rw [hcase] at hk
    exact (hev.codes k c hk).imp_right fun hn => ⟨hn.1, newOf_code hn.2⟩
  · rw [hcase] at hk; cases hk

theorem step_access {k : String} {t' : AccessToken} (hk : sys'.svc.accessTokens.get? k = some t') :
    (∃ t, sys.svc.accessTokens.get? k = some t ∧ t.Ages t') ∨ (k = t'.token ∧
      ∃ form rt, a.op = .exchange form ∧ Issues cfg a.env sys.svc form t' rt) := by
  obtain ⟨svc, hev, hcase | hcase⟩ := step_evolves h
  · rw [hcase] at hk
    exact (hev.access k t' hk).imp_right fun hn => ⟨hn.1, newOf_access hn.2⟩
  · rw [hcase] at hk; cases hk

theorem step_pending {k : String} {p : PendingAuthorization}
    (hk : sys'.svc.pending.get? k = some p) : sys.svc.pending.get? k = some p ∨
      (∃ tid source, a.op = .beginAdmit tid ∧ k = p.requestId ∧
        sys.threads.get? tid = some (.beginReady source p)) ∨
      ∃ tid req, a.op = .completeDecide tid ∧ k = req.requestId ∧
        sys.threads.get? tid = some (.completeDeciding req p) ∧
        (sys.svc.completeDecide cfg a.env req p).2 ≠ .ok () := by
  obtain ⟨svc, hev, hcase | hcase⟩ := step_evolves h
  · rw [hcase] at hk
    exact (hev.pending k p hk).imp_right newOf_pending
  · rw [hcase] at hk; cases hk

variable (hv : sys.Valid)
include hv

theorem step_holdsRefresh {k : String} {t' : RefreshToken} (hk : sys'.svc.HoldsRefresh k t') :
    (∃ t, sys.svc.HoldsRefresh k t ∧ t.Ages t') ∨ (k = t'.token ∧
      ∃ form at', a.op = .exchange form ∧ Issues cfg a.env sys.svc form at' t') := by
  obtain ⟨svc, hev, hcase⟩ := step_evolves h
  have hvalid := hev.valid (newOf_valid fun tid req p ht => hv.threads tid _ ht) hv.svc
  have hk' : svc.HoldsRefresh k t' := by
    rcases hcase with hcase | hcase <;> rw [hcase] at hk
    · exact hk
    · exact OAuthService.HoldsRefresh.of_empty hk
  refine (hev.holdsRefresh ?_ ?_ hk').imp_right fun hn => ⟨hn.1, newOf_refresh hn.2⟩
  · exact fun k c hc => hvalid.clients k c (Or.inl hc)
  · exact fun k t ht => hvalid.refresh k t (Or.inl ht)

theorem step_holdsClient {k : String} {c' : RegisteredClient} (hk : sys'.svc.HoldsClient k c') :
    (∃ c, sys.svc.HoldsClient k c ∧ c.Ages c') ∨ ∃ c, k = c.clientId ∧ c.Ages c' ∧
      ∃ body source, a.op = .register body source ∧ NewClient a.env body c := by
  obtain ⟨svc, hev, hcase⟩ := step_evolves h
  have hvalid := hev.valid (newOf_valid fun tid req p ht => hv.threads tid _ ht) hv.svc
  have hk' : svc.HoldsClient k c' := by
    rcases hcase with hcase | hcase <;> rw [hcase] at hk
    · exact hk
    · exact OAuthService.HoldsClient.of_empty hk
  refine (hev.holdsClient ?_ ?_ hk').imp_right fun ⟨c, hc, hn, ha⟩ => ⟨c, hc, ha, newOf_client hn⟩
  · exact fun k c hc => hvalid.clients k c (Or.inl hc)
  · exact fun k t ht => hvalid.refresh k t (Or.inl ht)

end Steps

end DataRelay.OAuth
