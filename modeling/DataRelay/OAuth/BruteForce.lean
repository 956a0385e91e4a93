import DataRelay.OAuth.Approval
import DataRelay.OAuth.Cleanup

/-! The owner's secret cannot be guessed by one source faster than the limiter allows.

    The limiter remembers every counted failure of a source that is still in the window, as long as
    the bucket of the source is not evicted: `Remembers` says so of a stretch of a run, and is kept
    by every step. The map of buckets is capped, so a failure of a new source that finds it full
    evicts the bucket with the earliest failure; `lockout_evicted` is a run in which that frees a
    source that was locked out. -/

namespace DataRelay.OAuth
open Lib

/-! ### Attempts and failures -/

/-- The request whose second lock the stretch takes. -/
def decidingOf (e : Event) : Option CompleteRequest :=
  match e.act.op with
  | .completeDecide tid =>
    match e.pre.threads.get? tid with
    | some (.completeDeciding req _) => some req
    | _ => none
  | _ => none

/-- The source is not locked out, and the secret is found wrong: a failure that is counted. -/
def OAuthService.Counts (cfg : Config) (env : Env) (s : OAuthService) (req : CompleteRequest) :
    Prop :=
  (s.ownerFailLimiter.allow req.source env.t0).2 = true ∧
    (cfg.expected = "" ∨ compareDigest req.ownerSecret cfg.expected = .ok false)

instance (cfg : Config) (env : Env) (s : OAuthService) (req : CompleteRequest) :
    Decidable (s.Counts cfg env req) :=
  inferInstanceAs (Decidable (_ ∧ (_ ∨ _)))

/-- An approve attempt of the source. -/
def Attempts (source : String) (e : Event) : Prop := ∃ req ∈ decidingOf e, req.source = source

instance (source : String) : DecidablePred (Attempts source) := fun e =>
  inferInstanceAs (Decidable (∃ req ∈ decidingOf e, _))

/-- An approve attempt of the source that fails at the comparison. -/
def Fails (cfg : Config) (source : String) (e : Event) : Prop :=
  ∃ req ∈ decidingOf e, req.source = source ∧ e.pre.svc.Counts cfg e.act.env req

instance (cfg : Config) (source : String) : DecidablePred (Fails cfg source) := fun e =>
  inferInstanceAs (Decidable (∃ req ∈ decidingOf e, _))

/-- The source whose bucket a failure evicts. -/
def evictedSource (cfg : Config) (e : Event) : Option String :=
  (decidingOf e).bind fun req =>
    if e.pre.svc.Counts cfg e.act.env req then
      (e.pre.svc.ownerFailLimiter.allow req.source e.act.env.t0).1.victim req.source e.act.env.t1
    else none

def Op.isRestart : Op → Bool
  | .restart _ => true
  | _ => false

/-- The process lives on. -/
def Lives (e : Event) : Prop := e.act.crash = false ∧ e.act.op.isRestart = false

theorem Lives.not_restart {e : Event} (h : Lives e) (calls : OAuthService.StartCalls) :
    e.act.op ≠ .restart calls := by
  intro hop
  have h := h.2
  rw [hop] at h
  cases h

/-- The process lives on, and the bucket of the source is not evicted. -/
def Undisturbed (cfg : Config) (source : String) (e : Event) : Prop :=
  Lives e ∧ evictedSource cfg e ≠ some source

instance : DecidablePred Lives := fun _ => inferInstanceAs (Decidable (_ ∧ _))

instance (cfg : Config) (source : String) : DecidablePred (Undisturbed cfg source) := fun _ =>
  inferInstanceAs (Decidable (_ ∧ _))

/-- The readings of one stretch, and of one stretch after another, do not decrease. -/
def Steady (tr : Trace) : Prop :=
  (∀ e ∈ tr, e.act.env.t0 ≤ e.act.env.t1 ∧ e.act.env.t1 ≤ e.act.env.t2 ∧
    e.act.env.t2 ≤ e.act.env.t3) ∧
  tr.Pairwise fun e e' => e'.act.env.t3 ≤ e.act.env.t0

instance (tr : Trace) : Decidable (Steady tr) := inferInstanceAs (Decidable (_ ∧ _))

theorem Steady.tail {e : Event} {tr : Trace} (h : Steady (e :: tr)) : Steady tr :=
  ⟨fun e' he' => h.1 e' (List.mem_cons_of_mem e he'), (List.pairwise_cons.mp h.2).2⟩

/-! ### What a step does to the limiter -/

section Limiter
variable {cfg : Config} {env : Env} {s : OAuthService} {sys : System} {op : Op}
  {svc : OAuthService} {r : Resp}

theorem decide_limiter (req : CompleteRequest) (p : PendingAuthorization) :
    (s.completeDecide cfg env req p).1.ownerFailLimiter =
      if s.Counts cfg env req then
        (s.ownerFailLimiter.allow req.source env.t0).1.record req.source env.t1
      else (s.ownerFailLimiter.allow req.source env.t0).1 := by
  by_cases hc : s.Counts cfg env req
  · rw [if_pos hc, decide_wrong hc.1 hc.2]
    rfl
  rw [if_neg hc]
  cases ha : (s.ownerFailLimiter.allow req.source env.t0).2 with
  | false =>
    rw [decide_lockedOut ha]
    rfl
  | true =>
    simp only [OAuthService.Counts, ha, true_and, not_or, Config.expected] at hc
    simp only [OAuthService.completeDecide, ha, Bool.true_eq_false, if_false, hc.1]
    split
    · rfl
    · rename_i hwrong
      exact absurd hwrong hc.2
    · rfl

theorem persist_limiter (now : Time) :
    (s.persist cfg env now).1.ownerFailLimiter = s.ownerFailLimiter := by
  obtain ⟨_, _, h⟩ := s.persist_rest cfg env now
  rw [h]

theorem issue_limiter (clientId resource : String) (scopes : Finset String) :
    (s.issueTokens cfg env clientId resource scopes).1.ownerFailLimiter = s.ownerFailLimiter := by
  unfold OAuthService.issueTokens
  dsimp only
  split <;> rename_i hp <;> rw [← congrArg Prod.fst hp] <;> exact persist_limiter _

theorem exchange_limiter (form : Dict String String) :
    (s.exchangeToken cfg env form).1.ownerFailLimiter = s.ownerFailLimiter := by
  unfold OAuthService.exchangeToken
  split
  · unfold OAuthService.exchangeAuthorizationCode
    split
    · rfl
    dsimp only
    split
    · rfl
    · exact issue_limiter _ _ _
  split
  · unfold OAuthService.exchangeRefreshToken
    split
    · rfl
    split
    · rfl
    dsimp only
    split
    · rfl
    · exact issue_limiter _ _ _
  · rfl

theorem register_limiter (body : Json) (source : String) :
    (s.registerClient cfg env body source).1.ownerFailLimiter = s.ownerFailLimiter := by
  obtain ⟨_, _, hrest⟩ := OAuthService.cleanup_rest
    { s with dcrLimiter := (s.dcrLimiter.allow source env.t0).1 } env.t1 1
  have hclean := congrArg OAuthService.ownerFailLimiter hrest
  unfold OAuthService.registerClient
  dsimp only
  split
  · rfl
  split
  · exact hclean
  split
  · exact hclean
  split
  · exact hclean
  · split <;> rename_i hp <;> rw [← congrArg Prod.fst hp] <;>
      exact (persist_limiter _).trans hclean

theorem revoke_limiter (form : Dict String String) :
    (s.revoke cfg env form).1.ownerFailLimiter = s.ownerFailLimiter := by
  refine (persist_limiter _).trans ?_
  unfold OAuthService.markRevoked
  split
  · rfl
  split <;> rfl

theorem admit_limiter (p : PendingAuthorization) (source : String) :
    (s.beginAdmit env p source).1.ownerFailLimiter = s.ownerFailLimiter := by
  unfold OAuthService.beginAdmit
  dsimp only
  split
  · rfl
  split
  · rfl
  split <;> rfl

theorem store_limiter (p : PendingAuthorization) (c : AuthCode) :
    (s.completeStore cfg env p c).1.ownerFailLimiter = s.ownerFailLimiter := by
  unfold OAuthService.completeStore
  dsimp only
  split <;> rename_i hp <;> rw [← congrArg Prod.fst hp] <;> exact persist_limiter _

/-- A step that the process lives through leaves the limiter alone, or asks it once, and counts a
    failure. -/
theorem step_limiter {e : Event} (h : e.pre.step cfg e.act = some (e.post, e.resp))
    (hl : Lives e) :
    (decidingOf e = none ∧ e.post.svc.ownerFailLimiter = e.pre.svc.ownerFailLimiter) ∨
      ∃ req, decidingOf e = some req ∧ e.post.svc.ownerFailLimiter =
        if e.pre.svc.Counts cfg e.act.env req then
          (e.pre.svc.ownerFailLimiter.allow req.source e.act.env.t0).1.record req.source
            e.act.env.t1
        else (e.pre.svc.ownerFailLimiter.allow req.source e.act.env.t0).1 := by
  have hr := hl.not_restart
  have hc := hl.1
  obtain ⟨sys, ⟨op, env, crash⟩, sys', r⟩ := e
  obtain ⟨svc, resp, heff, ⟨-, hsvc, -⟩ | ⟨-, hlost⟩⟩ := step_effect h
  · dsimp only at hsvc hr ⊢
    rw [hsvc]
    cases heff with
    | idle hop =>
      refine Or.inl ⟨?_, rfl⟩
      cases op <;> first | rfl | cases hop
    | validate => exact Or.inl ⟨rfl, rfl⟩
    | register body source => exact Or.inl ⟨rfl, register_limiter body source⟩
    | admission => exact Or.inl ⟨rfl, admit_limiter _ _⟩
    | pop => exact Or.inl ⟨rfl, rfl⟩
    | decide ht => exact Or.inr ⟨_, by simp only [decidingOf, ht], decide_limiter _ _⟩
    | store => exact Or.inl ⟨rfl, store_limiter _ _⟩
    | exchange form => exact Or.inl ⟨rfl, exchange_limiter form⟩
    | revoke form => exact Or.inl ⟨rfl, revoke_limiter form⟩
    | start calls => exact absurd rfl (hr calls)
  · rcases hlost with ⟨hcrash, -⟩ | ⟨calls, -, hop, -⟩
    · rw [hc] at hcrash; cases hcrash
    · exact absurd hop (hr calls)

end Limiter

/-! ### The limiter remembers -/

namespace SlidingWindow

/-- Pruning takes nothing that is still in the window. -/
theorem countP_live {cutoff from' : Time} (h : cutoff ≤ from') : ∀ bucket : List Time,
    (live cutoff bucket).countP (from' ≤ ·) = bucket.countP (from' ≤ ·)
  | [] => rfl
  | t :: bucket => by
    unfold live
    by_cases ht : t < cutoff
    · rw [List.dropWhile_cons_of_pos (by simpa using ht),
        List.countP_cons_of_neg (by simpa using ht.trans_le h)]
      exact countP_live h bucket
    · rw [List.dropWhile_cons_of_neg (by simpa using ht)]

theorem countP_le_live (cutoff : Time) (bucket : List Time) :
    bucket.countP (cutoff ≤ ·) ≤ (live cutoff bucket).length := by
  rw [← countP_live le_rfl]
  exact List.countP_le_length

end SlidingWindow

/-- The limiter of owner failures has its own bounds. -/
def OwnerLimited (w : SlidingWindow) : Prop :=
  w.maxEvents = ownerFailLimit ∧ w.window = ownerFailWindowS ∧ w.maxSources = maxRateLimitSources

/-- The bucket of the source has a time for every failure of the stretch that is still in the
    window. -/
def Remembers (cfg : Config) (source : String) (tr : Trace) (w : SlidingWindow) : Prop :=
  ∀ from', (∀ e ∈ tr, e.act.env.t3 - ownerFailWindowS ≤ from') →
    (tr.countP fun e => Fails cfg source e ∧ from' ≤ e.act.env.t1) ≤
      (w.bucket source).countP (from' ≤ ·)

section Runs
variable {cfg : Config} {source : String} {e : Event} {tr newer older : Trace} {sys : System}

theorem run_ownerLimited (h : (machine cfg).Run tr sys) : OwnerLimited sys.svc.ownerFailLimiter := by
  refine h.invariant (A := fun _ => True) (I := fun _ s => OwnerLimited s.svc.ownerFailLimiter)
    (fun _ _ _ => trivial) ?_ ?_ trivial
  · rintro _ rfl
    exact ⟨rfl, rfl, rfl⟩
  intro tr s a s' r hrun _ hw hstep
  obtain ⟨svc, resp, heff, hcase⟩ := step_effect hstep
  rcases hcase with ⟨hcrash, hsvc, -⟩ | ⟨rfl, -⟩
  · by_cases hr : ∃ calls, a.op = .restart calls
    · obtain ⟨calls, hop⟩ := hr
      obtain ⟨_, _, _, hrest⟩ := @start_rest cfg a.env calls s.svc.file
      rw [hop] at heff
      cases heff with
      | idle hop => cases hop
      | start =>
        rw [hsvc, hrest]
        exact ⟨rfl, rfl, rfl⟩
    · have hl : Lives ⟨s, a, s', r⟩ := by
        refine ⟨hcrash, ?_⟩
        cases hop : a.op with
        | restart calls => exact absurd ⟨calls, hop⟩ hr
        | _ => rfl
      rcases step_limiter (e := ⟨s, a, s', r⟩) hstep hl with ⟨-, hsame⟩ | ⟨req, -, hpost⟩
      · exact hsame ▸ hw
      · have hallow := SlidingWindow.bounds_allow s.svc.ownerFailLimiter req.source a.env.t0
        have hnext : OwnerLimited (s.svc.ownerFailLimiter.allow req.source a.env.t0).1 :=
          ⟨hallow.1.trans hw.1, hallow.2.1.trans hw.2.1, hallow.2.2.trans hw.2.2⟩
        dsimp only at hpost
        rw [hpost]
        split
        · exact hnext
        · exact hnext
  · exact ⟨rfl, rfl, rfl⟩

theorem not_fails_of_none (h : decidingOf e = none) : ¬ Fails cfg source e := by
  rintro ⟨req, hreq, -⟩
  rw [h] at hreq
  cases hreq

/-- One step that does not evict the bucket of the source. -/
theorem step_remembers (h : e.pre.step cfg e.act = some (e.post, e.resp))
    (hlim : OwnerLimited e.pre.svc.ownerFailLimiter) (hclock : Steady (e :: tr))
    (hu : Undisturbed cfg source e) (hm : Remembers cfg source tr e.pre.svc.ownerFailLimiter) :
    Remembers cfg source (e :: tr) e.post.svc.ownerFailLimiter := by
  intro from' hfrom
  have hold := hm from' fun e' he' => hfrom e' (List.mem_cons_of_mem e he')
  obtain ⟨h01, h12, h23⟩ := hclock.1 e List.mem_cons_self
  have hcut1 : e.act.env.t1 - ownerFailWindowS ≤ from' :=
    (sub_le_sub_right (h12.trans h23) _).trans (hfrom e List.mem_cons_self)
  have hcut0 : e.act.env.t0 - ownerFailWindowS ≤ from' :=
    (sub_le_sub_right h01 _).trans hcut1
  rcases step_limiter h hu.1 with ⟨hnone, hsame⟩ | ⟨req, hreq, hpost⟩
  · rw [hsame, List.countP_cons_of_neg (by simp [not_fails_of_none hnone])]
    exact hold
  -- the sweep before the decision drops nothing that the window still counts
  have hallow : ((e.pre.svc.ownerFailLimiter.allow req.source e.act.env.t0).1.bucket source).countP
      (from' ≤ ·) = (e.pre.svc.ownerFailLimiter.bucket source).countP (from' ≤ ·) := by
    rw [SlidingWindow.bucket_allow, hlim.2.1]
    split
    · rename_i hs
      rw [hs]
      exact SlidingWindow.countP_live hcut0 _
    · rfl
  have hbounds := SlidingWindow.bounds_allow e.pre.svc.ownerFailLimiter req.source e.act.env.t0
  have hsource : Fails cfg source e ↔
      req.source = source ∧ e.pre.svc.Counts cfg e.act.env req := by
    simp [Fails, hreq]
  -- a failure appends its own event, and the bucket it evicts is not this one
  by_cases hcount : e.pre.svc.Counts cfg e.act.env req
  · have hvictim : (e.pre.svc.ownerFailLimiter.allow req.source e.act.env.t0).1.victim req.source
        e.act.env.t1 ≠ some source := by
      have := hu.2
      simpa [evictedSource, hreq, hcount] using this
    rw [hpost, if_pos hcount, SlidingWindow.bucket_record, hbounds.2.1, hlim.2.1]
    by_cases hs : source = req.source
    · subst hs
      have hfails : Fails cfg req.source e := hsource.mpr ⟨rfl, hcount⟩
      rw [if_pos rfl, List.countP_append, SlidingWindow.countP_live hcut1, hallow,
        List.countP_cons, List.countP_singleton]
      simpa [hfails] using hold
    · rw [if_neg hs, if_neg hvictim, SlidingWindow.countP_live hcut1, hallow,
        List.countP_cons_of_neg (by simp [hsource, Ne.symm hs])]
      exact hold
  · rw [hpost, if_neg hcount, hallow, List.countP_cons_of_neg (by simp [hsource, hcount])]
    exact hold

/-- A stretch of a run that evicts no bucket of the source. -/
theorem run_remembers (h : (machine cfg).Run (newer ++ older) sys) (hclock : Steady newer)
    (hu : ∀ e ∈ newer, Undisturbed cfg source e) :
    Remembers cfg source newer sys.svc.ownerFailLimiter := by
  induction newer generalizing sys with
  | nil => exact fun _ _ => Nat.zero_le _
  | cons e newer ih =>
    obtain ⟨hrun, hstep, rfl⟩ := h.cons
    exact step_remembers hstep (run_ownerLimited hrun) hclock (hu e List.mem_cons_self)
      (ih hrun hclock.tail fun e' he' => hu e' (List.mem_cons_of_mem e he'))

/-- As long as enough failures of the source are in the window, it is locked out. -/
theorem run_lockedOut (h : (machine cfg).Run (e :: newer ++ older) sys)
    (hclock : Steady (e :: newer)) (hu : ∀ e' ∈ newer, Undisturbed cfg source e')
    (hfull : ownerFailLimit ≤ newer.countP fun e' =>
      Fails cfg source e' ∧ e.act.env.t0 - ownerFailWindowS ≤ e'.act.env.t1) :
    (e.pre.svc.ownerFailLimiter.allow source e.act.env.t0).2 = false := by
  obtain ⟨hrun, -, -⟩ := h.cons
  have hlim := run_ownerLimited hrun
  have hm := run_remembers hrun hclock.tail hu (e.act.env.t0 - ownerFailWindowS) fun e' he' =>
    sub_le_sub_right (List.rel_of_pairwise_cons hclock.2 he') _
  rw [SlidingWindow.allow_eq _ _ _ (by rw [hlim.1]; decide), hlim.1, hlim.2.1]
  have hle := (hfull.trans hm).trans (SlidingWindow.countP_le_live _ _)
  simpa using hle

theorem decidingOf_iff {req : CompleteRequest} : decidingOf e = some req ↔
    ∃ tid p, e.act.op = .completeDecide tid ∧
      e.pre.threads.get? tid = some (.completeDeciding req p) := by
  constructor
  · intro h
    unfold decidingOf at h
    split at h
    · rename_i tid hop
      split at h
      · rename_i req' p ht
        cases h
        exact ⟨tid, p, hop, ht⟩
      · cases h
    · cases h
  · rintro ⟨tid, p, hop, ht⟩
    simp only [decidingOf, hop, ht]

/-- A source that is locked out is denied. -/
theorem step_denied (h : e.pre.step cfg e.act = some (e.post, e.resp))
    (hcrash : e.act.crash = false) (ha : Attempts source e)
    (hout : (e.pre.svc.ownerFailLimiter.allow source e.act.env.t0).2 = false) :
    e.resp = .raised denied := by
  obtain ⟨req, hreq, rfl⟩ := ha
  obtain ⟨tid, p, hop, ht⟩ := decidingOf_iff.mp hreq
  obtain ⟨svc, resp, heff, ⟨-, -, hresp⟩ | ⟨-, hlost⟩⟩ := step_effect h
  · rw [hop] at heff
    rw [hresp]
    cases heff with
    | idle hop' => cases hop'
    | decide ht' =>
      obtain ⟨rfl, rfl⟩ := Thread.completeDeciding.inj (Option.some.inj (ht.symm.trans ht'))
      rw [decide_lockedOut hout]
      rfl
  · rcases hlost with ⟨hc, -⟩ | ⟨calls, -, hop', -⟩
    · rw [hcrash] at hc; cases hc
    · cases hop.symm.trans hop'

theorem run_failures (h : (machine cfg).Run (newer ++ older) sys) (hclock : Steady newer)
    (hu : ∀ e ∈ newer, Undisturbed cfg source e) (from' : Time) :
    (newer.countP fun e => Fails cfg source e ∧ from' ≤ e.act.env.t1 ∧
      e.act.env.t0 ≤ from' + ownerFailWindowS) ≤ ownerFailLimit := by
  induction newer generalizing sys with
  | nil => exact Nat.zero_le _
  | cons e newer ih =>
    have hold := fun e' he' => hu e' (List.mem_cons_of_mem e he')
    have hle := ih h.cons.1 hclock.tail hold
    rw [List.countP_cons]
    split
    · rename_i hp
      simp only [decide_eq_true_eq] at hp
      obtain ⟨⟨req, -, rfl, hallow, -⟩, -, hto⟩ := hp
      by_contra hgt
      have hmono : (newer.countP fun e' => Fails cfg req.source e' ∧ from' ≤ e'.act.env.t1 ∧
          e'.act.env.t0 ≤ from' + ownerFailWindowS) ≤ newer.countP fun e' =>
            Fails cfg req.source e' ∧ e.act.env.t0 - ownerFailWindowS ≤ e'.act.env.t1 := by
        refine List.countP_mono_left fun e' _ hp => ?_
        simp only [decide_eq_true_eq] at hp ⊢
        exact ⟨hp.1, (sub_le_iff_le_add.mpr hto).trans hp.2.1⟩
      have hout := run_lockedOut h hclock hold (le_trans (by omega) hmono)
      rw [hallow] at hout
      cases hout
    · exact hle

/-- The bound on guesses, for a source whose bucket is not evicted: in any window so many failures
    at most, and while so many are in the window every attempt is denied, with any secret. -/
theorem guesses_bounded (h : (machine cfg).Run (newer ++ older) sys) (hclock : Steady newer)
    (hu : ∀ e ∈ newer, Undisturbed cfg source e) :
    (∀ from', (newer.countP fun e => Fails cfg source e ∧ from' ≤ e.act.env.t1 ∧
      e.act.env.t0 ≤ from' + ownerFailWindowS) ≤ ownerFailLimit) ∧
    ∀ later e earlier, newer = later ++ e :: earlier → Attempts source e →
      (ownerFailLimit ≤ earlier.countP fun e' =>
        Fails cfg source e' ∧ e.act.env.t0 - ownerFailWindowS ≤ e'.act.env.t1) →
      e.resp = .raised denied := by
  refine ⟨run_failures h hclock hu, ?_⟩
  rintro later e earlier rfl ha hfull
  rw [List.append_assoc, List.cons_append] at h
  -- the attempt meets the bucket that the failures behind it have filled
  obtain ⟨hrun, hpre, hstep⟩ := h.split
  have hclock' : Steady (e :: earlier) := of_append (fun _ _ => Steady.tail) hclock
  refine step_denied hstep (hu e (by simp)).1.1 ha ?_
  exact run_lockedOut hrun hclock' (fun e' he' => hu e' (by simp [he'])) hfull

end Runs

/-! ### A source that is locked out -/

/-- A `complete_authorization` for `authreq_p`, up to its second lock, with every reading at 3. -/
def attemptOps (source ownerSecret : String) : List Act :=
  [(Op.completeCall 0 ⟨"authreq_p", ownerSecret, "approve", source⟩).run 3 "" "",
    (Op.completeCheck 0).run 3 "" "", (Op.completeDecide 0).run 3 "" ""]

/-- Five wrong secrets of the source `s`. -/
def lockoutRun : List Act :=
  (Op.register sampleBody "a").run 3 "c" "" :: beginOps 0 "client_c" "p" 3 ++
    (List.replicate 5 (attemptOps "s" "wrong")).flatten

theorem guesses_bounded_right : ∃ e earlier,
    (after sampleConfig (lockoutRun ++ attemptOps "s" ownerSecret)).1 = e :: earlier ∧
      e.resp = .raised denied := by
  have hrun := after_run sampleConfig (lockoutRun ++ attemptOps "s" ownerSecret)
  generalize htr : (after sampleConfig (lockoutRun ++ attemptOps "s" ownerSecret)).1 = tr at hrun
  have hclock : Steady tr := by
    rw [← htr]
    decide +kernel
  have hu : ∀ e ∈ tr, Undisturbed sampleConfig "s" e := by
    rw [← htr]
    decide +kernel
  have hlast : tr.head?.any (fun e => decide (Attempts "s" e) && e.act.env.t0 = 3) = true := by
    rw [← htr]
    decide +kernel
  have hfull : ownerFailLimit ≤ tr.tail.countP fun e =>
      Fails sampleConfig "s" e ∧ 3 - ownerFailWindowS ≤ e.act.env.t1 := by
    rw [← htr]
    decide +kernel
  cases tr with
  | nil => cases hlast
  | cons e earlier =>
    simp only [List.head?_cons, Option.any_some, Bool.and_eq_true, decide_eq_true_eq] at hlast
    refine ⟨e, earlier, rfl, ?_⟩
    rw [← List.append_nil (e :: earlier)] at hrun
    have hbound := guesses_bounded hrun hclock hu
    exact hbound.2 [] e earlier rfl hlast.1 (by rw [hlast.2]; exact hfull)

/-! ### A lockout that other sources end -/

namespace SlidingWindow
variable {w : SlidingWindow} {key : String} {ts : Time}

/-- A map of which nothing has left the window is found as it is by a new source. -/
theorem swept_eq (hb : ∀ e ∈ w.events.items, e.2 ≠ [] ∧ live (ts - w.window) e.2 = e.2)
    (hk : w.events.get? key = none) : w.swept key ts = w := by
  have hsweep : w.sweepExpired (ts - w.window) = w := by
    have hitems : (w.events.filterMap fun bucket =>
        if live (ts - w.window) bucket = [] then none
        else some (live (ts - w.window) bucket)) = w.events := by
      refine Dict.ext_items (Eq.trans (List.filterMap_congr fun e he => ?_) List.filterMap_some)
      obtain ⟨hne, hlive⟩ := hb e he
      dsimp only
      rw [hlive, if_neg hne]
      rfl
    unfold sweepExpired
    rw [hitems]
  unfold swept
  rw [hsweep]
  dsimp only
  rw [hk]

theorem allow_new (ts : Time) (hk : w.events.get? key = none) :
    w.allow key ts = (w, true) := by
  unfold allow
  rw [hk]

theorem record_new (hb : ∀ e ∈ w.events.items, e.2 ≠ [] ∧ live (ts - w.window) e.2 = e.2)
    (hk : w.events.get? key = none) (hsize : w.events.size < w.maxSources) :
    (w.record key ts).events.items = w.events.items ++ [(key, [ts])] := by
  have hvictim : w.victim key ts = none := by
    unfold victim
    dsimp only
    rw [swept_eq hb hk, if_neg fun h => absurd h.2 hsize.not_ge]
  unfold record
  rw [hvictim, swept_eq hb hk]
  dsimp only
  rw [hk, Dict.items_set_of_none hk]
  rfl

/-- A new source that finds the map full evicts the first source, if none is older. -/
theorem victim_full (hb : ∀ e ∈ w.events.items, e.2 ≠ [] ∧ live (ts - w.window) e.2 = e.2)
    (hk : w.events.get? key = none) (hsize : w.maxSources ≤ w.events.size)
    {first : String × List Time} {rest : List (String × List Time)}
    (hitems : w.events.items = first :: rest)
    (hold : ∀ e ∈ rest, first.2.headD ts ≤ e.2.headD ts) : w.victim key ts = some first.1 := by
  have hcond : w.events.contains key = false ∧ w.maxSources ≤ w.events.size :=
    ⟨by simp [Dict.contains, hk], hsize⟩
  unfold victim
  dsimp only
  rw [swept_eq hb hk, if_pos hcond, oldest, hitems, List.argmin_cons]
  cases hmin : rest.argmin fun e => e.2.headD ts with
  | none => rfl
  | some e =>
    dsimp only
    rw [if_neg (hold e (List.argmin_mem hmin)).not_gt]
    rfl

end SlidingWindow

/-- The service runs, no call is on thread 0, and the request can still be approved. -/
structure Open (sys : System) : Prop where
  up : sys.up = true
  free : sys.threads.get? 0 = none
  pending : ∃ p, sys.svc.pending.get? "authreq_p" = some p ∧ 3 ≤ p.expiresAt

/-- A run goes on with a step whose result is not taken apart. -/
theorem run_next {cfg : Config} {tr : Trace} {sys : System} {a : Act} {x : System × Resp}
    (h : (machine cfg).Run tr sys) (hs : sys.step cfg a = some x) :
    (machine cfg).Run (⟨sys, a, x.1, x.2⟩ :: tr) x.1 := by
  obtain ⟨sys', r⟩ := x
  exact .step h hs

/-- An attempt with a wrong secret, of a source that is not locked out. -/
theorem attempt_run {tr : Trace} {sys : System} (h : (machine sampleConfig).Run tr sys)
    (ho : Open sys) (source : String)
    (hallow : (sys.svc.ownerFailLimiter.allow source 3).2 = true) : ∃ e1 e2 e3 sys',
      (machine sampleConfig).Run (e3 :: e2 :: e1 :: tr) sys' ∧
      [e1.act, e2.act, e3.act] = attemptOps source "wrong" ∧ Fails sampleConfig source e3 ∧
      Open sys' ∧ sys'.svc.ownerFailLimiter =
        (sys.svc.ownerFailLimiter.allow source 3).1.record source 3 := by
  obtain ⟨p, hp, hlive⟩ := ho.pending
  let env : Env := ⟨3, 3, 3, 3, "", "", callsOk 100000⟩
  let req : CompleteRequest := ⟨"authreq_p", "wrong", "approve", source⟩
  let popped := sys.svc.completePop req
  have hpop : popped.2 = some p := hp
  have hcall := step_call sampleConfig env req ho.up ho.free
  have hcheck := step_goOn sampleConfig env (.completeCheck 0) sys popped.1
    (.completePopped req popped.2) ho.up rfl
  have hok : OAuthService.completeCheck sampleConfig env req popped.2 = .ok (.inr p) := by
    rw [hpop]
    simp [OAuthService.completeCheck, req, env, hlive]
  have hdecide := step_goOn sampleConfig env (.completeDecide 0)
    (sys.goOn 0 popped.1 (.completePopped req popped.2)).1 popped.1
    (.completeDeciding req p) ho.up rfl
  have hcmp : compareDigest "wrong" sampleConfig.expected = .ok false := by decide +kernel
  have hwrong := @decide_wrong sampleConfig env popped.1 req p hallow (Or.inr hcmp)
  simp only [System.onThread, System.checked, hok] at hcheck
  simp only [System.onThread, System.decided] at hdecide
  rw [show (System.goOn (sys.goOn 0 popped.1 (.completePopped req popped.2)).1 0 popped.1
    (.completeDeciding req p)).1.svc = popped.1 from rfl, hwrong] at hdecide
  have hrun := run_next (run_next (run_next h hcall) hcheck) hdecide
  refine ⟨_, _, _, _, hrun, rfl, ?_, ?_, rfl⟩
  · refine ⟨req, decidingOf_iff.mpr ⟨0, p, rfl, ?_⟩, rfl, hallow, Or.inr hcmp⟩
    exact Dict.get?_set_self _ _ _
  · exact ⟨ho.up, Dict.get?_erase_self _ _, p, Dict.get?_set_self _ _ _, hlive⟩

/-- Every reading is at 3, and the process lives on. -/
def AtThree (e : Event) : Prop :=
  (e.act.env.t0 = 3 ∧ e.act.env.t1 = 3 ∧ e.act.env.t2 = 3 ∧ e.act.env.t3 = 3) ∧ Lives e

instance : DecidablePred AtThree := fun _ => inferInstanceAs (Decidable (_ ∧ _))

theorem steady_of_atThree {tr : Trace} (h : ∀ e ∈ tr, AtThree e) : Steady tr := by
  refine ⟨fun e he => ?_, ?_⟩
  · obtain ⟨⟨h0, h1, h2, h3⟩, -⟩ := h e he
    rw [h0, h1, h2, h3]
    exact ⟨le_rfl, le_rfl, le_rfl⟩
  · refine List.pairwise_iff_getElem.mpr fun i j hi hj _ => ?_
    rw [(h _ (List.getElem_mem hi)).1.1, (h _ (List.getElem_mem hj)).1.2.2.2]

/-- The name of the `n`-th other source. -/
def otherSource (n : ℕ) : String := String.ofList (List.replicate (n + 1) 'x')

theorem otherSource_inj {n m : ℕ} (h : otherSource n = otherSource m) : n = m := by
  have hlen := congrArg (fun s => s.toList.length) h
  simpa [otherSource] using hlen

theorem otherSource_ne (n : ℕ) : otherSource n ≠ "s" := by
  intro h
  have hhead := congrArg (fun s => s.toList.head?) h
  simp [otherSource, List.replicate_succ] at hhead

/-- The source `s` has failed five times, and `n` other sources once each. -/
structure Sprayed (n : ℕ) (tr : Trace) (sys : System) : Prop where
  run : (machine sampleConfig).Run tr sys
  opened : Open sys
  atThree : ∀ e ∈ tr, AtThree e
  failures : 5 ≤ tr.countP fun e => Fails sampleConfig "s" e
  buckets : sys.svc.ownerFailLimiter.events.items =
    ("s", [3, 3, 3, 3, 3]) :: (List.range n).map fun i => (otherSource i, [3])

theorem sprayed_zero : Sprayed 0 (after sampleConfig lockoutRun).1
    (after sampleConfig lockoutRun).2 where
  run := after_run _ _
  opened := by
    have hp : ((after sampleConfig lockoutRun).2.svc.pending.get? "authreq_p").any
        (fun p => 3 ≤ p.expiresAt) = true := by
      decide +kernel
    obtain ⟨p, hp, hlive⟩ := (Option.any_eq_true _ _).mp hp
    refine ⟨by decide +kernel, Option.isNone_iff_eq_none.mp (by decide +kernel), p, hp, ?_⟩
    simpa using hlive
  atThree := by decide +kernel
  failures := by decide +kernel
  buckets := by decide +kernel

theorem sprayed_live {n : ℕ} {tr : Trace} {sys : System} (h : Sprayed n tr sys) :
    (∀ e ∈ sys.svc.ownerFailLimiter.events.items, e.2 ≠ [] ∧
      SlidingWindow.live (3 - sys.svc.ownerFailLimiter.window) e.2 = e.2) ∧
    sys.svc.ownerFailLimiter.events.get? (otherSource n) = none := by
  rw [h.buckets, (run_ownerLimited h.run).2.1]
  constructor
  · intro e he
    rcases List.mem_cons.mp he with rfl | he
    · exact ⟨by simp, by decide⟩
    · obtain ⟨i, -, rfl⟩ := List.mem_map.mp he
      exact ⟨by simp, show SlidingWindow.live (3 - ownerFailWindowS) [3] = [3] by decide⟩
  · rw [Option.eq_none_iff_forall_ne_some]
    intro b hb
    rw [Dict.get?_iff_mem, h.buckets] at hb
    rcases List.mem_cons.mp hb with hb | hb
    · exact otherSource_ne n (congrArg Prod.fst hb)
    · obtain ⟨i, hi, hb⟩ := List.mem_map.mp hb
      obtain rfl := otherSource_inj (congrArg Prod.fst hb)
      simp at hi

theorem sprayed_size {n : ℕ} {tr : Trace} {sys : System} (h : Sprayed n tr sys) :
    sys.svc.ownerFailLimiter.events.size = n + 1 := by
  rw [Dict.size, h.buckets]
  simp

/-- The entries of an attempt are like those before it. -/
theorem attempt_atThree {tr : Trace} {source : String} {e1 e2 e3 : Event}
    (hacts : [e1.act, e2.act, e3.act] = attemptOps source "wrong") (h : ∀ e ∈ tr, AtThree e) :
    ∀ e ∈ e3 :: e2 :: e1 :: tr, AtThree e := by
  simp only [attemptOps, Op.run, List.cons.injEq, and_true] at hacts
  obtain ⟨h1, h2, h3⟩ := hacts
  have hthree {e : Event} {op : Op} (ha : e.act = op.run 3 "" "")
      (hop : op.isRestart = false) : AtThree e := by
    rw [AtThree, Lives, ha]
    exact ⟨⟨rfl, rfl, rfl, rfl⟩, rfl, hop⟩
  intro e he
  simp only [List.mem_cons] at he
  rcases he with rfl | rfl | rfl | he
  · exact hthree h3 rfl
  · exact hthree h2 rfl
  · exact hthree h1 rfl
  · exact h e he

/-- One more other source fails, while the map has room. -/
theorem sprayed_succ {n : ℕ} (hn : n + 1 < maxRateLimitSources) {tr : Trace} {sys : System}
    (h : Sprayed n tr sys) : ∃ tr' sys', Sprayed (n + 1) tr' sys' := by
  obtain ⟨hlive, hnew⟩ := sprayed_live h
  have hallow := SlidingWindow.allow_new 3 hnew
  obtain ⟨e1, e2, e3, sys', hrun, hacts, hfails, ho, hw⟩ :=
    attempt_run h.run h.opened (otherSource n) (by rw [hallow])
  have hroom : sys.svc.ownerFailLimiter.events.size < sys.svc.ownerFailLimiter.maxSources := by
    rw [sprayed_size h, (run_ownerLimited h.run).2.2]
    exact hn
  refine ⟨_, sys', hrun, ho, attempt_atThree hacts h.atThree, ?_, ?_⟩
  · exact h.failures.trans (List.sublist_append_right [e3, e2, e1] tr).countP_le
  · rw [hw, hallow, SlidingWindow.record_new hlive hnew hroom, h.buckets, List.range_succ]
    simp

theorem sprayed_exists : ∀ n, n < maxRateLimitSources → ∃ tr sys, Sprayed n tr sys
  | 0, _ => ⟨_, _, sprayed_zero⟩
  | n + 1, hn => by
    obtain ⟨tr, sys, h⟩ := sprayed_exists n (Nat.lt_of_succ_lt hn)
    exact sprayed_succ hn h

/-- Once 256 other sources have failed, the bucket of `s` is evicted, and a sixth wrong secret is
    compared within one window. -/
theorem lockout_evicted : ∃ tr sys, (machine sampleConfig).Run tr sys ∧ Steady tr ∧
    (∀ e ∈ tr, Lives e) ∧ ownerFailLimit < tr.countP fun e => Fails sampleConfig "s" e ∧
      3 ≤ e.act.env.t1 ∧ e.act.env.t0 ≤ 3 + ownerFailWindowS := by
  obtain ⟨tr, sys, h⟩ := sprayed_exists 255 (by decide)
  obtain ⟨hlive, hnew⟩ := sprayed_live h
  have hallow := SlidingWindow.allow_new 3 hnew
  obtain ⟨e1, e2, e3, sys1, hrun1, hacts1, -, ho1, hw1⟩ :=
    attempt_run h.run h.opened (otherSource 255) (by rw [hallow])
  have hlim := run_ownerLimited h.run
  -- one source more than the table holds: the victim is the bucket of `s`
  have hvictim : sys.svc.ownerFailLimiter.victim (otherSource 255) 3 = some "s" := by
    refine SlidingWindow.victim_full hlive hnew ?_ h.buckets fun e he => ?_
    · rw [sprayed_size h, hlim.2.2]
      decide
    · obtain ⟨i, -, rfl⟩ := List.mem_map.mp he
      exact le_rfl
  have hfree : sys1.svc.ownerFailLimiter.bucket "s" = [] := by
    rw [hw1, hallow, SlidingWindow.bucket_record, if_neg (otherSource_ne 255).symm, if_pos hvictim]
  have hallow1 : (sys1.svc.ownerFailLimiter.allow "s" 3).2 = true := by
    rw [SlidingWindow.allow_eq _ _ _ (by rw [(run_ownerLimited hrun1).1]; decide),
      (run_ownerLimited hrun1).1, hfree]
    rfl
  obtain ⟨f1, f2, f3, sys2, hrun2, hacts2, hfails, -, -⟩ := attempt_run hrun1 ho1 "s" hallow1
  have hthree := attempt_atThree hacts2 (attempt_atThree hacts1 h.atThree)
  refine ⟨_, sys2, hrun2, steady_of_atThree hthree, fun e he => (hthree e he).2, ?_⟩
  have hwindow : ∀ tr' : Trace, (∀ e ∈ tr', AtThree e) →
      (tr'.countP fun e => Fails sampleConfig "s" e ∧ 3 ≤ e.act.env.t1 ∧
        e.act.env.t0 ≤ 3 + ownerFailWindowS) = tr'.countP fun e => Fails sampleConfig "s" e := by
    intro tr' h3
    refine List.countP_congr fun e he => ?_
    simp only [decide_eq_true_eq, (h3 e he).1.1, (h3 e he).1.2.1]
    exact ⟨fun h => h.1, fun h => ⟨h, le_rfl, by decide⟩⟩
  rw [hwindow _ hthree, List.countP_cons_of_pos (by simpa using hfails)]
  have hmono : (tr.countP fun e => Fails sampleConfig "s" e) ≤
      (f2 :: f1 :: e3 :: e2 :: e1 :: tr).countP fun e => Fails sampleConfig "s" e :=
    (List.sublist_append_right [f2, f1, e3, e2, e1] tr).countP_le
  have hfive := h.failures
  have hlimit : ownerFailLimit = 5 := rfl
  omega

end DataRelay.OAuth
