import DataRelay.Tools.HostJournal

/-! At most one send for each watch directory and each dispatch, over any interleaving of runs and
    with crashes anywhere.

    Most parts of a run leave the journals, the sends and the locks alone; they are `Quiet`. The
    others are the journal commits and the send of `_execute_authorized`, which only the process that
    holds the lock of the directory makes, and the reservation before them. -/

namespace DataRelay.Tools.Host
open Lib
open Watch (WatchResult Result)
open Coordinator (Facts)

variable {bar : ℕ → Shared → Call → Bool} {calm : Bool} {dir : String} {pid : ℕ} {w w' w'' : State}
variable {α β : Type} {task : Json} {Q : α → State → Prop}

/-! ### Parts of a run -/

/-- What a part of a run comes to, when it does not raise. -/
def Yields (Q : α → State → Prop) : Except Failure α → State → Prop
  | .ok a, w => Q a w
  | .error _, _ => True

/-- A part of a run keeps the discipline, and what it returns or throws is known. -/
structure KeepsRun {α : Type} (bar : ℕ → Shared → Call → Bool) (calm : Bool) (task : Json) (pid : ℕ)
    (Q : α → State → Prop) (p : Run α) (w : State) : Prop where
  safe : Keeps bar calm task pid (Yields Q) p.run w

theorem keeps_pure {a : α} (h : ∀ w', Stay calm pid dir w w' → Inv calm w' → Q a w') :
    KeepsRun bar calm task pid Q (pure a) w := ⟨fun w' hr hi => h w' hr.stay hi⟩

theorem keeps_throw {e : Failure} : KeepsRun bar calm task pid Q (throw e) w := ⟨fun _ _ _ => trivial⟩

theorem keeps_bind {p : Run α} {f : α → Run β} {Q : β → State → Prop} (hi : Inv calm w)
    (h : KeepsRun bar calm task pid
      (fun a w' => Inv calm w' → KeepsRun bar calm task pid Q (f a) w') p w) :
    KeepsRun bar calm task pid Q (p >>= f) w := by
  refine ⟨Discipline.Safe.bind (Discipline.Safe.imp (fun r w' hr hi' => ?_) h.safe) hi⟩
  cases r with
  | ok a => exact (hr hi').safe
  | error e => exact (keeps_throw (Q := Q)).safe

theorem KeepsRun.imp {Q' : α → State → Prop} {p : Run α} (h : KeepsRun bar calm task pid Q p w)
    (hq : ∀ a w', Q a w' → Q' a w') : KeepsRun bar calm task pid Q' p w := by
  refine ⟨Discipline.Safe.imp (fun r w' hr => ?_) h.safe⟩
  cases r with
  | ok a => exact hq a w' hr
  | error e => trivial

/-- A part of a run that leaves the journals, the sends and the locks alone, and has a value in
    `V`. -/
structure Quiet (V : α → Prop) (p : Run α) : Prop where
  keeps : ∀ bar calm task pid dir (w : State), Inv calm w →
    KeepsRun bar calm task pid (fun a w' => V a ∧ Stay calm pid dir w w') p w

/-- No condition. -/
abbrev Any {α : Type} : α → Prop := fun _ => True

/-- After a quiet part the run goes on where it was. -/
theorem Quiet.then {V : α → Prop} {p : Run α} {f : α → Run β} {Q : β → State → Prop}
    (hp : Quiet V p) (dir : String) (hi : Inv calm w)
    (h : ∀ a w', V a → Stay calm pid dir w w' → Inv calm w' →
      KeepsRun bar calm task pid Q (f a) w') : KeepsRun bar calm task pid Q (p >>= f) w :=
  keeps_bind hi ((hp.keeps bar calm task pid dir w hi).imp fun a w' ha hi' => h a w' ha.1 ha.2 hi')

theorem Quiet.bind {V : α → Prop} {V' : β → Prop} {p : Run α} {f : α → Run β} (hp : Quiet V p)
    (h : ∀ a, V a → Quiet V' (f a)) : Quiet V' (p >>= f) :=
  ⟨fun bar calm task pid dir _ hi => hp.then dir hi fun a _ ha hs hi' =>
    ((h a ha).keeps bar calm task pid dir _ hi').imp fun _ _ hb => ⟨hb.1, hs.trans hb.2⟩⟩

theorem Quiet.next {V' : β → Prop} {p : Run α} {f : α → Run β} (hp : Quiet Any p)
    (h : ∀ a, Quiet V' (f a)) : Quiet V' (p >>= f) := hp.bind fun a _ => h a

theorem Quiet.any {V : α → Prop} {p : Run α} (h : Quiet V p) : Quiet Any p :=
  ⟨fun bar calm task pid dir w hi => (h.keeps bar calm task pid dir w hi).imp fun _ _ ha =>
    ⟨trivial, ha.2⟩⟩

theorem quiet_pure {V : α → Prop} {a : α} (h : V a) : Quiet V (pure a) :=
  ⟨fun _ _ _ _ _ _ _ => keeps_pure fun _ hs _ => ⟨h, hs⟩⟩

theorem quiet_throw {V : α → Prop} {e : Failure} : Quiet V (throw e : Run α) :=
  ⟨fun _ _ _ _ _ _ _ => keeps_throw⟩

theorem quiet_check {V : α → Prop} {outcome : Except ToolError α} (h : ∀ a, outcome = .ok a → V a) :
    Quiet V (check outcome) := by
  cases outcome with
  | ok a => exact quiet_pure (h a rfl)
  | error e => exact quiet_throw (e := .tool e)

theorem quiet_call {c : Call} (hc : c.quiet = true) (answer : c.Answer → Except Failure α) :
    Quiet Any (ExceptT.mk (.call c fun r => .ret (answer r))) := by
  refine ⟨fun bar calm task pid dir w hi => ?_⟩
  refine ⟨keeps_quiet hc dir fun _ _ _ r _ hs _ _ _ _ _ w' hr _ => ?_⟩
  cases answer r with
  | ok a => exact ⟨trivial, hs.trans hr.stay⟩
  | error e => trivial

/-- An operation on the markers keeps its promise at its end. -/
theorem keeps_marking {P : α → Dispatch.Markers × Dispatch.Ghost → Prop} {p : Dispatch.Program α}
    (dir : String) (hi : Inv calm w)
    (h : Dispatch.Keeps (fun _ => False) task pid P p (markersOf w)) :
    KeepsRun bar calm task pid (fun a w' => ∃ w₁, P a (markersOf w₁) ∧ Stay calm pid dir w w₁ ∧
      Stay calm pid dir w₁ w') (ExceptT.lift (dispatched p)) w :=
  ⟨Discipline.Safe.bind ((keeps_dispatched dir h).imp fun _ w₁ ha _ _ hr _ =>
    ⟨w₁, ha.1, ha.2, hr.stay⟩) hi⟩

theorem quiet_dispatched {p : Dispatch.Program α}
    (h : ∀ (task : Json) pid w, ∃ P : α → Dispatch.Markers × Dispatch.Ghost → Prop,
      Dispatch.Keeps (fun _ => False) task pid P p w) : Quiet Any (ExceptT.lift (dispatched p)) := by
  refine ⟨fun bar calm task pid dir w hi => ?_⟩
  obtain ⟨P, hp⟩ := h task pid (markersOf w)
  exact (keeps_marking dir hi hp).imp fun _ _ ⟨_, _, hs, hs'⟩ => ⟨trivial, hs.trans hs'⟩

/-! ### The quiet parts -/

theorem quiet_finalizeDispatch (dispatchId effectSha256 attemptId : String) :
    Quiet Any (finalizeDispatch dispatchId effectSha256 attemptId) := by
  refine (quiet_dispatched fun task pid w =>
    ⟨_, Dispatch.keeps_finalize dispatchId effectSha256 attemptId⟩).next fun reply => ?_
  split
  · exact (quiet_throw (V := Any)).next fun _ => quiet_pure trivial
  · exact quiet_pure trivial

theorem quiet_readObject {file : StateFile} {read : Run (Option Json)} (h : Quiet Any read) :
    Quiet Any (readObject file read) := by
  refine h.next fun v => ?_
  split
  · exact quiet_pure trivial
  · refine (quiet_check (V := Any) fun _ _ => trivial).next fun data => ?_
    exact (quiet_check (V := Any) fun _ _ => trivial).next fun _ => quiet_pure trivial

theorem quiet_writeJson (dir : String) (file : StateFile) (payload : Obj) (hf : file ≠ .journal) :
    Quiet Any (writeJson dir file payload) :=
  (quiet_check (V := Any) fun _ _ => trivial).next fun _ =>
    quiet_call (c := .replace dir file payload) (by simpa [Call.quiet] using hf) fun r => r

theorem quiet_loadWatchState (dir : String) : Quiet Any (loadWatchState dir) :=
  (quiet_readObject (quiet_call (c := .read dir .watchState) rfl fun r => r)).next fun _ =>
    quiet_pure trivial

theorem quiet_ledgerEntries (dir : String) : Quiet Any (ledgerEntries dir) := by
  refine (quiet_readObject (quiet_call (c := .read dir .ledger) rfl fun r => r)).next fun raw => ?_
  split
  · exact quiet_pure trivial
  · exact quiet_check fun _ _ => trivial

theorem quiet_persistWatch (dir : String) (r : WatchResult) : Quiet Any (persistWatch dir r) :=
  quiet_writeJson dir .watchState (watchStateFields r.nextWatchState) (by decide)

theorem quiet_persistLedger (dir : String) (entries : List LedgerEntry) :
    Quiet Any (persistLedger dir entries) := by
  have hwrite := quiet_writeJson dir .ledger (ledgerFields entries) (by decide)
  unfold persistLedger
  split
  · exact (quiet_throw (V := Any)).next fun _ => hwrite
  · exact hwrite

theorem quiet_recordApplied (dir : String) (r : WatchResult) (entries : List LedgerEntry)
    (receipt : String) : Quiet Any (recordApplied dir r entries receipt) := by
  unfold recordApplied
  split
  · exact (quiet_persistLedger dir _).next fun _ => (quiet_persistWatch dir r).next fun _ =>
      quiet_pure trivial
  · exact (quiet_persistWatch dir r).next fun _ => quiet_pure trivial

theorem quiet_finishDelivery (dir : String) (r : WatchResult) (entries : List LedgerEntry)
    (dispatchId digest attemptId receipt : String) :
    Quiet Any (finishDelivery dir r entries dispatchId digest attemptId receipt) := by
  unfold finishDelivery
  refine (quiet_finalizeDispatch dispatchId digest attemptId).next fun reply => ?_
  split
  · exact quiet_pure trivial
  · exact quiet_recordApplied dir r entries receipt

theorem quiet_isConfigured (kind : Result) : Quiet Any (isConfigured kind) := by
  have htelegram : Quiet Any telegramConfigured :=
    quiet_call (c := .telegramConfigured) rfl fun r => .ok r
  have hgithub : Quiet Any githubConfigured := quiet_call (c := .githubConfigured) rfl fun r => .ok r
  cases kind
  case notifyOwner => exact htelegram
  all_goals exact hgithub

/-- A dispatch id is taken without the blanks around it. -/
theorem quiet_dispatchIdOf (request : Request) : Quiet Trimmed (dispatchIdOf request) := by
  unfold dispatchIdOf
  split
  · exact quiet_throw
  · next verification _ =>
    have hverify : Quiet Any (verifySignedJson verification.dispatchAssertion) :=
      quiet_call (c := .verifyDispatch verification.dispatchAssertion) rfl fun r => r
    refine hverify.next fun v => ?_
    split
    · split
      · next id _ =>
        split
        · exact quiet_throw.bind fun _ h => quiet_pure h
        · next hne => exact quiet_pure ⟨strip_strip id, hne⟩
      · exact quiet_throw
    · exact quiet_throw

theorem quiet_collect (request : Request) : Quiet Any (collect request) := by
  have hcollect : Quiet Any (collectAuthoritative request) :=
    quiet_call (c := .collect request) rfl fun r => r
  exact hcollect.next fun (facts, branch) => (quiet_check (V := Any) fun _ _ => trivial).next
    fun (raw, facts) => quiet_pure trivial

theorem quiet_bindCanonical (request : Request) (root : String) (facts : Facts) :
    Quiet Any (bindCanonical request root facts) := by
  have hmkdir : ∀ dir, Quiet Any (mkdirIdentity dir) := fun dir =>
    quiet_call (c := .mkdir dir) rfl fun r => r
  have hconfine : ∀ dir, Quiet Any (confineMutablePaths dir) := fun dir =>
    quiet_call (c := .confine dir) rfl fun r => r
  exact (hmkdir _).next fun _ => (quiet_check (V := Any) fun _ _ => trivial).next fun _ =>
    (hconfine _).next fun _ => quiet_pure trivial

/-! ### Commits, reservations and the send -/

/-- What a commit leaves: the lock is still held, the journal is the new one, nothing was sent. -/
structure Committed (calm : Bool) (pid : ℕ) (dir : String) (slot : Slot) (w w' : State) : Prop where
  up : Up calm w w'
  lock : w'.1.locks dir = some pid
  slot : w'.2.slot dir = some slot
  sent : ∀ x ∈ w'.1.sent, x.target.dir = dir → x ∈ w.1.sent

theorem Committed.stay {slot : Slot} (h : Committed calm pid dir slot w w')
    (hs : Stay calm pid dir w' w'') : Committed calm pid dir slot w w'' where
  up := h.up.trans hs.up
  lock := hs.lock h.lock
  slot := (hs.held h.lock).slot.trans h.slot
  sent x hx hd := h.sent x ((hs.held h.lock).sent x hx hd) hd

theorem keeps_commitJournal (slot : Slot) (hl : w.1.locks dir = some pid)
    (hfits : slot.Fits calm dir w) (hnext : ∀ old, w.2.slot dir = some old → old.Next calm slot)
    (hsending : slot.journal.phase = .sending → slot.sender = some pid) :
    KeepsRun bar calm task pid (fun _ w' => Committed calm pid dir slot w w')
      (commitJournal dir slot.journal) w := by
  unfold commitJournal writeJson
  cases rejectExecution (.obj slot.journal.fields) StateFile.journal.fileName with
  | error e => exact ⟨fun _ _ _ => trivial⟩
  | ok =>
    refine ⟨keeps_commit hl hfits hnext hsending (fun w' hup _ hl' hslot hsent w'' hr _ => ?_)
      fun _ _ _ _ _ _ _ => trivial⟩
    exact Committed.stay ⟨hup, hl', hslot, hsent⟩ hr.stay

/-- What a send leaves: it is the only one for the directory. -/
structure SentOnce (calm : Bool) (slot : Slot) (x : Sent) (w w' : State) : Prop where
  up : Up calm w w'
  lock : w'.1.locks x.target.dir = some x.pid
  slot : w'.2.slot x.target.dir = some slot
  mem : x ∈ w'.1.sent
  only : ∀ y ∈ w'.1.sent, y.target.dir = x.target.dir → y = x

theorem keeps_sendEffect {kind : Result} {effect : Obj} {target : SendFor} {slot : Slot}
    (hl : w.1.locks target.dir = some pid) (hslot : w.2.slot target.dir = some slot)
    (hattempt : target.attemptId = slot.journal.attemptId) (hphase : slot.journal.phase = .sending)
    (hsender : slot.sender = some pid) (hnone : ∀ x ∈ w.1.sent, x.target.dir ≠ target.dir)
    (howns : ∀ r, Sent.Owns ⟨pid, target, kind, effect, r⟩ w) :
    KeepsRun bar calm task pid
      (fun execution w' => SentOnce calm slot ⟨pid, target, kind, effect, .ok execution⟩ w w')
      (sendEffect target kind effect) w := by
  refine ⟨keeps_send rfl hl hslot hattempt hphase hsender hnone howns
    fun w' r hup _ hl' hslot' hmem honly w'' hr _ => ?_⟩
  cases r with
  | error e => trivial
  | ok execution =>
    have hstay : Stay calm pid target.dir w' w'' := hr.stay
    have hsame := hstay.held hl'
    exact ⟨hup.trans hr.up, hsame.lock.trans hl', hsame.slot.trans hslot', hr.up.sent _ hmem,
      fun y hy hd => honly y (hsame.sent y hy hd) hd⟩

/-- A reservation that is not refused is of a token and a pair. -/
theorem only_reserveDispatch (dispatchId effect attempt : String) :
    (Dispatch.reserveDispatch dispatchId effect attempt).Only fun reply =>
      reply = .conflict ∨ reply = .unavailable ∨ reply = .ownedConsumed ∨ reply = .raised ∨
      ((reply = .reserved ∨ reply = .ownedReserved) ∧ ∃ token b,
        Dispatch.safeDispatchToken dispatchId = some token ∧
          Dispatch.effectBinding effect attempt = some b) := by
  unfold Dispatch.reserveDispatch
  split
  · next token b htoken hbinding =>
    refine Prog.Only.bind (fun ready => ?_) _
    split
    · exact .ret (.inr (.inl rfl))
    refine Prog.Only.bind (fun legacy => ?_) _
    split
    · exact .ret (.inl rfl)
    refine Prog.Only.bind (fun created => ?_) _
    split
    · exact .ret (.inr (.inr (.inr (.inr ⟨.inl rfl, token, b, htoken, hbinding⟩))))
    · refine Prog.Only.bind (fun record => ?_) _
      split
      · exact .ret (.inr (.inr (.inr (.inl rfl))))
      · exact .ret (.inr (.inl rfl))
      · next r =>
        by_cases hmatch : r.matches b = true
        · rw [if_pos hmatch]
          by_cases hc : r.state = .consumed
          · rw [if_pos hc]
            exact .ret (.inr (.inr (.inl rfl)))
          · rw [if_neg hc]
            exact .ret (.inr (.inr (.inr (.inr ⟨.inr rfl, token, b, htoken, hbinding⟩))))
        · rw [if_neg hmatch]
          exact .ret (.inl rfl)
    · exact .ret (.inl rfl)
    · exact .ret (.inr (.inl rfl))
  · exact .ret (.inr (.inl rfl))

/-- The pair of an effect and an attempt owns the token of a dispatch. -/
def Owned (dispatchId effectSha256 attemptId : String) (w : State) : Prop :=
  ∃ token b, Dispatch.safeDispatchToken dispatchId = some token ∧
    Dispatch.effectBinding effectSha256 attemptId = some b ∧
    Dispatch.OwnedBy token (some b) (markersOf w)

theorem keeps_reserveDispatch (dir dispatchId effectSha256 attemptId : String) (hi : Inv calm w) :
    KeepsRun bar calm task pid (fun reply w' => Stay calm pid dir w w' ∧ (reply = .conflict ∨
        reply = .unavailable ∨ reply = .ownedConsumed ∨
        ((reply = .reserved ∨ reply = .ownedReserved) ∧ Owned dispatchId effectSha256 attemptId w')))
      (reserveDispatch dispatchId effectSha256 attemptId) w := by
  have hpromise : Dispatch.Keeps (fun _ => False) task pid
      (Dispatch.Promise (markersOf w) (.reserve dispatchId effectSha256 attemptId))
      (Dispatch.reserveDispatch dispatchId effectSha256 attemptId) (markersOf w) :=
    Dispatch.keeps_reserve dispatchId effectSha256 attemptId fun h => h
  -- what ownership promises, narrowed to the answers this program can give
  have hreserve := hpromise.only (only_reserveDispatch dispatchId effectSha256 attemptId)
  refine keeps_bind hi ((keeps_marking dir hi hreserve).imp fun reply w' hreply hi' => ?_)
  obtain ⟨w₁, ⟨hpromise, hreply⟩, hstay, hstay'⟩ := hreply
  split
  · exact keeps_bind hi' keeps_throw
  · next hraised =>
    refine keeps_pure fun w'' hs _ => ⟨(hstay.trans hstay').trans hs, ?_⟩
    rcases hreply with h | h | h | h | ⟨h, token, b, htoken, hbinding⟩
    · exact .inl h
    · exact .inr (.inl h)
    · exact .inr (.inr (.inl h))
    · exact absurd h hraised
    · have hown := hpromise.owning token b ⟨htoken, hbinding, h.imp_right .inl⟩
      exact .inr (.inr (.inr ⟨h, token, b, htoken, hbinding, hown.up (hstay'.trans hs).up.markers⟩))

/-! ### One delivery -/

/-- A send for the directory returned a receipt for the effect, in this run or in one whose receipt
    stood in the journal that this run read. -/
def Delivered (bar : ℕ → Shared → Call → Bool) (pid : ℕ) (dir digest : String) (w : State) : Prop :=
  ∃ x ∈ w.1.sent, x.target.dir = dir ∧ canonicalRequestSha256 x.effect = digest ∧
    (∃ receipt, x.Verified receipt) ∧ (x.pid = pid ∨ ∃ s,
      receipted s (.readJournal dir digest) = true ∧ bar pid s (.readJournal dir digest) = false)

theorem Delivered.up {digest : String} (h : Delivered bar pid dir digest w) (hup : Up calm w w') :
    Delivered bar pid dir digest w' := by
  obtain ⟨x, hx, hrest⟩ := h
  exact ⟨x, hup.sent x hx, hrest⟩

/-- A report of a delivery is true. -/
def Earned (bar : ℕ → Shared → Call → Bool) (pid : ℕ) (dir digest : String) (report : Report)
    (w : State) : Prop :=
  report.result = .delivered → Delivered bar pid dir digest w

theorem keeps_idle {digest : String} {report : Report} (h : report.result ≠ .delivered) :
    KeepsRun bar calm task pid (Earned bar pid dir digest) (pure report) w :=
  keeps_pure fun _ (_ : Stay calm pid dir w _) _ hd => absurd hd h

theorem keeps_finishDelivery {r : WatchResult} {entries : List LedgerEntry}
    {digest dispatchId digest' attemptId receipt : String} (hi : Inv calm w)
    (h : Delivered bar pid dir digest w) : KeepsRun bar calm task pid (Earned bar pid dir digest)
      (finishDelivery dir r entries dispatchId digest' attemptId receipt) w :=
  ((quiet_finishDelivery dir r entries dispatchId digest' attemptId receipt).keeps bar calm task pid
    dir w hi).imp fun _ _ hs _ => h.up hs.2.up

/-- The journal that is sending. -/
def sendingSlot (base : Journal) (pid : ℕ) : Slot := ⟨{ base with phase := .sending }, some pid⟩

theorem keeps_sendOnce {r : WatchResult} {entries : List LedgerEntry} {effect : Obj} {base : Journal}
    (hi : Inv calm w) (hl : w.1.locks dir = some pid)
    (hslot : w.2.slot dir = some (sendingSlot base pid)) (hnone : ∀ x ∈ w.1.sent, x.target.dir ≠ dir)
    (hdigest : base.effectSha256 = canonicalRequestSha256 effect)
    (howned : Owned base.dispatchId base.effectSha256 base.attemptId w) :
    KeepsRun bar calm task pid (Earned bar pid dir base.effectSha256)
      (sendOnce dir r entries effect base) w := by
  unfold sendOnce
  have howns : ∀ reply, Sent.Owns ⟨pid, ⟨dir, base.dispatchId, base.attemptId⟩, r.result, effect,
      reply⟩ w := by
    intro reply
    rw [hdigest] at howned
    exact howned
  refine keeps_bind hi ((keeps_sendEffect hl hslot rfl rfl rfl hnone howns).imp
    fun execution w₁ hsent hi₁ => ?_)
  have hfits := ((slotOk_some hsent.slot).mp (hi₁.slots dir)).fits
  -- What the journal can go on to, now that something was sent.
  have hcommit : ∀ journal : Journal, journal.Clean → journal.attemptId = base.attemptId →
      journal.phase ≠ .intent → journal.phase ≠ .sending →
      (journal.phase = .receipt → ∃ x ∈ w₁.1.sent, x.target.dir = dir ∧
        canonicalRequestSha256 x.effect = journal.effectSha256 ∧ x.Verified journal.receipt) →
      (journal.phase = .ambiguous → ∃ x ∈ w₁.1.sent, x.target.dir = dir ∧
        ∀ receipt, ¬ x.Verified receipt) →
      KeepsRun bar calm task pid (fun _ w' => Committed calm pid dir ⟨journal, some pid⟩ w₁ w')
        (commitJournal dir journal) w₁ := by
    intro journal hclean hattempt hintent hsending hreceipt hambiguous
    refine keeps_commitJournal ⟨journal, some pid⟩ hsent.lock ?_ (fun old hold => ?_)
      fun hp => absurd hp hsending
    · exact ⟨hclean, hattempt ▸ hfits.home, fun x hx hd => hattempt ▸ hfits.sender x hx hd,
        fun hp => absurd hp hintent, hreceipt, fun _ => hambiguous⟩
    · obtain rfl := Option.some.inj (hsent.slot.symm.trans hold)
      exact ⟨fun _ hp => hp, fun hp => absurd hp hsending, fun _ hp => by cases hp⟩
  have hclean (phase : Phase) (receipt : String) :
      ({ base with phase := phase, receipt := receipt } : Journal).Clean :=
    ⟨hfits.clean.effect, hfits.clean.dispatch, hfits.clean.kind, hfits.clean.attempt⟩
  have hambiguous (hnever : ∀ receipt, ¬ Sent.Verified ⟨pid, ⟨dir, base.dispatchId, base.attemptId⟩,
      r.result, effect, .ok execution⟩ receipt) :=
    hcommit { base with phase := .ambiguous } (hclean .ambiguous base.receipt) rfl (by simp) (by simp)
      (by simp) fun _ => ⟨_, hsent.mem, rfl, hnever⟩
  split
  · next hlost =>
    refine keeps_bind hi₁ ((hambiguous ?_).imp fun _ w₂ _ hi₂ => ?_)
    · rintro receipt ⟨e, he, houtcome, hreceipt, hne, -⟩
      obtain rfl := Except.ok.inj he
      rcases hlost with h | h
      · exact h houtcome
      · exact hne (hreceipt ▸ h)
    · exact (quiet_persistLedger dir _).then dir hi₂ fun _ _ _ _ _ => keeps_idle (by simp [answer])
  split
  · next hlevel =>
    refine keeps_bind hi₁ ((hambiguous ?_).imp fun _ w₂ _ _ => keeps_idle (by simp [answer]))
    rintro receipt ⟨e, he, -, -, -, hinfo⟩
    obtain rfl := Except.ok.inj he
    exact hlevel.2 (hinfo hlevel.1)
  · next hlost hlevel =>
    simp only [not_or, not_not, not_and] at hlost hlevel
    have hverified : Sent.Verified ⟨pid, ⟨dir, base.dispatchId, base.attemptId⟩, r.result, effect,
        .ok execution⟩ execution.receipt := ⟨execution, rfl, hlost.1, rfl, hlost.2, hlevel⟩
    refine keeps_bind hi₁ ((hcommit { base with phase := .receipt, receipt := execution.receipt }
      (hclean .receipt execution.receipt) rfl (by simp) (by simp)
      (fun _ => ⟨_, hsent.mem, rfl, hdigest.symm, hverified⟩) (by simp)).imp fun _ w₂ hcom hi₂ => ?_)
    exact keeps_finishDelivery hi₂ ⟨_, hcom.up.sent _ hsent.mem, rfl, hdigest.symm,
      ⟨_, hverified⟩, .inl rfl⟩

/-- The directory is at an intent for the attempt of a journal, which is about to be sent. -/
structure Ready (calm : Bool) (pid : ℕ) (dir : String) (base : Journal) (w : State) : Prop where
  lock : w.1.locks dir = some pid
  slot : ∃ old, w.2.slot dir = some old ∧ old.journal.phase = .intent ∧
    old.journal.attemptId = base.attemptId
  clean : base.Clean

theorem Ready.stay {base : Journal} (h : Ready calm pid dir base w) (hs : Stay calm pid dir w w') :
    Ready calm pid dir base w' where
  lock := hs.lock h.lock
  slot := by
    rw [(hs.held h.lock).slot]
    exact h.slot
  clean := h.clean

theorem keeps_reserveAndSend {r : WatchResult} {entries : List LedgerEntry} {effect : Obj}
    {base : Journal} (hi : Inv calm w) (hready : Ready calm pid dir base w)
    (hdigest : base.effectSha256 = canonicalRequestSha256 effect) :
    KeepsRun bar calm task pid (Earned bar pid dir base.effectSha256)
      (reserveAndSend dir r entries effect base) w := by
  unfold reserveAndSend
  refine keeps_bind hi ((keeps_reserveDispatch dir _ _ _ hi).imp fun reply w₁ hreply hi₁ => ?_)
  obtain ⟨hstay, hreply⟩ := hreply
  have hready₁ := hready.stay hstay
  split
  · exact keeps_idle (by simp [denied, answer])
  · exact keeps_idle (by simp [denied, answer])
  · exact keeps_idle (by simp [answer])
  · -- any answer but the three refusals says that the marker is this attempt's
    next hconflict hunavailable hconsumed =>
    have howned : Owned base.dispatchId base.effectSha256 base.attemptId w₁ := by
      rcases hreply with h | h | h | h
      · exact absurd h hconflict
      · exact absurd h hunavailable
      · exact absurd h hconsumed
      · exact h.2
    obtain ⟨old, hold, hphase, hattempt⟩ := hready₁.slot
    have hfits := ((slotOk_some hold).mp (hi₁.slots dir)).fits
    obtain ⟨hsender, hnone⟩ := hfits.intent hphase
    have hclean : (sendingSlot base pid).journal.Clean :=
      ⟨hready.clean.effect, hready.clean.dispatch, hready.clean.kind, hready.clean.attempt⟩
    have hsending : (sendingSlot base pid).Fits calm dir w₁ :=
      ⟨hclean, hattempt ▸ hfits.home, fun x hx hd => absurd hd (hnone x hx), by simp [sendingSlot],
        by simp [sendingSlot], by simp [sendingSlot]⟩
    -- the slot moves from INTENT to SENDING, which is the one step open to it
    have hnext : ∀ o, w₁.2.slot dir = some o → o.Next calm (sendingSlot base pid) := by
      intro o ho
      obtain rfl := Option.some.inj (hold.symm.trans ho)
      refine ⟨fun p hp => ?_, fun _ => by simp [hphase], fun _ => by simp [hphase]⟩
      rw [hsender] at hp
      cases hp
    refine keeps_bind hi₁ ((keeps_commitJournal (sendingSlot base pid) hready₁.lock hsending hnext
      fun _ => rfl).imp fun _ w₂ hcom hi₂ => ?_)
    have hnone₂ : ∀ x ∈ w₂.1.sent, x.target.dir ≠ dir := fun x hx hd =>
      hnone x (hcom.sent x hx hd) hd
    obtain ⟨token, b, htoken, hbinding, hown⟩ := howned
    exact keeps_sendOnce hi₂ hcom.lock hcom.slot hnone₂ hdigest
      ⟨token, b, htoken, hbinding, hown.up hcom.up.markers⟩

/-- What reading the journal under the lock tells. -/
def ReadAs (bar : ℕ → Shared → Call → Bool) (calm : Bool) (pid : ℕ) (dir digest : String) :
    Option Journal → State → Prop
  | none, w => w.2.slot dir = none
  | some j, w => (∃ slot, w.2.slot dir = some slot ∧ slot.journal = j) ∧
      (calm = true → j.phase = .intent ∨ j.phase = .receipt → j.effectSha256 = digest) ∧
      (j.phase = .receipt → j.effectSha256 = digest → ∃ s,
        receipted s (.readJournal dir digest) = true ∧ bar pid s (.readJournal dir digest) = false)

theorem keeps_executeIntent {r : WatchResult} {entries : List LedgerEntry} {effect : Obj}
    {dispatchId : String} {journal : Option Journal} (hi : Inv calm w)
    (hl : w.1.locks dir = some pid) (hdispatch : Trimmed dispatchId)
    (hread : ReadAs bar calm pid dir (canonicalRequestSha256 effect) journal w)
    (hphase : ∀ j, journal = some j → j.phase = .intent) :
    KeepsRun bar calm task pid (Earned bar pid dir (canonicalRequestSha256 effect))
      (executeIntent dir r entries effect (canonicalRequestSha256 effect) dispatchId journal) w := by
  have hclean : ∀ attemptId, isTokenHex attemptId = true → Journal.Clean ⟨.intent,
      canonicalRequestSha256 effect, dispatchId, "", r.result.name, attemptId⟩ := fun _ hattempt =>
    ⟨trimmed_sha256Hex _, hdispatch, trimmed_resultName _, hattempt⟩
  unfold executeIntent
  refine (quiet_isConfigured r.result).then dir hi fun configured w₁ _ hs hi₁ => ?_
  have hl₁ := hs.lock hl
  have hslot₁ := (hs.held hl).slot
  split
  · exact keeps_idle (by simp [denied, answer])
  split
  · -- an earlier INTENT is there: its attempt id is taken over
    next j =>
    obtain ⟨slot, hslot, rfl⟩ := hread.1
    have hfits := ((slotOk_some (hslot₁.trans hslot)).mp (hi₁.slots dir)).fits
    have hready : Ready calm pid dir ⟨.intent, canonicalRequestSha256 effect, dispatchId, "",
        r.result.name, slot.journal.attemptId⟩ w₁ :=
      ⟨hl₁, ⟨slot, hslot₁.trans hslot, hphase _ rfl, rfl⟩, hclean _ hfits.clean.attempt⟩
    exact keeps_reserveAndSend hi₁ hready rfl
  · -- no journal: the new attempt id names this directory and no other one
    have hnone : w₁.2.slot dir = none := hslot₁.trans hread
    have htoken : KeepsRun bar calm task pid (fun attemptId w' => isTokenHex attemptId = true ∧
        w'.2.home attemptId = some dir ∧ Stay calm pid dir w₁ w') tokenHex w₁ :=
      ⟨keeps_tokenHex fun w' attemptId hs' _ hattempt hhome w'' hr _ =>
        ⟨hattempt, hr.up.home _ _ hhome, hs'.trans hr.stay⟩⟩
    refine keeps_bind hi₁ (htoken.imp fun attemptId w₂ hattempt hi₂ => ?_)
    obtain ⟨hattempt, hhome, hs₂⟩ := hattempt
    have hnone₂ : w₂.2.slot dir = none := (hs₂.held hl₁).slot.trans hnone
    have hnever := ((slotOk_none hnone₂).mp (hi₂.slots dir)).2
    let base : Journal := ⟨.intent, canonicalRequestSha256 effect, dispatchId, "", r.result.name,
      attemptId⟩
    have hfits : Slot.Fits calm ⟨base, none⟩ dir w₂ :=
      ⟨hclean _ hattempt, hhome, fun x hx hd => absurd hd (hnever x hx), fun _ => ⟨rfl, hnever⟩,
        by simp [base], by simp [base]⟩
    refine keeps_bind hi₂ ((keeps_commitJournal ⟨base, none⟩ (hs₂.lock hl₁) hfits (fun old hold => ?_)
      (by simp [base])).imp fun _ w₃ hcom hi₃ => ?_)
    · rw [hnone₂] at hold
      cases hold
    · exact keeps_reserveAndSend hi₃ ⟨hcom.lock, ⟨_, hcom.slot, rfl, rfl⟩, hclean _ hattempt⟩ rfl

/-- The answer to the call is the journal of the directory, not barred. -/
def AnsweredBy (bar : ℕ → Shared → Call → Bool) (pid : ℕ) (dir digest : String) :
    Option Json → State → Prop
  | none, w => w.2.slot dir = none
  | some v, w => ∃ slot, w.2.slot dir = some slot ∧ v = .obj slot.journal.fields ∧
      slot.journal.Clean ∧ ∃ s, journalOf s dir = some slot.journal ∧
        bar pid s (.readJournal dir digest) = false

theorem keeps_readJournal (digest : String) (hl : w.1.locks dir = some pid) :
    KeepsRun bar calm task pid
      (fun v w' => AnsweredBy bar pid dir digest v w' ∧ Stay calm pid dir w w')
      (ExceptT.mk (.call (.readJournal dir digest) .ret)) w := by
  refine ⟨keeps_quiet rfl dir fun w₁ w₂ x v hs₁ hs₂ hi₂ hexec hbar hi₁ _ w₃ hr hi₃ => ?_⟩
  have hs₃ : Stay calm pid dir w w₃ := hs₂.trans hr.stay
  have hslot : ∀ {o}, w₁.2.slot dir = o → w₃.2.slot dir = o := fun h =>
    ((hs₃.held hl).slot.trans (hs₁.held hl).slot.symm).trans h
  cases x with
  | fail e =>
    simp only [exec, Option.some.injEq, Prod.mk.injEq] at hexec
    obtain ⟨rfl, -⟩ := hexec
    trivial
  | go =>
    simp only [exec, Option.some.injEq, Prod.mk.injEq] at hexec
    obtain ⟨rfl, -⟩ := hexec
    cases hold : w₁.2.slot dir with
    | none =>
      have hfile := ((slotOk_none hold).mp (hi₁.slots dir)).1
      simp only [readFile, hfile]
      exact ⟨hslot hold, hs₃⟩
    | some slot =>
      have hholds := (slotOk_some hold).mp (hi₁.slots dir)
      rcases hholds.file with hdoc | htorn
      · simp only [readFile, hdoc]
        refine ⟨⟨slot, hslot hold, rfl, hholds.fits.clean, w₁.1, ?_, hbar⟩, hs₃⟩
        simp only [journalOf, hdoc, parseJournal_fields hholds.fits.clean, Except.toOption]
      · simp only [readFile, htorn]
        trivial
  | _ => cases hexec

theorem keeps_loadJournal (digest : String)
    (hcalm : calm = true → ∀ s c, mismatched s c = true → bar pid s c = true)
    (hi : Inv calm w) (hl : w.1.locks dir = some pid) :
    KeepsRun bar calm task pid
      (fun journal w' => ReadAs bar calm pid dir digest journal w' ∧ Stay calm pid dir w w')
      (loadJournal dir digest) w := by
  unfold loadJournal readObject
  refine keeps_bind hi (keeps_bind hi ((keeps_readJournal digest hl).imp fun v w₁ hv hi₁ => ?_))
  obtain ⟨hanswer, hs₁⟩ := hv
  have hslot : ∀ {w' : State}, Stay calm pid dir w₁ w' → w'.2.slot dir = w₁.2.slot dir := fun hs =>
    (hs.held (hs₁.lock hl)).slot
  cases v with
  | none =>
    exact keeps_pure fun w₂ hs₂ _ _ => keeps_pure fun w₃ hs₃ _ =>
      ⟨(hslot (hs₂.trans hs₃)).trans hanswer, (hs₁.trans hs₂).trans hs₃⟩
  | some v =>
    obtain ⟨slot, hold, rfl, hclean, s, hjournal, hbar⟩ := hanswer
    refine (quiet_check (V := fun data => data = slot.journal.fields) fun data h =>
      (Except.ok.inj h).symm).then dir hi₁ fun data w₂ hdata hs₂ hi₂ => ?_
    subst hdata
    refine (quiet_check (V := Any) fun _ _ => trivial).then dir hi₂ fun _ w₃ _ hs₃ hi₃ => ?_
    refine keeps_pure fun w₄ (hs₄ : Stay calm pid dir w₃ w₄) _ hi₄ => ?_
    refine (quiet_check (V := fun j => j = slot.journal) fun j h => ?_).then dir hi₄
      fun j w₅ hj hs₅ hi₅ => ?_
    · rw [parseJournal_fields hclean] at h
      exact (Except.ok.inj h).symm
    subst hj
    have hs : Stay calm pid dir w₁ w₅ := ((hs₂.trans hs₃).trans hs₄).trans hs₅
    refine keeps_pure fun w₆ hs₆ _ => ⟨⟨⟨slot, (hslot (hs.trans hs₆)).trans hold, rfl⟩,
      fun hc hphase => ?_, fun hphase hd => ?_⟩, (hs₁.trans hs).trans hs₆⟩
    · -- in a calm run no other digest is asked for behind an ambiguous send
      by_contra hne
      have hmis : mismatched s (.readJournal dir digest) = true := by
        simp [mismatched, hjournal, hphase, hne]
      rw [hcalm hc s _ hmis] at hbar
      cases hbar
    · exact ⟨s, by simp [receipted, hjournal, hphase, hd], hbar⟩

/-! ### Whole runs -/

/-- A report is true: what it calls delivered was delivered, and in a calm world it is not about
    another effect than the one of a receipt that was there when the run started. -/
structure Faithful (bar : ℕ → Shared → Call → Bool) (calm : Bool) (pid : ℕ) (w₀ : State)
    (report : Report) (w : State) : Prop where
  delivered : report.result = .delivered → ∃ dir digest, report.effect = some (dir, digest) ∧
    Delivered bar pid dir digest w
  calm : calm = true → ∀ dir digest slot, report.effect = some (dir, digest) →
    w₀.2.slot dir = some slot → slot.journal.phase = .receipt → slot.journal.effectSha256 = digest

theorem Faithful.up {w₀ : State} {report : Report} (h : Faithful bar calm pid w₀ report w)
    (hup : Up calm w w') : Faithful bar calm pid w₀ report w' where
  delivered hd := by
    obtain ⟨dir, digest, he, hdelivered⟩ := h.delivered hd
    exact ⟨dir, digest, he, hdelivered.up hup⟩
  calm := h.calm

/-- A report that is about no effect. -/
theorem keeps_answer {w₀ : State} {report : Report} (he : report.effect = none)
    (hr : report.result ≠ .delivered) :
    KeepsRun bar calm task pid (Faithful bar calm pid w₀) (pure report) w := by
  refine keeps_pure fun w' (_ : Stay calm pid "" w w') _ => ⟨fun hd => absurd hd hr, ?_⟩
  intro _ dir digest slot h
  rw [he] at h
  cases h

theorem keeps_executeAuthorized {w₀ : State} {request : Request} {r : WatchResult}
    {entries : List LedgerEntry} {effect : Obj}
    (hcalm : calm = true → ∀ s c, mismatched s c = true → bar pid s c = true)
    (hi : Inv calm w) (hl : w.1.locks dir = some pid) (hup : Up calm w₀ w) :
    KeepsRun bar calm task pid (Faithful bar calm pid w₀)
      (executeAuthorized dir request r entries effect) w := by
  unfold executeAuthorized
  refine (quiet_dispatchIdOf request).then dir hi fun dispatchId w₁ hdispatch hs₁ hi₁ => ?_
  have hl₁ := hs₁.lock hl
  refine keeps_bind hi₁ ((keeps_loadJournal (canonicalRequestSha256 effect) hcalm hi₁ hl₁).imp
    fun journal w₂ hread hi₂ => ?_)
  obtain ⟨hread, hs₂⟩ := hread
  have hl₂ := hs₂.lock hl₁
  -- In a calm world a receipt of the directory is for the effect that the journal was read for.
  have hreceipt : calm = true → ∀ slot, w₀.2.slot dir = some slot → slot.journal.phase = .receipt →
      slot.journal.effectSha256 = canonicalRequestSha256 effect := by
    intro hc slot hslot hphase
    obtain ⟨slot', hslot', -, hsame⟩ := (hup.trans (hs₁.up.trans hs₂.up)).slot dir slot hslot
    obtain ⟨hj, -⟩ := hsame hc hphase
    cases journal with
    | none =>
      rw [hread] at hslot'
      cases hslot'
    | some j =>
      obtain ⟨⟨slot'', hslot'', rfl⟩, hmatch, -⟩ := hread
      obtain rfl := Option.some.inj (hslot'.symm.trans hslot'')
      rw [← hj]
      exact hmatch hc (.inr (hj ▸ hphase))
  have hend : ∀ {w₃ : State} {report : Report},
      Earned bar pid dir (canonicalRequestSha256 effect) report w₃ →
      KeepsRun bar calm task pid (Faithful bar calm pid w₀)
        (pure { report with effect := some (dir, canonicalRequestSha256 effect) }) w₃ := by
    intro w₃ report hearned
    refine keeps_pure fun w₄ (hs₄ : Stay calm pid dir w₃ w₄) _ =>
      ⟨fun hd => ⟨dir, _, rfl, (hearned hd).up hs₄.up⟩, fun hc dir' digest slot he hslot hp => ?_⟩
    obtain ⟨rfl, rfl⟩ := Prod.mk.inj (Option.some.inj he)
    exact hreceipt hc slot hslot hp
  have hlabel : ∀ {w₃ : State} {p : Run Report}, Inv calm w₃ →
      KeepsRun bar calm task pid (Earned bar pid dir (canonicalRequestSha256 effect)) p w₃ →
      KeepsRun bar calm task pid (Faithful bar calm pid w₀) (p >>= fun report =>
        pure { report with effect := some (dir, canonicalRequestSha256 effect) }) w₃ :=
    fun hi₃ hp => keeps_bind hi₃ (hp.imp fun _ _ hearned _ => hend hearned)
  dsimp only
  cases journal with
  | none =>
    exact hlabel hi₂ (keeps_executeIntent hi₂ hl₂ hdispatch hread fun _ h => by cases h)
  | some j =>
    dsimp only
    obtain ⟨⟨slot, hslot, rfl⟩, hmatch, hread'⟩ := id hread
    split
    · exact hlabel hi₂ (keeps_idle (by simp [answer]))
    next hunresolved =>
    have hresolved : slot.journal.phase = .intent ∨ slot.journal.phase = .receipt := by
      cases hp : slot.journal.phase <;> simp [hp] at hunresolved ⊢
    split
    · next hdigest =>
      have hnever : calm ≠ true := fun hc => hdigest (hmatch hc hresolved)
      have hfits := ((slotOk_some hslot).mp (hi₂.slots dir)).fits
      refine keeps_bind hi₂ ((keeps_commitJournal ⟨{ slot.journal with
          phase := .ambiguous, receipt := "", kind := r.result.name }, slot.sender⟩ hl₂ ?_
        (fun old hold => ?_) (by simp)).imp fun _ w₃ _ hi₃ => hlabel hi₃ (keeps_idle (by simp [answer])))
      · exact ⟨⟨hfits.clean.effect, hfits.clean.dispatch, trimmed_resultName _, hfits.clean.attempt⟩,
          hfits.home, hfits.sender, by simp, by simp, fun hc => absurd hc hnever⟩
      · obtain rfl := Option.some.inj (hslot.symm.trans hold)
        exact ⟨fun _ hp => hp, by simp, fun hc => absurd hc hnever⟩
    next hdigest =>
    have hdigest := not_not.mp hdigest
    split
    · next hphase =>
      have hholds := (slotOk_some hslot).mp (hi₂.slots dir)
      obtain ⟨x, hx, hdir, hsame, hverified⟩ := hholds.fits.receipt hphase
      exact hlabel hi₂ (keeps_finishDelivery hi₂ ⟨x, hx, hdir, hsame.trans hdigest, ⟨_, hverified⟩,
        .inr (hread' hphase hdigest)⟩)
    · next hphase =>
      refine hlabel hi₂ (keeps_executeIntent hi₂ hl₂ hdispatch hread fun j hj => ?_)
      obtain rfl := Option.some.inj hj
      exact hresolved.resolve_right hphase

theorem keeps_finishWrite {w₀ : State} {request : Request} {r : WatchResult} {facts : Facts}
    {branch : String} {entries : List LedgerEntry}
    (hcalm : calm = true → ∀ s c, mismatched s c = true → bar pid s c = true)
    (hi : Inv calm w) (hl : w.1.locks dir = some pid) (hup : Up calm w₀ w) :
    KeepsRun bar calm task pid (Faithful bar calm pid w₀)
      (finishWrite dir request r facts branch entries) w := by
  unfold finishWrite
  have hdenied : ∀ {w' : State} (reason : String),
      KeepsRun bar calm task pid (Faithful bar calm pid w₀) (pure (denied reason r)) w' := fun _ =>
    keeps_answer rfl (by simp [denied, answer])
  have hanswer : ∀ {w' : State} {result : HostResult} (reason : String), result ≠ .delivered →
      KeepsRun bar calm task pid (Faithful bar calm pid w₀) (pure (answer result reason r)) w' :=
    fun _ h => keeps_answer rfl h
  dsimp only
  split
  · exact hdenied _
  have hevaluate : ∀ payload, Quiet Any (evaluateWrite payload) := fun payload =>
    quiet_call (c := .evaluateWrite payload) rfl fun r => r
  refine (hevaluate _).then dir hi fun decision w₁ _ hs₁ hi₁ => ?_
  split
  · exact hdenied _
  · next decision =>
    split
    · split
      · exact keeps_executeAuthorized hcalm hi₁ (hs₁.lock hl) (hup.trans hs₁.up)
      · exact hdenied _
    split
    · exact (quiet_persistWatch dir r).then dir hi₁ fun _ _ _ _ _ => hanswer _ (by simp)
    split
    · exact hanswer _ (by simp)
    split
    · exact hanswer _ (by simp)
    split
    · exact (quiet_persistLedger dir _).then dir hi₁ fun _ _ _ _ _ => hanswer _ (by simp)
    · exact hdenied _

theorem keeps_finishNotice {w₀ : State} {request : Request} {verification : Verification}
    {r : WatchResult} {branch : String} {entries : List LedgerEntry}
    (hcalm : calm = true → ∀ s c, mismatched s c = true → bar pid s c = true)
    (hi : Inv calm w) (hl : w.1.locks dir = some pid) (hup : Up calm w₀ w) :
    KeepsRun bar calm task pid (Faithful bar calm pid w₀)
      (finishNotice dir request verification r branch entries) w := by
  unfold finishNotice
  have hauthorize : ∀ effect, Quiet Any (authorizeConcreteEffect verification effect) := fun effect =>
    quiet_call (c := .authorize verification effect) rfl fun r => r
  refine (hauthorize _).then dir hi fun gate w₁ _ hs₁ hi₁ => ?_
  split
  · exact (quiet_persistWatch dir r).then dir hi₁ fun _ _ _ _ _ => keeps_answer rfl (by simp [answer])
  split
  · exact keeps_answer rfl (by simp [denied, answer])
  · exact keeps_executeAuthorized hcalm hi₁ (hs₁.lock hl) (hup.trans hs₁.up)

theorem keeps_finishTyped {w₀ : State} {request : Request} {r : WatchResult} {facts : Facts}
    {branch : String} {entries : List LedgerEntry}
    (hcalm : calm = true → ∀ s c, mismatched s c = true → bar pid s c = true)
    (hi : Inv calm w) (hl : w.1.locks dir = some pid) (hup : Up calm w₀ w) :
    KeepsRun bar calm task pid (Faithful bar calm pid w₀)
      (finishTyped dir request r facts branch entries) w := by
  unfold finishTyped
  dsimp only
  split
  · exact keeps_answer rfl (by simp [answer])
  split
  · exact (quiet_persistWatch dir r).then dir hi fun _ _ _ _ _ => keeps_answer rfl (by simp [answer])
  split
  · exact keeps_answer rfl (by simp [answer])
  split
  · exact keeps_answer rfl (by simp [answer])
  split
  · exact keeps_finishNotice hcalm hi hl hup
  · exact keeps_finishWrite hcalm hi hl hup

theorem reconcile_ne_delivered {facts facts' : Facts} {branch branch' : String} {result : Result}
    {blocked : HostResult} (h : reconcile facts facts' branch branch' result = some blocked) :
    blocked ≠ .delivered := by
  rintro rfl
  unfold reconcile at h
  split_ifs at h <;> cases h

theorem keeps_underLock {w₀ : State} {request : Request} {raw : Obj} {facts : Facts}
    {branch : String}
    (hcalm : calm = true → ∀ s c, mismatched s c = true → bar pid s c = true)
    (hi : Inv calm w) (hl : w.1.locks dir = some pid) (hup : Up calm w₀ w) :
    KeepsRun bar calm task pid (Faithful bar calm pid w₀) (underLock dir request raw facts branch)
      w := by
  unfold underLock
  refine (quiet_loadWatchState dir).then dir hi fun state w₁ _ hs₁ hi₁ => ?_
  refine (quiet_check (V := Any) fun _ _ => trivial).then dir hi₁ fun r w₂ _ hs₂ hi₂ => ?_
  split
  · split
    · exact keeps_answer rfl (by simp [answer])
    refine (quiet_collect request).then dir hi₂ fun (_, authoritative, branch') w₃ _ hs₃ hi₃ => ?_
    dsimp only
    split
    · next blocked hblocked =>
      exact keeps_answer rfl (reconcile_ne_delivered hblocked)
    · refine (quiet_ledgerEntries dir).then dir hi₃ fun entries w₄ _ hs₄ hi₄ => ?_
      have hs := ((hs₁.trans hs₂).trans hs₃).trans hs₄
      exact keeps_finishTyped hcalm hi₄ (hs.lock hl) (hup.trans hs.up)
  · refine (quiet_persistWatch dir r).then dir hi₂ fun _ w₃ _ hs₃ hi₃ => ?_
    split
    · exact keeps_answer rfl (by simp [answer])
    · exact keeps_answer rfl (by simp [answer])

/-- A lock that was acquired is held until it is released. -/
theorem keeps_acquireLock (dir : String) :
    KeepsRun bar calm task pid
      (fun held w' => Up calm w w' ∧ (held = true → w'.1.locks dir = some pid)) (acquire dir) w := by
  refine ⟨keeps_acquire (fun w' hup _ hl w'' hr _ => ?_) fun w' r hup _ hne w'' hr _ => ?_⟩
  · exact ⟨hup.trans hr.up, fun _ => hr.stay.lock hl⟩
  · cases r with
    | error e => trivial
    | ok held =>
      refine ⟨hup.trans hr.up, fun hheld => ?_⟩
      rw [hheld] at hne
      exact absurd rfl hne

/-- A run keeps to what the runs keep up together, and its report is true. -/
theorem keeps_runOnce (payload : Json)
    (hcalm : calm = true → ∀ s c, mismatched s c = true → bar pid s c = true) (hi : Inv calm w) :
    KeepsRun bar calm task pid (Faithful bar calm pid w) (runOnce payload) w := by
  unfold runOnce
  have hroot : Quiet Any resolveHostStateRoot := quiet_call (c := .stateRoot) rfl fun r => .ok r
  refine (quiet_check (V := Any) fun _ _ => trivial).then "" hi fun request w₁ _ hs₁ hi₁ => ?_
  refine hroot.then "" hi₁ fun root w₂ _ hs₂ hi₂ => ?_
  cases root with
  | none => exact keeps_throw
  | some root =>
    refine (quiet_collect request).then "" hi₂ fun (raw, facts, branch) w₃ _ hs₃ hi₃ => ?_
    refine (quiet_bindCanonical request root facts).then "" hi₃ fun dir w₄ _ hs₄ hi₄ => ?_
    have hup : Up calm w w₄ := (((hs₁.trans hs₂).trans hs₃).trans hs₄).up
    refine keeps_bind hi₄ ((keeps_acquireLock dir).imp fun held w₅ hheld hi₅ => ?_)
    obtain ⟨hup₅, hheld⟩ := hheld
    split
    · exact keeps_answer rfl (by simp [lockHeldReport])
    · next hlock =>
      have hl := hheld (by simpa using hlock)
      have hunder : KeepsRun bar calm task pid (Faithful bar calm pid w)
          (underLock dir request raw facts branch) w₅ := keeps_underLock hcalm hi₅ hl (hup.trans hup₅)
      refine ⟨Discipline.Safe.bind (hunder.safe.imp fun outcome w₆ hout _ => ?_) hi₅⟩
      refine keeps_release fun w₇ released hup₇ _ => ?_
      cases released with
      | error e => exact fun _ _ _ => trivial
      | ok =>
        cases outcome with
        | error e => exact fun _ _ _ => trivial
        | ok report => exact fun w₈ hr _ => hout.up (hup₇.trans hr.up)

/-! ### Whole systems of runs -/

/-- The runs of a host, over what they share. -/
abbrev Runs := System Shared Call.Answer Json (Except Failure Report)

/-- A step of these runs. -/
abbrev Step := Entry Runs (Move Json Choice) Unit

/-- The runs in which no process makes a call that is barred to it. -/
def machineOf (bar : ℕ → Shared → Call → Bool) : Machine Runs (Move Json Choice) Unit :=
  System.machine (worldOf bar) (fun payload => (runOnce payload).run) fun s =>
    s = ⟨fun _ => none, fun _ => none, fun _ _ => none, [], []⟩

/-- At the step the process makes the call. -/
def Calls (pid : ℕ) (c : Call) (e : Step) : Prop :=
  ∃ x task k, e.act = .call pid x ∧ e.pre.next pid = some (task, ⟨c, k⟩)

theorem step_worldOf {sys sys' : Runs} {move : Move Json Choice}
    {body : Json → Program (Except Failure Report)}
    (h : sys.step world body move = some sys')
    (hbar : ∀ pid x task c k, move = .call pid x → sys.next pid = some (task, ⟨c, k⟩) →
      bar pid sys.shared c = false) : sys.step (worldOf bar) body move = some sys' := by
  cases move with
  | start task => exact h
  | crash pid => exact h
  | call pid x =>
    simp only [System.step] at h ⊢
    split at h
    · next task c k hnext =>
      have hexec : (worldOf bar).exec pid sys.shared c x = world.exec pid sys.shared c x := by
        simp [worldOf, world, hbar pid x task c k rfl hnext]
      rw [hexec]
      exact h
    · cases h

/-- A run without a barred call is a run of the world without it. -/
theorem run_machineOf (bar : ℕ → Shared → Call → Bool)
    {tr : History Runs (Move Json Choice) Unit} {sys : Runs}
    (h : machine.Run tr sys)
    (hbar : ∀ e ∈ tr, ∀ pid c, Calls pid c e → bar pid e.pre.shared c = false) :
    (machineOf bar).Run tr sys := by
  induction tr generalizing sys with
  | nil =>
    cases h with
    | start hi => exact .start hi
  | cons e tr ih =>
    obtain ⟨hrun, hs, rfl⟩ := Machine.Run.cons h
    have hstep : (machineOf bar).step e.pre e.act = some (e.post, e.resp) := by
      have hworld := step_worldOf (Discipline.machine_step hs) fun pid x task c k hact hnext =>
        hbar e List.mem_cons_self pid c ⟨x, task, k, hact, hnext⟩
      simp only [machineOf, System.machine, hworld, Option.map_some]
    exact .step (ih hrun fun e' he' => hbar e' (List.mem_cons_of_mem _ he')) hstep

/-- What the runs start with is in order. -/
theorem inv_init {s : Shared} (h : s = ⟨fun _ => none, fun _ => none, fun _ _ => none, [], []⟩) :
    Inv calm (s, ⟨fun _ => none, fun _ => none, fun _ => none⟩) := by
  subst h
  exact {
    markers := fun _ => trivial
    slots := fun dir => (slotOk_none rfl).mpr ⟨rfl, fun _ hx => by cases hx⟩
    once := List.Pairwise.nil
    owns := fun _ hx => by cases hx
    used := fun _ _ ha => by cases ha }

/-- What is known of the outcome of a process. -/
def Outcome (bar : ℕ → Shared → Call → Bool) (calm : Bool) (pid : ℕ) (_ : Json) :
    Except Failure Report → State → Prop :=
  Yields fun report w => ∃ w₀, Faithful bar calm pid w₀ report w

theorem safe_runOnce (hcalm : calm = true → ∀ pid s c, mismatched s c = true → bar pid s c = true)
    (pid : ℕ) (task : Json) (w : State) (hi : Inv calm w) :
    Keeps bar calm task pid (Outcome bar calm pid task) (runOnce task).run w :=
  ((keeps_runOnce task (fun hc => hcalm hc pid) hi).imp fun _ _ hf => ⟨w, hf⟩).safe

/-- What the runs keep up together holds in every run, and every report is true. -/
theorem run_ok (calm : Bool) {tr : History Runs (Move Json Choice) Unit} {sys : Runs}
    (h : (machineOf bar).Run tr sys)
    (hcalm : calm = true → ∀ pid s c, mismatched s c = true → bar pid s c = true) :
    ∃ g, (discipline bar calm).Ok (Outcome bar calm) sys g :=
  Discipline.run_ok h (fun _ hi => ⟨_, inv_init hi⟩) (safe_runOnce hcalm)

/-- The binding of an attempt id names it. -/
theorem attempt_effectBinding {effect attempt : String} {b : Dispatch.Binding}
    (h : Dispatch.effectBinding effect attempt = some b) (ha : isTokenHex attempt = true) :
    b.attempt = attempt := by
  simp only [Dispatch.effectBinding, safeDispatchToken_tokenHex ha, Option.ite_none_right_eq_some,
    Option.some.injEq] at h
  rw [← h.2]

/-- Two sends for one dispatch are for one directory. -/
theorem dir_of_dispatchId {x y : Sent} (hi : Inv calm w) (hx : x ∈ w.1.sent) (hy : y ∈ w.1.sent)
    (h : x.target.dispatchId = y.target.dispatchId) : x.target.dir = y.target.dir := by
  obtain ⟨hhome, token, b, htoken, hbinding, hown⟩ := hi.owns x hx
  obtain ⟨hhome', token', b', htoken', hbinding', hown'⟩ := hi.owns y hy
  rw [← h, htoken, Option.some.injEq] at htoken'
  subst htoken'
  obtain rfl := Option.some.inj (hown.unique hown')
  have hattempt := attempt_effectBinding hbinding (hi.used _ _ hhome).2
  have hattempt' := attempt_effectBinding hbinding' (hi.used _ _ hhome').2
  rw [← hattempt, hattempt', hhome', Option.some.injEq] at hhome
  exact hhome.symm

/-- A process leaves the journal of a directory in the phase SENDING. -/
def Sending (pid : ℕ) (dir : String) (e : Step) : Prop :=
  ∃ j : Journal, j.phase = .sending ∧ Calls pid (.replace dir .journal j.fields) e ∧
    e.post.shared.files dir .journal = some (.doc (.obj j.fields))

/-- A process reads a journal with a receipt for the effect. -/
def ReadsReceipt (pid : ℕ) (dir digest : String) (e : Step) : Prop :=
  Calls pid (.readJournal dir digest) e ∧ receipted e.pre.shared (.readJournal dir digest) = true

/-- A process that leaves a journal SENDING is the sender for its directory from then on. -/
theorem sender_of_sending {newer older : History Runs (Move Json Choice) Unit} {e : Step}
    {sys : Runs} (h : machine.Run (newer ++ e :: older) sys) (hs : Sending pid dir e) :
    ∀ x ∈ sys.shared.sent, x.target.dir = dir → x.pid = pid := by
  -- the barrier is not used here: the run is one of the machine that bars nothing
  have hfree := run_machineOf (fun _ _ _ => false) h fun _ _ _ _ _ => rfl
  have hcalm : (false : Bool) = true → ∀ (pid : ℕ) s c, mismatched s c = true → false = true :=
    fun h => by cases h
  obtain ⟨j, hphase, ⟨x, task, k, hact, hnext⟩, hfile⟩ := hs
  obtain ⟨-, hrun, hstep⟩ := hfree.split
  obtain ⟨g, hok⟩ := run_ok false hrun hcalm
  have hsys := Discipline.machine_step hstep
  rw [hact] at hsys
  simp only [System.step, hnext, Option.map_eq_some_iff, Prod.exists] at hsys
  obtain ⟨r, s, hexec, hpost⟩ := hsys
  -- the SENDING write records its process as the sender, and later steps keep that
  obtain ⟨g', hok', -, htells⟩ := hok.call (Discipline.next_eq hnext) hexec
  rw [hpost] at hok'
  have hshared : s = e.post.shared := congrArg System.shared hpost
  subst hshared
  obtain ⟨slot, hslot, hsender⟩ := htells j rfl hphase hfile
  obtain ⟨-, g'', hok'', hup⟩ := hok'.run hfree fun pid _ task w hi _ =>
    safe_runOnce hcalm pid task w hi
  intro y hy hd
  obtain ⟨slot', hslot', hkeep, -⟩ := Up.slot hup dir slot hslot
  have hfits := ((slotOk_some hslot').mp (Inv.slots hok''.1 dir)).fits
  have hy' := (hfits.sender y hy hd).1
  rw [hkeep pid hsender] at hy'
  exact (Option.some.inj hy').symm

/-- The process cannot read a receipt for the effect in the journal of the directory. -/
def barReceipt (pid : ℕ) (dir digest : String) (p : ℕ) (s : Shared) : Call → Bool
  | .readJournal d d' => p = pid && d = dir && d' = digest && receipted s (.readJournal d d')
  | _ => false

/-- What a run calls delivered was sent with a receipt by it, or by a run whose receipt it read. -/
theorem delivered_of_returned {tr : History Runs (Move Json Choice) Unit} {sys : Runs} {payload : Json}
    {report : Report} (h : machine.Run tr sys) (hr : sys.returned pid = some (payload, .ok report))
    (hd : report.result = .delivered) : ∃ dir digest, report.effect = some (dir, digest) ∧
      ∃ x ∈ sys.shared.sent, x.target.dir = dir ∧ canonicalRequestSha256 x.effect = digest ∧
        (∃ receipt, x.Verified receipt) ∧ (x.pid = pid ∨ ∃ e ∈ tr, ReadsReceipt pid dir digest e) := by
  have hreport : ∀ bar : ℕ → Shared → Call → Bool, (machineOf bar).Run tr sys →
      ∃ dir digest, report.effect = some (dir, digest) ∧ ∃ x ∈ sys.shared.sent, x.target.dir = dir ∧
        canonicalRequestSha256 x.effect = digest ∧ (∃ receipt, x.Verified receipt) ∧
        (x.pid = pid ∨ ∃ s, receipted s (.readJournal dir digest) = true ∧
          bar pid s (.readJournal dir digest) = false) := by
    intro bar hrun
    obtain ⟨g, hok⟩ := run_ok false hrun fun h => by cases h
    obtain ⟨w₀, hfaithful⟩ := hok.returned hr
    exact hfaithful.delivered hd
  obtain ⟨dir, digest, he, x, hx, hdir, hdigest, hverified, -⟩ :=
    hreport _ (run_machineOf (fun _ _ _ => false) h fun _ _ _ _ _ => rfl)
  refine ⟨dir, digest, he, ?_⟩
  by_cases hread : ∃ e ∈ tr, ReadsReceipt pid dir digest e
  · exact ⟨x, hx, hdir, hdigest, hverified, .inr hread⟩
  -- Without such a step the run is one of a world in which the process cannot make it.
  have hrun : (machineOf (barReceipt pid dir digest)).Run tr sys := by
    refine run_machineOf _ h fun e hmem p c hcalls => ?_
    cases c with
    | readJournal d d' =>
      by_contra hbar
      simp only [barReceipt, Bool.not_eq_false, Bool.and_eq_true, decide_eq_true_eq] at hbar
      obtain ⟨⟨⟨rfl, rfl⟩, rfl⟩, hreceipt⟩ := hbar
      exact hread ⟨e, hmem, hcalls, hreceipt⟩
    | _ => rfl
  obtain ⟨dir', digest', he', x', hx', hdir', hdigest', hverified', hpid⟩ := hreport _ hrun
  rw [he, Option.some.injEq, Prod.mk.injEq] at he'
  obtain ⟨rfl, rfl⟩ := he'
  refine ⟨x', hx', hdir', hdigest', hverified', .inl (hpid.resolve_right ?_)⟩
  rintro ⟨s, hreceipt, hbar⟩
  simp [barReceipt, hreceipt] at hbar

/-- Over any interleaving of runs, with crashes anywhere: no two sends are for one watch directory or
    one dispatch; after a process left a journal SENDING no other sends for the directory; and what a
    run calls delivered was sent with a receipt for just that effect, by the run or by one whose
    receipt it read in the journal. -/
theorem at_most_once {tr : History Runs (Move Json Choice) Unit} {sys : Runs}
    (h : machine.Run tr sys) :
    (sys.shared.sent.Pairwise fun x y =>
      x.target.dir ≠ y.target.dir ∧ x.target.dispatchId ≠ y.target.dispatchId) ∧
    (∀ e ∈ tr, ∀ pid dir, Sending pid dir e → ∀ x ∈ sys.shared.sent, x.target.dir = dir →
      x.pid = pid) ∧
    ∀ pid payload report, sys.returned pid = some (payload, .ok report) →
      report.result = .delivered → ∃ dir digest, report.effect = some (dir, digest) ∧
        ∃ x ∈ sys.shared.sent, x.target.dir = dir ∧ canonicalRequestSha256 x.effect = digest ∧
          (∃ receipt, x.Verified receipt) ∧
          (x.pid = pid ∨ ∃ e ∈ tr, ReadsReceipt pid dir digest e) := by
  refine ⟨?_, fun e he pid dir hs => ?_, fun pid payload report hr hd => ?_⟩
  · -- sends with one dispatch id are to one directory, and a directory has one send
    have hrun : (machineOf fun _ _ _ => false).Run tr sys :=
      run_machineOf _ h fun _ _ _ _ _ => rfl
    obtain ⟨g, hok⟩ := run_ok false hrun fun h => by cases h
    have hi : Inv false (sys.shared, g) := hok.1
    exact hi.once.imp_of_mem fun hx hy hd => ⟨hd, fun hid => hd (dir_of_dispatchId hi hx hy hid)⟩
  · obtain ⟨newer, older, rfl⟩ := List.append_of_mem he
    exact sender_of_sending h hs
  · exact delivered_of_returned h hr hd

/-! ### A run that delivers -/

/-- A full commit id. -/
def sampleSha : String := "0123456789abcdef0123456789abcdef01234567"

/-- A packet whose pull request is at its head, with the checks in the state `ci`. -/
def sampleFacts (ci observed : String) : Json := .obj [
  ("packet", .obj [("repository", .str "o/r"), ("workstream", .str "w"), ("status", .str "ACTIVE"),
    ("priority", .str "NORMAL"), ("intent_revision", .int 1), ("change_risk", .str "LOW"),
    ("dependencies", .arr [])]),
  ("git", .obj [("head", .str sampleSha), ("yielded_for_audit", .bool false)]),
  ("resource", .obj [("result", .str "PASS")]),
  ("admission", .obj [("decision", .str "ALLOW")]),
  ("mutation", .obj [("ambiguous", .bool false)]),
  ("failure", .obj [("class", .str "NONE"), ("identical_semantic_count", .int 0)]),
  ("pr", .obj [("exists", .bool true), ("state", .str "OPEN"), ("head", .str sampleSha),
    ("mergeable", .str "UNKNOWN")]),
  ("ci", .obj [("state", .str ci), ("subject_head", .str sampleSha)]),
  ("review", .obj [("actionable_open", .bool false), ("state", .str "UNKNOWN")]),
  ("watch", .obj [("watch_class", .str "exact_head_ci"), ("observed_at", .str observed)])]

/-- A request for a watch of the checks at the exact head. -/
def sampleRequest : Json := .obj [("schema_version", .int 1), ("target_repo", .str "o/r"),
  ("workstream", .str "w"), ("watch_class", .str "exact_head_ci"), ("branch", .str "b"),
  ("effect_target_id", .str "7"), ("work_budget", .int 1),
  ("verification", .obj [("binding_assertion", .str "/v/b"), ("dispatch_assertion", .str "/v/d")])]

/-- A run of the process `pid` up to its journal. -/
def sampleStart (pid : ℕ) (facts : Json) (dispatchId : String) : List (Move Json Choice) :=
  [.start sampleRequest, .call pid (.root (some "/s")), .call pid (.facts facts (.str "b")),
    .call pid .go, .call pid .go, .call pid .go, .call pid .go, .call pid (.facts facts (.str "b")),
    .call pid .go, .call pid (.decision (.ok ⟨"APPLIED", true, ""⟩)),
    .call pid (.doc (.obj [("dispatch_id", .str dispatchId)])), .call pid .go]

/-- The rest of the run, when the journal is empty and the send returns a receipt. -/
def sampleDelivery (pid : ℕ) : List (Move Json Choice) :=
  [.call pid (.flag true), .call pid (.text "00000000000000000000000000000001"),
    .call pid (.replace .whole none), .call pid (.dispatch (.answer true)),
    .call pid (.dispatch (.answer false)), .call pid (.dispatch .go),
    .call pid (.dispatch (.put 1000 none)), .call pid (.dispatch .go),
    .call pid (.replace .whole none), .call pid (.reply ⟨"SUCCEEDED", "github-comment:1", "NONE"⟩),
    .call pid (.replace .whole none), .call pid (.dispatch (.answer true)),
    .call pid (.dispatch .go), .call pid (.dispatch .go), .call pid (.dispatch .go),
    .call pid (.dispatch .go), .call pid (.dispatch (.put 1000 none)), .call pid (.dispatch .go),
    .call pid (.dispatch .go), .call pid (.replace .whole none), .call pid (.replace .whole none),
    .call pid .go]

/-- The rest of the run, when the journal is about another effect. -/
def sampleMismatch (pid : ℕ) : List (Move Json Choice) :=
  [.call pid (.replace .whole none), .call pid .go]

/-- A run that delivers, and a run for another action on the same subject. -/
def sampleMoves : List (Move Json Choice) :=
  sampleStart 0 (sampleFacts "FAIL" "2026-03-01T09:00:00Z") "d1" ++ sampleDelivery 0 ++
    (sampleStart 1 (sampleFacts "PASS" "2026-03-01T10:00:00Z") "d2" ++ sampleMismatch 1)

/-- A host without state and without runs. -/
def noRuns : Runs := ⟨⟨fun _ => none, fun _ => none, fun _ _ => none, [], []⟩, []⟩

/-- The report that a process returned, when it returned one. -/
def reportOf (sys : Runs) (pid : ℕ) : Option Report :=
  match sys.returned pid with
  | some (_, .ok report) => some report
  | _ => none

theorem returned_of_reportOf {sys : Runs} {report : Report} (h : reportOf sys pid = some report) :
    ∃ payload, sys.returned pid = some (payload, .ok report) := by
  unfold reportOf at h
  split at h
  · next payload report' heq =>
    cases h
    exact ⟨payload, heq⟩
  · cases h

/-- A step at which no journal is read that is about another effect. -/
def calmStep (e : Step) : Bool :=
  match e.act with
  | .call pid _ =>
    match e.pre.next pid with
    | some (_, ⟨c, _⟩) => !mismatched e.pre.shared c
    | none => true
  | _ => true

/-- The journal of a directory holds a receipt, its dispatch is finalized and the ledger has the
    action as APPLIED. -/
def settled (s : Shared) (dir : String) : Bool :=
  (journalOf s dir).any fun j => j.phase = .receipt &&
    ((Dispatch.safeDispatchToken j.dispatchId).bind s.markers).any (fun m =>
      (Dispatch.parseRecord m.content).state = .consumed) &&
    match s.files dir .ledger with
    | some (.doc (.obj raw)) => (parseLedger raw).toOption.any fun entries =>
      entries.any fun entry => entry.outcome = "APPLIED" && entry.result = j.kind
    | _ => false

/-- The receipt of a sent effect is one that `sendEffect`'s caller accepts. -/
def Sent.isVerified (x : Sent) : Bool :=
  match x.reply with
  | .ok e => e.outcome = "SUCCEEDED" && e.receipt ≠ "" && (x.kind ≠ .notifyOwner || e.level = "INFO")
  | .error _ => false

/-- What is seen of the two runs: the first one delivered, calmly, and settled its directory; after
    the second, for another effect on that directory, the journal is AMBIGUOUS. -/
def sampleSeen (r : History Runs (Move Json Choice) Unit × Runs) : Bool :=
  (reportOf r.2 0).any fun first => first.result = .delivered &&
    r.2.shared.sent.all Sent.isVerified && (r.1.drop 14).all calmStep &&
    first.effect.any fun (dir, digest) =>
      ((r.1.drop 14).head?.any fun e => settled e.post.shared dir && e.post.procs.length = 1) &&
      ((journalOf r.2.shared dir).any fun j => j.phase = .ambiguous) &&
      (reportOf r.2 1).any fun second => second.result = .reconcileAmbiguous &&
        second.effect.any fun (dir', digest') => dir' = dir && digest' ≠ digest

theorem sample_seen : (machine.exec sampleMoves ([], noRuns)).any sampleSeen = true := by
  decide +kernel

/-- The two runs, as a run of the machine. -/
theorem sample_run : ∃ tr sys, machine.Run tr sys ∧ sampleSeen (tr, sys) = true := by
  obtain ⟨⟨tr, sys⟩, hexec, hseen⟩ := (Option.any_eq_true _ _).mp sample_seen
  have hstart : machine.Run [] noRuns := .start ⟨rfl, rfl⟩
  exact ⟨tr, sys, Machine.Run.exec hstart hexec, hseen⟩

theorem at_most_once_sample : ∃ tr sys, machine.Run tr sys ∧ ∃ report,
    reportOf sys 0 = some report ∧ report.result = .delivered ∧ ∃ dir digest,
      report.effect = some (dir, digest) ∧ ∃ x ∈ sys.shared.sent, x.target.dir = dir ∧
        canonicalRequestSha256 x.effect = digest := by
  obtain ⟨tr, sys, hrun, hseen⟩ := sample_run
  obtain ⟨report, hreport, hrest⟩ := (Option.any_eq_true _ _).mp hseen
  simp only [Bool.and_eq_true, decide_eq_true_eq] at hrest
  have hresult := hrest.1.1.1
  obtain ⟨payload, hreturned⟩ := returned_of_reportOf hreport
  obtain ⟨dir, digest, he, x, hx, hdir, hdigest, -⟩ :=
    (at_most_once hrun).2.2 0 payload report hreturned hresult
  exact ⟨tr, sys, hrun, report, hreport, hresult, dir, digest, he, x, hx, hdir, hdigest⟩

end DataRelay.Tools.Host
