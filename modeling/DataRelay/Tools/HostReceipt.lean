import DataRelay.Tools.HostSafety

/-! What becomes of a receipt. As long as no run reads the journal of its directory for another effect
    than the journal is about, a journal with a receipt stays as it is, and an ambiguous one is about
    a send without a receipt. A run that does read it for another effect marks the journal of a
    delivery that is settled as ambiguous. -/

namespace DataRelay.Tools.Host
open Lib

variable {pid : ℕ} {dir : String}

/-- No run reads a journal that is about another effect, unless it is sending or ambiguous. -/
def Calm (tr : History Runs (Move Json Choice) Unit) : Prop := ∀ e ∈ tr, calmStep e = true

def barMismatched : ℕ → Shared → Call → Bool := fun _ s c => mismatched s c

theorem run_calm {tr : History Runs (Move Json Choice) Unit} {sys : Runs} (h : machine.Run tr sys)
    (hcalm : Calm tr) : (machineOf barMismatched).Run tr sys := by
  refine run_machineOf barMismatched h fun e he p c hcalls => ?_
  obtain ⟨x, task, k, hact, hnext⟩ := hcalls
  have hstep := hcalm e he
  simpa [barMismatched, calmStep, hact, hnext] using hstep

/-- The journal that is whole in the file is the last one. -/
theorem slot_of_journalOf {calm : Bool} {w : State} {j : Journal} (hi : Inv calm w)
    (h : journalOf w.1 dir = some j) : ∃ slot, w.2.slot dir = some slot ∧ slot.journal = j ∧
      slot.Holds calm dir w := by
  cases hs : w.2.slot dir with
  | none =>
    have hfile := ((slotOk_none hs).mp (hi.slots dir)).1
    simp [journalOf, hfile] at h
  | some slot =>
    have hold := (slotOk_some hs).mp (hi.slots dir)
    refine ⟨slot, rfl, ?_, hold⟩
    rcases hold.file with hdoc | htorn
    · simpa [journalOf, hdoc, parseJournal_fields hold.fits.clean, Except.toOption] using h
    · simp [journalOf, htorn] at h

/-- In a run that reads no journal for another effect, a journal is AMBIGUOUS only after a send for its
    attempt without a verifiable receipt; one with a receipt stays; and a run that starts later and
    answers for an effect on that directory answers for the effect of the receipt. -/
theorem receipt_stays {tr : History Runs (Move Json Choice) Unit} {sys : Runs}
    (h : machine.Run tr sys) (hcalm : Calm tr) :
    (∀ dir j, journalOf sys.shared dir = some j → j.phase = .ambiguous →
      ∃ x ∈ sys.shared.sent, x.target.dir = dir ∧ x.target.attemptId = j.attemptId ∧
        ∀ receipt, ¬ x.Verified receipt) ∧
    ∀ newer e older, tr = newer ++ e :: older → ∀ dir j,
      journalOf e.post.shared dir = some j → j.phase = .receipt →
        journalOf sys.shared dir = some j ∧
        ∀ pid payload report digest, e.post.procs.length ≤ pid →
          sys.returned pid = some (payload, .ok report) → report.effect = some (dir, digest) →
            digest = j.effectSha256 := by
  have hbar : true = true → ∀ (pid : ℕ) s c, mismatched s c = true →
      barMismatched pid s c = true := fun _ _ _ _ h => h
  refine ⟨fun dir j hj hphase => ?_, ?_⟩
  · obtain ⟨g, hok⟩ := run_ok true (run_calm h hcalm) hbar
    obtain ⟨slot, -, rfl, hold⟩ := slot_of_journalOf hok.1 hj
    obtain ⟨x, hx, hd, hnever⟩ := hold.fits.ambiguous rfl hphase
    exact ⟨x, hx, hd, (hold.fits.sender x hx hd).2, hnever⟩
  · rintro newer e older rfl dir j hj hphase
    have hrun := run_calm h hcalm
    obtain ⟨g, hok⟩ := run_ok true hrun.split.1 hbar
    obtain ⟨slot, hslot, rfl, -⟩ := slot_of_journalOf hok.1 hj
    -- What is known from here on of the processes that start later.
    have hlater : (discipline barMismatched true).Ok (fun pid _ outcome _ =>
        e.post.procs.length ≤ pid → ∀ report digest, outcome = .ok report →
          report.effect = some (dir, digest) → digest = slot.journal.effectSha256) e.post g := by
      refine ⟨hok.1, fun pid task p hp => (hok.2 pid task p hp).imp fun _ _ _ hle => ?_⟩
      have hlt := (List.getElem?_eq_some_iff.mp hp).1
      omega
    obtain ⟨-, g', hok', hup⟩ := hlater.run hrun fun pid _ task w hi hup => by
      obtain ⟨slot', hslot', -, hkeep⟩ := Up.slot hup dir slot hslot
      obtain ⟨hsame, -⟩ := hkeep rfl hphase
      refine (keeps_runOnce task (fun hc => hbar hc pid) hi).safe.imp ?_
      rintro outcome w' hout - report digest rfl he
      rw [← hsame]
      exact (hout.calm rfl dir digest slot' he hslot' (hsame ▸ hphase)).symm
    obtain ⟨slot', -, -, hkeep⟩ := Up.slot hup dir slot hslot
    refine ⟨?_, fun pid payload report digest hle hr he => hok'.returned hr hle report digest rfl he⟩
    have hfile := (hkeep rfl hphase).2
    simp only [journalOf] at hj ⊢
    rw [hfile]
    exact hj

theorem isVerified_iff {x : Sent} : x.isVerified = true ↔ ∃ receipt, x.Verified receipt := by
  cases hr : x.reply with
  | error e => simp [Sent.isVerified, Sent.Verified, hr]
  | ok e =>
    simp only [Sent.isVerified, Sent.Verified, hr, Bool.and_eq_true, Bool.or_eq_true,
      decide_eq_true_eq, Except.ok.injEq, exists_eq_left']
    constructor
    · rintro ⟨⟨houtcome, hreceipt⟩, hlevel⟩
      exact ⟨e.receipt, houtcome, rfl, hreceipt, fun hk => hlevel.resolve_left fun h => h hk⟩
    · rintro ⟨receipt, houtcome, rfl, hreceipt, hlevel⟩
      exact ⟨⟨houtcome, hreceipt⟩, or_iff_not_imp_left.mpr fun h => hlevel (not_not.mp h)⟩

/-- The two sample runs, calm up to the state with the settled receipt of the first one. -/
theorem sample_settled : ∃ newer e older sys, machine.Run (newer ++ e :: older) sys ∧
    Calm (e :: older) ∧ e.post.procs.length = 1 ∧ (∀ x ∈ sys.shared.sent, ∃ receipt, x.Verified receipt) ∧
    ∃ dir digest, settled e.post.shared dir = true ∧
      (∃ first, reportOf sys 0 = some first ∧ first.result = .delivered ∧
        first.effect = some (dir, digest)) ∧
      (∃ j, journalOf sys.shared dir = some j ∧ j.phase = .ambiguous) ∧
      ∃ second digest', reportOf sys 1 = some second ∧ second.result = .reconcileAmbiguous ∧
        second.effect = some (dir, digest') ∧ digest' ≠ digest := by
  obtain ⟨tr, sys, hrun, hseen⟩ := sample_run
  obtain ⟨first, hfirst, hrest⟩ := (Option.any_eq_true _ _).mp hseen
  simp only [Bool.and_eq_true, decide_eq_true_eq] at hrest
  obtain ⟨⟨⟨hdelivered, hsent⟩, hcalm⟩, hrest⟩ := hrest
  obtain ⟨⟨dir, digest⟩, he, hrest⟩ := (Option.any_eq_true _ _).mp hrest
  simp only [Bool.and_eq_true] at hrest
  obtain ⟨⟨hhead, hjournal⟩, hsecond⟩ := hrest
  obtain ⟨e, hhead, hsettled⟩ := (Option.any_eq_true _ _).mp hhead
  simp only [Bool.and_eq_true, decide_eq_true_eq] at hsettled
  obtain ⟨older, hdrop⟩ := List.head?_eq_some_iff.mp hhead
  obtain ⟨j, hj, hphase⟩ := (Option.any_eq_true _ _).mp hjournal
  obtain ⟨second, hreport, hsecond⟩ := (Option.any_eq_true _ _).mp hsecond
  simp only [Bool.and_eq_true, decide_eq_true_eq] at hsecond
  obtain ⟨⟨dir', digest'⟩, he', hsame⟩ := (Option.any_eq_true _ _).mp hsecond.2
  simp only [Bool.and_eq_true, decide_eq_true_eq] at hsame
  obtain ⟨rfl, hne⟩ := hsame
  have htr : tr = tr.take 14 ++ e :: older := by rw [← hdrop, List.take_append_drop]
  rw [htr] at hrun
  rw [hdrop] at hcalm
  exact ⟨tr.take 14, e, older, sys, hrun, List.all_eq_true.mp hcalm, hsettled.2,
    fun x hx => isVerified_iff.mp (List.all_eq_true.mp hsent x hx), dir', digest, hsettled.1,
    ⟨first, hfirst, hdelivered, he⟩, ⟨j, hj, of_decide_eq_true hphase⟩, second, digest', hreport,
    hsecond.1, he', hne⟩

theorem receipt_stays_sample : ∃ (tr : History Runs (Move Json Choice) Unit) (sys : Runs) (dir : String),
    machine.Run tr sys ∧ Calm tr ∧ settled sys.shared dir = true ∧
      ∀ dir j, journalOf sys.shared dir = some j → j.phase = .ambiguous →
        ∃ x ∈ sys.shared.sent, x.target.dir = dir ∧ ∀ receipt, ¬ x.Verified receipt := by
  obtain ⟨newer, e, older, sys, hrun, hcalm, -, -, dir, digest, hsettled, -⟩ := sample_settled
  refine ⟨e :: older, e.post, dir, hrun.split.1, hcalm, hsettled, fun dir j hj hphase => ?_⟩
  obtain ⟨x, hx, hd, -, hnever⟩ := (receipt_stays hrun.split.1 hcalm).1 dir j hj hphase
  exact ⟨x, hx, hd, hnever⟩

/-- In some run every send returned a receipt, the delivery is settled, and a later run for another
    effect on the directory marks its journal AMBIGUOUS and answers RECONCILE_AMBIGUOUS. -/
theorem receipt_poisoned : ∃ newer e older sys, machine.Run (newer ++ e :: older) sys ∧
    (∀ x ∈ sys.shared.sent, ∃ receipt, x.Verified receipt) ∧
    ∃ dir digest, settled e.post.shared dir = true ∧
      (∃ first, reportOf sys 0 = some first ∧ first.effect = some (dir, digest)) ∧
      (∃ j, journalOf sys.shared dir = some j ∧ j.phase = .ambiguous) ∧
      ∃ pid second digest', e.post.procs.length ≤ pid ∧ reportOf sys pid = some second ∧
        second.effect = some (dir, digest') ∧ digest' ≠ digest ∧
        second.result = .reconcileAmbiguous := by
  obtain ⟨newer, e, older, sys, hrun, -, hlen, hverified, dir, digest, hsettled, ⟨first, hfirst, -, he⟩,
    hjournal, second, digest', hsecond, hresult, he', hne⟩ := sample_settled
  exact ⟨newer, e, older, sys, hrun, hverified, dir, digest, hsettled, ⟨first, hfirst, he⟩, hjournal, 1,
    second, digest', Nat.le_of_eq hlen, hsecond, he', hne, hresult⟩

end DataRelay.Tools.Host
