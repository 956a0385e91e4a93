import DataRelay.Tools.DispatchOwner
import DataRelay.Tools.HostRun
import DataRelay.Tools.WatchState

/-! What the runs of a host keep up together: the journal of each watch directory, the dispatch
    markers and the effects that were sent.

    The ghost state keeps the last journal that was written to a directory, also where the file holds
    only a part of it, the process that journalled SENDING there, and the directory that each attempt
    id was made for. The lock of a directory keeps its journal and its sends for the process that
    holds it; the markers are kept by the discipline of the dispatch operations. -/

namespace DataRelay.Tools.Host
open Lib
open Watch (WatchResult Result sha256Hex)

/-! ### Texts that are read back as they were written -/

theorem trimmed_of_hex {s : String} (h : ∀ c ∈ s.toList, isLowerHex c = true) (hne : s ≠ "") :
    Trimmed s :=
  ⟨strip_eq_self fun c hc => isSpace_of_isLowerHex (h c hc), hne⟩

theorem trimmed_sha256Hex (text : List Char) : Trimmed (sha256Hex text) := by
  have hlist : (sha256Hex text).toList = (sha256 (text.map Char.toNat)).flatMap hex2 := by
    simp only [sha256Hex, String.toList_ofList]
  refine trimmed_of_hex (fun c hc => ?_) fun hnil => ?_
  · rw [hlist] at hc
    obtain ⟨n, -, hc⟩ := List.mem_flatMap.mp hc
    exact isLowerHex_hex2 n c hc
  · have hlen := length_sha256 (text.map Char.toNat)
    rw [hnil] at hlist
    cases hbytes : sha256 (text.map Char.toNat) with
    | nil =>
      rw [hbytes] at hlen
      cases hlen
    | cons n ns =>
      rw [hbytes] at hlist
      cases hlist

theorem isTokenChar_of_hex {c : Char} (h : isLowerHex c = true) : Dispatch.isTokenChar c = true := by
  simp only [isLowerHex, Bool.or_eq_true, Bool.and_eq_true] at h
  simp only [Dispatch.isTokenChar, isSlugChar, isAlnumAscii, Bool.or_eq_true, Bool.and_eq_true]
  rcases h with h | ⟨h, h'⟩
  · exact .inl (.inl (.inl (.inl (.inl h))))
  · refine .inl (.inl (.inl (.inl (.inr ⟨h, ?_⟩))))
    simp only [decide_eq_true_eq, Char.le_def, UInt32.le_iff_toNat_le] at h' ⊢
    have hf : ('f' : Char).val.toNat = 102 := rfl
    have hz : ('z' : Char).val.toNat = 122 := rfl
    omega

/-- An attempt id is a token. -/
theorem safeDispatchToken_tokenHex {s : String} (h : isTokenHex s = true) :
    Dispatch.safeDispatchToken s = some s := by
  simp only [isTokenHex, Bool.and_eq_true, decide_eq_true_eq, List.all_eq_true] at h
  have hne : s ≠ "" := by
    rintro rfl
    simp at h
  have hall : s.toList.all Dispatch.isTokenChar = true :=
    List.all_eq_true.mpr fun c hc => isTokenChar_of_hex (h.2 c hc)
  have hlen : ¬ 128 < s.toList.length := by omega
  simp only [Dispatch.safeDispatchToken, (trimmed_of_hex h.2 hne).1, hne, hlen, or_self, if_false,
    hall, if_true]

theorem trimmed_tokenHex {s : String} (h : isTokenHex s = true) : Trimmed s := by
  simp only [isTokenHex, Bool.and_eq_true, decide_eq_true_eq, List.all_eq_true] at h
  refine trimmed_of_hex h.2 ?_
  rintro rfl
  simp at h

theorem trimmed_resultName (r : Result) : Trimmed r.name := by
  cases r <;> exact ⟨by decide, by decide⟩

/-- A journal whose fields are read back as they stand. -/
structure Journal.Clean (j : Journal) : Prop where
  effect : Trimmed j.effectSha256
  dispatch : Trimmed j.dispatchId
  kind : Trimmed j.kind
  attempt : isTokenHex j.attemptId = true

theorem parseJournal_fields {j : Journal} (h : j.Clean) : parseJournal j.fields = .ok j := by
  have hkeys : rejectUnknown j.fields journalKeys "effect_journal" = .ok () := rfl
  have hphase : phases.find? (fun p => p.name = j.phase.name) = some j.phase := by
    cases j.phase <;> decide
  have hname : Trimmed j.phase.name := by cases j.phase <;> exact ⟨by decide, by decide⟩
  have hread : ∀ {s label : String}, Trimmed s → requireStr (.str s) label = .ok s :=
    fun h => requireStr_trimmed h
  unfold parseJournal
  rw [hkeys]
  simp only [Journal.fields, Dispatch.field_cons, String.reduceEq, if_true, if_false, hread hname,
    hread h.effect, hread h.dispatch, hread h.kind, hread (trimmed_tokenHex h.attempt),
    strOrEmpty_str]
  simp [hphase, isOne, bind, Except.bind, pure, Except.pure]

/-! ### The discipline -/

/-- The journal that is whole in the file of a directory. -/
def journalOf (s : Shared) (dir : String) : Option Journal :=
  match s.files dir .journal with
  | some (.doc (.obj raw)) => (parseJournal raw).toOption
  | _ => none

/-- The journal is about another effect than the one it is read for, and is neither sending nor
    ambiguous. -/
def mismatched (s : Shared) : Call → Bool
  | .readJournal dir effectSha256 => (journalOf s dir).any fun j =>
    (j.phase = .intent || j.phase = .receipt) && j.effectSha256 ≠ effectSha256
  | _ => false

/-- The journal holds a receipt for the effect that it is read for. -/
def receipted (s : Shared) : Call → Bool
  | .readJournal dir effectSha256 => (journalOf s dir).any fun j =>
    j.phase = .receipt && j.effectSha256 = effectSha256
  | _ => false

/-- The runs in which no process makes a call that is barred to it. -/
def worldOf (bar : ℕ → Shared → Call → Bool) : World Shared Call.Answer Choice where
  exec pid s c x := if bar pid s c then none else exec pid s c x
  crash := crash

/-- The last journal of a directory, and the process that journalled SENDING. -/
structure Slot where
  journal : Journal
  sender : Option ℕ

/-- Who owns each dispatch, and what the journal of each directory is known to be at. -/
structure Ghost where
  own : Dispatch.Ghost
  slot : String → Option Slot
  home : String → Option String

/-- What the runs share, with the ghost state. -/
abbrev State := Shared × Ghost

/-- The part of a state that the dispatch operations work on. -/
def markersOf (w : State) : Dispatch.Markers × Dispatch.Ghost := (w.1.markers, w.2.own)

/-- The send returned a receipt that can be verified. -/
def Sent.Verified (x : Sent) (receipt : String) : Prop :=
  ∃ e, x.reply = .ok e ∧ e.outcome = "SUCCEEDED" ∧ e.receipt = receipt ∧ receipt ≠ "" ∧
    (x.kind = .notifyOwner → e.level = "INFO")

/-- The send was made for the token that its effect and its attempt own. -/
def Sent.Owns (x : Sent) (w : State) : Prop :=
  ∃ token b, Dispatch.safeDispatchToken x.target.dispatchId = some token ∧
    Dispatch.effectBinding (canonicalRequestSha256 x.effect) x.target.attemptId = some b ∧
    Dispatch.OwnedBy token (some b) (markersOf w)

/-- What the sends say of a journal of a directory. -/
structure Slot.Fits (calm : Bool) (slot : Slot) (dir : String) (w : State) : Prop where
  clean : slot.journal.Clean
  home : w.2.home slot.journal.attemptId = some dir
  sender : ∀ x ∈ w.1.sent, x.target.dir = dir →
    slot.sender = some x.pid ∧ x.target.attemptId = slot.journal.attemptId
  intent : slot.journal.phase = .intent → slot.sender = none ∧ ∀ x ∈ w.1.sent, x.target.dir ≠ dir
  receipt : slot.journal.phase = .receipt → ∃ x ∈ w.1.sent, x.target.dir = dir ∧
    canonicalRequestSha256 x.effect = slot.journal.effectSha256 ∧ x.Verified slot.journal.receipt
  ambiguous : calm = true → slot.journal.phase = .ambiguous → ∃ x ∈ w.1.sent, x.target.dir = dir ∧
    ∀ receipt, ¬ x.Verified receipt

/-- The last journal of a directory is in its file, at least in part. -/
structure Slot.Holds (calm : Bool) (slot : Slot) (dir : String) (w : State) : Prop where
  file : w.1.files dir .journal = some (.doc (.obj slot.journal.fields)) ∨
    w.1.files dir .journal = some .torn
  fits : slot.Fits calm dir w

/-- What the state says of a directory. -/
def SlotOk (calm : Bool) (dir : String) (w : State) : Prop :=
  match w.2.slot dir with
  | none => w.1.files dir .journal = none ∧ ∀ x ∈ w.1.sent, x.target.dir ≠ dir
  | some slot => slot.Holds calm dir w

/-- The markers and the journals are as the ghost state has them. -/
structure Inv (calm : Bool) (w : State) : Prop where
  markers : Dispatch.Inv (markersOf w)
  slots : ∀ dir, SlotOk calm dir w
  once : w.1.sent.Pairwise fun x y => x.target.dir ≠ y.target.dir
  owns : ∀ x ∈ w.1.sent, w.2.home x.target.attemptId = some x.target.dir ∧ x.Owns w
  used : ∀ a dir, w.2.home a = some dir → a ∈ w.1.attempts ∧ isTokenHex a = true

/-- What goes up: the owners of the markers, the homes of the attempts, the sends, the sender of a
    directory, and in a calm world the journals with a receipt. -/
structure Up (calm : Bool) (w w' : State) : Prop where
  markers : Dispatch.Up (markersOf w) (markersOf w')
  home : ∀ a dir, w.2.home a = some dir → w'.2.home a = some dir
  sent : ∀ x ∈ w.1.sent, x ∈ w'.1.sent
  slot : ∀ dir slot, w.2.slot dir = some slot → ∃ slot', w'.2.slot dir = some slot' ∧
    (∀ p, slot.sender = some p → slot'.sender = some p) ∧
    (calm = true → slot.journal.phase = .receipt → slot'.journal = slot.journal ∧
      w'.1.files dir .journal = w.1.files dir .journal)

/-- The journal of a directory, its lock and its sends are as they were. -/
structure Same (dir : String) (w w' : State) : Prop where
  lock : w'.1.locks dir = w.1.locks dir
  file : w'.1.files dir .journal = w.1.files dir .journal
  slot : w'.2.slot dir = w.2.slot dir
  sent : ∀ x ∈ w'.1.sent, x.target.dir = dir → x ∈ w.1.sent

/-- What the other runs may do between two calls of the run `pid`. -/
structure Rely (calm : Bool) (pid : ℕ) (w w' : State) : Prop where
  markers : Dispatch.Rely pid (markersOf w) (markersOf w')
  up : Up calm w w'
  held : ∀ dir, w.1.locks dir = some pid → Same dir w w'

/-- What a process that works on a directory knows to stay: with the lock, the directory. -/
structure Stay (calm : Bool) (pid : ℕ) (dir : String) (w w' : State) : Prop where
  up : Up calm w w'
  held : w.1.locks dir = some pid → Same dir w w'

variable {bar : ℕ → Shared → Call → Bool} {calm : Bool} {dir : String} {pid : ℕ} {w w' w'' : State}

theorem Up.refl (calm : Bool) (w : State) : Up calm w w :=
  ⟨Dispatch.Up.refl _, fun _ _ h => h, fun _ h => h, fun _ slot h =>
    ⟨slot, h, fun _ h => h, fun _ _ => ⟨rfl, rfl⟩⟩⟩

theorem Up.trans (h : Up calm w w') (h' : Up calm w' w'') : Up calm w w'' where
  markers := h.markers.trans h'.markers
  home a dir ha := h'.home a dir (h.home a dir ha)
  sent x hx := h'.sent x (h.sent x hx)
  slot dir slot hs := by
    obtain ⟨slot', hs', hsender, hreceipt⟩ := h.slot dir slot hs
    obtain ⟨slot'', hs'', hsender', hreceipt'⟩ := h'.slot dir slot' hs'
    refine ⟨slot'', hs'', fun p hp => hsender' p (hsender p hp), fun hc hp => ?_⟩
    obtain ⟨hj, hfile⟩ := hreceipt hc hp
    obtain ⟨hj', hfile'⟩ := hreceipt' hc (hj ▸ hp)
    exact ⟨hj'.trans hj, hfile'.trans hfile⟩

theorem Same.refl (dir : String) (w : State) : Same dir w w := ⟨rfl, rfl, rfl, fun _ hx _ => hx⟩

theorem Same.trans (h : Same dir w w') (h' : Same dir w' w'') : Same dir w w'' where
  lock := h'.lock.trans h.lock
  file := h'.file.trans h.file
  slot := h'.slot.trans h.slot
  sent x hx hd := h.sent x (h'.sent x hx hd) hd

theorem Rely.refl (calm : Bool) (pid : ℕ) (w : State) : Rely calm pid w w :=
  ⟨Dispatch.Rely.refl _ _, Up.refl calm w, fun dir _ => Same.refl dir w⟩

theorem Rely.trans (h : Rely calm pid w w') (h' : Rely calm pid w' w'') : Rely calm pid w w'' where
  markers := h.markers.trans h'.markers
  up := h.up.trans h'.up
  held dir hl := (h.held dir hl).trans (h'.held dir ((h.held dir hl).lock.trans hl))

theorem Stay.refl (calm : Bool) (pid : ℕ) (dir : String) (w : State) : Stay calm pid dir w w :=
  ⟨Up.refl calm w, fun _ => Same.refl dir w⟩

theorem Stay.trans (h : Stay calm pid dir w w') (h' : Stay calm pid dir w' w'') :
    Stay calm pid dir w w'' where
  up := h.up.trans h'.up
  held hl := (h.held hl).trans (h'.held ((h.held hl).lock.trans hl))

theorem Rely.stay (h : Rely calm pid w w') : Stay calm pid dir w w' := ⟨h.up, h.held dir⟩

/-- A lock that is held is held after whatever stays. -/
theorem Stay.lock (h : Stay calm pid dir w w') (hl : w.1.locks dir = some pid) :
    w'.1.locks dir = some pid := (h.held hl).lock.trans hl

theorem slotOk_none (h : w.2.slot dir = none) : SlotOk calm dir w ↔
    w.1.files dir .journal = none ∧ ∀ x ∈ w.1.sent, x.target.dir ≠ dir := by
  simp only [SlotOk, h]

theorem slotOk_some {slot : Slot} (h : w.2.slot dir = some slot) :
    SlotOk calm dir w ↔ slot.Holds calm dir w := by
  simp only [SlotOk, h]

theorem Slot.Fits.congr {slot : Slot} (h : slot.Fits calm dir w)
    (hsent : ∀ x : Sent, x.target.dir = dir → (x ∈ w'.1.sent ↔ x ∈ w.1.sent))
    (hhome : ∀ a, w.2.home a = some dir → w'.2.home a = some dir) : slot.Fits calm dir w' where
  clean := h.clean
  home := hhome _ h.home
  sender x hx hd := h.sender x ((hsent x hd).mp hx) hd
  intent hp := ⟨(h.intent hp).1, fun x hx hd => (h.intent hp).2 x ((hsent x hd).mp hx) hd⟩
  receipt hp := by
    obtain ⟨x, hx, hd, hrest⟩ := h.receipt hp
    exact ⟨x, (hsent x hd).mpr hx, hd, hrest⟩
  ambiguous hc hp := by
    obtain ⟨x, hx, hd, hrest⟩ := h.ambiguous hc hp
    exact ⟨x, (hsent x hd).mpr hx, hd, hrest⟩

/-- What a state says of a directory depends on its journal and its sends. -/
theorem SlotOk.congr (h : SlotOk calm dir w) (hslot : w'.2.slot dir = w.2.slot dir)
    (hfile : w'.1.files dir .journal = w.1.files dir .journal)
    (hsent : ∀ x : Sent, x.target.dir = dir → (x ∈ w'.1.sent ↔ x ∈ w.1.sent))
    (hhome : ∀ a, w.2.home a = some dir → w'.2.home a = some dir) : SlotOk calm dir w' := by
  cases hs : w.2.slot dir with
  | none =>
    obtain ⟨hnone, hnever⟩ := (slotOk_none hs).mp h
    exact (slotOk_none (hslot.trans hs)).mpr
      ⟨hfile.trans hnone, fun x hx hd => hnever x ((hsent x hd).mp hx) hd⟩
  | some slot =>
    have hold := (slotOk_some hs).mp h
    exact (slotOk_some (hslot.trans hs)).mpr
      ⟨by rw [hfile]; exact hold.file, hold.fits.congr hsent hhome⟩

/-! ### Steps that leave the journals and the sends alone -/

/-- Nothing changed that the invariant is about. -/
structure Still (s s' : Shared) : Prop where
  markers : s'.markers = s.markers
  journal : ∀ dir, s'.files dir .journal = s.files dir .journal
  attempts : s'.attempts = s.attempts
  sent : s'.sent = s.sent

variable {s s' : Shared} {g : Ghost}

theorem Still.inv (h : Still s s') (hi : Inv calm (s, g)) : Inv calm (s', g) where
  markers := by simpa [markersOf, h.markers] using hi.markers
  slots dir := (hi.slots dir).congr rfl (h.journal dir) (fun x _ => by simp only [h.sent])
    fun _ ha => ha
  once := by simpa only [h.sent] using hi.once
  owns := by
    have hm : markersOf (s', g) = markersOf (s, g) := by simp [markersOf, h.markers]
    simpa only [h.sent, Sent.Owns, hm] using hi.owns
  used := by simpa only [h.attempts] using hi.used

theorem Still.up (h : Still s s') : Up calm (s, g) (s', g) where
  markers := by
    have hm : markersOf (s', g) = markersOf (s, g) := by simp [markersOf, h.markers]
    rw [hm]
    exact Dispatch.Up.refl _
  home _ _ ha := ha
  sent x hx := by simpa only [h.sent] using hx
  slot _ slot hs := ⟨slot, hs, fun _ hp => hp, fun _ _ => ⟨rfl, h.journal _⟩⟩

theorem Still.same (h : Still s s') (hl : s'.locks dir = s.locks dir) : Same dir (s, g) (s', g) :=
  ⟨hl, h.journal dir, rfl, fun x hx _ => by simpa only [h.sent] using hx⟩

/-- What another process sees of such a step, when it keeps the locks of that process. -/
theorem Still.rely (h : Still s s') {q : ℕ}
    (hl : ∀ dir, s.locks dir = some q → s'.locks dir = s.locks dir) : Rely calm q (s, g) (s', g) where
  markers := by
    have hm : markersOf (s', g) = markersOf (s, g) := by simp [markersOf, h.markers]
    rw [hm]
    exact Dispatch.Rely.refl _ _
  up := h.up
  held dir hd := h.same (hl dir hd)

theorem still_setLock (s : Shared) (dir : String) (holder : Option ℕ) :
    Still s (setLock s dir holder) := ⟨rfl, fun _ => rfl, rfl, rfl⟩

theorem still_setFile (s : Shared) (dir : String) {file : StateFile} (stored : Stored)
    (hf : file ≠ .journal) : Still s (setFile s dir file stored) := by
  refine ⟨rfl, fun d => ?_, rfl, rfl⟩
  by_cases hd : d = dir
  · subst hd
    simp [setFile, Ne.symm hf]
  · simp [setFile, hd]

theorem still_unlock (pid : ℕ) (s : Shared) (dir : String) : Still s (unlock pid s dir) := by
  unfold unlock
  split
  · exact still_setLock s dir none
  · exact ⟨rfl, fun _ => rfl, rfl, rfl⟩

theorem locks_unlock {q : ℕ} (hq : q ≠ pid) {d : String} (h : s.locks d = some q) :
    (unlock pid s dir).locks d = s.locks d := by
  unfold unlock
  split
  · next hl =>
    have hd : d ≠ dir := by
      rintro rfl
      rw [hl] at h
      exact hq (Option.some.inj h).symm
    simp [setLock, hd]
  · rfl

/-- The invariant, without the locks that a process held when it ended. -/
theorem Inv.crash (hi : Inv calm (s, g)) (pid : ℕ) : Inv calm (crash pid s, g) := by
  have hstill : Still { s with markers := Dispatch.crash pid s.markers } (Host.crash pid s) :=
    ⟨rfl, fun _ => rfl, rfl, rfl⟩
  refine hstill.inv ?_
  exact {
    markers := hi.markers.crash pid
    slots := fun dir => (hi.slots dir).congr rfl rfl (fun _ _ => Iff.rfl) fun _ ha => ha
    once := hi.once
    owns := hi.owns
    used := hi.used }

theorem rely_crash {q : ℕ} (hq : q ≠ pid) : Rely calm q (s, g) (crash pid s, g) where
  markers := Dispatch.rely_crash (w := markersOf (s, g)) hq
  up := ⟨Dispatch.Up.refl (markersOf (s, g)), fun _ _ ha => ha, fun _ hx => hx,
    fun _ slot hs => ⟨slot, hs, fun _ hp => hp, fun _ _ => ⟨rfl, rfl⟩⟩⟩
  held dir hd := by
    refine ⟨?_, rfl, rfl, fun _ hx _ => hx⟩
    have hne : s.locks dir ≠ some pid := by
      rw [hd]
      simpa using hq
    simp [crash, hne]

/-- A journal was written with phase SENDING by the process. -/
def Tells (pid : ℕ) : (c : Call) → c.Answer → State → Prop
  | .replace dir .journal payload, _, w => ∀ j : Journal, payload = j.fields →
      j.phase = .sending → w.1.files dir .journal = some (.doc (.obj payload)) →
        ∃ slot, w.2.slot dir = some slot ∧ slot.sender = some pid
  | _, _, _ => True

/-- How runs treat each other. -/
def discipline (bar : ℕ → Shared → Call → Bool) (calm : Bool) : Discipline (worldOf bar) Json Ghost where
  inv := Inv calm
  rely := Rely calm
  up := Up calm
  tells pid _ := Tells pid
  rely_refl := Rely.refl calm
  rely_trans _ _ _ _ h h' := h.trans h'
  up_refl := Up.refl calm
  up_trans _ _ _ h h' := h.trans h'
  crash pid _ g h := ⟨g, h.crash pid, fun _ hq => rely_crash hq,
    (rely_crash (q := pid + 1) (Nat.succ_ne_self pid)).up⟩

/-- Under the lock, a journal that fits goes on to fit. -/
theorem Slot.Fits.stay {slot : Slot} (h : slot.Fits calm dir w) (hs : Stay calm pid dir w w')
    (hl : w.1.locks dir = some pid) : slot.Fits calm dir w' :=
  h.congr (fun x hd => ⟨fun hx => (hs.held hl).sent x hx hd, hs.up.sent x⟩) fun a => hs.up.home a dir

/-! ### Rules for the calls -/

variable {α : Type} {task : Json} {Q : α → State → Prop}

/-- The program keeps the discipline, and `Q` holds of what it returns. -/
abbrev Keeps {α : Type} (bar : ℕ → Shared → Call → Bool) (calm : Bool) (task : Json) (pid : ℕ)
    (Q : α → State → Prop) (p : Program α) (w : State) : Prop :=
  (discipline bar calm).Safe task Q pid p w

theorem exec_worldOf {c : Call} {x : Choice} {r : c.Answer}
    (h : (worldOf bar).exec pid s c x = some (r, s')) :
    exec pid s c x = some (r, s') ∧ bar pid s c = false := by
  simp only [worldOf] at h
  split at h
  · cases h
  · next hbar => exact ⟨h, by simpa using hbar⟩

theorem keeps_ret {a : α} (h : ∀ w', Up calm w w' → Q a w') : Keeps bar calm task pid Q (.ret a) w :=
  Discipline.Safe.ret fun w' hr => h w' hr.up

/-- The calls that leave the locks, the journals, the markers, the attempts and the sends alone. -/
def Call.quiet : Call → Bool
  | .stateRoot | .collect _ | .mkdir _ | .confine _ | .read _ _ | .readJournal _ _
  | .telegramConfigured | .githubConfigured | .verifyDispatch _ | .authorize _ _
  | .evaluateWrite _ => true
  | .replace _ file _ => file ≠ .journal
  | _ => false

theorem exec_quiet {c : Call} {x : Choice} {r : c.Answer} (hc : c.quiet = true)
    (h : exec pid s c x = some (r, s')) : Still s s' ∧ s'.locks = s.locks := by
  have hrefl : Still s s ∧ s.locks = s.locks := ⟨⟨rfl, fun _ => rfl, rfl, rfl⟩, rfl⟩
  cases c <;> simp only [Call.quiet, Bool.false_eq_true] at hc <;> cases x <;>
    simp only [exec, reduceCtorEq, Option.some.injEq, Prod.mk.injEq] at h
  case replace.replace dir file payload kept raised =>
    have hf : file ≠ .journal := by simpa using hc
    cases kept with
    | old =>
      simp only at h
      split at h
      · cases h
      · cases h
        exact hrefl
    | whole =>
      cases h
      exact ⟨still_setFile s dir _ hf, rfl⟩
    | torn =>
      cases h
      exact ⟨still_setFile s dir _ hf, rfl⟩
  all_goals
    obtain ⟨-, rfl⟩ := h
    exact hrefl

theorem tells_quiet {c : Call} (hc : c.quiet = true) (r : c.Answer) (w : State) :
    Tells pid c r w := by
  cases c with
  | replace dir file payload =>
    cases file with
    | journal => cases hc
    | _ => trivial
  | _ => trivial

theorem keeps_quiet {c : Call} {k : c.Answer → Program α} (hc : c.quiet = true) (dir : String)
    (h : ∀ w' w'' x r, Stay calm pid dir w w' → Stay calm pid dir w w'' → Inv calm w'' →
      exec pid w'.1 c x = some (r, w''.1) → bar pid w'.1 c = false → Inv calm w' →
        w''.2 = w'.2 → Keeps bar calm task pid Q (k r) w'') :
    Keeps bar calm task pid Q (.call c k) w := by
  rintro ⟨s, g⟩ hr hi x r s' he
  obtain ⟨hexec, hbar⟩ := exec_worldOf he
  obtain ⟨hstill, hlocks⟩ := exec_quiet hc hexec
  have hrely : ∀ q, Rely calm q (s, g) (s', g) := fun q =>
    hstill.rely fun dir _ => congrFun hlocks dir
  exact ⟨g, hstill.inv hi, fun q _ => hrely q, hstill.up, tells_quiet hc r _,
    h (s, g) (s', g) x r hr.stay (hr.stay.trans (hrely pid).stay) (hstill.inv hi) hexec hbar hi rfl⟩

/-! ### Rules for the steps under a lock -/

/-- One own step of a process, seen from the others, which do not hold the lock of its directory. -/
theorem rely_other {q : ℕ} (hmarkers : markersOf w' = markersOf w) (hup : Up calm w w')
    (hsame : ∀ d, d ≠ dir → Same d w w') (hl : w.1.locks dir ≠ some q) : Rely calm q w w' where
  markers := by
    rw [hmarkers]
    exact Dispatch.Rely.refl _ _
  up := hup
  held d hd := hsame d fun h => hl (h ▸ hd)

theorem keeps_acquire {k : Except Failure Bool → Program α}
    (hok : ∀ w', Up calm w w' → Inv calm w' → w'.1.locks dir = some pid →
      Keeps bar calm task pid Q (k (.ok true)) w')
    (hno : ∀ w' r, Up calm w w' → Inv calm w' → r ≠ .ok true → Keeps bar calm task pid Q (k r) w') :
    Keeps bar calm task pid Q (.call (.acquire dir) k) w := by
  rintro ⟨s, g⟩ hr hi x r s' he
  obtain ⟨hexec, -⟩ := exec_worldOf he
  have hrefused : r ≠ .ok true → s' = s → ∃ g', Inv calm (s', g') ∧
      (∀ q, q ≠ pid → Rely calm q (s, g) (s', g')) ∧ Up calm (s, g) (s', g') ∧ True ∧
        Keeps bar calm task pid Q (k r) (s', g') := by
    rintro hne rfl
    exact ⟨g, hi, fun q _ => Rely.refl calm q _, Up.refl calm _, trivial, hno _ r hr.up hi hne⟩
  cases x with
  | fail e =>
    cases hexec
    exact hrefused (by simp) rfl
  | go =>
    cases hl : s.locks dir with
    | some q =>
      simp only [exec, hl, Option.some.injEq, Prod.mk.injEq] at hexec
      obtain ⟨rfl, rfl⟩ := hexec
      exact hrefused (by simp) rfl
    | none =>
      simp only [exec, hl, Option.some.injEq, Prod.mk.injEq] at hexec
      obtain ⟨rfl, rfl⟩ := hexec
      have hstill := still_setLock s dir (some pid)
      refine ⟨g, hstill.inv hi, fun q _ => hstill.rely fun d hd => ?_, hstill.up, trivial, ?_⟩
      · have hne : d ≠ dir := by
          rintro rfl
          rw [hl] at hd
          cases hd
        simp [setLock, hne]
      · exact hok _ (hr.up.trans hstill.up) (hstill.inv hi) (by simp [setLock])
  | _ => cases hexec

theorem keeps_release {k : Except Failure Unit → Program α}
    (h : ∀ w' r, Up calm w w' → Inv calm w' → Keeps bar calm task pid Q (k r) w') :
    Keeps bar calm task pid Q (.call (.release dir) k) w := by
  rintro ⟨s, g⟩ hr hi x r s' he
  obtain ⟨hexec, -⟩ := exec_worldOf he
  have hs : s' = unlock pid s dir := by
    cases x <;> simp only [exec, reduceCtorEq, Option.some.injEq, Prod.mk.injEq] at hexec
    all_goals exact hexec.2.symm
  subst hs
  have hstill := still_unlock pid s dir
  exact ⟨g, hstill.inv hi, fun q hq => hstill.rely fun d hd => locks_unlock hq hd, hstill.up, trivial,
    h _ r (hr.up.trans hstill.up) (hstill.inv hi)⟩

/-- A new attempt id is at home in the directory that it is made for. -/
theorem keeps_tokenHex {k : String → Program α}
    (h : ∀ w' a, Stay calm pid dir w w' → Inv calm w' → isTokenHex a = true →
      w'.2.home a = some dir → Keeps bar calm task pid Q (k a) w') :
    Keeps bar calm task pid Q (.call .tokenHex k) w := by
  rintro ⟨s, g⟩ hr hi x a s' he
  obtain ⟨hexec, -⟩ := exec_worldOf he
  cases x with
  | text b =>
    simp only [exec, Option.ite_none_right_eq_some, Option.some.injEq, Prod.mk.injEq] at hexec
    obtain ⟨⟨htoken, hnew⟩, rfl, rfl⟩ := hexec
    -- the ghost notes the directory for which the new id was made
    let g' : Ghost := { g with home := Function.update g.home b (some dir) }
    have hhome : ∀ a d, g.home a = some d → g'.home a = some d := by
      intro a d ha
      have hne : a ≠ b := by
        rintro rfl
        exact hnew (hi.used a d ha).1
      simpa [g', hne] using ha
    have hinv : Inv calm ({ s with attempts := b :: s.attempts }, g') := {
      markers := hi.markers
      slots := fun d => (hi.slots d).congr rfl rfl (fun _ _ => Iff.rfl) fun a ha => hhome a d ha
      once := hi.once
      owns := fun x hx => ⟨hhome _ _ (hi.owns x hx).1, (hi.owns x hx).2⟩
      used := fun a d ha => by
        by_cases hab : a = b
        · subst hab
          exact ⟨List.mem_cons_self, htoken⟩
        · have ha' : g.home a = some d := by simpa [g', hab] using ha
          exact ⟨List.mem_cons_of_mem _ (hi.used a d ha').1, (hi.used a d ha').2⟩ }
    have hup : Up calm (s, g) ({ s with attempts := b :: s.attempts }, g') :=
      ⟨Dispatch.Up.refl (markersOf (s, g)), hhome, fun _ hx => hx,
        fun _ slot hs => ⟨slot, hs, fun _ hp => hp, fun _ _ => ⟨rfl, rfl⟩⟩⟩
    have hsame : ∀ d, Same d (s, g) ({ s with attempts := b :: s.attempts }, g') :=
      fun _ => ⟨rfl, rfl, rfl, fun _ hx _ => hx⟩
    exact ⟨g', hinv, fun q _ => ⟨Dispatch.Rely.refl q (markersOf (s, g)), hup, fun d _ => hsame d⟩, hup,
      trivial, h _ b (hr.stay.trans ⟨hup, fun _ => hsame dir⟩) hinv htoken (by simp [g'])⟩
  | _ => cases hexec

theorem Journal.fields_inj {j j' : Journal} (he : j.fields = j'.fields) : j = j' := by
  have hname : ∀ p p' : Phase, p.name = p'.name → p = p' := by
    intro p p'
    cases p <;> cases p' <;> decide
  cases j
  cases j'
  simp only [Journal.fields, List.cons.injEq, Prod.mk.injEq, true_and, and_true, Json.str.injEq] at he
  obtain ⟨hp, rfl, rfl, rfl, rfl, rfl⟩ := he
  rw [hname _ _ hp]

/-- The state after a journal was written, whole or torn. -/
def journalled (w : State) (dir : String) (stored : Stored) (slot : Slot) : State :=
  (setFile w.1 dir .journal stored, { w.2 with slot := Function.update w.2.slot dir (some slot) })

theorem journalled_slot {stored : Stored} {slot : Slot} :
    (journalled w dir stored slot).2.slot dir = some slot := by
  simp [journalled]

theorem journalled_file {stored : Stored} {slot : Slot} :
    (journalled w dir stored slot).1.files dir .journal = some stored := by
  simp [journalled, setFile]

theorem same_journalled {stored : Stored} {slot : Slot} {d : String} (hd : d ≠ dir) :
    Same d w (journalled w dir stored slot) :=
  ⟨rfl, by simp [journalled, setFile, hd], by simp [journalled, hd], fun _ hx _ => hx⟩

theorem Inv.journalled {stored : Stored} {slot : Slot} (hi : Inv calm w)
    (hfits : slot.Fits calm dir w)
    (hstored : stored = .doc (.obj slot.journal.fields) ∨ stored = .torn) :
    Inv calm (journalled w dir stored slot) where
  markers := hi.markers
  slots d := by
    by_cases hd : d = dir
    · subst hd
      refine (slotOk_some journalled_slot).mpr ⟨?_, hfits.congr (fun _ _ => Iff.rfl) fun _ ha => ha⟩
      rw [journalled_file]
      rcases hstored with rfl | rfl
      · exact .inl rfl
      · exact .inr rfl
    · have hsame : Same d w (Host.journalled w dir stored slot) := same_journalled hd
      exact (hi.slots d).congr hsame.slot hsame.file (fun _ _ => Iff.rfl) fun _ ha => ha
  once := hi.once
  owns := hi.owns
  used := hi.used

/-- A journal that can come after another: the sender stays, SENDING is journalled once, and in a calm
    world a receipt is the last. -/
structure Slot.Next (calm : Bool) (old slot : Slot) : Prop where
  sender : ∀ p, old.sender = some p → slot.sender = some p
  sending : slot.journal.phase = .sending → old.journal.phase ≠ .sending
  receipt : calm = true → old.journal.phase ≠ .receipt

theorem up_journalled {stored : Stored} {slot : Slot}
    (hnext : ∀ old, w.2.slot dir = some old → old.Next calm slot) :
    Up calm w (journalled w dir stored slot) where
  markers := Dispatch.Up.refl (markersOf w)
  home _ _ ha := ha
  sent _ hx := hx
  slot d old hold := by
    by_cases hd : d = dir
    · subst hd
      exact ⟨slot, journalled_slot, (hnext old hold).sender,
        fun hc hp => absurd hp ((hnext old hold).receipt hc)⟩
    · exact ⟨old, (same_journalled hd).slot.trans hold, fun _ hp => hp,
        fun _ _ => ⟨rfl, (same_journalled hd).file⟩⟩

/-- The process that holds the lock of a directory commits a journal that fits. -/
theorem keeps_commit {k : Except Failure Unit → Program α} {slot : Slot}
    (hl : w.1.locks dir = some pid) (hfits : slot.Fits calm dir w)
    (hnext : ∀ old, w.2.slot dir = some old → old.Next calm slot)
    (hsending : slot.journal.phase = .sending → slot.sender = some pid)
    (hok : ∀ w', Up calm w w' → Inv calm w' → w'.1.locks dir = some pid →
      w'.2.slot dir = some slot → (∀ x ∈ w'.1.sent, x.target.dir = dir → x ∈ w.1.sent) →
        Keeps bar calm task pid Q (k (.ok ())) w')
    (herror : ∀ w' e, Up calm w w' → Inv calm w' → Keeps bar calm task pid Q (k (.error e)) w') :
    Keeps bar calm task pid Q (.call (.replace dir .journal slot.journal.fields) k) w := by
  intro w' hr hi x r s' he
  obtain ⟨hexec, -⟩ := exec_worldOf he
  have hstay : Stay calm pid dir w w' := hr.stay
  have hsame := hstay.held hl
  have hl' := hstay.lock hl
  have hfits' := hfits.stay hstay hl
  -- Where nothing was written, the last journal is an older one, which is not SENDING as well.
  have hold : s' = w'.1 → (∃ e, r = .error e) → ∃ g, Inv calm (s', g) ∧
      (∀ q, q ≠ pid → Rely calm q w' (s', g)) ∧ Up calm w' (s', g) ∧
      Tells pid (.replace dir .journal slot.journal.fields) r (s', g) ∧
        Keeps bar calm task pid Q (k r) (s', g) := by
    rintro rfl ⟨e, rfl⟩
    refine ⟨w'.2, hi, fun q _ => Rely.refl calm q w', Up.refl calm w', fun j hj hphase hfile => ?_,
      herror w' e hr.up hi⟩
    exfalso
    have hjournal := Journal.fields_inj hj
    have hslot := hi.slots dir
    cases hs : w'.2.slot dir with
    | none =>
      rw [((slotOk_none hs).mp hslot).1] at hfile
      cases hfile
    | some old =>
      obtain ⟨hfile', hold⟩ := (slotOk_some hs).mp hslot
      rw [show w'.1.files dir .journal = _ from hfile] at hfile'
      rcases hfile' with hdoc | htorn
      · have hfields : slot.journal.fields = old.journal.fields := by
          simpa using hdoc
        have heq := Journal.fields_inj hfields
        refine (hnext old (hsame.slot ▸ hs)).sending (hjournal ▸ hphase) ?_
        rw [← heq, hjournal]
        exact hphase
      · cases htorn
  have hnew : ∀ stored, stored = .doc (.obj slot.journal.fields) ∨ stored = .torn →
      s' = setFile w'.1 dir .journal stored → ∃ g, Inv calm (s', g) ∧
      (∀ q, q ≠ pid → Rely calm q w' (s', g)) ∧ Up calm w' (s', g) ∧
      Tells pid (.replace dir .journal slot.journal.fields) r (s', g) ∧
        Keeps bar calm task pid Q (k r) (s', g) := by
    rintro stored hstored rfl
    have hinv := hi.journalled hfits' hstored
    have hup : Up calm w' (journalled w' dir stored slot) :=
      up_journalled fun old ho => hnext old (hsame.slot ▸ ho)
    refine ⟨(journalled w' dir stored slot).2, hinv, fun q hq => rely_other rfl hup
      (fun d hd => same_journalled hd) ?_, hup, fun j hj hphase _ => ?_, ?_⟩
    · rw [hl']
      simpa using Ne.symm hq
    · have hjournal := Journal.fields_inj hj
      exact ⟨slot, journalled_slot, hsending (hjournal ▸ hphase)⟩
    · cases r with
      | error e => exact herror _ e (hr.up.trans hup) hinv
      | ok => exact hok _ (hr.up.trans hup) hinv hl' journalled_slot fun x hx hd => hsame.sent x hx hd
  cases x with
  | replace kept raised =>
    simp only [exec] at hexec
    cases kept with
    | old =>
      cases raised with
      | none => simp at hexec
      | some e =>
        simp only [reduceCtorEq, if_false, Option.some.injEq, Prod.mk.injEq] at hexec
        exact hold hexec.2.symm ⟨e, hexec.1.symm⟩
    | whole =>
      simp only [Option.some.injEq, Prod.mk.injEq] at hexec
      exact hnew _ (.inl rfl) hexec.2.symm
    | torn =>
      simp only [Option.some.injEq, Prod.mk.injEq] at hexec
      exact hnew _ (.inr rfl) hexec.2.symm
  | _ => cases hexec

/-- The process that journalled SENDING sends. -/
theorem keeps_send {kind : Result} {effect : Obj} {target : SendFor} {slot : Slot}
    {k : Except Failure Execution → Program α} (hdir : target.dir = dir)
    (hl : w.1.locks dir = some pid) (hslot : w.2.slot dir = some slot)
    (hattempt : target.attemptId = slot.journal.attemptId) (hphase : slot.journal.phase = .sending)
    (hsender : slot.sender = some pid) (hnone : ∀ x ∈ w.1.sent, x.target.dir ≠ dir)
    (howns : ∀ r, Sent.Owns ⟨pid, target, kind, effect, r⟩ w)
    (h : ∀ w' r, Up calm w w' → Inv calm w' → w'.1.locks dir = some pid →
      w'.2.slot dir = some slot → ⟨pid, target, kind, effect, r⟩ ∈ w'.1.sent →
      (∀ x ∈ w'.1.sent, x.target.dir = dir → x = ⟨pid, target, kind, effect, r⟩) →
        Keeps bar calm task pid Q (k r) w') :
    Keeps bar calm task pid Q (.call (.send target kind effect) k) w := by
  intro w' hr hi x r s' he
  obtain ⟨hexec, -⟩ := exec_worldOf he
  have hstay : Stay calm pid dir w w' := hr.stay
  have hsame := hstay.held hl
  have hl' := hstay.lock hl
  have hslot' : w'.2.slot dir = some slot := hsame.slot.trans hslot
  -- nobody else writes to this directory while the lock is held
  have hnone' : ∀ x ∈ w'.1.sent, x.target.dir ≠ dir := fun x hx hd => hnone x (hsame.sent x hx hd) hd
  let sent : Sent := ⟨pid, target, kind, effect, r⟩
  have hs' : s' = addSent w'.1 sent := by
    cases x with
    | reply e =>
      simp only [exec, Option.some.injEq, Prod.mk.injEq] at hexec
      obtain ⟨rfl, rfl⟩ := hexec
      rfl
    | fail e =>
      simp only [exec, Option.some.injEq, Prod.mk.injEq] at hexec
      obtain ⟨rfl, rfl⟩ := hexec
      rfl
    | _ => cases hexec
  subst hs'
  have hmem : ∀ x : Sent, x.target.dir ≠ dir → (x ∈ (addSent w'.1 sent).sent ↔ x ∈ w'.1.sent) := by
    intro x hx
    have hne : x ≠ sent := by
      rintro rfl
      exact hx hdir
    simp [addSent, hne]
  have honly : ∀ x ∈ (addSent w'.1 sent).sent, x.target.dir = dir → x = sent := by
    intro x hx hd
    rcases List.mem_cons.mp hx with rfl | hx
    · rfl
    · exact absurd hd (hnone' x hx)
  have hfits := ((slotOk_some hslot').mp (hi.slots dir)).fits
  -- only SENDING allows a send, which is the phase of this slot
  have hinv : Inv calm (addSent w'.1 sent, w'.2) := {
    markers := hi.markers
    slots := fun d => by
      by_cases hd : d = dir
      · subst hd
        refine (slotOk_some (w := (addSent w'.1 sent, w'.2)) hslot').mpr
          ⟨((slotOk_some hslot').mp (hi.slots d)).file, ?_⟩
        exact {
          clean := hfits.clean
          home := hfits.home
          sender := fun x hx hd => by
            obtain rfl := honly x hx hd
            exact ⟨hsender, hattempt⟩
          intent := fun hp => by rw [hphase] at hp; cases hp
          receipt := fun hp => by rw [hphase] at hp; cases hp
          ambiguous := fun _ hp => by rw [hphase] at hp; cases hp }
      · exact (hi.slots d).congr rfl rfl (fun x hx => hmem x (hx ▸ hd)) fun _ ha => ha
    once := List.pairwise_cons.mpr
      ⟨fun x hx hd => hnone' x hx (hd.symm.trans hdir), hi.once⟩
    owns := fun x hx => by
      rcases List.mem_cons.mp hx with rfl | hx
      · refine ⟨?_, ?_⟩
        · rw [show sent.target.attemptId = slot.journal.attemptId from hattempt,
            show sent.target.dir = dir from hdir]
          exact hfits.home
        · obtain ⟨token, b, htoken, hb, hown⟩ := howns r
          exact ⟨token, b, htoken, hb, hown.up hr.up.markers⟩
      · exact hi.owns x hx
    used := hi.used }
  have hup : Up calm w' (addSent w'.1 sent, w'.2) :=
    ⟨Dispatch.Up.refl (markersOf w'), fun _ _ ha => ha, fun _ hx => List.mem_cons_of_mem _ hx,
      fun _ slot hs => ⟨slot, hs, fun _ hp => hp, fun _ _ => ⟨rfl, rfl⟩⟩⟩
  refine ⟨w'.2, hinv, fun q hq => rely_other rfl hup (fun d (hd : d ≠ dir) => ⟨rfl, rfl, rfl,
    fun x hx hxd => (hmem x (hxd ▸ hd)).mp hx⟩) ?_, hup, trivial, ?_⟩
  · rw [hl']
    simpa using Ne.symm hq
  · exact h _ r (hr.up.trans hup) hinv hl' hslot' List.mem_cons_self honly

/-- An operation on the markers, as a part of a run that works on a directory. -/
theorem keeps_dispatched {P : α → Dispatch.Markers × Dispatch.Ghost → Prop}
    {p : Dispatch.Program α} (dir : String)
    (h : Dispatch.Keeps (fun _ => False) task pid P p (markersOf w)) :
    Keeps bar calm task pid (fun a w' => P a (markersOf w') ∧ Stay calm pid dir w w')
      (dispatched p) w := by
  refine Discipline.Safe.lift (discipline bar calm) markersOf (Stay calm pid dir)
    (fun _ _ _ h h' => h.trans h') (fun w hi => hi.markers) (fun w w' hr => ⟨hr.markers, hr.stay⟩)
    (fun w c x r s hi he => ?_) h (Stay.refl calm pid dir w)
  obtain ⟨hexec, -⟩ := exec_worldOf he
  cases x with
  | dispatch y =>
    obtain ⟨⟨r', markers⟩, hmarkers, heq⟩ := Option.map_eq_some_iff.mp hexec
    obtain ⟨rfl, rfl⟩ := Prod.mk.inj heq
    refine ⟨y, markers, hmarkers, fun g hg hothers hup => ?_⟩
    have howner : ∀ x : Sent, x.Owns w → x.Owns ({ w.1 with markers }, { w.2 with own := g }) := by
      rintro x ⟨token, b, htoken, hb, hown⟩
      exact ⟨token, b, htoken, hb, hown.up hup⟩
    have hinv : Inv calm ({ w.1 with markers }, { w.2 with own := g }) := {
      markers := hg
      slots := fun d => (hi.slots d).congr rfl rfl (fun _ _ => Iff.rfl) fun _ ha => ha
      once := hi.once
      owns := fun x hx => ⟨(hi.owns x hx).1, howner x (hi.owns x hx).2⟩
      used := hi.used }
    have hup' : Up calm w ({ w.1 with markers }, { w.2 with own := g }) :=
      ⟨hup, fun _ _ ha => ha, fun _ hx => hx,
        fun _ slot hs => ⟨slot, hs, fun _ hp => hp, fun _ _ => ⟨rfl, rfl⟩⟩⟩
    have hsame : ∀ d, Same d w ({ w.1 with markers }, { w.2 with own := g }) :=
      fun _ => ⟨rfl, rfl, rfl, fun _ hx _ => hx⟩
    exact ⟨{ w.2 with own := g }, rfl, hinv, fun q hq => ⟨hothers q hq, hup', fun d _ => hsame d⟩, hup',
      trivial, hup', fun _ => hsame dir⟩
  | _ => cases hexec

end DataRelay.Tools.Host
