import DataRelay.Lib.JsonRoundTrip
import DataRelay.Tools.Dispatch

/-! One owner per dispatch, over any interleaving of the operations and with crashes anywhere.

    Beside each marker file stands a ghost record of what the marker is for: its owner, whether it is
    consumed, and the process that is still writing it. The file holds a prefix of the text that goes
    with the record, the whole text once nobody writes. A prefix that is cut short names nobody, so
    an operation that reads a pair of its own has read the whole text. -/

namespace DataRelay.Tools.Dispatch
open Lib

/-! ### What a partial content says -/

/-- What a marker is for; without an owner it was created consumed. -/
structure Own where
  owner : Option Binding
  consumed : Bool
  writer : Option ℕ

/-- The state of the record that its owner has written. -/
def Own.state (o : Own) : RecordState := if o.consumed then .consumed else .reserved

/-- The text that the writers of a marker put down. -/
def Own.text (o : Own) : List Char :=
  match o.owner with
  | none => consumedText
  | some b => bindingText o.state b

theorem Own.text_none {o : Own} (h : o.owner = none) : o.text = consumedText := by
  simp [Own.text, h]

theorem Own.text_some {o : Own} {b : Binding} (h : o.owner = some b) :
    o.text = bindingText o.state b := by
  simp [Own.text, h]

theorem Own.text_ne_nil (o : Own) : o.text ≠ [] := by
  cases ho : o.owner with
  | none => rw [o.text_none ho]; decide
  | some b => rw [o.text_some ho]; simp [bindingText, Json.text]

theorem field_cons (k key : String) (v : Json) (fs : Obj) :
    field ((k, v) :: fs) key = if k = key then v else field fs key := by
  unfold field Json.get?
  by_cases h : k = key <;> simp [List.find?, h]

theorem wf_binding (state : RecordState) (b : Binding) :
    Json.WF (.obj [("state", .str state.name), ("effect_sha256", .str b.effect),
      ("attempt_id", .str b.attempt)]) := by
  simp [Json.WF, Json.WFFields]

/-- A whole text names its pair and its state. -/
theorem parseRecord_bindingText (state : RecordState) (b : Binding) :
    parseRecord (bindingText state b) = ⟨state, some b.effect, some b.attempt⟩ := by
  have hne : bindingText state b ≠ "consumed\n".toList := by simp [bindingText, Json.text]
  have hloads : Json.loads (bindingText state b) = _ := Json.loads_text (wf_binding state b)
  unfold parseRecord
  rw [if_neg hne, hloads]
  cases state <;> simp [field_cons, strOrEmpty_str, RecordState.name]

/-- A text of a pair that is cut short counts as consumed by nobody. -/
theorem parseRecord_take_bindingText {state : RecordState} {b : Binding} {n : ℕ}
    (hn : n < (bindingText state b).length) :
    parseRecord ((bindingText state b).take n) = takenRecord := by
  have hloads : Json.loads ((bindingText state b).take n) = none :=
    Json.loads_text_take (wf_binding state b) hn
  unfold parseRecord
  split
  · rfl
  · rw [hloads]

/-- So does whatever there is of the text of a marker without an owner. -/
theorem parseRecord_take_consumedText (n : ℕ) :
    parseRecord (consumedText.take n) = takenRecord := by
  have hshort : ∀ k ≤ 21, parseRecord (consumedText.take k) = takenRecord := by decide +kernel
  have hlen : consumedText.length = 21 := by decide
  rcases Nat.le_total n 21 with hn | hn
  · exact hshort n hn
  · rw [List.take_of_length_le (by omega), ← List.take_length (l := consumedText), hlen]
    exact hshort 21 (Nat.le_refl _)

theorem not_matches_taken {b : Binding} (hb : b.effect ≠ "") : takenRecord.matches b = false := by
  simp [Record.matches, takenRecord, Ne.symm hb]

/-- Who reads a pair of its own has read the whole text, and is the owner. -/
theorem owner_of_matches {o : Own} {raw : List Char} {b : Binding} (hb : b.effect ≠ "")
    (hraw : raw <+: o.text) (h : (parseRecord raw).matches b = true) :
    o.owner = some b ∧ raw = o.text ∧ (parseRecord raw).state = o.state := by
  rw [List.prefix_iff_eq_take] at hraw
  cases ho : o.owner with
  | none =>
    rw [o.text_none ho] at hraw
    rw [hraw, parseRecord_take_consumedText, not_matches_taken hb] at h
    cases h
  | some b' =>
    rw [o.text_some ho] at hraw ⊢
    by_cases hlen : raw.length < (bindingText o.state b').length
    · rw [hraw, parseRecord_take_bindingText hlen, not_matches_taken hb] at h
      cases h
    · rw [List.take_of_length_le (by omega)] at hraw
      rw [hraw, parseRecord_bindingText] at h ⊢
      simp only [Record.matches, Option.some.injEq, Bool.and_eq_true, decide_eq_true_eq] at h
      obtain ⟨heffect, hattempt⟩ := h
      exact ⟨congrArg some (Binding.mk.injEq .. ▸ ⟨heffect, hattempt⟩), rfl, rfl⟩

/-- Whatever there is of the text of a consumed marker counts as consumed. -/
theorem consumed_of_prefix {o : Own} {raw : List Char} (ho : o.consumed = true)
    (hraw : raw <+: o.text) : (parseRecord raw).state = .consumed := by
  rw [List.prefix_iff_eq_take] at hraw
  cases hown : o.owner with
  | none =>
    rw [hraw, o.text_none hown, parseRecord_take_consumedText]
    rfl
  | some b =>
    have hstate : o.state = .consumed := if_pos ho
    rw [o.text_some hown, hstate] at hraw
    by_cases hlen : raw.length < (bindingText .consumed b).length
    · rw [hraw, parseRecord_take_bindingText hlen]
      rfl
    · rw [hraw, List.take_of_length_le (by omega), parseRecord_bindingText]

/-- `finalize_dispatch` reads a record the way `reserve_dispatch` does. -/
theorem matches_of_ownedState {raw : List Char} {b : Binding} {state : String}
    (h : ownedState raw b = some state) (hs : state = "consumed" ∨ state = "reserved") :
    (parseRecord raw).matches b = true := by
  unfold ownedState at h
  split at h
  · next parsed hloads =>
    split at h
    · next hown =>
      cases h
      have hnone : Json.loads "consumed\n".toList = none := by decide +kernel
      have hne : raw ≠ "consumed\n".toList := by
        rintro rfl
        rw [hnone] at hloads
        cases hloads
      unfold parseRecord
      rw [if_neg hne, hloads]
      rcases hs with hs | hs <;> simp [hs, Record.matches, hown.1, hown.2]
    · cases h
  · cases h

/-! ### The discipline -/

/-- The owner of each token, once a record of it is whole. -/
abbrev Ghost := String → Option Own

/-- A marker holds what its record says it does. -/
structure Own.Holds (o : Own) (m : Marker) : Prop where
  content : m.content <+: o.text
  writing : o.writer ≠ none → m.content.length < o.text.length
  unowned : o.owner = none → o.consumed = true

/-- Every marker holds the record of its owner, or a part of it. -/
def Inv (w : Markers × Ghost) : Prop :=
  ∀ token, match w.1 token, w.2 token with
    | some m, some o => o.Holds m
    | none, none => True
    | _, _ => False

/-- The owner of a marker stays, and what is consumed stays consumed. -/
def Up (w w' : Markers × Ghost) : Prop :=
  ∀ token o, w.2 token = some o →
    ∃ o', w'.2 token = some o' ∧ o'.owner = o.owner ∧ (o.consumed = true → o'.consumed = true)

/-- Another process leaves alone what `pid` writes, and what `pid` holds locked and nobody writes. -/
def Rely (pid : ℕ) (w w' : Markers × Ghost) : Prop :=
  Up w w' ∧ ∀ token m o, w.1 token = some m → w.2 token = some o →
    (o.writer = some pid → w'.2 token = some o ∧ ∃ m', w'.1 token = some m' ∧ m'.content = m.content) ∧
    (m.lock = some pid → ∃ m', w'.1 token = some m' ∧ m'.lock = some pid ∧
      (o.writer = none → w'.2 token = some o ∧ m'.content = m.content))

/-- What a marker is for, in a state and later. -/
def OwnedBy (token : String) (owner : Option Binding) (w : Markers × Ghost) : Prop :=
  ∃ o, w.2 token = some o ∧ o.owner = owner

/-- The token has been consumed by its owner. -/
def Consumed (token : String) (w : Markers × Ghost) : Prop :=
  ∃ o, w.2 token = some o ∧ o.consumed = true

theorem Up.refl (w : Markers × Ghost) : Up w w := fun _ o h => ⟨o, h, rfl, id⟩

theorem Up.trans {w w' w'' : Markers × Ghost} (h : Up w w') (h' : Up w' w'') : Up w w'' := by
  intro token o ho
  obtain ⟨o', ho', howner, hcons⟩ := h token o ho
  obtain ⟨o'', ho'', howner', hcons'⟩ := h' token o' ho'
  exact ⟨o'', ho'', howner'.trans howner, hcons' ∘ hcons⟩

theorem OwnedBy.up {token : String} {owner : Option Binding} {w w' : Markers × Ghost}
    (h : OwnedBy token owner w) (hup : Up w w') : OwnedBy token owner w' := by
  obtain ⟨o, ho, rfl⟩ := h
  obtain ⟨o', ho', howner, -⟩ := hup token o ho
  exact ⟨o', ho', howner⟩

theorem Consumed.up {token : String} {w w' : Markers × Ghost} (h : Consumed token w)
    (hup : Up w w') : Consumed token w' := by
  obtain ⟨o, ho, hc⟩ := h
  obtain ⟨o', ho', -, hcons⟩ := hup token o ho
  exact ⟨o', ho', hcons hc⟩

theorem OwnedBy.unique {token : String} {owner owner' : Option Binding} {w : Markers × Ghost}
    (h : OwnedBy token owner w) (h' : OwnedBy token owner' w) : owner = owner' := by
  obtain ⟨o, ho, rfl⟩ := h
  obtain ⟨o', ho', rfl⟩ := h'
  rw [ho] at ho'
  cases ho'
  rfl

theorem Rely.refl (pid : ℕ) (w : Markers × Ghost) : Rely pid w w :=
  ⟨Up.refl w, fun _ m _ hm ho => ⟨fun _ => ⟨ho, m, hm, rfl⟩, fun hl => ⟨m, hm, hl, fun _ => ⟨ho, rfl⟩⟩⟩⟩

theorem Rely.trans {pid : ℕ} {w w' w'' : Markers × Ghost} (h : Rely pid w w')
    (h' : Rely pid w' w'') : Rely pid w w'' := by
  refine ⟨h.1.trans h'.1, fun token m o hm ho => ⟨fun hw => ?_, fun hl => ?_⟩⟩
  · obtain ⟨ho', m', hm', hc'⟩ := (h.2 token m o hm ho).1 hw
    obtain ⟨ho'', m'', hm'', hc''⟩ := (h'.2 token m' o hm' ho').1 hw
    exact ⟨ho'', m'', hm'', hc''.trans hc'⟩
  · obtain ⟨m', hm', hl', hk⟩ := (h.2 token m o hm ho).2 hl
    obtain ⟨o', ho', -⟩ := h.1 token o ho
    obtain ⟨m'', hm'', hl'', hk'⟩ := (h'.2 token m' o' hm' ho').2 hl'
    refine ⟨m'', hm'', hl'', fun hw => ?_⟩
    obtain ⟨hsame, hc⟩ := hk hw
    rw [hsame] at ho'
    cases ho'
    obtain ⟨hsame', hc'⟩ := hk' hw
    exact ⟨hsame', hc'.trans hc⟩

/-! ### One marker changes -/

section Discipline
variable {token : String} {w : Markers × Ghost} {m m' : Marker} {o o' : Own} {pid : ℕ}

/-- The state after a process put a marker and its record in place. -/
def put (w : Markers × Ghost) (token : String) (m : Marker) (o : Own) : Markers × Ghost :=
  (setMarker w.1 token m, Function.update w.2 token (some o))

@[simp] theorem put_marker (w : Markers × Ghost) (token : String) (m : Marker) (o : Own) :
    (put w token m o).1 token = some m := by
  simp [put, setMarker]

@[simp] theorem put_own (w : Markers × Ghost) (token : String) (m : Marker) (o : Own) :
    (put w token m o).2 token = some o := by
  simp [put]

theorem Inv.holds (h : Inv w) (hm : w.1 token = some m) : ∃ o, w.2 token = some o ∧ o.Holds m := by
  have htoken := h token
  cases ho : w.2 token with
  | none => simp [hm, ho] at htoken
  | some o => exact ⟨o, rfl, by simpa [hm, ho] using htoken⟩

theorem Inv.marker (h : Inv w) (ho : w.2 token = some o) : ∃ m, w.1 token = some m ∧ o.Holds m := by
  have htoken := h token
  cases hm : w.1 token with
  | none => simp [hm, ho] at htoken
  | some m => exact ⟨m, rfl, by simpa [hm, ho] using htoken⟩

theorem Inv.put (h : Inv w) (ho : o.Holds m) : Inv (put w token m o) := by
  intro t
  by_cases ht : t = token
  · subst ht
    simpa [Dispatch.put, setMarker] using ho
  · simpa [Dispatch.put, setMarker, ht] using h t

theorem put_of_ne {t : String} (ht : t ≠ token) :
    (put w token m' o').1 t = w.1 t ∧ (put w token m' o').2 t = w.2 t :=
  ⟨by simp [put, setMarker, ht], by simp [put, ht]⟩

/-- A step on one marker that keeps its owner. -/
theorem up_put (ho : w.2 token = some o) (howner : o'.owner = o.owner)
    (hcons : o.consumed = true → o'.consumed = true) : Up w (put w token m' o') := by
  intro t o₁ ho₁
  by_cases ht : t = token
  · subst ht
    rw [ho] at ho₁
    cases ho₁
    exact ⟨o', put_own .., howner, hcons⟩
  · exact ⟨o₁, (put_of_ne ht).2.trans ho₁, rfl, id⟩

/-- The same step, seen from another process. -/
theorem rely_put {q : ℕ} (hup : Up w (put w token m' o')) (hm : w.1 token = some m)
    (ho : w.2 token = some o) (hwriter : o.writer = some q → o' = o ∧ m'.content = m.content)
    (hlock : m.lock = some q →
      m'.lock = some q ∧ (o.writer = none → o' = o ∧ m'.content = m.content)) :
    Rely q w (put w token m' o') := by
  refine ⟨hup, fun t m₁ o₁ hm₁ ho₁ => ?_⟩
  by_cases ht : t = token
  · subst ht
    rw [hm] at hm₁
    rw [ho] at ho₁
    cases hm₁
    cases ho₁
    refine ⟨fun hw => ?_, fun hl => ?_⟩
    · obtain ⟨rfl, hc⟩ := hwriter hw
      exact ⟨put_own .., m', put_marker .., hc⟩
    · obtain ⟨hl', hk⟩ := hlock hl
      refine ⟨m', put_marker .., hl', fun hw => ?_⟩
      obtain ⟨rfl, hc⟩ := hk hw
      exact ⟨put_own .., hc⟩
  · have hsame : (put w token m' o').1 t = w.1 t ∧ (put w token m' o').2 t = w.2 t := put_of_ne ht
    obtain ⟨hm', ho'⟩ := hsame
    exact ⟨fun _ => ⟨ho'.trans ho₁, m₁, hm'.trans hm₁, rfl⟩,
      fun hl => ⟨m₁, hm'.trans hm₁, hl, fun _ => ⟨ho'.trans ho₁, rfl⟩⟩⟩

/-- A marker is created. -/
theorem rely_new {q : ℕ} (hinv : Inv w) (hm : w.1 token = none) : Rely q w (put w token m' o') := by
  have habsent : w.2 token = none := by
    by_contra h
    obtain ⟨o, ho⟩ := Option.ne_none_iff_exists'.mp h
    obtain ⟨m, hm', -⟩ := hinv.marker ho
    rw [hm] at hm'
    cases hm'
  refine ⟨fun t o₁ ho₁ => ?_, fun t m₁ o₁ hm₁ ho₁ => ?_⟩
  · have ht : t ≠ token := by
      rintro rfl
      rw [habsent] at ho₁
      cases ho₁
    exact ⟨o₁, (put_of_ne ht).2.trans ho₁, rfl, id⟩
  · have ht : t ≠ token := by
      rintro rfl
      rw [hm] at hm₁
      cases hm₁
    have hsame : (put w token m' o').1 t = w.1 t ∧ (put w token m' o').2 t = w.2 t := put_of_ne ht
    obtain ⟨hm', ho'⟩ := hsame
    exact ⟨fun _ => ⟨ho'.trans ho₁, m₁, hm'.trans hm₁, rfl⟩,
      fun hl => ⟨m₁, hm'.trans hm₁, hl, fun _ => ⟨ho'.trans ho₁, rfl⟩⟩⟩

@[simp] theorem unlock_content (pid : ℕ) (m : Marker) : (m.unlock pid).content = m.content := by
  unfold Marker.unlock
  split <;> rfl

theorem unlock_lock {q : ℕ} (hq : q ≠ pid) (h : m.lock = some q) : (m.unlock pid).lock = some q := by
  unfold Marker.unlock
  rw [h, if_neg (by simpa using hq)]
  exact h

/-- A process ends and gives up its locks. -/
theorem rely_crash {q : ℕ} (hq : q ≠ pid) : Rely q w (crash pid w.1, w.2) := by
  refine ⟨Up.refl w, fun token m o hm ho => ?_⟩
  have hm' : crash pid w.1 token = some (m.unlock pid) := by simp [crash, hm]
  exact ⟨fun _ => ⟨ho, _, hm', unlock_content pid m⟩,
    fun hl => ⟨_, hm', unlock_lock hq hl, fun _ => ⟨ho, unlock_content pid m⟩⟩⟩

theorem Inv.crash (h : Inv w) (pid : ℕ) : Inv (crash pid w.1, w.2) := by
  intro token
  have htoken := h token
  cases hm : w.1 token with
  | none => simpa [Dispatch.crash, hm] using htoken
  | some m =>
    obtain ⟨o, ho, hold⟩ := h.holds hm
    have : o.Holds (m.unlock pid) :=
      ⟨by simpa using hold.content, by simpa using hold.writing, hold.unowned⟩
    simpa [Dispatch.crash, hm, ho] using this

variable {τ : Type} {consumes : τ → Prop} {task : τ}

/-- What two answers tell: a consumer created the marker, or a finalizer emptied it. -/
def Tells (consumes : τ → Prop) (task : τ) : (c : Call) → c.Answer → Markers × Ghost → Prop
  | .openExcl token, .ok (), w => consumes task → OwnedBy token none w
  | .truncate token, .ok (), w => Consumed token w
  | _, _, _ => True

/-- How the operations treat each other; tasks that consume are told apart. -/
def ownership (consumes : τ → Prop) : Discipline world τ Ghost where
  inv := Inv
  rely := Rely
  up := Up
  tells _ := Tells consumes
  rely_refl := Rely.refl
  rely_trans _ _ _ _ h h' := h.trans h'
  up_refl := Up.refl
  up_trans _ _ _ h h' := h.trans h'
  crash pid s g h := ⟨g, Inv.crash h pid, fun _ hq => rely_crash (w := (s, g)) hq, Up.refl (s, g)⟩

/-! ### What the operations promise -/

/-- Keeping the discipline, as an operation on the markers. -/
abbrev Keeps {α : Type} (consumes : τ → Prop) (task : τ) (pid : ℕ) (Q : α → Markers × Ghost → Prop)
    (p : Program α) (w : Markers × Ghost) : Prop :=
  (ownership consumes).Safe task Q pid p w

/-- The calls that change nothing. -/
def Call.looks : Call → Bool
  | .ready | .existsLegacy _ | .existsMarker _ | .openRead _ | .openWrite _ | .read _ | .fsync _ => true
  | _ => false

theorem exec_looks {c : Call} {x : Choice} {r : c.Answer} {s s' : Markers} (hc : c.looks = true)
    (h : exec pid s c x = some (r, s')) : s' = s := by
  cases c <;> simp only [Call.looks, Bool.false_eq_true] at hc <;> cases x <;>
    simp only [exec, reduceCtorEq, Option.some.injEq, Prod.mk.injEq] at h
  all_goals first | exact h.2.symm | skip
  split at h <;> simp_all

theorem tells_looks {c : Call} (hc : c.looks = true) (r : c.Answer) (w : Markers × Ghost) :
    Tells consumes task c r w := by
  cases c <;> trivial

variable {α : Type} {Q : α → Markers × Ghost → Prop}

theorem keeps_ret {a : α} (h : ∀ w', Up w w' → Q a w') : Keeps consumes task pid Q (.ret a) w :=
  Discipline.Safe.ret fun w' hr => h w' hr.1

theorem keeps_look {c : Call} {k : c.Answer → Program α} (hc : c.looks = true)
    (h : ∀ w', Rely pid w w' → Inv w' → ∀ x r, exec pid w'.1 c x = some (r, w'.1) →
      Keeps consumes task pid Q (k r) w') : Keeps consumes task pid Q (.call c k) w :=
  Discipline.Safe.look (fun _ _ _ _ he => exec_looks hc he) fun w' hr hi x r he =>
    ⟨tells_looks hc r w', h w' hr hi x r he⟩

/-- A step on one marker that keeps what it is for. -/
theorem keeps_touch {c : Call} {k : c.Answer → Program α} {r : c.Answer} (hinv : Inv w)
    (hm : w.1 token = some m) (ho : w.2 token = some o)
    (hother : ∀ q, q ≠ pid → m.lock = some q → m'.lock = some q) (hcontent : m'.content = m.content)
    (htells : ∀ w', Tells consumes task c r w')
    (h : Inv (put w token m' o) → Keeps consumes task pid Q (k r) (put w token m' o)) :
    ∃ g, Inv (setMarker w.1 token m', g) ∧ (∀ q, q ≠ pid → Rely q w (setMarker w.1 token m', g)) ∧
      Up w (setMarker w.1 token m', g) ∧ Tells consumes task c r (setMarker w.1 token m', g) ∧
      Keeps consumes task pid Q (k r) (setMarker w.1 token m', g) := by
  obtain ⟨o₁, ho₁, hold⟩ := hinv.holds hm
  rw [ho] at ho₁
  cases ho₁
  have hup : Up w (put w token m' o) := up_put ho rfl id
  have hrely : ∀ q, q ≠ pid → Rely q w (put w token m' o) := fun q hq =>
    rely_put hup hm ho (fun _ => ⟨rfl, hcontent⟩) fun hl => ⟨hother q hq hl, fun _ => ⟨rfl, hcontent⟩⟩
  have hinv' : Inv (put w token m' o) :=
    hinv.put ⟨hcontent ▸ hold.content, hcontent ▸ hold.writing, hold.unowned⟩
  exact ⟨_, hinv', hrely, hup, htells _, h hinv'⟩

/-- After a close only what stays of the markers is known. -/
theorem keeps_close {k : Except Errno Unit → Program α}
    (h : ∀ w' r, Up w w' → Inv w' → Keeps consumes task pid Q (k r) w') :
    Keeps consumes task pid Q (.call (.close token) k) w := by
  intro w' hr hinv x r s he
  have hnone : w'.1 token = none → s = w'.1 → ∃ g, Inv (s, g) ∧ (∀ q, q ≠ pid → Rely q w' (s, g)) ∧
      Up w' (s, g) ∧ True ∧ Keeps consumes task pid Q (k r) (s, g) := by
    rintro - rfl
    exact ⟨w'.2, hinv, fun q _ => Rely.refl q w', Up.refl w', trivial, h w' r hr.1 hinv⟩
  cases hm : w'.1 token with
  | none =>
    refine hnone hm ?_
    cases x <;> simp only [world, exec, hm, reduceCtorEq, Option.some.injEq, Prod.mk.injEq] at he
    all_goals exact he.2.symm
  | some m =>
    obtain ⟨o, ho, -⟩ := hinv.holds hm
    have hs : s = setMarker w'.1 token (m.unlock pid) := by
      cases x <;> simp only [world, exec, hm, reduceCtorEq, Option.some.injEq, Prod.mk.injEq] at he
      all_goals exact he.2.symm
    subst hs
    have hup : Up w' (put w' token (m.unlock pid) o) := up_put ho rfl id
    exact keeps_touch (c := .close token) hinv hm ho (fun q hq => unlock_lock hq)
      (unlock_content pid m) (fun _ => trivial) fun hinv' => h _ r (hr.1.trans hup) hinv'

theorem writeAt_end (content data : List Char) :
    writeAt content content.length data = content ++ data := by
  simp [writeAt]

theorem drop_length_take (data : List Char) (n : ℕ) :
    data.drop (data.take n).length = data.drop n := by
  rcases Nat.le_total n data.length with h | h
  · rw [List.length_take_of_le h]
  · rw [List.take_of_length_le h, List.drop_length, List.drop_eq_nil_of_le h]

/-- The record when `rest` is still to be written: the writer is gone with its last byte. -/
def Own.left (o : Own) (rest : List Char) : Own := if rest = [] then { o with writer := none } else o

@[simp] theorem left_owner (o : Own) (rest : List Char) : (o.left rest).owner = o.owner := by
  unfold Own.left; split <;> rfl

@[simp] theorem left_consumed (o : Own) (rest : List Char) :
    (o.left rest).consumed = o.consumed := by
  unfold Own.left; split <;> rfl

@[simp] theorem left_text (o : Own) (rest : List Char) : (o.left rest).text = o.text := by
  unfold Own.left; split <;> rfl

/-- One write of the writer of a marker. -/
theorem put_write {data : List Char} (hinv : Inv w) (hm : w.1 token = some m)
    (ho : w.2 token = some o) (hw : o.writer = some pid) (htext : m.content ++ data = o.text) (n : ℕ) :
    let w' := put w token { m with content := m.content ++ data.take n } (o.left (data.drop n))
    Inv w' ∧ Up w w' ∧ ∀ q, q ≠ pid → Rely q w w' := by
  obtain ⟨m₁, hm₁, hold⟩ := hinv.marker ho
  -- the bytes written are the next ones of the text, so the content stays a prefix of it
  have hup : Up w (put w token { m with content := m.content ++ data.take n } (o.left (data.drop n))) :=
    up_put ho (left_owner o _) (fun h => (left_consumed o _).trans h)
  refine ⟨hinv.put ⟨?_, fun hne => ?_, ?_⟩, hup, fun q hq => rely_put hup hm ho (fun h => ?_)
    fun hl => ⟨hl, fun h => ?_⟩⟩
  · rw [left_text, ← htext]
    exact (List.prefix_append_right_inj _).mpr (List.take_prefix n data)
  · have hrest : data.drop n ≠ [] := fun hnil => hne (by simp [Own.left, hnil])
    rw [left_text, ← htext]
    simp only [ne_eq, List.drop_eq_nil_iff] at hrest
    simp only [List.length_append, List.length_take]
    omega
  · rw [left_owner, left_consumed]
    exact hold.unowned
  · exact absurd (Option.some.inj (hw.symm.trans h)) (Ne.symm hq)
  · rw [hw] at h
    cases h

/-- The writer of a marker puts down the rest of its text, as far as it comes. -/
theorem keeps_osWrite : ∀ (fuel : ℕ) (data : List Char) {w : Markers × Ghost} {m : Marker} {o : Own},
    Inv w → w.1 token = some m → w.2 token = some o → o.writer = some pid →
      m.content ++ data = o.text →
      Keeps consumes task pid (fun _ w' => Up w w') (osWrite token fuel m.content.length data) w
  | 0, _, _, _, _, _, _, _, _, _ => keeps_ret fun _ hup => hup
  | fuel + 1, data, w, m, o, _, hm, ho, hw, htext => by
    unfold osWrite
    split
    · exact keeps_ret fun _ hup => hup
    intro w' hr hinv x r s he
    -- What this process writes is as it left it.
    obtain ⟨ho', m', hm', hc⟩ := (hr.2 token m o hm ho).1 hw
    rw [← hc] at htext he ⊢
    cases x with
    | put n stop =>
      simp only [world, exec, hm', Option.some.injEq, Prod.mk.injEq, writeAt_end] at he
      obtain ⟨hwritten, rfl⟩ := he
      obtain ⟨hinv', hstep, hrely⟩ := put_write hinv hm' ho' hw htext n
      have hup := hr.1.trans hstep
      refine ⟨_, hinv', hrely, hstep, trivial, ?_⟩
      subst hwritten
      cases stop with
      | some stop => cases stop <;> exact keeps_ret fun _ hup' => hup.trans hup'
      | none =>
        change Keeps consumes task pid _ (osWrite token fuel (m'.content.length + (data.take n).length)
          (data.drop (data.take n).length)) _
        rw [drop_length_take, ← List.length_append]
        refine Discipline.Safe.imp (fun _ _ hup' => hup.trans hup') ?_
        by_cases hrest : data.drop n = []
        · rw [hrest]
          cases fuel <;> exact keeps_ret fun _ hup' => hup'
        · have hleft : o.left (data.drop n) = o := if_neg hrest
          rw [hleft] at hinv' ⊢
          refine keeps_osWrite fuel (data.drop n) hinv' (put_marker ..) (put_own ..) hw ?_
          simpa using htext
    | _ => simp only [world, exec, reduceCtorEq] at he

theorem keeps_closing {β : Type} (outcome : Except Errno β) :
    Keeps consumes task pid (fun (r : Except Errno β) w' => Up w w' ∧ ∀ b, r = .ok b → outcome = .ok b)
      (closing token outcome) w := by
  refine keeps_close fun w' r hup _ => ?_
  cases r with
  | ok => exact keeps_ret fun _ hup' => ⟨hup.trans hup', fun _ hb => hb⟩
  | error => exact keeps_ret fun _ hup' => ⟨hup.trans hup', fun _ hb => by cases hb⟩

/-- A marker is created once, for the owner that its text names. -/
theorem keeps_createMarker {data : List Char} (hdata : o.text = data)
    (ho : o.owner = none → o.consumed = true) (htask : consumes task → o.owner = none) :
    Keeps consumes task pid (fun (r : Except Errno Unit) w' => Up w w' ∧
      (r = .ok () → OwnedBy token o.owner w' ∧ w.2 token = none)) (createMarker token data) w := by
  subst hdata
  intro w' hr hinv' x r s he
  have hfail : ∀ e, r = Except.error e → s = w'.1 → ∃ g, Inv (s, g) ∧ (∀ q, q ≠ pid → Rely q w' (s, g)) ∧
      Up w' (s, g) ∧ Tells consumes task (.openExcl token) r (s, g) ∧ Keeps consumes task pid
        (fun (r : Except Errno Unit) w' =>
          Up w w' ∧ (r = .ok () → OwnedBy token o.owner w' ∧ w.2 token = none))
        (.ret (.error e)) (s, g) := by
    rintro e rfl rfl
    exact ⟨w'.2, hinv', fun q _ => Rely.refl q w', Up.refl w', trivial,
      keeps_ret fun _ hup => ⟨hr.1.trans hup, fun h => by cases h⟩⟩
  cases x with
  | fail e =>
    simp only [world, exec, Option.some.injEq, Prod.mk.injEq] at he
    obtain ⟨rfl, rfl⟩ := he
    exact hfail e rfl rfl
  | go =>
    cases hm : w'.1 token with
    | some m =>
      simp only [world, exec, hm, Option.some.injEq, Prod.mk.injEq] at he
      obtain ⟨rfl, rfl⟩ := he
      exact hfail _ rfl rfl
    | none =>
      simp only [world, exec, hm, Option.some.injEq, Prod.mk.injEq] at he
      obtain ⟨rfl, rfl⟩ := he
      have hfresh : w.2 token = none := by
        by_contra h
        obtain ⟨o₁, ho₁⟩ := Option.ne_none_iff_exists'.mp h
        obtain ⟨o₂, ho₂, -⟩ := hr.1 token o₁ ho₁
        obtain ⟨m₂, hm₂, -⟩ := hinv'.marker ho₂
        rw [hm] at hm₂
        cases hm₂
      -- This process is the writer of the marker it made.
      let own : Own := { o with writer := some pid }
      have hnew : Inv (put w' token ⟨[], none⟩ own) :=
        hinv'.put ⟨List.nil_prefix, fun _ => List.length_pos_iff.mpr own.text_ne_nil, ho⟩
      have hrely : ∀ q, Rely q w' (put w' token ⟨[], none⟩ own) := fun q => rely_new hinv' hm
      have hown : OwnedBy token o.owner (put w' token ⟨[], none⟩ own) := ⟨own, put_own .., rfl⟩
      refine ⟨_, hnew, fun q _ => hrely q, (hrely 0).1, fun ht => htask ht ▸ hown, ?_⟩
      change Keeps consumes task pid _ (osWrite token (o.text.length + 1) 0 o.text >>= closing token) _
      refine Discipline.Safe.bind (Discipline.Safe.imp (fun written w₁ hup₁ _ => ?_)
        (keeps_osWrite _ o.text hnew (put_marker w' token ⟨[], none⟩ own)
          (put_own w' token _ own) rfl rfl)) hnew
      refine Discipline.Safe.imp (fun r w₂ hw₂ => ?_) (keeps_closing written)
      have hup₂ := hup₁.trans hw₂.1
      exact ⟨(hr.1.trans (hrely 0).1).trans hup₂, fun _ => ⟨hown.up hup₂, hfresh⟩⟩
  | _ => simp only [world, exec, reduceCtorEq] at he

/-- What a read returns is there of the text of the marker. -/
theorem read_prefix {x : Choice} {raw : List Char} {s : Markers} (hinv : Inv w)
    (he : exec pid w.1 (.read token) x = some (.ok raw, s)) :
    ∃ m o, w.1 token = some m ∧ w.2 token = some o ∧ o.Holds m ∧ raw <+: m.content := by
  cases x <;> simp only [exec, reduceCtorEq, Option.some.injEq, Prod.mk.injEq, false_and] at he
  split at he
  · next m hm =>
    obtain ⟨o, ho, hold⟩ := hinv.holds hm
    cases he
    exact ⟨m, o, hm, ho, hold, List.take_prefix _ _⟩
  · cases he

/-- A record that names the reader's pair tells who the owner is. -/
theorem keeps_readDispatchRecord {b : Binding} (hb : b.effect ≠ "") :
    Keeps consumes task pid (fun (r : Except Errno (Option Record)) w' => Up w w' ∧
      ∀ record, r = .ok (some record) →
      record.matches b = true → OwnedBy token (some b) w' ∧
        (Consumed token w → record.state = .consumed)) (readDispatchRecord token) w := by
  refine keeps_look rfl fun w₁ hr₁ hi₁ x r he => ?_
  have hup₁ : Up w w₁ := hr₁.1
  cases r with
  | error e =>
    cases e
    all_goals
      refine keeps_ret fun _ hup => ⟨hup₁.trans hup, fun record hrec hmatch => ?_⟩
      cases hrec
    all_goals simp [Record.matches] at hmatch
  | ok =>
    refine keeps_look rfl fun w₂ hr₂ hi₂ x raw he => ?_
    have hup₂ : Up w w₂ := hup₁.trans hr₂.1
    refine Discipline.Safe.imp (fun r w' hw' => ⟨hup₂.trans hw'.1, fun record hrec hmatch => ?_⟩)
      (keeps_closing _)
    have hraw := hw'.2 _ hrec
    cases raw with
    | error => cases hraw
    | ok text =>
      -- what was read is a prefix of the owner's text, and a prefix that parses is all of it
      obtain rfl := Option.some.inj (Except.ok.inj hraw)
      obtain ⟨m, o, hm, ho, hold, htext⟩ := read_prefix hi₂ he
      have hprefix : text <+: o.text := htext.trans hold.content
      obtain ⟨howner, -, -⟩ := owner_of_matches hb hprefix hmatch
      refine ⟨OwnedBy.up ⟨o, ho, howner⟩ hw'.1, fun hc => ?_⟩
      obtain ⟨o', ho', hc'⟩ := hc.up hup₂
      rw [ho] at ho'
      cases ho'
      exact consumed_of_prefix hc' hprefix

/-- A lock that is had is held until the process gives it up. -/
theorem keeps_flock {k : Except Errno Unit → Program α}
    (hok : ∀ w' m, Up w w' → Inv w' → w'.1 token = some m → m.lock = some pid →
      Keeps consumes task pid Q (k (.ok ())) w')
    (herror : ∀ w' e, Up w w' → Inv w' → Keeps consumes task pid Q (k (.error e)) w') :
    Keeps consumes task pid Q (.call (.flock token) k) w := by
  intro w' hr hinv x r s he
  have hfail : ∀ e, r = Except.error e → s = w'.1 → ∃ g, Inv (s, g) ∧
      (∀ q, q ≠ pid → Rely q w' (s, g)) ∧ Up w' (s, g) ∧ True ∧
        Keeps consumes task pid Q (k r) (s, g) := by
    rintro e rfl rfl
    exact ⟨w'.2, hinv, fun q _ => Rely.refl q w', Up.refl w', trivial, herror w' e hr.1 hinv⟩
  cases x with
  | fail e =>
    cases he
    exact hfail e rfl rfl
  | go =>
    cases hm : w'.1 token with
    | none =>
      simp only [world, exec, hm, Option.some.injEq, Prod.mk.injEq] at he
      exact hfail _ he.1.symm he.2.symm
    | some m =>
      simp only [world, exec, hm] at he
      split at he
      · next hfree =>
        cases he
        obtain ⟨o, ho, -⟩ := hinv.holds hm
        have hother : ∀ q, q ≠ pid → m.lock = some q → (some pid : Option ℕ) = some q := by
          rintro q hq hl
          rw [hl] at hfree
          simp [hq] at hfree
        have hup : Up w' (put w' token { m with lock := some pid } o) := up_put ho rfl id
        exact keeps_touch (c := .flock token) hinv hm ho hother rfl (fun _ => trivial)
          fun hinv' => hok _ _ (hr.1.trans hup) hinv' (put_marker ..) rfl
      · cases he
  | _ => simp only [world, exec, reduceCtorEq] at he

/-- A process that holds the lock of a marker nobody writes empties it, and becomes its writer. -/
theorem keeps_ftruncate {k : Except Errno Unit → Program α} (hm : w.1 token = some m)
    (ho : w.2 token = some o) (hl : m.lock = some pid) (hw : o.writer = none)
    (hok : ∀ w' m', Up w w' → Inv w' → w'.1 token = some m' → m'.content = [] →
      w'.2 token = some { o with consumed := true, writer := some pid } →
      Keeps consumes task pid Q (k (.ok ())) w')
    (herror : ∀ w' e, Up w w' → Inv w' → Keeps consumes task pid Q (k (.error e)) w') :
    Keeps consumes task pid Q (.call (.truncate token) k) w := by
  intro w' hr hinv x r s he
  obtain ⟨m', hm', hl', hk⟩ := (hr.2 token m o hm ho).2 hl
  obtain ⟨ho', hc⟩ := hk hw
  cases x with
  | fail e =>
    cases he
    exact ⟨w'.2, hinv, fun q _ => Rely.refl q w', Up.refl w', trivial, herror w' e hr.1 hinv⟩
  | go =>
    simp only [world, exec, hm', Option.some.injEq, Prod.mk.injEq] at he
    obtain ⟨rfl, rfl⟩ := he
    -- the marker counts as consumed from the cut on, before the new text is there
    let own : Own := { o with consumed := true, writer := some pid }
    have hinv' : Inv (put w' token { m' with content := [] } own) :=
      hinv.put ⟨List.nil_prefix, fun _ => List.length_pos_iff.mpr own.text_ne_nil, fun _ => rfl⟩
    have hup : Up w' (put w' token { m' with content := [] } own) := up_put ho' rfl fun _ => rfl
    have hrely : ∀ q, q ≠ pid → Rely q w' (put w' token { m' with content := [] } own) := fun q hq =>
      rely_put hup hm' ho' (fun h => by rw [hw] at h; cases h)
        fun h => absurd (Option.some.inj (hl'.symm.trans h)) (Ne.symm hq)
    exact ⟨_, hinv', hrely, hup, ⟨own, put_own .., rfl⟩,
      hok _ _ (hr.1.trans hup) hinv' (put_marker ..) rfl (put_own ..)⟩
  | _ => simp only [world, exec, reduceCtorEq] at he

/-- A pair that is finalized is the one that the marker is reserved for. -/
theorem keeps_finalizeLocked {b : Binding} (hb : b.effect ≠ "") :
    Keeps consumes task pid (fun (r : Except Errno Reply) w' => Up w w' ∧
      (r = .ok .ok → OwnedBy token (some b) w')) (finalizeLocked token b) w := by
  have hstop : ∀ {w' : Markers × Ghost} (a : Except Errno Reply), Up w w' → a ≠ .ok .ok →
      Keeps consumes task pid (fun (r : Except Errno Reply) w' => Up w w' ∧
        (r = .ok .ok → OwnedBy token (some b) w')) (.ret a) w' := fun a hup ha =>
    keeps_ret fun _ hup' => ⟨hup.trans hup', fun h => absurd h ha⟩
  unfold finalizeLocked
  simp only [flock, osRead, ftruncate, fsync, Prog.call_bind, Prog.ret_bind, Prog.pure_eq]
  refine keeps_flock (fun w₁ m₁ hup₁ hi₁ hm₁ hl₁ => ?_) fun w₁ e hup₁ _ => hstop _ hup₁ (by simp)
  refine keeps_look rfl fun w₂ hr₂ hi₂ x r he => ?_
  have hup₂ := hup₁.trans hr₂.1
  cases r with
  | error e => exact hstop _ hup₂ (by simp)
  | ok raw =>
    obtain ⟨m, o, hm, ho, hold, hraw⟩ := read_prefix hi₂ he
    simp only
    cases hstate : ownedState raw b with
    | none => exact hstop _ hup₂ (by simp)
    | some state =>
      simp only
      split
      · next hc =>
        have hmatch := matches_of_ownedState hstate (.inl hc)
        have howner := (owner_of_matches hb (hraw.trans hold.content) hmatch).1
        exact keeps_ret fun _ hup => ⟨hup₂.trans hup, fun _ => OwnedBy.up ⟨o, ho, howner⟩ hup⟩
      split
      · exact hstop _ hup₂ (by simp)
      · next hc hr =>
        have hmatch := matches_of_ownedState hstate (.inr (by simpa using hr))
        obtain ⟨howner, hwhole, -⟩ := owner_of_matches hb (hraw.trans hold.content) hmatch
        have howned : OwnedBy token (some b) w₂ := ⟨o, ho, howner⟩
        have hl : m.lock = some pid := by
          obtain ⟨o₁, ho₁, -⟩ := hi₁.holds hm₁
          obtain ⟨m₂, hm₂, hl₂, -⟩ := (hr₂.2 token m₁ o₁ hm₁ ho₁).2 hl₁
          rw [hm] at hm₂
          cases hm₂
          exact hl₂
        -- a text that is whole has nobody writing to it
        have hw : o.writer = none := by
          by_contra hne
          have hlong := hraw.length_le
          have hshort := hold.writing hne
          rw [hwhole] at hlong
          omega
        refine keeps_ftruncate hm ho hl hw (fun w₃ m₃ hup₃ hi₃ hm₃ hc₃ ho₃ => ?_) fun w₃ e hup₃ _ =>
          hstop _ (hup₂.trans hup₃) (by simp)
        let own : Own := { o with consumed := true, writer := some pid }
        have htext : m₃.content ++ bindingText .consumed b = own.text := by
          rw [hc₃, List.nil_append, own.text_some howner]
          rfl
        have hwrite : Keeps consumes task pid (fun _ w' => Up w₃ w') (osWrite token
            ((bindingText .consumed b).length + 1) m₃.content.length (bindingText .consumed b)) w₃ :=
          keeps_osWrite _ _ hi₃ hm₃ ho₃ rfl htext
        rw [hc₃] at hwrite
        refine Discipline.Safe.bind (hwrite.imp fun written w₄ hup₄ _ => ?_) hi₃
        have hup := (hup₂.trans hup₃).trans hup₄
        cases written with
        | error e => exact hstop _ hup (by simp)
        | ok =>
          refine keeps_look rfl fun w₅ hr₅ _ _ r _ => ?_
          cases r with
          | error e => exact hstop _ (hup.trans hr₅.1) (by simp)
          | ok => exact keeps_ret fun w₆ hup₆ => ⟨(hup.trans hr₅.1).trans hup₆,
              fun _ => howned.up (((hup₃.trans hup₄).trans hr₅.1).trans hup₆)⟩

/-! ### The operations -/

/-- The answers that give a dispatch to a pair. -/
def Owning (task : Task) (reply : Reply) (token : String) (b : Binding) : Prop :=
  match task with
  | .consume _ => False
  | .reserve dispatchId effect attempt => safeDispatchToken dispatchId = some token ∧
      effectBinding effect attempt = some b ∧
      (reply = .reserved ∨ reply = .ownedReserved ∨ reply = .ownedConsumed)
  | .finalize dispatchId effect attempt => safeDispatchToken dispatchId = some token ∧
      effectBinding effect attempt = some b ∧ reply = .ok

/-- The answer that consumes a dispatch at once. -/
def Taking (task : Task) (reply : Reply) (token : String) : Prop :=
  match task with
  | .consume dispatchId => safeDispatchToken dispatchId = some token ∧ reply = .ok
  | _ => False

/-- The answers that a dispatch is reserved and not yet consumed. -/
def Reserving (task : Task) (reply : Reply) (token : String) : Prop :=
  match task with
  | .reserve dispatchId _ _ =>
    safeDispatchToken dispatchId = some token ∧ (reply = .reserved ∨ reply = .ownedReserved)
  | _ => False

/-- What an operation promises with its answer, when it was started at `w₀`. -/
structure Promise (w₀ : Markers × Ghost) (task : Task) (reply : Reply) (w : Markers × Ghost) :
    Prop where
  owning : ∀ token b, Owning task reply token b → OwnedBy token (some b) w
  taking : ∀ token, Taking task reply token → OwnedBy token none w
  reserving : ∀ token, Reserving task reply token → ¬ Consumed token w₀

/-- The replies that let an effect go on. -/
def Reply.grants : Reply → Bool
  | .ok | .reserved | .ownedReserved | .ownedConsumed => true
  | _ => false

variable {w₀ : Markers × Ghost} {operation : Task} {reply : Reply}

/-- The other answers promise nothing. -/
theorem keeps_refused (h : reply.grants = false) :
    Keeps consumes task pid (Promise w₀ operation) (.ret reply) w := by
  refine keeps_ret fun _ _ => ⟨fun token b ho => ?_, fun token ht => ?_, fun token hr => ?_⟩
  all_goals
    cases operation <;> cases reply <;> simp_all [Owning, Taking, Reserving, Reply.grants]

theorem effect_ne {effect attempt : String} {b : Binding} (h : effectBinding effect attempt = some b) :
    b.effect ≠ "" := by
  unfold effectBinding at h
  split at h
  · cases h
  simp only [Option.ite_none_right_eq_some, Option.some.injEq] at h
  obtain ⟨hlen, rfl⟩ := h
  intro hnil
  simp [show lower (strip effect) = "" from hnil] at hlen

theorem keeps_consume (dispatchId : String) :
    Keeps consumes task pid (Promise w (.consume dispatchId)) (consumeDispatchOnce dispatchId) w := by
  unfold consumeDispatchOnce
  cases htoken : safeDispatchToken dispatchId with
  | none => exact keeps_refused rfl
  | some token =>
    simp only [replayReady, existsLegacy, existsMarker, Prog.call_bind, Prog.ret_bind, Prog.pure_eq]
    refine keeps_look rfl fun w₁ _ _ _ ready _ => ?_
    split
    · exact keeps_refused rfl
    refine keeps_look rfl fun w₂ _ _ _ legacy _ => ?_
    split
    · exact keeps_refused rfl
    refine keeps_look rfl fun w₃ _ hi₃ _ marker _ => ?_
    split
    · exact keeps_refused rfl
    let own : Own := ⟨none, true, none⟩
    refine Discipline.Safe.bind ((keeps_createMarker (o := own) rfl (fun _ => rfl)
      fun _ => rfl).imp fun r w₄ hr _ => ?_) hi₃
    split
    · have hown : OwnedBy token none w₄ := (hr.2 rfl).1
      refine keeps_ret fun w₅ hup => ⟨fun _ _ h => h.elim, fun t ht => ?_, fun _ h => h.elim⟩
      obtain rfl := Option.some.inj (htoken.symm.trans ht.1)
      exact hown.up hup
    all_goals exact keeps_refused rfl

/-- A reservation is of the pair that the marker names, and is none once that is consumed. -/
theorem keeps_reserve (dispatchId effect attempt : String) (htask : ¬ consumes task) :
    Keeps consumes task pid (Promise w (.reserve dispatchId effect attempt))
      (reserveDispatch dispatchId effect attempt) w := by
  unfold reserveDispatch
  cases htoken : safeDispatchToken dispatchId with
  | none => exact keeps_refused rfl
  | some token =>
  cases hbinding : effectBinding effect attempt with
  | none => exact keeps_refused rfl
  | some b =>
    simp only [replayReady, existsLegacy, Prog.call_bind, Prog.ret_bind, Prog.pure_eq]
    refine keeps_look rfl fun w₁ hr₁ hi₁ _ ready _ => ?_
    split
    · exact keeps_refused rfl
    refine keeps_look rfl fun w₂ hr₂ hi₂ _ legacy _ => ?_
    split
    · exact keeps_refused rfl
    have hup₂ : Up w w₂ := hr₁.1.trans hr₂.1
    let own : Own := ⟨some b, false, none⟩
    refine Discipline.Safe.bind ((keeps_createMarker (o := own) rfl (fun h => by cases h)
      fun h => absurd h htask).imp fun r w₃ hr hi₃ => ?_) hi₂
    -- A pair that owns the marker, and a reply that says so.
    have howns : ∀ {w' : Markers × Ghost} (reply : Reply), OwnedBy token (some b) w' →
        (Consumed token w → reply = .ownedConsumed) →
        Keeps consumes task pid (Promise w (.reserve dispatchId effect attempt)) (.ret reply) w' := by
      intro w' reply hown hcons
      refine keeps_ret fun w'' hup => ⟨fun t b' h => ?_, fun _ h => h.elim, fun t h hc => ?_⟩
      · obtain rfl := Option.some.inj (htoken.symm.trans h.1)
        obtain rfl := Option.some.inj (hbinding.symm.trans h.2.1)
        exact hown.up hup
      · obtain rfl := Option.some.inj (htoken.symm.trans h.1)
        obtain rfl := hcons hc
        simpa using h.2
    split
    · refine howns .reserved (hr.2 rfl).1 fun hc => ?_
      obtain ⟨o, ho, -⟩ := hc.up hup₂
      rw [(hr.2 rfl).2] at ho
      cases ho
    · refine Discipline.Safe.bind ((keeps_readDispatchRecord (effect_ne hbinding)).imp
        fun r w₄ hread _ => ?_) hi₃
      split
      · exact keeps_refused rfl
      · exact keeps_refused rfl
      · next record =>
        split
        · next hmatch =>
          obtain ⟨hown, hcons⟩ := hread.2 record rfl hmatch
          refine howns _ hown fun hc => ?_
          rw [if_pos (hcons (hc.up (hup₂.trans hr.1)))]
        · exact keeps_refused rfl
    all_goals exact keeps_refused rfl

theorem keeps_finalize (dispatchId effect attempt : String) :
    Keeps consumes task pid (Promise w (.finalize dispatchId effect attempt))
      (finalizeDispatch dispatchId effect attempt) w := by
  unfold finalizeDispatch
  cases htoken : safeDispatchToken dispatchId with
  | none => exact keeps_refused rfl
  | some token =>
  cases hbinding : effectBinding effect attempt with
  | none => exact keeps_refused rfl
  | some b =>
    simp only [replayReady, openWrite, Prog.call_bind, Prog.ret_bind, Prog.pure_eq]
    refine keeps_look rfl fun w₁ _ _ _ ready _ => ?_
    split
    · exact keeps_refused rfl
    refine keeps_look rfl fun w₂ _ hi₂ _ opened _ => ?_
    split
    · exact keeps_refused rfl
    · exact keeps_refused rfl
    · -- the file is closed whatever the locked part has answered
      refine Discipline.Safe.bind ((keeps_finalizeLocked (effect_ne hbinding)).imp
        fun outcome w₃ hout _ => ?_) hi₂
      refine keeps_close fun w₄ r hup₄ _ => ?_
      cases r with
      | error e => exact keeps_refused rfl
      | ok =>
        cases outcome with
        | error e => exact keeps_refused rfl
        | ok reply =>
          refine keeps_ret fun w₅ hup₅ => ⟨fun t b' h => ?_, fun _ h => h.elim, fun _ h => h.elim⟩
          obtain rfl := Option.some.inj (htoken.symm.trans h.1)
          obtain rfl := Option.some.inj (hbinding.symm.trans h.2.1)
          obtain rfl := h.2.2
          exact (hout.2 rfl).up (hup₄.trans hup₅)

end Discipline

/-! ### Whole runs -/

/-- The task of a consumer. -/
def Task.consumes : Task → Prop
  | .consume _ => True
  | _ => False

/-- Each operation keeps the discipline, and its promise. -/
theorem keeps_body (operation : Task) (pid : ℕ) (w : Markers × Ghost) :
    Keeps Task.consumes operation pid (Promise w operation) operation.body w := by
  cases operation with
  | consume dispatchId => exact keeps_consume dispatchId
  | reserve dispatchId effect attempt => exact keeps_reserve dispatchId effect attempt (fun h => h)
  | finalize dispatchId effect attempt => exact keeps_finalize dispatchId effect attempt

/-- The processes on one host. -/
abbrev Processes := System Markers Call.Answer Task Reply

/-- A process was seen with its answer. -/
def Answered (tr : History Processes (Move Task Choice) Unit) (task : Task) (reply : Reply)
    (pid : ℕ) : Prop :=
  ∃ e ∈ tr, e.post.returned pid = some (task, reply)

/-- The step that consumes a dispatch: a consumer makes the marker, or a finalizer empties it. -/
def Consuming (token : String) (e : Entry Processes (Move Task Choice) Unit) : Prop :=
  ∃ pid x s, e.act = .call pid x ∧
    ((∃ dispatchId k, e.pre.next pid = some (.consume dispatchId, ⟨.openExcl token, k⟩) ∧
        exec pid e.pre.shared (.openExcl token) x = some (.ok (), s)) ∨
      ∃ task k, e.pre.next pid = some (task, ⟨.truncate token, k⟩) ∧
        exec pid e.pre.shared (.truncate token) x = some (.ok (), s))

/-- The discipline of the owners, for the tasks of this module. -/
abbrev ownershipOfTasks : Discipline world Task Ghost := ownership Task.consumes

theorem inv_init {s : Markers} (h : s = fun _ => none) : ownershipOfTasks.inv (s, fun _ => none) := by
  subst h
  exact fun _ => trivial

/-- In every run the answers so far are true to what the markers are for. -/
theorem run_promise {tr : History Processes (Move Task Choice) Unit} {sys : Processes}
    (h : machine.Run tr sys) :
    ∃ g, ownershipOfTasks.Ok (fun _ task reply w => ∃ w₀, Promise w₀ task reply w) sys g :=
  Discipline.run_ok h (fun _ hi => ⟨_, inv_init hi⟩) fun pid task w _ =>
    (keeps_body task pid w).imp fun _ _ hp => ⟨w, hp⟩

/-- The step that consumes a dispatch leaves the marker consumed. -/
theorem consumed_of_consuming {token : String} {e : Entry Processes (Move Task Choice) Unit} {g : Ghost}
    {post : ℕ → Task → Reply → Markers × Ghost → Prop} (h : ownershipOfTasks.Ok post e.pre g)
    (hs : e.pre.step world Task.body e.act = some e.post) (hc : Consuming token e) :
    ∃ g', ownershipOfTasks.Ok post e.post g' ∧ Consumed token (e.post.shared, g') := by
  obtain ⟨pid, x, s, hact, hcall⟩ := hc
  rw [hact] at hs
  rcases hcall with ⟨dispatchId, k, hnext, hexec⟩ | ⟨task, k, hnext, hexec⟩
  · rw [← Option.some.inj ((Discipline.step_call hnext hexec).symm.trans hs)]
    obtain ⟨g', hok, -, htells⟩ := h.call (Discipline.next_eq hnext) hexec
    obtain ⟨o, ho, howner⟩ := htells trivial
    obtain ⟨m, -, hold⟩ := Inv.marker hok.1 ho
    exact ⟨g', hok, o, ho, hold.unowned howner⟩
  · rw [← Option.some.inj ((Discipline.step_call hnext hexec).symm.trans hs)]
    obtain ⟨g', hok, -, htells⟩ := h.call (Discipline.next_eq hnext) hexec
    exact ⟨g', hok, htells⟩

/-- A dispatch has one owner, none once it was consumed at once, and a consumed one stays so: the
    marker is there, counts as consumed however much of it is read, and is not reserved for a process
    that starts later. -/
theorem one_owner {tr : History Processes (Move Task Choice) Unit} {sys : Processes}
    (h : machine.Run tr sys) (token : String) :
    (∀ task reply pid b task' reply' pid' b', Answered tr task reply pid →
      Answered tr task' reply' pid' → Owning task reply token b → Owning task' reply' token b' →
        b = b') ∧
    (∀ task reply pid task' reply' pid' b', Answered tr task reply pid →
      Answered tr task' reply' pid' → Taking task reply token → ¬ Owning task' reply' token b') ∧
    ∀ newer e older, tr = newer ++ e :: older → Consuming token e →
      (∃ m, sys.shared token = some m ∧ ∀ n, (parseRecord (m.content.take n)).state = .consumed) ∧
      ∀ task reply pid, e.post.procs.length ≤ pid → Answered tr task reply pid →
        ¬ Reserving task reply token := by
  have hanswer : ∀ {task reply pid}, Answered tr task reply pid →
      sys.returned pid = some (task, reply) := by
    rintro task reply pid ⟨e, he, hr⟩
    exact Discipline.returned_run h he hr
  obtain ⟨g, hok⟩ := run_promise h
  refine ⟨?_, ?_, ?_⟩
  · -- two owners of one marker are the same binding
    intro task reply pid b task' reply' pid' b' ha ha' ho ho'
    obtain ⟨w₀, hp⟩ := hok.returned (hanswer ha)
    obtain ⟨w₀', hp'⟩ := hok.returned (hanswer ha')
    exact Option.some.inj ((hp.owning token b ho).unique (hp'.owning token b' ho'))
  · intro task reply pid task' reply' pid' b' ha ha' ht ho'
    obtain ⟨w₀, hp⟩ := hok.returned (hanswer ha)
    obtain ⟨w₀', hp'⟩ := hok.returned (hanswer ha')
    cases (hp.taking token ht).unique (hp'.owning token b' ho')
  · rintro newer e older rfl hc
    obtain ⟨-, hrun, hs⟩ := h.split
    obtain ⟨g₀, hok₀⟩ := run_promise hrun
    -- the finalizer's truncation sets the marker consumed for good
    obtain ⟨g₁, hok₁, hcons⟩ := consumed_of_consuming hok₀ (Discipline.machine_step hs) hc
    -- From here on the processes that start later are known to start with the marker consumed.
    have hlater : ownershipOfTasks.Ok (fun pid task reply _ => e.post.procs.length ≤ pid →
        ¬ Reserving task reply token) e.post g₁ := by
      refine ⟨hok₁.1, fun pid task p hp => (hok₁.2 pid task p hp).imp fun _ _ _ hle => ?_⟩
      have hlt := (List.getElem?_eq_some_iff.mp hp).1
      omega
    obtain ⟨-, g₂, hok₂, hup⟩ := hlater.run h fun pid _ task w _ hup =>
      (keeps_body task pid w).imp fun _ _ hp _ hr => hp.reserving token hr (hcons.up hup)
    obtain ⟨o, ho, hconsumed⟩ := hcons.up hup
    obtain ⟨m, hm, hold⟩ := Inv.marker hok₂.1 ho
    exact ⟨⟨m, hm, fun n => consumed_of_prefix hconsumed ((List.take_prefix n _).trans hold.content)⟩,
      fun task reply pid hle ha => hok₂.returned (hanswer ha) hle⟩

/-- A digest. -/
def sampleEffect : String := String.ofList (List.replicate 64 'a')

/-- A reservation by the attempt `x`. -/
def sampleReserve : Task := .reserve "d" sampleEffect "x"

/-- A reservation, and a finalizer that ends after three characters of its record. -/
def sampleMoves : List (Move Task Choice) :=
  [.start sampleReserve, .call 0 (.answer true), .call 0 (.answer false), .call 0 .go,
    .call 0 (.put 1000 none), .call 0 .go,
    .start (.finalize "d" sampleEffect "x"), .call 1 (.answer true), .call 1 .go, .call 1 .go,
    .call 1 .go, .call 1 .go, .call 1 (.put 3 none), .crash 1]

theorem one_owner_sample : ∃ tr sys, machine.Run tr sys ∧ Answered tr sampleReserve .reserved 0 ∧
    ∀ task reply pid b, Answered tr task reply pid → Owning task reply "d" b →
      b = ⟨sampleEffect, "x"⟩ := by
  let r := machine.exec sampleMoves ([], ⟨fun _ => none, []⟩)
  have hseen : (r.map fun r => r.1.head?.map fun e => e.post.returned 0) =
      some (some (some (sampleReserve, .reserved))) := by decide +kernel
  obtain ⟨⟨tr, sys⟩, hexec, hhead⟩ := Option.map_eq_some_iff.mp hseen
  obtain ⟨e, he, hret⟩ := Option.map_eq_some_iff.mp hhead
  have hinit : machine.Run [] ⟨fun _ => none, []⟩ := .start ⟨rfl, rfl⟩
  have hrun : machine.Run tr sys := Machine.Run.exec hinit hexec
  have hanswer : Answered tr sampleReserve .reserved 0 := ⟨e, List.mem_of_head? he, hret⟩
  have hbinding : safeDispatchToken "d" = some "d" ∧
      effectBinding sampleEffect "x" = some ⟨sampleEffect, "x"⟩ := by decide +kernel
  exact ⟨tr, sys, hrun, hanswer, fun task reply pid b ha ho => (one_owner hrun "d").1 _ _ _ _ _ _ _ _
    ha hanswer ho ⟨hbinding.1, hbinding.2, .inl rfl⟩⟩

end DataRelay.Tools.Dispatch
