import Mathlib.Data.List.Pairwise
import Mathlib.Tactic.Common

/-! Runs of a state machine, with their history, and past-time properties of a history.

    A machine makes every choice through its actions, so one step is a partial function of the
    state and the action. A run carries its history, newest entry first: each entry keeps the state
    before, the action, the state after and the response. `Once` and `Since` are the past-time
    operators over such a history, `AtMostOnce` bounds how often something happens in it;
    `Run.invariant`, `Run.since`, `Run.never` and `Run.atMostOnce` are the induction rules.
    `Observes` is what is seen of a list of actions from outside, and `Observes.eq` compares two
    states by it. -/

namespace Lib

/-- A machine: its initial states, and what an enabled action does. -/
structure Machine (σ α ρ : Type) where
  init : σ → Prop
  step : σ → α → Option (σ × ρ)

/-- One step of a run, as the history records it. -/
structure Entry (σ α ρ : Type) where
  pre : σ
  act : α
  post : σ
  resp : ρ

section Past
variable {σ α ρ : Type}

/-- The entries of a run, the newest first. -/
abbrev History (σ α ρ : Type) := List (Entry σ α ρ)

/-- At some entry `P` held, of the entry and the history before it. -/
def Once (P : Entry σ α ρ → History σ α ρ → Prop) : History σ α ρ → Prop
  | [] => False
  | e :: tr => P e tr ∨ Once P tr

/-- At some entry `P` held, and every newer entry satisfies `Q`. -/
def Since (P : Entry σ α ρ → History σ α ρ → Prop) (Q : Entry σ α ρ → Prop) :
    History σ α ρ → Prop
  | [] => False
  | e :: tr => P e tr ∨ (Q e ∧ Since P Q tr)

/-- At most one entry of the history satisfies `P`. -/
def AtMostOnce (P : Entry σ α ρ → Prop) (tr : History σ α ρ) : Prop :=
  tr.Pairwise fun e e' => ¬ (P e ∧ P e')

theorem AtMostOnce.imp {P P' : Entry σ α ρ → Prop} {tr : History σ α ρ} (h : AtMostOnce P tr)
    (hp : ∀ e ∈ tr, P' e → P e) : AtMostOnce P' tr :=
  List.Pairwise.imp_of_mem (fun he he' hne hb => hne ⟨hp _ he hb.1, hp _ he' hb.2⟩) h

/-- Two entries that do what happens at most once are the same. -/
theorem AtMostOnce.eq {P : Entry σ α ρ → Prop} {tr : History σ α ρ} (h : AtMostOnce P tr)
    {e e' : Entry σ α ρ} (he : e ∈ tr) (he' : e' ∈ tr) (hp : P e) (hp' : P e') : e = e' := by
  have : Std.Symm fun e e' : Entry σ α ρ => ¬ (P e ∧ P e') := ⟨fun _ _ hn hb => hn hb.symm⟩
  by_contra hne
  exact List.Pairwise.forall h he he' hne ⟨hp, hp'⟩

variable {P P' : Entry σ α ρ → History σ α ρ → Prop} {Q : Entry σ α ρ → Prop}

/-- An assumption that a longer history passes on holds of every older part. -/
theorem of_append {A : History σ α ρ → Prop} (hA : ∀ e tr, A (e :: tr) → A tr)
    {newer older : History σ α ρ} (h : A (newer ++ older)) : A older := by
  induction newer with
  | nil => exact h
  | cons e newer ih => exact ih (hA _ _ h)

theorem Once.imp (h : ∀ e tr, P e tr → P' e tr) : ∀ {tr : History σ α ρ}, Once P tr → Once P' tr
  | [], hp => hp
  | e :: tr, hp => Or.imp (h e tr) (Once.imp h) hp

theorem once_append (newer : History σ α ρ) {tr : History σ α ρ} (h : Once P tr) :
    Once P (newer ++ tr) := by
  induction newer with
  | nil => exact h
  | cons e newer ih => exact Or.inr ih

/-- `Once`, with the history split at the entry. -/
theorem once_iff {tr : History σ α ρ} :
    Once P tr ↔ ∃ newer e older, tr = newer ++ e :: older ∧ P e older := by
  constructor
  · induction tr with
    | nil => exact False.elim
    | cons e tr ih =>
      rintro (h | h)
      · exact ⟨[], e, tr, rfl, h⟩
      · obtain ⟨newer, e', older, rfl, hp⟩ := ih h
        exact ⟨e :: newer, e', older, rfl, hp⟩
  · rintro ⟨newer, e, older, rfl, hp⟩
    exact once_append newer (Or.inl hp)

/-- `Since`, with the history split at the entry. -/
theorem since_iff {tr : History σ α ρ} :
    Since P Q tr ↔ ∃ newer e older, tr = newer ++ e :: older ∧ P e older ∧ ∀ e' ∈ newer, Q e' := by
  constructor
  · induction tr with
    | nil => exact False.elim
    | cons e tr ih =>
      rintro (h | ⟨hq, h⟩)
      · exact ⟨[], e, tr, rfl, h, by simp⟩
      · obtain ⟨newer, e', older, rfl, hp, hall⟩ := ih h
        exact ⟨e :: newer, e', older, rfl, hp, by simpa using ⟨hq, hall⟩⟩
  · rintro ⟨newer, e, older, rfl, hp, hall⟩
    induction newer with
    | nil => exact Or.inl hp
    | cons e' newer ih =>
      exact Or.inr ⟨hall e' (by simp), ih fun x hx => hall x (by simp [hx])⟩

end Past

namespace Machine
variable {σ α ρ : Type} (M : Machine σ α ρ)

/-- `M.Run tr s`: the machine reaches `s` with history `tr`. -/
inductive Run : History σ α ρ → σ → Prop
  | start {s : σ} : M.init s → Run [] s
  | step {tr : History σ α ρ} {s : σ} {a : α} {s' : σ} {r : ρ} :
      Run tr s → M.step s a = some (s', r) → Run (⟨s, a, s', r⟩ :: tr) s'

/-- Let the machine do a list of actions, one after the other. -/
def exec : List α → History σ α ρ × σ → Option (History σ α ρ × σ)
  | [], r => some r
  | a :: as, (tr, s) => (M.step s a).bind fun p => exec as (⟨s, a, p.1, p.2⟩ :: tr, p.1)

variable {M}

/-- What is executed is a run. -/
theorem Run.exec : ∀ {as : List α} {r r' : History σ α ρ × σ}, M.Run r.1 r.2 →
    M.exec as r = some r' → M.Run r'.1 r'.2
  | [], _, _, h, he => by cases he; exact h
  | a :: as, (tr, s), _, h, he => by
    obtain ⟨⟨s', x⟩, hs, he⟩ := Option.bind_eq_some_iff.mp he
    exact Run.exec (Run.step h hs) he

/-- The newest entry of a run ends in the state reached. -/
theorem Run.cons {e : Entry σ α ρ} {tr : History σ α ρ} {s : σ} (h : M.Run (e :: tr) s) :
    M.Run tr e.pre ∧ M.step e.pre e.act = some (e.post, e.resp) ∧ s = e.post := by
  cases h with
  | step hr hs => exact ⟨hr, hs, rfl⟩

/-- Every entry of a run is a step of the machine from a state the run reached before. -/
theorem Run.split {newer older : History σ α ρ} {e : Entry σ α ρ} {s : σ}
    (h : M.Run (newer ++ e :: older) s) :
    M.Run (e :: older) e.post ∧ M.Run older e.pre ∧ M.step e.pre e.act = some (e.post, e.resp) := by
  induction newer generalizing s with
  | nil =>
    obtain ⟨hr, hs, rfl⟩ := Run.cons h
    exact ⟨h, hr, hs⟩
  | cons e' newer ih => exact ih (Run.cons h).1

/-- What holds initially and is kept by every step holds of every run. `A` is an assumption on the
    history that a longer history passes on to a shorter one. -/
theorem Run.invariant {A : History σ α ρ → Prop} {I : History σ α ρ → σ → Prop}
    (hA : ∀ e tr, A (e :: tr) → A tr) (h0 : ∀ s, M.init s → I [] s)
    (hs : ∀ tr s a s' r, M.Run tr s → A (⟨s, a, s', r⟩ :: tr) → I tr s →
      M.step s a = some (s', r) → I (⟨s, a, s', r⟩ :: tr) s')
    {tr : History σ α ρ} {s : σ} (h : M.Run tr s) (ha : A tr) : I tr s := by
  induction h with
  | start hi => exact h0 _ hi
  | step hr hstep ih => exact hs _ _ _ _ _ hr ha (ih (hA _ _ ha)) hstep

/-- What an entry establishes and every newer step keeps, and what it rules out from then on. -/
theorem Run.never {A : History σ α ρ → Prop} {P : Entry σ α ρ → Prop}
    {J : History σ α ρ → σ → Prop} (hA : ∀ e tr, A (e :: tr) → A tr)
    (hq : ∀ e tr, M.Run (e :: tr) e.post → A (e :: tr) → J tr e.pre → ¬ P e ∧ J (e :: tr) e.post)
    {newer older : History σ α ρ} {e : Entry σ α ρ} {s : σ} (h : M.Run (newer ++ e :: older) s)
    (ha : A (newer ++ e :: older)) (hp : J (e :: older) e.post) :
    (∀ e' ∈ newer, ¬ P e') ∧ J (newer ++ e :: older) s := by
  induction newer generalizing s with
  | nil =>
    obtain ⟨-, -, rfl⟩ := Run.cons h
    exact ⟨by simp, hp⟩
  | cons e' newer ih =>
    obtain ⟨hrun, -, rfl⟩ := Run.cons h
    obtain ⟨hnever, hj⟩ := ih hrun (hA _ _ ha)
    obtain ⟨hne, hj'⟩ := hq _ _ h ha hj
    refine ⟨fun x hx => ?_, hj'⟩
    rcases List.mem_cons.mp hx with rfl | hx
    · exact hne
    · exact hnever x hx

/-- What an entry establishes and every newer step of some kind keeps. -/
theorem Run.since {A : History σ α ρ → Prop} {Q : Entry σ α ρ → Prop}
    {J : History σ α ρ → σ → Prop} (hA : ∀ e tr, A (e :: tr) → A tr)
    (hq : ∀ e tr, M.Run (e :: tr) e.post → A (e :: tr) → Q e → J tr e.pre → J (e :: tr) e.post)
    {newer older : History σ α ρ} {e : Entry σ α ρ} {s : σ} (h : M.Run (newer ++ e :: older) s)
    (ha : A (newer ++ e :: older)) (hp : J (e :: older) e.post) (hall : ∀ x ∈ newer, Q x) :
    J (newer ++ e :: older) s := by
  induction newer generalizing s with
  | nil =>
    obtain ⟨-, -, rfl⟩ := Run.cons h
    exact hp
  | cons x newer ih =>
    obtain ⟨hrun, -, rfl⟩ := Run.cons h
    have hj := ih hrun (hA _ _ ha) fun y hy => hall y (List.mem_cons_of_mem x hy)
    exact hq x _ h ha (hall x List.mem_cons_self) hj

/-- What rules itself out from the first time on happens at most once. -/
theorem Run.atMostOnce {A : History σ α ρ → Prop} {P : Entry σ α ρ → Prop}
    {J : History σ α ρ → σ → Prop} (hA : ∀ e tr, A (e :: tr) → A tr)
    (hp : ∀ e tr, M.Run (e :: tr) e.post → A (e :: tr) → P e → J (e :: tr) e.post)
    (hq : ∀ e tr, M.Run (e :: tr) e.post → A (e :: tr) → J tr e.pre → ¬ P e ∧ J (e :: tr) e.post)
    {tr : History σ α ρ} {s : σ} (h : M.Run tr s) (ha : A tr) : AtMostOnce P tr := by
  induction h with
  | start => exact List.Pairwise.nil
  | @step tr s a s' r hr hstep ih =>
    refine List.pairwise_cons.mpr ⟨fun e he hboth => ?_, ih (hA _ _ ha)⟩
    obtain ⟨newer, older, rfl⟩ := List.append_of_mem he
    have hrun : M.Run (⟨s, a, s', r⟩ :: newer ++ e :: older) s' := Run.step hr hstep
    have hold : A (e :: older) := of_append hA (hA _ _ ha)
    exact (Run.never hA hq hrun ha (hp e older hr.split.1 hold hboth.2)).1 _ (by simp) hboth.1

/-! ### What is seen from outside -/

/-- What is seen of a list of actions: the response of each, or that it was not enabled, and what
    `view` shows of the state. Behind every step the state may move as `R` allows. -/
inductive Observes {β : Type} (M : Machine σ α ρ) (R : σ → σ → Prop) (view : σ → β) :
    List α → σ → List (Option (ρ × β)) → Prop
  | nil (s : σ) : Observes M R view [] s []
  | skip {a : α} {as : List α} {s : σ} {seen : List (Option (ρ × β))} :
      M.step s a = none → Observes M R view as s seen →
      Observes M R view (a :: as) s (none :: seen)
  | step {a : α} {as : List α} {s s' s'' : σ} {r : ρ} {seen : List (Option (ρ × β))} :
      M.step s a = some (s', r) → R s' s'' → Observes M R view as s'' seen →
      Observes M R view (a :: as) s (some (r, view s'') :: seen)

/-- The same is seen of two states that every step keeps related: `B` relates them, `I` is an
    invariant of the first. -/
theorem Observes.eq {β : Type} {R R' B : σ → σ → Prop} {I : σ → Prop} {view : σ → β}
    (hskip : ∀ s s' a, I s → B s s' → (M.step s a = none ↔ M.step s' a = none))
    (hstep : ∀ s s' a s1 s1' s2 s2' r r', I s → B s s' → M.step s a = some (s1, r) → R s1 s2 →
      M.step s' a = some (s1', r') → R' s1' s2' → r = r' ∧ view s2 = view s2' ∧ I s2 ∧ B s2 s2')
    {as : List α} {s s' : σ} {seen seen' : List (Option (ρ × β))} (h : M.Observes R view as s seen)
    (h' : M.Observes R' view as s' seen') (hi : I s) (hb : B s s') : seen = seen' := by
  induction h generalizing s' seen' with
  | nil s =>
    cases h'
    rfl
  | skip hnone _ ih =>
    cases h' with
    | skip _ h' => exact congrArg _ (ih h' hi hb)
    | step hsome => rw [(hskip _ _ _ hi hb).mp hnone] at hsome; cases hsome
  | step hsome hr _ ih =>
    cases h' with
    | skip hnone => rw [(hskip _ _ _ hi hb).mpr hnone] at hsome; cases hsome
    | step hsome' hr' h' =>
      obtain ⟨rfl, hview, hi', hb'⟩ := hstep _ _ _ _ _ _ _ _ _ hi hb hsome hr hsome' hr'
      rw [hview, ih h' hi' hb']

end Machine

end Lib
