import DataRelay.Lib.Trace

/-! Processes that share a state, and a rely-guarantee rule for them.

    A program is a tree of calls: it ends with a value, or makes one call and goes on with the
    answer. Between any two calls of a process any other process can run, and a process that has not
    ended can crash. A `World` says what a call does; every choice it leaves open is an argument.

    A `Discipline` is what the processes keep up together: an invariant of the shared state and of a
    ghost state beside it, what each process can rely on while the others run, and an order in which
    every step goes up. `Safe` is the proof obligation of one program; `Ok.step` and `Ok.run` say that
    safe programs stay safe in any interleaving. -/

namespace Lib

/-- A program with calls `c : C`, answered in `R c`, and a result in `α`. -/
inductive Prog {C : Type} (R : C → Type) (α : Type) where
  | ret (a : α)
  | call (c : C) (k : R c → Prog R α)

section Programs
variable {C : Type} {R : C → Type} {α β : Type}

namespace Prog

/-- One program after another, the second given what the first returned. -/
def bind : Prog R α → (α → Prog R β) → Prog R β
  | .ret a, f => f a
  | .call c k, f => .call c fun r => bind (k r) f

instance : Monad (Prog R) where
  pure := .ret
  bind := bind

@[simp] theorem pure_eq (a : α) : (pure a : Prog R α) = .ret a := rfl
@[simp] theorem ret_bind (a : α) (f : α → Prog R β) : (.ret a >>= f : Prog R β) = f a := rfl
@[simp] theorem call_bind (c : C) (k : R c → Prog R α) (f : α → Prog R β) :
    (.call c k >>= f : Prog R β) = .call c fun r => k r >>= f := rfl

/-- A program over other calls, each of them made as one of the new calls. -/
def lift {C' : Type} {R' : C' → Type} (embed : C → C') (back : ∀ c, R' (embed c) → R c) :
    Prog R α → Prog R' α
  | .ret a => .ret a
  | .call c k => .call (embed c) fun r => lift embed back (k (back c r))

/-- Whatever its calls are answered, the program returns something in `S`. -/
inductive Only (S : α → Prop) : Prog R α → Prop where
  | ret {a : α} : S a → Only S (.ret a)
  | call {c : C} {k : R c → Prog R α} : (∀ r, Only S (k r)) → Only S (.call c k)

theorem Only.bind {S : β → Prop} {f : α → Prog R β} (h : ∀ a, (f a).Only S) :
    ∀ p : Prog R α, (p >>= f : Prog R β).Only S
  | .ret a => h a
  | .call _ k => .call fun r => Only.bind h (k r)

/-- The program makes these calls, and with these answers to them it returns `a`. -/
inductive Returns : Prog R α → List ((c : C) × R c) → α → Prop where
  | ret (a : α) : Returns (.ret a) [] a
  | call {c : C} {k : R c → Prog R α} {r : R c} {calls : List ((c : C) × R c)} {a : α} :
      Returns (k r) calls a → Returns (.call c k) (⟨c, r⟩ :: calls) a

/-- What two programs return one after another, the first one has returned for the second. -/
theorem Returns.of_bind {f : α → Prog R β} : ∀ {p : Prog R α} {calls : List ((c : C) × R c)} {b : β},
    (p >>= f : Prog R β).Returns calls b →
      ∃ calls₁ calls₂ a, calls = calls₁ ++ calls₂ ∧ p.Returns calls₁ a ∧ (f a).Returns calls₂ b
  | .ret a, calls, _, h => ⟨[], calls, a, rfl, .ret a, h⟩
  | .call _ _, _, _, .call h => by
    obtain ⟨calls₁, calls₂, a, rfl, h₁, h₂⟩ := Returns.of_bind h
    exact ⟨_, calls₂, a, rfl, .call h₁, h₂⟩

/-- The run of a program whose calls are answered by a function. -/
def replay (answer : (c : C) → R c) : Prog R α → List ((c : C) × R c) × α
  | .ret a => ([], a)
  | .call c k =>
    let rest := replay answer (k (answer c))
    (⟨c, answer c⟩ :: rest.1, rest.2)

theorem returns_replay (answer : (c : C) → R c) :
    ∀ p : Prog R α, p.Returns (p.replay answer).1 (p.replay answer).2
  | .ret a => .ret a
  | .call _ k => .call (returns_replay answer (k _))

end Prog

/-- What calls do. `exec pid s c x` is the answer to the call `c` of the process `pid` and the state
    after it, for the choice `x`; it is `none` where the call cannot go on. `crash pid` is what is
    left of the state when the process ends before its program does. -/
structure World (σ : Type) {C : Type} (R : C → Type) (X : Type) where
  exec : ℕ → σ → (c : C) → X → Option (R c × σ)
  crash : ℕ → σ → σ

/-- A process: what it was started for, and what is left of its program, `none` after a crash. -/
structure Process {C : Type} (R : C → Type) (τ α : Type) where
  task : τ
  rest : Option (Prog R α)

/-- The shared state and the processes over it. -/
structure System (σ : Type) {C : Type} (R : C → Type) (τ α : Type) where
  shared : σ
  procs : List (Process R τ α)

/-- A process is started, makes its next call, or crashes. -/
inductive Move (τ X : Type) where
  | start (task : τ)
  | call (pid : ℕ) (x : X)
  | crash (pid : ℕ)

end Programs

section Systems
variable {C : Type} {R : C → Type} {σ X τ α : Type}

namespace System

/-- The call a process is at. -/
def next (sys : System σ R τ α) (pid : ℕ) : Option (τ × (c : C) × (R c → Prog R α)) :=
  match sys.procs[pid]? with
  | some ⟨task, some (.call c k)⟩ => some (task, ⟨c, k⟩)
  | _ => none

/-- What a process returned. -/
def returned (sys : System σ R τ α) (pid : ℕ) : Option (τ × α) :=
  match sys.procs[pid]? with
  | some ⟨task, some (.ret a)⟩ => some (task, a)
  | _ => none

/-- The system after one move: a new process, or one call of an existing one with its input. -/
def step (W : World σ R X) (body : τ → Prog R α) (sys : System σ R τ α) :
    Move τ X → Option (System σ R τ α)
  | .start task => some { sys with procs := sys.procs ++ [⟨task, some (body task)⟩] }
  | .call pid x =>
    match sys.next pid with
    | some (task, ⟨c, k⟩) => (W.exec pid sys.shared c x).map fun (r, s) =>
        ⟨s, sys.procs.set pid ⟨task, some (k r)⟩⟩
    | none => none
  | .crash pid =>
    match sys.next pid with
    | some (task, _) => some ⟨W.crash pid sys.shared, sys.procs.set pid ⟨task, none⟩⟩
    | none => none

/-- The processes as a machine that starts without any. -/
def machine (W : World σ R X) (body : τ → Prog R α) (init : σ → Prop) :
    Machine (System σ R τ α) (Move τ X) Unit where
  init sys := init sys.shared ∧ sys.procs = []
  step sys move := (sys.step W body move).map (·, ())

end System

/-- What the processes keep up together, over the shared state and a ghost state. -/
structure Discipline (W : World σ R X) (τ γ : Type) where
  inv : σ × γ → Prop
  /-- What the others may do between two calls of a process. -/
  rely : ℕ → σ × γ → σ × γ → Prop
  /-- What every step does. -/
  up : σ × γ → σ × γ → Prop
  /-- What is known once a process, for its task, was given an answer to a call. -/
  tells : ℕ → τ → (c : C) → R c → σ × γ → Prop
  rely_refl : ∀ pid w, rely pid w w
  rely_trans : ∀ pid w w' w'', rely pid w w' → rely pid w' w'' → rely pid w w''
  up_refl : ∀ w, up w w
  up_trans : ∀ w w' w'', up w w' → up w' w'' → up w w''
  crash : ∀ pid s g, inv (s, g) → ∃ g', inv (W.crash pid s, g') ∧
    (∀ q, q ≠ pid → rely q (s, g) (W.crash pid s, g')) ∧ up (s, g) (W.crash pid s, g')

namespace Discipline
variable {W : World σ R X} {γ : Type} (D : Discipline W τ γ)

/-- The program keeps the discipline, from now on and whatever the others do, and `Q` holds of what
    it returns for as long as the others keep the discipline too. -/
def Safe (task : τ) (Q : α → σ × γ → Prop) (pid : ℕ) : Prog R α → σ × γ → Prop
  | .ret a, w => ∀ w', D.rely pid w w' → D.inv w' → Q a w'
  | .call c k, w => ∀ w', D.rely pid w w' → D.inv w' → ∀ x r s,
      W.exec pid w'.1 c x = some (r, s) → ∃ g, D.inv (s, g) ∧
        (∀ q, q ≠ pid → D.rely q w' (s, g)) ∧ D.up w' (s, g) ∧ D.tells pid task c r (s, g) ∧
        Safe task Q pid (k r) (s, g)

variable {D} {task : τ} {Q Q' : α → σ × γ → Prop} {pid : ℕ}

theorem Safe.ret {a : α} {w : σ × γ} (h : ∀ w', D.rely pid w w' → Q a w') :
    D.Safe task Q pid (.ret a) w :=
  fun w' hr _ => h w' hr

/-- What the others do does not make a program unsafe. -/
theorem Safe.later {p : Prog R α} {w w' : σ × γ} (h : D.Safe task Q pid p w) (hr : D.rely pid w w') :
    D.Safe task Q pid p w' := by
  cases p with
  | ret a => exact fun w'' hr' hi => h w'' (D.rely_trans _ _ _ _ hr hr') hi
  | call c k => exact fun w'' hr' hi => h w'' (D.rely_trans _ _ _ _ hr hr') hi

theorem Safe.imp (hq : ∀ a w, Q a w → Q' a w) : ∀ {p : Prog R α} {w : σ × γ},
    D.Safe task Q pid p w → D.Safe task Q' pid p w
  | .ret a, _, h => fun w' hr hi => hq _ _ (h w' hr hi)
  | .call c k, _, h => fun w' hr hi x r s he => by
    obtain ⟨g, hinv, hrely, hup, htells, hsafe⟩ := h w' hr hi x r s he
    exact ⟨g, hinv, hrely, hup, htells, hsafe.imp hq⟩

theorem Safe.only {S : α → Prop} : ∀ {p : Prog R α} {w : σ × γ}, D.Safe task Q pid p w →
    p.Only S → D.Safe task (fun a w => Q a w ∧ S a) pid p w
  | .ret _, _, h, .ret hs => fun w' hr hi => ⟨h w' hr hi, hs⟩
  | .call _ _, _, h, .call hs => fun w' hr hi x r s he => by
    obtain ⟨g, hinv, hrely, hup, htells, hsafe⟩ := h w' hr hi x r s he
    exact ⟨g, hinv, hrely, hup, htells, hsafe.only (hs r)⟩

/-- Two programs one after the other. -/
theorem Safe.bind {β : Type} {Q : β → σ × γ → Prop} {f : α → Prog R β} :
    ∀ {p : Prog R α} {w : σ × γ},
      D.Safe task (fun a w' => D.inv w' → D.Safe task Q pid (f a) w') pid p w → D.inv w →
        D.Safe task Q pid (p >>= f) w
  | .ret a, w, h, hi => h w (D.rely_refl _ _) hi hi
  | .call c k, _, h, _ => fun w' hr hi x r s he => by
    obtain ⟨g, hinv, hrely, hup, htells, hsafe⟩ := h w' hr hi x r s he
    exact ⟨g, hinv, hrely, hup, htells, Safe.bind hsafe hinv⟩

/-- A call that leaves the shared state alone. -/
theorem Safe.look {c : C} {k : R c → Prog R α} {w : σ × γ}
    (hpure : ∀ s x r s', W.exec pid s c x = some (r, s') → s' = s)
    (h : ∀ w', D.rely pid w w' → D.inv w' → ∀ x r, W.exec pid w'.1 c x = some (r, w'.1) →
      D.tells pid task c r w' ∧ D.Safe task Q pid (k r) w') : D.Safe task Q pid (.call c k) w := by
  rintro ⟨s, g⟩ hr hi x r s' he
  obtain rfl := hpure _ _ _ _ he
  exact ⟨g, hi, fun q _ => D.rely_refl _ _, D.up_refl _, h _ hr hi x r he⟩

/-- A safe program stays safe as a part of programs over more calls, that keep a discipline of their
    own: there its calls do to its part of the state what they did before, and `F` to the rest. -/
theorem Safe.lift {C' : Type} {R' : C' → Type} {σ' X' τ' γ' : Type} {W' : World σ' R' X'}
    {task' : τ'} {embed : C → C'} {back : ∀ c, R' (embed c) → R c} (D' : Discipline W' τ' γ')
    (proj : σ' × γ' → σ × γ) (F : σ' × γ' → σ' × γ' → Prop)
    (htrans : ∀ w w' w'', F w w' → F w' w'' → F w w'')
    (hinv : ∀ w, D'.inv w → D.inv (proj w))
    (hrely : ∀ w w', D'.rely pid w w' → D.rely pid (proj w) (proj w') ∧ F w w')
    (hstep : ∀ w c x r s, D'.inv w → W'.exec pid w.1 (embed c) x = some (r, s) →
      ∃ y t, W.exec pid (proj w).1 c y = some (back c r, t) ∧ ∀ g, D.inv (t, g) →
        (∀ q, q ≠ pid → D.rely q (proj w) (t, g)) → D.up (proj w) (t, g) →
        ∃ g', proj (s, g') = (t, g) ∧ D'.inv (s, g') ∧ (∀ q, q ≠ pid → D'.rely q w (s, g')) ∧
          D'.up w (s, g') ∧ D'.tells pid task' (embed c) r (s, g') ∧ F w (s, g')) :
    ∀ {p : Prog R α} {w₀ w : σ' × γ'}, D.Safe task Q pid p (proj w) → F w₀ w →
      D'.Safe task' (fun a w' => Q a (proj w') ∧ F w₀ w') pid (p.lift embed back) w
  | .ret a, w₀, w, h, hF => fun w' hr hi =>
    ⟨h _ (hrely w w' hr).1 (hinv w' hi), htrans _ _ _ hF (hrely w w' hr).2⟩
  | .call c k, w₀, w, h, hF => fun w' hr hi x r s he => by
    -- the outer step is a step of the inner world, which `h` covers
    obtain ⟨y, t, hexec, hback⟩ := hstep w' c x r s hi he
    obtain ⟨g, hg, hothers, hup, -, hsafe⟩ := h _ (hrely w w' hr).1 (hinv w' hi) y _ t hexec
    obtain ⟨g', hproj, hg', hothers', hup', htells', hF'⟩ := hback g hg hothers hup
    refine ⟨g', hg', hothers', hup', htells', ?_⟩
    rw [← hproj] at hsafe
    exact Safe.lift D' proj F htrans hinv hrely hstep hsafe
      (htrans _ _ _ (htrans _ _ _ hF (hrely w w' hr).2) hF')

/-- The invariant holds, and what is left of every process is safe. -/
def Ok (D : Discipline W τ γ) (post : ℕ → τ → α → σ × γ → Prop) (sys : System σ R τ α) (g : γ) :
    Prop :=
  D.inv (sys.shared, g) ∧ ∀ pid task p, sys.procs[pid]? = some ⟨task, some p⟩ →
    D.Safe task (post pid task) pid p (sys.shared, g)

variable {body : τ → Prog R α} {post : ℕ → τ → α → σ × γ → Prop} {sys sys' : System σ R τ α} {g : γ}

theorem next_eq {pid : ℕ} {task : τ} {c : C} {k : R c → Prog R α}
    (h : sys.next pid = some (task, ⟨c, k⟩)) : sys.procs[pid]? = some ⟨task, some (.call c k)⟩ := by
  unfold System.next at h
  split at h
  · next heq =>
    cases h
    exact heq
  · cases h

/-- The next call of a process keeps a system in order, and what its answer tells holds. -/
theorem Ok.call {pid : ℕ} {task : τ} {c : C} {k : R c → Prog R α} {x : X} {r : R c} {s : σ}
    (h : D.Ok post sys g) (hp : sys.procs[pid]? = some ⟨task, some (.call c k)⟩)
    (he : W.exec pid sys.shared c x = some (r, s)) :
    ∃ g', D.Ok post ⟨s, sys.procs.set pid ⟨task, some (k r)⟩⟩ g' ∧ D.up (sys.shared, g) (s, g') ∧
      D.tells pid task c r (s, g') := by
  obtain ⟨hinv, hsafe⟩ := h
  obtain ⟨g', hinv', hrely, hup, htells, hrest⟩ :=
    hsafe pid task _ hp (sys.shared, g) (D.rely_refl _ _) hinv x r s he
  refine ⟨g', ⟨hinv', fun q task' p hq => ?_⟩, hup, htells⟩
  by_cases hqp : q = pid
  · subst hqp
    rw [List.getElem?_set_self (List.getElem?_eq_some_iff.mp hp).1] at hq
    cases hq
    exact hrest
  · rw [List.getElem?_set_ne (Ne.symm hqp)] at hq
    exact (hsafe q task' p hq).later (hrely q hqp)

theorem step_call {pid : ℕ} {task : τ} {c : C} {k : R c → Prog R α} {x : X} {r : R c} {s : σ}
    (hnext : sys.next pid = some (task, ⟨c, k⟩)) (he : W.exec pid sys.shared c x = some (r, s)) :
    sys.step W body (.call pid x) = some ⟨s, sys.procs.set pid ⟨task, some (k r)⟩⟩ := by
  simp only [System.step, hnext, he, Option.map_some]

/-- One step of any process keeps a system in order. -/
theorem Ok.step {move : Move τ X} (h : D.Ok post sys g) (hs : sys.step W body move = some sys')
    (hstart : ∀ task, move = .start task →
      D.Safe task (post sys.procs.length task) sys.procs.length (body task) (sys.shared, g)) :
    ∃ g', D.Ok post sys' g' ∧ D.up (sys.shared, g) (sys'.shared, g') := by
  obtain ⟨hinv, hsafe⟩ := h
  cases move with
  | start task =>
    obtain rfl := Option.some.inj hs
    refine ⟨g, ⟨hinv, fun pid task' p hp => ?_⟩, D.up_refl _⟩
    rcases Nat.lt_or_ge pid sys.procs.length with hlt | hge
    · exact hsafe pid task' p (by rwa [List.getElem?_append_left hlt] at hp)
    · rw [List.getElem?_append_right hge] at hp
      obtain ⟨hpid, hproc⟩ := List.getElem?_eq_some_iff.mp hp
      have hzero : pid = sys.procs.length := by simp at hpid; omega
      subst hzero
      simp only [Nat.sub_self, List.getElem_cons_zero, Process.mk.injEq, Option.some.injEq] at hproc
      obtain ⟨rfl, rfl⟩ := hproc
      exact hstart _ rfl
  | call pid x =>
    simp only [System.step] at hs
    split at hs
    · next task c k hnext =>
      obtain ⟨⟨r, s⟩, hexec, rfl⟩ := Option.map_eq_some_iff.mp hs
      have hpid := next_eq hnext
      obtain ⟨g', hok, hup, -⟩ := Ok.call ⟨hinv, hsafe⟩ hpid hexec
      exact ⟨g', hok, hup⟩
    · cases hs
  | crash pid =>
    simp only [System.step] at hs
    split at hs
    · next task call hnext =>
      obtain rfl := Option.some.inj hs
      obtain ⟨g', hinv', hrely, hup⟩ := D.crash pid _ _ hinv
      refine ⟨g', ⟨hinv', fun q task' p hp => ?_⟩, hup⟩
      by_cases hq : q = pid
      · subst hq
        rw [List.getElem?_set_self (List.getElem?_eq_some_iff.mp (next_eq hnext)).1] at hp
        cases hp
      · rw [List.getElem?_set_ne (Ne.symm hq)] at hp
        exact (hsafe q task' p hp).later (hrely q hq)
    · cases hs

/-- The number of processes does not go down. -/
theorem length_procs_step {move : Move τ X} (hs : sys.step W body move = some sys') :
    sys.procs.length ≤ sys'.procs.length := by
  cases move with
  | start task =>
    obtain rfl := Option.some.inj hs
    simp
  | call pid x =>
    simp only [System.step] at hs
    split at hs
    · obtain ⟨⟨r, s⟩, -, rfl⟩ := Option.map_eq_some_iff.mp hs
      simp
    · cases hs
  | crash pid =>
    simp only [System.step] at hs
    split at hs
    · obtain rfl := Option.some.inj hs
      simp
    · cases hs

variable {init : σ → Prop} {newer older tr : History (System σ R τ α) (Move τ X) Unit}

/-- What a process returned stays its result. -/
theorem returned_step {pid : ℕ} {a : α} {move : Move τ X} (hs : sys.step W body move = some sys')
    (h : sys.returned pid = some (task, a)) : sys'.returned pid = some (task, a) := by
  have hproc : sys.procs[pid]? = some ⟨task, some (.ret a)⟩ := by
    unfold System.returned at h
    split at h
    · next heq =>
      cases h
      exact heq
    · cases h
  have hkeep : ∀ {q : ℕ} {t : τ} {c : C} {k : R c → Prog R α} (p : Process R τ α) (s : σ),
      sys.next q = some (t, ⟨c, k⟩) → (⟨s, sys.procs.set q p⟩ : System σ R τ α).returned pid =
        some (task, a) := by
    intro q t c k p s hnext
    have hne : q ≠ pid := by
      rintro rfl
      rw [next_eq hnext] at hproc
      cases hproc
    simp only [System.returned, List.getElem?_set_ne hne, hproc]
  cases move with
  | start task =>
    obtain rfl := Option.some.inj hs
    have hlt := (List.getElem?_eq_some_iff.mp hproc).1
    simp only [System.returned, List.getElem?_append_left hlt, hproc]
  | call q x =>
    simp only [System.step] at hs
    split at hs
    · next hnext =>
      obtain ⟨⟨r, s⟩, -, rfl⟩ := Option.map_eq_some_iff.mp hs
      exact hkeep _ _ hnext
    · cases hs
  | crash q =>
    simp only [System.step] at hs
    split at hs
    · next hnext =>
      obtain rfl := Option.some.inj hs
      exact hkeep _ _ hnext
    · cases hs

theorem machine_step {move : Move τ X}
    (h : (System.machine W body init).step sys move = some (sys', ())) :
    sys.step W body move = some sys' := by
  obtain ⟨t, ht, he⟩ := Option.map_eq_some_iff.mp h
  cases he
  exact ht

/-- What a process had returned at some step of a run is its result in the end. -/
theorem returned_run {e : Entry (System σ R τ α) (Move τ X) Unit} {pid : ℕ} {a : α}
    (h : (System.machine W body init).Run tr sys) (he : e ∈ tr)
    (hr : e.post.returned pid = some (task, a)) : sys.returned pid = some (task, a) := by
  induction tr generalizing sys with
  | nil => cases he
  | cons e' tr ih =>
    obtain ⟨hrun, hs, rfl⟩ := Machine.Run.cons h
    rcases List.mem_cons.mp he with rfl | he
    · exact hr
    · exact returned_step (machine_step hs) (ih hrun he)

/-- From a point at which the system is in order, with safe programs for the processes started since,
    it stays in order. -/
theorem Ok.run {e : Entry (System σ R τ α) (Move τ X) Unit} {g : γ}
    (h : (System.machine W body init).Run (newer ++ e :: older) sys) (hok : D.Ok post e.post g)
    (hbody : ∀ pid, e.post.procs.length ≤ pid → ∀ task w, D.inv w → D.up (e.post.shared, g) w →
      D.Safe task (post pid task) pid (body task) w) :
    e.post.procs.length ≤ sys.procs.length ∧
      ∃ g', D.Ok post sys g' ∧ D.up (e.post.shared, g) (sys.shared, g') := by
  induction newer generalizing sys with
  | nil =>
    obtain ⟨-, -, rfl⟩ := Machine.Run.cons h
    exact ⟨Nat.le_refl _, g, hok, D.up_refl _⟩
  | cons e' newer ih =>
    obtain ⟨hrun, hs, rfl⟩ := Machine.Run.cons h
    obtain ⟨hlen, g', hok', hup⟩ := ih hrun
    have hstep := machine_step hs
    obtain ⟨g'', hok'', hup'⟩ := hok'.step hstep fun task _ => hbody _ hlen task _ hok'.1 hup
    exact ⟨Nat.le_trans hlen (length_procs_step hstep), g'', hok'', D.up_trans _ _ _ hup hup'⟩

/-- Every system reached from the start is in order. -/
theorem run_ok (h : (System.machine W body init).Run tr sys)
    (hinit : ∀ s, init s → ∃ g, D.inv (s, g))
    (hbody : ∀ pid task w, D.inv w → D.Safe task (post pid task) pid (body task) w) :
    ∃ g, D.Ok post sys g := by
  induction h with
  | @start sys hi =>
    obtain ⟨g, hg⟩ := hinit _ hi.1
    refine ⟨g, hg, fun pid task p hp => ?_⟩
    rw [hi.2] at hp
    cases hp
  | step _ hs ih =>
    obtain ⟨g, hok⟩ := ih
    obtain ⟨g', hok', -⟩ := hok.step (machine_step hs) fun task _ => hbody _ task _ hok.1
    exact ⟨g', hok'⟩

/-- What a process returned is what its program promises. -/
theorem Ok.returned {pid : ℕ} {task : τ} {a : α} (h : D.Ok post sys g)
    (hr : sys.returned pid = some (task, a)) : post pid task a (sys.shared, g) := by
  unfold System.returned at hr
  split at hr
  · next hp =>
    cases hr
    exact h.2 _ _ _ hp _ (D.rely_refl _ _) h.1
  · cases hr

end Discipline

end Systems

end Lib
