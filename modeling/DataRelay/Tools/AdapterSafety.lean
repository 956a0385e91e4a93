import DataRelay.Tools.Adapter
import DataRelay.Tools.DispatchOnce
import DataRelay.Tools.SkillsSafety

/-! What an applied write rests on, and that a dispatch is granted once.

    The processes of a host that decide on dispatches run in any interleaving, and any of them can
    crash: `authorize` on the command line, the worker adapter, and the reservations of watch hosts.
    What each of them reads is its own, so whoever writes the files may change them at any time. -/

namespace DataRelay.Tools.Adapter
open Lib
open Dispatch (Makers Markers Made Stays creation creation_any creation_bind creation_consume
  creation_reserve safeDispatchToken)
open Host (canonicalRequestSha256)
open Skills (Abort Anchor Decision Grant HighRisk Sight Stop acceptRequest authorizeCheck
  highRiskClasses)

/-! ### The tasks of a host -/

inductive Task where
  | authorize (sight : Sight) (read : Except Stop Obj)
  | evaluate (view : View) (payload : Json)
  | consume (dispatchId : String)
  | reserve (dispatchId effectSha256 attemptId : String)
  | finalize (dispatchId effectSha256 attemptId : String)

inductive Answer where
  | decision (d : Except Abort Decision)
  | report (r : Except Failure Report)
  | reply (r : Dispatch.Reply)

def Task.body : Task → Dispatch.Program Answer
  | .authorize sight read => do return .decision (← Skills.authorize sight read true)
  | .evaluate view payload => do return .report (← Adapter.evaluate view payload true)
  | .consume dispatchId => do return .reply (← Dispatch.consumeDispatchOnce dispatchId)
  | .reserve dispatchId effect attempt => do
    return .reply (← Dispatch.reserveDispatch dispatchId effect attempt)
  | .finalize dispatchId effect attempt => do
    return .reply (← Dispatch.finalizeDispatch dispatchId effect attempt)

/-- The tasks that consume a dispatch at once. -/
def Task.consumes : Task → Prop
  | .authorize .. | .evaluate .. | .consume _ => True
  | _ => False

/-- Any number of processes on a host without markers. -/
def machine : Machine (System Markers Dispatch.Call.Answer Task Answer) (Move Task Dispatch.Choice)
    Unit :=
  System.machine Dispatch.world Task.body fun s => s = fun _ => none

/-- The dispatch that the gate consumes for an effect. -/
def gateDispatch (view : View) (verification : Option Host.Verification) (effect : Obj) :
    Option String :=
  match gateCheck view verification effect with
  | .ok (.ok worktree) =>
    match authorizeCheck (view.sightAt worktree) (acceptRequest effect) with
    | .ok dispatchId => dispatchId
    | .error _ => none
  | _ => none

/-- The dispatch that a run of `evaluate` consumes for its write. -/
def dispatchOf (view : View) (payload : Json) : Option String :=
  match readPayload payload with
  | .ok (.ok r) => gateDispatch view r.verification r.effect
  | _ => none

/-- The answer lets something happen, and the dispatch was taken for it. -/
def Granted (dispatchId : String) : Task → Answer → Prop
  | .authorize sight read, .decision d => d = .ok .allow ∧
      authorizeCheck sight read = .ok (some dispatchId)
  | .evaluate view payload, .report r => (∃ report, r = .ok report ∧ report.authorizesWrite = true) ∧
      dispatchOf view payload = some dispatchId
  | .consume id, .reply r => r = .ok ∧ id = dispatchId
  | .reserve id _ _, .reply r => r = .reserved ∧ id = dispatchId
  | _, _ => False

/-! ### What the operations make of a consumption -/

theorem gateOf_allow {d : Except Abort Decision} (h : gateOf d = .ok .allow) : ∃ decision,
    d = .ok decision ∧ decision.allowed = true := by
  unfold gateOf at h
  split at h
  · next decision =>
    split at h
    · next hallowed => exact ⟨decision, rfl, hallowed⟩
    split at h <;> cases h
  · cases h
  · cases h

/-- The only decision of `authorize` that allows is `ALLOW`. -/
theorem authorize_only (sight : Sight) (read : Except Stop Obj) :
    (Skills.authorize sight read true).Only fun d =>
      ∀ decision, d = .ok decision → decision.allowed = true → d = .ok .allow := by
  have hdeny : ∀ reason, ∀ decision, (Except.ok (Decision.deny reason) : Except Abort Decision) =
      .ok decision → decision.allowed = true →
        (Except.ok (Decision.deny reason) : Except Abort Decision) = .ok .allow := by
    rintro reason _ ⟨⟩ h
    cases h
  unfold Skills.authorize
  split
  · exact .ret fun _ h => by cases h
  · exact .ret (hdeny _)
  · refine Prog.Only.bind (fun reply => ?_) _
    split
    · exact .ret fun _ _ _ => rfl
    · exact .ret (hdeny _)
    · exact .ret (hdeny _)
  · exact .ret fun _ _ _ => rfl

-- only the rules of `Safe` are used from here on: its cases would run the programs
attribute [local irreducible] Discipline.Safe

/-- What a consumption of a dispatch promises, and the others leave alone. -/
structure Promises {τ γ : Type} (D : Discipline Dispatch.world τ γ) (task : τ) (pid : ℕ)
    (P : String → Markers × γ → Prop) : Prop where
  consume : ∀ dispatchId w, D.inv w → D.Safe task (fun reply w' => reply = .ok → P dispatchId w') pid
    (Dispatch.consumeDispatchOnce dispatchId) w
  later : ∀ dispatchId w w', P dispatchId w → D.rely pid w w' → P dispatchId w'

section Safe
variable {τ γ : Type} {D : Discipline Dispatch.world τ γ} {task : τ} {pid : ℕ}
  {P : String → Markers × γ → Prop} {w : Markers × γ}

theorem safe_consumeGranted (h : Promises D task pid P) (dispatchId : String) (hinv : D.inv w) :
    D.Safe task (fun d w' => d = .ok .allow → P dispatchId w') pid
      (Skills.consumeGranted dispatchId) w := by
  unfold Skills.consumeGranted
  refine Discipline.Safe.bind ((h.consume dispatchId w hinv).imp fun reply w₁ hreply _ => ?_) hinv
  split
  · exact Discipline.Safe.ret fun w' hrely _ => h.later _ _ _ (hreply rfl) hrely
  · exact Discipline.Safe.ret fun _ _ h => by cases h
  · exact Discipline.Safe.ret fun _ _ h => by cases h

theorem safe_authorize (h : Promises D task pid P) (sight : Sight) (read : Except Stop Obj)
    (hinv : D.inv w) : D.Safe task (fun d w' => d = .ok .allow → ∀ dispatchId,
      authorizeCheck sight read = .ok (some dispatchId) → P dispatchId w') pid
        (Skills.authorize sight read true) w := by
  unfold Skills.authorize
  cases hcheck : authorizeCheck sight read with
  | error e =>
    cases e with
    | denied reason => exact Discipline.Safe.ret fun _ _ _ _ h => by cases h
    | aborted e => exact Discipline.Safe.ret fun _ _ _ _ h => by cases h
  | ok dispatchId =>
    cases dispatchId with
    | none => exact Discipline.Safe.ret fun _ _ _ _ h => by cases h
    | some id =>
      refine (safe_consumeGranted h id hinv).imp fun d w' hd hallow dispatchId hid => ?_
      obtain rfl : id = dispatchId := by simpa using hid
      exact hd hallow

theorem safe_gate (h : Promises D task pid P) (view : View)
    (verification : Option Host.Verification) (effect : Obj) (hinv : D.inv w) :
    D.Safe task (fun g w' => g = .ok .allow → ∀ dispatchId,
      gateDispatch view verification effect = some dispatchId → P dispatchId w') pid
        (authorizeConcreteEffect view verification effect true) w := by
  unfold authorizeConcreteEffect gateDispatch
  cases gateCheck view verification effect with
  | error e => exact Discipline.Safe.ret fun _ _ h => by cases h
  | ok found =>
  cases found with
  | error gate => exact Discipline.Safe.ret fun _ _ _ _ h => by cases h
  | ok worktree =>
    -- an ALLOW of the gate comes from an ALLOW of the skills check
    refine Discipline.Safe.bind (((safe_authorize h (view.sightAt worktree)
      (acceptRequest effect) hinv).only (authorize_only _ _)).imp fun d w₁ hd _ => ?_) hinv
    refine Discipline.Safe.ret fun w' hrely hallow dispatchId hid => ?_
    obtain ⟨decision, rfl, hallowed⟩ := gateOf_allow hallow
    refine h.later _ _ _ (hd.1 (hd.2 decision rfl hallowed) dispatchId ?_) hrely
    dsimp only at hid
    split at hid
    · next hcheck => rw [hcheck, hid]
    · cases hid

theorem safe_evaluate (h : Promises D task pid P) (view : View) (payload : Json)
    (hinv : D.inv w) :
    D.Safe task (fun r w' => (∃ report, r = .ok report ∧ report.authorizesWrite = true) →
      ∀ dispatchId, dispatchOf view payload = some dispatchId → P dispatchId w') pid
        (evaluate view payload true) w := by
  unfold evaluate dispatchOf
  cases readPayload payload with
  | error reason => exact Discipline.Safe.ret fun _ _ ⟨_, h, _⟩ => by cases h
  | ok found =>
  cases found with
  | error report => exact Discipline.Safe.ret fun _ _ _ _ h => by cases h
  | ok r =>
  dsimp only
  split
  · refine Discipline.Safe.ret fun _ _ ⟨_, h, hw⟩ => ?_
    cases h
    cases hw
  refine Discipline.Safe.bind ((safe_gate h view _ _ hinv).imp fun g w₁ hg _ => ?_) hinv
  split
  · next gate =>
    refine Discipline.Safe.ret fun w' hrely ⟨report, heq, hw⟩ dispatchId hid => ?_
    cases heq
    cases gate with
    | allow => exact h.later _ _ _ (hg rfl dispatchId hid) hrely
    | replay => cases hw
    | denied reason => cases hw
  · exact Discipline.Safe.ret fun _ _ ⟨_, h, _⟩ => by cases h

/-- A grant of whoever consumes has what the consumption promises. -/
theorem safe_body (h : Promises D task pid P) {operation : Task} (hc : operation.consumes)
    (hinv : D.inv w) : D.Safe task (fun a w' => ∀ dispatchId, Granted dispatchId operation a →
      P dispatchId w') pid operation.body w := by
  cases operation with
  | authorize sight read =>
    refine Discipline.Safe.bind ((safe_authorize h sight read hinv).imp fun d w₁ hd _ => ?_) hinv
    exact Discipline.Safe.ret fun w' hrely id hg => h.later _ _ _ (hd hg.1 id hg.2) hrely
  | evaluate view payload =>
    refine Discipline.Safe.bind ((safe_evaluate h view payload hinv).imp fun r w₁ hr _ => ?_) hinv
    exact Discipline.Safe.ret fun w' hrely id hg => h.later _ _ _ (hr hg.1 id hg.2) hrely
  | consume id =>
    refine Discipline.Safe.bind ((h.consume id w hinv).imp fun r w₁ hr _ => ?_) hinv
    refine Discipline.Safe.ret fun w' hrely id' ⟨hok, hid⟩ => ?_
    subst hid
    exact h.later _ _ _ (hr hok) hrely
  | reserve id effect attempt => exact hc.elim
  | finalize id effect attempt => exact hc.elim

end Safe

/-! ### A dispatch is granted once -/

/-- The process created the marker of the dispatch. -/
def MadeBy (pid : ℕ) (dispatchId : String) (w : Markers × Makers) : Prop :=
  ∃ token, safeDispatchToken dispatchId = some token ∧ w.2 token = some pid

/-- The marker of the dispatch is nobody's reservation. -/
def Unreserved (dispatchId : String) (w : Markers × Dispatch.Ghost) : Prop :=
  ∀ token, safeDispatchToken dispatchId = some token → Dispatch.OwnedBy token none w

theorem promises_creation {τ : Type} (task : τ) (pid : ℕ) :
    Promises (creation τ) task pid (MadeBy pid) where
  consume dispatchId w _ := (creation_consume dispatchId w).imp fun _ _ h hok => h (.inl hok)
  later _ _ _ := fun ⟨token, htoken, hmade⟩ hstays => ⟨token, htoken, hstays _ _ hmade⟩

theorem promises_ownership {τ : Type} (consumes : τ → Prop) (task : τ) (pid : ℕ) :
    Promises (Dispatch.ownership consumes) task pid Unreserved where
  consume dispatchId _ _ := (Dispatch.keeps_consume dispatchId).imp
    fun _ _ h hok token htoken => h.taking token ⟨htoken, hok⟩
  later _ _ _ := fun h hrely token htoken => (h token htoken).up hrely.1

/-- Whoever grants a dispatch created its marker. -/
theorem creation_body (operation : Task) {pid : ℕ} {w : Markers × Makers} (hmade : Made w) :
    (creation Task).Safe operation (fun a w' => ∀ dispatchId, Granted dispatchId operation a →
      MadeBy pid dispatchId w') pid operation.body w := by
  cases operation with
  | reserve id effect attempt =>
    refine Discipline.Safe.bind ((creation_reserve id effect attempt w).imp fun r w₁ hr _ => ?_)
      hmade
    refine Discipline.Safe.ret fun w' hstays dispatchId ⟨hok, hid⟩ => ?_
    subst hid
    obtain ⟨token, htoken, hmade⟩ := hr (.inr hok)
    exact ⟨token, htoken, hstays _ _ hmade⟩
  | finalize id effect attempt =>
    exact (creation_any _ w).imp fun a w' _ dispatchId h => by cases a <;> cases h
  | _ => exact safe_body (promises_creation _ _) trivial hmade

/-- The answers of a watch host that a dispatch is for its effect and attempt. -/
def Owning (token : String) (b : Dispatch.Binding) : Task → Answer → Prop
  | .reserve id effect attempt, .reply r =>
    Dispatch.Owning (.reserve id effect attempt) r token b
  | .finalize id effect attempt, .reply r =>
    Dispatch.Owning (.finalize id effect attempt) r token b
  | _, _ => False

/-- What an answer says about the owner of a dispatch. -/
structure Truthful (operation : Task) (a : Answer) (w : Markers × Dispatch.Ghost) : Prop where
  granted : operation.consumes → ∀ dispatchId, Granted dispatchId operation a →
    Unreserved dispatchId w
  owning : ∀ token b, Owning token b operation a → Dispatch.OwnedBy token (some b) w

theorem ownership_body (operation : Task) {pid : ℕ} {w : Markers × Dispatch.Ghost}
    (hinv : Dispatch.Inv w) : (Dispatch.ownership Task.consumes).Safe operation
      (Truthful operation) pid operation.body w := by
  cases operation with
  | reserve id effect attempt =>
    -- reserving and finalizing answer for the owner of a marker
    refine Discipline.Safe.bind ((Dispatch.keeps_reserve id effect attempt
      (fun h => h.elim)).imp fun r w₁ hr _ => ?_) hinv
    exact Discipline.Safe.ret fun w' hrely => ⟨fun h => h.elim,
      fun token b ho => (hr.owning token b ho).up hrely.1⟩
  | finalize id effect attempt =>
    refine Discipline.Safe.bind ((Dispatch.keeps_finalize id effect attempt).imp
      fun r w₁ hr _ => ?_) hinv
    exact Discipline.Safe.ret fun w' hrely => ⟨fun h => h.elim,
      fun token b ho => (hr.owning token b ho).up hrely.1⟩
  | authorize sight read =>
    have hc : (Task.authorize sight read).consumes := trivial
    exact (safe_body (promises_ownership _ _ _) hc hinv).imp
      fun a w' h => ⟨fun _ => h, fun token b ho => by cases a <;> cases ho⟩
  | evaluate view payload =>
    have hc : (Task.evaluate view payload).consumes := trivial
    exact (safe_body (promises_ownership _ _ _) hc hinv).imp
      fun a w' h => ⟨fun _ => h, fun token b ho => by cases a <;> cases ho⟩
  | consume id =>
    have hc : (Task.consume id).consumes := trivial
    exact (safe_body (promises_ownership _ _ _) hc hinv).imp
      fun a w' h => ⟨fun _ => h, fun token b ho => by cases a <;> cases ho⟩

/-- A process was seen with its answer. -/
def Answered (tr : History (System Markers Dispatch.Call.Answer Task Answer)
    (Move Task Dispatch.Choice) Unit) (operation : Task) (a : Answer) (pid : ℕ) : Prop :=
  ∃ e ∈ tr, e.post.returned pid = some (operation, a)

/-- A dispatch is granted to one process, however many run and whatever they read: to one
    `authorize`, one write, or the watch host that reserves it first. What was granted at once is
    never owned by a watch host. -/
theorem granted_once {tr : History (System Markers Dispatch.Call.Answer Task Answer)
      (Move Task Dispatch.Choice) Unit} {sys : System Markers Dispatch.Call.Answer Task Answer}
    (h : machine.Run tr sys) {token id id' : String} (hid : safeDispatchToken id = some token)
    (hid' : safeDispatchToken id' = some token) {operation operation' : Task} {a a' : Answer}
    {pid pid' : ℕ} (ha : Answered tr operation a pid) (ha' : Answered tr operation' a' pid')
    (hg : Granted id operation a) :
    (Granted id' operation' a' → pid = pid') ∧
      (operation.consumes → ∀ b, ¬ Owning token b operation' a') := by
  have hanswer : ∀ {operation a pid}, Answered tr operation a pid →
      sys.returned pid = some (operation, a) := by
    rintro operation a pid ⟨e, he, hr⟩
    exact Discipline.returned_run h he hr
  constructor
  · -- both granted dispatches were made by their process, and a marker has one maker
    intro hg'
    obtain ⟨g, hok⟩ := Discipline.run_ok (D := creation Task) h
      (fun s hs => ⟨fun _ => none, fun token => by subst hs; rfl⟩)
      fun pid task w hi => creation_body task hi
    obtain ⟨t, ht, hmade⟩ := hok.returned (hanswer ha) id hg
    obtain ⟨t', ht', hmade'⟩ := hok.returned (hanswer ha') id' hg'
    cases hid.symm.trans ht
    cases hid'.symm.trans ht'
    exact Option.some.inj (hmade.symm.trans hmade')
  · -- a marker without an owner is not owned by another process
    intro hc b ho
    obtain ⟨g, hok⟩ := Discipline.run_ok (D := Dispatch.ownership Task.consumes) h
      (fun s hs => ⟨fun _ => none, by subst hs; exact fun _ => trivial⟩)
      fun pid task w hi => ownership_body task hi
    have hunreserved := (hok.returned (hanswer ha)).granted hc id hg token hid
    have howned := (hok.returned (hanswer ha')).owning token b ho
    cases hunreserved.unique howned

/-- The process is done with the consumption of the dispatch `d`, and has this answer. -/
def repliedSample (reply : Dispatch.Reply) (seen : Option (Task × Answer)) : Bool :=
  match seen with
  | some (.consume dispatchId, .reply r) => dispatchId = "d" && r = reply
  | _ => false

theorem repliedSample_eq {reply : Dispatch.Reply} {seen : Option (Task × Answer)}
    (h : repliedSample reply seen = true) : seen = some (.consume "d", .reply reply) := by
  unfold repliedSample at h
  split at h
  · simp only [Bool.and_eq_true, decide_eq_true_eq] at h
    rw [h.1, h.2]
  · cases h

def crashes : Move Task Dispatch.Choice → Bool
  | .crash _ => true
  | _ => false

/-- Three consumptions that find no marker: the first creates it, the second comes too late, and the
    third crashes before it tries. -/
def sampleMoves : List (Move Task Dispatch.Choice) :=
  [.start (.consume "d"), .start (.consume "d"), .start (.consume "d"),
    .call 0 (.answer true), .call 1 (.answer true), .call 2 (.answer true),
    .call 0 (.answer false), .call 1 (.answer false), .call 2 (.answer false),
    .call 1 .go, .call 0 .go, .call 2 .go, .call 0 .go, .call 1 .go, .crash 2,
    .call 0 (.put 1000 none), .call 0 .go]

/-- What is seen of the run: the answers behind its last step, and that a process crashed. -/
def competingSeen (tr : History (System Markers Dispatch.Call.Answer Task Answer)
    (Move Task Dispatch.Choice) Unit) : Bool :=
  (tr.head?.any fun e => repliedSample .ok (e.post.returned 0) &&
    repliedSample .replay (e.post.returned 1)) && tr.any fun e => crashes e.act

/-- Of the processes that compete for the dispatch, only the first is granted it. -/
theorem granted_once_sample : ∃ tr sys, machine.Run tr sys ∧
    Answered tr (.consume "d") (.reply .ok) 0 ∧ Answered tr (.consume "d") (.reply .replay) 1 ∧
    (tr.any fun e => crashes e.act) = true ∧ ∀ operation a pid, Answered tr operation a pid →
      Granted "d" operation a → 0 = pid := by
  let r := machine.exec sampleMoves ([], ⟨fun _ => none, []⟩)
  have hseen : (r.map fun r => competingSeen r.1) = some true := by decide +kernel
  obtain ⟨⟨tr, sys⟩, hexec, hseen⟩ := Option.map_eq_some_iff.mp hseen
  obtain ⟨hhead, hcrash⟩ := Bool.and_eq_true_iff.mp hseen
  obtain ⟨e, he, hreplies⟩ := (Option.any_eq_true _ _).mp hhead
  obtain ⟨hok, hreplay⟩ := Bool.and_eq_true_iff.mp hreplies
  have hinit : machine.Run [] ⟨fun _ => none, []⟩ := .start ⟨rfl, rfl⟩
  have hrun : machine.Run tr sys := Machine.Run.exec hinit hexec
  have hmem : e ∈ tr := List.mem_of_head? he
  have hanswer : Answered tr (.consume "d") (.reply .ok) 0 := ⟨e, hmem, repliedSample_eq hok⟩
  have htoken : safeDispatchToken "d" = some "d" := by decide +kernel
  exact ⟨tr, sys, hrun, hanswer, ⟨e, hmem, repliedSample_eq hreplay⟩, hcrash,
    fun operation a pid ha hg => (granted_once hrun htoken htoken hanswer ha ⟨rfl, rfl⟩).1 hg⟩

end DataRelay.Tools.Adapter
