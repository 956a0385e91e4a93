import DataRelay.Tools.DispatchOwner

/-! A marker is created once.

    A second discipline beside the ownership of the markers: the ghost state says which process
    created a marker. Every program over the markers keeps it, whatever its calls are, since no call
    but the exclusive one brings a marker in and none takes one away. -/

namespace DataRelay.Tools.Dispatch
open Lib

/-- Which process created the marker of a token. -/
abbrev Makers := String → Option ℕ

def Made (w : Markers × Makers) : Prop := ∀ token, (w.1 token).isSome = (w.2 token).isSome

/-- Who created a marker stays the one who did. -/
def Stays (w w' : Markers × Makers) : Prop :=
  ∀ token pid, w.2 token = some pid → w'.2 token = some pid

theorem Stays.refl (w : Markers × Makers) : Stays w w := fun _ _ h => h

theorem Stays.trans {w w' w'' : Markers × Makers} (h : Stays w w') (h' : Stays w' w'') :
    Stays w w'' :=
  fun token pid hw => h' token pid (h token pid hw)

/-- A process is told that it created the marker. -/
def Creates (pid : ℕ) : (c : Call) → c.Answer → Markers × Makers → Prop
  | .openExcl token, .ok (), w => w.2 token = some pid
  | _, _, _ => True

theorem made_crash {w : Markers × Makers} (h : Made w) (pid : ℕ) : Made (crash pid w.1, w.2) := by
  intro token
  simp only [crash, Option.isSome_map, h token]

/-- How the processes treat the creation of the markers. -/
def creation (τ : Type) : Discipline world τ Makers where
  inv := Made
  rely _ := Stays
  up := Stays
  tells pid _ := Creates pid
  rely_refl _ := Stays.refl
  rely_trans _ _ _ _ h h' := h.trans h'
  up_refl := Stays.refl
  up_trans _ _ _ h h' := h.trans h'
  crash pid s g h := ⟨g, made_crash h pid, fun _ _ => Stays.refl (s, g), Stays.refl (s, g)⟩

theorem isSome_setMarker {s : Markers} {token : String} {m m' : Marker} (h : s token = some m)
    (t : String) : (setMarker s token m' t).isSome = (s t).isSome := by
  by_cases ht : t = token
  · simp [setMarker, ht, h]
  · simp [setMarker, ht]

/-- A call brings no marker in and takes none away, but for the exclusive creation of a new one. -/
theorem exec_made {pid : ℕ} {s s' : Markers} {c : Call} {x : Choice} {r : c.Answer}
    (h : exec pid s c x = some (r, s')) :
    ((∀ token, (s' token).isSome = (s token).isSome) ∧ ∀ w, Creates pid c r w) ∨
      ∃ token m, c = .openExcl token ∧ s token = none ∧ s' = setMarker s token m := by
  by_cases hlooks : c.looks = true
  · refine .inl ⟨fun token => by rw [exec_looks hlooks h], fun w => ?_⟩
    cases c <;> trivial
  cases c <;> simp only [Call.looks, not_true_eq_false] at hlooks
  -- the exclusive open is the one call that makes a marker
  case openExcl token =>
    cases x <;> simp only [exec, reduceCtorEq, Option.some.injEq, Prod.mk.injEq] at h
    · split at h
      · cases h
        exact .inl ⟨fun _ => rfl, fun _ => trivial⟩
      · next hnone =>
        cases h
        exact .inr ⟨token, _, rfl, hnone, rfl⟩
    · obtain ⟨rfl, rfl⟩ := h
      exact .inl ⟨fun _ => rfl, fun _ => trivial⟩
  case flock token =>
    cases x <;> simp only [exec, reduceCtorEq, Option.some.injEq, Prod.mk.injEq] at h
    · split at h
      · next m hm =>
        split at h
        · cases h
          exact .inl ⟨isSome_setMarker hm, fun _ => trivial⟩
        · cases h
      · cases h
        exact .inl ⟨fun _ => rfl, fun _ => trivial⟩
    · exact .inl ⟨fun _ => by rw [h.2], fun _ => trivial⟩
  case truncate token =>
    cases x <;> simp only [exec, reduceCtorEq, Option.some.injEq, Prod.mk.injEq] at h
    · split at h
      · next m hm =>
        cases h
        exact .inl ⟨isSome_setMarker hm, fun _ => trivial⟩
      · cases h
        exact .inl ⟨fun _ => rfl, fun _ => trivial⟩
    · exact .inl ⟨fun _ => by rw [h.2], fun _ => trivial⟩
  case write token offset data =>
    cases x <;> simp only [exec, reduceCtorEq] at h
    split at h
    · next m hm =>
      cases h
      exact .inl ⟨isSome_setMarker hm, fun _ => trivial⟩
    · cases h
      exact .inl ⟨fun _ => rfl, fun _ => trivial⟩
  case close token =>
    cases x <;> simp only [exec, reduceCtorEq] at h
    all_goals
      split at h
      · next m hm =>
        cases h
        exact .inl ⟨isSome_setMarker hm, fun _ => trivial⟩
      · cases h
        exact .inl ⟨fun _ => rfl, fun _ => trivial⟩

section Programs
variable {τ : Type} {task : τ} {pid : ℕ} {α : Type} {Q : α → Markers × Makers → Prop}

/-- A call of a program, told who created the marker if it did. -/
theorem creation_call {c : Call} {k : c.Answer → Program α} {w : Markers × Makers}
    (h : ∀ w' r, Stays w w' → Made w' → Creates pid c r w' →
      (creation τ).Safe task Q pid (k r) w') : (creation τ).Safe task Q pid (.call c k) w := by
  rintro ⟨s, g⟩ hstays hmade x r s' he
  -- either no marker was made, or the ghost notes who made it
  rcases exec_made he with ⟨hsame, hcreates⟩ | ⟨token, m, rfl, hnone, rfl⟩
  · have hmade' : Made (s', g) := fun token => (hsame token).trans (hmade token)
    have hkeep : Stays (s, g) (s', g) := fun _ _ hg => hg
    exact ⟨g, hmade', fun _ _ => hkeep, hkeep, hcreates _,
      h (s', g) r (hstays.trans hkeep) hmade' (hcreates _)⟩
  · -- the name was free, so nobody is noted as its maker
    have hnobody : g token = none := by
      have hboth := hmade token
      rw [hnone] at hboth
      exact Option.isNone_iff_eq_none.mp (by simpa using hboth.symm)
    have hmade' : Made (setMarker s token m, Function.update g token (some pid)) := by
      intro t
      by_cases ht : t = token
      · simp [setMarker, ht]
      · simpa [setMarker, ht] using hmade t
    have hkeep : Stays (s, g) (setMarker s token m, Function.update g token (some pid)) := by
      intro t q hg
      have ht : t ≠ token := by
        rintro rfl
        rw [show g t = some q from hg] at hnobody
        cases hnobody
      simpa [Function.update_of_ne ht] using hg
    have hcreates : Creates pid (.openExcl token) r
        (setMarker s token m, Function.update g token (some pid)) := by
      cases r with
      | error e => trivial
      | ok _ => simp [Creates]
    exact ⟨_, hmade', fun _ _ => hkeep, hkeep, hcreates, h _ r (hstays.trans hkeep) hmade' hcreates⟩

/-- Any program keeps the creation of the markers. -/
theorem creation_any : ∀ (p : Program α) (w : Markers × Makers),
    (creation τ).Safe task (fun _ w' => Stays w w') pid p w
  | .ret _, _ => Discipline.Safe.ret fun _ hstays => hstays
  | .call _ k, _ => creation_call fun w' r hstays _ _ =>
    (creation_any (k r) w').imp fun _ _ hlater => hstays.trans hlater

/-- Any program, followed by another that is safe whatever it returns. -/
theorem creation_bind {β : Type} {Q : β → Markers × Makers → Prop} {p : Program α}
    {f : α → Program β} {w : Markers × Makers} (hmade : Made w)
    (h : ∀ a w', Stays w w' → Made w' → (creation τ).Safe task Q pid (f a) w') :
    (creation τ).Safe task Q pid (p >>= f) w :=
  Discipline.Safe.bind ((creation_any p w).imp fun a w' hstays hi => h a w' hstays hi) hmade

/-- A marker that was created with a content is that of its creator. -/
theorem creation_createMarker {token : String} {data : List Char} {w : Markers × Makers} :
    (creation τ).Safe task (fun (r : Except Errno Unit) w' =>
      r = .ok () → w'.2 token = some pid) pid (createMarker token data) w := by
  unfold createMarker openExcl
  refine creation_call fun w₁ r hstays hmade₁ hcreates => ?_
  cases r with
  | error e => exact Discipline.Safe.ret fun _ _ h => by cases h
  | ok _ =>
    refine creation_bind hmade₁ fun written w₂ hstays₂ hmade₂ => ?_
    exact (creation_any _ w₂).imp fun _ w' hstays' _ => hstays' _ _ (hstays₂ _ _ hcreates)

/-- The answers that say that the process created the marker of its dispatch. -/
def Making (reply : Reply) (dispatchId : String) (pid : ℕ) (w : Markers × Makers) : Prop :=
  reply = .ok ∨ reply = .reserved →
    ∃ token, safeDispatchToken dispatchId = some token ∧ w.2 token = some pid

theorem creation_refused {dispatchId : String} {reply : Reply} {w : Markers × Makers}
    (h : reply ≠ .ok ∧ reply ≠ .reserved) :
    (creation τ).Safe task (fun r w' => Making r dispatchId pid w') pid (.ret reply) w :=
  Discipline.Safe.ret fun _ _ hor => absurd hor (not_or.mpr h)

/-- A dispatch that was consumed at once is that of its consumer. -/
theorem creation_consume (dispatchId : String) (w : Markers × Makers) :
    (creation τ).Safe task (fun reply w' => Making reply dispatchId pid w') pid
      (consumeDispatchOnce dispatchId) w := by
  unfold consumeDispatchOnce
  cases htoken : safeDispatchToken dispatchId with
  | none => exact creation_refused (by decide)
  | some token =>
    simp only [replayReady, existsLegacy, existsMarker, Prog.call_bind, Prog.ret_bind, Prog.pure_eq]
    refine creation_call fun w₁ ready _ _ _ => ?_
    split
    · exact creation_refused (by decide)
    refine creation_call fun w₂ legacy _ _ _ => ?_
    split
    · exact creation_refused (by decide)
    refine creation_call fun w₃ marker _ hmade₃ _ => ?_
    split
    · exact creation_refused (by decide)
    refine Discipline.Safe.bind (creation_createMarker.imp fun r w₄ hcreated _ => ?_) hmade₃
    split
    · exact Discipline.Safe.ret fun w' hstays _ => ⟨token, htoken, hstays _ _ (hcreated rfl)⟩
    all_goals exact creation_refused (by decide)

/-- So is a dispatch that was reserved for the first time. -/
theorem creation_reserve (dispatchId effect attempt : String) (w : Markers × Makers) :
    (creation τ).Safe task (fun reply w' => Making reply dispatchId pid w') pid
      (reserveDispatch dispatchId effect attempt) w := by
  unfold reserveDispatch
  cases htoken : safeDispatchToken dispatchId with
  | none => exact creation_refused (by decide)
  | some token =>
  cases hbinding : effectBinding effect attempt with
  | none => exact creation_refused (by decide)
  | some b =>
    simp only [replayReady, existsLegacy, Prog.call_bind, Prog.ret_bind, Prog.pure_eq]
    refine creation_call fun w₁ ready _ _ _ => ?_
    split
    · exact creation_refused (by decide)
    refine creation_call fun w₂ legacy _ hmade₂ _ => ?_
    split
    · exact creation_refused (by decide)
    refine Discipline.Safe.bind (creation_createMarker.imp fun r w₃ hcreated hmade₃ => ?_) hmade₂
    split
    · exact Discipline.Safe.ret fun w' hstays _ => ⟨token, htoken, hstays _ _ (hcreated rfl)⟩
    · -- a marker that stands already is read back, and none of these answers is `ok`
      refine creation_bind hmade₃ fun record w₄ _ _ => ?_
      split
      · exact creation_refused (by decide)
      · exact creation_refused (by decide)
      · split
        · split <;> exact creation_refused (by decide)
        · exact creation_refused (by decide)
    all_goals exact creation_refused (by decide)

end Programs

end DataRelay.Tools.Dispatch
