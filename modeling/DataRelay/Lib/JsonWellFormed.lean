import DataRelay.Lib.JsonRoundTrip

/-! What is read from a text is well formed, and a dump says which value it is of.

    `loads` never returns an object that repeats a key. Two values of one dump are the same up to the
    order of their keys, so a field whose value is a text is the same in both. -/

namespace Lib.Json

/-! ### Reading -/

theorem wfFields_set {v : Json} (hv : WF v) (k : String) (d : Dict String Json)
    (h : ∀ e ∈ d.items, WF e.2) : ∀ e ∈ (d.set k v).items, WF e.2 := by
  rintro ⟨k', w⟩ he
  rcases Dict.get?_of_set ((Dict.get?_iff_mem _ _ _).mpr he) with ⟨-, rfl⟩ | ⟨-, hold⟩
  · exact hv
  · exact h _ ((Dict.get?_iff_mem _ _ _).mp hold)

theorem wf_object {fs : List (String × Json)} (h : WFFields fs) : WF (object fs) := by
  have hfold : ∀ (fs : List (String × Json)) (d : Dict String Json), WFFields fs →
      (∀ e ∈ d.items, WF e.2) →
        ∀ e ∈ (fs.foldl (fun d e => d.set e.1 e.2) d).items, WF e.2 := by
    intro fs
    induction fs with
    | nil => exact fun d _ hd => hd
    | cons e fs ih =>
      intro d hfs hd
      rw [WFFields] at hfs
      exact ih _ hfs.2 (wfFields_set hfs.1 _ _ hd)
  rw [object, WF]
  exact ⟨(Dict.ofList fs).nodup, (WFFields_iff _).mpr (hfold fs _ h fun e he => by cases he)⟩

/-- What each part of the reader returns is well formed. -/
structure ReadsWF (f : ℕ) : Prop where
  value : ∀ {cs v r}, value f cs = some (v, r) → WF v
  items : ∀ {cs vs r}, items f cs = some (vs, r) → WFItems vs
  rest : ∀ {cs vs r}, rest f cs = some (vs, r) → WFItems vs
  field : ∀ {cs kv r}, field f cs = some (kv, r) → WF kv.2
  fields : ∀ {cs fs r}, fields f cs = some (fs, r) → WFFields fs
  moreOf : ∀ {cs fs r}, moreOf f cs = some (fs, r) → WFFields fs

theorem wf_number {cs : List Char} {v : Json} {r : List Char} (h : number cs = some (v, r)) :
    WF v := by
  obtain ⟨p, -, hp⟩ := Option.map_eq_some_iff.mp h
  simp only [Prod.mk.injEq] at hp
  rw [← hp.1]
  unfold assemble
  dsimp only
  split <;> simp only [WF]

/-- The value that a reader goes on with is there behind `Option.map`. -/
theorem map_pair {α β γ : Type} {o : Option (α × γ)} {f : α → β} {b : β} {r : γ}
    (h : (o.map fun p => (f p.1, p.2)) = some (b, r)) : ∃ a, o = some (a, r) ∧ f a = b := by
  obtain ⟨⟨a, r'⟩, ho, hp⟩ := Option.map_eq_some_iff.mp h
  simp only [Prod.mk.injEq] at hp
  exact ⟨a, by rw [ho, hp.2], hp.1⟩

theorem value_readsWF {f : ℕ} (ih : ReadsWF f) {cs : List Char} {v : Json} {r : List Char}
    (h : value (f + 1) cs = some (v, r)) : WF v := by
  cases cs with
  | nil => rw [value] at h; cases h
  | cons c cs =>
    rw [value] at h
    split at h
    · obtain ⟨a, -, rfl⟩ := map_pair (f := fun a => Json.str (String.ofList a)) h
      simp only [WF]
    split at h
    · obtain ⟨vs, hvs, rfl⟩ := map_pair (f := Json.arr) h
      rw [WF]
      exact ih.items hvs
    split at h
    · obtain ⟨fs, hfs, rfl⟩ := map_pair (f := object) h
      exact wf_object (ih.fields hfs)
    split at h
    · obtain ⟨a, -, ha⟩ := Option.map_eq_some_iff.mp h
      cases ha
      simp only [WF]
    split at h
    · obtain ⟨a, -, ha⟩ := Option.map_eq_some_iff.mp h
      cases ha
      simp only [WF]
    split at h
    · obtain ⟨a, -, ha⟩ := Option.map_eq_some_iff.mp h
      cases ha
      simp only [WF]
    · exact wf_number h

theorem items_readsWF {f : ℕ} (ih : ReadsWF f) {cs : List Char} {vs : List Json} {r : List Char}
    (h : items (f + 1) cs = some (vs, r)) : WFItems vs := by
  cases cs with
  | nil => rw [items] at h; cases h
  | cons c cs =>
    rw [items] at h
    split at h
    · cases h
      simp only [WFItems]
    split at h
    · cases h
    · next v r' hv =>
      obtain ⟨vs', hvs, rfl⟩ := map_pair (f := (v :: ·)) h
      rw [WFItems]
      exact ⟨ih.value hv, ih.rest hvs⟩

theorem rest_readsWF {f : ℕ} (ih : ReadsWF f) {cs : List Char} {vs : List Json} {r : List Char}
    (h : rest (f + 1) cs = some (vs, r)) : WFItems vs := by
  cases cs with
  | nil => rw [rest] at h; cases h
  | cons c cs =>
    rw [rest] at h
    split at h
    · cases h
      simp only [WFItems]
    split at h
    · split at h
      · cases h
      · next v r' hv =>
        obtain ⟨vs', hvs, rfl⟩ := map_pair (f := (v :: ·)) h
        rw [WFItems]
        exact ⟨ih.value hv, ih.rest hvs⟩
    · cases h

theorem field_readsWF {f : ℕ} (ih : ReadsWF f) {cs : List Char} {kv : String × Json}
    {r : List Char} (h : field (f + 1) cs = some (kv, r)) : WF kv.2 := by
  cases cs with
  | nil => rw [field] at h; cases h
  | cons c cs =>
    rw [field] at h
    split at h
    · split at h
      · cases h
      · next k r' hk =>
        split at h
        · cases h
        · split at h
          · obtain ⟨v, hv, rfl⟩ := map_pair (f := fun v => (String.ofList k, v)) h
            exact ih.value hv
          · cases h
    · cases h

theorem fields_readsWF {f : ℕ} (ih : ReadsWF f) {cs : List Char} {fs : List (String × Json)}
    {r : List Char} (h : fields (f + 1) cs = some (fs, r)) : WFFields fs := by
  cases cs with
  | nil => rw [fields] at h; cases h
  | cons c cs =>
    rw [fields] at h
    split at h
    · cases h
      simp only [WFFields]
    split at h
    · cases h
    · next kv r' hkv =>
      obtain ⟨fs', hfs, rfl⟩ := map_pair (f := (kv :: ·)) h
      rw [WFFields]
      exact ⟨ih.field hkv, ih.moreOf hfs⟩

theorem moreOf_readsWF {f : ℕ} (ih : ReadsWF f) {cs : List Char} {fs : List (String × Json)}
    {r : List Char} (h : moreOf (f + 1) cs = some (fs, r)) : WFFields fs := by
  cases cs with
  | nil => rw [moreOf] at h; cases h
  | cons c cs =>
    rw [moreOf] at h
    split at h
    · cases h
      simp only [WFFields]
    split at h
    · split at h
      · cases h
      · next kv r' hkv =>
        obtain ⟨fs', hfs, rfl⟩ := map_pair (f := (kv :: ·)) h
        rw [WFFields]
        exact ⟨ih.field hkv, ih.moreOf hfs⟩
    · cases h

theorem readsWF (f : ℕ) : ReadsWF f := by
  induction f with
  | zero =>
    exact ⟨fun h => by simp [value] at h, fun h => by simp [items] at h,
      fun h => by simp [rest] at h, fun h => by simp [field] at h, fun h => by simp [fields] at h,
      fun h => by simp [moreOf] at h⟩
  | succ f ih =>
    exact ⟨value_readsWF ih, items_readsWF ih, rest_readsWF ih, field_readsWF ih,
      fields_readsWF ih, moreOf_readsWF ih⟩

/-- What is read never repeats a key. -/
theorem wf_of_loads {cs : List Char} {v : Json} (h : loads cs = some v) : WF v := by
  unfold loads at h
  split at h
  · next w r hw =>
    split at h
    · cases h
      exact (readsWF _).value hw
    · cases h
  · cases h

/-! ### Values of one dump -/

/-- Values of one dump differ in the order of their keys at most. -/
theorem sortKeys_of_dumps {v w : Json} (hv : WF v) (hw : WF w) (h : dumps v = dumps w) :
    sortKeys v = sortKeys w := by
  have hread := loads_dumps hv
  rw [h, loads_dumps hw] at hread
  exact (Option.some.inj hread).symm

/-- A field of objects of one dump. -/
theorem get?_of_dumps {fs gs : List (String × Json)} (hf : WF (.obj fs)) (hg : WF (.obj gs))
    (h : dumps (.obj fs) = dumps (.obj gs)) (k : String) :
    ((Json.obj fs).get? k).map sortKeys = ((Json.obj gs).get? k).map sortKeys := by
  have hsort := sortKeys_of_dumps hf hg h
  rw [WF] at hf hg
  rw [← get?_sortKeys hf.1, ← get?_sortKeys hg.1, hsort]

end Lib.Json
