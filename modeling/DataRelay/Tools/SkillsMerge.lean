import DataRelay.Tools.Skills

/-! The merge of a repository's contract into the default profiles.

    The merge takes an entry exactly if it is a profile that narrows the default of its name, and
    leaves the default where there is none; it reports a finding for every other entry. What is
    published of the profiles makes a contract that merges into the same profiles. -/

namespace DataRelay.Tools.Skills
open Lib

/-! ### What a profile can be narrowed to -/

theorem Profile.ext {p q : Profile} (ha : p.allowed = q.allowed) (hd : p.denied = q.denied)
    (hr : p.requireApproval = q.requireApproval) : p = q := by
  obtain ⟨_, _, _, _, _, _⟩ := p
  obtain ⟨_, _, _, _, _, _⟩ := q
  dsimp only at ha hd hr
  subst ha hd hr
  rfl

theorem Profile.Narrows.trans {p q r : Profile} (h : p.Narrows q) (h' : q.Narrows r) :
    p.Narrows r :=
  ⟨h.1.trans h'.1, h'.2.1.trans h.2.1, h'.2.2.trans h.2.2⟩

theorem Profile.allowed_subset (p : Profile) : p.allowed ⊆ actionClasses := by
  rw [← p.covers]
  exact Finset.subset_union_left

theorem Profile.denied_subset (p : Profile) : p.denied ⊆ actionClasses := by
  rw [← p.covers]
  exact Finset.subset_union_right

/-! ### One entry -/

/-- The entry is a profile that narrows the default of its name. -/
def Accepts (name : String) (raw : Json) (p : Profile) : Prop :=
  ∃ d, defaultProfiles.get? name = some d ∧ parseProfileMapping raw = some p ∧ p.Narrows d

theorem mergeProfile_cases (m : Profiles × List Finding) (name : String) (raw : Json) :
    (∃ p, Accepts name raw p ∧ (mergeProfile m (name, raw)).1.entries = m.1.entries.set name p ∧
      (mergeProfile m (name, raw)).2 = m.2) ∨
    (∀ p, ¬ Accepts name raw p) ∧ (mergeProfile m (name, raw)).1 = m.1 ∧
      ∃ x, (mergeProfile m (name, raw)).2 = m.2 ++ [x] := by
  unfold mergeProfile
  dsimp only
  split
  · next h =>
    refine .inr ⟨?_, rfl, _, rfl⟩
    rintro p ⟨d, hd, -⟩
    rw [h] at hd
    cases hd
  · next d h =>
    split
    · next hparse =>
      refine .inr ⟨?_, rfl, _, rfl⟩
      rintro p ⟨-, -, hp, -⟩
      rw [hparse] at hp
      cases hp
    · next q hparse =>
      split
      · next hn => exact .inl ⟨q, ⟨d, h, hparse, hn⟩, rfl, rfl⟩
      · next hn =>
        refine .inr ⟨?_, rfl, _, rfl⟩
        rintro p ⟨d', hd', hp, hn'⟩
        rw [h] at hd'
        rw [hparse] at hp
        cases hd'
        cases hp
        exact hn hn'

/-! ### The loop -/

theorem foldl_findings (fields : Obj) (m : Profiles × List Finding) :
    (fields.foldl mergeProfile m).2 = [] ↔
      m.2 = [] ∧ ∀ e ∈ fields, ∃ p, Accepts e.1 e.2 p := by
  induction fields generalizing m with
  | nil => simp
  | cons e fields ih =>
    rw [List.foldl_cons, ih, List.forall_mem_cons]
    rcases mergeProfile_cases m e.1 e.2 with ⟨p, hp, -, hf⟩ | ⟨hn, -, x, hf⟩
    · rw [hf]
      exact ⟨fun h => ⟨h.1, ⟨p, hp⟩, h.2⟩, fun h => ⟨h.1, h.2.2⟩⟩
    · rw [hf]
      constructor
      · rintro ⟨h, -⟩
        simp at h
      · rintro ⟨-, ⟨p, hp⟩, -⟩
        exact absurd hp (hn p)

theorem foldl_entries {fields : Obj} (hnodup : (fields.map Prod.fst).Nodup)
    (m : Profiles × List Finding) (name : String) (p : Profile) :
    (fields.foldl mergeProfile m).1.entries.get? name = some p ↔
      (∃ raw, (name, raw) ∈ fields ∧ Accepts name raw p) ∨
        (∀ raw q, (name, raw) ∈ fields → ¬ Accepts name raw q) ∧
          m.1.entries.get? name = some p := by
  induction fields generalizing m with
  | nil => simp
  | cons e fields ih =>
    obtain ⟨k, v⟩ := e
    simp only [List.map_cons, List.nodup_cons, List.mem_map, Prod.exists, exists_and_right,
      exists_eq_right, not_exists] at hnodup
    rw [List.foldl_cons, ih hnodup.2]
    rcases mergeProfile_cases m k v with ⟨q, hq, he, -⟩ | ⟨hn, he, -⟩
    · rw [he]
      by_cases hk : name = k
      · -- The entry is the only one of its name.
        subst hk
        have honly : ∀ raw, (name, raw) ∈ (name, v) :: fields → raw = v := by
          intro raw hraw
          rcases List.mem_cons.mp hraw with heq | hraw
          · exact (Prod.mk.inj heq).2
          · exact absurd hraw (hnodup.1 raw)
        have hunique : ∀ q', Accepts name v q' → q' = q := by
          rintro q' ⟨-, -, hq', -⟩
          obtain ⟨-, -, hq, -⟩ := hq
          rw [hq] at hq'
          exact (Option.some.inj hq').symm
        rw [Dict.get?_set_self]
        constructor
        · rintro (⟨raw, hraw, -⟩ | ⟨-, heq⟩)
          · exact absurd hraw (hnodup.1 raw)
          · cases heq
            exact .inl ⟨v, List.mem_cons_self, hq⟩
        · rintro (⟨raw, hraw, hp⟩ | ⟨hnone, -⟩)
          · rw [honly raw hraw] at hp
            rw [hunique p hp]
            exact .inr ⟨fun raw _ hraw => absurd hraw (hnodup.1 raw), rfl⟩
          · exact absurd hq (hnone v q List.mem_cons_self)
      · rw [Dict.get?_set_ne _ hk]
        simp [hk]
    · rw [he]
      by_cases hk : name = k
      · subst hk
        simp only [List.mem_cons, Prod.mk.injEq, true_and, hnodup.1, or_false, exists_eq_left, hn,
          false_and, exists_false]
        refine or_congr_right (and_congr_left fun _ => ?_)
        exact ⟨fun _ raw q hraw => hraw ▸ hn q, fun _ raw q hraw => hraw.elim⟩
      · simp [hk]

/-- The merge takes exactly the entries that narrow the default of their name, and there are findings
    exactly if there is another entry. -/
theorem merge_exact {fields : Obj} (hnodup : (fields.map Prod.fst).Nodup) :
    ((mergeProfiles (.obj fields)).2 = [] ↔ ∀ e ∈ fields, ∃ p, Accepts e.1 e.2 p) ∧
    ∀ name p, (mergeProfiles (.obj fields)).1.entries.get? name = some p ↔
      (∃ raw, (name, raw) ∈ fields ∧ Accepts name raw p) ∨
        (∀ raw q, (name, raw) ∈ fields → ¬ Accepts name raw q) ∧
          defaultProfiles.get? name = some p := by
  unfold mergeProfiles
  split
  · next hfalse =>
    have hempty : fields = [] := by simpa [truthy] using hfalse
    subst hempty
    simp [Profiles.default]
  · refine ⟨by simp [foldl_findings], fun name p => ?_⟩
    exact foldl_entries hnodup (.default, []) name p

/-! ### Publishing -/

theorem strip_class : ∀ c ∈ actionClasses, strip c = c ∧ c ≠ "" := by decide +kernel

theorem normalize_sorted {s : Finset String} (h : s ⊆ actionClasses) :
    normalizeClasses (strings (sorted s)) = some s := by
  have hparts : ((sorted s).map Json.str).map (fun item => strip (pyStr item)) = sorted s := by
    rw [List.map_map]
    refine (List.map_congr_left fun c hc => ?_).trans (List.map_id _)
    exact (strip_class c (h ((Finset.mem_sort _).mp hc))).1
  have hne : "" ∉ sorted s := fun hmem =>
    (strip_class "" (h ((Finset.mem_sort _).mp hmem))).2 rfl
  simp only [normalizeClasses, strings, hparts]
  rw [if_neg hne, sorted, Finset.sort_toFinset]

/-- A published profile is read back. -/
theorem parse_public (p : Profile) : parseProfileMapping (profileToPublic p) = some p := by
  have hr : p.requireApproval ⊆ actionClasses := p.approval.trans p.allowed_subset
  have hkeys : keySet [("allowed", strings (sorted p.allowed)),
      ("denied", strings (sorted p.denied)),
      ("require_approval", strings (sorted p.requireApproval))] =
        {"allowed", "denied", "require_approval"} := by
    simp [keySet]
  rw [profileToPublic, parseProfileMapping, if_neg (not_not.mpr hkeys)]
  simp only [field, Json.get?, List.find?, decide_true, decide_false, String.reduceEq,
    Option.map_some, Option.getD_some,
    normalize_sorted p.allowed_subset, normalize_sorted p.denied_subset, normalize_sorted hr]
  simp [p.allowed_subset, p.denied_subset, hr, profile, p.apart, p.covers, p.approval]

/-- The contract that publishes the profiles. -/
def published (ps : Profiles) : Obj := ps.entries.items.map fun e => (e.1, profileToPublic e.2)

theorem mem_published {ps : Profiles} {name : String} {raw : Json} :
    (name, raw) ∈ published ps ↔
      ∃ p, ps.entries.get? name = some p ∧ profileToPublic p = raw := by
  simp only [published, List.mem_map, Prod.mk.injEq, Prod.exists, Dict.get?_iff_mem]
  constructor
  · rintro ⟨k, p, hm, rfl, hp⟩
    exact ⟨p, hm, hp⟩
  · rintro ⟨p, hm, hp⟩
    exact ⟨name, p, hm, rfl, hp⟩

/-- What is published of any profiles is accepted without a finding, and merges into the same
    profiles. -/
theorem merge_published (ps : Profiles) : (mergeProfiles (.obj (published ps))).2 = [] ∧
    ∀ name, (mergeProfiles (.obj (published ps))).1.entries.get? name = ps.entries.get? name := by
  have hnodup : ((published ps).map Prod.fst).Nodup := by
    have heq : (published ps).map Prod.fst = ps.entries.keys := by
      rw [published, List.map_map]
      rfl
    rw [heq]
    exact ps.entries.nodup
  have haccepts : ∀ name p, ps.entries.get? name = some p →
      Accepts name (profileToPublic p) p := by
    intro name p hp
    obtain ⟨d, hd, hn⟩ := ps.narrow name p hp
    exact ⟨d, hd, parse_public p, hn⟩
  obtain ⟨hfindings, hentries⟩ := merge_exact hnodup
  refine ⟨hfindings.mpr ?_, fun name => Option.ext fun p => ?_⟩
  · rintro ⟨name, raw⟩ he
    obtain ⟨p, hp, rfl⟩ := mem_published.mp he
    exact ⟨p, haccepts name p hp⟩
  · rw [hentries]
    constructor
    · rintro (⟨raw, hraw, -, -, hparse, -⟩ | ⟨hnone, hd⟩)
      · obtain ⟨q, hq, rfl⟩ := mem_published.mp hraw
        rw [parse_public] at hparse
        rw [hq, hparse]
      · -- a default that is not overridden would be missing from the published table
        obtain ⟨q, hq⟩ := ps.total name p hd
        exact absurd (haccepts name q hq) (hnone _ q (mem_published.mpr ⟨q, hq, rfl⟩))
    · exact fun hp => .inl ⟨_, mem_published.mpr ⟨p, hp, rfl⟩, haccepts name p hp⟩

end DataRelay.Tools.Skills
