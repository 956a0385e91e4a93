import Mathlib.Data.List.Nodup
import Mathlib.Data.List.Sort
import Mathlib.Tactic.Common

/-! Insertion-ordered dictionaries: an association list whose keys are distinct.

    Writing a present key keeps its position, writing a new key appends it, and removing a key
    closes the gap — the order a scan over the items sees. `get?_iff_mem` ties lookup to the item
    list; every other lemma about lookup follows from it, so nothing outside this file unfolds the
    representation. -/

namespace Lib

/-- A dictionary: its items in order, no key twice. -/
structure Dict (κ α : Type) where
  items : List (κ × α)
  nodup : (items.map Prod.fst).Nodup

namespace Dict
variable {κ α : Type}

/-- The dictionary without entries. -/
def empty : Dict κ α := ⟨[], List.nodup_nil⟩

instance : EmptyCollection (Dict κ α) := ⟨empty⟩

/-- The keys, in insertion order. -/
def keys (d : Dict κ α) : List κ := d.items.map Prod.fst

/-- The values, in the order of their keys. -/
def values (d : Dict κ α) : List α := d.items.map Prod.snd

/-- The number of entries. -/
def size (d : Dict κ α) : ℕ := d.items.length

/-- Keep the items that pass the test. -/
def filter (p : κ → α → Bool) (d : Dict κ α) : Dict κ α :=
  ⟨d.items.filter fun e => p e.1 e.2, d.nodup.sublist (List.filter_sublist.map _)⟩

/-- Change every value; an item whose value becomes `none` goes. -/
def filterMap (f : α → Option α) (d : Dict κ α) : Dict κ α :=
  ⟨d.items.filterMap fun e => (f e.2).map (e.1, ·), by
    have hmap : ∀ l : List (κ × α),
        ((l.filterMap fun e => (f e.2).map (e.1, ·)).map Prod.fst).Sublist (l.map Prod.fst) := by
      intro l
      induction l with
      | nil => simp
      | cons e l ih => cases h : f e.2 <;> simp [h, ih, List.Sublist.cons]
    exact d.nodup.sublist (hmap d.items)⟩

/-- Change every value. -/
def map {β : Type} (f : α → β) (d : Dict κ α) : Dict κ β :=
  ⟨d.items.map fun e => (e.1, f e.2), by simpa [Function.comp_def] using d.nodup⟩

/-- How many items pass a test. -/
def count (d : Dict κ α) (p : κ → α → Bool) : ℕ := d.items.countP fun e => p e.1 e.2

@[simp] theorem size_empty : (∅ : Dict κ α).size = 0 := rfl

theorem ext_items {d d' : Dict κ α} (h : d.items = d'.items) : d = d' := by
  obtain ⟨l, hl⟩ := d
  obtain ⟨l', hl'⟩ := d'
  obtain rfl : l = l' := h
  rfl

theorem filter_filter (p q : κ → α → Bool) (d : Dict κ α) :
    (d.filter p).filter q = d.filter fun k v => p k v && q k v :=
  ext_items (List.filter_filter.trans (by simp only [Bool.and_comm, filter]))

theorem filter_eq_self {p : κ → α → Bool} {d : Dict κ α} (h : ∀ e ∈ d.items, p e.1 e.2 = true) :
    d.filter p = d :=
  ext_items (List.filter_eq_self.mpr h)

theorem size_filter_le (p : κ → α → Bool) (d : Dict κ α) : (d.filter p).size ≤ d.size :=
  List.length_filter_le _ _

theorem count_filter (p q : κ → α → Bool) (d : Dict κ α) :
    (d.filter q).count p = d.count fun k v => p k v && q k v :=
  List.countP_filter

theorem count_congr {p q : κ → α → Bool} {d : Dict κ α}
    (h : ∀ e ∈ d.items, p e.1 e.2 = q e.1 e.2) : d.count p = d.count q :=
  List.countP_congr fun e he => by rw [h e he]

theorem size_eq_count (d : Dict κ α) : d.size = d.count fun _ _ => true := by
  simp [size, count]

variable [DecidableEq κ]

/-- The value under a key. -/
def get? (d : Dict κ α) (k : κ) : Option α := (d.items.find? (·.1 = k)).map Prod.snd

/-- Whether the key has an entry. -/
def contains (d : Dict κ α) (k : κ) : Bool := (d.get? k).isSome

/-- The dictionary without the key's entry. -/
def erase (d : Dict κ α) (k : κ) : Dict κ α := d.filter fun k' _ => k' ≠ k

/-- Change the value of a key in place; nothing happens when the key is absent. -/
def modify (d : Dict κ α) (k : κ) (f : α → α) : Dict κ α :=
  ⟨d.items.map fun e => if e.1 = k then (e.1, f e.2) else e, by
    have : (Prod.fst ∘ fun e : κ × α => if e.1 = k then (e.1, f e.2) else e) = Prod.fst := by
      funext e; simp only [Function.comp_apply]; split <;> rfl
    rw [List.map_map, this]; exact d.nodup⟩

/-- Write a key: in place when it is present, at the end when it is new. -/
def set (d : Dict κ α) (k : κ) (v : α) : Dict κ α :=
  if h : k ∈ d.keys then d.modify k fun _ => v
  else ⟨d.items ++ [(k, v)], by
    rw [List.map_append, List.nodup_append_comm]
    exact List.nodup_cons.mpr ⟨h, d.nodup⟩⟩

/-- A dictionary from a list of items; a repeated key keeps its last value. -/
def ofList (l : List (κ × α)) : Dict κ α := l.foldl (fun d e => d.set e.1 e.2) empty

/-! ### Lookup -/

theorem get?_iff_mem (d : Dict κ α) (k : κ) (v : α) : d.get? k = some v ↔ (k, v) ∈ d.items := by
  obtain ⟨l, hl⟩ := d
  simp only [get?]
  induction l with
  | nil => simp
  | cons e l ih =>
    obtain ⟨k', v'⟩ := e
    simp only [List.map_cons, List.nodup_cons] at hl
    by_cases hk : k' = k
    · subst hk
      have hne : (k', v) ∉ l := fun hm => hl.1 (List.mem_map_of_mem (f := Prod.fst) hm)
      simp [hne, eq_comm]
    · have hne : (k, v) ≠ (k', v') := fun h => hk (congrArg Prod.fst h).symm
      simpa [hk, hne] using ih hl.2

theorem mem_keys_iff (d : Dict κ α) (k : κ) : k ∈ d.keys ↔ ∃ v, d.get? k = some v := by
  simp only [keys, List.mem_map, Prod.exists, get?_iff_mem]
  constructor
  · rintro ⟨k', v, hm, rfl⟩; exact ⟨v, hm⟩
  · rintro ⟨v, hm⟩; exact ⟨k, v, hm, rfl⟩

theorem get?_eq_none_iff (d : Dict κ α) (k : κ) : d.get? k = none ↔ k ∉ d.keys := by
  rw [mem_keys_iff, Option.eq_none_iff_forall_ne_some, not_exists]

theorem mem_values_iff (d : Dict κ α) (v : α) : v ∈ d.values ↔ ∃ k, d.get? k = some v := by
  simp [values, get?_iff_mem]

theorem contains_iff (d : Dict κ α) (k : κ) : d.contains k = true ↔ ∃ v, d.get? k = some v :=
  Option.isSome_iff_exists

/-- Two lookups agree once they find the same values. -/
theorem get?_ext {d : Dict κ α} {k : κ} {o : Option α}
    (h : ∀ v, (k, v) ∈ d.items ↔ o = some v) : d.get? k = o := by
  ext v; rw [get?_iff_mem, h]

@[simp] theorem get?_empty (k : κ) : (∅ : Dict κ α).get? k = none := rfl

@[simp] theorem get?_filter (p : κ → α → Bool) (d : Dict κ α) (k : κ) :
    (d.filter p).get? k = (d.get? k).filter (p k) := by
  refine get?_ext fun v => ?_
  rw [Option.filter_eq_some_iff, get?_iff_mem, filter, List.mem_filter]

theorem get?_filterMap (f : α → Option α) (d : Dict κ α) (k : κ) :
    (d.filterMap f).get? k = (d.get? k).bind f := by
  refine get?_ext fun v => ?_
  simp only [filterMap, List.mem_filterMap, Option.bind_eq_some_iff, Option.map_eq_some_iff,
    Prod.exists, Prod.mk.injEq, get?_iff_mem]
  constructor
  · rintro ⟨k', a, hm, b, hb, rfl, rfl⟩; exact ⟨a, hm, hb⟩
  · rintro ⟨a, hm, hb⟩; exact ⟨k, a, hm, v, hb, rfl, rfl⟩

theorem get?_erase (d : Dict κ α) (k j : κ) :
    (d.erase k).get? j = if j = k then none else d.get? j := by
  rw [erase, get?_filter]
  split <;> cases d.get? j <;> simp [Option.filter, *]

theorem get?_modify (d : Dict κ α) (k j : κ) (f : α → α) :
    (d.modify k f).get? j = if j = k then (d.get? j).map f else d.get? j := by
  refine get?_ext fun v => ?_
  simp only [modify, List.mem_map, Prod.exists]
  by_cases hj : j = k
  · subst hj
    simp only [if_true, Option.map_eq_some_iff, get?_iff_mem]
    constructor
    · rintro ⟨k', a, hm, he⟩
      split at he
      · simp only [Prod.mk.injEq] at he
        exact ⟨a, he.1 ▸ hm, he.2⟩
      · rename_i hne; exact absurd (congrArg Prod.fst he) hne
    · rintro ⟨a, hm, rfl⟩; exact ⟨j, a, hm, by simp⟩
  · rw [if_neg hj, get?_iff_mem]
    constructor
    · rintro ⟨k', a, hm, he⟩
      split at he
      · rename_i hk; exact absurd (hk ▸ (congrArg Prod.fst he).symm) hj
      · exact he ▸ hm
    · intro hm; exact ⟨j, v, hm, by simp [hj]⟩

theorem modify_of_none {d : Dict κ α} {k : κ} (h : d.get? k = none) (f : α → α) :
    d.modify k f = d := by
  refine ext_items ?_
  change (d.items.map fun e => if e.1 = k then (e.1, f e.2) else e) = d.items
  refine (List.map_congr_left fun e he => if_neg fun hk => ?_).trans (List.map_id' d.items)
  exact (get?_eq_none_iff d k).mp h (hk ▸ List.mem_map_of_mem he)

theorem get?_set (d : Dict κ α) (k j : κ) (v : α) :
    (d.set k v).get? j = if j = k then some v else d.get? j := by
  unfold set
  split
  · rename_i hk
    obtain ⟨w, hw⟩ := (mem_keys_iff d k).mp hk
    rw [get?_modify]
    split
    · rename_i hj; rw [hj, hw]; rfl
    · rfl
  · rename_i hk
    refine get?_ext fun w => ?_
    simp only [List.mem_append, List.mem_singleton, Prod.mk.injEq, ← get?_iff_mem]
    by_cases hj : j = k
    · subst hj; rw [(get?_eq_none_iff d j).mpr hk]; simp [eq_comm]
    · simp [hj]

@[simp] theorem get?_set_self (d : Dict κ α) (k : κ) (v : α) : (d.set k v).get? k = some v := by
  rw [get?_set, if_pos rfl]

@[simp] theorem get?_erase_self (d : Dict κ α) (k : κ) : (d.erase k).get? k = none := by
  rw [get?_erase, if_pos rfl]

theorem get?_set_ne (d : Dict κ α) {k j : κ} (h : j ≠ k) (v : α) :
    (d.set k v).get? j = d.get? j := by
  rw [get?_set, if_neg h]

theorem get?_erase_ne (d : Dict κ α) {k j : κ} (h : j ≠ k) : (d.erase k).get? j = d.get? j := by
  rw [get?_erase, if_neg h]

theorem get?_of_erase {d : Dict κ α} {k j : κ} {v : α} (h : (d.erase k).get? j = some v) :
    j ≠ k ∧ d.get? j = some v := by
  rw [get?_erase] at h
  split at h
  · cases h
  · exact ⟨‹_›, h⟩

theorem get?_of_filter {p : κ → α → Bool} {d : Dict κ α} {k : κ} {v : α}
    (h : (d.filter p).get? k = some v) : d.get? k = some v ∧ p k v = true := by
  rw [get?_filter, Option.filter_eq_some_iff] at h
  exact h

/-- What a lookup after a write found: the value written, or what was there before. -/
theorem get?_of_set {d : Dict κ α} {k j : κ} {v w : α} (h : (d.set k v).get? j = some w) :
    (j = k ∧ w = v) ∨ (j ≠ k ∧ d.get? j = some w) := by
  rw [get?_set] at h
  split at h
  · rename_i hj; exact Or.inl ⟨hj, (Option.some.inj h).symm⟩
  · rename_i hj; exact Or.inr ⟨hj, h⟩

theorem get?_of_modify {d : Dict κ α} {k j : κ} {f : α → α} {w : α}
    (h : (d.modify k f).get? j = some w) :
    ∃ v, d.get? j = some v ∧ (w = v ∨ (j = k ∧ w = f v)) := by
  rw [get?_modify] at h
  split at h
  · obtain ⟨v, hv, rfl⟩ := Option.map_eq_some_iff.mp h
    exact ⟨v, hv, Or.inr ⟨‹_›, rfl⟩⟩
  · exact ⟨w, h, Or.inl rfl⟩

/-! ### Counting -/

theorem size_set_of_get? {d : Dict κ α} {k : κ} {w : α} (h : d.get? k = some w) (v : α) :
    (d.set k v).size = d.size := by
  have hk : k ∈ d.keys := (mem_keys_iff d k).mpr ⟨w, h⟩
  simp only [set, hk, dif_pos, modify, size, List.length_map]

theorem items_set_of_none {d : Dict κ α} {k : κ} (h : d.get? k = none) (v : α) :
    (d.set k v).items = d.items ++ [(k, v)] := by
  rw [set, dif_neg ((get?_eq_none_iff d k).mp h)]

theorem count_set_of_none {d : Dict κ α} {k : κ} (h : d.get? k = none) (v : α)
    (p : κ → α → Bool) : (d.set k v).count p = d.count p + if p k v then 1 else 0 := by
  rw [count, items_set_of_none h, List.countP_append]; simp [count, List.countP_cons]

/-- Items with distinct keys are a dictionary as they stand. -/
theorem ofList_items {l : List (κ × α)} (h : (l.map Prod.fst).Nodup) : (ofList l).items = l := by
  suffices key : ∀ (l : List (κ × α)) (d : Dict κ α), ((d.items ++ l).map Prod.fst).Nodup →
      (l.foldl (fun d e => d.set e.1 e.2) d).items = d.items ++ l by
    simpa [ofList, empty] using key l empty (by simpa [empty] using h)
  intro l
  induction l with
  | nil => intro d _; simp
  | cons e l ih =>
    intro d hd
    have hnew : d.get? e.1 = none := by
      rw [get?_eq_none_iff]
      rw [List.map_append, List.map_cons] at hd
      exact fun hm => (List.nodup_append.mp hd).2.2 _ hm _ List.mem_cons_self rfl
    have hset := items_set_of_none hnew e.2
    rw [List.foldl_cons, ih _ (by rw [hset, List.append_assoc]; exact hd), hset,
      List.append_assoc]
    rfl

theorem get?_ofList {l : List (κ × α)} (h : (l.map Prod.fst).Nodup) (k : κ) (v : α) :
    (ofList l).get? k = some v ↔ (k, v) ∈ l := by
  rw [get?_iff_mem, ofList_items h]

/-- A filter by keys commutes with a write: a key that is filtered out was not written. -/
theorem filter_set (p : κ → Bool) (d : Dict κ α) (k : κ) (v : α) :
    (d.set k v).filter (fun j _ => p j) =
      if p k then (d.filter fun j _ => p j).set k v else d.filter fun j _ => p j := by
  have hkeep : ∀ e : κ × α, p (if e.1 = k then (e.1, v) else e).1 = p e.1 := by
    intro e; split <;> rfl
  by_cases hk : k ∈ d.keys
  · have hset : (d.set k v).items = d.items.map fun e => if e.1 = k then (e.1, v) else e := by
      rw [set, dif_pos hk]; rfl
    have hitems : ((d.set k v).filter fun j _ => p j).items =
        (d.items.filter fun e => p e.1).map fun e => if e.1 = k then (e.1, v) else e := by
      simp only [filter, hset, List.filter_map, Function.comp_def, hkeep]
    split
    · rename_i hp
      have hk' : k ∈ (d.filter fun j _ => p j).keys := by
        obtain ⟨e, he, rfl⟩ := List.mem_map.mp hk
        exact List.mem_map.mpr ⟨e, List.mem_filter.mpr ⟨he, hp⟩, rfl⟩
      refine ext_items (hitems.trans ?_)
      rw [set, dif_pos hk']; rfl
    · rename_i hp
      refine ext_items (hitems.trans ((List.map_congr_left fun e he => ?_).trans (List.map_id _)))
      have hne : e.1 ≠ k := fun h => hp (h ▸ (List.mem_filter.mp he).2)
      exact if_neg hne
  · have hset : (d.set k v).items = d.items ++ [(k, v)] := by rw [set, dif_neg hk]
    have hk' : k ∉ (d.filter fun j _ => p j).keys := fun hm =>
      hk ((List.filter_sublist.map Prod.fst).subset hm)
    split
    · rename_i hp
      have hset' : ((d.filter fun j _ => p j).set k v).items =
          (d.filter fun j _ => p j).items ++ [(k, v)] := by rw [set, dif_neg hk']
      refine ext_items (Eq.trans ?_ hset'.symm)
      simp [filter, hset, hp]
    · rename_i hp
      refine ext_items ?_
      simp [filter, hset, hp]

/-- Filtering by keys before or after the dictionary is built makes no difference. -/
theorem filter_ofList (p : κ → Bool) (l : List (κ × α)) :
    (ofList l).filter (fun j _ => p j) = ofList (l.filter fun e => p e.1) := by
  suffices key : ∀ (l : List (κ × α)) (d : Dict κ α),
      (l.foldl (fun d e => d.set e.1 e.2) d).filter (fun j _ => p j) =
        (l.filter fun e => p e.1).foldl (fun d e => d.set e.1 e.2)
          (d.filter fun j _ => p j) by
    exact key l empty
  intro l
  induction l with
  | nil => intro d; rfl
  | cons e l ih =>
    intro d
    rw [List.foldl_cons, ih, filter_set, List.filter_cons]
    split <;> rfl

/-- Removing a present key lowers the count by what its item contributed. -/
theorem count_erase_add {d : Dict κ α} {k : κ} {v : α} (h : d.get? k = some v)
    (p : κ → α → Bool) : (d.erase k).count p + (if p k v then 1 else 0) = d.count p := by
  rw [get?_iff_mem] at h
  obtain ⟨l, hl⟩ := d
  simp only [erase, filter, count] at h ⊢
  induction l with
  | nil => cases h
  | cons e l ih =>
    simp only [List.map_cons, List.nodup_cons] at hl
    rcases List.mem_cons.mp h with rfl | hm
    · have hkeep : l.filter (fun e => decide (e.1 ≠ k)) = l := by
        refine List.filter_eq_self.mpr fun e he => ?_
        have : e.1 ≠ k := fun hk => hl.1 (List.mem_map.mpr ⟨e, he, hk⟩)
        simpa using this
      rw [List.filter_cons_of_neg (by simp), hkeep, List.countP_cons]
    · have hne : e.1 ≠ k := fun hk => hl.1 (List.mem_map.mpr ⟨(k, v), hm, hk.symm⟩)
      rw [List.filter_cons_of_pos (by simpa using hne), List.countP_cons, List.countP_cons,
        ← ih hl.2 hm]
      omega

/-- A dictionary whose items are all in another counts no more. -/
theorem count_le_of_get? {d d' : Dict κ α} (h : ∀ k v, d.get? k = some v → d'.get? k = some v)
    (p : κ → α → Bool) : d.count p ≤ d'.count p := by
  have hsub : d.items ⊆ d'.items := fun e he =>
    (d'.get?_iff_mem e.1 e.2).mp (h e.1 e.2 ((d.get?_iff_mem e.1 e.2).mpr he))
  exact (List.subperm_of_subset d.nodup.of_map hsub).countP_le _

/-- A dictionary whose keys are all in another is not larger. -/
theorem size_le_of_contains {β : Type} {d : Dict κ α} {d' : Dict κ β}
    (h : ∀ k, d.contains k = true → d'.contains k = true) : d.size ≤ d'.size := by
  have hsub : d.keys ⊆ d'.keys := by
    intro k hk
    have hd := h k ((d.contains_iff k).mpr ((d.mem_keys_iff k).mp hk))
    exact (d'.mem_keys_iff k).mpr ((d'.contains_iff k).mp hd)
  have hlen := (List.subperm_of_subset d.nodup hsub).length_le
  simpa [keys, size] using hlen

/-- Writing one key raises a count by what its item contributes, at most. -/
theorem count_set_le (d : Dict κ α) (k : κ) (v : α) (p : κ → α → Bool) :
    (d.set k v).count p ≤ d.count p + if p k v then 1 else 0 := by
  rw [← count_erase_add (get?_set_self d k v) p]
  refine Nat.add_le_add_right (count_le_of_get? (fun j w hj => ?_) p) _
  obtain ⟨hne, hj⟩ := get?_of_erase hj
  rwa [get?_set_ne d hne] at hj

end Dict

end Lib
