import Mathlib.Data.Finset.Card
import DataRelay.OAuth.SlidingWindow

/-! The sliding window against the ideal log of all events.

    The log drops nothing. `Agrees` says that behind a moment in time no window of a bucket and of the
    log differ; every call keeps it as long as nothing is evicted, and nothing is evicted as long as
    the sources with an event in one window fit into the map. -/

namespace DataRelay.OAuth
open Lib

namespace SlidingWindow

inductive Call where
  | allow (key : String) (now : Time)
  | record (key : String) (now : Time)

def Call.time : Call → Time
  | .allow _ now => now
  | .record _ now => now

def Call.event : Call → Option (String × Time)
  | .allow _ _ => none
  | .record key now => some (key, now)

def call (w : SlidingWindow) : Call → SlidingWindow
  | .allow key now => (w.allow key now).1
  | .record key now => w.record key now

/-- The limiter behind some calls. -/
def calls (w : SlidingWindow) (cs : List Call) : SlidingWindow := cs.foldl call w

/-- The events that some calls record, oldest first. -/
def log (cs : List Call) : List (String × Time) := cs.filterMap Call.event

/-- The times at which a source has events in the log. -/
def timesOf (key : String) (es : List (String × Time)) : List Time :=
  (es.filter fun e => e.1 = key).map Prod.snd

/-- How many events of a source have a time in the window that ends at `now`. -/
def recent (window now : Time) (key : String) (es : List (String × Time)) : ℕ :=
  es.countP fun e => e.1 = key ∧ now - window ≤ e.2 ∧ e.2 ≤ now

/-- The sources that have an event in the window that ends at `now`. -/
def sources (window now : Time) (es : List (String × Time)) : Finset String :=
  ((es.filter fun e => now - window ≤ e.2 ∧ e.2 ≤ now).map Prod.fst).toFinset

/-- The limiter that nobody has called. -/
def unused (maxEvents : ℕ) (window : Time) (maxSources : ℕ) (h : 0 < maxSources) : SlidingWindow :=
  ⟨maxEvents, window, maxSources, ∅, h⟩

/-! ### Windows of a list of times -/

/-- A later window does not see what an earlier one has dropped. -/
theorem live_of_le {c c' : Time} (h : c ≤ c') : ∀ ts : List Time, live c' (live c ts) = live c' ts
  | [] => rfl
  | t :: ts => by
    unfold live
    by_cases ht : t < c
    · rw [List.dropWhile_cons_of_pos (by simpa using ht),
        List.dropWhile_cons_of_pos (by simpa using ht.trans_le h)]
      exact live_of_le h ts
    · rw [List.dropWhile_cons_of_neg (by simpa using ht)]

theorem live_append (c : Time) (new : List Time) :
    ∀ ts : List Time, live c (live c ts ++ new) = live c (ts ++ new)
  | [] => rfl
  | t :: ts => by
    unfold live
    by_cases ht : t < c
    · rw [List.dropWhile_cons_of_pos (by simpa using ht), List.cons_append,
        List.dropWhile_cons_of_pos (by simpa using ht)]
      exact live_append c new ts
    · rw [List.dropWhile_cons_of_neg (by simpa using ht)]

/-- Of an ordered list a window drops what lies before it, and nothing else. -/
theorem live_eq_filter (c : Time) : ∀ {ts : List Time}, ts.Pairwise (· ≤ ·) →
    live c ts = ts.filter fun t => c ≤ t
  | [], _ => rfl
  | t :: ts, h => by
    obtain ⟨hle, htail⟩ := List.pairwise_cons.mp h
    unfold live
    by_cases ht : t < c
    · rw [List.dropWhile_cons_of_pos (by simpa using ht),
        List.filter_cons_of_neg (by simpa using ht)]
      exact live_eq_filter c htail
    · rw [List.dropWhile_cons_of_neg (by simpa using ht)]
      refine (List.filter_eq_self.mpr fun x hx => ?_).symm
      rcases List.mem_cons.mp hx with rfl | hx
      · simpa using ht
      · simpa using (not_lt.mp ht).trans (hle x hx)

theorem timesOf_append (key : String) (es es' : List (String × Time)) :
    timesOf key (es ++ es') = timesOf key es ++ timesOf key es' := by
  simp [timesOf]

/-- An ordered log whose last event is not after `now`. -/
structure Ordered (now : Time) (es : List (String × Time)) : Prop where
  sorted : es.Pairwise fun e e' => e.2 ≤ e'.2
  past : ∀ e ∈ es, e.2 ≤ now

theorem Ordered.timesOf {now : Time} {es : List (String × Time)} (h : Ordered now es)
    (key : String) : (timesOf key es).Pairwise (· ≤ ·) :=
  List.pairwise_map.mpr (h.sorted.filter _)

/-- The events in the window that ends at `now` are the live ones. -/
theorem recent_eq {now : Time} {es : List (String × Time)} (h : Ordered now es) (window : Time)
    (key : String) : recent window now key es = (live (now - window) (timesOf key es)).length := by
  rw [live_eq_filter _ (h.timesOf key), ← List.countP_eq_length_filter]
  unfold recent timesOf
  rw [List.countP_map, List.countP_filter]
  refine List.countP_congr fun e he => ?_
  have hpast := h.past e he
  simp only [decide_eq_true_eq, Function.comp_apply, Bool.and_eq_true]
  tauto

/-! ### Agreement -/

/-- From `now` on, a window shows of every bucket what it shows of the log. -/
def Agrees (w : SlidingWindow) (now : Time) (es : List (String × Time)) : Prop :=
  ∀ key, live (now - w.window) (w.bucket key) = live (now - w.window) (timesOf key es)

variable {w : SlidingWindow} {now now' : Time} {es : List (String × Time)}

theorem Agrees.later (h : Agrees w now es) (hle : now ≤ now') : Agrees w now' es := by
  intro key
  have hcut : now - w.window ≤ now' - w.window := Int.sub_le_sub_right hle _
  rw [← live_of_le hcut (w.bucket key), h key, live_of_le hcut]

theorem Agrees.allow (h : Agrees w now es) (key : String) : Agrees (w.allow key now).1 now es := by
  intro j
  rw [(w.bounds_allow key now).2.1, bucket_allow]
  split
  · next hj => rw [hj, live_live, h key]
  · exact h j

theorem Agrees.record (h : Agrees w now es) {key : String} (hv : w.victim key now = none) :
    Agrees (w.record key now) now (es ++ [(key, now)]) := by
  intro j
  change live (now - w.window) ((w.record key now).bucket j) = live (now - w.window) _
  rw [bucket_record, hv, timesOf_append]
  split
  · next hj =>
    subst hj
    rw [h j, live_append]
    simp [timesOf]
  · next hj =>
    rw [if_neg (by simp), live_live, h j]
    simp [timesOf, Ne.symm hj]

/-! ### The map of buckets -/

theorem events_pruneBucket {key : String} {b : List Time} {c : Time} {k : String} {b' : List Time}
    (h : (w.pruneBucket key b c).events.get? k = some b') :
    (k = key ∧ b' ≠ []) ∨ w.events.get? k = some b' := by
  unfold pruneBucket at h
  dsimp only at h
  split at h
  · exact .inr (Dict.get?_of_erase h).2
  · next hne =>
    rcases Dict.get?_of_set h with ⟨rfl, rfl⟩ | ⟨-, h⟩
    · exact .inl ⟨rfl, hne⟩
    · exact .inr h

/-- A sweep leaves no empty bucket. -/
theorem swept_ne_nil {key : String} {ts : Time} {k : String} {b : List Time}
    (h : (w.swept key ts).events.get? k = some b) : b ≠ [] := by
  have hsweep : ∀ {k b}, (w.sweepExpired (ts - w.window)).events.get? k = some b → b ≠ [] := by
    intro k b h
    rw [sweepExpired, Dict.get?_filterMap] at h
    obtain ⟨b0, -, h⟩ := Option.bind_eq_some_iff.mp h
    split at h
    · cases h
    · next hne => cases h; exact hne
  unfold swept at h
  dsimp only at h
  split at h
  · exact hsweep h
  · rcases events_pruneBucket h with ⟨-, hne⟩ | h
    · exact hne
    · exact hsweep h

/-- What is in the map behind a record: the bucket recorded in, or one that the sweep left. -/
theorem events_record {key : String} {ts : Time} {k : String} {b : List Time}
    (h : (w.record key ts).events.get? k = some b) :
    (k = key ∧ b ≠ []) ∨ (w.swept key ts).events.get? k = some b := by
  unfold record at h
  rcases Dict.get?_of_set h with ⟨rfl, rfl⟩ | ⟨-, h⟩
  · exact .inl ⟨rfl, by simp⟩
  · split at h
    · exact .inr h
    · exact .inr (Dict.get?_of_erase h).2

theorem record_ne_nil {key : String} {ts : Time} {k : String} {b : List Time}
    (h : (w.record key ts).events.get? k = some b) : b ≠ [] := by
  rcases events_record h with ⟨-, hne⟩ | h
  · exact hne
  · exact swept_ne_nil h

theorem size_filterMap_le {α : Type} (f : α → Option α) (d : Dict String α) :
    (d.filterMap f).size ≤ d.size :=
  Dict.size_le_of_contains fun k hk => by
    obtain ⟨v, hv⟩ := (Dict.contains_iff _ _).mp hk
    rw [Dict.get?_filterMap] at hv
    obtain ⟨v0, h0, -⟩ := Option.bind_eq_some_iff.mp hv
    exact (Dict.contains_iff _ _).mpr ⟨v0, h0⟩

/-- Pruning a bucket that is there adds no source. -/
theorem size_pruneBucket {key : String} {b : List Time} (h : w.events.get? key = some b) (c : Time) :
    (w.pruneBucket key b c).events.size ≤ w.events.size :=
  Dict.size_le_of_contains fun k hk => by
    obtain ⟨b', hb⟩ := (Dict.contains_iff _ _).mp hk
    rcases events_pruneBucket hb with ⟨rfl, -⟩ | hb
    · exact (Dict.contains_iff _ _).mpr ⟨b, h⟩
    · exact (Dict.contains_iff _ _).mpr ⟨b', hb⟩

theorem size_allow (key : String) (ts : Time) :
    (w.allow key ts).1.events.size ≤ w.events.size := by
  unfold allow
  split
  · exact le_rfl
  · next hb => exact size_pruneBucket hb _

theorem size_swept (key : String) (ts : Time) : (w.swept key ts).events.size ≤ w.events.size := by
  have hsweep : (w.sweepExpired (ts - w.window)).events.size ≤ w.events.size :=
    size_filterMap_le _ _
  unfold swept
  dsimp only
  split
  · exact hsweep
  · next hb => exact (size_pruneBucket hb _).trans hsweep

/-- The oldest source is one of the map, and a map with a bucket has one. -/
theorem oldest_spec (ts : Time) : (w.oldest ts = none → w.events.items = []) ∧
    ∀ k, w.oldest ts = some k → ∃ b, w.events.get? k = some b := by
  unfold oldest
  refine ⟨fun h => ?_, fun k h => ?_⟩
  · exact List.argmin_eq_none.mp (Option.map_eq_none_iff.mp h)
  · obtain ⟨e, he, rfl⟩ := Option.map_eq_some_iff.mp h
    exact ⟨e.2, (Dict.get?_iff_mem _ _ _).mpr (List.argmin_mem he)⟩

theorem maxSources_swept (key : String) (ts : Time) :
    (w.swept key ts).maxSources = w.maxSources := by
  unfold swept
  dsimp only
  split <;> rfl

/-- A source is evicted when a new one finds the map full. -/
theorem of_victim {key v : String} {ts : Time} (h : w.victim key ts = some v) :
    (w.swept key ts).events.get? key = none ∧ w.maxSources ≤ (w.swept key ts).events.size ∧
      ∃ b, (w.swept key ts).events.get? v = some b := by
  have hkey := get?_of_victim h
  unfold victim at h
  dsimp only at h
  rw [maxSources_swept] at h
  split at h
  · next hc => exact ⟨hkey, hc.2, (oldest_spec ts).2 v h⟩
  · cases h

/-- Nothing is evicted for a source that has a bucket, or while there is room. -/
theorem of_victim_none {key : String} {ts : Time} (h : w.victim key ts = none)
    (hk : (w.swept key ts).events.get? key = none) :
    (w.swept key ts).events.size < w.maxSources := by
  unfold victim at h
  dsimp only at h
  rw [maxSources_swept] at h
  by_contra hfull
  rw [if_pos ⟨by simp [Dict.contains, hk], not_lt.mp hfull⟩] at h
  have hpos := w.maxSources_pos
  have hitems := congrArg List.length ((oldest_spec ts).1 h)
  have hsize : (w.swept key ts).events.size = 0 := hitems
  omega

theorem size_set_le (d : Dict String (List Time)) (k : String) (b : List Time) :
    (d.set k b).size ≤ d.size + 1 := by
  have h := Dict.count_set_le d k b fun _ _ => true
  rwa [← Dict.size_eq_count, ← Dict.size_eq_count, if_pos rfl] at h

/-- A record never makes the map larger than its cap. -/
theorem size_record {key : String} {ts : Time} (h : w.events.size ≤ w.maxSources) :
    (w.record key ts).events.size ≤ w.maxSources := by
  have hswept := (w.size_swept key ts).trans h
  unfold record
  cases hv : w.victim key ts with
  | some v =>
    obtain ⟨-, -, b, hb⟩ := of_victim hv
    have herase := Dict.count_erase_add hb fun _ _ => true
    rw [← Dict.size_eq_count, ← Dict.size_eq_count, if_pos rfl] at herase
    dsimp only
    exact (size_set_le _ _ _).trans (by omega)
  | none =>
    dsimp only
    cases hk : (w.swept key ts).events.get? key with
    | some b => rwa [Dict.size_set_of_get? hk]
    | none => exact (size_set_le _ _ _).trans (of_victim_none hv hk)

/-! ### No eviction -/

/-- As long as the sources of a window fit into the map, nothing is evicted. -/
theorem Agrees.victim (h : Agrees w now es) (ho : Ordered now es) {key : String}
    (hfit : (sources w.window now (es ++ [(key, now)])).card ≤ w.maxSources) :
    w.victim key now = none := by
  by_contra hne
  obtain ⟨v, hv⟩ := Option.ne_none_iff_exists'.mp hne
  obtain ⟨hkey, hfull, -⟩ := of_victim hv
  -- every source of the swept map has an event in the window
  have hevent : ∀ k ∈ (w.swept key now).events.keys,
      ∃ e ∈ es, e.1 = k ∧ now - w.window ≤ e.2 ∧ e.2 ≤ now := by
    intro k hk
    obtain ⟨b, hb⟩ := (Dict.mem_keys_iff _ _).mp hk
    have hlive : live (now - w.window) (timesOf k es) = b := by
      rw [← h k, ← bucket_swept w key now k, bucket, hb]
      rfl
    have hne : b ≠ [] := swept_ne_nil hb
    rw [live_eq_filter _ (ho.timesOf k)] at hlive
    obtain ⟨t, ht⟩ := List.exists_mem_of_ne_nil b hne
    rw [← hlive] at ht
    obtain ⟨hmem, hcut⟩ := List.mem_filter.mp ht
    obtain ⟨e, he, rfl⟩ := List.mem_map.mp hmem
    obtain ⟨he, hk⟩ := List.mem_filter.mp he
    exact ⟨e, he, by simpa using hk, by simpa using hcut, ho.past e he⟩
  have hopen : now - w.window ≤ now := by
    have hpos : 0 < (w.swept key now).events.keys.length := by
      have hsize : (w.swept key now).events.keys.length = (w.swept key now).events.size := by
        simp [Dict.keys, Dict.size]
      exact hsize ▸ w.maxSources_pos.trans_le hfull
    obtain ⟨e, -, -, hcut, hpast⟩ := hevent _ (List.getElem_mem hpos)
    exact hcut.trans hpast
  have hin : (key :: (w.swept key now).events.keys).toFinset ⊆
      sources w.window now (es ++ [(key, now)]) := by
    intro k hk
    have hmem : ∃ e ∈ es ++ [(key, now)], e.1 = k ∧ now - w.window ≤ e.2 ∧ e.2 ≤ now := by
      rcases List.mem_cons.mp (List.mem_toFinset.mp hk) with rfl | hk
      · exact ⟨(k, now), by simp, rfl, hopen, le_rfl⟩
      · obtain ⟨e, he, hrest⟩ := hevent k hk
        exact ⟨e, List.mem_append_left _ he, hrest⟩
    obtain ⟨e, he, rfl, hcut, hpast⟩ := hmem
    exact List.mem_toFinset.mpr (List.mem_map.mpr ⟨e, List.mem_filter.mpr
      ⟨he, decide_eq_true ⟨hcut, hpast⟩⟩, rfl⟩)
  have hnodup : (key :: (w.swept key now).events.keys).Nodup :=
    List.nodup_cons.mpr ⟨(Dict.get?_eq_none_iff _ _).mp hkey, (w.swept key now).events.nodup⟩
  have hcard := Finset.card_le_card hin
  rw [List.toFinset_card_of_nodup hnodup, List.length_cons] at hcard
  have hsize : (w.swept key now).events.keys.length = (w.swept key now).events.size := by
    simp [Dict.keys, Dict.size]
  omega

/-! ### Every sequence of calls -/

theorem calls_append (w : SlidingWindow) (cs : List Call) (c : Call) :
    w.calls (cs ++ [c]) = (w.calls cs).call c := by
  simp [calls]

theorem bounds_call (w : SlidingWindow) (c : Call) : (w.call c).maxEvents = w.maxEvents ∧
    (w.call c).window = w.window ∧ (w.call c).maxSources = w.maxSources := by
  cases c with
  | allow key now => exact w.bounds_allow key now
  | record key now => exact ⟨rfl, rfl, rfl⟩

theorem bounds_calls (w : SlidingWindow) (cs : List Call) :
    (w.calls cs).maxEvents = w.maxEvents ∧ (w.calls cs).window = w.window ∧
      (w.calls cs).maxSources = w.maxSources := by
  induction cs using List.reverseRecOn with
  | nil => exact ⟨rfl, rfl, rfl⟩
  | append_singleton cs c ih =>
    rw [calls_append]
    obtain ⟨h1, h2, h3⟩ := bounds_call (w.calls cs) c
    exact ⟨h1.trans ih.1, h2.trans ih.2.1, h3.trans ih.2.2⟩

/-- Calls at non-decreasing times. -/
def Timed (cs : List Call) : Prop := cs.Pairwise fun c c' => c.time ≤ c'.time

theorem Timed.ordered {cs : List Call} (h : Timed cs) (hnow : ∀ c ∈ cs, c.time ≤ now) :
    Ordered now (log cs) := by
  have hevent : ∀ {c : Call} {e : String × Time}, c.event = some e → e.2 = c.time := by
    intro c e he
    cases c <;> cases he
    rfl
  refine ⟨?_, fun e he => ?_⟩
  · refine List.pairwise_filterMap.mpr (h.imp fun hle e he e' he' => ?_)
    rw [hevent he, hevent he']
    exact hle
  · obtain ⟨c, hc, he⟩ := List.mem_filterMap.mp he
    rw [hevent he]
    exact hnow c hc

/-- The sources of every window of the log fit into the map. -/
def Fits (w : SlidingWindow) (cs : List Call) : Prop :=
  ∀ now, (sources w.window now (log cs)).card ≤ w.maxSources

theorem sources_mono (window now : Time) (es es' : List (String × Time)) :
    sources window now es ⊆ sources window now (es ++ es') := by
  intro k hk
  unfold sources at hk ⊢
  simp only [List.filter_append, List.map_append, List.toFinset_append, Finset.mem_union]
  exact .inl hk

theorem Fits.left {cs cs' : List Call} (h : Fits w (cs ++ cs')) : Fits w cs := by
  intro now
  refine (Finset.card_le_card (sources_mono w.window now (log cs) (log cs'))).trans ?_
  have := h now
  rwa [log, List.filterMap_append] at this

theorem log_append (cs cs' : List Call) : log (cs ++ cs') = log cs ++ log cs' :=
  List.filterMap_append

/-- The limiter agrees with the log of all its calls. -/
theorem agrees_calls (hempty : w.events = ∅) {cs : List Call} (ht : Timed cs) (hf : Fits w cs)
    (hnow : ∀ c ∈ cs, c.time ≤ now) : Agrees (w.calls cs) now (log cs) := by
  -- from the last call: what the earlier calls left agrees with their log
  induction cs using List.reverseRecOn generalizing now with
  | nil =>
    intro key
    have hbucket : w.bucket key = [] := by rw [bucket, hempty]; rfl
    change live (now - w.window) (w.bucket key) = _
    rw [hbucket]
    rfl
  | append_singleton cs c ih =>
    obtain ⟨hcs, -, hlast⟩ := List.pairwise_append.mp ht
    have hpast : ∀ c' ∈ cs, c'.time ≤ c.time := fun c' hc' => hlast c' hc' c (by simp)
    have hold := ih hcs hf.left hpast
    have hle : c.time ≤ now := hnow c (by simp)
    rw [calls_append, log_append]
    refine Agrees.later ?_ hle
    cases c with
    | allow key t =>
      have hlog : log [Call.allow key t] = [] := rfl
      rw [hlog, List.append_nil]
      exact hold.allow key
    | record key t =>
      -- the victim of a full table has nothing left in the window
      have hfit := hf t
      rw [log_append] at hfit
      obtain ⟨-, hwindow, hsources⟩ := w.bounds_calls cs
      rw [← hwindow, ← hsources] at hfit
      exact hold.record (hold.victim (Timed.ordered hcs hpast) hfit)

/-- With all times in order and room for all sources, `allow` answers as the log would. -/
theorem allow_iff_recent (hempty : w.events = ∅) (hmax : 0 < w.maxEvents) {cs : List Call}
    {key : String} (ht : Timed (cs ++ [.allow key now])) (hf : Fits w cs) :
    ((w.calls cs).allow key now).2 = true ↔ recent w.window now key (log cs) < w.maxEvents := by
  obtain ⟨hcs, -, hlast⟩ := List.pairwise_append.mp ht
  have hpast : ∀ c ∈ cs, c.time ≤ now := fun c hc => hlast c hc (.allow key now) (by simp)
  have hagrees := agrees_calls hempty hcs hf hpast key
  obtain ⟨hevents, hwindow, -⟩ := w.bounds_calls cs
  rw [allow_eq _ _ _ (hevents ▸ hmax), hagrees, hevents, hwindow,
    recent_eq (Timed.ordered hcs hpast), decide_eq_true_eq]

/-- The map never holds more sources than its cap. -/
theorem size_calls (h : w.events.size ≤ w.maxSources) (cs : List Call) :
    (w.calls cs).events.size ≤ w.maxSources := by
  induction cs using List.reverseRecOn with
  | nil => exact h
  | append_singleton cs c ih =>
    rw [calls_append, ← (w.bounds_calls cs).2.2] at *
    cases c with
    | allow key t => exact ((w.calls cs).size_allow key t).trans ih
    | record key t => exact size_record ih

/-! ### A record behind an allow -/

/-- An event is recorded only right after its source was allowed one. -/
def Guarded (w : SlidingWindow) (cs : List Call) : Prop :=
  ∀ before key now later, cs = before ++ .record key now :: later →
    ∃ before' t, before = before' ++ [.allow key t] ∧ ((w.calls before').allow key t).2 = true

/-- No bucket has more events than are allowed. -/
def Bounded (w : SlidingWindow) : Prop := ∀ key, (w.bucket key).length ≤ w.maxEvents

theorem length_live_le (c : Time) (ts : List Time) : (live c ts).length ≤ ts.length :=
  (List.dropWhile_sublist _).length_le

theorem Bounded.allow (h : Bounded w) (key : String) (t : Time) : Bounded (w.allow key t).1 := by
  intro j
  rw [bucket_allow, (w.bounds_allow key t).1]
  split
  · exact (length_live_le _ _).trans (h key)
  · exact h j

/-- The bucket of a source that was just allowed an event has room for it. -/
theorem Bounded.record (hmax : 0 < w.maxEvents) {key : String} {t : Time}
    (h : Bounded (w.allow key t).1) (hallow : (w.allow key t).2 = true) (t' : Time) :
    Bounded ((w.allow key t).1.record key t') := by
  intro j
  change _ ≤ (w.allow key t).1.maxEvents
  rw [bucket_record]
  split
  · rw [allow_eq _ _ _ hmax, decide_eq_true_eq] at hallow
    rw [bucket_allow, if_pos rfl, List.length_append, List.length_singleton,
      (w.bounds_allow key t).1]
    have := length_live_le (t' - (w.allow key t).1.window) (live (t - w.window) (w.bucket key))
    omega
  split
  · exact Nat.zero_le _
  · exact (length_live_le _ _).trans (h j)

theorem Guarded.left {cs cs' : List Call} (h : Guarded w (cs ++ cs')) : Guarded w cs :=
  fun before key now later he => h before key now (later ++ cs') (by rw [he]; simp)

/-- Records behind an allow never overfill a bucket. -/
theorem bounded_calls (hempty : w.events = ∅) (hmax : 0 < w.maxEvents) {cs : List Call}
    (hg : Guarded w cs) : Bounded (w.calls cs) := by
  induction cs using List.reverseRecOn with
  | nil =>
    intro key
    have hbucket : w.bucket key = [] := by rw [bucket, hempty]; rfl
    change (w.bucket key).length ≤ _
    rw [hbucket]
    exact Nat.zero_le _
  | append_singleton cs c ih =>
    have hold := ih hg.left
    rw [calls_append]
    cases c with
    | allow key t => exact hold.allow key t
    | record key t =>
      obtain ⟨before, t0, rfl, hallow⟩ := hg cs key t [] rfl
      rw [calls_append] at hold ⊢
      exact Bounded.record ((w.bounds_calls before).1 ▸ hmax) hold hallow t

/-! ### The limiter and the log -/

section Limiter
variable {maxEvents maxSources : ℕ} {window : Time} {hpos : 0 < maxSources}

/-- The limiter equals the ideal log: with the times in order and room for the sources of every
    window, `allow` answers by the number of recent events. Whatever the calls, the map keeps its
    cap and a record leaves no empty bucket; and records behind an allow overfill no bucket. -/
theorem sliding_window_ideal (hmax : 0 < maxEvents) :
    (∀ cs, Timed cs → Fits (unused maxEvents window maxSources hpos) cs →
      ∀ before key now later, cs = before ++ .allow key now :: later →
        ((((unused maxEvents window maxSources hpos).calls before).allow key now).2 = true ↔
          recent window now key (log before) < maxEvents)) ∧
    (∀ cs, ((unused maxEvents window maxSources hpos).calls cs).events.size ≤ maxSources) ∧
    (∀ cs key now k b, ((unused maxEvents window maxSources hpos).calls
      (cs ++ [.record key now])).events.get? k = some b → b ≠ []) ∧
    ∀ cs, Guarded (unused maxEvents window maxSources hpos) cs →
      ∀ key b, ((unused maxEvents window maxSources hpos).calls cs).events.get? key = some b →
        b.length ≤ maxEvents := by
  refine ⟨?_, size_calls (Nat.zero_le _), fun cs key now k b hb => ?_, fun cs hg key b hb => ?_⟩
  · rintro cs ht hf before key now later rfl
    have ht' : Timed ((before ++ [.allow key now]) ++ later) := by simpa using ht
    have hf' : Fits (unused maxEvents window maxSources hpos)
      (before ++ Call.allow key now :: later) := hf
    exact allow_iff_recent rfl hmax (List.pairwise_append.mp ht').1 hf'.left
  · rw [calls_append] at hb
    exact record_ne_nil hb
  · have hle := bounded_calls rfl hmax hg key
    rwa [bucket, hb, (bounds_calls _ cs).1] at hle

end Limiter

/-- Three events a window from `a`, with one of `b` between: the fourth is refused until the first
    has left the window. -/
theorem sliding_window_sample :
    recent 10 10 "a" [("a", 0), ("b", 1), ("a", 2), ("a", 3)] = 3 ∧
    ((((unused 3 10 2 (by decide)).calls [.record "a" 0, .record "b" 1, .record "a" 2,
      .record "a" 3]).allow "a" 11).2 = true ↔
        recent 10 11 "a" [("a", 0), ("b", 1), ("a", 2), ("a", 3)] < 3) := by
  refine ⟨by decide, (sliding_window_ideal (by decide)).1 _ ?_ ?_ _ "a" 11 [] rfl⟩
  · unfold Timed
    decide
  · intro now
    have hsub : sources 10 now [("a", 0), ("b", 1), ("a", 2), ("a", 3)] ⊆ {"a", "b"} := by
      intro k hk
      obtain ⟨e, he, rfl⟩ := List.mem_map.mp (List.mem_toFinset.mp hk)
      have hmem := (List.mem_filter.mp he).1
      simp only [List.mem_cons, List.not_mem_nil, or_false] at hmem
      rcases hmem with rfl | rfl | rfl | rfl <;> simp
    exact (Finset.card_le_card hsub).trans (by decide)

end SlidingWindow

end DataRelay.OAuth
