import Mathlib.Data.List.DropRight
import Mathlib.Data.List.MinMax
import DataRelay.Python

/-! The sliding-window rate limiter: a bucket of event times for each source, oldest first.

    A bucket is pruned when it is asked about and when anything is recorded, and an emptied bucket
    leaves the map. The map is capped: a new source that finds it full evicts the source whose
    oldest event is earliest. `bucket_allow` and `bucket_record` say what the two operations do to
    the bucket of every source; the eviction is the only way one source can change another's. -/

namespace DataRelay.OAuth
open Lib

structure SlidingWindow where
  maxEvents : ℕ
  window : Time
  maxSources : ℕ
  events : Dict String (List Time)
  maxSources_pos : 0 < maxSources

namespace SlidingWindow

/-- The events that have not left the window. -/
def live (cutoff : Time) (bucket : List Time) : List Time := bucket.dropWhile fun t => t < cutoff

def pruneBucket (w : SlidingWindow) (key : String) (bucket : List Time) (cutoff : Time) :
    SlidingWindow :=
  { w with events :=
      if live cutoff bucket = [] then w.events.erase key
      else w.events.set key (live cutoff bucket) }

def sweepExpired (w : SlidingWindow) (cutoff : Time) : SlidingWindow :=
  { w with events := w.events.filterMap fun bucket =>
      if live cutoff bucket = [] then none else some (live cutoff bucket) }

/-- Is there room for one more event of `key` at time `ts`? The bucket is pruned on the way. -/
def allow (w : SlidingWindow) (key : String) (ts : Time) : SlidingWindow × Bool :=
  match w.events.get? key with
  | none => (w, true)
  | some bucket =>
    let w' := w.pruneBucket key bucket (ts - w.window)
    (w', match w'.events.get? key with
      | none => true
      | some bucket => bucket.length < w'.maxEvents)

/-- The source to evict for a new one: the first whose oldest event is earliest. -/
def oldest (w : SlidingWindow) (ts : Time) : Option String :=
  (@List.argmin _ Time Int.instLinearOrder.toPreorder inferInstance (fun e => e.2.headD ts)
    w.events.items).map Prod.fst

/-- The map as `record` finds it: every bucket pruned, then the bucket of the source once more. -/
def swept (w : SlidingWindow) (key : String) (ts : Time) : SlidingWindow :=
  let w' := w.sweepExpired (ts - w.window)
  match w'.events.get? key with
  | none => w'
  | some bucket => w'.pruneBucket key bucket (ts - w.window)

/-- The source that recording an event of `key` evicts. -/
def victim (w : SlidingWindow) (key : String) (ts : Time) : Option String :=
  let w := w.swept key ts
  if w.events.contains key = false ∧ w.maxSources ≤ w.events.size then w.oldest ts else none

def record (w : SlidingWindow) (key : String) (ts : Time) : SlidingWindow :=
  let events := match w.victim key ts with
    | none => (w.swept key ts).events
    | some source => (w.swept key ts).events.erase source
  { w with events := events.set key ((events.get? key).getD [] ++ [ts]) }

/-- The recorded events of a source. -/
def bucket (w : SlidingWindow) (key : String) : List Time := (w.events.get? key).getD []

/-! ### What the operations do to a bucket -/

theorem live_live (cutoff : Time) (bucket : List Time) :
    live cutoff (live cutoff bucket) = live cutoff bucket :=
  List.dropWhile_idempotent _ _

@[simp] theorem live_nil (cutoff : Time) : live cutoff [] = [] := rfl

theorem bucket_pruneBucket (w : SlidingWindow) (key : String) (b : List Time) (cutoff : Time)
    (j : String) : (w.pruneBucket key b cutoff).bucket j =
      if j = key then live cutoff b else w.bucket j := by
  unfold pruneBucket bucket
  split
  · rename_i h
    rw [Dict.get?_erase, h]; split <;> rfl
  · rw [Dict.get?_set]; split <;> rfl

theorem bucket_sweepExpired (w : SlidingWindow) (cutoff : Time) (j : String) :
    (w.sweepExpired cutoff).bucket j = live cutoff (w.bucket j) := by
  simp only [sweepExpired, bucket, Dict.get?_filterMap]
  cases w.events.get? j with
  | none => rfl
  | some b =>
    simp only [Option.bind_some, Option.getD_some]
    split
    · rename_i h; rw [h]; rfl
    · rfl

theorem bucket_allow (w : SlidingWindow) (key : String) (ts : Time) (j : String) :
    (w.allow key ts).1.bucket j =
      if j = key then live (ts - w.window) (w.bucket key) else w.bucket j := by
  unfold allow
  split
  · rename_i h
    split
    · rename_i hj; simp [hj, bucket, h]
    · rfl
  · rename_i b h
    simp only [bucket_pruneBucket, show w.bucket key = b by simp [bucket, h]]

theorem bounds_allow (w : SlidingWindow) (key : String) (ts : Time) :
    (w.allow key ts).1.maxEvents = w.maxEvents ∧ (w.allow key ts).1.window = w.window ∧
      (w.allow key ts).1.maxSources = w.maxSources := by
  unfold allow
  split <;> exact ⟨rfl, rfl, rfl⟩

/-- A source is refused exactly when its window is full. -/
theorem allow_eq (w : SlidingWindow) (key : String) (ts : Time) (hmax : 0 < w.maxEvents) :
    (w.allow key ts).2 = decide ((live (ts - w.window) (w.bucket key)).length < w.maxEvents) := by
  unfold allow
  split
  · rename_i h; simp [bucket, h, hmax]
  · rename_i b h
    have hb : (w.pruneBucket key b (ts - w.window)).bucket key = live (ts - w.window) b := by
      rw [bucket_pruneBucket, if_pos rfl]
    rw [show w.bucket key = b by simp [bucket, h], ← hb, bucket]
    dsimp only
    cases (w.pruneBucket key b (ts - w.window)).events.get? key with
    | none => simp [hmax]
    | some b' => rfl

theorem bucket_swept (w : SlidingWindow) (key : String) (ts : Time) (j : String) :
    (w.swept key ts).bucket j = live (ts - w.window) (w.bucket j) := by
  unfold swept
  dsimp only
  split
  · exact bucket_sweepExpired w _ j
  · rename_i b h
    rw [bucket_pruneBucket, bucket_sweepExpired]
    split
    · rename_i hj
      have hb : b = live (ts - w.window) (w.bucket key) := by
        rw [← bucket_sweepExpired, bucket, h]; rfl
      rw [hj, hb, live_live]
    · rfl

/-- A source that is evicted is not the one recorded: that one has no bucket yet. -/
theorem get?_of_victim {w : SlidingWindow} {key v : String} {ts : Time}
    (h : w.victim key ts = some v) : (w.swept key ts).events.get? key = none := by
  unfold victim at h
  dsimp only at h
  split at h
  · rename_i hc
    simpa [Dict.contains] using hc.1
  · cases h

/-- Recording an event: the source's own bucket gains it, the victim's bucket is dropped, and every
    other bucket is only pruned. -/
theorem bucket_record (w : SlidingWindow) (key : String) (ts : Time) (j : String) :
    (w.record key ts).bucket j =
      if j = key then live (ts - w.window) (w.bucket key) ++ [ts]
      else if w.victim key ts = some j then []
      else live (ts - w.window) (w.bucket j) := by
  have hkey : ∀ d : Dict String (List Time), d.get? key = (w.swept key ts).events.get? key →
      (d.get? key).getD [] = live (ts - w.window) (w.bucket key) := by
    intro d hd; rw [hd, ← bucket_swept w key]; rfl
  have hj : ((w.swept key ts).events.get? j).getD [] = live (ts - w.window) (w.bucket j) :=
    bucket_swept w key ts j
  unfold record bucket
  rw [Dict.get?_set]
  split
  · subst_vars
    cases hv : w.victim j ts with
    | none => exact congrArg (· ++ [ts]) (hkey _ rfl)
    | some v =>
      refine congrArg (· ++ [ts]) (hkey _ ?_)
      rw [Dict.get?_erase, get?_of_victim hv, ite_self]
  · cases hv : w.victim key ts with
    | none => simpa [bucket] using hj
    | some v =>
      simp only [Dict.get?_erase, Option.some.injEq, eq_comm (a := v)]
      split
      · rfl
      · exact hj

end SlidingWindow

end DataRelay.OAuth
