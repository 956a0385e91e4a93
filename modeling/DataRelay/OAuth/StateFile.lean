import DataRelay.OAuth.PayloadRoundTrip
import DataRelay.OAuth.Service
import DataRelay.OAuth.Token

/-! What a save leaves in the state file, and what a start reads back.

    A save either leaves the file alone or renames the text its write transferred over it. A text cut
    short is refused by `load`, so whatever a start accepts is a whole payload, and reading it gives
    the records that were saved. -/

namespace DataRelay.OAuth
open Lib

/-! ### One save -/

namespace DurableOAuthStore
variable (store : DurableOAuthStore) (calls : SaveCalls) (payload : Json) (dir : Dir)

/-- Every call up to the rename succeeds, and the write transfers `n` characters. -/
def SaveCalls.Renames (n : ℕ) : Prop :=
  calls.dir = .safe ∧ calls.mkstemp = true ∧ calls.write = some n ∧ calls.fsync = true ∧
    calls.close = true ∧ calls.chmodTmp = true ∧ calls.replace = true

/-- Every call behind the rename succeeds. -/
def SaveCalls.Syncs : Prop :=
  calls.openDir = true ∧ calls.fsyncDir = true ∧ calls.closeDir = true ∧ calls.chmodPath = true ∧
    calls.mode = .safe

/-- The payload is one that `save` accepts. -/
def Accepted : Prop := versionOk payload = true ∧ hasForbidden payload = false

theorem finish_ok_iff : store.finish calls = .ok () ↔ calls.Syncs := by
  unfold finish SaveCalls.Syncs
  cases calls.openDir <;> cases calls.fsyncDir <;> cases calls.closeDir <;>
    cases calls.chmodPath <;> cases calls.mode <;> simp [assertSafeFileMode]

/-- The whole course of a save that reaches the rename. -/
theorem save_of_renames (hp : Accepted payload) {n : ℕ} (hr : calls.Renames n) :
    store.save calls payload dir =
      ⟨[{ dir with tmp := some [] }, { dir with tmp := some ((Json.dumps payload).take n) },
        ⟨some ((Json.dumps payload).take n), none⟩], store.finish calls⟩ := by
  obtain ⟨h1, h2, h3, h4, h5, h6, h7⟩ := hr
  simp [save, assertSafeDir, h1, h2, h3, h4, h5, h6, h7, hp.1, hp.2]

/-- A save that fails behind `mkstemp`: the file stays, and the temporary file goes unless its
    unlink fails. -/
theorem abort_spec {calls : SaveCalls} {dir made : Dir} {states : List Dir}
    (hs : ∀ d ∈ states, d.file = dir.file) (hm : made.file = dir.file) :
    (∀ d ∈ (store.abort calls states made).states, d.file = dir.file) ∧
      (∃ e, (store.abort calls states made).result = .error e) ∧
      (((store.abort calls states made).last dir).tmp = none ∨ calls.unlink = false) := by
  refine ⟨fun d hd => ?_, ⟨_, rfl⟩, ?_⟩
  · unfold abort at hd
    simp only at hd
    split at hd
    · rcases List.mem_append.mp hd with hd | hd
      · exact hs d hd
      · rw [List.mem_singleton.mp hd]; exact hm
    · exact hs d hd
  · by_cases hu : calls.unlink = true
    · left; simp [abort, Saved.last, hu]
    · right; simpa using hu

/-- A save that does not reach the rename raises and leaves the file alone. -/
theorem save_of_not_renames (hr : ∀ n, ¬ calls.Renames n) (htmp : dir.tmp = none) :
    (∀ d ∈ (store.save calls payload dir).states, d.file = dir.file) ∧
      (∃ e, (store.save calls payload dir).result = .error e) ∧
      (((store.save calls payload dir).last dir).tmp = none ∨ calls.unlink = false) := by
  have hnone : ∀ e, (∀ d ∈ (Saved.mk [] (.error e)).states, d.file = dir.file) ∧
      (∃ e', (Saved.mk [] (.error e)).result = .error e') ∧
      (((Saved.mk [] (.error e)).last dir).tmp = none ∨ calls.unlink = false) :=
    fun e => ⟨by simp, ⟨e, rfl⟩, Or.inl htmp⟩
  -- one exit of the source after the other; each of them is before `os.replace`
  unfold save
  split
  · exact hnone _
  rename_i hdir
  split
  · exact hnone _
  split
  · exact hnone _
  split
  · exact hnone _
  rename_i hmk
  dsimp only
  split
  · exact abort_spec store (by simp) rfl
  rename_i n hw
  split
  · -- all the calls up to the rename succeeding contradicts that there is none
    rename_i hall
    refine absurd ⟨?_, by simpa using hmk, hw, ?_⟩ (hr n)
    · cases hd : calls.dir <;> simp [assertSafeDir, hd] at hdir ⊢
    · simpa [and_assoc] using hall
  · exact abort_spec store (by simp) rfl

/-- What a save leaves in the file: what was there, or as much as its write transferred. -/
theorem file_save (hp : Accepted payload) (htmp : dir.tmp = none) :
    ((store.save calls payload dir).last dir).file = dir.file ∨
      ∃ n, calls.Renames n ∧ ((store.save calls payload dir).last dir).file =
        some ((Json.dumps payload).take n) := by
  by_cases hr : ∃ n, calls.Renames n
  · obtain ⟨n, hr⟩ := hr
    refine Or.inr ⟨n, hr, ?_⟩
    rw [save_of_renames store calls payload dir hp hr]; rfl
  · left
    have h := save_of_not_renames store calls payload dir (not_exists.mp hr) htmp
    unfold Saved.last
    cases hl : (store.save calls payload dir).states.getLast? with
    | none => rfl
    | some d => exact h.1 d (List.mem_of_getLast? hl)

/-- A save that returns has renamed. -/
theorem renames_of_ok (htmp : dir.tmp = none)
    (h : (store.save calls payload dir).result = .ok ()) : ∃ n, calls.Renames n := by
  by_contra hr
  obtain ⟨-, ⟨e, he⟩, -⟩ :=
    save_of_not_renames store calls payload dir (not_exists.mp hr) htmp
  rw [h] at he; cases he

end DurableOAuthStore

/-! ### Reading back -/

open DurableOAuthStore (Accepted checkPayload)

/-- The records of a state file, `none` when a start refuses it. -/
def readFile : Option (List Char) →
    Option (Dict String RegisteredClient × Dict String RefreshToken)
  | none => some (∅, ∅)
  | some text =>
    (Json.loads text).bind fun p =>
      (checkPayload p).toOption.bind fun p => (loadPayload p).toOption

variable {clients : Dict String RegisteredClient} {refreshTokens : Dict String RefreshToken}

theorem accepted_payload (clients : Dict String RegisteredClient)
    (refreshTokens : Dict String RefreshToken) : Accepted (payload clients refreshTokens) :=
  ⟨rfl, rfl⟩

theorem isObj_sortKeys (v : Json) :
    DurableOAuthStore.isObj (Json.sortKeys v) = DurableOAuthStore.isObj v := by
  cases v <;> simp only [Json.sortKeys, DurableOAuthStore.isObj]

theorem hasMaps_sortKeys {p : Json} (hobj : ∃ fs, p = .obj fs) (hwf : p.WF) :
    DurableOAuthStore.hasMaps (Json.sortKeys p) = DurableOAuthStore.hasMaps p := by
  obtain ⟨fs, rfl⟩ := hobj
  simp only [DurableOAuthStore.hasMaps, Json.get?_sortKeys hwf.1, Option.any_map, isObj_sortKeys]

/-- `load` accepts the dump of a payload that `save` accepted, as long as it has the two maps. -/
theorem checkPayload_sortKeys {p : Json} (hobj : ∃ fs, p = .obj fs) (hwf : p.WF)
    (ha : Accepted p) (hmaps : DurableOAuthStore.hasMaps p = true) :
    checkPayload (Json.sortKeys p) = .ok (Json.sortKeys p) := by
  rw [← hasMaps_sortKeys hobj hwf] at hmaps
  obtain ⟨fs, rfl⟩ := hobj
  have field (k : String) := Json.get?_sortKeys hwf.1 k
  have hversion : DurableOAuthStore.versionOk (Json.sortKeys (.obj fs)) = true := by
    rw [← ha.1, DurableOAuthStore.versionOk, DurableOAuthStore.versionOk, field]
    cases Json.get? (.obj fs) "version" with
    | none => rfl
    | some v => cases v <;> simp only [Option.map_some, Json.sortKeys]
  have hforbidden : DurableOAuthStore.hasForbidden (Json.sortKeys (.obj fs)) = false := by
    rw [← ha.2]; simp only [DurableOAuthStore.hasForbidden, field, Option.isSome_map]
  rw [checkPayload, isObj_sortKeys, hversion, hforbidden, hmaps]
  rfl

theorem checkPayload_sorted (clients : Dict String RegisteredClient)
    (refreshTokens : Dict String RefreshToken) :
    checkPayload (Json.sortKeys (payload clients refreshTokens)) =
      .ok (Json.sortKeys (payload clients refreshTokens)) :=
  checkPayload_sortKeys ⟨_, rfl⟩ (payload_WF clients refreshTokens)
    (accepted_payload clients refreshTokens) rfl

/-! ### All or nothing -/

/-- The payload of a client with one refresh token. -/
def grantedPayload : Json :=
  payload (.ofList [("client_c", ⟨"client_c", ["https://app.example/cb"], none, "none",
    ["authorization_code", "refresh_token"], ["code"], 1, seconds 1⟩)])
    (.ofList [("rtk_y", ⟨"rtk_y", "client_c", "https://relay.example/mcp", {defaultScope},
      seconds 100, false, relayOwner⟩)])

section AllOrNothing
open DurableOAuthStore
variable (store : DurableOAuthStore) (calls : SaveCalls) (payload : Json) (dir : Dir)

/-- Wherever the process stops, the file holds its old content or the whole new text; a save that
    returns leaves the new text, which `load` gives back; a save that raises leaves no temporary
    file unless the unlink failed. -/
def AllOrNothing : Prop :=
  let saved := store.save calls payload dir
  (∀ d ∈ dir :: saved.states, d.file = dir.file ∨ d.file = some (Json.dumps payload)) ∧
    (saved.result = .ok () → (saved.last dir).file = some (Json.dumps payload) ∧
      ∀ load : LoadCalls, load.mode = .safe → load.read = true →
        store.load load (saved.last dir).file = .ok (Json.sortKeys payload)) ∧
    ∀ e, saved.result = .error e → (saved.last dir).tmp = none ∨ calls.unlink = false

variable {store calls payload dir}

theorem load_dumps {load : LoadCalls} (hwf : payload.WF) (hm : load.mode = .safe)
    (hr : load.read = true) : store.load load (some (Json.dumps payload)) =
      checkPayload (Json.sortKeys payload) := by
  simp [DurableOAuthStore.load, assertSafeFileMode, hm, hr, Json.loads_dumps hwf]

theorem hasMaps_of_checkPayload {p q : Json} (h : checkPayload p = .ok q) : hasMaps p = true := by
  by_contra hm
  rw [Bool.not_eq_true] at hm
  simp only [checkPayload, hm, if_true] at h
  split at h
  · cases h
  split at h
  · cases h
  split at h <;> cases h

/-- A save is all or nothing exactly when its rename, if it comes to that, renames the whole text,
    and the payload has the two maps if `save` then returns. (A text cut short does no harm only
    when it happens to be the old content and `save` raises.) -/
theorem save_allOrNothing_iff (hobj : ∃ fs, payload = .obj fs) (hwf : payload.WF)
    (ha : Accepted payload) (htmp : dir.tmp = none) :
    AllOrNothing store calls payload dir ↔ ∀ n, calls.Renames n →
      ((Json.dumps payload).length ≤ n ∨
        (dir.file = some ((Json.dumps payload).take n) ∧ ¬ calls.Syncs)) ∧
      (calls.Syncs → hasMaps payload = true) := by
  constructor
  · rintro ⟨hfile, hok, -⟩ n hn
    rw [save_of_renames store calls payload dir ha hn] at hfile hok
    have hret (hs : calls.Syncs) := hok ((finish_ok_iff store calls).mpr hs)
    refine ⟨?_, fun hs => ?_⟩
    · -- a cut payload is not the new one, so it must be what was there before
      rcases Nat.lt_or_ge n (Json.dumps payload).length with hlt | hge
      · right
        have hne : some ((Json.dumps payload).take n) ≠ some (Json.dumps payload) := by
          intro he
          have := congrArg List.length (Option.some.inj he)
          rw [List.length_take] at this
          omega
        refine ⟨?_, fun hs => hne (hret hs).1⟩
        exact ((hfile ⟨_, none⟩ (by simp)).resolve_right hne).symm
      · exact Or.inl hge
    · -- a save that returned is read back, and only an object of four maps is
      obtain ⟨hlast, hload⟩ := hret hs
      have hl := hload ⟨.safe, true⟩ rfl rfl
      rw [hlast, load_dumps hwf rfl rfl] at hl
      rw [← hasMaps_sortKeys hobj hwf]
      exact hasMaps_of_checkPayload hl
  · -- either the save reaches the rename, or it leaves the old file
    intro h
    by_cases hr : ∃ n, calls.Renames n
    · obtain ⟨n, hn⟩ := hr
      obtain ⟨hcut, hmaps⟩ := h n hn
      have htake : some ((Json.dumps payload).take n) = dir.file ∧ ¬ calls.Syncs ∨
          (Json.dumps payload).take n = Json.dumps payload :=
        hcut.symm.imp (fun hc => ⟨hc.1.symm, hc.2⟩) List.take_of_length_le
      rw [AllOrNothing, save_of_renames store calls payload dir ha hn]
      refine ⟨fun d hd => ?_, fun hs => ?_, fun e _ => Or.inl rfl⟩
      · simp only [List.mem_cons, List.not_mem_nil, or_false] at hd
        rcases hd with rfl | rfl | rfl | rfl
        · exact Or.inl rfl
        · exact Or.inl rfl
        · exact Or.inl rfl
        · exact htake.imp (·.1) (congrArg some)
      · have hsync := (finish_ok_iff store calls).mp hs
        have hwhole := htake.resolve_left fun hc => hc.2 hsync
        have hlast : some ((Json.dumps payload).take n) = some (Json.dumps payload) :=
          congrArg some hwhole
        refine ⟨hlast, fun load hm hread => ?_⟩
        simp only [Saved.last, List.getLast?_cons_cons, List.getLast?_singleton, Option.getD_some]
        rw [hlast, load_dumps hwf hm hread]
        exact checkPayload_sortKeys hobj hwf ha (hmaps hsync)
    · obtain ⟨hfile, ⟨e, he⟩, hunlink⟩ :=
        save_of_not_renames store calls payload dir (not_exists.mp hr) htmp
      refine ⟨fun d hd => ?_, fun hs => ?_, fun _ _ => hunlink⟩
      · rcases List.mem_cons.mp hd with rfl | hd
        · exact Or.inl rfl
        · exact Or.inl (hfile d hd)
      · rw [he] at hs; cases hs

/-- A save whose calls all succeed, the write transferring at most `n` characters. -/
def callsOk (n : ℕ) : SaveCalls :=
  ⟨.safe, true, some n, true, true, true, true, true, true, true, true, .safe, true⟩

/-- Behind a full write the directory cannot be synced: `save` raises, and the file holds the new
    records in the place of the old ones. -/
theorem save_allOrNothing_unsynced :
    (DurableOAuthStore.save ⟨"/state/oauth.json"⟩ { callsOk 1000 with fsyncDir := false }
      grantedPayload ⟨some (Json.dumps emptyPayload), none⟩).result =
        .error (failed ⟨"/state/oauth.json"⟩) ∧
    AllOrNothing ⟨"/state/oauth.json"⟩ { callsOk 1000 with fsyncDir := false } grantedPayload
      ⟨some (Json.dumps emptyPayload), none⟩ := by
  refine ⟨rfl, ?_⟩
  refine (save_allOrNothing_iff ⟨_, rfl⟩ (payload_WF _ _) ⟨rfl, rfl⟩ rfl).mpr ?_
  rintro n ⟨-, -, hw, -⟩
  obtain rfl : 1000 = n := Option.some.inj hw
  exact ⟨.inl (by decide +kernel), fun _ => rfl⟩

/-- A write that transfers one character of a longer text is a success to `save`, and the file is
    left with that character. -/
theorem save_short_write : 1 < (Json.dumps emptyPayload).length ∧
    (DurableOAuthStore.save ⟨"/state/oauth.json"⟩ (callsOk 1) emptyPayload ⟨none, none⟩).result =
      .ok () ∧
    ¬ AllOrNothing ⟨"/state/oauth.json"⟩ (callsOk 1) emptyPayload ⟨none, none⟩ := by
  refine ⟨by decide, rfl, fun h => ?_⟩
  have hlast := (h.2.1 rfl).1
  revert hlast
  decide

end AllOrNothing

/-! ### The records of a file -/

/-- The two pairs of maps hold the same records, up to a reload. -/
def Reloads (clients : Dict String RegisteredClient) (refreshTokens : Dict String RefreshToken)
    (read : Dict String RegisteredClient × Dict String RefreshToken) : Prop :=
  (∀ k, read.1.get? k = (clients.get? k).map RegisteredClient.reload) ∧
    ∀ k, read.2.get? k = (refreshTokens.get? k).map RefreshToken.reload

/-- The whole payload reads back. -/
theorem readFile_dumps (hc : Keyed RegisteredClient.clientId clients)
    (hr : Keyed RefreshToken.token refreshTokens) :
    ∃ read, readFile (some (Json.dumps (payload clients refreshTokens))) = some read ∧
      Reloads clients refreshTokens read := by
  obtain ⟨c, r, hload, hgc, hgr⟩ := loadPayload_payload hc hr
  refine ⟨(c, r), ?_, hgc, hgr⟩
  rw [readFile, Json.loads_dumps (payload_WF clients refreshTokens), Option.bind_some,
    checkPayload_sorted]
  simp only [Except.toOption, Option.bind_some, hload]

/-- A payload that was cut short does not read back at all. -/
theorem readFile_take (hc : Keyed RegisteredClient.clientId clients)
    (hr : Keyed RefreshToken.token refreshTokens) {n : ℕ}
    {read : Dict String RegisteredClient × Dict String RefreshToken}
    (h : readFile (some ((Json.dumps (payload clients refreshTokens)).take n)) = some read) :
    Reloads clients refreshTokens read := by
  rcases Nat.lt_or_ge n (Json.dumps (payload clients refreshTokens)).length with hn | hn
  · rw [readFile, payload, Json.loads_take (payload_WF clients refreshTokens) hn] at h
    cases h
  · rw [List.take_of_length_le hn] at h
    obtain ⟨read', hread, hre⟩ := readFile_dumps hc hr
    rw [h] at hread
    exact Option.some.inj hread ▸ hre

end DataRelay.OAuth
