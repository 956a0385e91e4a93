import DataRelay.Lib.JsonRoundTrip
import DataRelay.OAuth.Payload

/-! Reading a payload gives back the records it was made of.

    A record comes back as `reload` of itself: where the source reads a field with `or`, an empty
    list or a zero time is replaced by its default. The proofs follow the payload from the inside
    out: a list of strings, a record, the items of a map, the two maps. -/

namespace DataRelay.OAuth
open Lib

/-! ### Records -/

/-- A client as it comes back from the state file. -/
def RegisteredClient.reload (c : RegisteredClient) : RegisteredClient :=
  { c with
    grantTypes :=
      if c.grantTypes = [] then ["authorization_code", "refresh_token"] else c.grantTypes
    responseTypes := if c.responseTypes = [] then ["code"] else c.responseTypes
    lastUsedAt := if c.lastUsedAt = 0 then seconds c.issuedAt else c.lastUsedAt }

/-- A refresh token as it comes back from the state file. -/
def RefreshToken.reload (t : RefreshToken) : RefreshToken :=
  { t with subject := if t.subject = "" then relayOwner else t.subject }

theorem sortItems_strs : ∀ l : List String,
    Json.sortItems (l.map Json.str) = l.map Json.str
  | [] => by simp only [List.map_nil, Json.sortItems]
  | s :: l => by simp only [List.map_cons, Json.sortItems, Json.sortKeys, sortItems_strs l]

@[simp] theorem sortKeys_strs (l : List String) : Json.sortKeys (strs l) = strs l := by
  simp only [strs, Json.sortKeys, sortItems_strs]

@[simp] theorem sortKeys_optStr (o : Option String) : Json.sortKeys (optStr o) = optStr o := by
  cases o <;> simp only [optStr, Json.sortKeys]

@[simp] theorem asStrs_strs (l : List String) : asStrs (strs l) = some l := by
  induction l with
  | nil => rfl
  | cons s l ih =>
    simp only [strs, asStrs, List.map_cons, List.mapM_cons, asStr] at ih ⊢
    rw [ih]; rfl

@[simp] theorem asOptStr_optStr (o : Option String) : asOptStr (optStr o) = some o := by
  cases o <;> rfl

theorem orDefault_strs (l d : List String) :
    orDefault (some (strs l)) (strs d) = strs (if l = [] then d else l) := by
  cases l <;> simp [orDefault, truthy, strs]

theorem nodup_clientRecord (c : RegisteredClient) : ∃ fs, clientRecord c = .obj fs ∧
    (fs.map Prod.fst).Nodup := ⟨_, rfl, by simp⟩

theorem nodup_refreshRecord (t : RefreshToken) : ∃ fs, refreshRecord t = .obj fs ∧
    (fs.map Prod.fst).Nodup := ⟨_, rfl, by simp⟩

/-- A field of a record, as the dump of the record carries it. -/
theorem get?_sorted {v : Json} (h : ∃ fs, v = .obj fs ∧ (fs.map Prod.fst).Nodup) {k : String}
    {w : Json} (hw : v.get? k = some w) : (Json.sortKeys v).get? k = some (Json.sortKeys w) := by
  obtain ⟨fs, rfl, hn⟩ := h
  rw [Json.get?_sortKeys hn, hw]; rfl

theorem readClient_record (c : RegisteredClient) :
    readClient (Json.sortKeys (clientRecord c)) = some c.reload := by
  have field {k w} := get?_sorted (nodup_clientRecord c) (k := k) (w := w)
  have hlast : asTime (orDefault (some (.float c.lastUsedAt)) (.int c.issuedAt)) =
      some (if c.lastUsedAt = 0 then seconds c.issuedAt else c.lastUsedAt) := by
    by_cases h : c.lastUsedAt = 0 <;> simp [orDefault, truthy, h, asTime]
  rw [readClient, field (k := "client_id") rfl, field (k := "redirect_uris") rfl,
    field (k := "client_name") rfl, field (k := "token_endpoint_auth_method") rfl,
    field (k := "grant_types") rfl, field (k := "response_types") rfl,
    field (k := "issued_at") rfl, field (k := "last_used_at") rfl]
  simp [Json.sortKeys, asStr, asInt, orDefault_strs, hlast, RegisteredClient.reload]

theorem readRefresh_record (t : RefreshToken) :
    readRefresh (Json.sortKeys (refreshRecord t)) = some t.reload := by
  have field {k w} := get?_sorted (nodup_refreshRecord t) (k := k) (w := w)
  have hscopes : orDefault (some (strs (sorted t.scopes))) (.arr []) = strs (sorted t.scopes) := by
    rw [show Json.arr [] = strs [] from rfl, orDefault_strs]; split <;> simp [*]
  have hsubject : orDefault (some (.str t.subject)) (.str relayOwner) =
      .str (if t.subject = "" then relayOwner else t.subject) := by
    by_cases h : t.subject = "" <;> simp [orDefault, truthy, h]
  rw [readRefresh, field (k := "token") rfl, field (k := "client_id") rfl,
    field (k := "resource") rfl, field (k := "scopes") rfl, field (k := "expires_at") rfl,
    field (k := "subject") rfl, field (k := "revoked") rfl]
  simp [Json.sortKeys, asStr, asTime, hscopes, hsubject, truthy, RefreshToken.reload]

/-! ### Maps -/

theorem mapM_map_ok {α β γ ε : Type} {f : β → Except ε γ} {g : α → β} {h : α → γ} :
    ∀ {l : List α}, (∀ x ∈ l, f (g x) = .ok (h x)) → (l.map g).mapM f = .ok (l.map h)
  | [], _ => rfl
  | x :: l, hl => by
    rw [List.map_cons, List.mapM_cons, hl x List.mem_cons_self,
      mapM_map_ok fun y hy => hl y (List.mem_cons_of_mem x hy)]
    rfl

/-- The items of a map of the payload, in the order of its dump. -/
theorem sortKeys_map {α : Type} (d : Dict String α) (f : α → Json) :
    ∃ l : List (String × α), l.Perm d.items ∧
      Json.sortKeys (.obj (d.items.map fun e => (e.1, f e.2))) =
        .obj (l.map fun e => (e.1, Json.sortKeys (f e.2))) := by
  refine ⟨d.items.insertionSort fun a b => a.1 ≤ b.1, List.perm_insertionSort _ _, ?_⟩
  simp only [Json.sortKeys, Json.sortValues_eq_map, List.map_map, Json.sortFields]
  rw [List.map_insertionSort (r := fun a b : String × α => a.1 ≤ b.1)
    (s := fun a b : String × Json => a.1 ≤ b.1) _ _ fun _ _ _ _ => Iff.rfl]
  rfl

/-- Every record of a map is filed under its own identifier. -/
def Keyed {α : Type} (ident : α → String) (d : Dict String α) : Prop :=
  ∀ k v, d.get? k = some v → ident v = k

/-- A map read item by item: every record comes back as its `reload`. -/
theorem read_map {α : Type} {d : Dict String α} {f : α → Json} {reload : α → α}
    {read : String × Json → Except PyError (String × α)}
    (h : ∀ k v, d.get? k = some v → read (k, Json.sortKeys (f v)) = .ok (k, reload v)) :
    ∃ l fs, Json.sortKeys (.obj (d.items.map fun e => (e.1, f e.2))) = .obj fs ∧
      fs.mapM read = .ok l ∧ ∀ k, (Dict.ofList l).get? k = (d.get? k).map reload := by
  obtain ⟨l, hperm, hl⟩ := sortKeys_map d f
  refine ⟨l.map fun e => (e.1, reload e.2), _, hl, mapM_map_ok fun e he => ?_, fun k => ?_⟩
  · exact h e.1 e.2 ((d.get?_iff_mem _ _).mpr (hperm.mem_iff.mp he))
  · have hkeys : ((l.map fun e => (e.1, reload e.2)).map Prod.fst).Nodup := by
      rw [List.map_map, show Prod.fst ∘ (fun e : String × α => (e.1, reload e.2)) = Prod.fst from rfl,
        (hperm.map Prod.fst).nodup_iff]
      exact d.nodup
    ext v
    simp only [Dict.get?_ofList hkeys, Option.map_eq_some_iff, List.mem_map, Prod.exists,
      Prod.mk.injEq, hperm.mem_iff, ← d.get?_iff_mem]
    constructor
    · rintro ⟨k', w, hw, rfl, rfl⟩; exact ⟨w, hw, rfl⟩
    · rintro ⟨w, hw, rfl⟩; exact ⟨k, w, hw, rfl, rfl⟩

/-! ### The payload -/

variable {clients : Dict String RegisteredClient} {refreshTokens : Dict String RefreshToken}

theorem payload_WF (clients : Dict String RegisteredClient)
    (refreshTokens : Dict String RefreshToken) : (payload clients refreshTokens).WF := by
  have hstrs : ∀ l : List String, (strs l).WF := by
    intro l
    simp only [strs, Json.WF]
    induction l with
    | nil => exact trivial
    | cons s l ih => exact ⟨trivial, ih⟩
  have hopt : ∀ o, (optStr o).WF := by rintro (_ | _) <;> exact trivial
  have hitems : ∀ {α : Type} (d : Dict String α) (f : α → Json), (∀ v, (f v).WF) →
      (Json.obj (d.items.map fun e => (e.1, f e.2))).WF := by
    intro α d f hf
    refine ⟨by rw [List.map_map]; exact d.nodup, (Json.WFFields_iff _).mpr fun e he => ?_⟩
    obtain ⟨e, -, rfl⟩ := List.mem_map.mp he
    exact hf e.2
  refine ⟨by simp, trivial, hitems _ _ fun c => ?_, hitems _ _ fun t => ?_, trivial⟩
  · exact ⟨by simp, trivial, hstrs _, hopt _, trivial, hstrs _, hstrs _, trivial, trivial, trivial⟩
  · exact ⟨by simp, trivial, trivial, trivial, hstrs _, trivial, trivial, trivial, trivial⟩

theorem loadPayload_payload (hc : Keyed RegisteredClient.clientId clients)
    (hr : Keyed RefreshToken.token refreshTokens) :
    ∃ c r, loadPayload (Json.sortKeys (payload clients refreshTokens)) = .ok (c, r) ∧
      (∀ k, c.get? k = (clients.get? k).map RegisteredClient.reload) ∧
      ∀ k, r.get? k = (refreshTokens.get? k).map RefreshToken.reload := by
  have hclient : ∀ k v, clients.get? k = some v →
      readClientItem (k, Json.sortKeys (clientRecord v)) = .ok (k, v.reload) := by
    intro k v h
    have hk : v.reload.clientId = k := hc k v h
    simp [readClientItem, readClient_record, hk]
  have hrefresh : ∀ k v, refreshTokens.get? k = some v →
      readRefreshItem (k, Json.sortKeys (refreshRecord v)) = .ok (k, v.reload) := by
    intro k v h
    have hk : v.reload.token = k := hr k v h
    simp [readRefreshItem, readRefresh_record, hk]
  obtain ⟨lc, fc, hfc, hlc, hgc⟩ := read_map hclient
  obtain ⟨lr, fr, hfr, hlr, hgr⟩ := read_map hrefresh
  refine ⟨Dict.ofList lc, Dict.ofList lr, ?_, hgc, hgr⟩
  have field {k w} := get?_sorted ⟨_, rfl, by simp⟩ (v := payload clients refreshTokens)
    (k := k) (w := w)
  rw [loadPayload, itemsOf, itemsOf, field (k := "clients") rfl, field (k := "refresh_tokens") rfl,
    hfc, hfr]
  simp only [hlc, hlr]
  rfl

end DataRelay.OAuth
