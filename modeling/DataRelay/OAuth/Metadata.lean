import DataRelay.OAuth.Registration

/-! Which registration bodies are answered, and which end in another exception.

    `register_client` looks JSON values up in a set, and makes a set of one, before it knows their
    types, and it parses URIs that `urlparse` may refuse. `Escapes` says which bodies come to such
    an exception, which is no `OAuthError`; every other body is registered or refused. -/

namespace DataRelay.OAuth
open Lib

/-! ### Values and exceptions -/

/-- A value, or an `OAuthError`. -/
def Answered {α : Type} (r : Except PyError α) : Prop :=
  ∀ e, r = .error e → ∃ error description status, e = .oauth error description status

section Answered
variable {α β : Type}

theorem answered_ok (x : α) : Answered (.ok x) := by
  intro e h
  cases h

theorem answered_oauth {error description : String} {status : ℕ} :
    Answered (.error (.oauth error description status) : Except PyError α) := by
  intro e h
  cases h
  exact ⟨_, _, _, rfl⟩

theorem answered_error (e : PyError) : Answered (.error e : Except PyError α) ↔
    Answered (.error e : Except PyError β) := by
  simp [Answered]

theorem answered_bind (x : Except PyError α) (f : α → Except PyError β) :
    Answered (x.bind f) ↔ Answered x ∧ ∀ a, x = .ok a → Answered (f a) := by
  cases x with
  | error e => exact ⟨fun h => ⟨fun _ he => h _ (by cases he; rfl), fun _ ha => by cases ha⟩,
      fun h _ he => h.1 _ (by cases he; rfl)⟩
  | ok a => exact ⟨fun h => ⟨answered_ok a, fun _ ha => by cases ha; exact h⟩, fun h => h.2 a rfl⟩

theorem answered_map (x : Except PyError α) (f : α → β) : Answered (x.map f) ↔ Answered x := by
  have hmap : x.map f = x.bind fun a => .ok (f a) := by cases x <;> rfl
  rw [hmap, answered_bind]
  exact and_iff_left fun a _ => answered_ok _

end Answered

/-- The items are good up to one that is bad. -/
def FirstBad {α : Type} (good bad : α → Prop) (l : List α) : Prop :=
  ∃ before x after, l = before ++ x :: after ∧ (∀ y ∈ before, good y) ∧ bad x

section FirstBad
variable {α : Type} {good bad : α → Prop}

theorem firstBad_nil : ¬ FirstBad good bad [] := by
  rintro ⟨before, x, after, h, -⟩
  simp at h

theorem firstBad_cons (x : α) (l : List α) :
    FirstBad good bad (x :: l) ↔ bad x ∨ (good x ∧ FirstBad good bad l) := by
  constructor
  · rintro ⟨before, y, after, h, hgood, hbad⟩
    cases before with
    | nil =>
      cases h
      exact .inl hbad
    | cons z before =>
      cases h
      exact .inr ⟨hgood x (by simp), before, y, after, rfl, fun w hw => hgood w (by simp [hw]),
        hbad⟩
  · rintro (hbad | ⟨hx, before, y, after, rfl, hgood, hbad⟩)
    · exact ⟨[], x, l, rfl, by simp, hbad⟩
    · exact ⟨x :: before, y, after, rfl, by simpa using ⟨hx, hgood⟩, hbad⟩

end FirstBad

namespace OAuthService

/-! ### The redirect URIs -/

/-- A string that `_redirect_uri_safe` accepts. -/
def Safe (uri : Json) : Prop := ∃ text, uri = .str text ∧ Url.redirectUriSafe text = .ok true

/-- A string that `urlparse` refuses. -/
def Malformed (uri : Json) : Prop := ∃ text e, uri = .str text ∧ Url.redirectUriSafe text = .error e

theorem urlparse_error {text : String} {e : PyError} (h : Url.urlparse text = .error e) :
    e = .valueError := by
  unfold Url.urlparse at h
  dsimp only at h
  split at h
  · cases h; rfl
  split at h
  · cases h; rfl
  split at h <;> cases h
  rfl

theorem redirectUriSafe_error {text : String} {e : PyError}
    (h : Url.redirectUriSafe text = .error e) : e = .valueError := by
  unfold Url.redirectUriSafe at h
  split at h
  · next hp => cases h; exact urlparse_error hp
  · cases h

theorem cleanUris_cons (text : String) (uris : List Json) : cleanUris (.str text :: uris) =
    (Url.redirectUriSafe text).bind fun safe =>
      if safe then (cleanUris uris).map (text :: ·) else .error badRedirectUri := by
  rw [cleanUris]
  cases Url.redirectUriSafe text with
  | error e => rfl
  | ok safe => cases safe <;> cases cleanUris uris <;> rfl

/-- What is clean was safe throughout. -/
theorem cleanUris_ok : ∀ uris : List Json, (∃ l, cleanUris uris = .ok l) ↔ ∀ u ∈ uris, Safe u
  | [] => by simp [cleanUris]
  | uri :: uris => by
    rw [List.forall_mem_cons, ← cleanUris_ok uris]
    cases uri with
    | str text =>
      rw [cleanUris_cons]
      cases hs : Url.redirectUriSafe text with
      | error e => simp [Except.bind, Safe, hs]
      | ok safe => cases safe <;> cases cleanUris uris <;> simp [Except.bind, Except.map, Safe, hs]
    | _ => simp [cleanUris, Safe]

theorem cleanUris_answered : ∀ uris : List Json,
    Answered (cleanUris uris) ↔ ¬ FirstBad Safe Malformed uris
  | [] => iff_of_true (answered_ok _) firstBad_nil
  | uri :: uris => by
    rw [firstBad_cons]
    cases uri with
    | str text =>
      rw [cleanUris_cons, answered_bind]
      cases hs : Url.redirectUriSafe text with
      | error e =>
        refine iff_of_false (fun h => ?_) (fun h => h (.inl ⟨text, e, rfl, hs⟩))
        obtain ⟨_, _, _, he⟩ := h.1 e rfl
        rw [redirectUriSafe_error hs] at he
        cases he
      | ok safe =>
        have hmal : ¬ Malformed (.str text) := by
          rintro ⟨_, e, heq, he⟩
          cases heq
          rw [hs] at he
          cases he
        have hsafe : Safe (.str text) ↔ safe = true := by simp [Safe, hs]
        rw [hsafe]
        cases safe with
        | false =>
          refine iff_of_true ⟨answered_ok _, fun a ha => ?_⟩ (by simp [hmal])
          cases ha
          exact answered_oauth
        | true =>
          simp only [hmal, false_or, true_and, ← cleanUris_answered uris]
          exact ⟨fun h => (answered_map _ _).mp (h.2 true rfl),
            fun h => ⟨answered_ok _, fun a ha => by cases ha; exact (answered_map _ _).mpr h⟩⟩
    | _ => exact iff_of_true (answered_oauth) (by simp [Malformed, Safe])

/-- The redirect URIs that a registration may have. -/
def UrisOk (body : Json) : Prop :=
  ∃ uris, body.get? "redirect_uris" = some (.arr uris) ∧ uris ≠ [] ∧ ∀ u ∈ uris, Safe u

theorem checkUris_ok (body : Json) :
    (∃ l, checkUris (body.get? "redirect_uris") = .ok l) ↔ UrisOk body := by
  unfold UrisOk checkUris
  split
  · next uri uris h =>
    rw [cleanUris_ok, h]
    simp
  · next hne =>
    refine iff_of_false (by simp) ?_
    rintro ⟨uris, h, hnil, -⟩
    cases uris with
    | nil => exact hnil rfl
    | cons uri uris => exact hne uri uris h

theorem checkUris_answered (body : Json) : Answered (checkUris (body.get? "redirect_uris")) ↔
    ¬ ∃ uris, body.get? "redirect_uris" = some (.arr uris) ∧ FirstBad Safe Malformed uris := by
  unfold checkUris
  split
  · next uri uris h =>
    rw [cleanUris_answered, h]
    simp
  · next hne =>
    refine iff_of_true (answered_oauth) ?_
    rintro ⟨uris, h, hbad⟩
    cases uris with
    | nil => exact firstBad_nil hbad
    | cons uri uris => exact hne uri uris h

/-! ### The authentication method -/

/-- Only public clients are registered. -/
def AuthMethodOk (body : Json) : Prop :=
  body.get? "token_endpoint_auth_method" = none ∨
    body.get? "token_endpoint_auth_method" = some (.str "none")

theorem isText_iff {text : String} {v : Json} : isText text v = true ↔ v = .str text := by
  cases v <;> simp [isText]

theorem checkAuthMethod_ok (body : Json) :
    checkAuthMethod (body.get? "token_endpoint_auth_method") = .ok () ↔ AuthMethodOk body := by
  unfold checkAuthMethod AuthMethodOk
  cases body.get? "token_endpoint_auth_method" with
  | none => simp [isText]
  | some v =>
    rw [Option.getD_some]
    split
    · next h => simp [isText_iff.mp h]
    · next h => simp [mt isText_iff.mpr h]

theorem checkAuthMethod_answered (value : Option Json) : Answered (checkAuthMethod value) := by
  unfold checkAuthMethod
  split
  · exact answered_ok _
  · exact answered_oauth

/-! ### The grant types -/

/-- A grant type that is allowed. -/
def Allowed (g : Json) : Prop := g = .str "authorization_code" ∨ g = .str "refresh_token"

/-- A value that Python cannot look up in a set. -/
def Unhashable (v : Json) : Prop := hashable v = false

theorem checkGrants_cons (g : Json) (gs : List Json) :
    (Unhashable g ∧ checkGrants (g :: gs) = .error .typeError) ∨
      (Allowed g ∧ ¬ Unhashable g ∧ checkGrants (g :: gs) = checkGrants gs) ∨
      (¬ Allowed g ∧ ¬ Unhashable g ∧ ∃ description, checkGrants (g :: gs) =
        .error (.oauth "invalid_client_metadata" description 400)) := by
  rw [checkGrants]
  unfold Unhashable Allowed
  split
  · next h => exact .inl ⟨h, rfl⟩
  next h =>
  have hiff : (isText "authorization_code" g || isText "refresh_token" g) = true ↔
      g = .str "authorization_code" ∨ g = .str "refresh_token" := by
    rw [Bool.or_eq_true, isText_iff, isText_iff]
  split
  · next hg => exact .inr (.inl ⟨hiff.mp hg, h, rfl⟩)
  · next hg => exact .inr (.inr ⟨mt hiff.mpr hg, h, _, rfl⟩)

theorem checkGrants_ok_iff : ∀ gs : List Json, checkGrants gs = .ok () ↔ ∀ g ∈ gs, Allowed g
  | [] => by simp [checkGrants]
  | g :: gs => by
    rw [List.forall_mem_cons, ← checkGrants_ok_iff gs]
    rcases checkGrants_cons g gs with ⟨hun, h⟩ | ⟨hg, -, h⟩ | ⟨hg, -, _, h⟩
    · have hg : ¬ Allowed g := by
        rintro (rfl | rfl) <;> cases hun
      simp [h, hg]
    · simp [h, hg]
    · simp [h, hg]

theorem checkGrants_answered : ∀ gs : List Json,
    Answered (checkGrants gs) ↔ ¬ FirstBad Allowed Unhashable gs
  | [] => iff_of_true (answered_ok _) firstBad_nil
  | g :: gs => by
    rw [firstBad_cons]
    rcases checkGrants_cons g gs with ⟨hun, h⟩ | ⟨hg, hun, h⟩ | ⟨hg, hun, _, h⟩
    · rw [h]
      refine iff_of_false (fun ha => ?_) (fun hn => hn (.inl hun))
      obtain ⟨_, _, _, he⟩ := ha _ rfl
      cases he
    · rw [h, checkGrants_answered gs]
      simp [hg, hun]
    · rw [h]
      exact iff_of_true (answered_oauth) (by simp [hg, hun])

/-- The grant types that a registration may have: none, or allowed ones. -/
def GrantTypesOk (body : Json) : Prop :=
  truthy (body.get? "grant_types") = false ∨
    ∃ gs, body.get? "grant_types" = some (.arr gs) ∧ ∀ g ∈ gs, Allowed g

/-- The value that stands for a field: the default, or a value that is not empty. -/
theorem orDefault_cases (value : Option Json) (default : Json) :
    (truthy value = false ∧ orDefault value default = default) ∨
      ∃ v, truthy value = true ∧ value = some v ∧ orDefault value default = v := by
  unfold orDefault
  cases h : truthy value with
  | false => exact .inl ⟨rfl, rfl⟩
  | true =>
    cases value with
    | none => cases h
    | some v => exact .inr ⟨v, rfl, rfl, rfl⟩

theorem checkGrantTypes_cases (body : Json) :
    (truthy (body.get? "grant_types") = false ∧
        ∃ gs, checkGrantTypes (body.get? "grant_types") = .ok gs) ∨
      (∃ gs, body.get? "grant_types" = some (.arr gs) ∧
        checkGrantTypes (body.get? "grant_types") =
          (checkGrants gs).map fun _ => gs.filterMap asStr) ∨
      (truthy (body.get? "grant_types") = true ∧ (∀ gs, body.get? "grant_types" ≠ some (.arr gs)) ∧
        checkGrantTypes (body.get? "grant_types") =
          .error (.oauth "invalid_client_metadata" "grant_types invalid" 400)) := by
  unfold checkGrantTypes
  rcases orDefault_cases (body.get? "grant_types")
    (strs ["authorization_code", "refresh_token"]) with ⟨hfalse, hd⟩ | ⟨v, htrue, hv, hd⟩
  · rw [hd]
    exact .inl ⟨hfalse, _, rfl⟩
  · rw [hd, hv]
    cases v with
    | arr gs => exact .inr (.inl ⟨gs, rfl, rfl⟩)
    | _ => exact .inr (.inr ⟨hv ▸ htrue, by simp, rfl⟩)

theorem checkGrantTypes_ok_iff (body : Json) :
    (∃ gs, checkGrantTypes (body.get? "grant_types") = .ok gs) ↔ GrantTypesOk body := by
  unfold GrantTypesOk
  rcases checkGrantTypes_cases body with ⟨hfalse, hok⟩ | ⟨gs, harr, h⟩ | ⟨htrue, hne, h⟩
  · exact iff_of_true hok (.inl hfalse)
  · rw [h, harr]
    have hok := checkGrants_ok_iff gs
    cases hg : checkGrants gs with
    | error e =>
      rw [hg] at hok
      refine iff_of_false (by simp [Except.map]) ?_
      rintro (hfalse | ⟨gs', heq, hall⟩)
      · cases gs with
        | nil => cases hg
        | cons g gs => cases hfalse
      · cases heq
        cases hok.mpr hall
    | ok u => exact iff_of_true ⟨_, rfl⟩ (.inr ⟨gs, rfl, hok.mp hg⟩)
  · rw [h, htrue]
    exact iff_of_false (by simp) (by simp [hne])

theorem checkGrantTypes_answered (body : Json) :
    Answered (checkGrantTypes (body.get? "grant_types")) ↔
      ¬ ∃ gs, body.get? "grant_types" = some (.arr gs) ∧ FirstBad Allowed Unhashable gs := by
  rcases checkGrantTypes_cases body with ⟨hfalse, gs, hok⟩ | ⟨gs, harr, h⟩ | ⟨htrue, hne, h⟩
  · rw [hok]
    refine iff_of_true (answered_ok _) ?_
    rintro ⟨gs, harr, hbad⟩
    rw [harr] at hfalse
    cases gs with
    | nil => exact firstBad_nil hbad
    | cons g gs => cases hfalse
  · rw [h, answered_map, checkGrants_answered, harr]
    simp
  · rw [h]
    exact iff_of_true answered_oauth (by simp [hne])

/-! ### The response types -/

/-- Nothing but `code` comes out of it, element by element or key by key. -/
def OnlyCode : Json → Prop
  | .arr items => ∀ v ∈ items, v = .str "code"
  | .obj fields => ∀ f ∈ fields, f.1 = "code"
  | _ => False

/-- Python cannot make a set of it: it is a number or `True`, or holds a list or a dict. -/
def Unsettable : Json → Prop
  | .arr items => ∃ v ∈ items, Unhashable v
  | .obj _ => False
  | .str _ => False
  | _ => True

def ResponseTypesOk (body : Json) : Prop :=
  truthy (body.get? "response_types") = false ∨
    ∃ v, body.get? "response_types" = some v ∧ OnlyCode v

theorem isCodeSet_cases (v : Json) :
    (OnlyCode v ∧ ¬ Unsettable v ∧ isCodeSet v = .ok true) ∨
      (¬ OnlyCode v ∧ Unsettable v ∧ isCodeSet v = .error .typeError) ∨
      (¬ OnlyCode v ∧ ¬ Unsettable v ∧ isCodeSet v = .ok false) := by
  cases v with
  | arr items =>
    have hcode : items.all (isText "code") = true ↔ ∀ v ∈ items, v = .str "code" := by
      simp only [List.all_eq_true, isText_iff]
    have hset : isCodeSet (.arr items) = if items.all hashable then
        .ok (items.all (isText "code")) else .error .typeError := rfl
    rw [hset]
    split
    · next hall =>
      have hnone : ¬ Unsettable (.arr items) := by
        rintro ⟨v, hv, hun⟩
        rw [Unhashable, List.all_eq_true.mp hall v hv] at hun
        cases hun
      cases hc : items.all (isText "code") with
      | true => exact .inl ⟨hcode.mp hc, hnone, rfl⟩
      | false =>
        refine .inr (.inr ⟨fun h => ?_, hnone, rfl⟩)
        rw [hcode.mpr h] at hc
        cases hc
    · next hall =>
      have hsome : Unsettable (.arr items) := by simpa [Unsettable, Unhashable] using hall
      refine .inr (.inl ⟨fun h => ?_, hsome, rfl⟩)
      obtain ⟨v, hv, hun⟩ := hsome
      rw [h v hv] at hun
      cases hun
  | obj fields =>
    have hcode : (fields.all fun f => f.1 = "code") = true ↔ ∀ f ∈ fields, f.1 = "code" := by
      simp
    have hset : isCodeSet (.obj fields) = .ok (fields.all fun f => f.1 = "code") := rfl
    rw [hset]
    cases hc : fields.all fun f => f.1 = "code" with
    | true => exact .inl ⟨hcode.mp hc, id, rfl⟩
    | false =>
      refine .inr (.inr ⟨fun h => ?_, id, rfl⟩)
      rw [hcode.mpr h] at hc
      cases hc
  | str text => exact .inr (.inr ⟨id, id, rfl⟩)
  | _ => exact .inr (.inl ⟨id, trivial, rfl⟩)

theorem not_unsettable {v : Json} (h : OnlyCode v) : ¬ Unsettable v := by
  rcases isCodeSet_cases v with ⟨-, hset, -⟩ | ⟨hn, -⟩ | ⟨hn, -⟩
  · exact hset
  · exact absurd h hn
  · exact absurd h hn

theorem onlyCode_of_isCodeList {v : Json} (h : isCodeList v = true) : OnlyCode v := by
  unfold isCodeList at h
  split at h
  · obtain rfl := isText_iff.mp h
    simp [OnlyCode]
  · cases h

theorem checkResponseTypes_cases (body : Json) :
    (ResponseTypesOk body ∧ checkResponseTypes (body.get? "response_types") = .ok ()) ∨
      (¬ ResponseTypesOk body ∧ (∃ v, truthy (some v) = true ∧
          body.get? "response_types" = some v ∧ Unsettable v) ∧
        checkResponseTypes (body.get? "response_types") = .error .typeError) ∨
      (¬ ResponseTypesOk body ∧ (¬ ∃ v, truthy (some v) = true ∧
          body.get? "response_types" = some v ∧ Unsettable v) ∧
        checkResponseTypes (body.get? "response_types") =
          .error (.oauth "invalid_client_metadata" "only response_type=code" 400)) := by
  unfold checkResponseTypes ResponseTypesOk
  rcases orDefault_cases (body.get? "response_types") (strs ["code"]) with
    ⟨hfalse, hd⟩ | ⟨v, htrue, hv, hd⟩
  · rw [hd]
    exact .inl ⟨.inl hfalse, rfl⟩
  · rw [hv] at htrue
    rw [hd, hv, htrue]
    dsimp only
    split
    · next hlist => exact .inl ⟨.inr ⟨v, rfl, onlyCode_of_isCodeList hlist⟩, rfl⟩
    rcases isCodeSet_cases v with ⟨hcode, hset, h⟩ | ⟨hcode, hset, h⟩ | ⟨hcode, hset, h⟩
    · rw [h]
      exact .inl ⟨.inr ⟨v, rfl, hcode⟩, rfl⟩
    · rw [h]
      exact .inr (.inl ⟨by simpa using hcode, ⟨v, htrue, rfl, hset⟩, rfl⟩)
    · rw [h]
      refine .inr (.inr ⟨by simpa using hcode, ?_, rfl⟩)
      rintro ⟨_, -, heq, hun⟩
      cases heq
      exact hset hun

/-! ### The whole body -/

/-- The metadata that a registration may have. -/
structure Supported (body : Json) : Prop where
  uris : UrisOk body
  authMethod : AuthMethodOk body
  grantTypes : GrantTypesOk body
  responseTypes : ResponseTypesOk body

/-- The bodies whose checks end in another exception, by the check it comes from. -/
inductive Escapes (body : Json) : Prop where
  | uri {uris : List Json} (h : body.get? "redirect_uris" = some (.arr uris))
      (hbad : FirstBad Safe Malformed uris)
  | grant {gs : List Json} (huris : UrisOk body) (hauth : AuthMethodOk body)
      (h : body.get? "grant_types" = some (.arr gs)) (hbad : FirstBad Allowed Unhashable gs)
  | response {v : Json} (huris : UrisOk body) (hauth : AuthMethodOk body)
      (hgrants : GrantTypesOk body) (h : body.get? "response_types" = some v)
      (hv : truthy (some v) = true) (hbad : Unsettable v)

theorem checkBody_eq (body : Json) : checkBody body =
    (checkUris (body.get? "redirect_uris")).bind fun uris =>
      (checkAuthMethod (body.get? "token_endpoint_auth_method")).bind fun _ =>
        (checkGrantTypes (body.get? "grant_types")).bind fun grants =>
          (checkResponseTypes (body.get? "response_types")).bind fun _ =>
            .ok (uris, grants, (body.get? "client_name").bind asStr) := rfl

theorem bind_ok_iff {α β : Type} {x : Except PyError α} {f : α → Except PyError β} :
    (∃ b, x.bind f = .ok b) ↔ ∃ a, x = .ok a ∧ ∃ b, f a = .ok b := by
  cases x <;> simp [Except.bind]

/-- The checks pass exactly for what is supported. -/
theorem checkBody_ok_iff (body : Json) : (∃ fields, checkBody body = .ok fields) ↔
    Supported body := by
  rw [checkBody_eq]
  simp only [bind_ok_iff]
  constructor
  · rintro ⟨uris, huris, u, hauth, grants, hgrants, u', hresponse, -⟩
    refine ⟨(checkUris_ok body).mp ⟨uris, huris⟩, (checkAuthMethod_ok body).mp hauth,
      (checkGrantTypes_ok_iff body).mp ⟨grants, hgrants⟩, ?_⟩
    rcases checkResponseTypes_cases body with ⟨h, -⟩ | ⟨-, -, he⟩ | ⟨-, -, he⟩
    · exact h
    · rw [he] at hresponse
      cases hresponse
    · rw [he] at hresponse
      cases hresponse
  · intro h
    obtain ⟨uris, huris⟩ := (checkUris_ok body).mpr h.uris
    obtain ⟨grants, hgrants⟩ := (checkGrantTypes_ok_iff body).mpr h.grantTypes
    refine ⟨uris, huris, (), (checkAuthMethod_ok body).mpr h.authMethod, grants, hgrants, (), ?_, _,
      rfl⟩
    rcases checkResponseTypes_cases body with ⟨-, hok⟩ | ⟨hn, -⟩ | ⟨hn, -⟩
    · exact hok
    · exact absurd h.responseTypes hn
    · exact absurd h.responseTypes hn

/-- The checks are answered exactly for what does not escape. -/
theorem checkBody_answered (body : Json) : Answered (checkBody body) ↔ ¬ Escapes body := by
  rw [checkBody_eq]
  simp only [answered_bind, answered_ok, implies_true, and_true, checkUris_answered,
    checkAuthMethod_answered, checkGrantTypes_answered, true_and]
  constructor
  · -- each escape stands behind the checks that come first in the source
    rintro ⟨huri, hrest⟩ hescapes
    cases hescapes with
    | uri h hbad => exact huri ⟨_, h, hbad⟩
    | grant huris hauth h hbad =>
      obtain ⟨uris, hok⟩ := (checkUris_ok body).mpr huris
      exact (hrest uris hok () ((checkAuthMethod_ok body).mpr hauth)).1 ⟨_, h, hbad⟩
    | @response v huris hauth hgrants h hv hbad =>
      obtain ⟨uris, hok⟩ := (checkUris_ok body).mpr huris
      obtain ⟨grants, hok'⟩ := (checkGrantTypes_ok_iff body).mpr hgrants
      have hanswered := (hrest uris hok () ((checkAuthMethod_ok body).mpr hauth)).2 grants hok'
      rcases checkResponseTypes_cases body with ⟨htypes, -⟩ | ⟨-, -, he⟩ | ⟨-, hn, -⟩
      · rcases htypes with hfalse | ⟨v', h', hcode⟩
        · rw [h, hv] at hfalse
          cases hfalse
        · rw [h] at h'
          cases h'
          exact not_unsettable hcode hbad
      · obtain ⟨_, _, _, h⟩ := hanswered _ he
        cases h
      · exact hn ⟨v, hv, h, hbad⟩
  · intro hn
    refine ⟨fun ⟨uris, h, hbad⟩ => hn (.uri h hbad), fun uris huris u hauth => ?_⟩
    have huris' := (checkUris_ok body).mp ⟨uris, huris⟩
    have hauth' := (checkAuthMethod_ok body).mp hauth
    refine ⟨fun ⟨gs, h, hbad⟩ => hn (.grant huris' hauth' h hbad), fun grants hgrants => ?_⟩
    have hgrants' := (checkGrantTypes_ok_iff body).mp ⟨grants, hgrants⟩
    -- all checks passed but the last one, which answers or meets the escape
    rcases checkResponseTypes_cases body with ⟨-, h⟩ | ⟨-, ⟨v, hv, hget, hbad⟩, -⟩ | ⟨-, -, h⟩
    · rw [h]
      exact answered_ok _
    · exact absurd (.response huris' hauth' hgrants' hget hv hbad) hn
    · rw [h]
      exact answered_oauth

/-! ### The call -/

variable (cfg : Config) (env : Env)

/-- The directory of the state file cannot be examined: `save` does not expect that. -/
def Unexamined : Prop := cfg.store ≠ none ∧ env.save.dir = .osError

theorem finish_osError (store : DurableOAuthStore) (calls : DurableOAuthStore.SaveCalls) :
    store.finish calls ≠ .error .osError := by
  unfold DurableOAuthStore.finish
  split
  · split
    · simp [DurableOAuthStore.failed]
    · next hne => exact hne
  · simp [DurableOAuthStore.failed]

theorem save_osError_iff (store : DurableOAuthStore) (calls : DurableOAuthStore.SaveCalls)
    (p : Json) (dir : Dir) :
    (store.save calls p dir).result = .error .osError ↔ calls.dir = .osError := by
  unfold DurableOAuthStore.save
  cases hdir : calls.dir with
  | osError => simp [DurableOAuthStore.assertSafeDir]
  | notDirectory => simp [DurableOAuthStore.assertSafeDir]
  | writable => simp [DurableOAuthStore.assertSafeDir]
  | safe =>
    refine iff_of_false ?_ (by simp)
    simp only [DurableOAuthStore.assertSafeDir]
    split
    · simp
    split
    · simp
    split
    · simp [DurableOAuthStore.failed]
    split
    · simp [DurableOAuthStore.abort, DurableOAuthStore.failed]
    split
    · exact finish_osError store calls
    · simp [DurableOAuthStore.abort, DurableOAuthStore.failed]

theorem persist_answered (s : OAuthService) (now : Time) :
    Answered (s.persist cfg env now).2 ↔ ¬ Unexamined cfg env := by
  unfold persist Unexamined
  cases cfg.store with
  | none => exact iff_of_true (answered_ok _) (by simp)
  | some store =>
    have hos := save_osError_iff store env.save
      (payload (s.dropExpired now).clients (s.dropExpired now).refreshTokens) ⟨s.file, none⟩
    dsimp only
    cases hres : (store.save env.save
        (payload (s.dropExpired now).clients (s.dropExpired now).refreshTokens)
        ⟨s.file, none⟩).result with
    | ok u =>
      rw [hres] at hos
      exact iff_of_true (answered_ok _) fun h => by cases hos.mpr h.2
    | error e =>
      rcases save_error store _ _ _ hres with ⟨message, rfl⟩ | rfl
      · rw [hres] at hos
        exact iff_of_true answered_oauth fun h => by cases hos.mpr h.2
      · refine iff_of_false (fun ha => ?_) (fun hn => hn ⟨by simp, hos.mp hres⟩)
        obtain ⟨_, _, _, h⟩ := ha _ rfl
        cases h

/-- The body is looked at: the rate limit admits the request, and there is room. -/
def Reaches (s : OAuthService) (source : String) : Prop :=
  (s.dcrLimiter.allow source env.t0).2 = true ∧ s.consenting env.t1 < maxInactiveDcrClients ∧
    s.shielded env.t1 < maxDcrClients

theorem reaches_iff {s : OAuthService} (hk : Keyed RegisteredClient.clientId s.clients)
    (source : String) : s.Reaches env source ↔ (s.dcrLimiter.allow source env.t0).2 = true ∧
      ¬ (s.roomMade env source).Full env.t1 := by
  rw [full_roomMade_iff hk, not_or, not_le, not_le]
  rfl

theorem register_answered {s : OAuthService} (hk : Keyed RegisteredClient.clientId s.clients)
    (body : Json) (source : String) : Answered (s.registerClient cfg env body source).2 ↔
      ¬ (s.Reaches env source ∧ (Escapes body ∨ (Supported body ∧ Unexamined cfg env))) := by
  rw [reaches_iff env hk]
  have h := register_registers cfg env s hk body source
  generalize s.registerClient cfg env body source = r at h
  cases h with
  | limited h => exact iff_of_true answered_oauth (by simp [h])
  | full h hf => exact iff_of_true answered_oauth (by simp [hf])
  | refused h hf hb =>
    have hans := checkBody_answered body
    have hsupported : ¬ Supported body := by
      rw [← checkBody_ok_iff, hb]
      simp
    rw [hb, answered_error (β := Registration)] at hans
    rw [hans]
    simp [h, hf, hsupported]
  | saved h hf hb =>
    have hans := (checkBody_answered body).mp (hb ▸ answered_ok _)
    have hsupported := (checkBody_ok_iff body).mp ⟨_, hb⟩
    rw [answered_map, saved, persist_answered]
    simp [h, hf, hans, hsupported]

/-- What is registered is supported. -/
theorem register_supported {s : OAuthService} (hk : Keyed RegisteredClient.clientId s.clients)
    {body : Json} {source : String} {registration : Registration}
    (hr : (s.registerClient cfg env body source).2 = .ok registration) : Supported body := by
  have h := register_registers cfg env s hk body source
  generalize s.registerClient cfg env body source = r at h hr
  cases h with
  | limited => cases hr
  | full => cases hr
  | refused => cases hr
  | saved _ _ hb => exact (checkBody_ok_iff body).mp ⟨_, hb⟩

end OAuthService

/-- A registration is answered, and accepted only with supported metadata, unless its body is looked
    at and escapes, or passes and cannot be saved because the directory cannot be examined. -/
theorem register_answered_iff {cfg : Config} {tr : Trace} {sys : System}
    (h : (machine cfg).Run tr sys) (env : Env) (body : Json) (source : String) :
    (Answered (sys.svc.registerClient cfg env body source).2 ∧
      ∀ registration, (sys.svc.registerClient cfg env body source).2 = .ok registration →
        OAuthService.Supported body) ↔
      ¬ (sys.svc.Reaches env source ∧ (OAuthService.Escapes body ∨
        (OAuthService.Supported body ∧ OAuthService.Unexamined cfg env))) := by
  rw [OAuthService.register_answered cfg env (keyed_clients h) body source]
  exact and_iff_left fun _ hr => OAuthService.register_supported cfg env (keyed_clients h) hr

/-- The body of the sample run is answered, with a registration. -/
theorem register_answered_sample : Answered (registerLater 2 sampleBody).2 ∧
    ∀ registration, (registerLater 2 sampleBody).2 = .ok registration →
      OAuthService.Supported sampleBody := by
  have hanswered : Answered (OAuthService.checkBody sampleBody) := by
    have hok : (OAuthService.checkBody sampleBody).toOption.isSome = true := by decide +kernel
    intro e he
    rw [he] at hok
    cases hok
  refine (register_answered_iff (after_run sampleConfig registeredRun) (later 2) sampleBody
    "b").mpr ?_
  rintro ⟨-, hescapes | ⟨-, hstore, -⟩⟩
  · exact (OAuthService.checkBody_answered sampleBody).mp hanswered hescapes
  · exact hstore rfl

/-- The sample body with one field more. -/
def sampleBodyWith (key : String) (value : Json) : Json :=
  .obj [("redirect_uris", strs ["https://app.example/cb"]), (key, value)]

/-- A list among the grant types, a number for the response types, and a URI with an open bracket:
    two `TypeError`s and a `ValueError`. -/
theorem register_raises :
    (registerLater 2 (sampleBodyWith "grant_types" (.arr [.arr []]))).2 = .error .typeError ∧
    (registerLater 2 (sampleBodyWith "response_types" (.int 5))).2 = .error .typeError ∧
    (registerLater 2 (.obj [("redirect_uris", strs ["https://["])])).2 = .error .valueError ∧
    ¬ ∀ tr sys, (machine sampleConfig).Run tr sys → ∀ env body source,
      Answered (sys.svc.registerClient sampleConfig env body source).2 := by
  have hgrants : (registerLater 2 (sampleBodyWith "grant_types" (.arr [.arr []]))).2 =
      .error .typeError := by decide +kernel
  refine ⟨hgrants, by decide +kernel, by decide +kernel, fun h => ?_⟩
  obtain ⟨_, _, _, he⟩ := h _ _ (after_run sampleConfig registeredRun) (later 2)
    (sampleBodyWith "grant_types" (.arr [.arr []])) "b" _ hgrants
  cases he

end DataRelay.OAuth
