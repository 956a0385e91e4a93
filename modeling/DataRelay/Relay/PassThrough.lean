import DataRelay.Relay.Egress
import DataRelay.Relay.Server

/-! What passes through the relay: of a request only the allowed headers and the body, under the
    credential of the binding; of a response the status, the allowed headers and the body. -/

namespace DataRelay.Relay
open Lib

/-! ### The request -/

/-- Nothing but the allowed headers of a request is looked at. -/
theorem selectHeaders_ofList (headers : Headers) (allowed : List String) :
    Dict.ofList (selectHeaders (Dict.ofList headers).items allowed) =
      Dict.ofList (selectHeaders headers allowed) := by
  have hfilter := Dict.filter_ofList (fun name => allowed.contains (lower name)) headers
  have hitems : selectHeaders (Dict.ofList headers).items allowed =
      (Dict.ofList (selectHeaders headers allowed)).items := congrArg Dict.items hfilter
  rw [hitems]
  exact Dict.ext_items (Dict.ofList_items (Dict.nodup _))

/-- The credential that a configuration has for the upstream. -/
def upstreamCredential (config : RelayConfig) : Option String :=
  (truthy config.upstreamToken).map ("Bearer " ++ ·)

theorem truthy_upstreamBinding (config : RelayConfig) (bindingId subject : String) :
    truthy (upstreamBinding config bindingId subject).upstreamAuthorization =
      upstreamCredential config := by
  simp only [upstreamBinding, upstreamCredential, truthy]
  cases config.upstreamToken with
  | none => rfl
  | some token =>
    by_cases h : token = ""
    · simp [h]
    · have : "Bearer " ++ token ≠ "" := by
        intro he
        simpa using congrArg String.toList he
      simp [h, this, Option.filter]

/-- A credential that resolves gives the configured upstream, whatever the credential is. -/
theorem resolve_ok {b : BindingResolver} {env : OAuth.Env} {authorization : Option String}
    {binding : UpstreamBinding} (h : b.resolve env authorization = .ok binding) :
    ∃ bindingId subject, binding = upstreamBinding b.config bindingId subject := by
  unfold BindingResolver.resolve at h
  split at h
  · split at h
    · cases h
    split at h
    · cases h
    · cases h
      exact ⟨_, _, rfl⟩
  · unfold BindingResolver.resolveMock at h
    split at h
    · cases h
    split at h
    · cases h
    · cases h
      exact ⟨_, _, rfl⟩

/-- The request to the upstream does not depend on which binding of the configuration it is. -/
theorem upstreamRequest_binding (config : RelayConfig) (bindingId subject bindingId' subject' :
    String) (method : String) (body : Bytes) (requestHeaders : Dict String String)
    (timeoutS : String) :
    upstreamRequest method (upstreamBinding config bindingId subject) body requestHeaders timeoutS =
      upstreamRequest method (upstreamBinding config bindingId' subject') body requestHeaders
        timeoutS := rfl

/-- The request to the upstream reads its headers through the selection only. -/
theorem upstreamRequest_headers {headers headers' : Headers}
    (h : selectHeaders headers forwardRequestHeaders =
      selectHeaders headers' forwardRequestHeaders)
    (method : String) (binding : UpstreamBinding) (body : Bytes) (timeoutS : String) :
    upstreamRequest method binding body (.ofList headers) timeoutS =
      upstreamRequest method binding body (.ofList headers') timeoutS := by
  have hheaders : upstreamHeaders binding body (.ofList headers) =
      upstreamHeaders binding body (.ofList headers') := by
    simp only [upstreamHeaders, selectHeaders_ofList, h]
  simp only [upstreamRequest, hheaders]

/-- The request that the proxy makes is the one it built. -/
theorem proxyMcpRequest_fst (upstream : UpstreamRequest → UpstreamOutcome) (method : String)
    (binding : UpstreamBinding) (body : Bytes) (requestHeaders : Dict String String)
    (timeoutS : String) :
    (proxyMcpRequest upstream method binding body requestHeaders timeoutS).1 =
      (upstreamRequest method binding body requestHeaders timeoutS).toOption := by
  unfold proxyMcpRequest
  split <;> rename_i h <;> rw [h] <;> rfl

/-- What a request to `/mcp` makes of the upstream once its body is read and its credential
    resolved. -/
theorem handleMcp_upstream {ctx : Context} {req : Request} {stream body : Bytes}
    (hbody : (readBody req.headers stream).1 = .ok body) {binding : UpstreamBinding}
    (hresolve : ctx.bindings.resolve ctx.env (header? req.headers "Authorization") =
      .ok binding) :
    (handleMcp ctx req stream).upstream =
      (upstreamRequest (methodText req.method) binding body (.ofList req.headers)
        ctx.bindings.config.requestTimeoutS).toOption := by
  unfold handleMcp
  generalize readBody req.headers stream = r at hbody ⊢
  obtain ⟨x, rest⟩ := r
  obtain rfl : x = .ok body := hbody
  simp only [hresolve, proxyMcpRequest_fst]

/-- Without a body that was read and a credential that resolved there is no upstream request. -/
theorem handleMcp_upstream_some {ctx : Context} {req : Request} {stream : Bytes}
    {r : UpstreamRequest} (h : (handleMcp ctx req stream).upstream = some r) :
    ∃ body binding, (readBody req.headers stream).1 = .ok body ∧
      ctx.bindings.resolve ctx.env (header? req.headers "Authorization") = .ok binding := by
  unfold handleMcp at h
  split at h
  · split at h <;> simp only [unread_upstream, reduceCtorEq] at h
  rename_i body rest hbody
  split at h
  · simp only [unread_upstream, reduceCtorEq] at h
  · simp only [reduceCtorEq] at h
  rename_i binding hresolve
  exact ⟨body, binding, by rw [hbody], hresolve⟩

/-! ### Its headers -/

/-- A name that is not allowed is not written by the selection. -/
theorem get?_ofList_selectHeaders {items : Headers} {allowed : List String} {name : String}
    (h : lower name ∉ allowed) : (Dict.ofList (selectHeaders items allowed)).get? name = none := by
  have hfilter := Dict.filter_ofList (fun name => allowed.contains (lower name)) items
  rw [selectHeaders, ← hfilter, Dict.get?_filter]
  cases (Dict.ofList items).get? name <;> simp [Option.filter, h]

theorem withAuthorization_items {headers : Dict String String}
    (h : headers.get? "Authorization" = none) (authorization : Option String) :
    (withAuthorization headers authorization).items =
      headers.items ++ authorization.toList.map ("Authorization", ·) := by
  cases authorization with
  | none => simp [withAuthorization]
  | some a => simp [withAuthorization, Dict.items_set_of_none h]

/-- The default content type is written: there is a body, and no header says what it is. -/
def DefaultsContentType (body : Bytes) (headers : Headers) : Prop :=
  body ≠ [] ∧ "Content-Type" ∉ headers.map (fun e => title e.1) ∧
    "content-type" ∉ headers.map fun e => lower e.1

instance (body : Bytes) (headers : Headers) : Decidable (DefaultsContentType body headers) := by
  unfold DefaultsContentType; infer_instance

/-- The headers of the request to the upstream before the default. -/
def credentialed (binding : UpstreamBinding) (headers : Headers) : Headers :=
  (Dict.ofList (selectHeaders headers forwardRequestHeaders)).items ++
    (truthy binding.upstreamAuthorization).toList.map ("Authorization", ·)

/-- The headers of the request to the upstream, in their order: the selected ones, the credential,
    and the default content type. -/
theorem upstreamHeaders_items (binding : UpstreamBinding) (body : Bytes) (headers : Headers) :
    (upstreamHeaders binding body (.ofList headers)).items = credentialed binding headers ++
      if DefaultsContentType body (credentialed binding headers) then
        [("Content-Type", "application/json")] else [] := by
  simp only [upstreamHeaders, selectHeaders_ofList]
  have hitems : (withAuthorization (Dict.ofList (selectHeaders headers forwardRequestHeaders))
      (truthy binding.upstreamAuthorization)).items = credentialed binding headers :=
    withAuthorization_items (get?_ofList_selectHeaders (by decide)) _
  generalize withAuthorization _ _ = d at hitems ⊢
  rw [← hitems]
  by_cases hct : "content-type" ∈ d.keys.map lower
  · rw [if_neg (show ¬ DefaultsContentType body d.items from
      fun h => h.2.2 (by simpa [Dict.keys] using hct))]
    simp [hct]
  · have hnew : d.get? "Content-Type" = none := by
      rw [Dict.get?_eq_none_iff]
      exact fun hm => hct (List.mem_map.mpr ⟨_, hm, by decide⟩)
    by_cases hdef : body ≠ [] ∧ "Content-Type" ∉ d.keys.map title
    · rw [if_pos hdef, if_pos hct, Dict.items_set_of_none hnew, if_pos]
      exact ⟨hdef.1, by simpa [Dict.keys] using hdef.2, by simpa [Dict.keys] using hct⟩
    · rw [if_neg hdef, if_neg, List.append_nil]
      exact fun h => hdef ⟨h.1, by simpa [Dict.keys] using h.2.1⟩

/-- What the headers of a request to the upstream may hold: the configured credential, under one
    name; otherwise allowed headers of the inbound request, and a content type for a body whose
    headers name none. -/
structure Confined (config : RelayConfig) (req : Request) (r : UpstreamRequest) : Prop where
  credential : (r.headers.items.filter fun e => lower e.1 = "authorization") =
    (upstreamCredential config).toList.map ("Authorization", ·)
  other : ∀ e ∈ r.headers.items, lower e.1 ≠ "authorization" →
    (e ∈ (Dict.ofList (selectHeaders req.headers forwardRequestHeaders)).items ∧
      lower e.1 ∈ forwardRequestHeaders) ∨
    (e = ("Content-Type", "application/json") ∧ r.body ≠ [] ∧
      ∀ e' ∈ r.headers.items, lower e'.1 = "content-type" → e' = e)

theorem selected_allowed {headers : Headers} {allowed : List String} {e : String × String}
    (h : e ∈ (Dict.ofList (selectHeaders headers allowed)).items) : lower e.1 ∈ allowed := by
  have hfilter := Dict.filter_ofList (fun name => allowed.contains (lower name)) headers
  rw [selectHeaders, ← hfilter] at h
  simpa using (List.mem_filter.mp h).2

/-- The request that is built holds nothing else. -/
theorem upstreamRequest_confined {config : RelayConfig} {req : Request} {bindingId subject : String}
    {body : Bytes} {timeoutS : String} {r : UpstreamRequest}
    (h : upstreamRequest (methodText req.method) (upstreamBinding config bindingId subject) body
      (.ofList req.headers) timeoutS = .ok r) : Confined config req r := by
  obtain ⟨hheaders, hrbody⟩ : r.headers = upstreamHeaders (upstreamBinding config bindingId subject)
      body (.ofList req.headers) ∧ r.body = body := by
    unfold upstreamRequest at h
    iterate 4
      split at h
      · cases h
    obtain rfl := Except.ok.inj h
    exact ⟨rfl, rfl⟩
  have hitems := upstreamHeaders_items (upstreamBinding config bindingId subject) body req.headers
  rw [← hheaders, credentialed, truthy_upstreamBinding] at hitems
  have hdefault : ∀ (c : Prop) [Decidable c], ∀ e ∈ (if c then
      [("Content-Type", "application/json")] else [] : Headers),
      c ∧ e = ("Content-Type", "application/json") := by
    intro c _ e he
    split at he
    · exact ⟨‹c›, List.mem_singleton.mp he⟩
    · cases he
  constructor
  · -- no header with this name passes the allow-list
    rw [hitems, List.filter_append, List.filter_append]
    have hsel : ((Dict.ofList (selectHeaders req.headers forwardRequestHeaders)).items.filter
        fun e => lower e.1 = "authorization") = [] := by
      refine List.filter_eq_nil_iff.mpr fun e he => ?_
      have hallowed := selected_allowed he
      intro hname
      rw [of_decide_eq_true hname] at hallowed
      exact absurd hallowed (by decide)
    have hcred : (((upstreamCredential config).toList.map ("Authorization", ·)).filter
        fun e => lower e.1 = "authorization") =
          (upstreamCredential config).toList.map ("Authorization", ·) := by
      refine List.filter_eq_self.mpr fun e he => ?_
      obtain ⟨a, -, rfl⟩ := List.mem_map.mp he
      exact decide_eq_true (by decide : lower "Authorization" = "authorization")
    rw [hsel, hcred, List.nil_append]
    refine (congrArg _ (List.filter_eq_nil_iff.mpr fun e he => ?_)).trans (List.append_nil _)
    obtain ⟨-, rfl⟩ := hdefault _ e he
    decide
  · intro e he hname
    rw [hitems] at he
    rcases List.mem_append.mp he with he | he
    · rcases List.mem_append.mp he with he | he
      · exact .inl ⟨he, selected_allowed he⟩
      · obtain ⟨a, -, rfl⟩ := List.mem_map.mp he
        exact absurd (by decide : lower "Authorization" = "authorization") hname
    · -- the default type is there only if the request brought none
      obtain ⟨⟨hbody, -, hnone⟩, rfl⟩ := hdefault _ e he
      refine .inr ⟨rfl, hrbody ▸ hbody, ?_⟩
      intro e' he' hname'
      rw [hitems] at he'
      rcases List.mem_append.mp he' with he' | he'
      · exact absurd (List.mem_map.mpr ⟨e', he', hname'⟩) hnone
      · exact (hdefault _ e' he').2

/-! ### Two requests -/

/-- Requests to `/mcp` with the same method, the same body and the same allowed headers make the
    same upstream request, whichever credentials they carry; that request holds the configured
    credential and no other; and without a binding there is none. -/
theorem inbound_credentials_confined {ctx₁ ctx₂ : Context}
    (hconfig : ctx₂.bindings.config = ctx₁.bindings.config) (req₁ req₂ : Request)
    (stream₁ stream₂ : Bytes) :
    (∀ b₁ b₂, ctx₁.bindings.resolve ctx₁.env (header? req₁.headers "Authorization") = .ok b₁ →
      ctx₂.bindings.resolve ctx₂.env (header? req₂.headers "Authorization") = .ok b₂ →
      req₂.method = req₁.method →
      (readBody req₂.headers stream₂).1 = (readBody req₁.headers stream₁).1 →
      selectHeaders req₂.headers forwardRequestHeaders =
        selectHeaders req₁.headers forwardRequestHeaders →
      (handleMcp ctx₂ req₂ stream₂).upstream = (handleMcp ctx₁ req₁ stream₁).upstream) ∧
    (∀ r, (handleMcp ctx₁ req₁ stream₁).upstream = some r →
      Confined ctx₁.bindings.config req₁ r) ∧
    ∀ e, ctx₁.bindings.resolve ctx₁.env (header? req₁.headers "Authorization") = .error e →
      (handleMcp ctx₁ req₁ stream₁).upstream = none := by
  refine ⟨?_, ?_, ?_⟩
  · intro b₁ b₂ hresolve₁ hresolve₂ hmethod hbody hheaders
    cases hread : (readBody req₁.headers stream₁).1 with
    | error e =>
      -- neither of the bodies is read
      have hnone : ∀ {ctx : Context} {req : Request} {stream : Bytes},
          (readBody req.headers stream).1 = .error e →
            (handleMcp ctx req stream).upstream = none := by
        intro ctx req stream herror
        by_contra hsome
        obtain ⟨r, hr⟩ := Option.ne_none_iff_exists'.mp hsome
        obtain ⟨body, -, hok, -⟩ := handleMcp_upstream_some hr
        rw [herror] at hok
        cases hok
      rw [hnone hread, hnone (hbody.trans hread)]
    | ok body =>
      -- of the binding only the id and the subject differ, which the request does not read
      obtain ⟨i₁, s₁, rfl⟩ := resolve_ok hresolve₁
      obtain ⟨i₂, s₂, rfl⟩ := resolve_ok hresolve₂
      rw [handleMcp_upstream hread hresolve₁, handleMcp_upstream (hbody.trans hread) hresolve₂,
        hmethod, hconfig, upstreamRequest_headers hheaders,
        upstreamRequest_binding _ i₂ s₂ i₁ s₁]
  · intro r hr
    obtain ⟨body, binding, hread, hresolve⟩ := handleMcp_upstream_some hr
    obtain ⟨bindingId, subject, rfl⟩ := resolve_ok hresolve
    rw [handleMcp_upstream hread hresolve] at hr
    generalize hreq : upstreamRequest _ _ _ _ _ = x at hr
    cases x with
    | error e => cases hr
    | ok r' =>
      obtain rfl := Option.some.inj hr
      exact upstreamRequest_confined hreq
  · intro e herror
    by_contra hsome
    obtain ⟨r, hr⟩ := Option.ne_none_iff_exists'.mp hsome
    obtain ⟨body, binding, -, hok⟩ := handleMcp_upstream_some hr
    rw [herror] at hok
    cases hok

/-! ### A sample -/

def sampleCodec : Codec where
  decode _ := .ok ""
  loads _ := .ok .null
  dumps _ := []
  encode _ := []
  str _ := ""
  parseQs _ := []
  parseQsKeepingBlanks _ := []

def sampleCalls : OAuthCalls where
  registerClient _ _ := .error .typeError
  beginAuthorization _ _ := .error .typeError
  completeAuthorization _ := .error .typeError
  pending _ := none
  exchangeToken _ := .error .typeError
  revoke _ := .error .typeError
  consentHtml _ _ := ""
  protectedResourceMetadata := .null
  authorizationServerMetadata := .null
  wwwAuthenticate _ _ := ""

/-- A relay in mock mode, over a public upstream that always gives the same answer. -/
def sampleContext (answer : UpstreamResponse) : Context where
  bindings := ⟨sampleConfig "https://u.example/mcp" publicIp, ∅, none⟩
  env := ⟨0, 0, 0, 0, "", "", ⟨.safe, true, none, true, true, true, true, true, true, true, true,
    .safe, true⟩⟩
  upstream _ := .response answer
  codec := sampleCodec
  calls := sampleCalls
  source := "127.0.0.1"
  version := ""

/-- A request to `/mcp` with the mock credential, and with other headers. -/
def sampleMcp (others : Headers) : Request where
  method := .post
  path := "/mcp"
  headers := ("Authorization", "Bearer dev-plugin-token") :: ("Accept-Encoding", "gzip") :: others

theorem inbound_credentials_confined_cookie :
    (handleMcp (sampleContext ⟨200, "OK", [], []⟩)
      (sampleMcp [("Cookie", "a=b"), ("authorization", "Bearer other")]) []).upstream =
      (handleMcp (sampleContext ⟨200, "OK", [], []⟩) (sampleMcp []) []).upstream :=
  (inbound_credentials_confined rfl (sampleMcp []) _ [] []).1 _ _ rfl rfl rfl rfl
    (by decide +kernel)

/-! ### The response -/

namespace Response

/-- The status that the client sees. -/
def status (r : Response) : Option ℕ :=
  match r.head with
  | .status code :: _ => some code
  | _ => none

def headers (r : Response) : Headers :=
  r.head.filterMap fun
    | .header name value => some (name, value)
    | .status _ => none

end Response

/-- The values of the headers of one name, in any case of letters. -/
def headerValues (headers : Headers) (name : String) : List String :=
  (headers.filter fun e => lower e.1 = name).map Prod.snd

/-- The codings a body has, in the order they were applied. -/
def contentCodings (headers : Headers) : List String :=
  ((headerValues headers "content-encoding").flatMap fun value =>
    (Url.splitOn ',' value.toList).map fun token => lower (strip (String.ofList token))).filter
      fun coding => coding ≠ "" && coding ≠ "identity"

/-- What the headers make of a body: its media type, and the bytes once the codings are undone, the
    last one first. -/
def payloadOf (undo : String → Bytes → Option Bytes) (headers : Headers) (body : Bytes) :
    List String × Option Bytes :=
  (headerValues headers "content-type",
    (contentCodings headers).reverse.foldlM (fun b coding => undo coding b) body)

/-- The response to the client stands for the same thing as the one of the upstream. -/
structure SameRepresentation (upstream : UpstreamResponse) (r : Response) : Prop where
  status : r.status = some upstream.status
  body : r.body = upstream.body
  mediaType : headerValues r.headers "content-type" = headerValues upstream.headers "content-type"
  codings : contentCodings r.headers = contentCodings upstream.headers
  payload : ∀ undo, payloadOf undo r.headers r.body =
    payloadOf undo upstream.headers upstream.body

/-- The selection keeps the headers of an allowed name, and no other. -/
theorem headerValues_selectHeaders (headers : Headers) (allowed : List String) (name : String) :
    headerValues (selectHeaders headers allowed) name =
      if name ∈ allowed then headerValues headers name else [] := by
  unfold headerValues selectHeaders
  rw [List.filter_filter]
  split
  · rename_i hin
    refine congrArg _ (List.filter_congr fun e _ => ?_)
    by_cases hname : lower e.1 = name <;> simp [hname, hin]
  · rename_i hout
    have hnil : (headers.filter fun e =>
        decide (lower e.1 = name) && allowed.contains (lower e.1)) = [] := by
      refine List.filter_eq_nil_iff.mpr fun e _ => ?_
      by_cases hname : lower e.1 = name <;> simp [hname, hout]
    rw [hnil, List.map_nil]

/-- A response that went out holds the status, all the headers and the body it was sent with. -/
theorem send_ok {status : ℕ} {headers : Headers} {body : Bytes} {r : Response}
    (h : (send [] status headers body).result = .ok r) :
    r.status = some status ∧ r.headers = headers ∧ r.body = body := by
  unfold send at h
  dsimp only at h
  split at h
  · rename_i hall
    obtain rfl := Except.ok.inj h
    have htake : headers.takeWhile headerOk = headers := by
      rw [List.takeWhile_eq_self_iff]
      exact fun e he => List.all_eq_true.mp hall e he
    refine ⟨rfl, ?_, rfl⟩
    simp [Response.headers, htake, List.filterMap_map]
  · cases h

/-- What goes out of an answer of the upstream: the status, the allowed headers with the length, and
    the body. -/
theorem handleMcp_response {ctx : Context} {req : Request} {stream : Bytes} {r : UpstreamRequest}
    (hr : (handleMcp ctx req stream).upstream = some r) {upstream : UpstreamResponse}
    (hupstream : ctx.upstream r = .response upstream) {out : Response}
    (hout : (handleMcp ctx req stream).outcome = .ok out) :
    out.status = some upstream.status ∧ out.body = upstream.body ∧
      out.headers = selectHeaders upstream.headers forwardResponseHeaders ++
        [lengthHeader upstream.body] := by
  obtain ⟨body, binding, hread, hresolve⟩ := handleMcp_upstream_some hr
  have hreq := hr
  rw [handleMcp_upstream hread hresolve] at hreq
  unfold handleMcp at hout
  generalize readBody req.headers stream = p at hread hout
  obtain ⟨x, rest⟩ := p
  obtain rfl : x = .ok body := hread
  simp only [hresolve, proxyMcpRequest] at hout
  generalize upstreamRequest _ _ _ _ _ = y at hreq hout
  cases y with
  | error e => cases hreq
  | ok r' =>
    obtain rfl := Option.some.inj hreq
    simp only [hupstream, sendProxied, sendBytes] at hout
    obtain ⟨hstatus, hheaders, hbody⟩ := send_ok hout
    exact ⟨hstatus, hbody, hheaders⟩

/-- The client gets what the upstream answered exactly when the answer has no content coding. -/
theorem sameRepresentation_iff {ctx : Context} {req : Request} {stream : Bytes}
    {r : UpstreamRequest} (hr : (handleMcp ctx req stream).upstream = some r)
    {upstream : UpstreamResponse} (hupstream : ctx.upstream r = .response upstream)
    {out : Response} (hout : (handleMcp ctx req stream).outcome = .ok out) :
    SameRepresentation upstream out ↔ contentCodings upstream.headers = [] := by
  obtain ⟨hstatus, hbody, hheaders⟩ := handleMcp_response hr hupstream hout
  have hlength : ∀ name, name ≠ "content-length" →
      headerValues out.headers name =
        headerValues (selectHeaders upstream.headers forwardResponseHeaders) name := by
    intro name hname
    have hlower : lower (lengthHeader upstream.body).1 = "content-length" := by
      simp only [lengthHeader]; decide
    rw [hheaders, headerValues, List.filter_append, List.filter_cons_of_neg, List.filter_nil,
      List.append_nil, headerValues]
    simpa [hlower] using Ne.symm hname
  have htype : headerValues out.headers "content-type" =
      headerValues upstream.headers "content-type" := by
    rw [hlength _ (by decide), headerValues_selectHeaders, if_pos (by decide)]
  have hcodings : contentCodings out.headers = [] := by
    rw [contentCodings, hlength _ (by decide), headerValues_selectHeaders, if_neg (by decide)]
    rfl
  constructor
  · intro h
    rw [← h.codings, hcodings]
  · intro h
    refine ⟨hstatus, hbody, htype, hcodings.trans h.symm, fun undo => ?_⟩
    simp only [payloadOf, htype, hcodings, h, hbody]

/-- An answer whose body is compressed. -/
def gzipAnswer : UpstreamResponse where
  status := 200
  reason := "OK"
  headers := [("Content-Type", "application/json"), ("Content-Encoding", "gzip")]
  body := [31, 139, 8]

def plainAnswer : UpstreamResponse :=
  { gzipAnswer with headers := [("Content-Type", "application/json")] }

/-- What the client gets of such an answer. -/
def sampleOutcome (answer : UpstreamResponse) : Except PyError Response :=
  (handleMcp (sampleContext answer) (sampleMcp []) []).outcome

theorem sameRepresentation_plain :
    ∃ out, sampleOutcome plainAnswer = .ok out ∧ SameRepresentation plainAnswer out := by
  have hsome : (handleMcp (sampleContext plainAnswer) (sampleMcp []) []).upstream.isSome = true := by
    decide +kernel
  obtain ⟨r, hr⟩ := Option.isSome_iff_exists.mp hsome
  have hout : sampleOutcome plainAnswer = .ok ⟨[.status 200,
      .header "Content-Type" "application/json", .header "Content-Length" "3"], [31, 139, 8]⟩ := by
    decide +kernel
  exact ⟨_, hout, (sameRepresentation_iff hr rfl hout).mpr (by decide +kernel)⟩

/-- The coding that the client asked for is not named in what it gets. -/
theorem coding_dropped :
    ∃ r out, (handleMcp (sampleContext gzipAnswer) (sampleMcp []) []).upstream = some r ∧
      r.headers.get? "Accept-Encoding" = some "gzip" ∧
      (sampleContext gzipAnswer).upstream r = .response gzipAnswer ∧
      sampleOutcome gzipAnswer = .ok out ∧ ¬ SameRepresentation gzipAnswer out := by
  have hforward : (handleMcp (sampleContext gzipAnswer) (sampleMcp []) []).upstream.map
      (fun r => r.headers.get? "Accept-Encoding") = some (some "gzip") := by decide +kernel
  obtain ⟨r, hr, hgzip⟩ := Option.map_eq_some_iff.mp hforward
  refine ⟨r, ⟨[.status 200, .header "Content-Type" "application/json",
    .header "Content-Length" "3"], [31, 139, 8]⟩, hr, hgzip, rfl, by decide +kernel, ?_⟩
  intro h
  exact absurd h.codings (by decide +kernel)

end DataRelay.Relay
