import DataRelay.Lib.Trace
import DataRelay.Relay.PassThrough

/-! Requests that follow one another on a persistent connection.

    A connection is a machine: a step parses the head of a request off the stream and runs the
    handler on what follows. The next request is parsed where the handler stopped reading, so the
    requests parsed are the ones that were sent as long as every handler reads the whole body or
    ends the connection. -/

namespace DataRelay.Relay
open Lib

/-- What `http.server` does itself: it parses the head of a request, and decides from it whether the
    connection may stay open. -/
structure HttpServer where
  parseHead : Bytes → Option (Request × Bytes)
  keepAlive : Request → Bool
  parse_nil : parseHead [] = none

/-- A request as a client sends it. -/
structure Message where
  head : Bytes
  req : Request
  body : Bytes

/-- The head parses whatever follows it, and its `Content-Length` is the length of the body. -/
structure Message.Valid (http : HttpServer) (m : Message) : Prop where
  parse : ∀ rest, http.parseHead (m.head ++ rest) = some (m.req, rest)
  length : contentLength m.req.headers = .ok m.body.length

/-- The bytes that the messages make on a connection. -/
def wire (msgs : List Message) : Bytes := msgs.flatMap fun m => m.head ++ m.body

/-- A connection: what is left to read, and whether the handler keeps it open. -/
structure Connection where
  stream : Bytes
  isOpen : Bool

/-- One request on a connection: the request that was parsed and what its handler did. -/
def Connection.step (http : HttpServer) (c : Connection) (ctx : Context) :
    Option (Connection × Request × Exchange) :=
  if c.isOpen then
    (http.parseHead c.stream).map fun p =>
      let x := handle ctx p.1 p.2
      (⟨x.rest, x.outcome.toOption.isSome && http.keepAlive p.1⟩, p.1, x)
  else none

/-- A connection on which the bytes `sent` arrive. -/
def connection (http : HttpServer) (sent : Bytes) :
    Machine Connection Context (Request × Exchange) where
  init c := c = ⟨sent, true⟩
  step := Connection.step http

/-- The requests of a connection, each with its answer. -/
abbrev Requests := History Connection Context (Request × Exchange)

/-! ### What a handler leaves unread -/

/-- The path that a request is dispatched on. -/
def pathOf (req : Request) : Option String :=
  (Url.urlparse req.path).toOption.map fun parsed => String.ofList parsed.path

/-- The paths whose handlers read a body. -/
def formPaths : List String :=
  ["/oauth/register", "/oauth/authorize", "/oauth/token", "/oauth/revoke"]

/-- The handler of the request reads the body. -/
def Reads (ctx : Context) (req : Request) : Prop :=
  (req.method = .post ∧ (∃ path ∈ formPaths, pathOf req = some path) ∧ ctx.oauthEnabled = true) ∨
    pathOf req = some "/mcp"

instance (ctx : Context) (req : Request) : Decidable (Reads ctx req) := by
  unfold Reads; infer_instance

/-- Nothing of the body stays unread: there is none, or the handler reads it and it is not too
    long. -/
def Consumes (ctx : Context) (m : Message) : Prop :=
  m.body = [] ∨ (Reads ctx m.req ∧ (m.body.length : ℤ) ≤ maxBody)

/-- A body of the announced length is read off the stream, or refused. -/
theorem readBody_append {headers : Headers} {body : Bytes}
    (h : contentLength headers = .ok body.length) (rest : Bytes) :
    (readBody headers (body ++ rest)).2 =
      if (body.length : ℤ) ≤ maxBody then rest else body ++ rest := by
  rw [readBody, h]
  by_cases hlen : (body.length : ℤ) ≤ maxBody
  · have hneg : ¬ ((body.length : ℤ) < 0 ∨ maxBody < (body.length : ℤ)) := by omega
    simp only [if_neg hneg, if_pos hlen, Int.toNat_natCast, List.drop_left]
  · have hpos : (body.length : ℤ) < 0 ∨ maxBody < (body.length : ℤ) := by omega
    simp only [if_pos hpos, if_neg hlen]

theorem withBody_rest (ctx : Context) (headers : Headers) (stream : Bytes)
    (handle : Bytes → Sent) : (withBody ctx headers stream handle).rest =
      if ctx.oauthEnabled = true then (readBody headers stream).2 else stream := by
  unfold withBody
  cases ctx.oauthEnabled with
  | false => rfl
  | true =>
    simp only [Bool.true_eq_false, if_false, if_true]
    split <;> rename_i h <;> rw [h, unread_rest]

theorem handleMcp_rest (ctx : Context) (req : Request) (stream : Bytes) :
    (handleMcp ctx req stream).rest = (readBody req.headers stream).2 := by
  unfold handleMcp
  split
  · rename_i h
    rw [h]
    split <;> simp only [unread_rest]
  · rename_i h
    rw [h]
    split <;> simp only [unread_rest]

theorem handleMetadata_rest (ctx : Context) (metadata : Json) (stream : Bytes) :
    (handleMetadata ctx metadata stream).rest = stream := by
  unfold handleMetadata
  split <;> rw [unread_rest]

theorem doGet_rest (ctx : Context) (req : Request) (parsed : Url.ParseResult) (stream : Bytes) :
    (doGet ctx req parsed stream).rest =
      if String.ofList parsed.path = "/mcp" then (readBody req.headers stream).2 else stream := by
  unfold doGet
  split
  · rename_i hpath; rw [hpath, if_neg (by decide)]; exact unread_rest _ _
  · rename_i hpath; rw [hpath, if_neg (by decide)]; exact handleMetadata_rest _ _ _
  · rename_i hpath; rw [hpath, if_neg (by decide)]; exact handleMetadata_rest _ _ _
  · rename_i hpath
    rw [hpath, if_neg (by decide)]
    unfold handleAuthorizeGet
    split <;> rw [unread_rest]
  · rename_i hpath; rw [hpath, if_pos rfl, handleMcp_rest]
  · rename_i hmcp; rw [if_neg hmcp, unread_rest]

theorem doPost_rest (ctx : Context) (req : Request) (parsed : Url.ParseResult) (stream : Bytes) :
    (doPost ctx req parsed stream).rest =
      if (String.ofList parsed.path ∈ formPaths ∧ ctx.oauthEnabled = true) ∨
          String.ofList parsed.path = "/mcp" then (readBody req.headers stream).2 else stream := by
  -- a form handler, at one of its paths
  have hform : ∀ handle path, String.ofList parsed.path = path → path ∈ formPaths →
      path ≠ "/mcp" → (withBody ctx req.headers stream handle).rest =
        if (String.ofList parsed.path ∈ formPaths ∧ ctx.oauthEnabled = true) ∨
          String.ofList parsed.path = "/mcp" then (readBody req.headers stream).2 else stream := by
    intro handle path hpath hmem hne
    rw [withBody_rest, hpath]
    simp only [hmem, true_and, hne, or_false]
  unfold doPost
  split
  · exact hform _ _ ‹_› (by decide) (by decide)
  · exact hform _ _ ‹_› (by decide) (by decide)
  · exact hform _ _ ‹_› (by decide) (by decide)
  · exact hform _ _ ‹_› (by decide) (by decide)
  · rename_i hpath; rw [hpath, if_pos (.inr rfl), handleMcp_rest]
  · rename_i hregister hauthorize htoken hrevoke hmcp
    rw [unread_rest, if_neg]
    rintro (⟨hmem, -⟩ | h)
    · simp only [formPaths, List.mem_cons, List.not_mem_nil, or_false] at hmem
      tauto
    · exact hmcp h

theorem doDelete_rest (ctx : Context) (req : Request) (parsed : Url.ParseResult)
    (stream : Bytes) : (doDelete ctx req parsed stream).rest =
      if String.ofList parsed.path = "/mcp" then (readBody req.headers stream).2 else stream := by
  unfold doDelete
  split
  · rename_i hpath; rw [hpath, if_pos rfl, handleMcp_rest]
  · rename_i hmcp; rw [if_neg hmcp, unread_rest]

theorem reads_iff {ctx : Context} {req : Request} {path : String} (h : pathOf req = some path) :
    Reads ctx req ↔ (req.method = .post ∧ path ∈ formPaths ∧ ctx.oauthEnabled = true) ∨
      path = "/mcp" := by
  simp [Reads, h]

/-- Every handler either reads its body as `_read_body` does, or reads nothing. -/
theorem handle_rest (ctx : Context) (req : Request) (stream : Bytes) :
    (handle ctx req stream).rest =
      if Reads ctx req then (readBody req.headers stream).2 else stream := by
  cases hparse : Url.urlparse req.path with
  | error e =>
    have hpath : pathOf req = none := by simp [pathOf, hparse, Except.toOption]
    simp [handle, hparse, Reads, hpath]
  | ok parsed =>
    have hpath : pathOf req = some (String.ofList parsed.path) := by
      simp [pathOf, hparse, Except.toOption]
    simp only [handle, hparse, reads_iff hpath]
    cases req.method with
    | get => simp [doGet_rest]
    | post => simp [doPost_rest]
    | delete => simp [doDelete_rest]

/-- The bytes behind the body are left on the stream exactly when nothing of the body stays
    unread. -/
theorem handle_rest_iff {ctx : Context} {m : Message} {http : HttpServer} (hm : m.Valid http)
    (rest : Bytes) : (handle ctx m.req (m.body ++ rest)).rest = rest ↔ Consumes ctx m := by
  rw [handle_rest, readBody_append hm.length, Consumes]
  by_cases hreads : Reads ctx m.req <;> by_cases hlen : (m.body.length : ℤ) ≤ maxBody <;>
    simp [hreads, hlen]

/-! ### Runs -/

/-- The request at place `n` is parsed as it was sent, and if it is answered with the connection
    left open, the bytes that are left are those sent behind it. -/
def FramedAt (msgs : List Message) (n : ℕ) (e : Entry Connection Context (Request × Exchange)) :
    Prop :=
  ∃ m, msgs[n]? = some m ∧ e.resp.1 = m.req ∧
    (e.post.isOpen = true → e.post.stream = wire (msgs.drop (n + 1)))

/-- Every request of the history is framed as it was sent. -/
def Framed (msgs : List Message) (tr : Requests) : Prop :=
  ∀ newer e older, tr = newer ++ e :: older → FramedAt msgs older.length e

/-- The request at place `n` closes the connection, or nothing of its body stays unread. -/
def ConsumedAt (msgs : List Message) (n : ℕ) (e : Entry Connection Context (Request × Exchange)) :
    Prop :=
  e.post.isOpen = true → ∃ m, msgs[n]? = some m ∧ Consumes e.act m

/-- Every handled request has read just the message it is for. -/
def Consumed (msgs : List Message) (tr : Requests) : Prop :=
  ∀ newer e older, tr = newer ++ e :: older → ConsumedAt msgs older.length e

/-- A property of every place of a history, one entry at a time. -/
theorem forall_places {P : ℕ → Entry Connection Context (Request × Exchange) → Prop}
    {e : Entry Connection Context (Request × Exchange)} {tr : Requests} :
    (∀ newer e' older, e :: tr = newer ++ e' :: older → P older.length e') ↔
      P tr.length e ∧ ∀ newer e' older, tr = newer ++ e' :: older → P older.length e' := by
  constructor
  · intro h
    refine ⟨h [] e tr rfl, fun newer e' older htr => ?_⟩
    exact h (e :: newer) e' older (by rw [htr, List.cons_append])
  · rintro ⟨he, htr⟩ newer e' older heq
    cases newer with
    | nil =>
      obtain ⟨rfl, rfl⟩ := List.cons.inj heq
      exact he
    | cons x newer => exact htr newer e' older (List.cons.inj heq).2

theorem wire_drop {msgs : List Message} {n : ℕ} {m : Message} (h : msgs[n]? = some m) :
    wire (msgs.drop n) = m.head ++ (m.body ++ wire (msgs.drop (n + 1))) := by
  obtain ⟨hn, rfl⟩ := List.getElem?_eq_some_iff.mp h
  rw [List.drop_eq_getElem_cons hn, wire, List.flatMap_cons, List.append_assoc]
  rfl

/-- One request on a stream of whole messages. -/
theorem step_framed {http : HttpServer} {msgs : List Message} (hvalid : ∀ m ∈ msgs, m.Valid http)
    {c c' : Connection} {ctx : Context} {r : Request × Exchange} {n : ℕ}
    (hstream : c.stream = wire (msgs.drop n)) (hstep : c.step http ctx = some (c', r)) :
    ∃ m, msgs[n]? = some m ∧ r.1 = m.req ∧
      (c'.stream = wire (msgs.drop (n + 1)) ↔ Consumes ctx m) := by
  unfold Connection.step at hstep
  split at hstep
  · cases hget : msgs[n]? with
    | none =>
      have hnil : msgs.drop n = [] := List.drop_eq_nil_iff.mpr (List.getElem?_eq_none_iff.mp hget)
      rw [hstream, hnil, wire, List.flatMap_nil, http.parse_nil] at hstep
      cases hstep
    | some m =>
      have hm := hvalid m (List.mem_of_getElem? hget)
      rw [hstream, wire_drop hget, hm.parse, Option.map_some] at hstep
      obtain ⟨rfl, rfl⟩ := Prod.mk.inj (Option.some.inj hstep)
      exact ⟨m, rfl, rfl, handle_rest_iff hm _⟩
  · cases hstep

/-- Behind framed requests, an open connection holds exactly the messages that are left. -/
theorem stream_eq {http : HttpServer} {msgs : List Message} {tr : Requests} {c : Connection}
    (hrun : (connection http (wire msgs)).Run tr c) (hopen : c.isOpen = true)
    (hframed : Framed msgs tr) : c.stream = wire (msgs.drop tr.length) := by
  cases hrun with
  | start hinit =>
    obtain rfl : c = ⟨wire msgs, true⟩ := hinit
    rfl
  | @step tr s ctx c r hrun hstep =>
    obtain ⟨m, -, -, hstream⟩ := hframed [] _ tr rfl
    exact hstream hopen

/-- The requests on a connection are framed as they were sent exactly when each of them that is
    answered with the connection left open leaves nothing of its body unread. -/
theorem framed_iff_consumed {http : HttpServer} {msgs : List Message}
    (hvalid : ∀ m ∈ msgs, m.Valid http) {tr : Requests} {c : Connection}
    (hrun : (connection http (wire msgs)).Run tr c) : Framed msgs tr ↔ Consumed msgs tr := by
  -- on the run: as long as it was framed, the stream is at the next message
  induction hrun with
  | start => simp [Framed, Consumed]
  | @step tr s ctx c r hrun hstep ih =>
    have hopen : s.isOpen = true := by
      by_contra hclosed
      have hnone : s.step http ctx = none := by simp [Connection.step, hclosed]
      rw [show s.step http ctx = some (c, r) from hstep] at hnone
      cases hnone
    have hstep_iff : Framed msgs tr →
        (FramedAt msgs tr.length ⟨s, ctx, c, r⟩ ↔ ConsumedAt msgs tr.length ⟨s, ctx, c, r⟩) := by
      intro hframed
      obtain ⟨m, hget, hreq, hiff⟩ := step_framed hvalid (stream_eq hrun hopen hframed) hstep
      simp [FramedAt, ConsumedAt, hget, hreq, hiff]
    rw [Framed, forall_places, Consumed, forall_places]
    constructor
    · rintro ⟨hat, hframed⟩
      exact ⟨(hstep_iff hframed).mp hat, ih.mp hframed⟩
    · rintro ⟨hat, hconsumed⟩
      have hframed := ih.mpr hconsumed
      exact ⟨(hstep_iff hframed).mpr hat, hframed⟩

/-! ### A sample -/

/-- How much of the empty line that ends a head has been seen, after one more byte. -/
def seenNext (seen : ℕ) (b : UInt8) : ℕ :=
  if b = (if seen % 2 = 0 then 13 else 10) then seen + 1 else if b = 13 then 1 else 0

/-- The bytes up to the empty line, and those behind it. -/
def cutHead : ℕ → Bytes → Option (Bytes × Bytes)
  | 4, rest => some ([], rest)
  | _, [] => none
  | seen, b :: bs => (cutHead (seenNext seen b) bs).map fun p => (b :: p.1, p.2)

theorem cutHead_append {seen : ℕ} {head text : Bytes} (rest : Bytes)
    (h : cutHead seen head = some (text, [])) : cutHead seen (head ++ rest) = some (text, rest) := by
  induction seen, head using cutHead.induct generalizing text with
  | case1 bs =>
    obtain ⟨rfl, rfl⟩ := Prod.mk.inj (Option.some.inj (cutHead.eq_1 bs ▸ h))
    rw [List.nil_append, cutHead]
  | case2 seen hseen => rw [cutHead.eq_2 seen hseen] at h; cases h
  | case3 seen b bs hseen ih =>
    rw [cutHead.eq_3 seen b bs hseen] at h
    obtain ⟨⟨text', rest'⟩, hp, heq⟩ := Option.map_eq_some_iff.mp h
    obtain ⟨rfl, rfl⟩ := Prod.mk.inj heq
    rw [List.cons_append, cutHead.eq_3 seen b _ hseen, ih hp]
    rfl

/-- The method of a request line. -/
def methodOf (word : List Char) : Option Method :=
  if word = "GET".toList then some .get
  else if word = "POST".toList then some .post
  else if word = "DELETE".toList then some .delete
  else none

/-- A header line, cut at its colon. -/
def headerOf (line : List Char) : String × String :=
  let (name, _, value) := Url.partition ':' line
  (String.ofList name, strip (String.ofList value))

/-- The request line and the headers of a head. -/
def requestOf (text : Bytes) : Option Request :=
  let chars := (text.map fun b => Char.ofNat b.toNat).filter (· ≠ '\r')
  match (Url.splitOn '\n' chars).filter (· ≠ []) with
  | [] => none
  | line :: lines =>
    match Url.splitOn ' ' line with
    | [word, target, _] =>
      (methodOf word).map fun method => ⟨method, String.ofList target, lines.map headerOf⟩
    | _ => none

/-- Heads in their usual text form, on connections that stay open. -/
def textHttp : HttpServer where
  parseHead stream := (cutHead 0 stream).bind fun p => (requestOf p.1).map (·, p.2)
  keepAlive _ := true
  parse_nil := rfl

theorem textHttp_valid {m : Message} {text : Bytes} (hcut : cutHead 0 m.head = some (text, []))
    (hreq : requestOf text = some m.req) (hlen : contentLength m.req.headers = .ok m.body.length) :
    m.Valid textHttp :=
  ⟨fun rest => by simp [textHttp, cutHead_append rest hcut, hreq], hlen⟩

/-- The bytes of an ASCII text. -/
def bytesOf (s : String) : Bytes := s.toList.map fun c => UInt8.ofNat c.toNat

/-- A `POST` with a body of 24 bytes that reads like a request. -/
def postWithRequest (path : String) : Message where
  head := bytesOf ("POST " ++ path ++ " HTTP/1.1\r\nContent-Length: 24\r\n\r\n")
  req := ⟨.post, path, [("Content-Length", "24")]⟩
  body := bytesOf "GET /health HTTP/1.1\r\n\r\n"

theorem postWithRequest_valid {path : String}
    (hcut : cutHead 0 (postWithRequest path).head = some ((postWithRequest path).head, []))
    (hreq : requestOf (postWithRequest path).head = some (postWithRequest path).req) :
    (postWithRequest path).Valid textHttp := by
  have hlen : contentLength [("Content-Length", "24")] =
      .ok (bytesOf "GET /health HTTP/1.1\r\n\r\n").length := by decide +kernel
  exact textHttp_valid hcut hreq hlen

/-- One request, on a connection with nothing else on it. -/
def afterOne (m : Message) : Option (Connection × Request × Exchange) :=
  (Connection.mk (wire [m]) true).step textHttp (sampleContext plainAnswer)

theorem run_afterOne {m : Message} {c : Connection} {r : Request × Exchange}
    (h : afterOne m = some (c, r)) :
    (connection textHttp (wire [m])).Run [⟨⟨wire [m], true⟩, sampleContext plainAnswer, c, r⟩] c :=
  .step (.start rfl) h

/-- A request to `/mcp` that is refused has its body read all the same. -/
theorem framed_mcp : ∃ c r, afterOne (postWithRequest "/mcp") = some (c, r) ∧ c.isOpen = true ∧
    Framed [postWithRequest "/mcp"]
      [⟨⟨wire [postWithRequest "/mcp"], true⟩, sampleContext plainAnswer, c, r⟩] := by
  have hopen : (afterOne (postWithRequest "/mcp")).map (fun p => p.1.isOpen) = some true := by
    decide +kernel
  obtain ⟨⟨c, r⟩, hstep, hopen⟩ := Option.map_eq_some_iff.mp hopen
  refine ⟨c, r, hstep, hopen, (framed_iff_consumed ?_ (run_afterOne hstep)).mpr ?_⟩
  · intro m hm
    obtain rfl := List.mem_singleton.mp hm
    exact postWithRequest_valid (by decide +kernel) (by decide +kernel)
  · rw [Consumed, forall_places]
    refine ⟨fun _ => ⟨_, rfl, .inr ⟨.inr (by decide +kernel), by decide +kernel⟩⟩, ?_⟩
    intro newer e older hnil
    simp at hnil

/-- A path that does not exist is answered with its body unread, and the next request that is parsed
    is one the client never sent. -/
theorem body_smuggled : (∀ m ∈ [postWithRequest "/nope"], m.Valid textHttp) ∧
    ∃ c r c' r', afterOne (postWithRequest "/nope") = some (c, r) ∧
      c.isOpen = true ∧ c.step textHttp (sampleContext plainAnswer) = some (c', r') ∧
      r'.1 = ⟨.get, "/health", []⟩ ∧
      ¬ Framed [postWithRequest "/nope"]
        [⟨⟨wire [postWithRequest "/nope"], true⟩, sampleContext plainAnswer, c, r⟩] := by
  refine ⟨?_, ?_⟩
  · intro m hm
    obtain rfl := List.mem_singleton.mp hm
    exact postWithRequest_valid (by decide +kernel) (by decide +kernel)
  have hfirst : (afterOne (postWithRequest "/nope")).map
      (fun p => (p.1.isOpen, p.1.stream)) = some (true, (postWithRequest "/nope").body) := by
    decide +kernel
  have hsecond : (Connection.step textHttp ⟨(postWithRequest "/nope").body, true⟩
      (sampleContext plainAnswer)).map (fun p => p.2.1) = some ⟨.get, "/health", []⟩ := by
    decide +kernel
  obtain ⟨⟨⟨stream, isOpen⟩, r⟩, hstep, heq⟩ := Option.map_eq_some_iff.mp hfirst
  obtain ⟨rfl, rfl⟩ := Prod.mk.inj heq
  obtain ⟨⟨c', r'⟩, hstep', hreq⟩ := Option.map_eq_some_iff.mp hsecond
  refine ⟨_, r, c', r', hstep, rfl, hstep', hreq, fun hframed => ?_⟩
  obtain ⟨m, -, -, hstream⟩ := hframed [] _ [] rfl
  have hnil : (postWithRequest "/nope").body = [] := hstream rfl
  exact absurd hnil (by decide +kernel)

end DataRelay.Relay
