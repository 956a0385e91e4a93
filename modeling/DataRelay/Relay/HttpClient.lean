import DataRelay.Relay.PassThrough

/-! `http.client` as the proxy uses it: what it checks of a request before anything is sent, and what
    is caught of the exceptions that it raises. The connection is made outside of the `try` of
    `proxy_mcp_request`, and the `except` names `OSError` and `HTTPException` only: a port that is no
    port, and text that cannot be put into a request, get past both. -/

namespace DataRelay.Relay
open Lib

/-! ### What is checked of a request -/

/-- `_contains_disallowed_url_pchar_re`, one character. -/
def disallowedUrlChar (c : Char) : Bool := c.toNat ≤ 32 || c.toNat == 127

/-- `_contains_disallowed_method_pchar_re`, one character. -/
def disallowedMethodChar (c : Char) : Bool := c.toNat < 32

/-- `\s` in a pattern of bytes. -/
def isByteSpace (c : Char) : Bool := c.toNat == 32 || 9 ≤ c.toNat && c.toNat ≤ 13

/-- `_is_legal_header_name`. -/
def legalHeaderName : List Char → Bool
  | [] => false
  | c :: cs => c != ':' && !isByteSpace c && cs.all fun c => c != ':' && c != '\r' && c != '\n'

/-- The next line of a folded header. -/
def folded (cs : List Char) : Bool := cs.head?.any fun c => c == ' ' || c == '\t'

/-- `_is_illegal_header_value`: a line break that does not fold the header. -/
def illegalHeaderValue : List Char → Bool
  | [] => false
  | c :: cs =>
    c == '\n' && !folded cs || c == '\r' && !(folded cs || cs.head? == some '\n') ||
      illegalHeaderValue cs

/-- `putheader`. -/
def putheader (e : String × String) : Except PyError Unit :=
  if isAscii e.1 = false then .error .unicodeError
  else if legalHeaderName e.1.toList = false then .error .valueError
  else if isLatin1 e.2 = false then .error .unicodeError
  else if illegalHeaderValue e.2.toList then .error .valueError
  else .ok ()

def putheaders : Headers → Except PyError Unit
  | [] => .ok ()
  | e :: es => do
    putheader e
    putheaders es

/-! ### The exchange -/

structure RawResponse where
  status : ℕ
  reason : String
  headers : List (Bytes × Bytes)
  body : Bytes

/-- The codec of host names, the timeouts that a socket takes, and what comes of a request that is
    sent: a response, or an exception of connecting, of TLS, of waiting or of reading. -/
structure Network where
  idna : String → Bool
  settimeout : String → Bool
  exchange : UpstreamRequest → Except PyError RawResponse

/-- `HTTPConnection.__init__`, which refuses a host with control characters as an `InvalidURL`. -/
def connectionInit (r : UpstreamRequest) : Except PyError Unit :=
  if r.host.toList.any disallowedUrlChar then .error .httpException else .ok ()

/-- `putrequest`. -/
def Network.putrequest (net : Network) (r : UpstreamRequest) : Except PyError Unit :=
  if r.method.toList.any disallowedMethodChar then .error .valueError
  else if r.path.toList.any disallowedUrlChar then .error .httpException
  else if isAscii r.method = false ∨ isAscii r.path = false then .error .unicodeError
  else if isAscii r.host = false ∧ net.idna r.host = false then .error .unicodeError
  else .ok ()

/-- `request`, `getresponse` and `read`; a timeout that is no number of seconds is refused once the
    request is written. -/
def Network.request (net : Network) (r : UpstreamRequest) : Except PyError RawResponse := do
  net.putrequest r
  putheaders r.headers.items
  if net.settimeout r.timeout = false then .error .valueError
  net.exchange r

/-- `except (TimeoutError, OSError, http.client.HTTPException, ssl.SSLError)`. -/
def caught : PyError → Bool
  | .osError => true
  | .httpException => true
  | _ => false

/-- Header bytes are read as Latin-1. -/
def latin1 (bs : Bytes) : String := String.ofList (bs.map fun b => Char.ofNat b.toNat)

def RawResponse.decode (r : RawResponse) : UpstreamResponse where
  status := r.status
  reason := r.reason
  headers := r.headers.map fun e => (latin1 e.1, latin1 e.2)
  body := r.body

/-- What the proxy sees of the upstream. -/
def Network.upstream (net : Network) (r : UpstreamRequest) : UpstreamOutcome :=
  match connectionInit r with
  | .error e => .raised e
  | .ok () =>
    match net.request r with
    | .ok response => .response response.decode
    | .error e => if caught e then .failed else .raised e

/-! ### What gets past the `except` -/

/-- A header that is written as it stands. -/
structure Writable (e : String × String) : Prop where
  name : isAscii e.1 = true ∧ legalHeaderName e.1.toList = true
  encoding : isLatin1 e.2 = true
  value : illegalHeaderValue e.2.toList = false

/-- The target of a request has no character that makes it an `InvalidURL`. -/
def Plain (r : UpstreamRequest) : Prop := r.path.toList.any disallowedUrlChar = false

/-- What gets past the `except`, of a request that was built. -/
inductive Uncaught (net : Network) (r : UpstreamRequest) : Prop
  | host : r.host.toList.any disallowedUrlChar = true → Uncaught net r
  | method : r.method.toList.any disallowedMethodChar = true → Uncaught net r
  | line : Plain r → isAscii r.method = false ∨ isAscii r.path = false → Uncaught net r
  | hostName : Plain r → isAscii r.host = false → net.idna r.host = false → Uncaught net r
  | header (e : String × String) : Plain r → e ∈ r.headers.items → ¬ Writable e → Uncaught net r
  | timeout : Plain r → net.settimeout r.timeout = false → Uncaught net r
  | exchange (e : PyError) : Plain r → net.exchange r = .error e → caught e = false →
      Uncaught net r

theorem putheader_cases (e : String × String) :
    (Writable e ∧ putheader e = .ok ()) ∨
      (¬ Writable e ∧ ∃ err, putheader e = .error err ∧ caught err = false) := by
  unfold putheader
  by_cases hname : isAscii e.1 = false
  · rw [if_pos hname]
    exact .inr ⟨fun h => by simp [h.name.1] at hname, _, rfl, rfl⟩
  rw [if_neg hname]
  by_cases hlegal : legalHeaderName e.1.toList = false
  · rw [if_pos hlegal]
    exact .inr ⟨fun h => by simp [h.name.2] at hlegal, _, rfl, rfl⟩
  rw [if_neg hlegal]
  by_cases hlatin : isLatin1 e.2 = false
  · rw [if_pos hlatin]
    exact .inr ⟨fun h => by simp [h.encoding] at hlatin, _, rfl, rfl⟩
  rw [if_neg hlatin]
  by_cases hvalue : illegalHeaderValue e.2.toList = true
  · rw [if_pos hvalue]
    exact .inr ⟨fun h => by simp [h.value] at hvalue, _, rfl, rfl⟩
  rw [if_neg hvalue]
  exact .inl ⟨⟨⟨by simpa using hname, by simpa using hlegal⟩, by simpa using hlatin,
    by simpa using hvalue⟩, rfl⟩

/-- The headers are written one by one, up to the first that cannot be. -/
theorem putheaders_cases (es : Headers) :
    ((∀ e ∈ es, Writable e) ∧ putheaders es = .ok ()) ∨
      ((∃ e ∈ es, ¬ Writable e) ∧ ∃ err, putheaders es = .error err ∧ caught err = false) := by
  induction es with
  | nil => exact .inl ⟨by simp, rfl⟩
  | cons e es ih =>
    rcases putheader_cases e with ⟨hw, hok⟩ | ⟨hw, err, herr, hc⟩
    · simp only [putheaders, hok, bind, Except.bind]
      rcases ih with ⟨hall, hes⟩ | ⟨⟨e', he', hw'⟩, err, herr, hc⟩
      · exact .inl ⟨List.forall_mem_cons.mpr ⟨hw, hall⟩, hes⟩
      · exact .inr ⟨⟨e', List.mem_cons_of_mem _ he', hw'⟩, err, herr, hc⟩
    · refine .inr ⟨⟨e, List.mem_cons_self, hw⟩, err, ?_, hc⟩
      simp only [putheaders, herr, bind, Except.bind]

/-- A request whose target is an `InvalidURL` is caught. -/
theorem putrequest_invalid {net : Network} {r : UpstreamRequest}
    (hm : r.method.toList.any disallowedMethodChar = false) (hp : ¬ Plain r) :
    net.putrequest r = .error .httpException := by
  rw [Network.putrequest, if_neg (by simp [hm]), if_pos (by simpa [Plain] using hp)]

/-- What `putrequest` checks besides the target. -/
structure Sendable (net : Network) (r : UpstreamRequest) : Prop where
  method : r.method.toList.any disallowedMethodChar = false
  line : isAscii r.method = true ∧ isAscii r.path = true
  host : isAscii r.host = true ∨ net.idna r.host = true

theorem putrequest_cases (net : Network) {r : UpstreamRequest} (hp : Plain r) :
    (Sendable net r ∧ net.putrequest r = .ok ()) ∨
      (Uncaught net r ∧ ∃ err, net.putrequest r = .error err ∧ caught err = false) := by
  unfold Network.putrequest
  split
  next h => exact .inr ⟨.method h, _, rfl, rfl⟩
  next hmethod =>
  split
  next h => rw [hp] at h; cases h
  split
  next h => exact .inr ⟨.line hp h, _, rfl, rfl⟩
  next hline =>
  split
  next h => exact .inr ⟨.hostName hp h.1 h.2, _, rfl, rfl⟩
  next hhost =>
  refine .inl ⟨⟨by simpa using hmethod, by simpa using hline, ?_⟩, rfl⟩
  by_contra hno
  rw [not_or, Bool.not_eq_true, Bool.not_eq_true] at hno
  exact hhost hno

/-- What gets past the `except` once the request line is written: a header, the timeout, or what
    comes of the exchange. -/
theorem write_raises_iff {net : Network} {r : UpstreamRequest}
    (hhost : r.host.toList.any disallowedUrlChar = false) (hp : Plain r) (hs : Sendable net r) :
    (∃ e, (do
        putheaders r.headers.items
        if net.settimeout r.timeout = false then .error .valueError
        net.exchange r : Except PyError RawResponse) = .error e ∧ caught e = false) ↔
      Uncaught net r := by
  rcases putheaders_cases r.headers.items with ⟨hall, hok⟩ | ⟨⟨e, he, hw⟩, err, herr, hc⟩
  · rw [hok]
    by_cases ht : net.settimeout r.timeout = false
    · refine iff_of_true ⟨.valueError, ?_, rfl⟩ (.timeout hp ht)
      simp only [bind, Except.bind, if_pos ht]
    · simp only [bind, Except.bind, if_neg ht]
      refine ⟨fun ⟨e, he, hc⟩ => .exchange e hp he hc, ?_⟩
      rintro (h | h | ⟨-, h⟩ | ⟨-, h, h'⟩ | ⟨e, -, he, hw⟩ | ⟨-, h⟩ | ⟨e, -, he, hc⟩)
      · rw [hhost] at h
        cases h
      · rw [hs.method] at h
        cases h
      · rw [hs.line.1, hs.line.2] at h
        simp at h
      · rcases hs.host with hs | hs
        · rw [hs] at h
          cases h
        · rw [hs] at h'
          cases h'
      · exact absurd (hall e he) hw
      · exact absurd h ht
      · exact ⟨e, he, hc⟩
  · rw [herr]
    exact iff_of_true ⟨err, rfl, hc⟩ (.header e hp he hw)

/-- What gets past the `except`, once the connection is made. -/
theorem request_raises_iff {net : Network} {r : UpstreamRequest}
    (hhost : r.host.toList.any disallowedUrlChar = false) :
    (∃ e, net.request r = .error e ∧ caught e = false) ↔ Uncaught net r := by
  unfold Network.request
  by_cases hp : Plain r
  · rcases putrequest_cases net hp with ⟨hs, hok⟩ | ⟨hu, err, herr, hc⟩
    · rw [hok]
      exact write_raises_iff hhost hp hs
    · rw [herr]
      exact iff_of_true ⟨err, rfl, hc⟩ hu
  · by_cases hm : r.method.toList.any disallowedMethodChar = true
    · refine iff_of_true ⟨.valueError, ?_, rfl⟩ (.method hm)
      rw [Network.putrequest, if_pos hm]
      rfl
    · rw [putrequest_invalid (by simpa using hm) hp]
      refine iff_of_false ?_ ?_
      · rintro ⟨e, he, hc⟩
        cases he
        cases hc
      · rintro (h | h | ⟨h, -⟩ | ⟨h, -⟩ | ⟨-, h, -⟩ | ⟨h, -⟩ | ⟨-, h, -⟩)
        · rw [hhost] at h
          cases h
        · exact hm h
        all_goals exact hp h

/-- What the proxy sees of the upstream is an exception that gets past it, exactly for a request that
    is not caught. -/
theorem upstream_raised_iff (net : Network) (r : UpstreamRequest) :
    (∃ e, net.upstream r = .raised e) ↔ Uncaught net r := by
  unfold Network.upstream connectionInit
  by_cases hhost : r.host.toList.any disallowedUrlChar = true
  · rw [if_pos hhost]
    exact iff_of_true ⟨_, rfl⟩ (.host hhost)
  rw [if_neg hhost, ← request_raises_iff (by simpa using hhost)]
  cases net.request r with
  | ok response => simp
  | error e => cases hc : caught e <;> simp [hc]

end DataRelay.Relay
