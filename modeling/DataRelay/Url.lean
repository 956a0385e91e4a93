import DataRelay.Python

/-! `urlparse` and `urlunparse`, and the redirect URIs that client registration accepts.

    The parser works on the characters of the URL, as `urllib.parse` does: it drops leading control
    characters and spaces, removes tabs and line breaks, and then cuts scheme, authority, fragment,
    query and parameters off in that order. Only schemes and host names are lower-cased, and only
    their ASCII letters can matter to the comparisons made here. -/

namespace DataRelay.Url

/-- The text before the first `c`, whether there is one, and the text behind it. -/
def partition (c : Char) : List Char → List Char × Bool × List Char
  | [] => ([], false, [])
  | d :: cs =>
    if d = c then ([], true, cs)
    else ((d :: (partition c cs).1), (partition c cs).2)

/-- The text before the last `c`, whether there is one, and the text behind it; a text without it
    is all behind. -/
def rpartition (c : Char) (cs : List Char) : List Char × Bool × List Char :=
  match partition c cs.reverse with
  | (tail, true, init) => (init.reverse, true, tail.reverse)
  | (_, false, _) => ([], false, cs)

/-- `str.lower`, which is used on ASCII texts only. -/
def lower (cs : List Char) : List Char := cs.map Char.toLower

/-- An ASCII letter. -/
def isAsciiAlpha (c : Char) : Bool := ('a' ≤ c && c ≤ 'z') || ('A' ≤ c && c ≤ 'Z')

/-- An ASCII digit. -/
def isDigit (c : Char) : Bool := '0' ≤ c && c ≤ '9'

/-- An ASCII hexadecimal digit. -/
def isHexDigit (c : Char) : Bool := isDigit c || ('a' ≤ c && c ≤ 'f') || ('A' ≤ c && c ≤ 'F')

/-- `scheme_chars`. -/
def schemeChar (c : Char) : Bool := isAsciiAlpha c || isDigit c || c == '+' || c == '-' || c == '.'

/-- `ParseResult`. -/
structure ParseResult where
  scheme : List Char
  netloc : List Char
  path : List Char
  params : List Char
  query : List Char
  fragment : List Char
deriving DecidableEq

/-! ### Addresses in brackets -/

/-- The fields of a text, cut at every `c`. -/
def splitOn (c : Char) : List Char → List (List Char)
  | [] => [[]]
  | d :: cs =>
    if d = c then [] :: splitOn c cs
    else match splitOn c cs with
      | [] => [[d]]
      | w :: ws => (d :: w) :: ws

/-- A decimal octet without leading zeros. -/
def isOctet (cs : List Char) : Bool :=
  cs ≠ [] && cs.all isDigit && cs.length ≤ 3 && (cs = ['0'] || cs.head? ≠ some '0') &&
    cs.foldl (fun n c => 10 * n + (c.toNat - 48)) 0 ≤ 255

/-- Four octets with points between them. -/
def isIPv4 (cs : List Char) : Bool :=
  (splitOn '.' cs).length = 4 && (splitOn '.' cs).all isOctet

/-- One to four hexadecimal digits. -/
def isHextet (cs : List Char) : Bool := cs ≠ [] && cs.all isHexDigit && cs.length ≤ 4

/-- The parts of an IPv6 address are well formed. `inner` lists the places of the empty parts that
    are neither first nor last. -/
def hextetsOk (parts : List (List Char)) : Bool :=
  let inner := (List.range parts.length).filter fun i =>
    0 < i && i + 1 < parts.length && parts.getD i [] = []
  let first := parts.head? = some []
  let last := parts.getLast? = some []
  match inner with
  | [] => parts.length = 8 && parts.all isHextet
  | [skip] =>
    let hi := if first then skip - 1 else skip
    let lo := if last then parts.length - skip - 2 else parts.length - skip - 1
    (!first || hi = 0) && (!last || lo = 0) && hi + lo < 8 &&
      (parts.take hi).all isHextet && (parts.drop (parts.length - lo)).all isHextet
  | _ => false

/-- `ipaddress.IPv6Address` accepts the text, zone included. -/
def isIPv6 (cs : List Char) : Bool :=
  let (addr, sep, zone) := partition '%' cs
  let parts := splitOn ':' addr
  let suffix := parts.getLast?.getD []
  (!sep || (zone ≠ [] && !zone.contains '%')) && !cs.contains '/' && 3 ≤ parts.length &&
    if suffix.contains '.' then
      isIPv4 suffix && parts.length + 1 ≤ 9 && hextetsOk (parts.dropLast ++ [['0'], ['0']])
    else parts.length ≤ 9 && hextetsOk parts

/-- `_check_bracketed_host`, as a test. -/
def bracketedHostOk (host : List Char) : Bool :=
  match host with
  | 'v' :: cs =>
    let (version, dot, rest) := partition '.' cs
    dot && version ≠ [] && version.all isHexDigit && rest ≠ []
  | _ => isIPv6 host

/-! ### Parsing -/

/-- The characters that turn into one of `/?#@:` under compatibility normalization. -/
def nfkcDelimiters : List ℕ :=
  [0x2047, 0x2048, 0x2049, 0x2100, 0x2101, 0x2105, 0x2106, 0x2a74, 0xfe13, 0xfe16, 0xfe55, 0xfe56,
    0xfe5f, 0xfe6b, 0xff03, 0xff0f, 0xff1a, 0xff1f, 0xff20]

/-- `_checknetloc`, as a test. -/
def netlocOk (netloc : List Char) : Bool := netloc.all fun c => !nfkcDelimiters.contains c.toNat

/-- The scheme, lower-cased, and the rest; no scheme when the text before the colon is not one. -/
def splitScheme (url : List Char) : List Char × List Char :=
  match partition ':' url with
  | (c :: cs, true, rest) =>
    if isAsciiAlpha c && (c :: cs).all schemeChar then (lower (c :: cs), rest) else ([], url)
  | _ => ([], url)

/-- The authority behind a `//`, and the rest. -/
def splitNetloc : List Char → List Char × List Char
  | '/' :: '/' :: cs =>
    (cs.takeWhile fun c => c ≠ '/' && c ≠ '?' && c ≠ '#',
      cs.dropWhile fun c => c ≠ '/' && c ≠ '?' && c ≠ '#')
  | cs => ([], cs)

/-- `uses_params`. -/
def usesParams : List String :=
  ["", "ftp", "hdl", "prospero", "http", "imap", "https", "shttp", "rtsp", "rtsps", "rtspu", "sip",
    "sips", "mms", "sftp", "tel"]

/-- `_splitparams`: the parameters of the last segment of a path. -/
def splitParams (path : List Char) : List Char × List Char :=
  let (dirs, slash, last) := rpartition '/' path
  let (name, _, params) := partition ';' last
  ((if slash then dirs ++ ['/'] else dirs) ++ name, params)

/-- `urlparse(url)`. -/
def urlparse (s : String) : Except PyError ParseResult :=
  let url := (s.toList.dropWhile fun c => c.toNat ≤ 32).filter fun c =>
    c ≠ '\t' && c ≠ '\r' && c ≠ '\n'
  let (scheme, url) := splitScheme url
  let (netloc, url) := splitNetloc url
  if netloc.contains '[' != netloc.contains ']' then .error .valueError
  else if netloc.contains '[' &&
      !bracketedHostOk (partition ']' (partition '[' netloc).2.2).1 then .error .valueError
  else
    let (url, _, fragment) := partition '#' url
    let (path, _, query) := partition '?' url
    if !netlocOk netloc then .error .valueError
    else
      let (path, params) :=
        if usesParams.contains (String.ofList scheme) && path.contains ';' then splitParams path
        else (path, [])
      .ok ⟨scheme, netloc, path, params, query, fragment⟩

/-! ### Building -/

/-- `uses_netloc`. -/
def usesNetloc : List String :=
  ["", "ftp", "http", "gopher", "nntp", "telnet", "imap", "wais", "file", "mms", "https", "shttp",
    "snews", "prospero", "rtsp", "rtsps", "rtspu", "rsync", "svn", "svn+ssh", "sftp", "nfs", "git",
    "git+ssh", "ws", "wss"]

/-- `urlunparse(parts)`. -/
def urlunparse (p : ParseResult) : List Char :=
  let url := if p.params ≠ [] then p.path ++ ';' :: p.params else p.path
  let url :=
    if p.netloc ≠ [] || (p.scheme ≠ [] && usesNetloc.contains (String.ofList p.scheme)) ||
        url.take 2 = ['/', '/'] then
      '/' :: '/' :: p.netloc ++ if url ≠ [] && url.head? ≠ some '/' then '/' :: url else url
    else url
  let url := if p.scheme ≠ [] then p.scheme ++ ':' :: url else url
  let url := if p.query ≠ [] then url ++ '?' :: p.query else url
  if p.fragment ≠ [] then url ++ '#' :: p.fragment else url

/-- An upper-case hexadecimal digit. -/
def hexDigit (n : ℕ) : Char := Char.ofNat (if n < 10 then 48 + n else 55 + n)

/-- `quote_plus`, one character. -/
def quoteChar (c : Char) : List Char :=
  if isAsciiAlpha c || isDigit c || c == '_' || c == '.' || c == '-' || c == '~' then [c]
  else if c = ' ' then ['+']
  else (String.utf8EncodeChar c).flatMap fun b =>
    ['%', hexDigit (b.toNat / 16), hexDigit (b.toNat % 16)]

/-- `quote_plus`. -/
def quotePlus (s : String) : List Char := s.toList.flatMap quoteChar

/-- `urlencode(q)`. -/
def urlencode (q : List (String × String)) : List Char :=
  List.intercalate ['&'] (q.map fun e => quotePlus e.1 ++ '=' :: quotePlus e.2)

/-! ### Redirect URIs -/

/-- `parsed.hostname or ""`, lower-cased. -/
def hostname (parsed : ParseResult) : List Char :=
  let hostinfo := (rpartition '@' parsed.netloc).2.2
  let (_, bracket, bracketed) := partition '[' hostinfo
  lower (if bracket then (partition ']' bracketed).1 else (partition ':' hostinfo).1)

/-- `_hostinfo`: the host of the authority and the text of the port. -/
def hostinfo (parsed : ParseResult) : List Char × List Char :=
  let info := (rpartition '@' parsed.netloc).2.2
  let (_, bracket, bracketed) := partition '[' info
  if bracket then
    let (host, _, rest) := partition ']' bracketed
    (host, (partition ':' rest).2.2)
  else
    let (host, _, port) := partition ':' info
    (host, port)

/-- `parsed.hostname`: a zone keeps its letters. -/
def parsedHostname (parsed : ParseResult) : Option String :=
  let host := (hostinfo parsed).1
  if host = [] then none
  else
    let (name, percent, zone) := partition '%' host
    some (DataRelay.lower (String.ofList name) ++
      String.ofList (if percent then '%' :: zone else []))

/-- `parsed.port`. -/
def port (parsed : ParseResult) : Except PyError (Option ℕ) :=
  let text := (hostinfo parsed).2
  if text = [] then .ok none
  else if text.all isDigit = false then .error .valueError
  else
    let n := text.foldl (fun n c => 10 * n + (c.toNat - 48)) 0
    if n ≤ 65535 then .ok (some n) else .error .valueError

/-- `parsed.username or parsed.password`, as a test. -/
def hasCredentials (parsed : ParseResult) : Bool :=
  let (userinfo, found, _) := rpartition '@' parsed.netloc
  let (username, _, password) := partition ':' userinfo
  found && (username ≠ [] || password ≠ [])

/-- `_redirect_uri_safe`: HTTPS with an authority, or HTTP on a loopback host. -/
def redirectUriSafe (uri : String) : Except PyError Bool :=
  match urlparse uri with
  | .error e => .error e
  | .ok parsed =>
    .ok (if parsed.fragment ≠ [] then false
      else if parsed.scheme = "https".toList then parsed.netloc ≠ []
      else if parsed.scheme = "http".toList then
        ["localhost".toList, "127.0.0.1".toList, "::1".toList].contains (hostname parsed)
      else false)

end DataRelay.Url
