import DataRelay.Url
import Mathlib.Data.List.TakeWhile

/-! What `urlparse` reads of a URL that is continued: the scheme and the authority stay what they
    were, and the continuation goes wherever the URL had got to. -/

namespace DataRelay.Url

/-! ### Cutting -/

theorem partition_of_not_mem {c : Char} :
    ∀ {cs : List Char}, c ∉ cs → partition c cs = (cs, false, [])
  | [], _ => rfl
  | d :: cs, h => by
    obtain ⟨hd, hcs⟩ := List.ne_and_not_mem_of_not_mem_cons h
    rw [partition, if_neg hd.symm, partition_of_not_mem hcs]

theorem partition_cut {c : Char} (ds : List Char) :
    ∀ {cs : List Char}, c ∉ cs → partition c (cs ++ c :: ds) = (cs, true, ds)
  | [], _ => by simp [partition]
  | d :: cs, h => by
    obtain ⟨hd, hcs⟩ := List.ne_and_not_mem_of_not_mem_cons h
    rw [List.cons_append, partition, if_neg hd.symm, partition_cut ds hcs]

/-- A text that has the character is cut where it was, whatever comes behind. -/
theorem partition_append {c : Char} (ds : List Char) : ∀ {cs : List Char}, c ∈ cs →
    partition c (cs ++ ds) = ((partition c cs).1, true, (partition c cs).2.2 ++ ds)
  | d :: cs, h => by
    by_cases hd : d = c
    · simp [partition, hd]
    · have hcs : c ∈ cs := (List.mem_cons.mp h).resolve_left (Ne.symm hd)
      simp [partition, hd, partition_append ds hcs]

/-- Both sides of the cut are parts of the text. -/
theorem partition_sublist (c : Char) :
    ∀ cs : List Char, ((partition c cs).1 ++ (partition c cs).2.2).Sublist cs
  | [] => .slnil
  | d :: cs => by
    by_cases hd : d = c
    · simp [partition, hd]
    · simpa [partition, hd] using partition_sublist c cs

theorem rpartition_cut {c : Char} (cs : List Char) {ds : List Char} (h : c ∉ ds) :
    rpartition c (cs ++ c :: ds) = (cs, true, ds) := by
  have hrev : (cs ++ c :: ds).reverse = ds.reverse ++ c :: cs.reverse := by simp
  rw [rpartition, hrev, partition_cut _ (by simpa using h)]
  simp

/-! ### The stages of the parser -/

/-- The URL without the characters that the parser drops. -/
def cleaned (url : List Char) : List Char :=
  (url.dropWhile fun c => c.toNat ≤ 32).filter fun c => c ≠ '\t' && c ≠ '\r' && c ≠ '\n'

/-- What is left of the URL behind its authority. -/
def behindAuthority (url : List Char) : List Char :=
  (splitNetloc (splitScheme (cleaned url)).2).2

/-- The authority can be part of a URL. -/
def authorityOk (netloc : List Char) : Bool :=
  netloc.contains '[' == netloc.contains ']' &&
    (!netloc.contains '[' ||
      bracketedHostOk (partition ']' (partition '[' netloc).2.2).1) && netlocOk netloc

/-- The path and the parameters of a URL of the scheme. -/
def pathParams (scheme path : List Char) : List Char × List Char :=
  if usesParams.contains (String.ofList scheme) && path.contains ';' then splitParams path
  else (path, [])

/-- The parts of a URL, from its scheme, its authority and what is behind them. -/
def parts (scheme netloc behind : List Char) : ParseResult :=
  let cut := partition '#' behind
  let path := pathParams scheme (partition '?' cut.1).1
  ⟨scheme, netloc, path.1, path.2, (partition '?' cut.1).2.2, cut.2.2⟩

/-- The parser looks at the authority, and then takes the URL apart. -/
theorem urlparse_ok_iff {s : String} {p : ParseResult} : urlparse s = .ok p ↔
    authorityOk (splitNetloc (splitScheme (cleaned s.toList)).2).1 = true ∧
      parts (splitScheme (cleaned s.toList)).1
        (splitNetloc (splitScheme (cleaned s.toList)).2).1 (behindAuthority s.toList) = p := by
  unfold urlparse behindAuthority cleaned authorityOk parts pathParams
  dsimp only
  generalize splitScheme _ = sch
  generalize splitNetloc sch.2 = net
  by_cases hsquare : net.1.contains '[' = net.1.contains ']'
  · by_cases hhost : bracketedHostOk (partition ']' (partition '[' net.1).2.2).1 = true
    all_goals
      by_cases hok : netlocOk net.1 = true
      all_goals
        cases hleft : net.1.contains '['
        all_goals simp_all
  · have hne : (net.1.contains '[' != net.1.contains ']') = true := bne_iff_ne.mpr hsquare
    have heq : (net.1.contains '[' == net.1.contains ']') = false := beq_eq_false_iff_ne.mpr hsquare
    rw [hne, heq]
    simp

/-! ### A URL that is continued -/

/-- A path that can be put behind an authority: it begins with its only slash or with another part,
    and has nothing that the parser cuts at or drops. -/
def Plain (path : List Char) : Prop :=
  path.head? = some '/' ∧ ∀ c ∈ path, 32 < c.toNat ∧ c ≠ '?' ∧ c ≠ '#' ∧ c ≠ ';'

instance (path : List Char) : Decidable (Plain path) :=
  @instDecidableAnd _ _ _ (List.decidableBAll _ _)

section Continued
variable {url path : List Char}

theorem plain_kept (h : Plain path) :
    path.filter (fun c => c ≠ '\t' && c ≠ '\r' && c ≠ '\n') = path := by
  rw [List.filter_eq_self]
  intro c hc
  have hbig := (h.2 c hc).1
  simp only [ne_eq, Bool.and_eq_true, decide_eq_true_eq]
  refine ⟨⟨?_, ?_⟩, ?_⟩ <;> rintro rfl <;> simp at hbig

theorem cleaned_append (hpath : Plain path) (hurl : cleaned url ≠ []) :
    cleaned (url ++ path) = cleaned url ++ path := by
  have hdrop : (url.dropWhile fun c => decide (c.toNat ≤ 32)) ≠ [] := by
    intro hnil
    simp [cleaned, hnil] at hurl
  rw [cleaned, List.dropWhile_append, if_neg (by simpa using hdrop), List.filter_append,
    plain_kept hpath, cleaned]

/-- The characters that end an authority. -/
def isDelimiter (c : Char) : Bool := c == '/' || c == '?' || c == '#'

/-- The URL that is left after cleaning, when it has a scheme and an authority. -/
structure Absolute (url : List Char) (p : ParseResult) (pre : List Char) : Prop where
  eq : cleaned url = pre ++ ':' :: '/' :: '/' :: (p.netloc ++ behindAuthority url)
  scheme : splitScheme (pre ++ [':']) = (p.scheme, [])
  colon : ':' ∉ pre
  netloc : ∀ c ∈ p.netloc, isDelimiter c = false
  behind : ∀ c, (behindAuthority url).head? = some c → isDelimiter c = true

theorem splitScheme_cut {pre : List Char} (hpre : ':' ∉ pre) {scheme : List Char}
    (h : splitScheme (pre ++ [':']) = (scheme, [])) (rest : List Char) :
    splitScheme (pre ++ ':' :: rest) = (scheme, rest) := by
  unfold splitScheme at h ⊢
  rw [partition_cut _ hpre] at h ⊢
  cases pre with
  | nil => simp at h
  | cons c cs =>
    dsimp only at h ⊢
    split at h
    · rename_i hok
      rw [if_pos hok, ← (Prod.mk.inj h).1]
    · simp at h

theorem scheme_chars {pre scheme : List Char} (hpre : ':' ∉ pre)
    (h : splitScheme (pre ++ [':']) = (scheme, [])) :
    ∀ c ∈ pre, schemeChar c = true := by
  unfold splitScheme at h
  rw [partition_cut _ hpre] at h
  cases pre with
  | nil => simp
  | cons c cs =>
    dsimp only at h
    split at h
    · rename_i hok
      rw [Bool.and_eq_true] at hok
      exact List.all_eq_true.mp hok.2
    · simp at h

theorem splitNetloc_slashes (url : List Char) : splitNetloc ('/' :: '/' :: url) =
    (url.takeWhile fun c => !isDelimiter c, url.dropWhile fun c => !isDelimiter c) := by
  have hpred : (fun c => c ≠ '/' && c ≠ '?' && c ≠ '#') = fun c => !isDelimiter c := by
    funext c
    simp only [isDelimiter, Bool.not_or, ne_eq, decide_not]
    rfl
  rw [splitNetloc, hpred]

theorem splitNetloc_cut {netloc behind : List Char} (hn : ∀ c ∈ netloc, isDelimiter c = false)
    (hb : ∀ c, behind.head? = some c → isDelimiter c = true) :
    splitNetloc ('/' :: '/' :: (netloc ++ behind)) = (netloc, behind) := by
  have hinside : ∀ c ∈ netloc, (!isDelimiter c) = true := fun c hc => by simp [hn c hc]
  have hstop : behind.takeWhile (fun c => !isDelimiter c) = [] ∧
      behind.dropWhile (fun c => !isDelimiter c) = behind := by
    cases behind with
    | nil => exact ⟨rfl, rfl⟩
    | cons c cs => simp [hb c rfl]
  rw [splitNetloc_slashes, List.takeWhile_append_of_pos hinside,
    List.dropWhile_append_of_pos hinside, hstop.1, hstop.2, List.append_nil]

theorem splitScheme_shape {url : List Char} (h : (splitScheme url).1 ≠ []) :
    ∃ pre, ':' ∉ pre ∧ splitScheme (pre ++ [':']) = ((splitScheme url).1, []) ∧
      url = pre ++ ':' :: (splitScheme url).2 := by
  have hcolon : ':' ∈ url := by
    by_contra hn
    simp [splitScheme, partition_of_not_mem hn] at h
  obtain ⟨pre, rest, rfl, hpre⟩ := List.eq_append_cons_of_mem hcolon
  refine ⟨pre, hpre, ?_⟩
  unfold splitScheme at h ⊢
  rw [partition_cut _ hpre] at h ⊢
  rw [partition_cut _ hpre]
  cases pre with
  | nil => simp at h
  | cons c cs =>
    dsimp only at h ⊢
    by_cases hok : (isAsciiAlpha c && (c :: cs).all schemeChar) = true
    · rw [if_pos hok, if_pos hok]
      exact ⟨rfl, rfl⟩
    · simp only [if_neg hok, ne_eq, not_true_eq_false] at h

theorem splitNetloc_shape {url : List Char} (h : (splitNetloc url).1 ≠ []) :
    url = '/' :: '/' :: ((splitNetloc url).1 ++ (splitNetloc url).2) ∧
      (∀ c ∈ (splitNetloc url).1, isDelimiter c = false) ∧
      ∀ c, (splitNetloc url).2.head? = some c → isDelimiter c = true := by
  have hslashes : ∃ cs, url = '/' :: '/' :: cs := by
    unfold splitNetloc at h
    split at h
    · exact ⟨_, rfl⟩
    · exact absurd rfl h
  obtain ⟨cs, rfl⟩ := hslashes
  rw [splitNetloc_slashes]
  refine ⟨by simp, ?_, ?_⟩
  · intro c hc
    simpa using List.mem_takeWhile_imp hc
  · intro c hc
    have hstop := List.head?_dropWhile_not (fun c => !isDelimiter c) cs
    rw [hc] at hstop
    simpa using hstop

/-- A URL that was read with a scheme and an authority is put together from them. -/
theorem absolute_of_urlparse {s : String} {p : ParseResult} (h : urlparse s = .ok p)
    (hs : p.scheme ≠ []) (hn : p.netloc ≠ []) : ∃ pre, Absolute s.toList p pre := by
  obtain ⟨-, rfl⟩ := urlparse_ok_iff.mp h
  obtain ⟨pre, hcolon, hscheme, heq⟩ := splitScheme_shape hs
  obtain ⟨hnet, hinside, hbehind⟩ := splitNetloc_shape hn
  exact ⟨pre, heq.trans (congrArg (fun rest => pre ++ ':' :: rest) hnet), hscheme, hcolon, hinside,
    hbehind⟩

/-- Put together from its parts, a URL is read as these parts. -/
theorem Absolute.stages {p : ParseResult} {pre : List Char} (h : Absolute url p pre)
    {more : List Char}
    (hmore : ∀ c, (behindAuthority url ++ more).head? = some c → isDelimiter c = true)
    (heq : cleaned path = cleaned url ++ more) :
    (splitScheme (cleaned path)).1 = p.scheme ∧
      splitNetloc (splitScheme (cleaned path)).2 = (p.netloc, behindAuthority url ++ more) := by
  have hscheme : splitScheme (cleaned path) =
      (p.scheme, '/' :: '/' :: (p.netloc ++ (behindAuthority url ++ more))) := by
    rw [heq, h.eq, List.append_assoc]
    simpa using splitScheme_cut h.colon h.scheme _
  rw [hscheme]
  exact ⟨rfl, splitNetloc_cut h.netloc hmore⟩

/-- A path that is put behind a URL goes where the URL had got to. -/
theorem urlparse_append {s path : String} {p : ParseResult} (h : urlparse s = .ok p)
    (hs : p.scheme ≠ []) (hn : p.netloc ≠ []) (hpath : Plain path.toList) :
    urlparse (s ++ path) =
      .ok (parts p.scheme p.netloc (behindAuthority s.toList ++ path.toList)) := by
  obtain ⟨pre, habs⟩ := absolute_of_urlparse h hs hn
  have hcleaned : cleaned (s ++ path).toList = cleaned s.toList ++ path.toList := by
    rw [String.toList_append]
    refine cleaned_append hpath ?_
    rw [habs.eq]
    simp
  have hmore : ∀ c, (behindAuthority s.toList ++ path.toList).head? = some c →
      isDelimiter c = true := by
    intro c hc
    cases hb : behindAuthority s.toList with
    | nil =>
      rw [hb, List.nil_append, hpath.1] at hc
      cases hc
      rfl
    | cons d ds => exact habs.behind c (by rw [hb] at hc ⊢; exact hc)
  obtain ⟨hscheme, hnet⟩ := habs.stages hmore hcleaned
  obtain ⟨hok, hp⟩ := urlparse_ok_iff.mp h
  have hnetloc : p.netloc = (splitNetloc (splitScheme (cleaned s.toList)).2).1 := by
    rw [← hp]
    rfl
  refine urlparse_ok_iff.mpr ⟨?_, ?_⟩
  · rwa [hnet, hnetloc]
  · rw [behindAuthority, hnet, hscheme]

theorem parts_plain {scheme netloc : List Char} (h : Plain path) :
    parts scheme netloc path = ⟨scheme, netloc, path, [], [], []⟩ := by
  have hhash : '#' ∉ path := fun hc => (h.2 _ hc).2.2.1 rfl
  have hmark : '?' ∉ path := fun hc => (h.2 _ hc).2.1 rfl
  have hsemi : ';' ∉ path := fun hc => (h.2 _ hc).2.2.2 rfl
  simp [parts, partition_of_not_mem hhash, partition_of_not_mem hmark, pathParams, hsemi]

/-- Behind anything else than an authority, the path is not read as the path. -/
theorem parts_continued {scheme netloc behind name : List Char} (h : Plain ('/' :: name))
    (hname : '/' ∉ name) (heq : parts scheme netloc (behind ++ '/' :: name) =
      ⟨scheme, netloc, '/' :: name, [], [], []⟩) :
    behind = [] := by
  have hhash : '#' ∉ '/' :: name := fun hc => (h.2 _ hc).2.2.1 rfl
  have hmark : '?' ∉ '/' :: name := fun hc => (h.2 _ hc).2.1 rfl
  have hsemi : ';' ∉ '/' :: name := fun hc => (h.2 _ hc).2.2.2 rfl
  injection heq with _ _ hpath _ hquery hfragment
  -- a fragment or a query would have taken the path in
  have hb1 : '#' ∉ behind := by
    intro hc
    rw [partition_append _ hc] at hfragment
    simp at hfragment
  have hcut : partition '#' (behind ++ '/' :: name) = (behind ++ '/' :: name, false, []) :=
    partition_of_not_mem (by simp only [List.mem_append, not_or]; exact ⟨hb1, hhash⟩)
  rw [hcut] at hquery hpath
  have hb2 : '?' ∉ behind := by
    intro hc
    rw [partition_append _ hc] at hquery
    simp at hquery
  rw [partition_of_not_mem (by simp only [List.mem_append, not_or]; exact ⟨hb2, hmark⟩)] at hpath
  dsimp only at hpath
  have hwhole : (pathParams scheme (behind ++ '/' :: name)).1 = behind ++ '/' :: name := by
    unfold pathParams
    split
    · have hlast : ';' ∉ name := fun hc => hsemi (List.mem_cons_of_mem _ hc)
      simp [splitParams, rpartition_cut _ hname, partition_of_not_mem hlast]
    · rfl
  rw [hwhole] at hpath
  exact List.append_left_eq_self.mp hpath

/-! ### Characters of a kind -/

variable {special : Char → Bool}

theorem countP_cleaned (hsmall : ∀ c, special c = true → 32 < c.toNat) (url : List Char) :
    (cleaned url).countP special = url.countP special := by
  have hkept : ∀ c, special c = true →
      (c ≠ '\t' && c ≠ '\r' && c ≠ '\n') = true := by
    intro c hc
    have hbig := hsmall c hc
    simp only [ne_eq, Bool.and_eq_true, decide_eq_true_eq]
    refine ⟨⟨?_, ?_⟩, ?_⟩ <;> rintro rfl <;> simp at hbig
  have hlead : (url.takeWhile fun c => decide (c.toNat ≤ 32)).countP special = 0 := by
    refine List.countP_eq_zero.mpr fun c hc hs => ?_
    have hle : c.toNat ≤ 32 := by simpa using List.mem_takeWhile_imp hc
    exact absurd hle (Nat.not_le.mpr (hsmall c hs))
  have hboth : ∀ l : List Char, l.countP (fun c => special c &&
      (c ≠ '\t' && c ≠ '\r' && c ≠ '\n')) = l.countP special := by
    intro l
    refine List.countP_congr fun c _ => ?_
    rw [Bool.and_eq_true]
    exact ⟨And.left, fun hc => ⟨hc, hkept c hc⟩⟩
  conv_rhs =>
    rw [← List.takeWhile_append_dropWhile (l := url) (p := fun c => decide (c.toNat ≤ 32))]
  rw [cleaned, List.countP_filter, hboth, List.countP_append, hlead, Nat.zero_add]

/-- What a URL has of these characters is in its authority, if they are no part of a scheme and
    nothing is behind. -/
theorem countP_netloc (hfree : ∀ c, special c = true →
      32 < c.toNat ∧ schemeChar c = false ∧ c ≠ ':' ∧ c ≠ '/') {s : String} {p : ParseResult}
    (h : urlparse s = .ok p) (hs : p.scheme ≠ []) (hn : p.netloc ≠ []) :
    p.netloc.countP special ≤ s.toList.countP special ∧
      (behindAuthority s.toList = [] → s.toList.countP special = p.netloc.countP special) := by
  obtain ⟨pre, habs⟩ := absolute_of_urlparse h hs hn
  have hpre : pre.countP special = 0 := by
    refine List.countP_eq_zero.mpr fun c hc hsp => ?_
    have hscheme := scheme_chars habs.colon habs.scheme c hc
    simp [(hfree c hsp).2.1] at hscheme
  have hcolon : special ':' = false := by
    by_contra hc
    exact (hfree ':' (by simpa using hc)).2.2.1 rfl
  have hslash : special '/' = false := by
    by_contra hc
    exact (hfree '/' (by simpa using hc)).2.2.2 rfl
  have hcount := countP_cleaned (fun c hc => (hfree c hc).1) s.toList
  rw [habs.eq] at hcount
  simp only [List.countP_append, List.countP_cons, hpre, hcolon, hslash] at hcount
  refine ⟨by omega, fun hb => ?_⟩
  rw [hb] at hcount
  simp at hcount
  omega

end Continued

end DataRelay.Url
