import DataRelay.Relay.TokenPass

/-! What `redact_text` hides of a secret, and what it lets through. -/

namespace DataRelay.Relay.Audit
open Lib

/-! ### Both passes -/

theorem endsBearer_append {c : Char} (hc : isLetter (fold c) = false) (pre text : List Char) :
    endsBearer (pre ++ c :: text) = endsBearer text := by
  rw [Bool.eq_iff_iff]
  constructor
  · intro h
    obtain ⟨before, scheme, hsplit, hscheme⟩ := endsBearer_iff.mp h
    have hno : c ∉ scheme := fun hmem => by
      have hletter := isLetter_bearer _ (hscheme ▸ List.mem_map_of_mem hmem)
      rw [hc] at hletter
      cases hletter
    have hsuffix : scheme <:+ pre ++ c :: text := hsplit ▸ List.suffix_append before scheme
    rcases List.suffix_or_suffix_of_suffix hsuffix (List.suffix_append pre (c :: text)) with h | h
    · rcases List.suffix_cons_iff.mp h with rfl | h
      · exact absurd (by simp) hno
      · exact endsBearer_of_suffix h (endsBearer_iff.mpr ⟨[], scheme, rfl, hscheme⟩)
    · exact absurd (h.subset (by simp)) hno
  · exact endsBearer_of_suffix ((List.suffix_cons c text).trans (List.suffix_append pre _))

theorem endsBearer_nil : endsBearer [] = false := by decide

theorem closed_append {c : Char} (hc : isLetter (fold c) = false) {text : List Char}
    (hword : Word (c :: text) ∨ text ≠ [] ∧ Word text) (h : endsBearer text = false)
    (pre : List Char) : Closed (pre ++ c :: text) := by
  refine ⟨?_, by rw [endsBearer_append hc, h]⟩
  rw [List.getLast?_append_of_ne_nil _ (by simp), Option.all_eq_true]
  intro d hd
  have hmem := List.mem_of_getLast? hd
  rcases hword with hword | ⟨hne, hword⟩
  · simp [isWordChar, hword d hmem]
  · obtain ⟨e, es, rfl⟩ := List.exists_cons_of_ne_nil hne
    rw [List.getLast?_cons_cons] at hd
    simp [isWordChar, hword d (List.mem_of_getLast? hd)]

/-- Behind a closed text and a bar, a secret is seen. -/
theorem redact_shows {pre : List Char} (hpre : Closed pre) (post : List Char) :
    redact (pre ++ bar ++ '1' :: post) ≠ redact (pre ++ bar ++ '2' :: post) := by
  -- the bearer pass does the same up to the digit, whichever it is
  have hfirst : ∃ out, ∀ u, u = bar ++ ['1'] ∨ u = bar ++ ['2'] →
      bearerRe.sub (pre ++ u ++ post) = out ++ bearerRe.sub (u ++ post) := by
    refine Pattern.sub_kept (bearer_step_cut ?_) hpre
    rintro u (rfl | rfl)
    · exact ⟨' ', _, rfl, by decide⟩
    · exact ⟨' ', _, rfl, by decide⟩
  obtain ⟨out, hout⟩ := hfirst
  have hsub : ∀ d, isLetter (fold d) = false →
      (bar ++ [d] = bar ++ ['1'] ∨ bar ++ [d] = bar ++ ['2']) →
      redact (pre ++ bar ++ d :: post) =
        tokenKvRe.sub (out ++ bar ++ [d] ++ bearerRe.sub post) := by
    intro d hd hmem
    have hpass := hout _ hmem
    have hsigns : ∀ c ∈ bar ++ [d], isLetter (fold c) = false := by
      intro c hc
      have hbar : ∀ c ∈ bar, isLetter (fold c) = false :=
        List.all_iff_forall_prop.mp (by decide)
      rcases List.mem_append.mp hc with hc | hc
      · exact hbar c hc
      · rw [List.mem_singleton.mp hc, hd]
    rw [bearer_sub_signs post hsigns] at hpass
    have htext : pre ++ bar ++ d :: post = pre ++ (bar ++ [d]) ++ post := by simp
    rw [redact, htext, hpass]
    simp only [List.append_assoc]
  rw [hsub '1' (by decide) (.inl rfl), hsub '2' (by decide) (.inr rfl)]
  exact tokenKv_shows out (bearerRe.sub post)

/-! ### Pairs -/

theorem endsBearer_keyValue (key secret : List Char) :
    endsBearer (keyValue key secret) = endsBearer secret := endsBearer_append (by decide) key secret

/-- The scheme would end inside the key, where no blank is. -/
theorem apart_keyValue {key secret : List Char} (hkey : Sensitive key) (hs : Plain secret) :
    Apart (keyValue key secret) := by
  refine ⟨(hs.keyValue hkey).word, by simp [keyValue], fun pre post _ hlt => ?_⟩
  have hlen := hkey.length
  cases hword : behindWord bearer (pre ++ (keyValue key secret ++ post)) with
  | none => exact bearerRun_of_none hword
  | some behind =>
    have hbehind : behind = key.drop (6 - pre.length) ++ '=' :: (secret ++ post) := by
      unfold behindWord at hword
      split at hword
      · rw [← Option.some.inj hword, length_bearer, List.drop_append,
          List.drop_of_length_le (by rw [length_bearer] at hlt; omega), List.nil_append, keyValue,
          List.append_assoc, List.drop_append_of_le_length (by omega)]
        rfl
      · cases hword
    have hrest : Word (key.drop (6 - pre.length)) :=
      hkey.word.sublist fun c hc => List.mem_of_mem_drop hc
    have hne : key.drop (6 - pre.length) ≠ [] := fun hnil => by
      have hl := congrArg List.length hnil
      rw [List.length_drop, List.length_nil] at hl
      rw [length_bearer] at hlt
      omega
    rw [bearerRun_of_some hword, hbehind, if_pos (.inl (hrest.takeWhile hne _))]

theorem keyValue_append (key before scheme : List Char) :
    keyValue key before ++ scheme = keyValue key (before ++ scheme) := by
  simp [keyValue]

/-- The first pass comes to the scheme that a secret ends with. -/
theorem bearer_sub_secret {key before scheme post : List Char} (hkey : Sensitive key)
    (hs : Plain (before ++ scheme)) (hscheme : scheme.map fold = bearer) (hpost : Blank post) :
    bearerRe.sub (keyValue key (before ++ scheme) ++ post) =
      keyValue key before ++ bearerRe.sub (scheme ++ post) := by
  have hword : Word (keyValue key before) := (hs.keyValue hkey).word.sublist fun c hc => by
    rw [← keyValue_append]
    exact List.mem_append_left _ hc
  rw [← keyValue_append, List.append_assoc, bearer_sub_scheme hword hscheme hpost]

/-- After the first pass, what is behind a pair depends on how its secret ends. -/
theorem bearer_sub_keyValue {key post : List Char} (hkey : Sensitive key) (hpost : Blank post)
    (ends : Bool) : ∃ post', Blank post' ∧ ∀ secret, Plain secret → endsBearer secret = ends →
      bearerRe.sub (keyValue key secret ++ post) = keyValue key secret ++ post' := by
  cases ends with
  | false =>
    obtain ⟨t, cs, rfl, ht⟩ := hpost
    refine ⟨bearerRe.sub (t :: cs), ⟨t, _, bearer_sub_cons (fold_of_isSpace ht) cs, ht⟩, ?_⟩
    intro secret hs hends
    exact bearer_sub_word (hs.keyValue hkey).word ((endsBearer_keyValue key secret).trans hends)
      (.inr ⟨t, cs, rfl, ht⟩)
  | true =>
    obtain ⟨post', hblank, hbehind⟩ := bearer_sub_behind hpost
    refine ⟨post', hblank, fun secret hs hends => ?_⟩
    obtain ⟨before, scheme, rfl, hscheme⟩ := endsBearer_iff.mp hends
    rw [bearer_sub_secret hkey hs hscheme hpost, hbehind scheme hscheme, ← List.append_assoc,
      keyValue_append]

/-- The secrets of a pair that end alike are redacted alike. -/
theorem redact_keyValue {key post : List Char} (hkey : Sensitive key) (hpost : Blank post)
    (pre : List Char) {secret secret' : List Char} (hs : Plain secret) (hs' : Plain secret')
    (hne : secret ≠ []) (hne' : secret' ≠ []) (hends : endsBearer secret = endsBearer secret') :
    redact (pre ++ keyValue key secret ++ post) = redact (pre ++ keyValue key secret' ++ post) := by
  have hstep : ∀ pre, True → pre ≠ [] → bearerRe.Step (fun u => ∃ s, Plain s ∧ s ≠ [] ∧
      endsBearer s = endsBearer secret ∧ u = keyValue key s) post (fun _ => True) True pre := by
    intro pre _ hpre
    refine bearer_step_apart ?_ (.inr hpost) pre hpre
    rintro u ⟨s, hs, -, -, rfl⟩
    exact apart_keyValue hkey hs
  rw [redact, redact]
  rcases Pattern.sub_middle hstep pre trivial with ⟨out, hout⟩ | ⟨-, out, post', hout⟩
  · obtain ⟨post', hblank, hbehind⟩ := bearer_sub_keyValue hkey hpost (endsBearer secret)
    rw [hout _ ⟨secret, hs, hne, rfl, rfl⟩, hout _ ⟨secret', hs', hne', hends.symm, rfl⟩,
      hbehind secret hs rfl, hbehind secret' hs' hends.symm, ← List.append_assoc,
      ← List.append_assoc]
    exact tokenKv_hides hkey hblank out ⟨secret, hne, hs, rfl⟩ ⟨secret', hne', hs', rfl⟩
  · rw [hout _ ⟨secret, hs, hne, rfl, rfl⟩, hout _ ⟨secret', hs', hne', hends.symm, rfl⟩]

/-- What is behind the key when a pair stands before a blank and the word `z`. -/
def tail (secret : List Char) : List Char :=
  if secret = [] then ' ' :: redacted
  else if endsBearer secret = true then redacted ++ ' ' :: redacted
  else redacted ++ [' ', 'z']

theorem redact_tail {key secret : List Char} (hkey : Sensitive key) (hs : Plain secret) :
    redact (keyValue key secret ++ [' ', 'z']) = key ++ '=' :: tail secret := by
  have hblank : Blank [' ', 'z'] := ⟨' ', ['z'], rfl, by decide⟩
  have hkeyed : ∀ post, Blank post → secret ≠ [] →
      tokenKvRe.sub (keyValue key secret ++ post) =
        key ++ '=' :: (redacted ++ tokenKvRe.sub post) := by
    intro post hpost hne
    rw [Pattern.sub_some (tokenKv_run_key hkey hs hne hpost [] (.inl rfl))]
    simp
  have hfree : endsBearer secret = false → bearerRe.sub (keyValue key secret ++ [' ', 'z']) =
      keyValue key secret ++ [' ', 'z'] := fun hends =>
    (bearer_sub_word (hs.keyValue hkey).word ((endsBearer_keyValue key secret).trans hends)
      (.inr hblank)).trans (congrArg (keyValue key secret ++ ·) (by decide))
  have hlast : tokenKvRe.sub [' ', 'z'] = [' ', 'z'] := by decide
  rw [redact, tail]
  by_cases hnil : secret = []
  · subst hnil
    rw [hfree endsBearer_nil, if_pos rfl]
    have htext : keyValue key [] ++ [' ', 'z'] = key ++ ['=', ' '] ++ ['z'] := by simp [keyValue]
    have hbehind : behindKey (key ++ ['=', ' '] ++ ['z']) = some ['z'] := by
      obtain ⟨t, ts, rfl, ht⟩ := hkey.cons
      have hquote :
          behindQuote (t :: ts ++ ['=', ' '] ++ ['z']) = t :: ts ++ '=' :: [' ', 'z'] := by
        simpa using behindQuote_letter ht (ts ++ ['=', ' ', 'z'])
      rw [behindKey, hquote, behindKey_key hkey]
      decide
    have hrun := tokenKvRun_of_key hbehind (show behindValue ['z'] = some [] by decide)
    rw [htext, Pattern.sub_some hrun]
    simp
  · rw [if_neg hnil]
    cases hends : endsBearer secret with
    | false =>
      rw [hfree hends, hkeyed _ hblank hnil, hlast]
      simp
    | true =>
      obtain ⟨before, scheme, rfl, hscheme⟩ := endsBearer_iff.mp hends
      obtain ⟨post', hpost', hbehind⟩ := bearer_sub_behind hblank
      have hconcrete : bearer ++ post' = bearer ++ ' ' :: redacted := by
        rw [← hbehind bearer (by decide)]
        decide
      obtain rfl := List.append_cancel_left hconcrete
      rw [bearer_sub_secret hkey hs hscheme hblank, hbehind scheme hscheme, ← List.append_assoc,
        keyValue_append, hkeyed _ hpost' hnil]
      have hrest : tokenKvRe.sub (' ' :: redacted) = ' ' :: redacted := by decide
      rw [hrest]
      simp

theorem tail_inj {secret secret' : List Char} (h : tail secret = tail secret') :
    (secret = [] ↔ secret' = []) ∧ endsBearer secret = endsBearer secret' := by
  have hdiffer : ' ' :: redacted ≠ redacted ++ ' ' :: redacted ∧
      ' ' :: redacted ≠ redacted ++ [' ', 'z'] ∧
      redacted ++ ' ' :: redacted ≠ redacted ++ [' ', 'z'] := by decide
  obtain ⟨h1, h2, h3⟩ := hdiffer
  unfold tail at h
  by_cases hnil : secret = []
  · by_cases hnil' : secret' = []
    · simp [hnil, hnil']
    · rw [if_pos hnil, if_neg hnil'] at h
      split at h
      · exact absurd h h1
      · exact absurd h h2
  · by_cases hnil' : secret' = []
    · rw [if_neg hnil, if_pos hnil'] at h
      split at h
      · exact absurd h.symm h1
      · exact absurd h.symm h2
    · rw [if_neg hnil, if_neg hnil'] at h
      refine ⟨by simp [hnil, hnil'], ?_⟩
      cases hends : endsBearer secret <;> cases hends' : endsBearer secret' <;>
        simp only [hends, hends', if_true, Bool.false_eq_true, if_false] at h ⊢
      · exact absurd h.symm h3
      · exact absurd h h3

/-! ### Header lines -/

def headerName : List Char := "Authorization:".toList

/-- `Authorization: X s`. -/
def headerText (scheme secret : List Char) : List Char :=
  headerName ++ ' ' :: (scheme ++ ' ' :: secret)

theorem closed_headerName (pre : List Char) : Closed (pre ++ headerName) := by
  have hcolon : Word [':'] := fun c hc => by
    rw [List.mem_singleton.mp hc]
    decide
  have hclosed := closed_append (by decide) (.inl hcolon) endsBearer_nil
    (pre ++ "Authorization".toList)
  have htext : pre ++ "Authorization".toList ++ [':'] = pre ++ headerName := by
    rw [List.append_assoc]
    rfl
  rwa [htext] at hclosed

/-- The first pass comes to the scheme of a header line. -/
theorem bearer_sub_header {before word post : List Char} (hbefore : Word before)
    (hword : word.map fold = bearer) (pre : List Char) :
    ∃ out, ∀ secret, bearerRe.sub (pre ++ headerText (before ++ word) secret ++ post) =
      out ++ bearerRe.sub (word ++ ' ' :: (secret ++ post)) := by
  have hkept : ∃ out, ∀ u, (∃ secret, u = ' ' :: (before ++ word ++ ' ' :: secret)) →
      bearerRe.sub (pre ++ headerName ++ u ++ post) = out ++ bearerRe.sub (u ++ post) :=
    Pattern.sub_kept (bearer_step_cut fun u ⟨_, hu⟩ => ⟨' ', _, hu, by decide⟩)
      (closed_headerName pre)
  obtain ⟨out, hout⟩ := hkept
  refine ⟨out ++ ' ' :: before, fun secret => ?_⟩
  have hblank : Blank (' ' :: (secret ++ post)) := ⟨' ', _, rfl, by decide⟩
  have htext : pre ++ headerText (before ++ word) secret ++ post =
      pre ++ headerName ++ ' ' :: (before ++ word ++ ' ' :: secret) ++ post := by
    simp [headerText]
  have hbehind : ' ' :: (before ++ word ++ ' ' :: secret) ++ post =
      ' ' :: (before ++ (word ++ ' ' :: (secret ++ post))) := by simp
  rw [htext, hout _ ⟨secret, rfl⟩, hbehind, bearer_sub_cons (by decide),
    bearer_sub_scheme hbefore hword hblank]
  simp

/-- The first pass redacts the word behind the scheme. -/
theorem bearer_sub_value {word secret post : List Char} (hword : word.map fold = bearer)
    (hs : Word secret) (hne : secret ≠ []) (hpost : post = [] ∨ Blank post) :
    bearerRe.sub (word ++ ' ' :: (secret ++ post)) =
      word ++ ' ' :: redacted ++ bearerRe.sub post := by
  have hspace : isSpace ' ' = true := by decide
  have hskip : (secret ++ post).dropWhile isWordChar = post := by
    rw [dropWhile_isWordChar_append hpost, List.dropWhile_eq_nil_iff.mpr fun c hc => by
      simp [isWordChar, hs c hc], List.nil_append]
  have hrun := bearerRun_of_scheme hword (' ' :: (secret ++ post))
  have htake : (word ++ ' ' :: (secret ++ post)).take
      ((word ++ ' ' :: (secret ++ post)).length - (secret ++ post).length) = word ++ [' '] := by
    have hsplit := take_behind (word ++ [' ']) (secret ++ post)
    simpa using hsplit
  rw [List.takeWhile_cons_of_pos hspace, List.dropWhile_cons_of_pos hspace,
    hs.dropWhile_isSpace hne, hskip, htake, if_neg (by simp [hne])] at hrun
  rw [Pattern.sub_some hrun]
  simp

/-- A scheme that ends in `bearer` hides what is behind it. -/
theorem redact_header {scheme post : List Char} (hscheme : Word scheme)
    (hends : endsBearer scheme = true) (pre : List Char) (hpost : post = [] ∨ Blank post)
    {secret secret' : List Char} (hs : Word secret) (hs' : Word secret') (hne : secret ≠ [])
    (hne' : secret' ≠ []) :
    redact (pre ++ headerText scheme secret ++ post) =
      redact (pre ++ headerText scheme secret' ++ post) := by
  obtain ⟨before, word, rfl, hword⟩ := endsBearer_iff.mp hends
  have hbefore : Word before := hscheme.sublist fun c hc => List.mem_append_left _ hc
  obtain ⟨out, hout⟩ := @bearer_sub_header before word post hbefore hword pre
  rw [redact, redact, hout, hout, bearer_sub_value hword hs hne hpost,
    bearer_sub_value hword hs' hne' hpost]

theorem tokenKv_step_blank (pre : List Char) (hne : pre ≠ []) :
    tokenKvRe.Step (· = [' ']) [] (fun _ => True) False pre := by
  have hkey : behindKey (pre ++ [' '] ++ []) = (behindKey pre).map (resume []) := by
    rw [List.append_nil]
    exact behindKey_blank (fun c cs h => by cases h) pre
  have hnone : tokenKvRun (pre ++ [' '] ++ []) = none →
      tokenKvRe.Step (· = [' ']) [] (fun _ => True) False pre := by
    intro h
    cases pre with
    | nil => exact absurd rfl hne
    | cons c cs => exact .none c cs (fun u hu => hu ▸ h) trivial
  cases hmatch : behindKey pre with
  | none => exact hnone (tokenKvRun_of_none (by rw [hkey, hmatch]; rfl))
  | some value =>
    obtain ⟨⟨head, rfl⟩, hlt⟩ := behindKey_some hmatch
    rw [hmatch] at hkey
    cases value with
    | nil =>
      refine hnone ?_
      rw [tokenKvRun, hkey]
      rfl
    | cons c cs =>
      have htext : head ++ c :: cs ++ [' '] ++ [] = head ++ (c :: (cs ++ [' '])) := by simp
      have hrun : ∀ rest, behindValue (c :: (cs ++ [' '])) = some rest →
          tokenKvRun (head ++ c :: cs ++ [' '] ++ []) = some (head ++ redacted, rest) := by
        intro rest hvalue
        rw [htext] at hkey ⊢
        exact tokenKvRun_of_key hkey hvalue
      have hvalue := behindValue_cons (behindKey_cons hmatch) (cs ++ [' '])
      have hshort : ∀ pre' : List Char, pre' <:+ cs → pre'.length < (head ++ c :: cs).length := by
        intro pre' hsuffix
        have hl := hsuffix.length_le
        simp only [List.length_append, List.length_cons]
        omega
      -- a quoted value runs to its closing quote, any other one to the first blank
      by_cases hquote : isQuote c = true ∧ c ∈ cs
      · refine .before (head ++ redacted) (afterQuote c cs) (fun u hu => ?_) trivial
          (hshort _ (afterQuote_suffix c cs))
        rw [if_pos ⟨hquote.1, by simp [hquote.2]⟩, afterQuote_append hquote.2] at hvalue
        rw [hu, List.append_nil (afterQuote c cs ++ [' '])]
        exact hrun _ hvalue
      · refine .before (head ++ redacted) (cs.dropWhile isWordChar) (fun u hu => ?_) trivial
          (hshort _ (List.dropWhile_suffix _))
        have hopen : ¬ (isQuote c = true ∧ c ∈ cs ++ [' ']) := by
          rintro ⟨hq, hmem⟩
          rcases List.mem_append.mp hmem with hmem | hmem
          · exact hquote ⟨hq, hmem⟩
          · rw [List.mem_singleton.mp hmem] at hq
            exact absurd hq (by decide)
        rw [if_neg hopen, dropWhile_isWordChar_append (.inr ⟨' ', [], rfl, by decide⟩)] at hvalue
        rw [hu, List.append_nil (cs.dropWhile isWordChar ++ [' '])]
        exact hrun _ hvalue

/-- The second pass leaves a blank at the end of a text. -/
theorem tokenKv_sub_blank (text : List Char) :
    (tokenKvRe.sub (text ++ [' '])).getLast? = some ' ' := by
  obtain ⟨out, hout⟩ := Pattern.sub_kept (fun pre _ => tokenKv_step_blank pre)
    (show (fun _ => True) text from trivial)
  have hend := hout [' '] rfl
  rw [List.append_nil] at hend
  rw [hend, List.getLast?_append_of_ne_nil _ (by decide)]
  decide

/-- The second pass leaves the bracket at the end of a redacted text. -/
theorem tokenKv_sub_redacted (text : List Char) :
    (tokenKvRe.sub (text ++ redacted)).getLast? = some ']' := by
  refine Pattern.sub_getLast? (fun hrun => ?_) _ ?_
  · obtain ⟨value, hkey, hvalue, rfl⟩ := tokenKvRun_some hrun
    refine ⟨?_, (behindValue_suffix hvalue).trans (behindKey_some hkey).1⟩
    rw [List.getLast?_append_of_ne_nil _ (by decide)]
    decide
  · rw [List.getLast?_append_of_ne_nil _ (by decide)]
    decide

/-- A header without a secret is told from one with a secret. -/
theorem redact_header_empty {scheme secret : List Char} (hscheme : Word scheme)
    (hends : endsBearer scheme = true) (hs : Word secret) (hne : secret ≠ []) :
    redact (headerText scheme []) ≠ redact (headerText scheme secret) := by
  obtain ⟨before, word, rfl, hword⟩ := endsBearer_iff.mp hends
  have hbefore : Word before := hscheme.sublist fun c hc => List.mem_append_left _ hc
  obtain ⟨out, hout⟩ := @bearer_sub_header before word [] hbefore hword []
  obtain ⟨post', -, hbehind⟩ := bearer_sub_behind (show Blank [' '] from ⟨' ', [], rfl, by decide⟩)
  have hconcrete : bearer ++ post' = bearer ++ [' '] := by
    rw [← hbehind bearer (by decide)]
    decide
  obtain rfl := List.append_cancel_left hconcrete
  have hempty := hout []
  have hfull := hout secret
  rw [bearer_sub_value hword hs hne (.inl rfl), Pattern.sub_nil] at hfull
  simp only [List.nil_append, List.append_nil] at hempty hfull
  rw [hbehind word hword] at hempty
  intro heq
  rw [redact, redact, hempty, hfull] at heq
  have hlast := congrArg List.getLast? heq
  have hsplit : out ++ (word ++ ' ' :: redacted) = out ++ word ++ [' '] ++ redacted := by simp
  rw [← List.append_assoc, tokenKv_sub_blank, hsplit, tokenKv_sub_redacted] at hlast
  exact absurd hlast (by decide)

/-! ### What is hidden -/

/-- `k=s`. -/
def keyValueText (key secret : String) : String := key ++ "=" ++ secret

/-- `Authorization: X s`. -/
def headerLine (scheme secret : String) : String := "Authorization: " ++ scheme ++ " " ++ secret

/-- `json.dumps({k: s})`. -/
def jsonObject (key secret : String) : String :=
  String.ofList ('{' :: Json.strText key ++ [':', ' '] ++ Json.strText secret ++ ['}'])

/-- The two secrets of a pair give the same output, in every text where white space follows. -/
def HidesPair (key secret secret' : String) : Prop :=
  ∀ before after : String, Blank after.toList →
    redactText (before ++ keyValueText key secret ++ after) =
      redactText (before ++ keyValueText key secret' ++ after)

/-- The two secrets of a header line give the same output, in every text where the line ends. -/
def HidesHeader (scheme secret secret' : String) : Prop :=
  ∀ before after : String, after.toList = [] ∨ Blank after.toList →
    redactText (before ++ headerLine scheme secret ++ after) =
      redactText (before ++ headerLine scheme secret' ++ after)

theorem redactText_eq_iff {a b : String} :
    redactText a = redactText b ↔ redact a.toList = redact b.toList := by
  rw [redactText, redactText, String.ofList_inj]

theorem toList_headerLine (scheme secret : String) :
    (headerLine scheme secret).toList = headerText scheme.toList secret.toList := by
  have hname : "Authorization: ".toList = headerName ++ [' '] := rfl
  show ("Authorization: " ++ scheme ++ " " ++ secret).toList = _
  rw [String.toList_append, String.toList_append, String.toList_append, hname, headerText]
  simp

theorem toList_keyValueText (key secret : String) :
    (keyValueText key secret).toList = keyValue key.toList secret.toList := by
  simp only [keyValueText, keyValue, String.toList_append, List.append_assoc]
  rfl

theorem hidesPair_iff {key secret secret' : String} (hkey : Sensitive key.toList)
    (hs : Plain secret.toList) (hs' : Plain secret'.toList) :
    HidesPair key secret secret' ↔ (secret = "" ↔ secret' = "") ∧
      endsBearer secret.toList = endsBearer secret'.toList := by
  have hnil : ∀ s : String, s.toList = [] ↔ s = "" := fun s => String.toList_eq_nil_iff
  constructor
  · -- the two ways to differ show when another word follows
    intro h
    have hz := h "" " z" ⟨' ', ['z'], rfl, by decide⟩
    rw [redactText_eq_iff] at hz
    simp only [String.toList_append, toList_keyValueText] at hz
    have htail := (redact_tail hkey hs).symm.trans (hz.trans (redact_tail hkey hs'))
    have hinj := tail_inj (List.cons.inj (List.append_cancel_left htail)).2
    rwa [hnil, hnil] at hinj
  · rintro ⟨hempty, hends⟩ before after hafter
    by_cases hsecret : secret = ""
    · rw [hsecret, hempty.mp hsecret]
    · rw [redactText_eq_iff]
      simp only [String.toList_append, toList_keyValueText]
      exact redact_keyValue hkey hafter before.toList hs hs' (mt (hnil secret).mp hsecret)
        (mt (hnil secret').mp (mt hempty.mpr hsecret)) hends

theorem hidesHeader_iff {scheme secret secret' : String} (hscheme : Word scheme.toList)
    (hends : endsBearer scheme.toList = true) (hs : Word secret.toList)
    (hs' : Word secret'.toList) :
    HidesHeader scheme secret secret' ↔ (secret = "" ↔ secret' = "") := by
  have hnil : ∀ s : String, s.toList = [] ↔ s = "" := fun s => String.toList_eq_nil_iff
  have hdiffer : ∀ s : String, Word s.toList → s ≠ "" →
      redactText (headerLine scheme "") ≠ redactText (headerLine scheme s) := by
    intro s hs hne heq
    rw [redactText_eq_iff, toList_headerLine, toList_headerLine] at heq
    exact redact_header_empty hscheme hends hs (mt (hnil s).mp hne) heq
  constructor
  · intro h
    have hplain :
        redactText (headerLine scheme secret) = redactText (headerLine scheme secret') := by
      simpa using h "" "" (.inl rfl)
    constructor
    · rintro rfl
      by_contra hne
      exact hdiffer secret' hs' hne hplain
    · rintro rfl
      by_contra hne
      exact hdiffer secret hs hne hplain.symm
  · intro hempty before after hafter
    by_cases hsecret : secret = ""
    · rw [hsecret, hempty.mp hsecret]
    · rw [redactText_eq_iff]
      simp only [String.toList_append, toList_headerLine]
      exact redact_header hscheme hends before.toList hafter hs hs' (mt (hnil secret).mp hsecret)
        (mt (hnil secret').mp (mt hempty.mpr hsecret))

/-- A scheme that does not end in `bearer` lets a secret through in every text. -/
theorem header_shows {scheme : String} (hscheme : Word scheme.toList) (hne : scheme ≠ "")
    (hends : endsBearer scheme.toList = false) (before after : String) :
    ∃ secret secret', Word secret.toList ∧ Word secret'.toList ∧ secret ≠ "" ∧ secret' ≠ "" ∧
      redactText (before ++ headerLine scheme secret ++ after) ≠
        redactText (before ++ headerLine scheme secret' ++ after) := by
  have hclosed := closed_append (c := ' ') (by decide)
    (.inr ⟨mt String.toList_eq_nil_iff.mp hne, hscheme⟩) hends (before.toList ++ headerName)
  have hword : ∀ d, isSpace d = false → Word (String.ofList (bar.tail ++ [d])).toList := by
    intro d hd c hc
    have htail : ∀ c ∈ bar.tail, isSpace c = false := List.all_iff_forall_prop.mp (by decide)
    rw [String.toList_ofList] at hc
    rcases List.mem_append.mp hc with hc | hc
    · exact htail c hc
    · rw [List.mem_singleton.mp hc, hd]
  have htext : ∀ d,
      (before ++ headerLine scheme (String.ofList (bar.tail ++ [d])) ++ after).toList =
        before.toList ++ headerName ++ ' ' :: scheme.toList ++ bar ++ d :: after.toList := by
    intro d
    simp [toList_headerLine, headerText, bar]
  refine ⟨_, _, hword '1' (by decide), hword '2' (by decide), by decide, by decide, fun heq => ?_⟩
  rw [redactText_eq_iff, htext, htext] at heq
  exact redact_shows hclosed after.toList heq

/-- The encoding of a secret that begins with a quote ends the value that is redacted. -/
theorem json_shows (key before after : String) :
    ∃ secret secret', redactText (before ++ jsonObject key secret ++ after) ≠
      redactText (before ++ jsonObject key secret' ++ after) := by
  have hcolon : Word [':'] := fun c hc => by
    rw [List.mem_singleton.mp hc]
    decide
  have hclosed := closed_append (by decide) (.inl hcolon) endsBearer_nil
    (before.toList ++ '{' :: Json.strText key)
  have htext : ∀ d, Json.escape d = [d] →
      (before ++ jsonObject key (String.ofList ['"', '\'', d]) ++ after).toList =
        before.toList ++ '{' :: Json.strText key ++ [':'] ++ bar ++
          d :: ('"' :: '}' :: after.toList) := by
    intro d hd
    have hsecret : Json.strText (String.ofList ['"', '\'', d]) = bar.tail ++ [d, '"'] := by
      have hquote : Json.escape '"' = ['\\', '"'] := by decide
      have hsingle : Json.escape '\'' = ['\''] := by decide
      simp [Json.strText_eq, hquote, hsingle, hd, bar]
    simp only [jsonObject, String.toList_append, String.toList_ofList, hsecret]
    simp [bar]
  refine ⟨String.ofList ['"', '\'', '1'], String.ofList ['"', '\'', '2'], fun heq => ?_⟩
  rw [redactText_eq_iff, htext '1' (by decide), htext '2' (by decide)] at heq
  exact redact_shows hclosed _ heq

end DataRelay.Relay.Audit
