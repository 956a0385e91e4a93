import Mathlib.Data.List.DropRight
import DataRelay.Relay.BearerPass

/-! The second pass of the redaction: what it hides of a pair, and what gets around it. -/

namespace DataRelay.Relay.Audit
open Lib

/-! ### Keys -/

theorem findSome?_congr {α β : Type} {f g : α → Option β} :
    ∀ {l : List α}, (∀ a ∈ l, f a = g a) → l.findSome? f = l.findSome? g
  | [], _ => rfl
  | a :: l, h => by
    obtain ⟨ha, hl⟩ := List.forall_mem_cons.mp h
    rw [List.findSome?_cons, List.findSome?_cons, ha, findSome?_congr hl]

/-- If one element alone answers, it gives the answer. -/
theorem findSome?_unique {α β : Type} {f : α → Option β} {a : α} {b : β} (ha : f a = some b) :
    ∀ {l : List α}, a ∈ l → (∀ x ∈ l, x ≠ a → f x = none) → l.findSome? f = some b
  | [], hmem, _ => by cases hmem
  | x :: l, hmem, h => by
    obtain ⟨hx, hl⟩ := List.forall_mem_cons.mp h
    rw [List.findSome?_cons]
    by_cases heq : x = a
    · rw [heq, ha]
    · rw [hx heq]
      exact findSome?_unique ha ((List.mem_cons.mp hmem).resolve_left (Ne.symm heq)) hl

theorem behindQuote_append {pre : List Char} {t : Char} (ht : t ≠ '"') (post : List Char) :
    behindQuote (pre ++ t :: post) = behindQuote pre ++ t :: post := by
  match pre with
  | [] => simp [behindQuote, ht]
  | c :: cs =>
    by_cases hc : c = '"'
    · subst hc
      rfl
    · simp [behindQuote, hc]

/-- What goes on with another character has its separator before that one. -/
theorem behindSeparator_append {t : Char} (hspace : isSpace t = false) (hquote : t ≠ '"')
    (hsep : ¬ (t = ':' ∨ t = '=')) (pre post : List Char) :
    behindSeparator (pre ++ t :: post) = (behindSeparator pre).map (· ++ t :: post) := by
  have hdrop : ∀ l : List Char, (l ++ t :: post).dropWhile isSpace =
      l.dropWhile isSpace ++ t :: post := by
    intro l
    by_cases hl : l.dropWhile isSpace = []
    · rw [dropWhile_append_nil hl, hl]
      simp [hspace]
    · exact dropWhile_append_ne hl _
  unfold behindSeparator
  rw [behindQuote_append hquote, hdrop]
  cases hrest : (behindQuote pre).dropWhile isSpace with
  | nil => simp [hsep]
  | cons c rest =>
    simp only [List.cons_append, hdrop]
    split <;> rfl

/-- Behind a blank, the value may begin with what is behind the blank. -/
def resume (post rest : List Char) : List Char := if rest = [] then post else rest ++ ' ' :: post

/-- No separator behind the blank. -/
def NoSeparator (post : List Char) : Prop :=
  ∀ c cs, post = c :: cs → isSpace c = false ∧ c ≠ ':' ∧ c ≠ '='

theorem behindSeparator_blank {post : List Char} (hpost : NoSeparator post) (pre : List Char) :
    behindSeparator (pre ++ ' ' :: post) = (behindSeparator pre).map (resume post) := by
  have hspace : isSpace ' ' = true := by decide
  have hbehind : (' ' :: post).dropWhile isSpace = post := by
    rw [List.dropWhile_cons_of_pos hspace]
    cases post with
    | nil => rfl
    | cons c cs => simp [(hpost c cs rfl).1]
  unfold behindSeparator
  rw [behindQuote_append (by decide)]
  by_cases hrest : (behindQuote pre).dropWhile isSpace = []
  · rw [dropWhile_append_nil hrest, hbehind, hrest]
    cases post with
    | nil => rfl
    | cons c cs => simp [hpost c cs rfl]
  · rw [dropWhile_append_ne hrest]
    cases hcons : (behindQuote pre).dropWhile isSpace with
    | nil => exact absurd hcons hrest
    | cons c rest =>
      simp only [List.cons_append]
      split
      · rw [Option.map_some, resume]
        by_cases hvalue : rest.dropWhile isSpace = []
        · rw [dropWhile_append_nil hvalue, hbehind, if_pos hvalue]
        · rw [dropWhile_append_ne hvalue, if_neg hvalue]
      · rfl

theorem behindSeparator_letter {c : Char} (h : isLetter (fold c) = true) (cs : List Char) :
    behindSeparator (c :: cs) = none := by
  obtain ⟨hspace, hquote, -, hcolon, hequals⟩ := plain_of_fold h
  exact behindSeparator_append hspace hquote (not_or.mpr ⟨hcolon, hequals⟩) [] cs

theorem behindSeparator_dropWhile {text value : List Char} (h : behindSeparator text = some value) :
    value.dropWhile isSpace = value := by
  unfold behindSeparator at h
  split at h
  · cases h
  · split at h
    · rw [← Option.some.inj h, List.dropWhile_idempotent]
    · cases h

theorem behindKey_dropWhile {text value : List Char} (h : behindKey text = some value) :
    value.dropWhile isSpace = value := by
  obtain ⟨name, -, hmatch⟩ := List.exists_of_findSome?_eq_some h
  obtain ⟨rest, -, hsep⟩ := Option.bind_eq_some_iff.mp hmatch
  exact behindSeparator_dropWhile hsep

/-- A blank ends the search for a key. -/
theorem behindKey_blank {post : List Char} (hpost : NoSeparator post) (pre : List Char) :
    behindKey (pre ++ ' ' :: post) = (behindKey pre).map (resume post) := by
  have hname : ∀ name ∈ tokenNames,
      (behindWord name (behindQuote (pre ++ ' ' :: post))).bind behindSeparator =
        ((behindWord name (behindQuote pre)).bind behindSeparator).map (resume post) := by
    intro name hname
    rw [behindQuote_append (by decide), behindWord_append (isLetter_tokenNames name hname) _
      (fold_of_isSpace (by decide))]
    cases behindWord name (behindQuote pre) with
    | none => rfl
    | some rest => exact behindSeparator_blank hpost rest
  rw [behindKey, behindKey, List.map_findSome?]
  exact findSome?_congr hname

/-- A key that the second pattern knows. -/
def Sensitive (key : List Char) : Prop := key.map fold ∈ tokenNames

theorem Sensitive.letters {key : List Char} (h : Sensitive key) :
    ∀ c ∈ key, isLetter (fold c) = true :=
  fun _ hc => isLetter_tokenNames _ h _ (List.mem_map_of_mem hc)

theorem Sensitive.length {key : List Char} (h : Sensitive key) : 6 < key.length := by
  have hlong : ∀ name ∈ tokenNames, 6 < name.length := by decide
  have hlen := hlong _ h
  rwa [List.length_map] at hlen

theorem Sensitive.word {key : List Char} (h : Sensitive key) : Word key :=
  fun c hc => (plain_of_fold (h.letters c hc)).1

theorem Sensitive.cons {key : List Char} (h : Sensitive key) :
    ∃ c cs, key = c :: cs ∧ isLetter (fold c) = true := by
  cases key with
  | nil => exact absurd h.length (by decide)
  | cons c cs => exact ⟨c, cs, rfl, h.letters c (by simp)⟩

/-- A name that begins before a key and is not done when the key is, has no separator behind it. -/
theorem behindWord_key {key name pre rest : List Char} (hkey : Sensitive key)
    (hname : name ∈ tokenNames) (hne : pre.map fold ++ key.map fold ≠ name) :
    (behindWord name (pre ++ (key ++ '=' :: rest))).bind behindSeparator =
      ((behindWord name pre).bind behindSeparator).map (· ++ (key ++ '=' :: rest)) := by
  obtain ⟨t, ts, rfl, ht⟩ := hkey.cons
  obtain ⟨hspace, hquote, -, hcolon, hequals⟩ := plain_of_fold ht
  by_cases hlen : name.length ≤ pre.length
  · have happend : behindWord name (pre ++ (t :: ts ++ '=' :: rest)) =
        (behindWord name pre).map (· ++ (t :: ts ++ '=' :: rest)) := by
      rw [behindWord, behindWord, List.take_append_of_le_length hlen,
        List.drop_append_of_le_length hlen]
      split <;> rfl
    rw [happend]
    cases behindWord name pre with
    | none => rfl
    | some behind =>
      exact behindSeparator_append hspace hquote (not_or.mpr ⟨hcolon, hequals⟩) behind _
  · rw [Nat.not_le] at hlen
    have hshort : behindWord name pre = none := by
      refine if_neg fun heq => ?_
      have hl := congrArg List.length heq
      rw [List.length_map, List.length_take] at hl
      omega
    rw [hshort]
    -- the name ends inside the key: at a letter, where no separator is
    rw [← List.append_assoc, behindWord_append (isLetter_tokenNames name hname) _
      (show isLetter (fold '=') = false by decide)]
    cases hword : behindWord name (pre ++ t :: ts) with
    | none => rfl
    | some behind =>
      obtain ⟨head, hhead, hsplit⟩ := behindWord_some hword
      have hbehind : behind ≠ [] := by
        rintro rfl
        rw [List.append_nil] at hsplit
        rw [← hsplit, List.map_append] at hhead
        exact hne hhead
      have hsuffix : behind <:+ t :: ts := by
        refine List.suffix_of_suffix_length_le ⟨head, hsplit.symm⟩ (List.suffix_append pre _) ?_
        have hl := congrArg List.length hsplit
        have hh := congrArg List.length hhead
        rw [List.length_map] at hh
        simp only [List.length_append] at hl ⊢
        omega
      obtain ⟨c, cs, rfl⟩ := List.exists_cons_of_ne_nil hbehind
      exact behindSeparator_letter (hkey.letters c (hsuffix.subset (by simp))) _

theorem behindQuote_letter {c : Char} (h : isLetter (fold c) = true) (cs : List Char) :
    behindQuote (c :: cs) = c :: cs := by
  have hquote := (plain_of_fold h).2.1
  simp [behindQuote, hquote]

/-- The key is found where it stands. -/
theorem behindKey_key {key rest : List Char} (hkey : Sensitive key) :
    tokenNames.findSome? (fun name =>
        (behindWord name (key ++ '=' :: rest)).bind behindSeparator) =
      some (rest.dropWhile isSpace) := by
  refine findSome?_unique (a := key.map fold) ?_ hkey fun name hname hne => ?_
  · rw [behindWord_head rfl]
    rfl
  · have hrun := @behindWord_key key name [] rest hkey hname (Ne.symm hne)
    have hlong : ∀ name ∈ tokenNames, behindWord name [] = none := by decide
    rw [hlong name hname] at hrun
    exact hrun

/-- No name ends in another. -/
theorem tokenNames_suffix : ∀ name ∈ tokenNames, ∀ name' ∈ tokenNames,
    name' <:+ name → name' = name := by decide +kernel

/-- A key does not change what a match before it finds. -/
theorem behindKey_before {key pre : List Char} (hkey : Sensitive key) (hne : pre ≠ [])
    (hquote : pre ≠ ['"']) (rest : List Char) :
    behindKey (pre ++ (key ++ '=' :: rest)) = (behindKey pre).map (· ++ (key ++ '=' :: rest)) := by
  obtain ⟨t, ts, rfl, ht⟩ := hkey.cons
  have hbehind : behindQuote (pre ++ (t :: ts ++ '=' :: rest)) =
      behindQuote pre ++ (t :: ts ++ '=' :: rest) :=
    behindQuote_append (plain_of_fold ht).2.1 _
  have hpre : behindQuote pre ≠ [] := by
    unfold behindQuote
    split
    · rintro rfl
      exact hquote rfl
    · exact hne
  rw [behindKey, behindKey, List.map_findSome?]
  refine findSome?_congr fun name hname => ?_
  rw [hbehind]
  refine behindWord_key hkey hname fun heq => hpre ?_
  have hsuffix := tokenNames_suffix name hname _ hkey ⟨_, heq⟩
  have hl := congrArg List.length heq
  rw [← hsuffix, List.length_append] at hl
  have hnil : ((behindQuote pre).map fold).length = 0 := by omega
  exact List.map_eq_nil_iff.mp (List.length_eq_zero_iff.mp hnil)

/-! ### Values -/

def isQuote (c : Char) : Bool := c == '"' || c == '\''

/-- The text behind the first `quote`. -/
def afterQuote (quote : Char) (text : List Char) : List Char :=
  (text.dropWhile (· ≠ quote)).tail

theorem afterQuote_suffix (quote : Char) (text : List Char) : afterQuote quote text <:+ text :=
  (List.tail_suffix _).trans (List.dropWhile_suffix _)

theorem behindQuoted_self (quote : Char) (text : List Char) :
    behindQuoted quote (quote :: text) =
      if quote ∈ text then some (afterQuote quote text) else none := by
  rw [behindQuoted, if_pos rfl, afterQuote]
  by_cases hmem : quote ∈ text
  · rw [if_pos hmem]
    split
    · rename_i hnil
      have hall := List.dropWhile_eq_nil_iff.mp hnil quote hmem
      simp at hall
    · rename_i heq
      rw [heq]
      rfl
  · have hnil : text.dropWhile (· ≠ quote) = [] :=
      List.dropWhile_eq_nil_iff.mpr fun c hc => by
        simpa using fun heq : c = quote => hmem (heq ▸ hc)
    rw [if_neg hmem, hnil]

/-- A value is quoted if its first character opens a quotation that is closed, else a word. -/
theorem behindValue_cons {c : Char} (hc : isSpace c = false) (text : List Char) :
    behindValue (c :: text) =
      if isQuote c = true ∧ c ∈ text then some (afterQuote c text)
      else some (text.dropWhile isWordChar) := by
  have hbare : behindBare (c :: text) = some (text.dropWhile isWordChar) := by
    simp [behindBare, hc]
  have hother : ∀ quote, c ≠ quote → behindQuoted quote (c :: text) = none :=
    fun quote hne => if_neg hne
  rw [behindValue, hbare]
  by_cases hdouble : c = '"'
  · subst hdouble
    rw [behindQuoted_self, hother '\'' (by decide), Option.none_or]
    split <;> simp [isQuote, *]
  rw [hother '"' hdouble, Option.none_or]
  by_cases hsingle : c = '\''
  · subst hsingle
    rw [behindQuoted_self]
    split <;> simp [isQuote, *]
  · rw [hother '\'' hsingle, Option.none_or, if_neg]
    simp [isQuote, hdouble, hsingle]

theorem afterQuote_append {quote : Char} {pre : List Char} (h : quote ∈ pre) (post : List Char) :
    afterQuote quote (pre ++ post) = afterQuote quote pre ++ post := by
  have hne : pre.dropWhile (· ≠ quote) ≠ [] := fun hnil => by
    have hall := List.dropWhile_eq_nil_iff.mp hnil quote h
    simp at hall
  rw [afterQuote, dropWhile_append_ne hne, afterQuote, List.tail_append_of_ne_nil hne]

theorem afterQuote_skip {quote : Char} {pre : List Char} (h : quote ∉ pre) (post : List Char) :
    afterQuote quote (pre ++ post) = afterQuote quote post := by
  have hnil : pre.dropWhile (· ≠ quote) = [] :=
    List.dropWhile_eq_nil_iff.mpr fun c hc => by
      simpa using fun heq : c = quote => h (heq ▸ hc)
  rw [afterQuote, dropWhile_append_nil hnil, afterQuote]

/-- A match of the second pattern, from the text before its value. -/
theorem tokenKvRun_of_key {pre value rest : List Char}
    (hkey : behindKey (pre ++ value) = some value) (hvalue : behindValue value = some rest) :
    tokenKvRun (pre ++ value) = some (pre ++ redacted, rest) := by
  rw [tokenKvRun, hkey]
  dsimp only
  rw [hvalue, take_behind]
  rfl

theorem tokenKvRun_of_none {text : List Char} (h : behindKey text = none) :
    tokenKvRun text = none := by
  rw [tokenKvRun, h]

/-! ### The second pass before `k=s` -/

/-- A secret that is a word without quotes. -/
structure Plain (secret : List Char) : Prop where
  word : Word secret
  unquoted : ∀ c ∈ secret, isQuote c = false

/-- `k=s`. -/
def keyValue (key secret : List Char) : List Char := key ++ '=' :: secret

/-- A key with a secret that is there. -/
def KeyValue (key : List Char) (u : List Char) : Prop :=
  ∃ secret, secret ≠ [] ∧ Plain secret ∧ u = keyValue key secret

theorem Plain.keyValue {key secret : List Char} (hkey : Sensitive key) (h : Plain secret) :
    Plain (keyValue key secret) := by
  refine ⟨hkey.word.append fun c hc => ?_, fun c hc => ?_⟩
  · rcases List.mem_cons.mp hc with rfl | hc
    · decide
    · exact h.word c hc
  · rcases List.mem_append.mp hc with hc | hc
    · obtain ⟨-, hdouble, hsingle, -⟩ := plain_of_fold (hkey.letters c hc)
      simp [isQuote, hdouble, hsingle]
    · rcases List.mem_cons.mp hc with rfl | hc
      · decide
      · exact h.unquoted c hc

/-- A plain word before a blank is its own value. -/
theorem behindValue_plain {u post : List Char} (hu : Plain u) (hne : u ≠ []) (hpost : Blank post) :
    behindValue (u ++ post) = some post := by
  obtain ⟨c, cs, rfl⟩ := List.exists_cons_of_ne_nil hne
  have hword : cs.dropWhile isWordChar = [] := List.dropWhile_eq_nil_iff.mpr fun d hd => by
    simp [isWordChar, hu.word d (by simp [hd])]
  rw [List.cons_append, behindValue_cons (hu.word c (by simp)), if_neg,
    dropWhile_isWordChar_append (.inr hpost), hword, List.nil_append]
  rw [hu.unquoted c (by simp)]
  simp

theorem tokenKv_run_key {key secret post : List Char} (hkey : Sensitive key) (hs : Plain secret)
    (hne : secret ≠ []) (hpost : Blank post) (pre : List Char) (hpre : pre = [] ∨ pre = ['"']) :
    tokenKvRun (pre ++ keyValue key secret ++ post) =
      some (pre ++ key ++ ['='] ++ redacted, post) := by
  have htext : pre ++ keyValue key secret ++ post = pre ++ key ++ ['='] ++ (secret ++ post) := by
    simp [keyValue]
  rw [htext]
  refine tokenKvRun_of_key ?_ (behindValue_plain hs hne hpost)
  have hbehind : behindQuote (pre ++ key ++ ['='] ++ (secret ++ post)) =
      key ++ '=' :: (secret ++ post) := by
    obtain ⟨t, ts, rfl, ht⟩ := hkey.cons
    rcases hpre with rfl | rfl
    · simpa using behindQuote_letter ht (ts ++ '=' :: (secret ++ post))
    · simp [behindQuote]
  rw [behindKey, hbehind, behindKey_key hkey, hs.word.dropWhile_isSpace hne]

/-- A value that begins before a plain word ends before it or past it, whatever the word. -/
theorem behindValue_before {middle : List Char → Prop} {post : List Char}
    (hmiddle : ∀ u, middle u → Plain u) (hpost : Blank post) {c : Char} (hc : isSpace c = false)
    (cs : List Char) :
    (∃ pre, pre.length ≤ cs.length ∧ ∀ u, middle u →
        behindValue (c :: cs ++ (u ++ post)) = some (pre ++ u ++ post)) ∨
      ∃ post', ∀ u, middle u → behindValue (c :: cs ++ (u ++ post)) = some post' := by
  have hvalue : ∀ u, behindValue (c :: cs ++ (u ++ post)) =
      if isQuote c = true ∧ c ∈ cs ++ (u ++ post) then some (afterQuote c (cs ++ (u ++ post)))
      else some ((cs ++ (u ++ post)).dropWhile isWordChar) :=
    fun u => behindValue_cons hc (cs ++ (u ++ post))
  have hskip : ∀ u, middle u → isQuote c = true → c ∉ u := by
    intro u hu hquote hmem
    rw [(hmiddle u hu).unquoted c hmem] at hquote
    cases hquote
  by_cases hbefore : isQuote c = true ∧ c ∈ cs
  · refine .inl ⟨afterQuote c cs, (afterQuote_suffix c cs).length_le, fun u _ => ?_⟩
    rw [hvalue, if_pos ⟨hbefore.1, List.mem_append_left _ hbefore.2⟩,
      afterQuote_append hbefore.2, List.append_assoc]
  by_cases hpast : isQuote c = true ∧ c ∈ post
  · refine .inr ⟨afterQuote c post, fun u hu => ?_⟩
    rw [hvalue, if_pos ⟨hpast.1, by simp [hpast.2]⟩,
      afterQuote_skip fun hmem => hbefore ⟨hpast.1, hmem⟩, afterQuote_skip (hskip u hu hpast.1)]
  -- no quotation is closed: the value is a word
  have hbare : ∀ u, middle u → behindValue (c :: cs ++ (u ++ post)) =
      some ((cs ++ (u ++ post)).dropWhile isWordChar) := by
    intro u hu
    rw [hvalue, if_neg]
    rintro ⟨hquote, hmem⟩
    rcases List.mem_append.mp hmem with hmem | hmem
    · exact hbefore ⟨hquote, hmem⟩
    · rcases List.mem_append.mp hmem with hmem | hmem
      · exact hskip u hu hquote hmem
      · exact hpast ⟨hquote, hmem⟩
  by_cases hend : cs.dropWhile isWordChar = []
  · refine .inr ⟨post, fun u hu => ?_⟩
    have hword : u.dropWhile isWordChar = [] := List.dropWhile_eq_nil_iff.mpr fun d hd => by
      simp [isWordChar, (hmiddle u hu).word d hd]
    rw [hbare u hu, dropWhile_append_nil hend, dropWhile_isWordChar_append (.inr hpost), hword,
      List.nil_append]
  · refine .inl ⟨cs.dropWhile isWordChar, (List.dropWhile_suffix _).length_le, fun u hu => ?_⟩
    rw [hbare u hu, dropWhile_append_ne hend, List.append_assoc]

theorem behindKey_cons {text cs : List Char} {c : Char} (h : behindKey text = some (c :: cs)) :
    isSpace c = false := by
  have hdrop := behindKey_dropWhile h
  by_contra hspace
  rw [Bool.not_eq_false] at hspace
  rw [List.dropWhile_cons_of_pos hspace] at hdrop
  have hl := (List.dropWhile_suffix isSpace (l := cs)).length_le
  rw [hdrop, List.length_cons] at hl
  omega

/-- The second pass leaves a pair in its place, or takes it for a value. -/
theorem tokenKv_step_key {key post : List Char} (hkey : Sensitive key) (hpost : Blank post)
    (pre : List Char) (hne : pre ≠ []) :
    tokenKvRe.Step (KeyValue key) post (fun _ => True) True pre := by
  by_cases hquote : pre = ['"']
  · refine .past (pre ++ key ++ ['='] ++ redacted) post trivial fun u hu => ?_
    obtain ⟨secret, hs, hplain, rfl⟩ := hu
    exact tokenKv_run_key hkey hplain hs hpost pre (.inr hquote)
  have hbefore : ∀ u, KeyValue key u →
      behindKey (pre ++ u ++ post) = (behindKey pre).map (· ++ (u ++ post)) := by
    rintro u ⟨secret, -, -, rfl⟩
    have hrun := behindKey_before hkey hne hquote (secret ++ post)
    simpa [keyValue] using hrun
  have hplain : ∀ u, KeyValue key u → Plain u ∧ u ≠ [] := by
    rintro u ⟨secret, -, hs, rfl⟩
    exact ⟨hs.keyValue hkey, by simp [keyValue]⟩
  cases hmatch : behindKey pre with
  | none =>
    cases pre with
    | nil => exact absurd rfl hne
    | cons c cs =>
      exact .none c cs (fun u hu => tokenKvRun_of_none (by rw [hbefore u hu, hmatch]; rfl)) trivial
  | some value =>
    obtain ⟨hsuffix, hlt⟩ := behindKey_some hmatch
    have hdrop := behindKey_dropWhile hmatch
    obtain ⟨head, rfl⟩ := hsuffix
    have hrun : ∀ u rest, KeyValue key u → behindValue (value ++ (u ++ post)) = some rest →
        tokenKvRun (head ++ value ++ u ++ post) = some (head ++ redacted, rest) := by
      intro u rest hu hvalue
      have htext : head ++ value ++ u ++ post = head ++ (value ++ (u ++ post)) := by simp
      have hk := hbefore u hu
      rw [hmatch, htext] at hk
      rw [htext]
      exact tokenKvRun_of_key hk hvalue
    cases value with
    | nil =>
      refine .past (head ++ redacted) post trivial fun u hu => hrun u post hu ?_
      exact behindValue_plain (hplain u hu).1 (hplain u hu).2 hpost
    | cons c cs =>
      rcases behindValue_before (fun u hu => (hplain u hu).1) hpost (behindKey_cons hmatch) cs with
        ⟨pre', hshort, hvalue⟩ | ⟨post', hvalue⟩
      · refine .before (head ++ redacted) pre' (fun u hu => hrun u _ hu (hvalue u hu)) trivial ?_
        simp only [List.length_append, List.length_cons]
        omega
      · exact .past (head ++ redacted) post' trivial fun u hu => hrun u _ hu (hvalue u hu)

/-- The second pass hides the secret of a pair. -/
theorem tokenKv_hides {key post : List Char} (hkey : Sensitive key) (hpost : Blank post)
    (pre : List Char) {u u' : List Char} (hu : KeyValue key u) (hu' : KeyValue key u') :
    tokenKvRe.sub (pre ++ u ++ post) = tokenKvRe.sub (pre ++ u' ++ post) := by
  have hmiddle : ∀ u, KeyValue key u →
      tokenKvRe.sub (u ++ post) = key ++ ['='] ++ redacted ++ tokenKvRe.sub post := by
    rintro u ⟨secret, hne, hs, rfl⟩
    exact Pattern.sub_some (tokenKv_run_key hkey hs hne hpost [] (.inl rfl))
  have hstep : ∀ pre, True → pre ≠ [] →
      tokenKvRe.Step (KeyValue key) post (fun _ => True) True pre :=
    fun pre _ => tokenKv_step_key hkey hpost pre
  refine Pattern.sub_hides hstep (fun u u' hu hu' => ?_) trivial hu hu'
  rw [hmiddle u hu, hmiddle u' hu']

/-! ### What a secret can do against the second pass -/

/-- A blank, and quotes that close a quotation of either kind. -/
def bar : List Char := [' ', '"', '\\', '"', '\'']

/-- A part of the text that ends with the bar, or is what a match left of it. -/
def Sealed (pre : List Char) : Prop := bar <:+ pre ∨ pre <:+ bar

theorem Sealed.suffix {pre suffix : List Char} (h : Sealed pre) (hsuffix : suffix <:+ pre) :
    Sealed suffix := by
  rcases h with h | h
  · exact List.suffix_or_suffix_of_suffix h hsuffix
  · exact .inr (hsuffix.trans h)

theorem Sealed.append (pre : List Char) : Sealed (pre ++ bar) := .inl (List.suffix_append pre bar)

/-- Two secrets that differ in their last character. -/
def Digit (u : List Char) : Prop := u = ['1'] ∨ u = ['2']

theorem behindKey_of_head {text cs : List Char} {c : Char} (h : behindQuote text = c :: cs)
    (hc : isLetter (fold c) = false) : behindKey text = none := by
  rw [behindKey, List.findSome?_eq_none_iff]
  intro name hname
  have hnil : ∀ name ∈ tokenNames, behindWord name [] = none := by decide
  have hword := behindWord_append (isLetter_tokenNames name hname) [] hc cs
  rw [hnil name hname] at hword
  rw [h, ← List.nil_append (c :: cs), hword]
  rfl

theorem tokenKv_step_bar (post : List Char) (pre : List Char) (hpre : Sealed pre)
    (hne : pre ≠ []) : tokenKvRe.Step Digit post Sealed False pre := by
  have hnone : (∀ u, Digit u → behindKey (pre ++ u ++ post) = none) →
      tokenKvRe.Step Digit post Sealed False pre := by
    intro h
    cases pre with
    | nil => exact absurd rfl hne
    | cons c cs =>
      exact .none c cs (fun u hu => tokenKvRun_of_none (h u hu))
        (hpre.suffix (List.suffix_cons c cs))
  rcases hpre with ⟨before, rfl⟩ | htail
  · have hkey : ∀ u, behindKey (before ++ bar ++ u ++ post) =
        (behindKey before).map (resume (bar.tail ++ (u ++ post))) := by
      intro u
      have hno : NoSeparator (bar.tail ++ (u ++ post)) := by
        intro c cs heq
        rw [← (List.cons.inj heq).1]
        decide
      have hblank := behindKey_blank hno before
      have htext : before ++ bar ++ u ++ post = before ++ ' ' :: (bar.tail ++ (u ++ post)) := by
        simp [bar]
      rw [htext, hblank]
    cases hmatch : behindKey before with
    | none => exact hnone fun u _ => by rw [hkey, hmatch]; rfl
    | some value =>
      obtain ⟨hsuffix, hlt⟩ := behindKey_some hmatch
      obtain ⟨head, rfl⟩ := hsuffix
      cases value with
      | nil =>
        refine .before (head ++ [' '] ++ redacted) ['\''] (fun u _ => ?_) (.inr (by decide))
          (by simp [bar])
        have htext : head ++ [] ++ bar ++ u ++ post =
            head ++ [' '] ++ (bar.tail ++ (u ++ post)) := by
          simp [bar]
        have hk := hkey u
        rw [hmatch, htext] at hk
        refine (congrArg tokenKvRun htext).trans (tokenKvRun_of_key hk ?_)
        rfl
      | cons c cs =>
        have hc := behindKey_cons hmatch
        have hrun : ∀ u rest, behindValue (c :: cs ++ (bar ++ (u ++ post))) = some rest →
            tokenKvRun (head ++ c :: cs ++ bar ++ u ++ post) = some (head ++ redacted, rest) := by
          intro u rest hvalue
          have htext : head ++ c :: cs ++ bar ++ u ++ post =
              head ++ (c :: cs ++ (bar ++ (u ++ post))) := by simp
          have hk := hkey u
          rw [hmatch, htext] at hk
          rw [htext]
          exact tokenKvRun_of_key hk hvalue
        have hvalue : ∀ u, behindValue (c :: cs ++ (bar ++ (u ++ post))) =
            if isQuote c = true ∧ c ∈ cs ++ (bar ++ (u ++ post)) then
              some (afterQuote c (cs ++ (bar ++ (u ++ post))))
            else some ((cs ++ (bar ++ (u ++ post))).dropWhile isWordChar) :=
          fun u => behindValue_cons hc _
        have hshort : ∀ pre' : List Char, pre'.length ≤ cs.length + bar.length →
            pre'.length < (head ++ c :: cs ++ bar).length := by
          intro pre' hle
          simp only [List.length_append, List.length_cons]
          omega
        by_cases hquote : isQuote c = true
        · have hbar : c ∈ bar := by
            simp only [isQuote, Bool.or_eq_true, beq_iff_eq] at hquote
            rcases hquote with rfl | rfl <;> decide
          by_cases hclosed : c ∈ cs
          · refine .before (head ++ redacted) (afterQuote c cs ++ bar) (fun u _ => hrun u _ ?_)
              (.append _) (hshort _ ?_)
            · rw [hvalue, if_pos ⟨hquote, by simp [hclosed]⟩, afterQuote_append hclosed]
              simp only [List.append_assoc]
            · have hl := (afterQuote_suffix c cs).length_le
              rw [List.length_append]
              omega
          · refine .before (head ++ redacted) (afterQuote c bar) (fun u _ => hrun u _ ?_)
              (.inr (afterQuote_suffix c bar)) (hshort _ ?_)
            · rw [hvalue, if_pos ⟨hquote, by simp [hbar]⟩, afterQuote_skip hclosed,
                afterQuote_append hbar, List.append_assoc]
            · have hl := (afterQuote_suffix c bar).length_le
              omega
        · refine .before (head ++ redacted) (cs.dropWhile isWordChar ++ bar)
            (fun u _ => hrun u _ ?_) (.append _) (hshort _ ?_)
          · have hblank : Blank (bar ++ (u ++ post)) := ⟨' ', _, rfl, by decide⟩
            rw [hvalue, if_neg fun h => hquote h.1, dropWhile_isWordChar_append (.inr hblank)]
            simp only [List.append_assoc]
          · have hl := (List.dropWhile_suffix isWordChar (l := cs)).length_le
            rw [List.length_append]
            omega
  · refine hnone fun u hu => ?_
    simp only [bar, List.suffix_cons_iff, List.suffix_nil, hne, or_false] at htail
    rcases hu with rfl | rfl <;> rcases htail with rfl | rfl | rfl | rfl | rfl <;>
      exact behindKey_of_head rfl (by decide)

/-- Behind the bar, a secret is seen by the second pass. -/
theorem tokenKv_shows (pre post : List Char) :
    tokenKvRe.sub (pre ++ bar ++ ['1'] ++ post) ≠ tokenKvRe.sub (pre ++ bar ++ ['2'] ++ post) := by
  obtain ⟨out, hout⟩ := Pattern.sub_kept (tokenKv_step_bar post) (Sealed.append pre)
  rw [hout _ (.inl rfl), hout _ (.inr rfl)]
  have hpasses : ∀ c, isLetter (fold c) = false → c ≠ '"' →
      tokenKvRe.sub ([c] ++ post) = c :: tokenKvRe.sub post := by
    intro c hc hquote
    have hhead : behindQuote (c :: post) = c :: post := @behindQuote_append [] c hquote post
    exact Pattern.sub_cons_none (tokenKvRun_of_none (behindKey_of_head hhead hc))
  have hfirst := hpasses '1' (by decide) (by decide)
  have hsecond := hpasses '2' (by decide) (by decide)
  rw [hfirst, hsecond]
  intro heq
  have hcons := (List.cons.inj (List.append_cancel_left heq)).1
  exact absurd hcons (by decide)

end DataRelay.Relay.Audit
