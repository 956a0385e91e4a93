import Mathlib.Data.List.TakeWhile
import DataRelay.Relay.Audit

/-! The first pass of the redaction, over a text that a secret stands in.

    The texts around the secret are arbitrary, so a match may start anywhere before it. White space
    ends a match, and a secret without any lies in one word. -/

namespace DataRelay.Relay.Audit
open Lib

/-! ### Characters -/

/-- The characters of the words that the patterns look for. -/
def isLetter (c : Char) : Bool := ('a' ≤ c && c ≤ 'z') || c == '_'

theorem fold_of_isSpace {c : Char} (h : isSpace c = true) : isLetter (fold c) = false := by
  have hlow : ∀ n < 33, isLetter (fold (Char.ofNat n)) = false := by decide +kernel
  have hhigh : ∀ n ∈ [0x85, 0xa0, 0x1680, 0x2028, 0x2029, 0x202f, 0x205f, 0x3000],
      isLetter (fold (Char.ofNat n)) = false := by decide +kernel
  have hspaces : ∀ k < 11, isLetter (fold (Char.ofNat (0x2000 + k))) = false := by decide +kernel
  rw [← Char.ofNat_toNat c]
  simp only [isSpace, isSpaceCode, Bool.or_eq_true, Bool.and_eq_true, decide_eq_true_eq, beq_iff_eq] at h
  generalize c.toNat = n at h ⊢
  by_cases hn : n < 33
  · exact hlow n hn
  by_cases hgap : 0x2000 ≤ n ∧ n ≤ 0x200a
  · have hk := hspaces (n - 0x2000) (by omega)
    rwa [show 0x2000 + (n - 0x2000) = n by omega] at hk
  · refine hhigh n ?_
    simp only [List.mem_cons, List.not_mem_nil, or_false]
    omega

/-- A character that a word has is no white space, no quote and no separator. -/
theorem plain_of_fold {c : Char} (h : isLetter (fold c) = true) :
    isSpace c = false ∧ c ≠ '"' ∧ c ≠ '\'' ∧ c ≠ ':' ∧ c ≠ '=' := by
  have hne : ∀ d, isLetter (fold d) = false → c ≠ d := fun d hd heq => by
    rw [heq, hd] at h
    cases h
  refine ⟨?_, hne _ (by decide), hne _ (by decide), hne _ (by decide), hne _ (by decide)⟩
  by_contra hspace
  rw [Bool.not_eq_false] at hspace
  rw [fold_of_isSpace hspace] at h
  cases h

theorem isLetter_bearer : ∀ c ∈ bearer, isLetter c = true := List.all_iff_forall_prop.mp (by decide)

theorem isLetter_tokenNames : ∀ name ∈ tokenNames, ∀ c ∈ name, isLetter c = true := by
  have hall : ∀ name ∈ tokenNames, name.all isLetter = true := by decide
  exact fun name hname => List.all_eq_true.mp (hall name hname)

/-- No white space in it. -/
def Word (text : List Char) : Prop := ∀ c ∈ text, isSpace c = false

theorem Word.append {a b : List Char} (ha : Word a) (hb : Word b) : Word (a ++ b) := by
  intro c hc
  rcases List.mem_append.mp hc with hc | hc
  · exact ha c hc
  · exact hb c hc

theorem Word.sublist {a b : List Char} (hb : Word b) (h : ∀ c ∈ a, c ∈ b) : Word a :=
  fun c hc => hb c (h c hc)

theorem word_of_fold {text word : List Char} (h : text.map fold = word)
    (hword : ∀ c ∈ word, isLetter c = true) : Word text := by
  intro c hc
  exact (plain_of_fold (hword _ (h ▸ List.mem_map_of_mem hc))).1

/-- The text begins with white space. -/
def Blank (text : List Char) : Prop := ∃ c cs, text = c :: cs ∧ isSpace c = true

theorem Word.takeWhile {w : List Char} (hw : Word w) (hne : w ≠ []) (post : List Char) :
    (w ++ post).takeWhile isSpace = [] := by
  cases w with
  | nil => exact absurd rfl hne
  | cons c cs => simp [hw c (by simp)]

theorem Word.dropWhile_isSpace {w : List Char} (hw : Word w) (hne : w ≠ []) (post : List Char) :
    (w ++ post).dropWhile isSpace = w ++ post := by
  cases w with
  | nil => exact absurd rfl hne
  | cons c cs => simp [hw c (by simp)]

theorem take_behind (pre post : List Char) :
    (pre ++ post).take ((pre ++ post).length - post.length) = pre := by
  rw [List.length_append, Nat.add_sub_cancel, List.take_left]

theorem dropWhile_append_ne {p : Char → Bool} {l : List Char} (h : l.dropWhile p ≠ [])
    (r : List Char) : (l ++ r).dropWhile p = l.dropWhile p ++ r := by
  rw [List.dropWhile_append, if_neg (by simpa [List.isEmpty_iff] using h)]

theorem takeWhile_append_ne {p : Char → Bool} {l : List Char} (h : l.dropWhile p ≠ [])
    (r : List Char) : (l ++ r).takeWhile p = l.takeWhile p := by
  rw [List.takeWhile_append, if_neg fun hlen => h ?_]
  have hsplit := congrArg List.length (List.takeWhile_append_dropWhile (p := p) (l := l))
  rw [List.length_append] at hsplit
  exact List.length_eq_zero_iff.mp (by omega)

theorem dropWhile_append_nil {p : Char → Bool} {l : List Char} (h : l.dropWhile p = [])
    (r : List Char) : (l ++ r).dropWhile p = r.dropWhile p := by
  rw [List.dropWhile_append, h, List.isEmpty_nil, if_pos rfl]

theorem blank_dropWhile {post : List Char} (hpost : post = [] ∨ Blank post) :
    post.dropWhile isWordChar = post := by
  rcases hpost with rfl | ⟨c, cs, rfl, hc⟩
  · rfl
  · simp [isWordChar, hc]

theorem dropWhile_isWordChar_append {post : List Char} (hpost : post = [] ∨ Blank post)
    (pre : List Char) :
    (pre ++ post).dropWhile isWordChar = pre.dropWhile isWordChar ++ post := by
  by_cases h : pre.dropWhile isWordChar = []
  · rw [dropWhile_append_nil h, h, blank_dropWhile hpost, List.nil_append]
  · exact dropWhile_append_ne h post

/-! ### Words of the patterns -/

theorem behindWord_head {word head rest : List Char} (h : head.map fold = word) :
    behindWord word (head ++ rest) = some rest := by
  have hlen : word.length = head.length := by rw [← h, List.length_map]
  rw [behindWord, hlen, List.take_left', if_pos h, List.drop_left']
  · rfl
  · rfl

/-- A character that no word has ends the search for one. -/
theorem behindWord_append {word : List Char} (hword : ∀ c ∈ word, isLetter c = true)
    (pre : List Char) {t : Char} (ht : isLetter (fold t) = false) (post : List Char) :
    behindWord word (pre ++ t :: post) = (behindWord word pre).map (· ++ t :: post) := by
  unfold behindWord
  by_cases hlen : word.length ≤ pre.length
  · rw [List.take_append_of_le_length hlen, List.drop_append_of_le_length hlen]
    split <;> rfl
  · have hshort : (pre.take word.length).map fold ≠ word := by
      intro heq
      have hl := congrArg List.length heq
      rw [List.length_map, List.length_take] at hl
      omega
    have hbroken : ((pre ++ t :: post).take word.length).map fold ≠ word := by
      intro heq
      have hmem : fold t ∈ word := by
        rw [← heq]
        refine List.mem_map_of_mem ?_
        rw [List.take_append]
        obtain ⟨m, hm⟩ : ∃ m, word.length - pre.length = m + 1 :=
          ⟨word.length - pre.length - 1, by omega⟩
        simp [hm]
      rw [hword _ hmem] at ht
      cases ht
    rw [if_neg hshort, if_neg hbroken]
    rfl

/-! ### The first pass on a word -/

theorem length_bearer : bearer.length = 6 := rfl

def endsBearer (text : List Char) : Bool :=
  (text.drop (text.length - bearer.length)).map fold = bearer

theorem endsBearer_iff {text : List Char} :
    endsBearer text = true ↔ ∃ pre scheme, text = pre ++ scheme ∧ scheme.map fold = bearer := by
  rw [endsBearer, decide_eq_true_eq]
  constructor
  · exact fun h => ⟨_, _, (List.take_append_drop _ text).symm, h⟩
  · rintro ⟨pre, scheme, rfl, h⟩
    have hlen : scheme.length = bearer.length := by rw [← h, List.length_map]
    rw [List.length_append, hlen, Nat.add_sub_cancel, List.drop_left, h]

theorem endsBearer_of_suffix {text suffix : List Char} (h : suffix <:+ text)
    (hsuffix : endsBearer suffix = true) : endsBearer text = true := by
  obtain ⟨pre, rfl⟩ := h
  obtain ⟨pre', scheme, rfl, hscheme⟩ := endsBearer_iff.mp hsuffix
  exact endsBearer_iff.mpr ⟨pre ++ pre', scheme, by rw [List.append_assoc], hscheme⟩

theorem bearerRun_of_none {text : List Char} (h : behindWord bearer text = none) :
    bearerRun text = none := by
  rw [bearerRun, h]

theorem bearerRun_of_some {text behind : List Char} (h : behindWord bearer text = some behind) :
    bearerRun text =
      if behind.takeWhile isSpace = [] ∨ behind.dropWhile isSpace = [] then none
      else some (text.take (text.length - (behind.dropWhile isSpace).length) ++ redacted,
        (behind.dropWhile isSpace).dropWhile isWordChar) := by
  rw [bearerRun, h]

theorem bearerRun_of_scheme {scheme : List Char} (h : scheme.map fold = bearer)
    (behind : List Char) : bearerRun (scheme ++ behind) =
      if behind.takeWhile isSpace = [] ∨ behind.dropWhile isSpace = [] then none
      else some ((scheme ++ behind).take
          ((scheme ++ behind).length - (behind.dropWhile isSpace).length) ++ redacted,
        (behind.dropWhile isSpace).dropWhile isWordChar) :=
  bearerRun_of_some (behindWord_head h)

/-- A word matches at its end only if it is the scheme. -/
theorem bearerRun_word {w post : List Char} (hw : Word w) (hne : w.map fold ≠ bearer)
    (hpost : post = [] ∨ Blank post) : bearerRun (w ++ post) = none := by
  have hmap : behindWord bearer (w ++ post) = (behindWord bearer w).map (· ++ post) := by
    rcases hpost with rfl | ⟨t, cs, rfl, ht⟩
    · simp
    · exact behindWord_append isLetter_bearer w (fold_of_isSpace ht) cs
  cases hword : behindWord bearer w with
  | none => exact bearerRun_of_none (by rw [hmap, hword]; rfl)
  | some rest =>
    obtain ⟨head, hhead, rfl⟩ := behindWord_some hword
    have hrest : rest ≠ [] := by
      rintro rfl
      exact hne (by simpa using hhead)
    have hwrest : Word rest := hw.sublist fun c hc => List.mem_append_right _ hc
    rw [hword] at hmap
    rw [bearerRun_of_some hmap, if_pos (.inl (hwrest.takeWhile hrest post))]

/-- A word that does not end in the scheme is gone through. -/
theorem bearer_sub_word {w post : List Char} (hw : Word w) (h : endsBearer w = false)
    (hpost : post = [] ∨ Blank post) : bearerRe.sub (w ++ post) = w ++ bearerRe.sub post := by
  refine Pattern.sub_passes fun c cs hsuffix => bearerRun_word ?_ (fun heq => ?_) hpost
  · exact hw.sublist fun _ hd => hsuffix.subset hd
  · have hends := endsBearer_of_suffix hsuffix (endsBearer_iff.mpr ⟨[], _, rfl, heq⟩)
    rw [h] at hends
    cases hends

/-- What stands before the scheme in its word is gone through. -/
theorem bearer_sub_scheme {w scheme post : List Char} (hw : Word w) (h : scheme.map fold = bearer)
    (hpost : Blank post) :
    bearerRe.sub (w ++ (scheme ++ post)) = w ++ bearerRe.sub (scheme ++ post) := by
  have hscheme := word_of_fold h isLetter_bearer
  refine Pattern.sub_passes fun c cs hsuffix => ?_
  have hword : Word (c :: cs ++ scheme) :=
    (hw.sublist fun _ hd => hsuffix.subset hd).append hscheme
  rw [← List.append_assoc]
  refine bearerRun_word hword (fun heq => ?_) (.inr hpost)
  have hlen := congrArg List.length (heq.trans h.symm)
  simp only [List.length_map, List.length_append, List.length_cons] at hlen
  omega

theorem bearer_sub_cons {c : Char} (hc : isLetter (fold c) = false) (post : List Char) :
    bearerRe.sub (c :: post) = c :: bearerRe.sub post := by
  refine Pattern.sub_cons_none (bearerRun_of_none ?_)
  have happend := behindWord_append isLetter_bearer [] hc post
  rw [List.nil_append] at happend
  rw [happend]
  rfl

/-- Characters that no word has are gone through. -/
theorem bearer_sub_signs (post : List Char) :
    ∀ {signs : List Char}, (∀ c ∈ signs, isLetter (fold c) = false) →
      bearerRe.sub (signs ++ post) = signs ++ bearerRe.sub post
  | [], _ => rfl
  | c :: signs, h => by
    obtain ⟨hc, hsigns⟩ := List.forall_mem_cons.mp h
    rw [List.cons_append, bearer_sub_cons hc, bearer_sub_signs post hsigns]
    rfl

/-- Behind the scheme it does not matter in which case the scheme is written. -/
theorem bearer_sub_behind {post : List Char} (hpost : Blank post) :
    ∃ post', Blank post' ∧ ∀ scheme, scheme.map fold = bearer →
      bearerRe.sub (scheme ++ post) = scheme ++ post' := by
  obtain ⟨t, cs, rfl, ht⟩ := hpost
  have hgap : (t :: cs).takeWhile isSpace = t :: cs.takeWhile isSpace := by simp [ht]
  have hrun : ∀ scheme, scheme.map fold = bearer → bearerRun (scheme ++ t :: cs) = _ :=
    fun scheme h => bearerRun_of_scheme h _
  by_cases hvalue : (t :: cs).dropWhile isSpace = []
  · refine ⟨bearerRe.sub (t :: cs), ⟨t, _, bearer_sub_cons (fold_of_isSpace ht) cs, ht⟩,
      fun scheme h => ?_⟩
    refine Pattern.sub_passes fun c ds hsuffix => ?_
    by_cases heq : (c :: ds).map fold = bearer
    · exact (hrun _ heq).trans (if_pos (.inr hvalue))
    · exact bearerRun_word ((word_of_fold h isLetter_bearer).sublist fun _ hd => hsuffix.subset hd)
        heq (.inr ⟨t, cs, rfl, ht⟩)
  · refine ⟨(t :: cs).takeWhile isSpace ++ redacted ++
      bearerRe.sub (((t :: cs).dropWhile isSpace).dropWhile isWordChar), ?_, fun scheme h => ?_⟩
    · rw [hgap]
      exact ⟨t, _, rfl, ht⟩
    · -- the value goes, the scheme and its gap stay
      have hsome := (hrun scheme h).trans (if_neg (by rw [hgap]; simp [hvalue]))
      have htake : (scheme ++ t :: cs).take
          ((scheme ++ t :: cs).length - ((t :: cs).dropWhile isSpace).length) =
            scheme ++ (t :: cs).takeWhile isSpace := by
        have hsplit := take_behind (scheme ++ (t :: cs).takeWhile isSpace)
          ((t :: cs).dropWhile isSpace)
        rwa [List.append_assoc, List.takeWhile_append_dropWhile] at hsplit
      rw [htake] at hsome
      rw [Pattern.sub_some hsome]
      simp only [List.append_assoc]

/-! ### The first pass before a word -/

/-- The text ends with a word, which does not end in the scheme. -/
def Closed (text : List Char) : Prop :=
  text.getLast?.all isWordChar = true ∧ endsBearer text = false

theorem Closed.suffix {text suffix : List Char} (h : Closed text) (hsuffix : suffix <:+ text) :
    Closed suffix := by
  refine ⟨?_, ?_⟩
  · obtain ⟨pre, rfl⟩ := hsuffix
    by_cases hne : suffix = []
    · rw [hne]
      rfl
    · have hlast := h.1
      rwa [List.getLast?_append_of_ne_nil _ hne] at hlast
  · by_contra hends
    rw [Bool.not_eq_false] at hends
    have h2 := h.2
    rw [endsBearer_of_suffix hsuffix hends] at h2
    cases h2

theorem Closed.dropWhile {text : List Char} (h : Closed text) (hne : text ≠ []) :
    text.dropWhile isSpace ≠ [] := by
  intro hnil
  have hall := List.dropWhile_eq_nil_iff.mp hnil
  have hlast := h.1
  rw [List.getLast?_eq_some_getLast hne] at hlast
  have hspace := hall _ (List.getLast_mem hne)
  simp [isWordChar, hspace] at hlast

/-- Behind the scheme, what goes on behind the first word does not matter. -/
theorem bearerRun_gap {head rest : List Char} (hhead : head.map fold = bearer)
    (hdrop : rest.dropWhile isSpace ≠ []) (post : List Char) :
    bearerRun (head ++ rest ++ post) =
      if rest.takeWhile isSpace = [] then none
      else some (head ++ rest.takeWhile isSpace ++ redacted,
        (rest.dropWhile isSpace ++ post).dropWhile isWordChar) := by
  have hsplit : head ++ rest ++ post =
      head ++ rest.takeWhile isSpace ++ (rest.dropWhile isSpace ++ post) := by
    conv_lhs => rw [← List.takeWhile_append_dropWhile (p := isSpace) (l := rest)]
    simp only [List.append_assoc]
  have hassoc := List.append_assoc head rest post
  rw [hassoc, bearerRun_of_scheme hhead, ← hassoc, takeWhile_append_ne hdrop,
    dropWhile_append_ne hdrop, hsplit, take_behind]
  simp [hdrop]

theorem length_behind {head rest suffix : List Char} (hhead : head.map fold = bearer)
    (hsuffix : suffix <:+ rest) : suffix.length < (head ++ rest).length := by
  have h1 := hsuffix.length_le
  have h2 := congrArg List.length hhead
  rw [List.length_map, length_bearer] at h2
  rw [List.length_append]
  omega

/-- White space behind a closed text is where the first pass may be cut. -/
theorem bearer_step_cut {middle : List Char → Prop} {post : List Char}
    (hmiddle : ∀ u, middle u → Blank u) (pre : List Char) (hpre : Closed pre) (hne : pre ≠ []) :
    bearerRe.Step middle post Closed False pre := by
  have hnone : (∀ u, middle u → bearerRun (pre ++ u ++ post) = none) →
      bearerRe.Step middle post Closed False pre := by
    intro h
    cases pre with
    | nil => exact absurd rfl hne
    | cons c cs => exact .none c cs h (hpre.suffix (List.suffix_cons c cs))
  cases hword : behindWord bearer pre with
  | none =>
    refine hnone fun u hu => bearerRun_of_none ?_
    obtain ⟨t, cs, rfl, ht⟩ := hmiddle u hu
    have happend := behindWord_append isLetter_bearer pre (fold_of_isSpace ht) (cs ++ post)
    rw [hword] at happend
    rwa [List.append_assoc]
  | some rest =>
    obtain ⟨head, hhead, rfl⟩ := behindWord_some hword
    have hclosed := hpre.suffix (List.suffix_append head rest)
    have hrest : rest ≠ [] := by
      rintro rfl
      have hends : endsBearer (head ++ []) = true :=
        endsBearer_iff.mpr ⟨[], head, List.append_nil head, hhead⟩
      rw [hpre.2] at hends
      cases hends
    have hrun := fun u => bearerRun_gap hhead (hclosed.dropWhile hrest) (u ++ post)
    by_cases hgap : rest.takeWhile isSpace = []
    · refine hnone fun u _ => ?_
      rw [List.append_assoc _ u, hrun u, if_pos hgap]
    · have hsuffix : (rest.dropWhile isSpace).dropWhile isWordChar <:+ rest :=
        (List.dropWhile_suffix _).trans (List.dropWhile_suffix _)
      refine .before (head ++ rest.takeWhile isSpace ++ redacted)
        ((rest.dropWhile isSpace).dropWhile isWordChar) (fun u hu => ?_)
        (hclosed.suffix hsuffix) (length_behind hhead hsuffix)
      obtain ⟨t, cs, rfl, ht⟩ := hmiddle u hu
      have hblank : Blank (t :: cs ++ post) := ⟨t, cs ++ post, rfl, ht⟩
      refine (congrArg bearerRun (List.append_assoc _ _ _)).trans ((hrun (t :: cs)).trans ?_)
      rw [if_neg hgap, dropWhile_isWordChar_append (.inr hblank), ← List.append_assoc]

/-- A word that a match of the scheme cannot run into. -/
structure Apart (u : List Char) : Prop where
  word : Word u
  nonempty : u ≠ []
  apart : ∀ pre post, pre ≠ [] → pre.length < bearer.length →
    bearerRun (pre ++ (u ++ post)) = none

/-- A word before white space is left in its place by the first pass, or taken for a value. -/
theorem bearer_step_apart {middle : List Char → Prop} {post : List Char}
    (hmiddle : ∀ u, middle u → Apart u) (hpost : post = [] ∨ Blank post) (pre : List Char)
    (hne : pre ≠ []) : bearerRe.Step middle post (fun _ => True) True pre := by
  have hnone : (∀ u, middle u → bearerRun (pre ++ u ++ post) = none) →
      bearerRe.Step middle post (fun _ => True) True pre := by
    intro h
    cases pre with
    | nil => exact absurd rfl hne
    | cons c cs => exact .none c cs h trivial
  by_cases hlong : pre.length < bearer.length
  · refine hnone fun u hu => ?_
    rw [List.append_assoc]
    exact (hmiddle u hu).apart pre post hne hlong
  rw [Nat.not_lt] at hlong
  cases hword : behindWord bearer pre with
  | none =>
    refine hnone fun u _ => bearerRun_of_none ?_
    rw [behindWord] at hword ⊢
    rw [List.append_assoc, List.take_append_of_le_length hlong]
    split at hword
    · cases hword
    · rename_i hno
      exact if_neg hno
  | some rest =>
    obtain ⟨head, hhead, rfl⟩ := behindWord_some hword
    have hskip : ∀ u, middle u → (u ++ post).dropWhile isWordChar = post := by
      intro u hu
      rw [dropWhile_isWordChar_append hpost, List.dropWhile_eq_nil_iff.mpr fun c hc => by
        simp [isWordChar, (hmiddle u hu).word c hc], List.nil_append]
    by_cases hdrop : rest.dropWhile isSpace = []
    · -- the blanks go up to the word, which is the value
      have hrun : ∀ u, middle u → bearerRun (head ++ rest ++ (u ++ post)) =
          if rest = [] then none else some (head ++ rest ++ redacted, post) := by
        intro u hu
        have htake : (rest ++ (u ++ post)).takeWhile isSpace = rest := by
          rw [List.takeWhile_append_of_pos (List.dropWhile_eq_nil_iff.mp hdrop),
            (hmiddle u hu).word.takeWhile (hmiddle u hu).nonempty, List.append_nil]
        have hassoc := List.append_assoc head rest (u ++ post)
        rw [hassoc, bearerRun_of_scheme hhead, ← hassoc, htake, dropWhile_append_nil hdrop,
          (hmiddle u hu).word.dropWhile_isSpace (hmiddle u hu).nonempty, take_behind, hskip u hu]
        simp [(hmiddle u hu).nonempty]
      by_cases hrest : rest = []
      · refine hnone fun u hu => ?_
        rw [List.append_assoc _ u, hrun u hu, if_pos hrest]
      · refine .past (head ++ rest ++ redacted) post trivial fun u hu => ?_
        exact (congrArg bearerRun (List.append_assoc _ _ _)).trans
          ((hrun u hu).trans (if_neg hrest))
    have hrun := fun u => bearerRun_gap hhead hdrop (u ++ post)
    by_cases hgap : rest.takeWhile isSpace = []
    · refine hnone fun u _ => ?_
      rw [List.append_assoc _ u, hrun u, if_pos hgap]
    by_cases hend : (rest.dropWhile isSpace).dropWhile isWordChar = []
    · refine .past (head ++ rest.takeWhile isSpace ++ redacted) post trivial fun u hu => ?_
      refine (congrArg bearerRun (List.append_assoc _ _ _)).trans ((hrun u).trans ?_)
      rw [if_neg hgap, dropWhile_append_nil hend, hskip u hu]
    · refine .before (head ++ rest.takeWhile isSpace ++ redacted)
        ((rest.dropWhile isSpace).dropWhile isWordChar) (fun u _ => ?_) trivial
        (length_behind hhead ((List.dropWhile_suffix _).trans (List.dropWhile_suffix _)))
      refine (congrArg bearerRun (List.append_assoc _ _ _)).trans ((hrun u).trans ?_)
      rw [if_neg hgap, dropWhile_append_ne hend, ← List.append_assoc]

end DataRelay.Relay.Audit
