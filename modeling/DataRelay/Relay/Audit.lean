import DataRelay.Lib.Json
import DataRelay.Lib.Substitute
import DataRelay.Python

/-! The audit log's redaction: two regular expressions, the second on what the first has left.

    Neither has a choice of how to match at a place: white space is taken as far as it goes, and
    what is behind it decides. So each is a function to the text behind its match. -/

namespace DataRelay.Relay.Audit
open Lib

/-- What stands for a redacted text. -/
def redacted : List Char := "[REDACTED]".toList

/-- A character, as a letter of a pattern under `(?i)` sees it. -/
def fold (c : Char) : Char :=
  match c.toNat with
  | 0x130 | 0x131 => 'i'
  | 0x17f => 's'
  | 0x212a => 'k'
  | _ => c.toLower

/-- The text behind a word, in whatever case it is written. -/
def behindWord (word text : List Char) : Option (List Char) :=
  if (text.take word.length).map fold = word then some (text.drop word.length) else none

/-- `\S`. -/
def isWordChar (c : Char) : Bool := !isSpace c

/-! ### `_BEARER_RE` -/

/-- The scheme, in lower case. -/
def bearer : List Char := "bearer".toList

/-- A match of `_BEARER_RE`: the scheme and the blanks as they are, and the word behind them
    redacted. -/
def bearerRun (text : List Char) : Option (List Char × List Char) :=
  match behindWord bearer text with
  | none => none
  | some rest =>
    let value := rest.dropWhile isSpace
    if rest.takeWhile isSpace = [] ∨ value = [] then none
    else some (text.take (text.length - value.length) ++ redacted, value.dropWhile isWordChar)

/-! ### `_TOKEN_KV_RE` -/

/-- The names of `_TOKEN_KV_RE`. -/
def tokenNames : List (List Char) :=
  ["access_token", "refresh_token", "id_token", "client_secret", "api_key", "authorization",
    "code_verifier", "code_challenge", "owner_secret", "owner_approval_secret",
    "authorization_code"].map String.toList

/-- `"?`. -/
def behindQuote : List Char → List Char
  | '"' :: text => text
  | text => text

/-- `"?\s*[:=]\s*`. -/
def behindSeparator (text : List Char) : Option (List Char) :=
  match (behindQuote text).dropWhile isSpace with
  | [] => none
  | c :: rest => if c = ':' ∨ c = '=' then some (rest.dropWhile isSpace) else none

/-- The text behind the first group, the value. -/
def behindKey (text : List Char) : Option (List Char) :=
  tokenNames.findSome? fun name => (behindWord name (behindQuote text)).bind behindSeparator

/-- `"[^"]*"`, with either quote. -/
def behindQuoted (quote : Char) : List Char → Option (List Char)
  | [] => none
  | c :: text =>
    if c = quote then
      match text.dropWhile (· ≠ quote) with
      | [] => none
      | _ :: rest => some rest
    else none

/-- `\S+`. -/
def behindBare : List Char → Option (List Char)
  | [] => none
  | c :: text => if isSpace c then none else some (text.dropWhile isWordChar)

/-- The text behind the second group. -/
def behindValue (text : List Char) : Option (List Char) :=
  (behindQuoted '"' text).or ((behindQuoted '\'' text).or (behindBare text))

/-- A match of `_TOKEN_KV_RE`: the key as it is, and the value redacted. -/
def tokenKvRun (text : List Char) : Option (List Char × List Char) :=
  match behindKey text with
  | none => none
  | some value => (behindValue value).map fun rest =>
      (text.take (text.length - value.length) ++ redacted, rest)

/-! ### Matches go on -/

theorem behindWord_some {word text rest : List Char} (h : behindWord word text = some rest) :
    ∃ head, head.map fold = word ∧ text = head ++ rest := by
  unfold behindWord at h
  split at h
  · rename_i hword
    exact ⟨_, hword, by rw [← Option.some.inj h, List.take_append_drop]⟩
  · cases h

theorem behindQuote_suffix (text : List Char) : behindQuote text <:+ text := by
  unfold behindQuote
  split
  · exact List.suffix_cons _ _
  · exact List.suffix_rfl

theorem behindSeparator_suffix {text rest : List Char} (h : behindSeparator text = some rest) :
    rest <:+ text := by
  unfold behindSeparator at h
  split at h
  · cases h
  · rename_i c behind heq
    split at h
    · rw [← Option.some.inj h]
      have hblank := List.dropWhile_suffix isSpace (l := behindQuote text)
      rw [heq] at hblank
      exact (List.dropWhile_suffix isSpace).trans
        (((List.suffix_cons c behind).trans hblank).trans (behindQuote_suffix text))
    · cases h

theorem behindKey_some {text value : List Char} (h : behindKey text = some value) :
    value <:+ text ∧ value.length < text.length := by
  obtain ⟨name, hname, hmatch⟩ := List.exists_of_findSome?_eq_some h
  obtain ⟨rest, hword, hsep⟩ := Option.bind_eq_some_iff.mp hmatch
  obtain ⟨head, hhead, htext⟩ := behindWord_some hword
  have hlong : ∀ name ∈ tokenNames, 0 < name.length := by decide
  have hpos := hlong name hname
  rw [← hhead, List.length_map] at hpos
  have hquote := behindQuote_suffix text
  have hsuffix := behindSeparator_suffix hsep
  have hrest : rest <:+ behindQuote text := htext ▸ List.suffix_append head rest
  have hlen := congrArg List.length htext
  rw [List.length_append] at hlen
  exact ⟨(hsuffix.trans hrest).trans hquote,
    by have h1 := hsuffix.length_le; have h2 := hquote.length_le; omega⟩

theorem behindQuoted_suffix {quote : Char} {text rest : List Char}
    (h : behindQuoted quote text = some rest) : rest <:+ text := by
  cases text with
  | nil => cases h
  | cons c text =>
    rw [behindQuoted] at h
    split at h
    · split at h
      · cases h
      · rename_i d behind heq
        rw [← Option.some.inj h]
        have hdrop := List.dropWhile_suffix (fun x => decide (x ≠ quote)) (l := text)
        rw [heq] at hdrop
        exact ((List.suffix_cons d behind).trans hdrop).trans (List.suffix_cons c text)
    · cases h

theorem behindBare_suffix {text rest : List Char} (h : behindBare text = some rest) :
    rest <:+ text := by
  cases text with
  | nil => cases h
  | cons c text =>
    rw [behindBare] at h
    split at h
    · cases h
    · rw [← Option.some.inj h]
      exact (List.dropWhile_suffix _).trans (List.suffix_cons c text)

theorem behindValue_suffix {text rest : List Char} (h : behindValue text = some rest) :
    rest <:+ text := by
  rcases Option.or_eq_some_iff.mp h with h | ⟨-, h⟩
  · exact behindQuoted_suffix h
  · rcases Option.or_eq_some_iff.mp h with h | ⟨-, h⟩
    · exact behindQuoted_suffix h
    · exact behindBare_suffix h

theorem tokenKvRun_some {text out rest : List Char} (h : tokenKvRun text = some (out, rest)) :
    ∃ value, behindKey text = some value ∧ behindValue value = some rest ∧
      out = text.take (text.length - value.length) ++ redacted := by
  unfold tokenKvRun at h
  split at h
  · cases h
  · rename_i value hkey
    obtain ⟨rest', hvalue, heq⟩ := Option.map_eq_some_iff.mp h
    obtain ⟨rfl, rfl⟩ := Prod.mk.inj heq
    exact ⟨value, hkey, hvalue, rfl⟩

theorem bearerRun_some {text out rest : List Char} (h : bearerRun text = some (out, rest)) :
    rest.length < text.length := by
  unfold bearerRun at h
  split at h
  · cases h
  · rename_i behind hword
    obtain ⟨head, hhead, rfl⟩ := behindWord_some hword
    dsimp only at h
    split at h
    · cases h
    · obtain ⟨-, rfl⟩ := Prod.mk.inj (Option.some.inj h)
      have h1 := (List.dropWhile_suffix isSpace (l := behind)).length_le
      have h2 := (List.dropWhile_suffix isWordChar (l := behind.dropWhile isSpace)).length_le
      have h3 := congrArg List.length hhead
      rw [List.length_map] at h3
      have h4 : bearer.length = 6 := rfl
      rw [List.length_append]
      omega

/-- `_BEARER_RE`. -/
def bearerRe : Pattern Char := ⟨bearerRun, bearerRun_some⟩

/-- `_TOKEN_KV_RE`. -/
def tokenKvRe : Pattern Char where
  run := tokenKvRun
  shorter h := by
    obtain ⟨value, hkey, hvalue, -⟩ := tokenKvRun_some h
    exact Nat.lt_of_le_of_lt (behindValue_suffix hvalue).length_le (behindKey_some hkey).2

/-! ### Redaction -/

/-- `redact_text`, on characters. -/
def redact (text : List Char) : List Char := tokenKvRe.sub (bearerRe.sub text)

/-- `redact_text`. -/
def redactText (value : String) : String := String.ofList (redact value.toList)

example : redactText "Authorization: Bearer abc.def" = "Authorization: [REDACTED] [REDACTED]" := by
  decide +kernel

end DataRelay.Relay.Audit
