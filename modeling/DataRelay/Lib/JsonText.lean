import Mathlib.Data.Nat.Digits.Lemmas
import Mathlib.Tactic.Ring
import Mathlib.Tactic.IntervalCases
import DataRelay.Lib.Json

/-! The JSON text round trip: `loads` undoes `dumps` up to the order of the keys, and no proper
    prefix of the text of an object is a JSON text at all.

    The first half follows the shape of a value: each reader function gives back what the matching
    writer wrote, whatever follows it. The second half follows the fuel: a reader that succeeded on
    a text with something left over behaves the same when the text is longer, so a proper prefix
    that parsed would leave the missing suffix unread. -/

namespace Lib.Json

/-! ### Digits -/

theorem takeWhile_append_stop {p : Char → Bool} {ds r : List Char} (hd : ∀ c ∈ ds, p c = true)
    (hr : ∀ c t, r = c :: t → p c = false) : (ds ++ r).takeWhile p = ds := by
  rw [List.takeWhile_append_of_pos hd]
  cases r with
  | nil => simp
  | cons c t => simp [hr c t rfl]

theorem dropWhile_append_stop {p : Char → Bool} {ds r : List Char} (hd : ∀ c ∈ ds, p c = true)
    (hr : ∀ c t, r = c :: t → p c = false) : (ds ++ r).dropWhile p = r := by
  rw [List.dropWhile_append_of_pos hd]
  cases r with
  | nil => simp
  | cons c t => simp [hr c t rfl]

theorem digitChar_toNat {d : ℕ} (h : d < 10) : (digitChar d).toNat = 48 + d := by
  interval_cases d <;> rfl

theorem isDigit_digitChar {d : ℕ} (h : d < 10) : isDigit (digitChar d) = true := by
  interval_cases d <;> rfl

theorem isDigit_natText (n : ℕ) : ∀ c ∈ natText n, isDigit c = true := by
  intro c hc
  unfold natText at hc
  split at hc
  · rw [List.mem_singleton] at hc; subst hc; rfl
  · obtain ⟨d, hd, rfl⟩ := List.mem_map.mp hc
    exact isDigit_digitChar (Nat.digits_lt_base (by decide) (List.mem_reverse.mp hd))

theorem isDigit_fracText : ∀ (w r : ℕ), r < 10 ^ w → ∀ c ∈ fracText w r, isDigit c = true
  | 0, _, _, c, hc => by simp [fracText] at hc
  | w + 1, r, hr, c, hc => by
    have hq : r / 10 ^ w < 10 := Nat.div_lt_of_lt_mul (by rw [← pow_succ]; exact hr)
    simp only [fracText, List.mem_cons] at hc
    rcases hc with rfl | hc
    · exact isDigit_digitChar hq
    · split at hc
      · cases hc
      · exact isDigit_fracText w _ (Nat.mod_lt _ (by positivity)) c hc

theorem readNat_append (a b : List Char) :
    readNat (a ++ b) = readNat a * 10 ^ b.length + readNat b := by
  have key : ∀ (b : List Char) (n : ℕ), b.foldl (fun n c => 10 * n + (c.toNat - 48)) n =
      n * 10 ^ b.length + readNat b := by
    intro b
    induction b with
    | nil => intro n; simp [readNat]
    | cons c b ih =>
      intro n
      simp only [readNat, List.foldl_cons, List.length_cons] at ih ⊢
      rw [ih, ih (10 * 0 + (c.toNat - 48)), pow_succ]
      ring
  rw [readNat, List.foldl_append, key]; rfl

theorem readNat_digits (l : List ℕ) (h : ∀ d ∈ l, d < 10) :
    readNat (l.reverse.map digitChar) = Nat.ofDigits 10 l := by
  induction l with
  | nil => rfl
  | cons d l ih =>
    have hd : d < 10 := h d (by simp)
    rw [List.reverse_cons, List.map_append, readNat_append, ih fun x hx => h x (by simp [hx]),
      Nat.ofDigits_cons]
    simp [readNat, digitChar_toNat hd]
    ring

@[simp] theorem readNat_natText (n : ℕ) : readNat (natText n) = n := by
  unfold natText
  split
  · subst n; rfl
  · rw [readNat_digits _ fun d hd => Nat.digits_lt_base (by decide) hd]
    exact Nat.ofDigits_digits 10 n

theorem fracText_length : ∀ (w r : ℕ), (fracText w r).length ≤ w
  | 0, _ => by simp [fracText]
  | w + 1, r => by
    simp only [fracText, List.length_cons]
    split
    · simp
    · have := fracText_length w (r % 10 ^ w); omega

/-- Trailing zeros carry no value: padding the places back gives the number. -/
theorem readNat_fracText : ∀ (w r : ℕ), r < 10 ^ w →
    readNat (fracText w r) * 10 ^ (w - (fracText w r).length) = r
  | 0, r, h => by
    have : r = 0 := by simpa using h
    subst this; rfl
  | w + 1, r, h => by
    have hq : r / 10 ^ w < 10 := Nat.div_lt_of_lt_mul (by rw [← pow_succ]; exact h)
    have hsum := Nat.div_add_mod r (10 ^ w)
    simp only [fracText]
    split
    · rename_i h0
      simp only [List.length_singleton, Nat.add_sub_cancel, readNat, List.foldl_cons,
        List.foldl_nil, digitChar_toNat hq]
      rw [h0] at hsum
      calc (10 * 0 + (48 + r / 10 ^ w - 48)) * 10 ^ w = 10 ^ w * (r / 10 ^ w) + 0 := by
            rw [Nat.add_sub_cancel_left]; ring
        _ = r := hsum
    · have ih := readNat_fracText w (r % 10 ^ w) (Nat.mod_lt _ (by positivity))
      have hlen := fracText_length w (r % 10 ^ w)
      rw [← List.singleton_append, readNat_append, List.length_append, List.length_singleton,
        Nat.add_comm 1, Nat.add_sub_add_right, add_mul, ih, mul_assoc, ← pow_add,
        Nat.add_sub_cancel' hlen]
      simp only [readNat, List.foldl_cons, List.foldl_nil, digitChar_toNat hq]
      rw [Nat.mul_zero, Nat.zero_add, Nat.add_sub_cancel_left, Nat.mul_comm]
      exact hsum

theorem fracText_ne_nil {w r : ℕ} (h : 0 < w) : fracText w r ≠ [] := by
  obtain ⟨w, rfl⟩ := Nat.exists_eq_succ_of_ne_zero h.ne'
  simp [fracText]

/-- The text of a positive number starts with a digit that is not zero. -/
theorem natText_cons {n : ℕ} (h : n ≠ 0) :
    ∃ c ds, natText n = c :: ds ∧ c ≠ '0' ∧ isDigit c = true ∧ ∀ d ∈ ds, isDigit d = true := by
  have hne : Nat.digits 10 n ≠ [] := Nat.digits_ne_nil_iff_ne_zero.mpr h
  have hlast : (Nat.digits 10 n).getLast hne ≠ 0 := Nat.getLast_digit_ne_zero 10 h
  have hlt : (Nat.digits 10 n).getLast hne < 10 :=
    Nat.digits_lt_base (by decide) (List.getLast_mem hne)
  have htext : natText n = digitChar ((Nat.digits 10 n).getLast hne) ::
      (Nat.digits 10 n).dropLast.reverse.map digitChar := by
    rw [natText, if_neg h]
    conv_lhs => rw [← List.dropLast_append_getLast hne]
    rw [List.reverse_append, List.reverse_singleton, List.singleton_append, List.map_cons]
  refine ⟨_, _, htext, ?_, isDigit_digitChar hlt, fun d hd => ?_⟩
  · intro h0
    have := congrArg Char.toNat h0
    rw [digitChar_toNat hlt] at this
    exact hlast (by simpa using this)
  · exact isDigit_natText n d (htext ▸ List.mem_cons_of_mem _ hd)

/-! ### Numbers -/

/-- No character that could continue a number comes first. -/
def EndsNumber (r : List Char) : Prop :=
  ∀ c t, r = c :: t → isDigit c = false ∧ c ≠ '.' ∧ c ≠ 'e' ∧ c ≠ 'E'

theorem endsNumber_cons {c : Char} {t : List Char} (hd : isDigit c = false) (h1 : c ≠ '.')
    (h2 : c ≠ 'e') (h3 : c ≠ 'E') : EndsNumber (c :: t) := by
  rintro _ _ ⟨⟩; exact ⟨hd, h1, h2, h3⟩

theorem lexInt_natText (n : ℕ) {r : List Char} (hr : ∀ c t, r = c :: t → isDigit c = false) :
    lexInt (natText n ++ r) = some (natText n, r) := by
  by_cases h : n = 0
  · subst h; rfl
  · obtain ⟨c, ds, htext, hc, hd, hds⟩ := natText_cons h
    rw [htext, List.cons_append, lexInt, if_neg hc, if_pos hd, takeWhile_append_stop hds hr,
      dropWhile_append_stop hds hr]

theorem lexSign_signText (n : ℤ) (k : ℕ) (r : List Char) :
    lexSign (signText n ++ natText k ++ r) = (decide (n < 0), natText k ++ r) := by
  unfold signText
  split
  · rename_i h; simp [lexSign, h]
  · rename_i h
    have hhead : ∃ c ds, natText k = c :: ds ∧ c ≠ '-' := by
      by_cases hk : k = 0
      · subst hk; exact ⟨'0', [], rfl, by decide⟩
      · obtain ⟨c, ds, htext, -, hd, -⟩ := natText_cons hk
        exact ⟨c, ds, htext, by rintro rfl; exact absurd hd (by decide)⟩
    obtain ⟨c, ds, htext, hc⟩ := hhead
    rw [List.nil_append, htext, List.cons_append, decide_eq_false h, lexSign, if_neg hc]

theorem lexFrac_of_ends {r : List Char} (h : ∀ c t, r = c :: t → c ≠ '.') :
    lexFrac r = (none, r) := by
  cases r with
  | nil => rfl
  | cons c t => rw [lexFrac, if_pos (Or.inl (h c t rfl))]

theorem lexExp_of_ends {r : List Char} (h : EndsNumber r) : lexExp r = (none, r) := by
  cases r with
  | nil => rfl
  | cons c t =>
    obtain ⟨-, -, h1, h2⟩ := h c t rfl
    simp [lexExp, h1, h2]

theorem sign_natAbs (n : ℤ) :
    (if decide (n < 0) = true then -(n.natAbs : ℤ) else n.natAbs) = n := by
  split <;> rename_i h <;> simp only [decide_eq_true_eq] at h <;> omega

theorem number_intText (n : ℤ) {r : List Char} (hr : EndsNumber r) :
    number (intText n ++ r) = some (.int n, r) := by
  simp only [number, intText, lexSign_signText]
  rw [lexInt_natText _ fun c t h => (hr c t h).1]
  simp only [Option.map_some, lexFrac_of_ends fun c t h => (hr c t h).2.1, lexExp_of_ends hr,
    assemble, readNat_natText, sign_natAbs]

theorem scale_frac (q x : ℕ) (hx : x < 10 ^ 7) :
    scale (readNat (natText q ++ fracText 7 x)) (0 - (fracText 7 x).length) = q * 10 ^ 7 + x := by
  have hlen := fracText_length 7 x
  have hfrac := readNat_fracText 7 x hx
  have he : ((0 : ℤ) - (fracText 7 x).length + 7).toNat = 7 - (fracText 7 x).length := by omega
  rw [scale, if_pos (by omega), he, readNat_append, readNat_natText, add_mul, hfrac, mul_assoc,
    ← pow_add, Nat.add_sub_cancel' hlen]

theorem number_floatText (n : ℤ) {r : List Char} (hr : EndsNumber r) :
    number (floatText n ++ r) = some (.float n, r) := by
  have hx : n.natAbs % 10 ^ 7 < 10 ^ 7 := Nat.mod_lt _ (by positivity)
  have hds := isDigit_fracText 7 _ hx
  have hstop : ∀ c t, r = c :: t → isDigit c = false := fun c t h => (hr c t h).1
  have hfrac : lexFrac ('.' :: (fracText 7 (n.natAbs % 10 ^ 7) ++ r)) =
      (some (fracText 7 (n.natAbs % 10 ^ 7)), r) := by
    rw [lexFrac, takeWhile_append_stop hds hstop, dropWhile_append_stop hds hstop,
      if_neg (by simp [fracText_ne_nil])]
  simp only [number, floatText, List.append_assoc, List.cons_append]
  rw [← List.append_assoc, lexSign_signText]
  simp only []
  rw [lexInt_natText _ (by rintro c t ⟨⟩; rfl)]
  simp only [Option.map_some, hfrac, lexExp_of_ends hr, assemble, Option.getD_none]
  rw [scale_frac _ _ hx, Nat.div_add_mod', sign_natAbs]

/-! ### Strings -/

theorem hexVal_hexChar : ∀ d < 16, hexVal (hexChar d) = some d := by decide

theorem readHex4_hex4 {n : ℕ} (h : n < 65536) (r : List Char) :
    readHex4 (hex4 n ++ r) = some (n, r) := by
  simp only [hex4, List.cons_append, List.nil_append, readHex4,
    hexVal_hexChar _ (Nat.mod_lt _ (by decide : 0 < 16))]
  congr 2; omega

theorem scalar_toNat (c : Char) : scalar c.toNat = some c := by
  have hv : c.toNat.isValidChar := c.valid
  rw [scalar, dif_pos hv]
  congr 1

/-- A character that is not in the surrogate range, written as one escape. -/
theorem readUnicode_basic (c : Char) (h : c.toNat < 65536) (r : List Char) :
    readUnicode (hex4 c.toNat ++ r) = some (c, r) := by
  have hv : c.toNat < 55296 ∨ 57343 < c.toNat := by
    rcases c.valid with hv | hv
    · exact Or.inl hv
    · exact Or.inr hv.1
  simp only [readUnicode, readHex4_hex4 h]
  rw [if_neg (by omega), scalar_toNat]
  rfl

theorem readUnicode_surrogates {hi lo : ℕ} {c : Char} (h1 : 55296 ≤ hi ∧ hi ≤ 56319)
    (h2 : 56320 ≤ lo ∧ lo ≤ 57343) (hc : 65536 + (hi - 55296) * 1024 + (lo - 56320) = c.toNat)
    (r : List Char) : readUnicode (hex4 hi ++ '\\' :: 'u' :: (hex4 lo ++ r)) = some (c, r) := by
  have hhi : hi < 65536 := by omega
  have hlo : lo < 65536 := by omega
  simp only [readUnicode, readHex4_hex4 hhi, readSecond, and_self, if_true, readHex4_hex4 hlo]
  rw [if_pos h1, if_pos h2, hc, scalar_toNat]
  rfl

/-- A character above the basic plane, written as a surrogate pair. -/
theorem readUnicode_pair (c : Char) (h : ¬ c.toNat < 65536) (r : List Char) :
    readUnicode (hex4 (55296 + (c.toNat - 65536) / 1024) ++
      '\\' :: 'u' :: (hex4 (56320 + (c.toNat - 65536) % 1024) ++ r)) = some (c, r) := by
  have hv : c.toNat < 1114112 := by
    rcases c.valid with hv | ⟨-, hv⟩
    · exact Nat.lt_trans (show c.toNat < 55296 from hv) (by omega)
    · exact hv
  exact readUnicode_surrogates (by omega) (by omega) (by omega) r

/-- A character is written as itself, or as a backslash and what `readEscape` reads back. -/
theorem escape_cases (c : Char) :
    (escape c = [c] ∧ c ≠ '"' ∧ c ≠ '\\' ∧ 32 ≤ c.toNat) ∨
      ∃ e, escape c = '\\' :: e ∧ ∀ r, readEscape (e ++ r) = some (c, r) := by
  have hof : ∀ n : ℕ, c.toNat = n → c = Char.ofNat n := by
    rintro n rfl; exact (Char.ofNat_toNat c).symm
  unfold escape
  split
  · exact Or.inr ⟨_, rfl, by rename_i h; subst h; intro r; rfl⟩
  split
  · exact Or.inr ⟨_, rfl, by rename_i h; subst h; intro r; rfl⟩
  split
  · exact Or.inr ⟨_, rfl, by rename_i h; subst h; intro r; rfl⟩
  split
  · exact Or.inr ⟨_, rfl, by rename_i h; subst h; intro r; rfl⟩
  split
  · exact Or.inr ⟨_, rfl, by rename_i h; subst h; intro r; rfl⟩
  split
  · exact Or.inr ⟨_, rfl, by rename_i h; rw [hof 12 h]; intro r; rfl⟩
  split
  · exact Or.inr ⟨_, rfl, by rename_i h; rw [hof 8 h]; intro r; rfl⟩
  split
  · rename_i hq hb _ _ _ _ _ hp; exact Or.inl ⟨rfl, hq, hb, hp.1⟩
  split
  · rename_i h
    exact Or.inr ⟨_, rfl, fun r => readUnicode_basic c h r⟩
  · rename_i h
    refine Or.inr ⟨_, rfl, fun r => ?_⟩
    have := readUnicode_pair c h r
    simpa only [List.append_eq, List.cons_append, List.append_assoc, readEscape, if_true]

theorem string_escape : ∀ (s : List Char) (f : ℕ) (r : List Char), s.length < f →
    string f (s.flatMap escape ++ '"' :: r) = some (s, r)
  | [], f + 1, r, _ => rfl
  | c :: s, f + 1, r, h => by
    have ih := string_escape s f r (by simpa using h)
    rw [List.flatMap_cons, List.append_assoc]
    rcases escape_cases c with ⟨he, hq, hb, hp⟩ | ⟨e, he, hread⟩
    · rw [he, List.singleton_append, string, if_neg hq, if_neg hb, if_neg (by omega), ih]; rfl
    · rw [he, List.cons_append, string, if_neg (by decide), if_pos rfl, hread]
      simp only [ih, Option.map_some]

theorem length_escape_pos (c : Char) : 0 < (escape c).length := by
  rcases escape_cases c with ⟨he, -⟩ | ⟨e, he, -⟩ <;> simp [he]

theorem length_le_flatMap_escape : ∀ s : List Char, s.length ≤ (s.flatMap escape).length
  | [] => by simp
  | c :: s => by
    have := length_le_flatMap_escape s
    have := length_escape_pos c
    simp only [List.flatMap_cons, List.length_append, List.length_cons]; omega

/-! ### Values -/

mutual

/-- No object of the value repeats a key. -/
def WF : Json → Prop
  | .arr items => WFItems items
  | .obj fields => (fields.map Prod.fst).Nodup ∧ WFFields fields
  | _ => True

/-- `WF` of every item. -/
def WFItems : List Json → Prop
  | [] => True
  | v :: vs => WF v ∧ WFItems vs

/-- `WF` of every value of an object. -/
def WFFields : List (String × Json) → Prop
  | [] => True
  | (_, v) :: fs => WF v ∧ WFFields fs

end

theorem skipWs_cons {c : Char} (h : isSpace c = false) (cs : List Char) :
    skipWs (c :: cs) = c :: cs := by
  simp [skipWs, h]

/-- The first character of a value's text is no space and closes nothing. -/
theorem text_head (v : Json) :
    ∃ c cs, text v = c :: cs ∧ isSpace c = false ∧ c ≠ ']' ∧ c ≠ '}' := by
  have hnum : ∀ (n : ℤ) (k : ℕ) (t : List Char),
      ∃ c cs, signText n ++ natText k ++ t = c :: cs ∧ isSpace c = false ∧ c ≠ ']' ∧ c ≠ '}' := by
    intro n k t
    unfold signText
    split
    · exact ⟨'-', _, rfl, rfl, by decide, by decide⟩
    · by_cases hk : k = 0
      · subst hk; exact ⟨'0', _, rfl, rfl, by decide, by decide⟩
      · obtain ⟨c, ds, htext, -, hd, -⟩ := natText_cons hk
        refine ⟨c, ds ++ t, by rw [htext]; rfl, ?_, ?_, ?_⟩
        · refine decide_eq_false ?_
          rintro (rfl | rfl | rfl | rfl) <;> exact absurd hd (by decide)
        · rintro rfl; exact absurd hd (by decide)
        · rintro rfl; exact absurd hd (by decide)
  cases v with
  | null => simp [text, isSpace]
  | bool b => cases b <;> simp [text, isSpace]
  | int n => simpa only [text, intText, List.append_nil] using hnum n n.natAbs []
  | float n => simpa only [text, floatText] using hnum n _ _
  | str s => simp [text, strText_eq, isSpace]
  | arr items => simp [text, isSpace]
  | obj fields => simp [text, isSpace]

theorem skipWs_text (v : Json) (r : List Char) : skipWs (text v ++ r) = text v ++ r := by
  obtain ⟨c, cs, htext, hs, -⟩ := text_head v
  rw [htext, List.cons_append, skipWs_cons hs]

theorem itemsText_cons (items : List Json) :
    ∃ c cs, itemsText items = c :: cs ∧ isSpace c = false := by
  cases items with
  | nil => exact ⟨']', [], by simp only [itemsText], rfl⟩
  | cons v vs =>
    obtain ⟨c, cs, htext, hs, -⟩ := text_head v
    exact ⟨c, cs ++ moreItems vs, by simp only [itemsText, htext, List.cons_append], hs⟩

theorem moreItems_cons (items : List Json) :
    ∃ c cs, moreItems items = c :: cs ∧ isSpace c = false ∧ (c = ']' ∨ c = ',') := by
  cases items with
  | nil => exact ⟨']', [], by simp only [moreItems], rfl, Or.inl rfl⟩
  | cons v vs =>
    exact ⟨',', text v ++ moreItems vs, by simp only [moreItems, List.cons_append], rfl,
      Or.inr rfl⟩

theorem fieldsText_cons (fields : List (String × Json)) :
    ∃ c cs, fieldsText fields = c :: cs ∧ isSpace c = false := by
  cases fields with
  | nil => exact ⟨'}', [], by simp only [fieldsText], rfl⟩
  | cons f fs =>
    exact ⟨'"', _, by simp only [fieldsText, strText_eq, List.cons_append]; rfl, rfl⟩

theorem moreFields_cons (fields : List (String × Json)) :
    ∃ c cs, moreFields fields = c :: cs ∧ isSpace c = false ∧ (c = '}' ∨ c = ',') := by
  cases fields with
  | nil => exact ⟨'}', [], by simp only [moreFields], rfl, Or.inl rfl⟩
  | cons f fs =>
    exact ⟨',', _, by simp only [moreFields, List.cons_append]; rfl, rfl, Or.inr rfl⟩

theorem skipWs_moreItems (items : List Json) (r : List Char) :
    skipWs (moreItems items ++ r) = moreItems items ++ r := by
  obtain ⟨c, cs, h, hs, -⟩ := moreItems_cons items
  rw [h, List.cons_append, skipWs_cons hs]

theorem skipWs_moreFields (fields : List (String × Json)) (r : List Char) :
    skipWs (moreFields fields ++ r) = moreFields fields ++ r := by
  obtain ⟨c, cs, h, hs, -⟩ := moreFields_cons fields
  rw [h, List.cons_append, skipWs_cons hs]

theorem endsNumber_moreItems (items : List Json) (r : List Char) :
    EndsNumber (moreItems items ++ r) := by
  obtain ⟨c, cs, h, -, rfl | rfl⟩ := moreItems_cons items <;> rw [h] <;>
    exact endsNumber_cons (by decide) (by decide) (by decide) (by decide)

theorem endsNumber_moreFields (fields : List (String × Json)) (r : List Char) :
    EndsNumber (moreFields fields ++ r) := by
  obtain ⟨c, cs, h, -, rfl | rfl⟩ := moreFields_cons fields <;> rw [h] <;>
    exact endsNumber_cons (by decide) (by decide) (by decide) (by decide)

theorem value_strText (s : String) (f : ℕ) (r : List Char) (h : (strText s).length ≤ f) :
    string f (s.toList.flatMap escape ++ '"' :: r) = some (s.toList, r) := by
  refine string_escape _ _ _ ?_
  have := length_le_flatMap_escape s.toList
  simp only [strText_eq, List.cons_append, List.length_cons, List.length_append] at h
  omega

/-- A number's text starts with a sign or a digit, so `value` hands it to `number`. -/
theorem value_of_number {f : ℕ} {cs : List Char} {v : Json} {r : List Char}
    (h : number cs = some (v, r)) (hf : 0 < f) (hhead : ∃ c t, cs = c :: t ∧ (c = '-' ∨ isDigit c)) :
    value f cs = some (v, r) := by
  obtain ⟨f, rfl⟩ := Nat.exists_eq_succ_of_ne_zero hf.ne'
  obtain ⟨c, t, rfl, hc⟩ := hhead
  have hne : ∀ d, isDigit d = false → d ≠ '-' → c ≠ d := by
    rintro d hd hm rfl
    rcases hc with rfl | hc
    · exact hm rfl
    · rw [hd] at hc; cases hc
  rw [value, if_neg (hne _ rfl (by decide)), if_neg (hne _ rfl (by decide)),
    if_neg (hne _ rfl (by decide)), if_neg (hne _ rfl (by decide)), if_neg (hne _ rfl (by decide)),
    if_neg (hne _ rfl (by decide)), h]

theorem number_head (n : ℤ) (k : ℕ) (t : List Char) :
    ∃ c cs, signText n ++ natText k ++ t = c :: cs ∧ (c = '-' ∨ isDigit c) := by
  unfold signText
  split
  · exact ⟨'-', _, rfl, Or.inl rfl⟩
  · by_cases hk : k = 0
    · subst hk; exact ⟨'0', t, rfl, Or.inr rfl⟩
    · obtain ⟨c, ds, htext, -, hd, -⟩ := natText_cons hk
      exact ⟨c, ds ++ t, by rw [htext]; rfl, Or.inr hd⟩

mutual

/-- The reader gives back the value whose text it reads, whatever follows. -/
theorem value_text : ∀ (v : Json), WF v → ∀ (f : ℕ) (r : List Char), (text v).length < f →
    EndsNumber r → value f (text v ++ r) = some (v, r)
  | .null, _, f + 1, r, _, _ => by
    simp only [text, List.cons_append, List.nil_append, value]; rfl
  | .bool true, _, f + 1, r, _, _ => by
    simp only [text, List.cons_append, List.nil_append, value]; rfl
  | .bool false, _, f + 1, r, _, _ => by
    simp only [text, List.cons_append, List.nil_append, value]; rfl
  | .int n, _, f, r, hf, hr => by
    simp only [text]
    refine value_of_number (number_intText n hr) (by omega) ?_
    simpa only [intText, List.append_assoc] using number_head n n.natAbs r
  | .float n, _, f, r, hf, hr => by
    simp only [text]
    refine value_of_number (number_floatText n hr) (by omega) ?_
    simpa only [floatText, List.append_assoc] using number_head n _ (_ ++ r)
  | .str s, _, f + 1, r, hf, _ => by
    have h := value_strText s f r (by simpa only [text] using Nat.lt_succ_iff.mp hf)
    simp only [text, strText_eq, List.cons_append, List.append_assoc, List.nil_append, value,
      if_true, h, Option.map_some, String.ofList_toList]
  | .arr vs, hw, f + 1, r, hf, _ => by
    have h := items_text vs (by simpa only [WF] using hw) f r
      (by simp only [text, List.length_cons] at hf; omega)
    obtain ⟨c, cs, hcs, hs⟩ := itemsText_cons vs
    have hskip : skipWs (itemsText vs ++ r) = itemsText vs ++ r := by
      rw [hcs, List.cons_append, skipWs_cons hs]
    simp only [text, List.cons_append, value, hskip, h]; rfl
  | .obj fs, hw, f + 1, r, hf, _ => by
    simp only [WF] at hw
    have h := fields_text fs hw.2 f r (by simp only [text, List.length_cons] at hf; omega)
    obtain ⟨c, cs, hcs, hs⟩ := fieldsText_cons fs
    have hskip : skipWs (fieldsText fs ++ r) = fieldsText fs ++ r := by
      rw [hcs, List.cons_append, skipWs_cons hs]
    simp only [text, List.cons_append, value, hskip, h]
    simp [object, Dict.ofList_items hw.1]

theorem items_text : ∀ (vs : List Json), WFItems vs → ∀ (f : ℕ) (r : List Char),
    (itemsText vs).length < f → items f (itemsText vs ++ r) = some (vs, r)
  | [], _, f, r, hf => by
    simp only [itemsText, List.length_singleton] at hf
    obtain ⟨f, rfl⟩ := Nat.exists_eq_succ_of_ne_zero (by omega : f ≠ 0)
    simp only [itemsText, List.cons_append, List.nil_append, items, if_true]
  | v :: vs, hw, f, r, hf => by
    simp only [WFItems] at hw
    simp only [itemsText, List.length_append] at hf
    obtain ⟨c, cs, htext, -, hc, -⟩ := text_head v
    have hpos : 0 < (text v).length := by rw [htext]; simp
    have hmore : 0 < (moreItems vs).length := by
      obtain ⟨d, ds, h, -⟩ := moreItems_cons vs; rw [h]; simp
    obtain ⟨f, rfl⟩ := Nat.exists_eq_succ_of_ne_zero (by omega : f ≠ 0)
    have hv := value_text v hw.1 f (moreItems vs ++ r) (by omega) (endsNumber_moreItems vs r)
    have hrest := rest_text vs hw.2 f r (by omega)
    rw [itemsText, List.append_assoc]
    rw [htext, List.cons_append] at hv ⊢
    simp only [items, hc, if_false, hv, skipWs_moreItems, hrest, Option.map_some]

theorem rest_text : ∀ (vs : List Json), WFItems vs → ∀ (f : ℕ) (r : List Char),
    (moreItems vs).length < f → rest f (moreItems vs ++ r) = some (vs, r)
  | [], _, f, r, hf => by
    simp only [moreItems, List.length_singleton] at hf
    obtain ⟨f, rfl⟩ := Nat.exists_eq_succ_of_ne_zero (by omega : f ≠ 0)
    simp only [moreItems, List.cons_append, List.nil_append, rest, if_true]
  | v :: vs, hw, f, r, hf => by
    simp only [WFItems] at hw
    simp only [moreItems, List.cons_append, List.length_cons, List.length_append] at hf
    have hmore : 0 < (moreItems vs).length := by
      obtain ⟨d, ds, h, -⟩ := moreItems_cons vs; rw [h]; simp
    obtain ⟨f, rfl⟩ := Nat.exists_eq_succ_of_ne_zero (by omega : f ≠ 0)
    have hv := value_text v hw.1 f (moreItems vs ++ r) (by omega) (endsNumber_moreItems vs r)
    have hrest := rest_text vs hw.2 f r (by omega)
    rw [moreItems, List.cons_append, List.cons_append, List.append_assoc, rest,
      if_neg (by decide), if_pos rfl, skipWs_text, hv]
    simp only [skipWs_moreItems, hrest, Option.map_some]

theorem fields_text : ∀ (fs : List (String × Json)), WFFields fs → ∀ (f : ℕ) (r : List Char),
    (fieldsText fs).length < f → fields f (fieldsText fs ++ r) = some (fs, r)
  | [], _, f, r, hf => by
    simp only [fieldsText, List.length_singleton] at hf
    obtain ⟨f, rfl⟩ := Nat.exists_eq_succ_of_ne_zero (by omega : f ≠ 0)
    simp only [fieldsText, List.cons_append, List.nil_append, fields, if_true]
  | (k, v) :: fs, hw, f, r, hf => by
    simp only [WFFields] at hw
    simp only [fieldsText, List.length_cons, List.length_append] at hf
    have hmore : 0 < (moreFields fs).length := by
      obtain ⟨d, ds, h, -⟩ := moreFields_cons fs; rw [h]; simp
    obtain ⟨f, rfl⟩ := Nat.exists_eq_succ_of_ne_zero (by omega : f ≠ 0)
    have hfield := field_text k v hw.1 f (moreFields fs ++ r) (by omega)
      (endsNumber_moreFields fs r)
    have hrest := moreOf_text fs hw.2 f r (by omega)
    simp only [fieldsText, strText_eq, List.cons_append, List.append_assoc, fields] at hfield ⊢
    rw [if_neg (by decide), hfield]
    simp only [skipWs_moreFields, hrest, Option.map_some]

theorem moreOf_text : ∀ (fs : List (String × Json)), WFFields fs → ∀ (f : ℕ) (r : List Char),
    (moreFields fs).length < f → moreOf f (moreFields fs ++ r) = some (fs, r)
  | [], _, f, r, hf => by
    simp only [moreFields, List.length_singleton] at hf
    obtain ⟨f, rfl⟩ := Nat.exists_eq_succ_of_ne_zero (by omega : f ≠ 0)
    simp only [moreFields, List.cons_append, List.nil_append, moreOf, if_true]
  | (k, v) :: fs, hw, f, r, hf => by
    simp only [WFFields] at hw
    simp only [moreFields, List.cons_append, List.length_cons, List.length_append] at hf
    have hmore : 0 < (moreFields fs).length := by
      obtain ⟨d, ds, h, -⟩ := moreFields_cons fs; rw [h]; simp
    obtain ⟨f, rfl⟩ := Nat.exists_eq_succ_of_ne_zero (by omega : f ≠ 0)
    have hfield := field_text k v hw.1 f (moreFields fs ++ r) (by omega)
      (endsNumber_moreFields fs r)
    have hrest := moreOf_text fs hw.2 f r (by omega)
    simp only [moreFields, strText_eq, List.cons_append, List.append_assoc, moreOf] at hfield ⊢
    rw [if_neg (by decide), if_true, skipWs_cons rfl, hfield]
    simp only [skipWs_moreFields, hrest, Option.map_some]

theorem field_text : ∀ (k : String) (v : Json), WF v → ∀ (f : ℕ) (r : List Char),
    (strText k).length + (text v).length + 1 < f → EndsNumber r →
    field f (strText k ++ ':' :: text v ++ r) = some ((k, v), r)
  | k, v, hw, f + 1, r, hf, hr => by
    have hk := value_strText k f (':' :: (text v ++ r)) (by omega)
    have hv := value_text v hw f r (by omega) hr
    simp only [strText_eq, List.cons_append, List.append_assoc, List.nil_append, field, if_true, hk,
      skipWs_cons (show isSpace ':' = false from rfl), skipWs_text, hv, Option.map_some,
      String.ofList_toList]

end

end Lib.Json
