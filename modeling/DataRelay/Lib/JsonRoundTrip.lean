import DataRelay.Lib.JsonText

/-! `loads (dumps v)` is `v` with its keys sorted, and a proper prefix of the text of an object is
    refused.

    For the prefix: every reader that succeeds and leaves something that cannot belong to what it
    read does the same on a longer text with more fuel. -/

namespace Lib.Json

/-! ### Sorting keeps values well formed -/

theorem sortFields_perm (fs : List (String × Json)) : (sortFields fs).Perm fs :=
  List.perm_insertionSort _ fs

theorem keys_sortValues : ∀ fs : List (String × Json),
    (sortValues fs).map Prod.fst = fs.map Prod.fst
  | [] => by simp only [sortValues]
  | (k, v) :: fs => by simp only [sortValues, List.map_cons, keys_sortValues fs]

theorem WFFields_iff : ∀ fs : List (String × Json), WFFields fs ↔ ∀ e ∈ fs, WF e.2
  | [] => by simp [WFFields]
  | (k, v) :: fs => by simp [WFFields, WFFields_iff fs]

mutual

theorem WF_sortKeys : ∀ v : Json, WF v → WF (sortKeys v)
  | .null, _ => by simp only [sortKeys, WF]
  | .bool _, _ => by simp only [sortKeys, WF]
  | .int _, _ => by simp only [sortKeys, WF]
  | .float _, _ => by simp only [sortKeys, WF]
  | .str _, _ => by simp only [sortKeys, WF]
  | .arr vs, h => by
    simp only [sortKeys, WF] at h ⊢
    exact WF_sortItems vs h
  | .obj fs, h => by
    simp only [sortKeys, WF] at h ⊢
    have hperm := sortFields_perm (sortValues fs)
    refine ⟨?_, (WFFields_iff _).mpr fun e he => ?_⟩
    · rw [(hperm.map Prod.fst).nodup_iff, keys_sortValues]; exact h.1
    · exact (WFFields_iff _).mp (WF_sortValues fs h.2) e (hperm.mem_iff.mp he)

theorem WF_sortItems : ∀ vs : List Json, WFItems vs → WFItems (sortItems vs)
  | [], _ => by simp only [sortItems, WFItems]
  | v :: vs, h => by
    simp only [WFItems, sortItems] at h ⊢
    exact ⟨WF_sortKeys v h.1, WF_sortItems vs h.2⟩

theorem WF_sortValues : ∀ fs : List (String × Json), WFFields fs → WFFields (sortValues fs)
  | [], _ => by simp only [sortValues, WFFields]
  | (k, v) :: fs, h => by
    simp only [WFFields, sortValues] at h ⊢
    exact ⟨WF_sortKeys v h.1, WF_sortValues fs h.2⟩

end

theorem endsNumber_nil : EndsNumber [] := by rintro _ _ ⟨⟩

/-- Round trip: reading the text of a value gives the value back. -/
theorem loads_text {v : Json} (h : WF v) : loads (text v) = some v := by
  have hv := value_text v h ((text v).length + 1) [] (Nat.lt_succ_self _) endsNumber_nil
  have hskip := skipWs_text v []
  rw [List.append_nil] at hv hskip
  simp only [loads]
  rw [hskip, hv]
  rfl

/-- Reading the dump gives the value back with its keys sorted. -/
theorem loads_dumps {v : Json} (h : WF v) : loads (dumps v) = some (sortKeys v) :=
  loads_text (WF_sortKeys v h)

/-! ### Fields of a sorted value -/

theorem sortValues_eq_map : ∀ fs : List (String × Json),
    sortValues fs = fs.map fun e => (e.1, sortKeys e.2)
  | [] => by simp only [sortValues, List.map_nil]
  | (k, v) :: fs => by simp only [sortValues, List.map_cons, sortValues_eq_map fs]

/-- The fields of a sorted object are those of the object, with their values sorted. -/
theorem sortKeys_obj (fs : List (String × Json)) :
    ∃ gs, sortKeys (.obj fs) = .obj gs ∧ gs.Perm (fs.map fun e => (e.1, sortKeys e.2)) :=
  ⟨_, by simp only [sortKeys, sortValues_eq_map], sortFields_perm _⟩

theorem get?_obj_iff {fs : List (String × Json)} (h : (fs.map Prod.fst).Nodup) (k : String)
    (v : Json) : get? (.obj fs) k = some v ↔ (k, v) ∈ fs :=
  Dict.get?_iff_mem ⟨fs, h⟩ k v

theorem get?_sortKeys {fs : List (String × Json)} (h : (fs.map Prod.fst).Nodup) (k : String) :
    get? (sortKeys (.obj fs)) k = (get? (.obj fs) k).map sortKeys := by
  obtain ⟨gs, hgs, hperm⟩ := sortKeys_obj fs
  have hkeys : ((fs.map fun e => (e.1, sortKeys e.2)).map Prod.fst) = fs.map Prod.fst := by
    rw [List.map_map]; rfl
  have hnodup : (gs.map Prod.fst).Nodup := by
    rw [(hperm.map Prod.fst).nodup_iff, hkeys]; exact h
  rw [hgs]
  ext v
  rw [get?_obj_iff hnodup, hperm.mem_iff, Option.map_eq_some_iff]
  simp only [List.mem_map, Prod.exists, Prod.mk.injEq, get?_obj_iff h]
  constructor
  · rintro ⟨k', w, hm, rfl, rfl⟩; exact ⟨w, hm, rfl⟩
  · rintro ⟨w, hm, rfl⟩; exact ⟨k, w, hm, rfl, rfl⟩

/-! ### A longer text -/

/-- What is left over cannot belong to a number. -/
def Cut (r : List Char) : Prop := r ≠ [] ∧ EndsNumber r

theorem takeWhile_append_cut {p : Char → Bool} {cs : List Char} (h : cs.dropWhile p ≠ [])
    (ys : List Char) : (cs ++ ys).takeWhile p = cs.takeWhile p ∧
      (cs ++ ys).dropWhile p = cs.dropWhile p ++ ys := by
  induction cs with
  | nil => exact absurd rfl h
  | cons c cs ih =>
    by_cases hc : p c
    · simp only [List.cons_append, List.takeWhile_cons, List.dropWhile_cons, hc, if_true] at h ⊢
      obtain ⟨h1, h2⟩ := ih h
      exact ⟨by rw [h1], h2⟩
    · simp [hc]

theorem skipWs_append {cs : List Char} (h : skipWs cs ≠ []) (ys : List Char) :
    skipWs (cs ++ ys) = skipWs cs ++ ys :=
  (takeWhile_append_cut h ys).2

theorem suffix_ne_nil {r cs : List Char} (h : r <:+ cs) (hr : r ≠ []) : cs ≠ [] := by
  rintro rfl; exact hr (List.suffix_nil.mp h)

theorem lexExpDigits_append {neg : Bool} {orig cs r : List Char} {e : Option ℤ}
    (h : lexExpDigits neg orig cs = (e, r)) (hr : Cut r) (ho : ¬ EndsNumber orig)
    (ys : List Char) : lexExpDigits neg (orig ++ ys) (cs ++ ys) = (e, r ++ ys) := by
  unfold lexExpDigits at h
  split at h
  · simp only [Prod.mk.injEq] at h
    exact absurd (h.2 ▸ hr.2) ho
  · rename_i hne
    simp only [Prod.mk.injEq] at h
    obtain ⟨rfl, rfl⟩ := h
    obtain ⟨h1, h2⟩ := takeWhile_append_cut hr.1 ys
    rw [lexExpDigits, h1, h2, if_neg hne]

theorem not_endsNumber_exp {c : Char} {cs : List Char} (h : c = 'e' ∨ c = 'E') :
    ¬ EndsNumber (c :: cs) := by
  intro he
  obtain ⟨-, -, h1, h2⟩ := he c cs rfl
  exact h.elim h1 h2

theorem lexExp_append {cs r : List Char} {e : Option ℤ} (h : lexExp cs = (e, r)) (hr : Cut r)
    (ys : List Char) : lexExp (cs ++ ys) = (e, r ++ ys) := by
  cases cs with
  | nil =>
    simp only [lexExp, Prod.mk.injEq] at h
    exact absurd h.2.symm hr.1
  | cons c cs =>
    simp only [lexExp, List.cons_append] at h ⊢
    split at h <;> rename_i hc
    · -- at an exponent sign no number ends, so its digits stand before the cut
      have ho : ¬ EndsNumber (c :: cs) := not_endsNumber_exp hc
      rw [if_pos hc, ← List.cons_append]
      cases cs with
      | nil =>
        simp only [lexExpSign, Prod.mk.injEq] at h
        exact absurd (h.2 ▸ hr.2) ho
      | cons d ds =>
        simp only [lexExpSign, List.cons_append] at h ⊢
        split at h
        · rename_i hd; rw [if_pos hd]; exact lexExpDigits_append h hr ho ys
        split at h
        · rename_i hd hd'; rw [if_neg hd, if_pos hd']; exact lexExpDigits_append h hr ho ys
        · rename_i hd hd'; rw [if_neg hd, if_neg hd']; exact lexExpDigits_append h hr ho ys
    · simp only [Prod.mk.injEq] at h
      obtain ⟨rfl, rfl⟩ := h
      rw [if_neg hc]; rfl

theorem lexExpDigits_suffix {neg : Bool} {orig cs r : List Char} {e : Option ℤ}
    (h : lexExpDigits neg orig cs = (e, r)) (hcs : cs <:+ orig) : r <:+ orig := by
  unfold lexExpDigits at h
  split at h <;> simp only [Prod.mk.injEq] at h <;> obtain ⟨-, rfl⟩ := h
  · exact List.suffix_rfl
  · exact (List.dropWhile_suffix _).trans hcs

theorem lexExp_suffix {cs r : List Char} {e : Option ℤ} (h : lexExp cs = (e, r)) : r <:+ cs := by
  cases cs with
  | nil => simp only [lexExp, Prod.mk.injEq] at h; rw [← h.2]
  | cons c cs =>
    simp only [lexExp] at h
    split at h
    · cases cs with
      | nil => simp only [lexExpSign, Prod.mk.injEq] at h; rw [← h.2]
      | cons d ds =>
        have h1 : ds <:+ c :: d :: ds := ⟨[c, d], rfl⟩
        have h2 : d :: ds <:+ c :: d :: ds := ⟨[c], rfl⟩
        simp only [lexExpSign] at h
        split at h
        · exact lexExpDigits_suffix h h1
        split at h
        · exact lexExpDigits_suffix h h1
        · exact lexExpDigits_suffix h h2
    · simp only [Prod.mk.injEq] at h; rw [← h.2]

/-- Of the places behind a point: what is left of them cannot be continued by a longer text. -/
theorem lexFrac_append {cs r : List Char} {o : Option (List Char)} (h : lexFrac cs = (o, r))
    (hne : r ≠ []) (hdot : ∀ t, r ≠ '.' :: t) (ys : List Char) :
    lexFrac (cs ++ ys) = (o, r ++ ys) := by
  cases cs with
  | nil =>
    simp only [lexFrac, Prod.mk.injEq] at h
    exact absurd h.2.symm hne
  | cons c cs =>
    simp only [lexFrac, List.cons_append] at h ⊢
    split at h <;> rename_i hc <;> simp only [Prod.mk.injEq] at h <;> obtain ⟨rfl, rfl⟩ := h
    · have hc' : c ≠ '.' := by rintro rfl; exact hdot _ rfl
      rw [if_pos (Or.inl hc')]; rfl
    · obtain ⟨h1, h2⟩ := takeWhile_append_cut hne ys
      rw [h1, h2, if_neg hc]

theorem lexFrac_suffix {cs r : List Char} {o : Option (List Char)} (h : lexFrac cs = (o, r)) :
    r <:+ cs := by
  cases cs with
  | nil => simp only [lexFrac, Prod.mk.injEq] at h; rw [← h.2]
  | cons c cs =>
    simp only [lexFrac] at h
    split at h <;> simp only [Prod.mk.injEq] at h <;> obtain ⟨-, rfl⟩ := h
    · exact List.suffix_rfl
    · exact (List.dropWhile_suffix _).trans (List.suffix_cons _ _)

theorem lexInt_append {cs ip r : List Char} (h : lexInt cs = some (ip, r)) (hne : r ≠ [])
    (ys : List Char) : lexInt (cs ++ ys) = some (ip, r ++ ys) := by
  cases cs with
  | nil => cases h
  | cons c cs =>
    simp only [lexInt, List.cons_append] at h ⊢
    split at h
    · rename_i hc
      simp only [Option.some.injEq, Prod.mk.injEq] at h
      obtain ⟨rfl, rfl⟩ := h
      rw [if_pos hc]
    · rename_i hc
      split at h
      · rename_i hd
        simp only [Option.some.injEq, Prod.mk.injEq] at h
        obtain ⟨rfl, rfl⟩ := h
        obtain ⟨h1, h2⟩ := takeWhile_append_cut hne ys
        rw [if_neg hc, if_pos hd, h1, h2]
      · cases h

theorem lexSign_append {cs : List Char} (h : cs ≠ []) (ys : List Char) :
    lexSign (cs ++ ys) = ((lexSign cs).1, (lexSign cs).2 ++ ys) := by
  obtain ⟨c, cs, rfl⟩ := List.exists_cons_of_ne_nil h
  simp only [lexSign, List.cons_append]
  split <;> rfl

/-- A number that something cuts off is the same number in a longer text. -/
theorem number_append {cs r : List Char} {v : Json} (h : number cs = some (v, r)) (hr : Cut r)
    (ys : List Char) : number (cs ++ ys) = some (v, r ++ ys) := by
  have hcs : cs ≠ [] := by rintro rfl; cases h
  simp only [number, lexSign_append hcs] at h ⊢
  obtain ⟨⟨ip, r1⟩, hint, hp⟩ := Option.map_eq_some_iff.mp h
  simp only [Prod.mk.injEq] at hp
  obtain ⟨rfl, rfl⟩ := hp
  have hs3 := lexExp_suffix (Prod.eta (lexExp (lexFrac r1).2)).symm
  have hs2 := lexFrac_suffix (Prod.eta (lexFrac r1)).symm
  have hne2 : (lexFrac r1).2 ≠ [] := suffix_ne_nil hs3 hr.1
  have hdot : ∀ t, (lexFrac r1).2 ≠ '.' :: t := by
    intro t ht
    have hexp : lexExp ('.' :: t) = (none, '.' :: t) := rfl
    rw [ht, hexp] at hr
    exact (hr.2 '.' t rfl).2.1 rfl
  have hfrac := lexFrac_append (Prod.eta (lexFrac r1)).symm hne2 hdot ys
  have hexp := lexExp_append (Prod.eta (lexExp (lexFrac r1).2)).symm hr ys
  rw [lexInt_append hint (suffix_ne_nil hs2 hne2)]
  simp only [Option.map_some, hfrac, hexp]

theorem readHex4_append {cs r : List Char} {n : ℕ} (h : readHex4 cs = some (n, r))
    (ys : List Char) : readHex4 (cs ++ ys) = some (n, r ++ ys) := by
  match cs, h with
  | a :: b :: c :: d :: cs, h =>
    simp only [readHex4, List.cons_append] at h ⊢
    split at h
    · simp only [Option.some.injEq, Prod.mk.injEq] at h
      obtain ⟨rfl, rfl⟩ := h; rfl
    · cases h

theorem readSecond_append {cs r : List Char} {n : ℕ} (h : readSecond cs = some (n, r))
    (ys : List Char) : readSecond (cs ++ ys) = some (n, r ++ ys) := by
  match cs, h with
  | a :: b :: cs, h =>
    simp only [readSecond, List.cons_append] at h ⊢
    split at h
    · rename_i hu; rw [if_pos hu]; exact readHex4_append h ys
    · cases h

theorem scalar_map_append {n : ℕ} {c : Char} {t r : List Char}
    (h : (scalar n).map (·, t) = some (c, r)) (ys : List Char) :
    (scalar n).map (·, t ++ ys) = some (c, r ++ ys) := by
  obtain ⟨d, hd, he⟩ := Option.map_eq_some_iff.mp h
  simp only [Prod.mk.injEq] at he
  obtain ⟨rfl, rfl⟩ := he
  rw [hd]; rfl

theorem readUnicode_append {cs r : List Char} {c : Char} (h : readUnicode cs = some (c, r))
    (ys : List Char) : readUnicode (cs ++ ys) = some (c, r ++ ys) := by
  simp only [readUnicode] at h ⊢
  cases hx : readHex4 cs with
  | none => rw [hx] at h; cases h
  | some p =>
    rw [hx] at h
    rw [readHex4_append hx]
    simp only at h ⊢
    split at h
    · rename_i hs
      rw [if_pos hs]
      cases hy : readSecond p.2 with
      | none => rw [hy] at h; cases h
      | some q =>
        rw [hy] at h
        rw [readSecond_append hy]
        simp only at h ⊢
        split at h
        · rename_i hm; rw [if_pos hm]; exact scalar_map_append h ys
        · cases h
    · rename_i hs; rw [if_neg hs]; exact scalar_map_append h ys

theorem readEscape_append {cs r : List Char} {c : Char} (h : readEscape cs = some (c, r))
    (ys : List Char) : readEscape (cs ++ ys) = some (c, r ++ ys) := by
  cases cs with
  | nil => cases h
  | cons d ds =>
    simp only [readEscape, List.cons_append] at h ⊢
    split at h
    · rename_i hd; rw [if_pos hd]; exact readUnicode_append h ys
    · rename_i hd
      rw [if_neg hd]
      repeat'
        first
          | (split at h; (rename_i he; rw [if_pos he]; simp only [Option.some.injEq,
              Prod.mk.injEq] at h; obtain ⟨rfl, rfl⟩ := h; rfl))
          | (rename_i he; rw [if_neg he])
      cases h

theorem string_append : ∀ {f f' : ℕ} {cs s r : List Char}, string f cs = some (s, r) → f ≤ f' →
    ∀ ys, string f' (cs ++ ys) = some (s, r ++ ys)
  | f + 1, f' + 1, c :: cs, s, r, h, hf, ys => by
    simp only [string, List.cons_append] at h ⊢
    split at h
    · rename_i hc
      simp only [Option.some.injEq, Prod.mk.injEq] at h
      obtain ⟨rfl, rfl⟩ := h
      rw [if_pos hc]
    split at h
    · -- an escape is complete before the text ends
      rename_i hc hb
      rw [if_neg hc, if_pos hb]
      cases hx : readEscape cs with
      | none => rw [hx] at h; cases h
      | some p =>
        rw [hx] at h
        rw [readEscape_append hx]
        obtain ⟨q, hq, he⟩ := Option.map_eq_some_iff.mp h
        simp only [Prod.mk.injEq] at he
        obtain ⟨rfl, rfl⟩ := he
        have ih := string_append hq (Nat.le_of_succ_le_succ hf) ys
        simp only [ih, Option.map_some]
    split at h
    · cases h
    · rename_i hc hb hp
      rw [if_neg hc, if_neg hb, if_neg hp]
      obtain ⟨q, hq, he⟩ := Option.map_eq_some_iff.mp h
      simp only [Prod.mk.injEq] at he
      obtain ⟨rfl, rfl⟩ := he
      have ih := string_append hq (Nat.le_of_succ_le_succ hf) ys
      simp only [ih, Option.map_some]

theorem keyword_append : ∀ {ws cs r : List Char}, keyword ws cs = some r →
    ∀ ys, keyword ws (cs ++ ys) = some (r ++ ys)
  | [], cs, r, h, ys => by
    simp only [keyword, Option.some.injEq] at h ⊢; rw [h]
  | w :: ws, c :: cs, r, h, ys => by
    simp only [keyword, List.cons_append] at h ⊢
    split at h
    · rename_i hw; rw [if_pos hw]; exact keyword_append h ys
    · cases h

/-- A value whose own text says where it ends. -/
def Closed : Json → Prop
  | .int _ => False
  | .float _ => False
  | _ => True

theorem cut_of_skipWs {r t : List Char} {c : Char} (h : skipWs r = c :: t)
    (hc : EndsNumber [c]) : Cut r := by
  cases r with
  | nil => cases h
  | cons d ds =>
    refine ⟨List.cons_ne_nil _ _, ?_⟩
    by_cases hd : isSpace d
    · have : d = ' ' ∨ d = '\t' ∨ d = '\n' ∨ d = '\r' := of_decide_eq_true hd
      rcases this with rfl | rfl | rfl | rfl <;>
        exact endsNumber_cons (by decide) (by decide) (by decide) (by decide)
    · rw [skipWs_cons (by simpa using hd)] at h
      obtain ⟨rfl, -⟩ := List.cons.inj h
      obtain ⟨h0, h1, h2, h3⟩ := hc d [] rfl
      exact endsNumber_cons h0 h1 h2 h3

theorem rest_cut {f : ℕ} {r : List Char} {p : List Json × List Char}
    (h : rest f (skipWs r) = some p) : skipWs r ≠ [] ∧ Cut r := by
  obtain _ | f := f
  · cases h
  cases hr : skipWs r with
  | nil => rw [hr] at h; cases h
  | cons c t =>
    rw [hr, rest] at h
    refine ⟨List.cons_ne_nil _ _, cut_of_skipWs hr ?_⟩
    split at h
    · rename_i hc; subst hc
      exact endsNumber_cons (by decide) (by decide) (by decide) (by decide)
    split at h
    · rename_i hc; subst hc
      exact endsNumber_cons (by decide) (by decide) (by decide) (by decide)
    · cases h

theorem moreOf_cut {f : ℕ} {r : List Char} {p : List (String × Json) × List Char}
    (h : moreOf f (skipWs r) = some p) : skipWs r ≠ [] ∧ Cut r := by
  obtain _ | f := f
  · cases h
  cases hr : skipWs r with
  | nil => rw [hr] at h; cases h
  | cons c t =>
    rw [hr, moreOf] at h
    refine ⟨List.cons_ne_nil _ _, cut_of_skipWs hr ?_⟩
    split at h
    · rename_i hc; subst hc
      exact endsNumber_cons (by decide) (by decide) (by decide) (by decide)
    split at h
    · rename_i hc; subst hc
      exact endsNumber_cons (by decide) (by decide) (by decide) (by decide)
    · cases h

theorem skipWs_ne_nil_of_value {f : ℕ} {cs : List Char} {p : Json × List Char}
    (h : value f cs = some p) : cs ≠ [] := by
  rintro rfl; cases f <;> cases h

theorem field_ne_nil {f : ℕ} {cs : List Char} {p : (String × Json) × List Char}
    (h : field f cs = some p) : cs ≠ [] := by
  rintro rfl; cases f <;> cases h

theorem items_ne_nil {f : ℕ} {cs : List Char} {p : List Json × List Char}
    (h : items f cs = some p) : cs ≠ [] := by
  rintro rfl; cases f <;> cases h

theorem fields_ne_nil {f : ℕ} {cs : List Char} {p : List (String × Json) × List Char}
    (h : fields f cs = some p) : cs ≠ [] := by
  rintro rfl; cases f <;> cases h

/-- What the six readers do on a longer text with more fuel, by induction on the fuel. -/
structure Stable (f : ℕ) : Prop where
  value : ∀ {f' cs v r}, value f cs = some (v, r) → f ≤ f' → Cut r ∨ Closed v →
    ∀ ys, Json.value f' (cs ++ ys) = some (v, r ++ ys)
  items : ∀ {f' cs vs r}, items f cs = some (vs, r) → f ≤ f' →
    ∀ ys, Json.items f' (cs ++ ys) = some (vs, r ++ ys)
  rest : ∀ {f' cs vs r}, rest f cs = some (vs, r) → f ≤ f' →
    ∀ ys, Json.rest f' (cs ++ ys) = some (vs, r ++ ys)
  field : ∀ {f' cs kv r}, field f cs = some (kv, r) → f ≤ f' → Cut r ∨ Closed kv.2 →
    ∀ ys, Json.field f' (cs ++ ys) = some (kv, r ++ ys)
  fields : ∀ {f' cs fs r}, fields f cs = some (fs, r) → f ≤ f' →
    ∀ ys, Json.fields f' (cs ++ ys) = some (fs, r ++ ys)
  moreOf : ∀ {f' cs fs r}, moreOf f cs = some (fs, r) → f ≤ f' →
    ∀ ys, Json.moreOf f' (cs ++ ys) = some (fs, r ++ ys)

theorem number_open {cs r : List Char} {v : Json} (h : number cs = some (v, r)) : ¬ Closed v := by
  obtain ⟨p, -, hp⟩ := Option.map_eq_some_iff.mp h
  simp only [Prod.mk.injEq] at hp
  rw [← hp.1]
  cases (lexFrac p.2).1 <;> cases (lexExp (lexFrac p.2).2).1 <;> simp only [assemble, Closed] <;>
    exact id

theorem stable_value {f : ℕ} (ih : Stable f) {f' : ℕ} {cs r : List Char} {v : Json}
    (h : value (f + 1) cs = some (v, r)) (hf : f + 1 ≤ f') (hr : Cut r ∨ Closed v)
    (ys : List Char) : value f' (cs ++ ys) = some (v, r ++ ys) := by
  obtain ⟨f', rfl⟩ : ∃ g, f' = g + 1 := ⟨f' - 1, by omega⟩
  have hf' : f ≤ f' := by omega
  cases cs with
  | nil => cases h
  | cons c cs =>
    simp only [value, List.cons_append] at h ⊢
    split at h
    · -- whichever value begins here, more text behind it does not change how it ends
      rename_i hc
      obtain ⟨q, hq, he⟩ := Option.map_eq_some_iff.mp h
      obtain ⟨rfl, rfl⟩ := Prod.mk.inj he
      rw [if_pos hc, string_append hq hf']; rfl
    rename_i hc1
    rw [if_neg hc1]
    split at h
    · rename_i hc
      obtain ⟨q, hq, he⟩ := Option.map_eq_some_iff.mp h
      obtain ⟨rfl, rfl⟩ := Prod.mk.inj he
      rw [if_pos hc, skipWs_append (items_ne_nil hq), ih.items hq hf']; rfl
    rename_i hc2
    rw [if_neg hc2]
    split at h
    · rename_i hc
      obtain ⟨q, hq, he⟩ := Option.map_eq_some_iff.mp h
      obtain ⟨rfl, rfl⟩ := Prod.mk.inj he
      rw [if_pos hc, skipWs_append (fields_ne_nil hq), ih.fields hq hf']; rfl
    rename_i hc3
    rw [if_neg hc3]
    split at h
    · rename_i hc
      obtain ⟨q, hq, he⟩ := Option.map_eq_some_iff.mp h
      obtain ⟨rfl, rfl⟩ := Prod.mk.inj he
      rw [if_pos hc, keyword_append hq]; rfl
    rename_i hc4
    rw [if_neg hc4]
    split at h
    · rename_i hc
      obtain ⟨q, hq, he⟩ := Option.map_eq_some_iff.mp h
      obtain ⟨rfl, rfl⟩ := Prod.mk.inj he
      rw [if_pos hc, keyword_append hq]; rfl
    rename_i hc5
    rw [if_neg hc5]
    split at h
    · rename_i hc
      obtain ⟨q, hq, he⟩ := Option.map_eq_some_iff.mp h
      obtain ⟨rfl, rfl⟩ := Prod.mk.inj he
      rw [if_pos hc, keyword_append hq]; rfl
    · rename_i hc6
      rw [if_neg hc6]
      exact number_append h (hr.resolve_right (number_open h)) ys

theorem stable_items {f : ℕ} (ih : Stable f) {f' : ℕ} {cs r : List Char} {vs : List Json}
    (h : items (f + 1) cs = some (vs, r)) (hf : f + 1 ≤ f') (ys : List Char) :
    items f' (cs ++ ys) = some (vs, r ++ ys) := by
  obtain ⟨f', rfl⟩ : ∃ g, f' = g + 1 := ⟨f' - 1, by omega⟩
  have hf' : f ≤ f' := by omega
  cases cs with
  | nil => cases h
  | cons c cs =>
    simp only [items, List.cons_append] at h ⊢
    split at h
    · rename_i hc
      simp only [Option.some.injEq, Prod.mk.injEq] at h
      obtain ⟨rfl, rfl⟩ := h
      rw [if_pos hc]
    · rename_i hc
      rw [if_neg hc]
      cases hv : value f (c :: cs) with
      | none => rw [hv] at h; cases h
      | some p =>
        rw [hv] at h
        obtain ⟨q, hq, he⟩ := Option.map_eq_some_iff.mp h
        obtain ⟨rfl, rfl⟩ := Prod.mk.inj he
        obtain ⟨hne, hcut⟩ := rest_cut hq
        rw [← List.cons_append, ih.value hv hf' (Or.inl hcut)]
        simp only [skipWs_append hne, ih.rest hq hf', Option.map_some]

theorem stable_rest {f : ℕ} (ih : Stable f) {f' : ℕ} {cs r : List Char} {vs : List Json}
    (h : rest (f + 1) cs = some (vs, r)) (hf : f + 1 ≤ f') (ys : List Char) :
    rest f' (cs ++ ys) = some (vs, r ++ ys) := by
  obtain ⟨f', rfl⟩ : ∃ g, f' = g + 1 := ⟨f' - 1, by omega⟩
  have hf' : f ≤ f' := by omega
  cases cs with
  | nil => cases h
  | cons c cs =>
    simp only [rest, List.cons_append] at h ⊢
    split at h
    · rename_i hc
      simp only [Option.some.injEq, Prod.mk.injEq] at h
      obtain ⟨rfl, rfl⟩ := h
      rw [if_pos hc]
    split at h
    · rename_i hc hc'
      rw [if_neg hc, if_pos hc']
      cases hv : value f (skipWs cs) with
      | none => rw [hv] at h; cases h
      | some p =>
        rw [hv] at h
        obtain ⟨q, hq, he⟩ := Option.map_eq_some_iff.mp h
        obtain ⟨rfl, rfl⟩ := Prod.mk.inj he
        obtain ⟨hne, hcut⟩ := rest_cut hq
        rw [skipWs_append (skipWs_ne_nil_of_value hv), ih.value hv hf' (Or.inl hcut)]
        simp only [skipWs_append hne, ih.rest hq hf', Option.map_some]
    · cases h

theorem stable_field {f : ℕ} (ih : Stable f) {f' : ℕ} {cs r : List Char} {kv : String × Json}
    (h : field (f + 1) cs = some (kv, r)) (hf : f + 1 ≤ f') (hr : Cut r ∨ Closed kv.2)
    (ys : List Char) : field f' (cs ++ ys) = some (kv, r ++ ys) := by
  obtain ⟨f', rfl⟩ : ∃ g, f' = g + 1 := ⟨f' - 1, by omega⟩
  have hf' : f ≤ f' := by omega
  cases cs with
  | nil => cases h
  | cons c cs =>
    simp only [field, List.cons_append] at h ⊢
    split at h
    · rename_i hc
      rw [if_pos hc]
      cases hk : string f cs with
      | none => rw [hk] at h; cases h
      | some p =>
        rw [hk] at h
        rw [string_append hk hf']
        cases hs : skipWs p.2 with
        | nil => simp only [hs] at h; cases h
        | cons d t =>
          have hne : skipWs p.2 ≠ [] := by rw [hs]; exact List.cons_ne_nil _ _
          simp only [hs, skipWs_append hne, List.cons_append] at h ⊢
          split at h
          · rename_i hd
            obtain ⟨q, hq, he⟩ := Option.map_eq_some_iff.mp h
            obtain ⟨rfl, rfl⟩ := Prod.mk.inj he
            rw [if_pos hd, skipWs_append (skipWs_ne_nil_of_value hq), ih.value hq hf' hr]
            rfl
          · cases h
    · cases h

theorem stable_fields {f : ℕ} (ih : Stable f) {f' : ℕ} {cs r : List Char}
    {fs : List (String × Json)} (h : fields (f + 1) cs = some (fs, r)) (hf : f + 1 ≤ f')
    (ys : List Char) : fields f' (cs ++ ys) = some (fs, r ++ ys) := by
  obtain ⟨f', rfl⟩ : ∃ g, f' = g + 1 := ⟨f' - 1, by omega⟩
  have hf' : f ≤ f' := by omega
  cases cs with
  | nil => cases h
  | cons c cs =>
    simp only [fields, List.cons_append] at h ⊢
    split at h
    · rename_i hc
      simp only [Option.some.injEq, Prod.mk.injEq] at h
      obtain ⟨rfl, rfl⟩ := h
      rw [if_pos hc]
    · rename_i hc
      rw [if_neg hc]
      cases hv : field f (c :: cs) with
      | none => rw [hv] at h; cases h
      | some p =>
        rw [hv] at h
        obtain ⟨q, hq, he⟩ := Option.map_eq_some_iff.mp h
        obtain ⟨rfl, rfl⟩ := Prod.mk.inj he
        obtain ⟨hne, hcut⟩ := moreOf_cut hq
        rw [← List.cons_append, ih.field hv hf' (Or.inl hcut)]
        simp only [skipWs_append hne, ih.moreOf hq hf', Option.map_some]

theorem stable_moreOf {f : ℕ} (ih : Stable f) {f' : ℕ} {cs r : List Char}
    {fs : List (String × Json)} (h : moreOf (f + 1) cs = some (fs, r)) (hf : f + 1 ≤ f')
    (ys : List Char) : moreOf f' (cs ++ ys) = some (fs, r ++ ys) := by
  obtain ⟨f', rfl⟩ : ∃ g, f' = g + 1 := ⟨f' - 1, by omega⟩
  have hf' : f ≤ f' := by omega
  cases cs with
  | nil => cases h
  | cons c cs =>
    simp only [moreOf, List.cons_append] at h ⊢
    split at h
    · rename_i hc
      simp only [Option.some.injEq, Prod.mk.injEq] at h
      obtain ⟨rfl, rfl⟩ := h
      rw [if_pos hc]
    split at h
    · rename_i hc hc'
      rw [if_neg hc, if_pos hc']
      cases hv : field f (skipWs cs) with
      | none => rw [hv] at h; cases h
      | some p =>
        rw [hv] at h
        obtain ⟨q, hq, he⟩ := Option.map_eq_some_iff.mp h
        obtain ⟨rfl, rfl⟩ := Prod.mk.inj he
        obtain ⟨hne, hcut⟩ := moreOf_cut hq
        rw [skipWs_append (field_ne_nil hv), ih.field hv hf' (Or.inl hcut)]
        simp only [skipWs_append hne, ih.moreOf hq hf', Option.map_some]
    · cases h

theorem stable : ∀ f, Stable f
  | 0 => by constructor <;> intro _ _ _ _ h <;> cases h
  | f + 1 =>
    have ih := stable f
    ⟨fun h hf hr => stable_value ih h hf hr, fun h hf => stable_items ih h hf,
      fun h hf => stable_rest ih h hf, fun h hf hr => stable_field ih h hf hr,
      fun h hf => stable_fields ih h hf, fun h hf => stable_moreOf ih h hf⟩

/-- A text cut short anywhere is not a JSON text, when the whole of it is the text of an object. -/
theorem loads_text_take {fs : List (String × Json)} (h : WF (.obj fs)) {n : ℕ}
    (hn : n < (text (.obj fs)).length) : loads ((text (.obj fs)).take n) = none := by
  have htext : text (.obj fs) = '{' :: fieldsText fs := by simp only [text]
  generalize hp : (text (.obj fs)).take n = p
  generalize hq : (text (.obj fs)).drop n = q
  have hpq : p ++ q = text (.obj fs) := by rw [← hp, ← hq, List.take_append_drop]
  have hqne : q ≠ [] := by rw [← hq]; simpa using hn
  unfold loads
  cases hv : value (p.length + 1) (skipWs p) with
  | none => rfl
  | some vr =>
    obtain ⟨v, r⟩ := vr
    simp only
    split
    · exfalso
      obtain ⟨t, rfl⟩ : ∃ t, p = '{' :: t := by
        cases p with
        | nil => cases hv
        | cons c t =>
          rw [htext, List.cons_append, List.cons.injEq] at hpq
          exact ⟨t, by rw [hpq.1]⟩
      rw [skipWs_cons rfl] at hv
      -- a cut text still begins with a brace, so what is read is an object
      have hclosed : Closed v := by
        simp only [value] at hv
        obtain ⟨p, -, he⟩ := Option.map_eq_some_iff.mp hv
        rw [← (Prod.mk.inj he).1]; trivial
      have hlen : (text (.obj fs)).length = ('{' :: t).length + q.length := by
        rw [← hpq, List.length_append]
      -- an object that ends in the cut text ends there in the whole one too
      have hlong := (stable _).value hv
        (by omega : ('{' :: t).length + 1 ≤ (text (.obj fs)).length + 1) (Or.inr hclosed) q
      have hwhole := value_text (.obj fs) h ((text (.obj fs)).length + 1) [] (by omega)
        endsNumber_nil
      rw [hpq] at hlong
      rw [List.append_nil, hlong] at hwhole
      simp only [Option.some.injEq, Prod.mk.injEq, List.append_eq_nil_iff] at hwhole
      exact hqne hwhole.2.2
    · rfl

theorem loads_take {fs : List (String × Json)} (h : WF (.obj fs)) {n : ℕ}
    (hn : n < (dumps (.obj fs)).length) : loads ((dumps (.obj fs)).take n) = none := by
  obtain ⟨gs, hgs⟩ : ∃ gs, sortKeys (.obj fs) = .obj gs := ⟨_, by simp only [sortKeys]; rfl⟩
  rw [dumps, hgs] at hn ⊢
  exact loads_text_take (hgs ▸ WF_sortKeys _ h) hn

end Lib.Json
