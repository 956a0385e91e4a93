import Mathlib.Data.List.Basic
import Mathlib.Tactic.Common

/-! Substitution of a pattern, from the left to the right: at each place the pattern is tried, and a
    match is replaced and stepped past.

    The rules say what becomes of a text with a part in the middle that may be one thing or another.
    They need to know of the pattern only what it does at the head of such a text. -/

namespace Lib

/-- A pattern that matches at the head of a text: what a match is replaced by, and the text behind
    it. -/
structure Pattern (α : Type) where
  run : List α → Option (List α × List α)
  shorter : ∀ {text out rest}, run text = some (out, rest) → rest.length < text.length

namespace Pattern
variable {α : Type} (p : Pattern α)

/-- The substitution, in a number of steps. -/
def subAux : ℕ → List α → List α
  | 0, _ => []
  | _ + 1, [] => []
  | n + 1, c :: cs =>
    match p.run (c :: cs) with
    | none => c :: subAux n cs
    | some (out, rest) => out ++ subAux n rest

/-- The text with every match replaced, from the left and without overlap. -/
def sub (text : List α) : List α := p.subAux text.length text

/-- A text does not need more steps than it has characters. -/
theorem subAux_eq : ∀ {n m : ℕ} {text : List α}, text.length ≤ n → text.length ≤ m →
    p.subAux n text = p.subAux m text
  | 0, 0, _, _, _ => rfl
  | 0, _ + 1, [], _, _ => rfl
  | _ + 1, 0, [], _, _ => rfl
  | _ + 1, _ + 1, [], _, _ => rfl
  | n + 1, m + 1, c :: cs, hn, hm => by
    rw [List.length_cons] at hn hm
    rw [subAux, subAux]
    cases hrun : p.run (c :: cs) with
    | none => exact congrArg (c :: ·) (subAux_eq (by omega) (by omega))
    | some r =>
      have hshort := p.shorter hrun
      rw [List.length_cons] at hshort
      exact congrArg (r.1 ++ ·) (subAux_eq (by omega) (by omega))

@[simp] theorem sub_nil : p.sub [] = [] := rfl

variable {p}

theorem sub_cons_none {c : α} {cs : List α} (h : p.run (c :: cs) = none) :
    p.sub (c :: cs) = c :: p.sub cs := by
  rw [sub, List.length_cons, subAux, h]
  rfl

theorem sub_some {text out rest : List α} (h : p.run text = some (out, rest)) :
    p.sub text = out ++ p.sub rest := by
  have hshort := p.shorter h
  cases text with
  | nil => cases hshort
  | cons c cs =>
    rw [List.length_cons] at hshort
    rw [sub, List.length_cons, subAux, h]
    exact congrArg (out ++ ·) (p.subAux_eq (by omega) (Nat.le_refl _))

/-- Nothing matches before the end of the first part. -/
theorem sub_passes {pre post : List α}
    (h : ∀ c cs, (c :: cs) <:+ pre → p.run (c :: cs ++ post) = none) :
    p.sub (pre ++ post) = pre ++ p.sub post := by
  induction pre with
  | nil => rfl
  | cons c cs ih =>
    have hrun := h c cs List.suffix_rfl
    rw [List.cons_append] at hrun ⊢
    rw [sub_cons_none hrun, ih fun d ds hd => h d ds (hd.trans (List.suffix_cons c cs))]
    rfl

/-- If the last character of a match is kept as the last one of its replacement, so is that of the
    text. -/
theorem sub_getLast? {c : α} (hrun : ∀ {text out rest}, p.run text = some (out, rest) →
      out.getLast? = some c ∧ rest <:+ text) :
    ∀ text, text.getLast? = some c → (p.sub text).getLast? = some c := by
  intro text
  -- on the length of the text: a match may skip any part of it
  induction hn : text.length using Nat.strongRecOn generalizing text with
  | _ n ih =>
    intro hlast
    have later : ∀ (out rest : List α), rest <:+ text → rest.length < n →
        p.sub text = out ++ p.sub rest → (rest = [] → out.getLast? = some c) →
        (p.sub text).getLast? = some c := by
      rintro out rest ⟨pre, rfl⟩ hlt hsub hnil
      rw [hsub]
      by_cases hrest : rest = []
      · rw [hrest, sub_nil, List.append_nil]
        exact hnil hrest
      · rw [List.getLast?_append_of_ne_nil _ hrest] at hlast
        rw [List.getLast?_append, ih _ hlt rest rfl hlast]
        rfl
    cases text with
    | nil => cases hlast
    | cons d ds =>
      cases hmatch : p.run (d :: ds) with
      | none =>
        refine later [d] ds (List.suffix_cons d ds) (by rw [← hn, List.length_cons]; omega)
          (sub_cons_none hmatch) ?_
        rintro rfl
        exact hlast
      | some r =>
        obtain ⟨hout, hsuffix⟩ := hrun hmatch
        exact later r.1 r.2 hsuffix (hn ▸ p.shorter hmatch) (sub_some hmatch) fun _ => hout

/-- What a pattern does at the head of a text that goes on with one of several middle parts: it
    matches for none of them, its match ends before the middle part, or it ends past it. -/
inductive Step (p : Pattern α) (middle : List α → Prop) (post : List α) (family : List α → Prop)
    (past : Prop) : List α → Prop where
  | none (c : α) (cs : List α) : (∀ u, middle u → p.run (c :: cs ++ u ++ post) = none) →
      family cs → Step p middle post family past (c :: cs)
  | before {pre : List α} (out pre' : List α) :
      (∀ u, middle u → p.run (pre ++ u ++ post) = some (out, pre' ++ u ++ post)) →
      family pre' → pre'.length < pre.length → Step p middle post family past pre
  | past {pre : List α} (out post' : List α) : past →
      (∀ u, middle u → p.run (pre ++ u ++ post) = some (out, post')) →
      Step p middle post family past pre

section Middle
variable {middle family : List α → Prop} {post : List α} {past : Prop}

/-- A text before the middle part is gone through up to it, or ends in a match that hides it. -/
theorem sub_middle (hstep : ∀ pre, family pre → pre ≠ [] → Step p middle post family past pre) :
    ∀ pre, family pre →
      (∃ out, ∀ u, middle u → p.sub (pre ++ u ++ post) = out ++ p.sub (u ++ post)) ∨
        past ∧ ∃ out post', ∀ u, middle u → p.sub (pre ++ u ++ post) = out ++ p.sub post' := by
  intro pre
  induction hn : pre.length using Nat.strongRecOn generalizing pre with
  | _ n ih =>
    intro hpre
    by_cases hne : pre = []
    · exact .inl ⟨[], fun u _ => by rw [hne]; rfl⟩
    have later : ∀ (out pre' : List α), family pre' → pre'.length < n →
        (∀ u, middle u → p.sub (pre ++ u ++ post) = out ++ p.sub (pre' ++ u ++ post)) →
        (∃ out, ∀ u, middle u → p.sub (pre ++ u ++ post) = out ++ p.sub (u ++ post)) ∨
          past ∧ ∃ out post', ∀ u, middle u → p.sub (pre ++ u ++ post) = out ++ p.sub post' := by
      intro out pre' hfamily hlt hsub
      rcases ih _ hlt pre' rfl hfamily with ⟨out', h⟩ | ⟨hpast, out', post', h⟩
      · exact .inl ⟨out ++ out', fun u hu => by rw [hsub u hu, h u hu, List.append_assoc]⟩
      · exact .inr ⟨hpast, out ++ out', post', fun u hu => by
          rw [hsub u hu, h u hu, List.append_assoc]⟩
    -- the match ends before the middle, or swallows it
    cases hstep pre hpre hne with
    | none c cs hrun hfamily =>
      refine later [c] cs hfamily (by rw [← hn, List.length_cons]; omega) fun u hu => ?_
      exact sub_cons_none (hrun u hu)
    | before out pre' hrun hfamily hlt =>
      exact later out pre' hfamily (hn ▸ hlt) fun u hu => sub_some (hrun u hu)
    | past out post' hpast hrun =>
      exact .inr ⟨hpast, out, post', fun u hu => sub_some (hrun u hu)⟩

/-- If every match ends before the middle part, the text before it is gone through up to it. -/
theorem sub_kept (hstep : ∀ pre, family pre → pre ≠ [] → Step p middle post family False pre)
    {pre : List α} (hpre : family pre) :
    ∃ out, ∀ u, middle u → p.sub (pre ++ u ++ post) = out ++ p.sub (u ++ post) :=
  (sub_middle hstep pre hpre).resolve_right fun h => h.1

/-- If the text from the middle part on comes to the same for each of them, so does the whole. -/
theorem sub_hides (hstep : ∀ pre, family pre → pre ≠ [] → Step p middle post family True pre)
    (hmiddle : ∀ u u', middle u → middle u' → p.sub (u ++ post) = p.sub (u' ++ post))
    {pre : List α} (hpre : family pre) {u u' : List α} (hu : middle u) (hu' : middle u') :
    p.sub (pre ++ u ++ post) = p.sub (pre ++ u' ++ post) := by
  rcases sub_middle hstep pre hpre with ⟨out, h⟩ | ⟨-, out, post', h⟩
  · rw [h u hu, h u' hu', hmiddle u u' hu hu']
  · rw [h u hu, h u' hu']

end Middle

end Pattern

end Lib
