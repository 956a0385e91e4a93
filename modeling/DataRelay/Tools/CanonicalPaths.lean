import Mathlib.Data.List.TakeWhile
import DataRelay.Lib.LexPath
import DataRelay.Tools.Admission

/-! What the canonical forms of admission say about the directories that paths denote.

    Both canonicalizers keep the directory. A worktree keeps two slashes at its front, so that one
    directory has two canonical forms. The canonical form of an owned path is canonicalized once
    more when two of them are compared, and loses the white space around it. -/

namespace DataRelay.Tools.Admission
open Lib

/-! ### White space -/

theorem toList_strip (s : String) :
    (strip s).toList = (s.toList.dropWhile isSpace).rdropWhile isSpace :=
  String.toList_ofList

theorem rdropWhile_slash (a b : List Char) :
    (a ++ '/' :: b).rdropWhile isSpace = a ++ '/' :: b.rdropWhile isSpace := by
  have hslash : isSpace '/' = false := by decide
  rw [List.rdropWhile, List.reverse_append, List.reverse_cons, List.append_assoc,
    List.dropWhile_append]
  split
  · rename_i hempty
    rw [List.isEmpty_iff] at hempty
    simp [List.rdropWhile, hempty, hslash]
  · simp [List.rdropWhile]

theorem dropWhile_slash (a b : List Char) :
    (a ++ '/' :: b).dropWhile isSpace = a.dropWhile isSpace ++ '/' :: b := by
  have hslash : isSpace '/' = false := by decide
  rw [List.dropWhile_append]
  split
  · rename_i hempty
    rw [List.isEmpty_iff] at hempty
    simp [hempty, hslash]
  · rfl

/-- The text ends with white space. -/
def endsWithSpace (cs : List Char) : Bool := cs.getLast?.any isSpace

theorem rdropWhile_eq_self {cs : List Char} (h : endsWithSpace cs = false) :
    cs.rdropWhile isSpace = cs := by
  unfold endsWithSpace at h
  rcases List.eq_nil_or_concat cs with rfl | ⟨ds, d, rfl⟩
  · rfl
  · rw [List.concat_eq_append] at h ⊢
    have hd : isSpace d = false := by simpa using h
    exact List.rdropWhile_concat_neg _ _ _ (by simp [hd])

theorem endsWithSpace_dropWhile {cs : List Char} (h : endsWithSpace cs = false) :
    endsWithSpace (cs.dropWhile isSpace) = false := by
  rcases List.eq_nil_or_concat (cs.dropWhile isSpace) with hnil | ⟨ds, d, heq⟩
  · rw [hnil]
    rfl
  · have hlast : cs.getLast? = (cs.dropWhile isSpace).getLast? := by
      conv_lhs => rw [← List.takeWhile_append_dropWhile (l := cs) (p := isSpace)]
      rw [heq]
      simp
    rwa [endsWithSpace, ← hlast]

/-! ### Parts -/

theorem pathParts_eq : ∀ (cs part : List Char),
    pathParts part cs = (LexPath.parts cs).modifyHead (part.reverse ++ ·)
  | [], part => by simp [pathParts, LexPath.parts]
  | c :: cs, part => by
    rw [LexPath.parts_cons]
    by_cases hc : c = '/'
    · rw [pathParts, if_pos hc, if_pos hc, pathParts_eq cs []]
      cases LexPath.parts cs <;> simp
    · rw [pathParts, if_neg hc, if_neg hc, pathParts_eq cs (c :: part)]
      cases LexPath.parts cs <;> simp

theorem pathParts_nil (cs : List Char) : pathParts [] cs = LexPath.parts cs := by
  rw [pathParts_eq]
  cases LexPath.parts cs <;> rfl

/-- What the loop of `normalize_path` collapses, is walked. -/
theorem collapse_ok : ∀ {rest parts out : List (List Char)}, collapse parts rest = .ok out →
    out = rest.foldl LexPath.enter parts
  | [], parts, out, h => (Except.ok.inj h).symm
  | part :: rest, parts, out, h => by
    unfold collapse at h
    rw [List.foldl_cons, LexPath.enter]
    by_cases hstay : part = [] ∨ part = ['.']
    · rw [if_pos hstay] at h ⊢
      exact collapse_ok h
    rw [if_neg hstay] at h ⊢
    by_cases hup : part = ['.', '.']
    · rw [if_pos hup] at h ⊢
      cases parts with
      | nil => cases h
      | cons d ds => exact collapse_ok h
    · rw [if_neg hup] at h ⊢
      exact collapse_ok h

/-- From a directory that is reached without dots, `normpath` walks. -/
theorem foldl_pushPart : ∀ (rest : List (List Char)) {parts : List (List Char)},
    ['.', '.'] ∉ parts → rest.foldl (pushPart true) parts = rest.foldl LexPath.enter parts
  | [], _, _ => rfl
  | part :: rest, parts, h => by
    have hstep : pushPart true parts part = LexPath.enter parts part := by
      unfold pushPart LexPath.enter
      by_cases hstay : part = [] ∨ part = ['.']
      · rw [if_pos hstay, if_pos hstay]
      · rw [if_neg hstay, if_neg hstay]
        by_cases hup : part = ['.', '.']
        · rw [if_neg (not_not_intro hup), if_pos hup]
          cases parts with
          | nil => rfl
          | cons d ds =>
            have hd : d ≠ ['.', '.'] := fun hd => h (by simp [hd])
            simp [hd]
        · rw [if_pos hup, if_neg hup]
    rw [List.foldl_cons, List.foldl_cons, hstep]
    refine foldl_pushPart rest fun hmem => ?_
    have hone : ['.', '.'] ∈ [part].foldl LexPath.enter parts := hmem
    rcases LexPath.foldl_enter_mem _ hone with hold | hnew
    · exact h hold
    · exact hnew.2.2.2 rfl

/-! ### Canonical forms -/

/-- The directory that a text of a claim denotes. -/
def directory (text : String) : List LexPath.Component := LexPath.resolve (slashed text)

theorem not_backslash {text : String} {c : LexPath.Component} (h : c ∈ directory text) :
    '\\' ∉ c := by
  intro hmem
  have hin := (LexPath.mem_resolve h).2 _ hmem
  obtain ⟨x, -, hx⟩ := List.mem_map.mp hin
  split at hx
  · cases hx
  · rename_i hne
    exact hne hx

/-- The canonical form of an owned path writes its directory down. -/
theorem normalizePath_ok {value path : String} (h : normalizePath value = .ok path) :
    directory value ≠ [] ∧ path.toList = LexPath.join (directory value) := by
  unfold normalizePath at h
  dsimp only at h
  split at h
  · cases h
  split at h
  · cases h
  split at h
  · cases h
  · cases h
  rename_i parts hne hparts
  have hwalk := collapse_ok hparts
  rw [pathParts_nil] at hwalk
  have hdir : directory value = parts.reverse := by rw [directory, LexPath.resolve, LexPath.walk, hwalk]
  obtain rfl := Except.ok.inj h
  rw [hdir]
  exact ⟨by simpa using hne, by rw [String.toList_ofList]; rfl⟩

theorem pathLead_slash {text : List Char} (h : text.head? = some '/') :
    pathLead text = ['/'] ∨ pathLead text = ['/', '/'] := by
  obtain ⟨c, cs, rfl⟩ := List.exists_cons_of_ne_nil (l := text) (by rintro rfl; cases h)
  obtain rfl : c = '/' := by simpa using h
  have hall : ∀ x ∈ ('/' :: cs).takeWhile (· = '/'), x = '/' := fun x hx => by
    simpa using List.mem_takeWhile_imp hx
  have hcons : ('/' :: cs).takeWhile (· = '/') = '/' :: cs.takeWhile (· = '/') := by simp
  unfold pathLead
  dsimp only
  split
  · rename_i hlen
    rw [hcons] at hlen hall ⊢
    obtain ⟨d, hd⟩ := List.length_eq_one_iff.mp (by simpa using hlen)
    rw [hd] at hall ⊢
    exact .inr (by rw [hall d (by simp)])
  · rw [hcons]
    exact .inl rfl

theorem normpath_absolute {text : List Char} (h : text.head? = some '/') :
    normpath (String.ofList text) =
      String.ofList (pathLead text ++ LexPath.join (LexPath.resolve text)) := by
  have hlead : pathLead text ≠ [] := by
    rcases pathLead_slash h with hl | hl <;> rw [hl] <;> simp
  have hne : pathLead text ++ LexPath.join (LexPath.resolve text) ≠ [] := by simp [hlead]
  rw [normpath, String.toList_ofList, decide_eq_true hlead, pathParts_nil,
    foldl_pushPart _ (by simp), joinPath]
  exact congrArg String.ofList (if_neg hne)

/-- The canonical form of a worktree writes its directory down behind one slash or two. -/
theorem canonicalizeWorktree_ok {value path : String} (h : canonicalizeWorktree value = .ok path) :
    directory value ≠ [] ∧ (path.toList = '/' :: LexPath.join (directory value) ∨
      path.toList = '/' :: '/' :: LexPath.join (directory value)) := by
  unfold canonicalizeWorktree at h
  dsimp only at h
  split at h
  · cases h
  rename_i hhead
  rw [normpath_absolute (not_not.mp hhead)] at h
  have hlead := pathLead_slash (not_not.mp hhead)
  have htwo : rstripSlash "//" = "" := by decide
  have hne : directory value ≠ [] := by
    intro hnil
    rw [directory] at hnil
    rw [hnil] at h
    rcases hlead with hl | hl <;> rw [hl] at h <;> simp [LexPath.join, htwo] at h
  obtain ⟨hjoin, hlast⟩ := LexPath.join_getLast hne fun c hc => (LexPath.mem_resolve hc).1
  rw [← directory] at h
  obtain ⟨x, xs, hx⟩ := List.exists_cons_of_ne_nil hjoin
  generalize hn : String.ofList (pathLead (slashed value) ++ LexPath.join (directory value)) = n at h
  have htext : n.toList = pathLead (slashed value) ++ LexPath.join (directory value) := by
    rw [← hn, String.toList_ofList]
  have hkeep : n.toList.getLast? ≠ some '/' := by
    rwa [htext, hx, List.getLast?_append_cons, ← hx]
  have hkept : (if n ≠ "/" ∧ n.toList.getLast? = some '/' then rstripSlash n else n) = n :=
    if_neg fun hc => hkeep hc.2
  rw [hkept] at h
  split at h
  · cases h
  obtain rfl := Except.ok.inj h
  refine ⟨hne, ?_⟩
  rcases hlead with hl | hl
  · rw [hl, List.singleton_append] at htext
    exact .inl htext
  · rw [hl, List.cons_append, List.singleton_append] at htext
    exact .inr htext

/-- One worktree is the other with one more slash in front. -/
def SlashTwin (a b : String) : Prop := b.toList = '/' :: a.toList ∨ a.toList = '/' :: b.toList

/-- A worktree of a claim: its canonical form, with the directory that it denotes. -/
structure Worktree (path : String) (dir : List LexPath.Component) : Prop where
  proper : ∀ c ∈ dir, LexPath.Proper c
  form : path.toList = '/' :: LexPath.join dir ∨ path.toList = '/' :: '/' :: LexPath.join dir

theorem worktree_of_canonical {value path : String} (h : canonicalizeWorktree value = .ok path) :
    Worktree path (directory value) :=
  ⟨fun _ hc => (LexPath.mem_resolve hc).1, (canonicalizeWorktree_ok h).2⟩

theorem Worktree.resolve {path : String} {dir : List LexPath.Component} (h : Worktree path dir) :
    LexPath.resolve path.toList = dir := by
  rcases h.form with hf | hf <;> rw [hf]
  · rw [LexPath.resolve_slash, LexPath.resolve_join h.proper]
  · rw [LexPath.resolve_slash, LexPath.resolve_slash, LexPath.resolve_join h.proper]

/-- Different canonical forms denote the same directory exactly when they are twins. -/
theorem Worktree.same_iff {a b : String} {dirA dirB : List LexPath.Component}
    (ha : Worktree a dirA) (hb : Worktree b dirB) (hne : a ≠ b) :
    dirA = dirB ↔ SlashTwin a b := by
  have hlist : a.toList ≠ b.toList := fun heq => hne (String.toList_inj.mp heq)
  constructor
  · rintro rfl
    rcases ha.form with hfa | hfa <;> rcases hb.form with hfb | hfb
    · exact absurd (hfa.trans hfb.symm) hlist
    · exact .inl (by rw [hfb, hfa])
    · exact .inr (by rw [hfa, hfb])
    · exact absurd (hfa.trans hfb.symm) hlist
  · rintro (htwin | htwin)
    · rw [← ha.resolve, ← hb.resolve, htwin, LexPath.resolve_slash]
    · rw [← ha.resolve, ← hb.resolve, htwin, LexPath.resolve_slash]

/-- An owned path of a claim: its canonical form, with the directory that it denotes. -/
structure OwnedPath (path : String) (dir : List LexPath.Component) : Prop where
  proper : ∀ c ∈ dir, LexPath.Proper c
  backslash : ∀ c ∈ dir, '\\' ∉ c
  nonempty : dir ≠ []
  form : path.toList = LexPath.join dir

theorem ownedPath_of_normalize {value path : String} (h : normalizePath value = .ok path) :
    OwnedPath path (directory value) :=
  ⟨fun _ hc => (LexPath.mem_resolve hc).1, fun _ hc => not_backslash hc, (normalizePath_ok h).1,
    (normalizePath_ok h).2⟩

theorem OwnedPath.resolve {path : String} {dir : List LexPath.Component} (h : OwnedPath path dir) :
    LexPath.resolve path.toList = dir := by
  rw [h.form, LexPath.resolve_join h.proper]

theorem OwnedPath.no_backslash {path : String} {dir : List LexPath.Component}
    (h : OwnedPath path dir) : '\\' ∉ path.toList := by
  rw [h.form]
  intro hmem
  rcases LexPath.mem_join hmem with hc | ⟨c, hc, hin⟩
  · cases hc
  · exact h.backslash c hc hin

/-! ### Overlap -/

theorem slashBehind_eq {path : String} {dir : List LexPath.Component} (h : OwnedPath path dir) :
    slashBehind path = LexPath.join dir ++ ['/'] := by
  rw [slashBehind, h.form, if_neg (LexPath.join_getLast h.nonempty h.proper).2]

/-- The check compares the directories of the forms that are canonicalized once more. -/
theorem pathsOverlap_false {left right : String} (h : pathsOverlap left right = .ok false) :
    ¬ directory left <+: directory right ∧ ¬ directory right <+: directory left := by
  unfold pathsOverlap at h
  split at h
  · cases h
  rename_i a ha
  split at h
  · cases h
  rename_i b hb
  have hA := ownedPath_of_normalize ha
  have hB := ownedPath_of_normalize hb
  have hno := Except.ok.inj h
  rw [Bool.or_eq_false_iff, Bool.or_eq_false_iff, decide_eq_false_iff_not, slashBehind_eq hA,
    slashBehind_eq hB, hA.form, hB.form] at hno
  obtain ⟨⟨hne, hba⟩, hab⟩ := hno
  have hdir : directory left ≠ directory right := fun heq =>
    hne (String.toList_inj.mp (by rw [hA.form, hB.form, heq]))
  rw [← Bool.not_eq_true, List.isPrefixOf_iff_prefix,
    LexPath.join_prefix hB.nonempty (fun c hc => (hB.proper c hc).2.2.2)
      fun c hc => (hA.proper c hc).2.2.2] at hba
  rw [← Bool.not_eq_true, List.isPrefixOf_iff_prefix,
    LexPath.join_prefix hA.nonempty (fun c hc => (hA.proper c hc).2.2.2)
      fun c hc => (hB.proper c hc).2.2.2] at hab
  exact ⟨fun hpre => hab ⟨hpre, hdir⟩, fun hpre => hba ⟨hpre, hdir.symm⟩⟩

theorem slashed_eq {text : String} (h : '\\' ∉ text.toList) :
    slashed text = (text.toList.dropWhile isSpace).rdropWhile isSpace := by
  rw [slashed, toList_strip]
  refine (List.map_congr_left fun c hc => ?_).trans (List.map_id _)
  have hin := (List.dropWhile_sublist _).mem ((List.rdropWhile_prefix isSpace _).subset hc)
  have hne : c ≠ '\\' := fun heq => h (heq ▸ hin)
  exact if_neg hne

/-- Without white space at its end, a path is seen to have the other one below it. -/
theorem seen_below {a b : String} {dirA dirB : List LexPath.Component} (ha : OwnedPath a dirA)
    (hb : OwnedPath b dirB) (hbelow : dirA <+: dirB) (hend : endsWithSpace a.toList = false) :
    directory a <+: directory b ∨ directory b <+: directory a := by
  obtain ⟨rest, rfl⟩ := hbelow
  have hA : slashed a = a.toList.dropWhile isSpace := by
    rw [slashed_eq ha.no_backslash, rdropWhile_eq_self (endsWithSpace_dropWhile hend)]
  rcases List.eq_nil_or_concat rest with rfl | ⟨init, last, rfl⟩
  · have heq : a = b := by
      rw [← String.toList_inj, ha.form, hb.form, List.append_nil]
    exact .inl (heq ▸ List.prefix_rfl)
  rw [List.concat_eq_append] at hb
  -- only the last component of what is below can lose anything
  have hinit : ∀ c ∈ init, LexPath.Proper c := fun c hc => hb.proper c (by simp [hc])
  have hlast : '/' ∉ last := (hb.proper last (by simp)).2.2.2
  have hform : b.toList = a.toList ++ '/' :: LexPath.join (init ++ [last]) := by
    rw [hb.form, ha.form, LexPath.join_append ha.nonempty (by simp)]
  have hB : slashed b = slashed a ++ '/' :: (LexPath.join (init ++ [last])).rdropWhile isSpace := by
    rw [slashed_eq hb.no_backslash, hform, dropWhile_slash, rdropWhile_slash, hA]
  have hparts : LexPath.parts ((LexPath.join (init ++ [last])).rdropWhile isSpace) =
      init ++ [last.rdropWhile isSpace] := by
    have hone : LexPath.parts (last.rdropWhile isSpace) = [last.rdropWhile isSpace] :=
      LexPath.parts_eq_singleton fun hc => hlast ((List.rdropWhile_prefix isSpace last).subset hc)
    have hsingle : LexPath.join [last] = last := by simp [LexPath.join]
    by_cases hi : init = []
    · rw [hi, List.nil_append, hsingle, hone, List.nil_append]
    · rw [LexPath.join_append hi (by simp), hsingle, rdropWhile_slash, LexPath.parts_append,
        LexPath.parts_join hi fun c hc => (hinit c hc).2.2.2, hone]
  have hbranch := LexPath.foldl_enter_branch hinit (LexPath.walk [] (slashed a))
    (last.rdropWhile isSpace)
  rw [← hparts, ← LexPath.walk, ← LexPath.walk_append, ← hB] at hbranch
  exact hbranch.imp List.reverse_prefix.mpr List.reverse_prefix.mpr

/-- An owned path that the check does not see the other one below. -/
def Hidden (a b : String) : Prop :=
  endsWithSpace a.toList = true ∧ a.toList ++ ['/'] <+: b.toList

/-- Where the check sees no overlap, one directory is below the other exactly when it is hidden. -/
theorem below_iff_hidden {a b : String} {dirA dirB : List LexPath.Component}
    (ha : OwnedPath a dirA) (hb : OwnedPath b dirB)
    (hno : ¬ directory a <+: directory b ∧ ¬ directory b <+: directory a) :
    dirA <+: dirB ↔ Hidden a b := by
  rw [Hidden, ha.form, hb.form, LexPath.join_prefix ha.nonempty
    (fun c hc => (ha.proper c hc).2.2.2) fun c hc => (hb.proper c hc).2.2.2]
  constructor
  · intro hbelow
    refine ⟨?_, hbelow, ?_⟩
    · by_contra hend
      rw [Bool.not_eq_true, ← ha.form] at hend
      exact (seen_below ha hb hbelow hend).elim hno.1 hno.2
    · rintro rfl
      have heq : a = b := by rw [← String.toList_inj, ha.form, hb.form]
      exact hno.1 (heq ▸ List.prefix_rfl)
  · exact fun hh => hh.2.1

end DataRelay.Tools.Admission
