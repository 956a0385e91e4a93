import Mathlib.Tactic.Common
import Mathlib.Data.List.Infix

/-! Paths as text, and the directory that a path leads to without a look at any file system.

    A path is a list of components with slashes between them. `walk` follows the components one by
    one: an empty one and a dot stay, two dots go up, and any other goes down. A directory is the
    list of the components that lead to it, `walk` keeps it with the newest first. `join` writes a
    directory down; `resolve_join` and `join_prefix` say that nothing is lost by that. -/

namespace Lib.LexPath

/-- The characters between two slashes. -/
abbrev Component := List Char

/-- A path split at its slashes. -/
def parts (path : List Char) : List Component := path.splitOn '/'

/-- Components with a slash between each two. -/
def join (dir : List Component) : List Char := List.intercalate ['/'] dir

/-- A component that goes down. -/
def Proper (c : Component) : Prop := c ≠ [] ∧ c ≠ ['.'] ∧ c ≠ ['.', '.'] ∧ '/' ∉ c

/-- One component, from the directory `dir`. -/
def enter (dir : List Component) (c : Component) : List Component :=
  if c = [] ∨ c = ['.'] then dir
  else if c = ['.', '.'] then dir.tail
  else c :: dir

/-- The directory reached from `dir` by the components of a path. -/
def walk (dir : List Component) (path : List Char) : List Component := (parts path).foldl enter dir

/-- The directory that the path leads to from the root. -/
def resolve (path : List Char) : List Component := (walk [] path).reverse

/-! ### Components -/

theorem parts_append (a b : List Char) : parts (a ++ '/' :: b) = parts a ++ parts b :=
  List.splitOn_append_cons_self a b

theorem parts_eq_singleton {c : Component} (h : '/' ∉ c) : parts c = [c] :=
  List.splitOn_eq_singleton h

theorem parts_cons (x : Char) (path : List Char) : parts (x :: path) =
    if x = '/' then [] :: parts path else (parts path).modifyHead (x :: ·) := by
  rw [parts, List.splitOn_cons_eq_if_modifyHead]
  simp only [beq_iff_eq]
  rfl

/-- A component has no slash, and only characters of the path. -/
theorem mem_parts {path : List Char} : ∀ c ∈ parts path, '/' ∉ c ∧ ∀ x ∈ c, x ∈ path := by
  induction path with
  | nil => simp [parts]
  | cons x path ih =>
    obtain ⟨first, rest, hparts⟩ := List.exists_cons_of_ne_nil (List.splitOn_ne_nil '/' path)
    change parts path = first :: rest at hparts
    rw [parts_cons]
    rw [hparts] at ih ⊢
    obtain ⟨hfirst, hrest⟩ := List.forall_mem_cons.mp ih
    have hlater : ∀ c ∈ rest, '/' ∉ c ∧ ∀ y ∈ c, y ∈ x :: path := fun c hc =>
      ⟨(hrest c hc).1, fun y hy => List.mem_cons_of_mem x ((hrest c hc).2 y hy)⟩
    have hhead : ∀ y ∈ first, y ∈ x :: path := fun y hy => List.mem_cons_of_mem x (hfirst.2 y hy)
    split
    · simp only [List.forall_mem_cons]
      exact ⟨by simp, ⟨hfirst.1, hhead⟩, hlater⟩
    · rename_i hx
      rw [List.modifyHead_cons, List.forall_mem_cons]
      refine ⟨⟨?_, ?_⟩, hlater⟩
      · exact List.not_mem_cons_of_ne_of_not_mem (Ne.symm hx) hfirst.1
      · intro y hy
        rcases List.mem_cons.mp hy with rfl | hy
        · exact List.mem_cons_self
        · exact hhead y hy

theorem parts_join {dir : List Component} (hne : dir ≠ []) (h : ∀ c ∈ dir, '/' ∉ c) :
    parts (join dir) = dir :=
  List.splitOn_intercalate '/' h hne

/-! ### Walking -/

theorem walk_append (dir : List Component) (a b : List Char) :
    walk dir (a ++ '/' :: b) = walk (walk dir a) b := by
  rw [walk, parts_append, List.foldl_append]
  rfl

theorem enter_proper {c : Component} (h : Proper c) (dir : List Component) :
    enter dir c = c :: dir := by
  rw [enter, if_neg (by simp [h.1, h.2.1]), if_neg h.2.2.1]

theorem enter_cases (dir : List Component) (c : Component) :
    enter dir c = dir ∨ enter dir c = dir.tail ∨ enter dir c = c :: dir := by
  unfold enter
  split
  · exact .inl rfl
  · split
    · exact .inr (.inl rfl)
    · exact .inr (.inr rfl)

theorem foldl_enter_proper {cs : List Component} (h : ∀ c ∈ cs, Proper c) :
    ∀ dir, cs.foldl enter dir = cs.reverse ++ dir := by
  induction cs with
  | nil => simp
  | cons c cs ih =>
    intro dir
    obtain ⟨hc, hcs⟩ := List.forall_mem_cons.mp h
    rw [List.foldl_cons, enter_proper hc, ih hcs]
    simp

/-- Wherever a walk ends, it has come down through components of the path. -/
theorem foldl_enter_mem {cs : List Component} : ∀ {dir : List Component}, ∀ c ∈ cs.foldl enter dir,
    c ∈ dir ∨ (c ∈ cs ∧ c ≠ [] ∧ c ≠ ['.'] ∧ c ≠ ['.', '.']) := by
  induction cs with
  | nil => exact fun c hc => .inl hc
  | cons d cs ih =>
    intro dir c hc
    rcases ih c hc with hdir | ⟨hcs, hproper⟩
    · unfold enter at hdir
      split at hdir
      · exact .inl hdir
      split at hdir
      · exact .inl (List.mem_of_mem_tail hdir)
      rename_i hstay hup
      rcases List.mem_cons.mp hdir with rfl | hdir
      · obtain ⟨hempty, hdot⟩ := not_or.mp hstay
        exact .inr ⟨by simp, hempty, hdot, hup⟩
      · exact .inl hdir
    · exact .inr ⟨List.mem_cons_of_mem d hcs, hproper⟩

/-- After some components that go down, one more component leads up or down the same branch. -/
theorem foldl_enter_branch {cs : List Component} (h : ∀ c ∈ cs, Proper c) (dir : List Component)
    (last : Component) : dir <:+ (cs ++ [last]).foldl enter dir ∨
      (cs ++ [last]).foldl enter dir <:+ dir := by
  rw [List.foldl_append, foldl_enter_proper h, List.foldl_cons, List.foldl_nil]
  rcases enter_cases (cs.reverse ++ dir) last with heq | heq | heq
  · rw [heq]
    exact .inl (List.suffix_append _ _)
  · rw [heq]
    cases hcs : cs.reverse with
    | nil => exact .inr (List.tail_suffix dir)
    | cons c ds => exact .inl (List.suffix_append ds dir)
  · rw [heq]
    exact .inl ((List.suffix_append _ _).trans (List.suffix_cons _ _))

/-! ### Directories -/

/-- The components of a directory are proper, and made of characters of the path. -/
theorem mem_resolve {path : List Char} {c : Component} (h : c ∈ resolve path) :
    Proper c ∧ ∀ x ∈ c, x ∈ path := by
  have hc := foldl_enter_mem c (List.mem_reverse.mp h)
  obtain ⟨hmem, hne, hdot, hdots⟩ := hc.resolve_left (by simp)
  exact ⟨⟨hne, hdot, hdots, (mem_parts c hmem).1⟩, (mem_parts c hmem).2⟩

theorem resolve_slash (path : List Char) : resolve ('/' :: path) = resolve path := by
  rw [resolve, ← List.nil_append ('/' :: path), walk_append]
  rfl

theorem resolve_join {dir : List Component} (h : ∀ c ∈ dir, Proper c) :
    resolve (join dir) = dir := by
  cases dir with
  | nil => rfl
  | cons c cs =>
    rw [resolve, walk, parts_join (by simp) fun d hd => (h d hd).2.2.2, foldl_enter_proper h]
    simp

theorem join_append {a b : List Component} (ha : a ≠ []) (hb : b ≠ []) :
    join (a ++ b) = join a ++ '/' :: join b := by
  obtain ⟨d, ds, rfl⟩ := List.exists_cons_of_ne_nil hb
  induction a with
  | nil => exact absurd rfl ha
  | cons c cs ih =>
    cases cs with
    | nil => simp [join]
    | cons e es =>
      have hrec := ih (by simp)
      simp only [join, List.cons_append, List.intercalate_cons_cons] at hrec ⊢
      rw [hrec]
      simp

theorem mem_join {dir : List Component} {x : Char} (h : x ∈ join dir) :
    x = '/' ∨ ∃ c ∈ dir, x ∈ c := by
  induction dir with
  | nil => simp [join] at h
  | cons c cs ih =>
    by_cases hcs : cs = []
    · subst hcs
      exact .inr ⟨c, by simp, by simpa [join] using h⟩
    · have happ := join_append (a := [c]) (by simp) hcs
      have hsingle : join [c] = c := by simp [join]
      rw [List.singleton_append, hsingle] at happ
      rw [happ, List.mem_append, List.mem_cons] at h
      rcases h with hc | hx | hrest
      · exact .inr ⟨c, by simp, hc⟩
      · exact .inl hx
      · exact (ih hrest).imp_right fun ⟨d, hd, hxd⟩ => ⟨d, by simp [hd], hxd⟩

/-- The text of a directory does not end with a slash. -/
theorem join_getLast {dir : List Component} (hne : dir ≠ []) (h : ∀ c ∈ dir, Proper c) :
    join dir ≠ [] ∧ (join dir).getLast? ≠ some '/' := by
  obtain ⟨ds, d, rfl⟩ := (List.eq_nil_or_concat dir).resolve_left hne
  rw [List.concat_eq_append] at h ⊢
  have hd := h d (by simp)
  have hlast : d.getLast? ≠ some '/' := fun hl => hd.2.2.2 (List.mem_of_getLast? hl)
  by_cases hds : ds = []
  · subst hds
    simpa [join] using ⟨hd.1, hlast⟩
  · rw [join_append hds (by simp)]
    have hsingle : join [d] = d := by simp [join]
    rw [hsingle]
    obtain ⟨x, xs, rfl⟩ := List.exists_cons_of_ne_nil hd.1
    simpa using hlast

/-- One directory lies below another exactly when its text goes on behind a slash. -/
theorem join_prefix {a b : List Component} (ha : a ≠ []) (hpa : ∀ c ∈ a, '/' ∉ c)
    (hpb : ∀ c ∈ b, '/' ∉ c) : join a ++ ['/'] <+: join b ↔ a <+: b ∧ a ≠ b := by
  constructor
  · rintro ⟨rest, hrest⟩
    have hb : b ≠ [] := by
      rintro rfl
      simp [join] at hrest
    have hparts : b = a ++ parts rest := by
      rw [← parts_join hb hpb, ← hrest, List.append_assoc, List.singleton_append, parts_append,
        parts_join ha hpa]
    refine ⟨⟨parts rest, hparts.symm⟩, fun heq => ?_⟩
    rw [← heq] at hparts
    exact List.splitOn_ne_nil '/' rest (List.append_right_eq_self.mp hparts.symm)
  · rintro ⟨⟨rest, rfl⟩, hne⟩
    have hrest : rest ≠ [] := by
      rintro rfl
      simp at hne
    exact ⟨join rest, by rw [join_append ha hrest]; simp⟩

end Lib.LexPath
