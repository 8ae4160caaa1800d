import Mathlib.Data.List.Lex
import Mathlib.Data.List.Infix
import QuantWorkbench.Lib.Text

/-!
Paths as `pathlib` and `os.path` take them apart on POSIX: a path keeps neither empty names nor
single dots, `normpath` removes the names in front of double dots, and exactly two slashes at the
beginning are told apart from one.
-/

namespace QuantWorkbench.Lib

/-! ### Names between separators -/

/-- The names that a path keeps. -/
def keptNames (names : List Text) : List Text := names.filter fun name => name ≠ [] ∧ name ≠ ['.']

/-- The parts of a path: names that are kept, without a slash. -/
def ArePartsOf (parts : List Text) : Prop :=
  ∀ part ∈ parts, (part ≠ [] ∧ part ≠ ['.']) ∧ '/' ∉ part

def joined (parts : List Text) : Text := ['/'].intercalate parts

theorem mem_keptNames {names : List Text} {name : Text} :
    name ∈ keptNames names ↔ name ∈ names ∧ name ≠ [] ∧ name ≠ ['.'] := by
  simp [keptNames]

theorem keptNames_of_parts {parts : List Text} (h : ArePartsOf parts) : keptNames parts = parts :=
  List.filter_eq_self.mpr fun part hpart => decide_eq_true (h part hpart).1

theorem notMem_of_mem_splitOn {sep : Char} {text name : Text} (h : name ∈ text.splitOn sep) :
    sep ∉ name := by
  induction text generalizing name with
  | nil =>
      rw [List.splitOn_nil, List.mem_singleton] at h
      rw [h]
      exact List.not_mem_nil
  | cons c rest ih =>
      rw [List.splitOn_cons_eq_if_modifyHead] at h
      by_cases hsep : (c == sep) = true
      · rw [if_pos hsep] at h
        rcases List.mem_cons.mp h with rfl | hrest
        · exact List.not_mem_nil
        · exact ih hrest
      · rw [if_neg hsep] at h
        cases hsplit : rest.splitOn sep with
        | nil => exact absurd hsplit (List.splitOn_ne_nil _ _)
        | cons first others =>
            rw [hsplit, List.modifyHead_cons] at h
            rcases List.mem_cons.mp h with rfl | hothers
            · rw [List.mem_cons, not_or]
              refine ⟨fun heq => hsep (beq_iff_eq.mpr heq.symm), ih ?_⟩
              rw [hsplit]
              exact List.mem_cons_self
            · apply ih
              rw [hsplit]
              exact List.mem_cons_of_mem _ hothers

theorem keptNames_splitOn_joined {parts : List Text} (h : ArePartsOf parts) :
    keptNames ((joined parts).splitOn '/') = parts := by
  cases parts with
  | nil => rfl
  | cons part rest =>
      have hsplit : (joined (part :: rest)).splitOn '/' = part :: rest :=
        List.splitOn_intercalate '/' (fun name hname => (h name hname).2) (List.cons_ne_nil _ _)
      rw [hsplit, keptNames_of_parts h]

theorem eq_of_joined_eq {parts others : List Text} (h : ArePartsOf parts)
    (hothers : ArePartsOf others) (heq : joined parts = joined others) : parts = others := by
  rw [← keptNames_splitOn_joined h, heq, keptNames_splitOn_joined hothers]

theorem head?_joined {parts : List Text} (h : ArePartsOf parts) :
    (joined parts).head? ≠ some '/' := by
  cases parts with
  | nil => exact fun hnone => nomatch hnone
  | cons part rest =>
      obtain ⟨⟨hne, _⟩, hslash⟩ := h part List.mem_cons_self
      obtain ⟨c, letters, rfl⟩ := List.exists_cons_of_ne_nil hne
      have hfirst : (joined ((c :: letters) :: rest)).head? = some c := by
        rw [joined, List.intercalate_cons_cons_left, List.head?_cons]
      rw [hfirst]
      rintro ⟨⟩
      exact hslash List.mem_cons_self

/-! ### Paths -/

/-- What a path begins with: no slash, one, or exactly two. -/
inductive PathRoot where
  | none
  | one
  | two
  deriving DecidableEq

namespace PathRoot

def text : PathRoot → Text
  | none => []
  | one => ['/']
  | two => ['/', '/']

/-- The root of a text: three slashes and more count as one. -/
def ofText (text : Text) : PathRoot :=
  match (text.takeWhile (· = '/')).length with
  | 0 => none
  | 2 => two
  | _ => one

theorem ofText_text (root : PathRoot) {rest : Text} (h : rest.head? ≠ some '/') :
    ofText (root.text ++ rest) = root ∧ (root.text ++ rest).dropWhile (· = '/') = rest := by
  have hnone : rest.takeWhile (· = '/') = [] ∧ rest.dropWhile (· = '/') = rest := by
    cases rest with
    | nil => exact ⟨rfl, rfl⟩
    | cons c letters =>
        have hc : decide (c = '/') = false := decide_eq_false fun heq => h (congrArg some heq)
        rw [List.takeWhile_cons, List.dropWhile_cons, hc]
        exact ⟨rfl, rfl⟩
  cases root with
  | none => exact ⟨by rw [ofText, text, List.nil_append, hnone.1]; rfl, hnone.2⟩
  | one =>
      constructor
      · rw [ofText, text, List.singleton_append, List.takeWhile_cons_of_pos (by decide), hnone.1]
        rfl
      · rw [text, List.singleton_append, List.dropWhile_cons_of_pos (by decide), hnone.2]
  | two =>
      constructor
      · rw [ofText, text, List.cons_append, List.singleton_append,
          List.takeWhile_cons_of_pos (by decide), List.takeWhile_cons_of_pos (by decide), hnone.1]
        rfl
      · rw [text, List.cons_append, List.singleton_append,
          List.dropWhile_cons_of_pos (by decide), List.dropWhile_cons_of_pos (by decide), hnone.2]

end PathRoot

structure PosixPath where
  root : PathRoot
  parts : List Text
  valid : ArePartsOf parts

namespace PosixPath

@[ext] theorem ext {path other : PosixPath} (hroot : path.root = other.root)
    (hparts : path.parts = other.parts) : path = other := by
  cases path
  cases other
  cases hroot
  cases hparts
  rfl

def ofText (text : Text) : PosixPath where
  root := PathRoot.ofText text
  parts := keptNames ((text.dropWhile (· = '/')).splitOn '/')
  valid := fun _ hpart =>
    ⟨(mem_keptNames.mp hpart).2, notMem_of_mem_splitOn (mem_keptNames.mp hpart).1⟩

/-- `os.fspath`. -/
def str (path : PosixPath) : Text :=
  if path.root = .none ∧ path.parts = [] then ['.'] else path.root.text ++ joined path.parts

theorem ofText_str (path : PosixPath) : ofText path.str = path := by
  obtain ⟨root, parts, hvalid⟩ := path
  rw [str]
  by_cases hdot : root = .none ∧ parts = []
  · obtain ⟨rfl, rfl⟩ := hdot
    rfl
  · obtain ⟨hroot, hrest⟩ := root.ofText_text (head?_joined hvalid)
    rw [if_neg hdot]
    refine PosixPath.ext hroot ?_
    change keptNames ((List.dropWhile (· = '/') (root.text ++ joined parts)).splitOn '/') = parts
    rw [hrest, keptNames_splitOn_joined hvalid]

/-- `base / other` of a relative path. -/
def append (base other : PosixPath) : PosixPath where
  root := base.root
  parts := base.parts ++ other.parts
  valid := fun part hpart =>
    (List.mem_append.mp hpart).elim (base.valid part) (other.valid part)

/-! ### Normal paths -/

/-- One name of `normpath`, whose stack has its top at the head. -/
def pushName (absolute : Bool) (stack : List Text) (name : Text) : List Text :=
  if name = [] ∨ name = ['.'] then stack
  else if name ≠ ['.', '.'] ∨ (absolute = false ∧ stack = []) ∨ stack.head? = some ['.', '.'] then
    name :: stack
  else stack.tail

def normpath (text : Text) : Text :=
  let root := PathRoot.ofText text
  let names := ((text.splitOn '/').foldl (pushName (root ≠ .none)) []).reverse
  let path := root.text ++ joined names
  if path = [] then ['.'] else path

theorem foldl_pushName_kept (absolute : Bool) (names stack : List Text) :
    names.foldl (pushName absolute) stack = (keptNames names).foldl (pushName absolute) stack := by
  induction names generalizing stack with
  | nil => rfl
  | cons name rest ih =>
      by_cases hdropped : name = [] ∨ name = ['.']
      · have hfilter : keptNames (name :: rest) = keptNames rest := by
          rcases hdropped with rfl | rfl <;> rfl
        rw [List.foldl_cons, pushName, if_pos hdropped, hfilter, ih]
      · have hfilter : keptNames (name :: rest) = name :: keptNames rest :=
          List.filter_cons_of_pos (decide_eq_true (not_or.mp hdropped))
        rw [List.foldl_cons, hfilter, List.foldl_cons, ih]

/-- The stack of an absolute path has no double dots, and only names of the path. -/
theorem mem_foldl_pushName {names stack : List Text} (hstack : ['.', '.'] ∉ stack) {name : Text}
    (h : name ∈ names.foldl (pushName true) stack) :
    name ≠ ['.', '.'] ∧ (name ∈ names ∨ name ∈ stack) := by
  induction names generalizing stack with
  | nil => exact ⟨fun heq => hstack (heq ▸ h), Or.inr h⟩
  | cons first rest ih =>
      have hpushed : ['.', '.'] ∉ pushName true stack first ∧
          ∀ other ∈ pushName true stack first, other = first ∨ other ∈ stack := by
        unfold pushName
        split
        · exact ⟨hstack, fun _ hother => Or.inr hother⟩
        · split
          · rename_i hpush
            refine ⟨?_, fun _ hother => List.mem_cons.mp hother⟩
            rw [List.mem_cons, not_or]
            refine ⟨?_, hstack⟩
            rcases hpush with hne | ⟨hfalse, _⟩ | htop
            · exact Ne.symm hne
            · cases hfalse
            · exact absurd (List.mem_of_head? htop) hstack
          · exact ⟨fun hmem => hstack (List.mem_of_mem_tail hmem),
              fun _ hother => Or.inr (List.mem_of_mem_tail hother)⟩
      obtain ⟨hne, hmem⟩ := ih hpushed.1 h
      refine ⟨hne, ?_⟩
      rcases hmem with hrest | hstacked
      · exact Or.inl (List.mem_cons_of_mem _ hrest)
      · rcases hpushed.2 name hstacked with rfl | hold
        · exact Or.inl List.mem_cons_self
        · exact Or.inr hold

/-- The path without double dots, as the names in front of them are removed. -/
def normalized (path : PosixPath) : PosixPath where
  root := path.root
  parts := (path.parts.foldl (pushName true) []).reverse
  valid := fun part hpart => by
    have hmem := mem_foldl_pushName List.not_mem_nil (List.mem_reverse.mp hpart)
    exact path.valid part (hmem.2.resolve_right List.not_mem_nil)

theorem normalized_noDots (path : PosixPath) : ∀ part ∈ path.normalized.parts,
    part ≠ ['.'] ∧ part ≠ ['.', '.'] := fun part hpart =>
  ⟨(path.normalized.valid part hpart).1.2,
    (mem_foldl_pushName List.not_mem_nil (List.mem_reverse.mp hpart)).1⟩

theorem foldl_pushName_of_noDots {names stack : List Text} (h : ArePartsOf names)
    (hdots : ∀ name ∈ names, name ≠ ['.', '.']) :
    names.foldl (pushName true) stack = names.reverse ++ stack := by
  induction names generalizing stack with
  | nil => rfl
  | cons name rest ih =>
      obtain ⟨hname, hrest⟩ := List.forall_mem_cons.mp h
      obtain ⟨hdot, hothers⟩ := List.forall_mem_cons.mp hdots
      rw [List.foldl_cons, pushName, if_neg (not_or.mpr hname.1), if_pos (Or.inl hdot),
        ih hrest hothers, List.reverse_cons, List.append_assoc, List.singleton_append]

/-- A path without double dots is normal. -/
theorem normalized_of_noDots {path : PosixPath} (h : ∀ part ∈ path.parts, part ≠ ['.', '.']) :
    path.normalized = path := by
  have hparts : (path.parts.foldl (pushName true) []).reverse = path.parts := by
    rw [foldl_pushName_of_noDots path.valid h, List.append_nil, List.reverse_reverse]
  exact PosixPath.ext rfl hparts

theorem splitOn_text (root : PathRoot) (rest : Text) :
    keptNames ((root.text ++ rest).splitOn '/') = keptNames (rest.splitOn '/') := by
  have hslash (text : Text) : keptNames (('/' :: text).splitOn '/') =
      keptNames (text.splitOn '/') := by
    have hsplit := List.splitOn_append_cons_self ([] : Text) text (a := '/')
    rw [List.nil_append] at hsplit
    rw [hsplit]
    rfl
  cases root with
  | none => rfl
  | one => exact hslash rest
  | two => exact (hslash _).trans (hslash rest)

/-- The names of an absolute path as it is written. -/
theorem keptNames_splitOn_str (path : PosixPath) (habsolute : path.root ≠ .none) :
    keptNames (path.str.splitOn '/') = path.parts := by
  rw [str, if_neg fun h => habsolute h.1, splitOn_text, keptNames_splitOn_joined path.valid]

theorem rootOf_str (path : PosixPath) (habsolute : path.root ≠ .none) :
    PathRoot.ofText path.str = path.root := by
  rw [str, if_neg fun h => habsolute h.1]
  exact (path.root.ofText_text (head?_joined path.valid)).1

theorem normpath_str (path : PosixPath) (habsolute : path.root ≠ .none) :
    normpath path.str = path.normalized.str := by
  have hdecide : decide (path.root ≠ .none) = true := decide_eq_true habsolute
  have hne : path.root.text ++ joined path.normalized.parts ≠ [] := by
    cases hroot : path.root with
    | none => exact absurd hroot habsolute
    | one => exact List.cons_ne_nil _ _
    | two => exact List.cons_ne_nil _ _
  have hstr : path.normalized.str = path.root.text ++ joined path.normalized.parts :=
    if_neg fun h => habsolute h.1
  rw [normpath, rootOf_str path habsolute, foldl_pushName_kept,
    keptNames_splitOn_str path habsolute, hdecide, hstr]
  exact if_neg hne

/-- `_lexically_normalized_absolute_path` goes through text. -/
theorem ofText_normpath_str (path : PosixPath) (habsolute : path.root ≠ .none) :
    ofText (normpath path.str) = path.normalized := by
  rw [normpath_str path habsolute, ofText_str]

/-! ### Paths in others -/

/-- The longest common beginning. -/
def commonNames : List Text → List Text → List Text
  | a :: as, b :: bs => if a = b then a :: commonNames as bs else []
  | _, _ => []

/-- `os.path.commonpath` of two paths; `none` if one of them only is absolute. -/
def commonpath (text other : Text) : Option Text :=
  if (text.head? = some '/') = (other.head? = some '/') then
    let names := keptNames (text.splitOn '/')
    let others := keptNames (other.splitOn '/')
    some ((if text.head? = some '/' then ['/'] else []) ++
      joined (commonNames (min names others) (max names others)))
  else none

theorem commonNames_comm (names others : List Text) :
    commonNames names others = commonNames others names := by
  induction names generalizing others with
  | nil => cases others <;> rfl
  | cons a as ih =>
      cases others with
      | nil => rfl
      | cons b bs =>
          by_cases heq : a = b
          · subst heq
            rw [commonNames, commonNames, if_pos rfl, if_pos rfl, ih]
          · rw [commonNames, commonNames, if_neg heq, if_neg (Ne.symm heq)]

theorem commonNames_min_max (names others : List Text) :
    commonNames (min names others) (max names others) = commonNames names others := by
  rcases le_total names others with h | h
  · rw [min_eq_left h, max_eq_right h]
  · rw [min_eq_right h, max_eq_left h, commonNames_comm]

theorem commonNames_isPrefix_names (names others : List Text) : commonNames names others <+: names := by
  induction names generalizing others with
  | nil => cases others <;> exact List.prefix_rfl
  | cons a as ih =>
      cases others with
      | nil => exact List.nil_prefix
      | cons b bs =>
          rw [commonNames]
          split
          · exact (List.prefix_cons_inj a).mpr (ih bs)
          · exact List.nil_prefix

theorem commonNames_eq_right_iff {names others : List Text} :
    commonNames names others = others ↔ others <+: names := by
  induction names generalizing others with
  | nil =>
      cases others with
      | nil => exact ⟨fun _ => List.prefix_rfl, fun _ => rfl⟩
      | cons b bs => exact ⟨(fun h => nomatch h), fun h => absurd (List.prefix_nil.mp h) (by simp)⟩
  | cons a as ih =>
      cases others with
      | nil => exact ⟨fun _ => List.nil_prefix, fun _ => rfl⟩
      | cons b bs =>
          by_cases heq : a = b
          · subst heq
            rw [commonNames, if_pos rfl, List.cons_inj_right, ih, List.prefix_cons_inj]
          · rw [commonNames, if_neg heq]
            refine ⟨(fun h => nomatch h), fun h => absurd ?_ heq⟩
            exact (List.cons_prefix_cons.mp h).1.symm

def behind (path base : PosixPath) : PosixPath where
  root := .none
  parts := path.parts.drop base.parts.length
  valid := fun part hpart => path.valid part (List.mem_of_mem_drop hpart)

/-- `relative_to`, which tells one slash from two. -/
def relativeTo (path base : PosixPath) : Option PosixPath :=
  if path.root = base.root ∧ base.parts <+: path.parts then some (path.behind base) else none

theorem head?_str (path : PosixPath) (habsolute : path.root ≠ .none) :
    path.str.head? = some '/' := by
  rw [str, if_neg fun h => habsolute h.1]
  cases hroot : path.root with
  | none => exact absurd hroot habsolute
  | one => rfl
  | two => rfl

/-- The common path with a base is the base exactly if the path goes on from it. One or two slashes
make no difference here. -/
theorem commonpath_eq_base_iff {path base : PosixPath} (hpath : path.root ≠ .none)
    (hbase : base.root = .one) :
    commonpath path.str base.str = some base.str ↔ base.parts <+: path.parts := by
  have hbase' : base.root ≠ .none := by
    rw [hbase]
    exact fun h => nomatch h
  have hcommon : ArePartsOf (commonNames path.parts base.parts) := fun part hpart =>
    path.valid part ((commonNames_isPrefix_names _ _).subset hpart)
  have hstr : base.str = ['/'] ++ joined base.parts := by
    rw [str, if_neg fun h => hbase' h.1, hbase]
    rfl
  have hpaths : commonpath path.str base.str =
      some (['/'] ++ joined (commonNames path.parts base.parts)) := by
    simp only [commonpath, head?_str path hpath, head?_str base hbase',
      keptNames_splitOn_str path hpath, keptNames_splitOn_str base hbase', commonNames_min_max,
      if_true]
  rw [hpaths, hstr, Option.some.injEq, List.append_cancel_left_eq, ← commonNames_eq_right_iff]
  exact ⟨eq_of_joined_eq hcommon base.valid, congrArg joined⟩

end PosixPath

end QuantWorkbench.Lib
