import QuantWorkbench.Lib.PosixPaths
import QuantWorkbench.Storage.ResearchManifest

/-!
`ProjectStoragePolicy` of `storage/project_storage.py` on POSIX. Whether a path is inside of the
project is decided on text, which part of it is relative by `pathlib`, and which names it may have
by the rules of Windows.
-/

namespace QuantWorkbench.Storage

open Lib

inductive StorageError where
  /-- `StorageBoundaryError`. -/
  | boundary (message : String)
  /-- A `ValueError` that is no `StorageBoundaryError`. -/
  | valueError
  deriving DecidableEq

/-! ### Names of Windows -/

/-- How `PureWindowsPath` splits a text into its anchor, which is a drive, a share or a root, and
the rest. What it takes for a share depends on the version of the language. -/
class WindowsRoots where
  splitroot : Text → Text × Text
  /-- A text without a colon that does not begin with a separator has no anchor. -/
  unanchored : ∀ text : Text, ':' ∉ text → text.head? ≠ some '\\' → splitroot text = ([], text)
  /-- An anchor ends between two names, unless it is a drive letter. -/
  whole_names : ∀ text : Text, ':' ∉ (splitroot text).1 →
    (text.splitOn '\\').filter (· ≠ []) = ((splitroot text).1.splitOn '\\').filter (· ≠ []) ++
      ((splitroot text).2.splitOn '\\').filter (· ≠ [])

/-- `text.replace("/", "\\")`. -/
def backslashed (text : Text) : Text := text.map fun c => if c = '/' then '\\' else c

def windowsParts [WindowsRoots] (text : Text) : List Text :=
  let (anchor, rest) := WindowsRoots.splitroot (backslashed text)
  (if anchor = [] then [] else [anchor]) ++ keptNames (rest.splitOn '\\')

/-- `str.rstrip(" .")`. -/
def rstripped (text : Text) : Text := text.rdropWhile fun c => c = ' ' ∨ c = '.'

/-- `normalized_base` is the name of a device. -/
def isReserved (component : Text) : Bool :=
  Text.upper (rstripped ((rstripped component).takeWhile (· ≠ '.'))) ∈ reservedDeviceNames

/-- A component that names neither a stream nor a device and does not end in a dot or space. -/
structure Clean (component : Text) : Prop where
  noColon : ':' ∉ component
  ending : ¬ (component.getLast? = some '.' ∨ component.getLast? = some ' ')
  unreserved : isReserved component = false

def validateComponent (component : Text) : Except StorageError Unit := do
  require (':' ∉ component) (StorageError.boundary "项目目录路径不能包含 Windows ADS 冒号")
  require (¬ (component.getLast? = some '.' ∨ component.getLast? = some ' '))
    (StorageError.boundary "项目目录路径组件不能以点或空格结尾")
  require (isReserved component = false)
    (StorageError.boundary "项目目录路径不能使用 Windows 保留设备名")

def validateComponents : List Text → Except StorageError Unit
  | [] => .ok ()
  | component :: rest => do
      validateComponent component
      validateComponents rest

def validateWindowsPathComponents [WindowsRoots] (relative : Text) : Except StorageError Unit :=
  validateComponents (windowsParts relative)

def StorageError.IsBoundary : StorageError → Prop
  | boundary _ => True
  | valueError => False

theorem validateComponent_spec (component : Text) :
    (validateComponent component = .ok () ↔ Clean component) ∧
      ∀ error, validateComponent component = .error error → error.IsBoundary := by
  by_cases hcolon : ':' ∉ component
  · by_cases hending : ¬ (component.getLast? = some '.' ∨ component.getLast? = some ' ')
    · rw [validateComponent, require_of hcolon, ok_bind, require_of hending, ok_bind]
      constructor
      · rw [require_eq_ok_iff]
        exact ⟨fun h => ⟨hcolon, hending, h⟩, Clean.unreserved⟩
      · intro error h
        unfold require at h
        split at h
        · cases h
        · cases h
          trivial
    · rw [validateComponent, require_of hcolon, ok_bind, require, if_neg hending]
      refine ⟨⟨(fun h => nomatch h), fun h => absurd h.ending hending⟩, fun error h => ?_⟩
      cases h
      trivial
  · rw [validateComponent, require, if_neg hcolon]
    refine ⟨⟨(fun h => nomatch h), fun h => absurd h.noColon hcolon⟩, fun error h => ?_⟩
    cases h
    trivial

theorem validateComponents_spec (components : List Text) :
    (validateComponents components = .ok () ↔ ∀ component ∈ components, Clean component) ∧
      ∀ error, validateComponents components = .error error → error.IsBoundary := by
  induction components with
  | nil => exact ⟨⟨fun _ _ h => absurd h List.not_mem_nil, fun _ => rfl⟩, fun _ h => nomatch h⟩
  | cons component rest ih =>
      obtain ⟨hok, herror⟩ := validateComponent_spec component
      rw [validateComponents, List.forall_mem_cons]
      cases hfirst : validateComponent component with
      | ok _ => exact ⟨by rw [ok_bind, ih.1, and_iff_right (hok.mp hfirst)], ih.2⟩
      | error error =>
          refine ⟨⟨(fun h => nomatch h), fun h => ?_⟩, fun error' h => ?_⟩
          · rw [hok.mpr h.1] at hfirst
            cases hfirst
          · cases h
            exact herror error hfirst

/-! ### The directory tree -/

/-- What `lstat` finds: nothing, an error of the system, a link, or anything else. -/
inductive LstatResult where
  | missing
  | failed
  | link
  | present
  deriving DecidableEq

/-- A directory tree, by the parts of a path below the root. -/
abbrev DirectoryTree := List Text → LstatResult

/-- `_reject_reparse_component`. A null character makes `lstat` raise on its own. -/
def rejectReparseComponent (tree : DirectoryTree) (parts : List Text) : Except StorageError Unit :=
  if parts.any (fun part => '\x00' ∈ part) then .error .valueError
  else
    match tree parts with
    | .missing => .ok ()
    | .present => .ok ()
    | .failed => .error (.boundary "无法安全检查项目目录路径")
    | .link => .error (.boundary "项目目录内路径不能包含符号链接、junction 或 reparse point")

def validateBelow (tree : DirectoryTree) (current : List Text) :
    List Text → Except StorageError Unit
  | [] => .ok ()
  | part :: rest => do
      rejectReparseComponent tree (current ++ [part])
      validateBelow tree (current ++ [part]) rest

def validateNoReparseComponents (tree : DirectoryTree) (relative : List Text) :
    Except StorageError Unit := do
  rejectReparseComponent tree []
  validateBelow tree [] relative

/-- `lstat` finds nothing that is refused at this place. -/
structure Passes (tree : DirectoryTree) (parts : List Text) : Prop where
  noNull : ∀ part ∈ parts, '\x00' ∉ part
  found : tree parts = .missing ∨ tree parts = .present

/-- Every place on the way is passed. -/
def Walkable (tree : DirectoryTree) (current : List Text) : List Text → Prop
  | [] => Passes tree current
  | part :: rest => Passes tree current ∧ Walkable tree (current ++ [part]) rest

/-- The way is passed up to a name with a null character. -/
def MeetsNull (tree : DirectoryTree) (current : List Text) : List Text → Prop
  | [] => False
  | part :: rest =>
      Passes tree current ∧ ('\x00' ∈ part ∨ MeetsNull tree (current ++ [part]) rest)

theorem Walkable.head {tree : DirectoryTree} {current rest : List Text}
    (h : Walkable tree current rest) : Passes tree current := by
  cases rest with
  | nil => exact h
  | cons part others => exact h.1

theorem Walkable.take {tree : DirectoryTree} {current rest : List Text}
    (h : Walkable tree current rest) (n : ℕ) : Passes tree (current ++ rest.take n) := by
  induction rest generalizing current n with
  | nil =>
      rw [List.take_nil, List.append_nil]
      exact h
  | cons part others ih =>
      cases n with
      | zero =>
          rw [List.take_zero, List.append_nil]
          exact h.1
      | succ n =>
          have hnext := ih h.2 n
          rwa [List.append_assoc, List.singleton_append] at hnext

theorem Walkable.not_meetsNull {tree : DirectoryTree} {current rest : List Text}
    (h : Walkable tree current rest) : ¬ MeetsNull tree current rest := by
  induction rest generalizing current with
  | nil => exact id
  | cons part others ih =>
      rintro ⟨_, hnull | hlater⟩
      · exact h.2.head.noNull part (List.mem_append_right _ List.mem_cons_self) hnull
      · exact ih h.2 hlater

/-- The three ways in which a check of one place ends. -/
theorem rejectReparseComponent_cases (tree : DirectoryTree) (parts : List Text) :
    (rejectReparseComponent tree parts = .ok () ∧ Passes tree parts) ∨
      (∃ message, rejectReparseComponent tree parts = .error (.boundary message) ∧
        (∀ part ∈ parts, '\x00' ∉ part) ∧ ¬ Passes tree parts) ∨
      (rejectReparseComponent tree parts = .error .valueError ∧ ∃ part ∈ parts, '\x00' ∈ part) := by
  by_cases hnull : ∃ part ∈ parts, '\x00' ∈ part
  · have hany : (parts.any fun part => '\x00' ∈ part) = true := by
      obtain ⟨part, hpart, hmem⟩ := hnull
      exact List.any_eq_true.mpr ⟨part, hpart, decide_eq_true hmem⟩
    exact Or.inr (Or.inr ⟨if_pos hany, hnull⟩)
  · have hnone : ∀ part ∈ parts, '\x00' ∉ part := fun part hpart hmem =>
      hnull ⟨part, hpart, hmem⟩
    have hany : ¬ (parts.any fun part => '\x00' ∈ part) = true := by
      intro hsome
      obtain ⟨part, hpart, hmem⟩ := List.any_eq_true.mp hsome
      exact hnone part hpart (of_decide_eq_true hmem)
    rw [rejectReparseComponent, if_neg hany]
    cases hfound : tree parts with
    | missing => exact Or.inl ⟨rfl, hnone, Or.inl hfound⟩
    | present => exact Or.inl ⟨rfl, hnone, Or.inr hfound⟩
    | failed =>
        refine Or.inr (Or.inl ⟨_, rfl, hnone, fun h => ?_⟩)
        rcases h.found with hother | hother <;> rw [hfound] at hother <;> cases hother
    | link =>
        refine Or.inr (Or.inl ⟨_, rfl, hnone, fun h => ?_⟩)
        rcases h.found with hother | hother <;> rw [hfound] at hother <;> cases hother

/-- The three ways in which the walk ends. -/
theorem walk_cases (tree : DirectoryTree) (current rest : List Text)
    (hcurrent : ∀ part ∈ current, '\x00' ∉ part) :
    let walk := rejectReparseComponent tree current >>= fun _ => validateBelow tree current rest
    (walk = .ok () ∧ Walkable tree current rest) ∨
      (∃ message, walk = .error (.boundary message) ∧ ¬ Walkable tree current rest ∧
        ¬ MeetsNull tree current rest) ∨
      (walk = .error .valueError ∧ MeetsNull tree current rest) := by
  induction rest generalizing current with
  | nil =>
      rcases rejectReparseComponent_cases tree current with
        ⟨hok, hpasses⟩ | ⟨message, herror, _, hrefused⟩ | ⟨_, part, hpart, hnull⟩
      · exact Or.inl ⟨by rw [hok, ok_bind]; rfl, hpasses⟩
      · exact Or.inr (Or.inl ⟨message, by rw [herror]; rfl, hrefused, id⟩)
      · exact absurd hnull (hcurrent part hpart)
  | cons part others ih =>
      rcases rejectReparseComponent_cases tree current with
        ⟨hok, hpasses⟩ | ⟨message, herror, _, hrefused⟩ | ⟨_, part, hpart, hnull⟩
      · have hwalk : (rejectReparseComponent tree current >>= fun _ =>
            validateBelow tree current (part :: others)) =
              (rejectReparseComponent tree (current ++ [part]) >>= fun _ =>
                validateBelow tree (current ++ [part]) others) := by
          rw [hok, ok_bind]
          rfl
        simp only [hwalk]
        by_cases hnull : '\x00' ∈ part
        · refine Or.inr (Or.inr ⟨?_, hpasses, Or.inl hnull⟩)
          have hany : ((current ++ [part]).any fun part => '\x00' ∈ part) = true :=
            List.any_eq_true.mpr ⟨part, List.mem_append_right _ List.mem_cons_self,
              decide_eq_true hnull⟩
          rw [rejectReparseComponent, if_pos hany]
          rfl
        · have hnext : ∀ other ∈ current ++ [part], '\x00' ∉ other := by
            intro other hother
            rcases List.mem_append.mp hother with hold | hnew
            · exact hcurrent other hold
            · obtain rfl := List.mem_singleton.mp hnew
              exact hnull
          rcases ih (current ++ [part]) hnext with
            ⟨hdone, hwalkable⟩ | ⟨message, herror, hrefused, hnot⟩ | ⟨herror, hmeets⟩
          · exact Or.inl ⟨hdone, hpasses, hwalkable⟩
          · refine Or.inr (Or.inl ⟨message, herror, fun h => hrefused h.2, fun h => ?_⟩)
            exact h.2.elim hnull hnot
          · exact Or.inr (Or.inr ⟨herror, hpasses, Or.inr hmeets⟩)
      · refine Or.inr (Or.inl ⟨message, by rw [herror]; rfl, fun h => hrefused h.1, fun h => ?_⟩)
        exact hrefused h.1
      · exact absurd hnull (hcurrent part hpart)

/-! ### The policy -/

/-- The root is resolved, so it has one slash, no dots and no null characters. -/
structure ProjectStoragePolicy where
  repoRoot : PosixPath
  rooted : repoRoot.root = .one
  noDots : ∀ part ∈ repoRoot.parts, part ≠ ['.', '.']

namespace ProjectStoragePolicy

def isWithin (candidate repoRoot : PosixPath) : Bool :=
  PosixPath.commonpath candidate.str repoRoot.str = some repoRoot.str

/-- The path that `authorize` looks at. It is absolute, so the working directory plays no part in
`_lexically_normalized_absolute_path`. -/
def lexicallyNormalized (policy : ProjectStoragePolicy) (value : Text) : PosixPath :=
  let supplied := PosixPath.ofText value
  let candidate := if supplied.root ≠ .none then supplied else policy.repoRoot.append supplied
  PosixPath.ofText (PosixPath.normpath candidate.str)

/-- `authorize`, and `revalidate` too. -/
def authorize [WindowsRoots] (policy : ProjectStoragePolicy) (tree : DirectoryTree)
    (value : Text) : Except StorageError PosixPath := do
  let normalized := policy.lexicallyNormalized value
  require (isWithin normalized policy.repoRoot = true)
    (StorageError.boundary "存储路径必须位于项目目录内")
  let relative ← orRaise (normalized.relativeTo policy.repoRoot) StorageError.valueError
  validateWindowsPathComponents relative.str
  validateNoReparseComponents tree relative.parts
  return normalized

/-! ### What is authorized -/

theorem lexicallyNormalized_eq (policy : ProjectStoragePolicy) (value : Text) :
    ∃ candidate : PosixPath, candidate.root ≠ .none ∧
      policy.lexicallyNormalized value = candidate.normalized := by
  by_cases habsolute : (PosixPath.ofText value).root ≠ .none
  · refine ⟨PosixPath.ofText value, habsolute, ?_⟩
    rw [lexicallyNormalized, if_pos habsolute, PosixPath.ofText_normpath_str _ habsolute]
  · have hroot : (policy.repoRoot.append (PosixPath.ofText value)).root ≠ .none := by
      rw [PosixPath.append, policy.rooted]
      exact fun h => nomatch h
    refine ⟨policy.repoRoot.append (PosixPath.ofText value), hroot, ?_⟩
    rw [lexicallyNormalized, if_neg habsolute, PosixPath.ofText_normpath_str _ hroot]

theorem absolute_lexicallyNormalized (policy : ProjectStoragePolicy) (value : Text) :
    (policy.lexicallyNormalized value).root ≠ .none := by
  obtain ⟨candidate, habsolute, heq⟩ := policy.lexicallyNormalized_eq value
  rw [heq]
  exact habsolute

theorem noDots_lexicallyNormalized (policy : ProjectStoragePolicy) (value : Text) :
    ∀ part ∈ (policy.lexicallyNormalized value).parts, part ≠ ['.'] ∧ part ≠ ['.', '.'] := by
  obtain ⟨candidate, _, heq⟩ := policy.lexicallyNormalized_eq value
  rw [heq]
  exact candidate.normalized_noDots

/-- The path that is looked at is looked at as it is. -/
theorem lexicallyNormalized_str (policy : ProjectStoragePolicy) (value : Text) :
    policy.lexicallyNormalized (policy.lexicallyNormalized value).str =
      policy.lexicallyNormalized value := by
  have habsolute := policy.absolute_lexicallyNormalized value
  have hdots := fun part hpart => (policy.noDots_lexicallyNormalized value part hpart).2
  generalize policy.lexicallyNormalized value = path at habsolute hdots
  rw [lexicallyNormalized, PosixPath.ofText_str, if_pos habsolute,
    PosixPath.ofText_normpath_str path habsolute, PosixPath.normalized_of_noDots hdots]

theorem isWithin_iff (policy : ProjectStoragePolicy) {path : PosixPath}
    (habsolute : path.root ≠ .none) :
    isWithin path policy.repoRoot = true ↔ policy.repoRoot.parts <+: path.parts := by
  rw [isWithin, decide_eq_true_eq, PosixPath.commonpath_eq_base_iff habsolute policy.rooted]

/-- The components of parts, split at the separator of Windows too. -/
def components (parts : List Text) : List Text := parts.flatMap fun part => part.splitOn '\\'

/-- A path as the policy promises it. -/
structure Inside (policy : ProjectStoragePolicy) (tree : DirectoryTree) (path : PosixPath) :
    Prop where
  absolute : path.root = .one
  under : policy.repoRoot.parts <+: path.parts
  noDots : ∀ part ∈ path.parts, part ≠ ['.'] ∧ part ≠ ['.', '.']
  clean : ∀ component ∈ components path.parts, Clean component
  unlinked : ∀ n, tree ((path.behind policy.repoRoot).parts.take n) ≠ .link

variable [WindowsRoots]

/-- A path that is authorized is inside and is authorized again, and the only error is that of the
boundary. -/
structure Stays (policy : ProjectStoragePolicy) (tree : DirectoryTree) (value : Text) : Prop where
  inside : ∀ path, policy.authorize tree value = .ok path →
    policy.Inside tree path ∧ policy.authorize tree path.str = .ok path
  refused : ∀ error, policy.authorize tree value = .error error → error.IsBoundary

/-- The names that `PureWindowsPath` does not show one by one: those of the anchor, and single
dots behind it. -/
def hiddenNames (parts : List Text) : List Text :=
  let (anchor, rest) := WindowsRoots.splitroot (backslashed (joined parts))
  anchor.splitOn '\\' ++ (rest.splitOn '\\').filter (· = ['.'])

omit [WindowsRoots] in
theorem backslashed_of_part {part : Text} (h : '/' ∉ part) : backslashed part = part := by
  refine (List.map_congr_left fun c hc => ?_).trans (List.map_id _)
  exact if_neg fun heq : c = '/' => h (heq ▸ hc)

omit [WindowsRoots] in
theorem splitOn_backslashed {parts : List Text} (h : ArePartsOf parts) (hne : parts ≠ []) :
    (backslashed (joined parts)).splitOn '\\' = components parts := by
  induction parts with
  | nil => exact absurd rfl hne
  | cons part rest ih =>
      obtain ⟨⟨_, hslash⟩, hrest⟩ := List.forall_mem_cons.mp h
      cases rest with
      | nil =>
          rw [joined, List.intercalate_singleton, backslashed_of_part hslash, components,
            List.flatMap_singleton]
      | cons next others =>
          have htext : backslashed (joined (part :: next :: others)) =
              part ++ '\\' :: backslashed (joined (next :: others)) := by
            rw [joined, List.intercalate_cons_cons, List.append_assoc, List.singleton_append,
              backslashed, List.map_append, List.map_cons, if_pos rfl]
            exact congrArg (· ++ _) (backslashed_of_part hslash)
          rw [htext, List.splitOn_append_cons_self, ih hrest (List.cons_ne_nil _ _)]
          rfl

omit [WindowsRoots] in
theorem clean_nil : Clean [] := ⟨List.not_mem_nil, by decide, by decide⟩

omit [WindowsRoots] in
theorem forall_clean_components {parts : List Text} (h : ArePartsOf parts) :
    (∀ component ∈ components parts, Clean component) ↔
      ∀ name ∈ ((backslashed (joined parts)).splitOn '\\').filter (· ≠ []), Clean name := by
  have hfilter (names : List Text) : (∀ name ∈ names, Clean name) ↔
      ∀ name ∈ names.filter (· ≠ []), Clean name := by
    refine ⟨fun hall name hname => hall name (List.mem_of_mem_filter hname), ?_⟩
    intro hall name hname
    by_cases hempty : name = []
    · exact hempty ▸ clean_nil
    · exact hall name (List.mem_filter.mpr ⟨hname, decide_eq_true hempty⟩)
  by_cases hne : parts = []
  · subst hne
    exact iff_of_true (fun _ hnone => absurd hnone List.not_mem_nil)
      fun _ hnone => absurd hnone List.not_mem_nil
  · rw [← splitOn_backslashed h hne]
    exact hfilter _

/-- The parts of a relative path are those of its names. -/
theorem windowsParts_str {path : PosixPath} (h : path.root = .none) :
    windowsParts path.str = windowsParts (joined path.parts) := by
  by_cases hempty : path.parts = []
  · have hdot := WindowsRoots.unanchored ['.'] (by decide) (by decide)
    have hnone := WindowsRoots.unanchored [] List.not_mem_nil (by decide)
    have hstr : path.str = ['.'] := if_pos ⟨h, hempty⟩
    have hdotted : backslashed ['.'] = ['.'] := by decide
    have hblank : backslashed (joined []) = [] := rfl
    rw [hstr, hempty, windowsParts, windowsParts, hdotted, hblank, hdot, hnone]
    rfl
  · have hstr : path.str = path.root.text ++ joined path.parts :=
      if_neg fun hboth => hempty hboth.2
    rw [hstr, h, PathRoot.text, List.nil_append]

theorem validateWindowsPathComponents_spec {path : PosixPath} (h : path.root = .none) :
    (validateWindowsPathComponents path.str = .ok () ↔
      ∀ part ∈ windowsParts (joined path.parts), Clean part) ∧
    ∀ error, validateWindowsPathComponents path.str = .error error → error.IsBoundary := by
  rw [validateWindowsPathComponents, windowsParts_str h]
  exact validateComponents_spec (windowsParts (joined path.parts))

/-- Where every part that `PureWindowsPath` shows is clean, the components are clean exactly if the
names are that it does not show. -/
theorem clean_components_iff {parts : List Text} (h : ArePartsOf parts)
    (hshown : ∀ part ∈ windowsParts (joined parts), Clean part) :
    (∀ component ∈ components parts, Clean component) ↔
      ∀ name ∈ hiddenNames parts, Clean name := by
  rw [forall_clean_components h]
  have hwhole := WindowsRoots.whole_names (backslashed (joined parts))
  rw [windowsParts] at hshown
  rw [hiddenNames]
  generalize WindowsRoots.splitroot (backslashed (joined parts)) = split at hwhole hshown
  obtain ⟨anchor, rest⟩ := split
  obtain ⟨hanchor, hkept⟩ := List.forall_mem_append.mp hshown
  have hcolon : ':' ∉ anchor := by
    by_cases hempty : anchor = []
    · rw [hempty]
      exact List.not_mem_nil
    · rw [if_neg hempty] at hanchor
      exact (hanchor anchor (List.mem_singleton_self anchor)).noColon
  rw [hwhole hcolon, List.forall_mem_append, List.forall_mem_append]
  refine and_congr ⟨fun hall name hname => ?_, fun hall name hname => ?_⟩
    ⟨fun hall name hname => ?_, fun hall name hname => ?_⟩
  · by_cases hempty : name = []
    · exact hempty ▸ clean_nil
    · exact hall name (List.mem_filter.mpr ⟨hname, decide_eq_true hempty⟩)
  · exact hall name (List.mem_of_mem_filter hname)
  · obtain ⟨hmem, hdot⟩ := List.mem_filter.mp hname
    have hne : name ≠ [] := by
      rw [of_decide_eq_true hdot]
      exact List.cons_ne_nil _ _
    exact hall name (List.mem_filter.mpr ⟨hmem, decide_eq_true hne⟩)
  · obtain ⟨hmem, hne⟩ := List.mem_filter.mp hname
    by_cases hdot : name = ['.']
    · exact hall name (List.mem_filter.mpr ⟨hmem, decide_eq_true hdot⟩)
    · exact hkept name (mem_keptNames.mpr ⟨hmem, of_decide_eq_true hne, hdot⟩)

/-- What keeps the promise. A path into the project has one slash. If every part that is shown is
clean, the walk meets no null character, and if it is passed, the names of the root and the names
that are not shown are clean. -/
def HandledPath (policy : ProjectStoragePolicy) (tree : DirectoryTree) (path : PosixPath)
    (below : List Text) : Prop :=
  policy.repoRoot.parts <+: path.parts → path.root = .one ∧
    ((∀ part ∈ windowsParts (joined below), Clean part) → ¬ MeetsNull tree [] below ∧
      (Walkable tree [] below → (∀ component ∈ components policy.repoRoot.parts, Clean component) ∧
        ∀ name ∈ hiddenNames below, Clean name))

def Handled (policy : ProjectStoragePolicy) (tree : DirectoryTree) (value : Text) : Prop :=
  policy.HandledPath tree (policy.lexicallyNormalized value)
    ((policy.lexicallyNormalized value).behind policy.repoRoot).parts

theorem authorize_cases (policy : ProjectStoragePolicy) (tree : DirectoryTree) (value : Text) :
    let path := policy.lexicallyNormalized value
    (isWithin path policy.repoRoot = false ∧
      ∃ message, policy.authorize tree value = .error (.boundary message)) ∨
    (isWithin path policy.repoRoot = true ∧ path.relativeTo policy.repoRoot = none ∧
      policy.authorize tree value = .error .valueError) ∨
    (isWithin path policy.repoRoot = true ∧
      ∃ relative, path.relativeTo policy.repoRoot = some relative ∧
        policy.authorize tree value = (do
          validateWindowsPathComponents relative.str
          validateNoReparseComponents tree relative.parts
          return path)) := by
  intro path
  cases hwithin : isWithin path policy.repoRoot with
  | false =>
      refine Or.inl ⟨rfl, "存储路径必须位于项目目录内", ?_⟩
      have hrefused : ¬ isWithin path policy.repoRoot = true := by
        rw [hwithin]
        exact Bool.false_ne_true
      rw [authorize, require, if_neg hrefused]
      rfl
  | true =>
      cases hrelative : path.relativeTo policy.repoRoot with
      | none =>
          refine Or.inr (Or.inl ⟨rfl, rfl, ?_⟩)
          rw [authorize, require_of hwithin, ok_bind, hrelative]
          rfl
      | some relative =>
          refine Or.inr (Or.inr ⟨rfl, relative, rfl, ?_⟩)
          rw [authorize, require_of hwithin, ok_bind, hrelative]
          rfl

/-- A path that is authorized is authorized again. -/
theorem authorize_again (policy : ProjectStoragePolicy) (tree : DirectoryTree) {value : Text}
    (h : policy.authorize tree value = .ok (policy.lexicallyNormalized value)) :
    policy.authorize tree (policy.lexicallyNormalized value).str =
      .ok (policy.lexicallyNormalized value) := by
  have hsame := policy.lexicallyNormalized_str value
  rw [authorize, hsame]
  exact h

theorem stays_of_error {policy : ProjectStoragePolicy} {tree : DirectoryTree} {value : Text}
    {error : StorageError} (h : policy.authorize tree value = .error error) :
    policy.Stays tree value ↔ error.IsBoundary := by
  constructor
  · intro hstays
    exact hstays.refused error h
  · intro hboundary
    refine ⟨fun path hok => ?_, fun other hother => ?_⟩
    · rw [h] at hok
      cases hok
    · rw [h] at hother
      cases hother
      exact hboundary

theorem stays_of_ok {policy : ProjectStoragePolicy} {tree : DirectoryTree} {value : Text}
    {path : PosixPath} (h : policy.authorize tree value = .ok path) :
    policy.Stays tree value ↔
      policy.Inside tree path ∧ policy.authorize tree path.str = .ok path := by
  constructor
  · intro hstays
    exact hstays.inside path h
  · intro hinside
    refine ⟨fun other hother => ?_, fun error herror => ?_⟩
    · rw [h] at hother
      cases hother
      exact hinside
    · rw [h] at herror
      cases herror

/-- The promise is kept exactly where the path is handled. -/
theorem stays_iff_handled (policy : ProjectStoragePolicy) (tree : DirectoryTree) (value : Text) :
    policy.Stays tree value ↔ policy.Handled tree value := by
  have habsolute := policy.absolute_lexicallyNormalized value
  have hdots := policy.noDots_lexicallyNormalized value
  have hwithin := policy.isWithin_iff habsolute
  have hagain := @authorize_again _ policy tree value
  have hcases := policy.authorize_cases tree value
  rw [Handled]
  generalize policy.lexicallyNormalized value = path at *
  rcases hcases with ⟨houtside, message, herror⟩ | ⟨hinside, hnone, herror⟩ |
    ⟨hinside, relative, hsome, hchecks⟩
  · -- outside of the project
    have hprefix : ¬ policy.repoRoot.parts <+: path.parts := by
      rw [← hwithin, houtside]
      exact Bool.false_ne_true
    have hiff := stays_of_error herror
    have hstays : policy.Stays tree value := hiff.mpr trivial
    have hhandled : policy.HandledPath tree path (path.behind policy.repoRoot).parts :=
      fun h => absurd h hprefix
    exact iff_of_true hstays hhandled
  · -- two slashes, which `relative_to` does not take for one
    have hroot : path.root ≠ .one := by
      intro hone
      have hboth : path.root = policy.repoRoot.root ∧ policy.repoRoot.parts <+: path.parts :=
        ⟨hone.trans policy.rooted.symm, hwithin.mp hinside⟩
      rw [PosixPath.relativeTo, if_pos hboth] at hnone
      cases hnone
    have hiff := stays_of_error herror
    have hstays : ¬ policy.Stays tree value := fun h => hiff.mp h
    have hhandled : ¬ policy.HandledPath tree path (path.behind policy.repoRoot).parts :=
      fun h => hroot (h (hwithin.mp hinside)).1
    exact iff_of_false hstays hhandled
  · obtain ⟨⟨hroot, hprefix⟩, heq⟩ := Option.ite_none_right_eq_some.mp hsome
    obtain rfl : path.behind policy.repoRoot = relative := Option.some.inj heq
    have hone : path.root = .one := hroot.trans policy.rooted
    have hvalid := (path.behind policy.repoRoot).valid
    have hnone : (path.behind policy.repoRoot).root = .none := rfl
    obtain ⟨hshown, hboundary⟩ := validateWindowsPathComponents_spec hnone
    cases hvalidated : validateWindowsPathComponents (path.behind policy.repoRoot).str with
    | error error =>
        have hunclean : ¬ ∀ part ∈ windowsParts (joined (path.behind policy.repoRoot).parts),
            Clean part := by
          rw [← hshown, hvalidated]
          exact fun h => nomatch h
        have herror : policy.authorize tree value = .error error := by
          rw [hchecks, hvalidated]
          rfl
        have hiff := stays_of_error herror
        have hstays : policy.Stays tree value := hiff.mpr (hboundary error hvalidated)
        have hhandled : policy.HandledPath tree path (path.behind policy.repoRoot).parts :=
          fun _ => ⟨hone, fun h => absurd h hunclean⟩
        exact iff_of_true hstays hhandled
    | ok done =>
        cases done
        have hclean := hshown.mp hvalidated
        rw [hvalidated, ok_bind] at hchecks
        rcases walk_cases tree [] (path.behind policy.repoRoot).parts
            (fun _ h => absurd h List.not_mem_nil) with
          ⟨hwalk, hwalkable⟩ | ⟨message, hwalk, hrefused, hnot⟩ | ⟨hwalk, hmeets⟩
        · have hok : policy.authorize tree value = .ok path := by
            rw [hchecks, validateNoReparseComponents, hwalk]
            rfl
          have hcomponents := clean_components_iff hvalid hclean
          have hnull := hwalkable.not_meetsNull
          have hparts : path.parts = policy.repoRoot.parts ++
              (path.behind policy.repoRoot).parts :=
            List.prefix_iff_eq_append.mp hprefix |>.symm
          have hall : (∀ component ∈ components path.parts, Clean component) ↔
              (∀ component ∈ components policy.repoRoot.parts, Clean component) ∧
                ∀ name ∈ hiddenNames (path.behind policy.repoRoot).parts, Clean name := by
            rw [← hcomponents, components, hparts, List.flatMap_append, List.forall_mem_append]
            rfl
          rw [stays_of_ok hok]
          constructor
          · rintro ⟨hinside, _⟩ _
            exact ⟨hone, fun _ => ⟨hnull, fun _ => hall.mp hinside.clean⟩⟩
          · intro h
            refine ⟨⟨hone, hprefix, hdots, ?_, fun n hlink => ?_⟩, hagain hok⟩
            · exact hall.mpr (((h hprefix).2 hclean).2 hwalkable)
            · have hfound := (hwalkable.take n).found
              rw [List.nil_append, hlink] at hfound
              exact hfound.elim (fun h => nomatch h) fun h => nomatch h
        · have herror : policy.authorize tree value = .error (.boundary message) := by
            rw [hchecks, validateNoReparseComponents, hwalk]
            rfl
          have hiff := stays_of_error herror
          have hstays : policy.Stays tree value := hiff.mpr trivial
          have hhandled : policy.HandledPath tree path (path.behind policy.repoRoot).parts :=
            fun _ => ⟨hone, fun _ => ⟨hnot, fun h => absurd h hrefused⟩⟩
          exact iff_of_true hstays hhandled
        · have herror : policy.authorize tree value = .error .valueError := by
            rw [hchecks, validateNoReparseComponents, hwalk]
            rfl
          have hiff := stays_of_error herror
          have hstays : ¬ policy.Stays tree value := fun h => hiff.mp h
          have hhandled : ¬ policy.HandledPath tree path (path.behind policy.repoRoot).parts :=
            fun h => ((h hprefix).2 hclean).1 hmeets
          exact iff_of_false hstays hhandled

end ProjectStoragePolicy

section Sample

/-- Texts without a drive or a share: their separators at the beginning are the root. -/
def rootOnly (text : Text) : Text × Text :=
  if text.head? = some '\\' then (['\\'], text.dropWhile (· = '\\')) else ([], text)

theorem filter_splitOn_dropWhile (text : Text) :
    (text.splitOn '\\').filter (· ≠ []) =
      ((text.dropWhile (· = '\\')).splitOn '\\').filter (· ≠ []) := by
  induction text with
  | nil => rfl
  | cons c rest ih =>
      by_cases hc : c = '\\'
      · subst hc
        have hsplit := List.splitOn_append_cons_self ([] : Text) rest (a := '\\')
        rw [List.nil_append] at hsplit
        rw [List.dropWhile_cons_of_pos (by decide), ← ih, hsplit]
        rfl
      · rw [List.dropWhile_cons_of_neg (by simpa using hc)]

@[reducible] def rootOnlyPaths : WindowsRoots where
  splitroot := rootOnly
  unanchored text _ hhead := if_neg hhead
  whole_names text _ := by
    by_cases hhead : text.head? = some '\\'
    · rw [rootOnly, if_pos hhead]
      exact filter_splitOn_dropWhile text
    · rw [rootOnly, if_neg hhead]
      rfl

attribute [local instance] rootOnlyPaths

def samplePolicy : ProjectStoragePolicy where
  repoRoot := ⟨.one, ["project".toList], by
    intro part hpart
    obtain rfl := List.mem_singleton.mp hpart
    decide⟩
  rooted := rfl
  noDots := by decide

/-- Two slashes make `relative_to` raise, a null character makes `lstat` raise, and a single dot
between backslashes is returned. -/
theorem sample_not_stays :
    ¬ samplePolicy.Stays (fun _ => .present) "//project/data".toList ∧
      ¬ samplePolicy.Stays (fun _ => .present) "data\x00".toList ∧
      ¬ samplePolicy.Stays (fun _ => .present) "data\\.\\bars".toList := by
  refine ⟨fun h => ?_, fun h => ?_, fun h => ?_⟩
  · have herror : samplePolicy.authorize (fun _ => .present) "//project/data".toList =
        .error .valueError := by rfl
    exact h.refused _ herror
  · have herror : samplePolicy.authorize (fun _ => .present) "data\x00".toList =
        .error .valueError := by rfl
    exact h.refused _ herror
  · have hok : ∃ path, samplePolicy.authorize (fun _ => .present) "data\\.\\bars".toList =
        .ok path ∧ ['.'] ∈ ProjectStoragePolicy.components path.parts := ⟨_, rfl, by decide⟩
    obtain ⟨path, hpath, hdot⟩ := hok
    have hclean := (h.inside path hpath).1.clean ['.'] hdot
    exact hclean.ending (Or.inl rfl)

end Sample

end QuantWorkbench.Storage
