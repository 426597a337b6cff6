import Pulse.Collections.Delimiter

/-!
# File paths

`path.resolve`, `path.normalize` and `path.extname` on POSIX paths, and the place which a
path leads to: without symbolic links, its segments walked through from the root.
-/

namespace Pulse

namespace Path

open Collections

abbrev Segment := List Char

def segments (path : String) : List Segment := path.toList.splitOn '/'

def isAbsolute (path : String) : Bool := decide (path.toList.head? = some '/')

def join (dir : List Segment) : String := String.ofList (['/'].intercalate dir)

/-- What `normalizeString` does with one segment. -/
def normalizeSegment (allowAboveRoot : Bool) (dir : List Segment) (segment : Segment) :
    List Segment :=
  if segment = [] ∨ segment = ['.'] then dir
  else if segment = ['.', '.'] then
    if dir ≠ [] ∧ dir.getLast? ≠ some ['.', '.'] then dir.dropLast
    else if allowAboveRoot then dir ++ [segment]
    else dir
  else dir ++ [segment]

def normalizeString (path : String) (allowAboveRoot : Bool) : List Segment :=
  (segments path).foldl (normalizeSegment allowAboveRoot) []

def normalize (path : String) : String :=
  if path = "" then "."
  else
    let trailingSeparator : Bool := path.toList.getLast? = some '/'
    let dir := normalizeString path (!isAbsolute path)
    if dir = [] then
      if isAbsolute path then "/" else if trailingSeparator then "./" else "."
    else (if isAbsolute path then "/" else "") ++ join dir ++
      (if trailingSeparator then "/" else "")

/-- The paths from right to left in front of each other, up to the first absolute one. -/
def prepend : List String → String → String × Bool
  | [], resolvedPath => (resolvedPath, false)
  | path :: rest, resolvedPath =>
      if path = "" then prepend rest resolvedPath
      else if isAbsolute path then (path ++ "/" ++ resolvedPath, true)
      else prepend rest (path ++ "/" ++ resolvedPath)

def resolve (cwd : String) (paths : List String) : String :=
  let (resolvedPath, resolvedAbsolute) := prepend (paths.reverse ++ [cwd]) ""
  let dir := normalizeString resolvedPath (!resolvedAbsolute)
  if resolvedAbsolute then "/" ++ join dir else if dir = [] then "." else join dir

/-- From the last dot of the last segment on; a dot in front makes no extension. -/
def extname (path : String) : String :=
  let base := (((segments path).filter (· ≠ [])).getLast?).getD []
  let stem := ((base.reverse.dropWhile (· ≠ '.')).drop 1).reverse
  if stem = [] ∨ base = ['.', '.'] then "" else String.ofList (base.drop stem.length)

/-- The walk through one segment, without symbolic links. -/
def enter (place : List Segment) (segment : Segment) : List Segment :=
  if segment = [] ∨ segment = ['.'] then place
  else if segment = ['.', '.'] then place.dropLast
  else place ++ [segment]

/-- The place which an absolute path leads to. -/
def locate (path : String) : List Segment := (segments path).foldl enter []

/-- The name of an entry of a directory. -/
structure Proper (segment : Segment) : Prop where
  nonempty : segment ≠ []
  dot : segment ≠ ['.']
  dots : segment ≠ ['.', '.']
  slash : '/' ∉ segment

/-- An absolute path which spells the place that it leads to. -/
def Resolved (path : String) (place : List Segment) : Prop :=
  (∀ segment ∈ place, Proper segment) ∧ path = "/" ++ join place

section Normalize

variable {place : List Segment} {segment : Segment}

theorem normalizeSegment_of_proper (h : Proper segment) (allowAboveRoot : Bool) :
    normalizeSegment allowAboveRoot place segment = place ++ [segment] := by
  simp [normalizeSegment, h.nonempty, h.dot, h.dots]

theorem enter_of_proper (h : Proper segment) : enter place segment = place ++ [segment] := by
  simp [enter, h.nonempty, h.dot, h.dots]

/-- Below the root, a path is normalized to names of entries. -/
theorem proper_normalizeSegment (hplace : ∀ s ∈ place, Proper s) (hslash : '/' ∉ segment) :
    ∀ s ∈ normalizeSegment false place segment, Proper s := by
  rw [normalizeSegment]
  split
  · exact hplace
  · rename_i hskip
    obtain ⟨hempty, hdot⟩ := not_or.mp hskip
    split
    · split
      · exact fun s hs => hplace s ((List.dropLast_sublist _).subset hs)
      · exact hplace
    · rename_i hdots
      intro s hs
      rcases List.mem_append.mp hs with hs | hs
      · exact hplace s hs
      · obtain rfl := List.mem_singleton.mp hs
        exact ⟨hempty, hdot, hdots, hslash⟩

theorem proper_normalizeString (path : String) :
    ∀ s ∈ normalizeString path false, Proper s := by
  have hfold : ∀ (l : List Segment) (place : List Segment), (∀ s ∈ l, '/' ∉ s) →
      (∀ s ∈ place, Proper s) → ∀ s ∈ l.foldl (normalizeSegment false) place, Proper s := by
    intro l
    induction l with
    | nil => exact fun place _ hplace => hplace
    | cons segment l ih =>
        intro place hl hplace
        obtain ⟨hslash, hl⟩ := List.forall_mem_cons.mp hl
        exact ih _ hl (proper_normalizeSegment hplace hslash)
  exact hfold _ [] (fun s hs => not_mem_of_mem_splitOn hs) (List.forall_mem_nil _)

theorem foldl_normalizeSegment {l : List Segment} (h : ∀ s ∈ l, Proper s)
    (allowAboveRoot : Bool) (place : List Segment) :
    l.foldl (normalizeSegment allowAboveRoot) place = place ++ l := by
  induction l generalizing place with
  | nil => simp
  | cons segment l ih =>
      obtain ⟨hsegment, hl⟩ := List.forall_mem_cons.mp h
      rw [List.foldl_cons, normalizeSegment_of_proper hsegment, ih hl, List.append_assoc]
      rfl

theorem foldl_enter {l : List Segment} (h : ∀ s ∈ l, Proper s) (place : List Segment) :
    l.foldl enter place = place ++ l := by
  induction l generalizing place with
  | nil => simp
  | cons segment l ih =>
      obtain ⟨hsegment, hl⟩ := List.forall_mem_cons.mp h
      rw [List.foldl_cons, enter_of_proper hsegment, ih hl, List.append_assoc]
      rfl

end Normalize

section Resolve

variable {path path' : String} {place place' : List Segment}

theorem toList_join (place : List Segment) :
    ("/" ++ join place).toList = '/' :: ['/'].intercalate place := by
  simp [join]

theorem splitOn_intercalate_proper (h : ∀ s ∈ place, Proper s) (hne : place ≠ []) :
    (['/'].intercalate place).splitOn '/' = place :=
  List.splitOn_intercalate '/' (fun s hs => (h s hs).slash) hne

/-- The empty piece before the first slash, and the names; the root is two empty pieces. -/
theorem segments_of_resolved (h : Resolved path place) :
    segments path = [] :: if place = [] then [[]] else place := by
  obtain ⟨hproper, rfl⟩ := h
  rw [segments, toList_join]
  have hsplit := List.splitOn_append_cons_self [] (['/'].intercalate place) (a := '/')
  rw [List.nil_append, List.splitOn_nil] at hsplit
  rw [hsplit]
  split
  · rename_i hnil
    subst hnil
    rfl
  · rename_i hne
    rw [splitOn_intercalate_proper hproper hne]
    rfl

theorem locate_of_resolved (h : Resolved path place) : locate path = place := by
  rw [locate, segments_of_resolved h, List.foldl_cons]
  split
  · rename_i hnil
    subst hnil
    rfl
  · exact (foldl_enter h.1 _).trans (List.nil_append place)

theorem normalizeString_of_resolved (h : Resolved path place) (allowAboveRoot : Bool) :
    normalizeString path allowAboveRoot = place := by
  rw [normalizeString, segments_of_resolved h, List.foldl_cons]
  split
  · rename_i hnil
    subst hnil
    rfl
  · exact (foldl_normalizeSegment h.1 allowAboveRoot _).trans (List.nil_append place)

/-- A resolved path below the root does not end in a slash. -/
theorem getLast?_of_resolved (h : Resolved path place) (hne : place ≠ []) :
    path.toList.getLast? ≠ some '/' := by
  intro hlast
  obtain ⟨front, hfront⟩ := List.getLast?_eq_some_iff.mp hlast
  have hsegments := segments_of_resolved h
  rw [segments, hfront, List.splitOn_append_cons_self, if_neg hne, List.splitOn_nil] at hsegments
  obtain ⟨first, rest, hsplit⟩ := List.exists_cons_of_ne_nil (List.splitOn_ne_nil '/' front)
  rw [hsplit, List.cons_append] at hsegments
  have hempty : ([] : Segment) ∈ place := by
    rw [← (List.cons.inj hsegments).2]
    simp
  exact (h.1 [] hempty).nonempty rfl

/-- A resolved path is its own normal form. -/
theorem normalize_of_resolved (h : Resolved path place) : normalize path = path := by
  have hpath := h.2
  have habsolute : isAbsolute path = true := by
    rw [isAbsolute, hpath, toList_join]
    rfl
  have hne : path ≠ "" := by
    rintro rfl
    cases habsolute
  rw [normalize, if_neg hne]
  simp only [normalizeString_of_resolved h, habsolute, if_true]
  split
  · rename_i hnil
    rw [hpath, hnil]
    rfl
  · rename_i hplace
    simp only [getLast?_of_resolved h hplace, decide_false, Bool.false_eq_true, if_false]
    rw [String.append_empty, hpath]

/-- `path.resolve` in an absolute working directory gives a resolved path. -/
theorem exists_resolved {cwd : String} (h : isAbsolute cwd = true) (paths : List String) :
    ∃ place, Resolved (resolve cwd paths) place := by
  have hcwd : cwd ≠ "" := by
    rintro rfl
    cases h
  have habsolute : ∀ (paths : List String) (resolvedPath : String),
      (prepend (paths ++ [cwd]) resolvedPath).2 = true := by
    intro paths
    induction paths with
    | nil =>
        intro resolvedPath
        simp [prepend, hcwd, h]
    | cons path rest ih =>
        intro resolvedPath
        rw [List.cons_append, prepend]
        split
        · exact ih _
        · split
          · rfl
          · exact ih _
  refine ⟨normalizeString (prepend (paths.reverse ++ [cwd]) "").1 false,
    proper_normalizeString _, ?_⟩
  simp only [resolve, habsolute, if_true]
  rfl

/-- The path of an entry of a directory. -/
theorem resolve_entry (h : Resolved path place) {name : String} (hname : Proper name.toList)
    (cwd : String) : Resolved (resolve cwd [path, name]) (place ++ [name.toList]) := by
  have habsolute : isAbsolute path = true := by
    rw [isAbsolute, h.2, toList_join]
    rfl
  have hne : path ≠ "" := by
    rintro rfl
    cases habsolute
  have hname' : name ≠ "" := by
    rintro rfl
    exact hname.nonempty rfl
  have hrelative : ¬ isAbsolute name = true := by
    intro hslash
    rw [isAbsolute, decide_eq_true_iff] at hslash
    exact hname.slash (List.mem_of_mem_head? hslash)
  have hprepend : prepend ([path, name].reverse ++ [cwd]) "" =
      (path ++ "/" ++ (name ++ "/" ++ ""), true) := by
    simp [prepend, hne, hname', hrelative, habsolute]
  have htext : (path ++ "/" ++ (name ++ "/" ++ "")).toList =
      path.toList ++ '/' :: (name.toList ++ '/' :: []) := by
    simp
  have hsegments : segments (path ++ "/" ++ (name ++ "/" ++ "")) =
      segments path ++ [name.toList, []] := by
    rw [segments, htext, List.splitOn_append_cons_self, List.splitOn_append_cons_self,
      List.splitOn_eq_singleton hname.slash, List.splitOn_nil]
    rfl
  have hdir : normalizeString (path ++ "/" ++ (name ++ "/" ++ "")) false =
      place ++ [name.toList] := by
    rw [normalizeString, hsegments, List.foldl_append, ← normalizeString,
      normalizeString_of_resolved h, List.foldl_cons, normalizeSegment_of_proper hname]
    rfl
  refine ⟨?_, ?_⟩
  · rw [← hdir]
    exact proper_normalizeString _
  · simp only [resolve, hprepend, Bool.not_true, hdir, if_true]

/-- A path that begins with another one and a slash leads below it. -/
theorem below_of_prefix (h : Resolved path place) (h' : Resolved path' place')
    (hinside : (path ++ "/").toList <+: path'.toList) :
    ∃ inner, inner ≠ [] ∧ place' = place ++ inner := by
  obtain ⟨rest, hrest⟩ := hinside
  rw [String.toList_append, h.2, h'.2, toList_join, toList_join] at hrest
  have hjoin : ['/'].intercalate place ++ '/' :: rest = ['/'].intercalate place' := by
    simpa using hrest
  have hne : place' ≠ [] := by
    rintro rfl
    simp at hjoin
  have hsplit := congrArg (List.splitOn '/') hjoin
  rw [List.splitOn_append_cons_self, splitOn_intercalate_proper h'.1 hne] at hsplit
  cases place with
  | nil =>
      -- the root itself has no entry with an empty name
      have hempty : ([] : Segment) ∈ place' := by
        rw [← hsplit]
        simp
      exact ((h'.1 [] hempty).nonempty rfl).elim
  | cons segment place =>
      rw [splitOn_intercalate_proper h.1 (List.cons_ne_nil _ _)] at hsplit
      exact ⟨_, List.splitOn_ne_nil '/' rest, hsplit.symm⟩

end Resolve

end Path

end Pulse
