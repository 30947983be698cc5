import Mathlib.Logic.Relation
import ComponentStyles.Project.Reference

/-!
Canonical paths.

The segments taken so far are a stack: an ordinary segment goes on it, a climb takes one off, and
the other segments leave it alone.  So a path has no canonical form exactly if some of its first
segments hold more climbs than ordinary segments; otherwise its form holds ordinary segments only
and is its own form.  A path inside a directory may have the directory's form in the directory's
place, and a detour through an ordinary segment can be left out, so references whose joined paths
differ only in such ways resolve to the same file.
-/

namespace ComponentStyles.Project

open ComponentStyles.Text

def pathSegments (path : String) : List (List Char) :=
  path.toList.splitOn '/'

def IsOrdinary (segment : List Char) : Prop :=
  segment ≠ [] ∧ segment ≠ ['.'] ∧ segment ≠ ['.', '.']

instance : DecidablePred IsOrdinary := fun segment =>
  inferInstanceAs (Decidable (segment ≠ [] ∧ segment ≠ ['.'] ∧ segment ≠ ['.', '.']))

def ordinaryCount (segments : List (List Char)) : Nat :=
  segments.countP (IsOrdinary ·)

def climbCount (segments : List (List Char)) : Nat :=
  segments.count ['.', '.']

inductive SegmentKind (segment : List Char) : Prop where
  | idle (still : segment = [] ∨ segment = ['.'])
  | climb (up : segment = ['.', '.'])
  | ordinary (named : IsOrdinary segment)

theorem segmentKind (segment : List Char) : SegmentKind segment := by
  by_cases still : segment = [] ∨ segment = ['.']
  · exact .idle still
  · by_cases up : segment = ['.', '.']
    · exact .climb up
    · rw [not_or] at still
      exact .ordinary ⟨still.1, still.2, up⟩

section OneSegment

variable {segment : List Char} (taken rest : List (List Char))

theorem takeSegments_idle (still : segment = [] ∨ segment = ['.']) :
    takeSegments taken (segment :: rest) = takeSegments taken rest := by
  rw [takeSegments, takeSegment.eq_def, if_pos still, Option.bind_some]

theorem takeSegments_climb_nil : takeSegments [] (['.', '.'] :: rest) = none := rfl

theorem takeSegments_climb_cons (last : List Char) :
    takeSegments (last :: taken) (['.', '.'] :: rest) = takeSegments taken rest := rfl

theorem takeSegments_ordinary (named : IsOrdinary segment) :
    takeSegments taken (segment :: rest) = takeSegments (segment :: taken) rest := by
  have moves : ¬(segment = [] ∨ segment = ['.']) := not_or.mpr ⟨named.1, named.2.1⟩
  rw [takeSegments, takeSegment.eq_def, if_neg moves, if_neg named.2.2, Option.bind_some]

theorem ordinaryCount_idle (still : segment = [] ∨ segment = ['.']) :
    ordinaryCount (segment :: rest) = ordinaryCount rest := by
  have plain : ¬decide (IsOrdinary segment) = true := fun named =>
    still.elim (of_decide_eq_true named).1 (of_decide_eq_true named).2.1
  exact List.countP_cons_of_neg plain

theorem climbCount_idle (still : segment = [] ∨ segment = ['.']) :
    climbCount (segment :: rest) = climbCount rest := by
  refine List.count_cons_of_ne ?_
  rcases still with rfl | rfl <;> decide

theorem ordinaryCount_climb : ordinaryCount (['.', '.'] :: rest) = ordinaryCount rest :=
  List.countP_cons_of_neg (by decide)

theorem climbCount_climb : climbCount (['.', '.'] :: rest) = climbCount rest + 1 :=
  List.count_cons_self

theorem ordinaryCount_ordinary (named : IsOrdinary segment) :
    ordinaryCount (segment :: rest) = ordinaryCount rest + 1 :=
  List.countP_cons_of_pos (decide_eq_true named)

theorem climbCount_ordinary (named : IsOrdinary segment) :
    climbCount (segment :: rest) = climbCount rest :=
  List.count_cons_of_ne named.2.2

end OneSegment

theorem takeSegments_append (taken front back : List (List Char)) :
    takeSegments taken (front ++ back) =
      (takeSegments taken front).bind (takeSegments · back) := by
  induction front generalizing taken with
  | nil => rfl
  | cons segment rest inductionHypothesis =>
      rw [List.cons_append, takeSegments, takeSegments, Option.bind_assoc]
      exact congrArg _ (funext inductionHypothesis)

theorem takeSegments_eq_none_iff (taken segments : List (List Char)) :
    takeSegments taken segments = none ↔
      ∃ front, front <+: segments ∧ taken.length + ordinaryCount front < climbCount front := by
  induction segments generalizing taken with
  | nil =>
      constructor
      · intro failed
        cases failed
      · intro tooMany
        obtain ⟨front, within, more⟩ := tooMany
        rw [List.prefix_nil.mp within] at more
        exact absurd more (Nat.not_lt_zero _)
  | cons segment rest inductionHypothesis =>
      -- A prefix that counts is not empty, so it begins with the segment.
      have split : (∃ front, front <+: segment :: rest ∧
            taken.length + ordinaryCount front < climbCount front) ↔
          ∃ front, front <+: rest ∧
            taken.length + ordinaryCount (segment :: front) < climbCount (segment :: front) := by
        constructor
        · intro tooMany
          obtain ⟨front, within, more⟩ := tooMany
          cases front with
          | nil => exact absurd more (Nat.not_lt_zero _)
          | cons first front =>
              obtain ⟨rfl, inside⟩ := List.cons_prefix_cons.mp within
              exact ⟨front, inside, more⟩
        · intro tooMany
          obtain ⟨front, within, more⟩ := tooMany
          exact ⟨segment :: front, List.cons_prefix_cons.mpr ⟨rfl, within⟩, more⟩
      rw [split]
      cases segmentKind segment with
      | idle still =>
          rw [takeSegments_idle taken rest still, inductionHypothesis]
          simp only [ordinaryCount_idle _ still, climbCount_idle _ still]
      | climb up =>
          subst up
          cases taken with
          | nil =>
              rw [takeSegments_climb_nil]
              exact iff_of_true rfl ⟨[], List.nil_prefix, by decide⟩
          | cons last taken =>
              rw [takeSegments_climb_cons, inductionHypothesis]
              refine exists_congr fun front => and_congr_right fun _ => ?_
              rw [ordinaryCount_climb, climbCount_climb, List.length_cons]
              omega
      | ordinary named =>
          rw [takeSegments_ordinary taken rest named, inductionHypothesis]
          refine exists_congr fun front => and_congr_right fun _ => ?_
          rw [ordinaryCount_ordinary front named, climbCount_ordinary front named, List.length_cons]
          omega

/-- A path has no canonical form exactly if it climbs out of the project somewhere. -/
theorem canonicalPath?_eq_none_iff (path : String) :
    canonicalPath? path = none ↔
      ∃ front, front <+: pathSegments path ∧ ordinaryCount front < climbCount front := by
  have stack := takeSegments_eq_none_iff [] (pathSegments path)
  rw [List.length_nil] at stack
  simp only [Nat.zero_add] at stack
  rw [← stack]
  exact Option.map_eq_none_iff

/-! ### The canonical form -/

theorem takeSegments_of_ordinary (taken : List (List Char)) {segments : List (List Char)}
    (named : ∀ segment ∈ segments, IsOrdinary segment) :
    takeSegments taken segments = some (segments.reverse ++ taken) := by
  induction segments generalizing taken with
  | nil => rfl
  | cons segment rest inductionHypothesis =>
      have first := named segment List.mem_cons_self
      have others := fun other among => named other (List.mem_cons_of_mem segment among)
      rw [takeSegments_ordinary taken rest first, inductionHypothesis (segment :: taken) others,
        List.reverse_cons, List.append_assoc, List.singleton_append]

theorem taken_among {taken segments left : List (List Char)}
    (ends : takeSegments taken segments = some left) :
    ∀ segment ∈ left, segment ∈ taken ∨ (segment ∈ segments ∧ IsOrdinary segment) := by
  induction segments generalizing taken with
  | nil =>
      rw [takeSegments, Option.some.injEq] at ends
      subst ends
      exact fun segment among => .inl among
  | cons first rest inductionHypothesis =>
      have later : ∀ {segment}, segment ∈ rest ∧ IsOrdinary segment →
          segment ∈ first :: rest ∧ IsOrdinary segment := fun inside =>
        ⟨List.mem_cons_of_mem first inside.1, inside.2⟩
      intro segment among
      cases segmentKind first with
      | idle still =>
          rw [takeSegments_idle taken rest still] at ends
          exact (inductionHypothesis ends segment among).imp_right later
      | climb up =>
          subst up
          cases taken with
          | nil => cases ends
          | cons last taken =>
              rw [takeSegments_climb_cons] at ends
              exact (inductionHypothesis ends segment among).imp (List.mem_cons_of_mem last) later
      | ordinary named =>
          rw [takeSegments_ordinary taken rest named] at ends
          rcases inductionHypothesis ends segment among with onStack | inside
          · rcases List.mem_cons.mp onStack with same | below
            · exact .inr ⟨same ▸ List.mem_cons_self, same ▸ named⟩
            · exact .inl below
          · exact .inr (later inside)

theorem separator_notMem_of_mem_splitOn {separator : Char} {text piece : List Char}
    (among : piece ∈ text.splitOn separator) : separator ∉ piece := by
  by_cases inside : separator ∈ text
  · obtain ⟨front, back, shape, absent⟩ := List.eq_append_cons_of_mem inside
    rw [shape, List.splitOn_append_cons_self_of_not_mem absent] at among
    have shorter : back.length < text.length := by
      rw [shape, List.length_append, List.length_cons]
      omega
    rcases List.mem_cons.mp among with same | behind
    · exact same ▸ absent
    · exact separator_notMem_of_mem_splitOn behind
  · rw [List.splitOn_eq_singleton inside] at among
    exact (List.mem_singleton.mp among) ▸ inside
termination_by text.length

/-- A canonical path is written from ordinary segments, which its slashes separate. -/
structure WrittenFrom (names : List (List Char)) (path : String) : Prop where
  text : path = String.ofList (['/'].intercalate names)
  ordinary : ∀ name ∈ names, IsOrdinary name
  separate : ∀ name ∈ names, '/' ∉ name

namespace WrittenFrom

variable {names : List (List Char)} {path : String} (written : WrittenFrom names path)
include written

theorem pathSegments_eq : pathSegments path = if names = [] then [[]] else names := by
  rw [pathSegments, written.text, String.toList_ofList]
  split
  · rename_i nothing
    rw [nothing]
    rfl
  · rename_i something
    exact List.splitOn_intercalate '/' written.separate something

theorem takeSegments_eq : takeSegments [] (pathSegments path) = some names.reverse := by
  rw [written.pathSegments_eq]
  split
  · rename_i nothing
    rw [nothing]
    rfl
  · rw [takeSegments_of_ordinary [] written.ordinary, List.append_nil]

theorem canonicalPath?_eq : canonicalPath? path = some path := by
  have stack := written.takeSegments_eq
  rw [pathSegments] at stack
  rw [canonicalPath?, stack, Option.map_some, List.reverse_reverse, ← written.text]

end WrittenFrom

theorem writtenFrom_of_canonicalPath? {path canonical : String}
    (found : canonicalPath? path = some canonical) :
    ∃ names, WrittenFrom names canonical ∧
      takeSegments [] (pathSegments path) = some names.reverse := by
  obtain ⟨left, ends, text⟩ := Option.map_eq_some_iff.mp found
  have among : ∀ name ∈ left.reverse, name ∈ pathSegments path ∧ IsOrdinary name := by
    intro name member
    have inside := taken_among ends name (List.mem_reverse.mp member)
    exact inside.resolve_left List.not_mem_nil
  refine ⟨left.reverse, ⟨text.symm, fun name member => (among name member).2, ?_⟩, ?_⟩
  · intro name member
    exact separator_notMem_of_mem_splitOn (among name member).1
  · rw [List.reverse_reverse]
    exact ends

theorem takeSegments_of_canonicalPath? {path canonical : String}
    (found : canonicalPath? path = some canonical) :
    takeSegments [] (pathSegments path) = takeSegments [] (pathSegments canonical) := by
  obtain ⟨names, written, ends⟩ := writtenFrom_of_canonicalPath? found
  exact ends.trans written.takeSegments_eq.symm

theorem canonicalPath?_canonical {path canonical : String}
    (found : canonicalPath? path = some canonical) :
    canonicalPath? canonical = some canonical := by
  obtain ⟨names, written, _⟩ := writtenFrom_of_canonicalPath? found
  exact written.canonicalPath?_eq

theorem canonicalPath?_segments {path canonical : String}
    (found : canonicalPath? path = some canonical) :
    canonical = "" ∨ ∀ segment ∈ pathSegments canonical, IsOrdinary segment := by
  obtain ⟨names, written, _⟩ := writtenFrom_of_canonicalPath? found
  by_cases nothing : names = []
  · left
    rw [written.text, nothing]
    rfl
  · right
    rw [written.pathSegments_eq, if_neg nothing]
    exact written.ordinary

theorem canonicalPath?_eq_self_iff (path : String) :
    canonicalPath? path = some path ↔
      path = "" ∨ ∀ segment ∈ pathSegments path, IsOrdinary segment := by
  constructor
  · exact canonicalPath?_segments
  · intro shape
    rcases shape with nothing | named
    · rw [nothing]
      rfl
    · have text : path = String.ofList (['/'].intercalate (pathSegments path)) := by
        rw [pathSegments, List.intercalate_splitOn, String.ofList_toList]
      have separate : ∀ segment ∈ pathSegments path, '/' ∉ segment := by
        intro segment among
        exact separator_notMem_of_mem_splitOn among
      exact WrittenFrom.canonicalPath?_eq ⟨text, named, separate⟩

theorem pathSegments_joinPath {directory : String} (named : directory ≠ "") (name : String) :
    pathSegments (joinPath directory name) = pathSegments directory ++ pathSegments name := by
  have slash : (directory ++ "/" ++ name).toList = directory.toList ++ '/' :: name.toList := by
    rw [String.toList_append, String.toList_append, List.append_assoc]
    rfl
  have something : ¬directory.isEmpty = true := fun empty => named (String.isEmpty_iff.mp empty)
  rw [joinPath, if_neg something, pathSegments, slash, List.splitOn_append_cons_self]
  rfl

theorem takeSegments_joinPath (directory name : String) :
    takeSegments [] (pathSegments (joinPath directory name)) =
      (takeSegments [] (pathSegments directory)).bind (takeSegments · (pathSegments name)) := by
  by_cases nameless : directory = ""
  · rw [nameless]
    rfl
  · rw [pathSegments_joinPath nameless, takeSegments_append]

/-- Only how the stack ends decides what a path in the directory means. -/
theorem canonicalPath?_joinPath {directory other : String}
    (same : takeSegments [] (pathSegments directory) = takeSegments [] (pathSegments other))
    (name : String) :
    canonicalPath? (joinPath directory name) = canonicalPath? (joinPath other name) := by
  have stack := takeSegments_joinPath directory name
  rw [same, ← takeSegments_joinPath] at stack
  exact congrArg (Option.map _) stack

theorem canonicalPath?_joinPath_canonical {directory canonical : String}
    (found : canonicalPath? directory = some canonical) (name : String) :
    canonicalPath? (joinPath directory name) = canonicalPath? (joinPath canonical name) :=
  canonicalPath?_joinPath (takeSegments_of_canonicalPath? found) name

/-- One segment that goes nowhere is left out, or one detour through an ordinary segment. -/
inductive Shortens : List (List Char) → List (List Char) → Prop
  | idle (front back : List (List Char)) {segment : List Char}
      (still : segment = [] ∨ segment = ['.']) :
      Shortens (front ++ segment :: back) (front ++ back)
  | detour (front back : List (List Char)) {segment : List Char} (named : IsOrdinary segment) :
      Shortens (front ++ segment :: ['.', '.'] :: back) (front ++ back)

/-- The paths differ only by segments that go nowhere and by detours. -/
def SamePlace (left right : String) : Prop :=
  Relation.EqvGen Shortens (pathSegments left) (pathSegments right)

theorem takeSegments_of_shortens (taken : List (List Char)) {long short : List (List Char)}
    (shortens : Shortens long short) : takeSegments taken long = takeSegments taken short := by
  cases shortens with
  | idle front back still =>
      rw [takeSegments_append, takeSegments_append]
      exact congrArg _ (funext fun reached => takeSegments_idle reached back still)
  | detour front back named =>
      rw [takeSegments_append, takeSegments_append]
      refine congrArg _ (funext fun reached => ?_)
      rw [takeSegments_ordinary reached _ named, takeSegments_climb_cons]

theorem takeSegments_of_eqvGen (taken : List (List Char)) {left right : List (List Char)}
    (equivalent : Relation.EqvGen Shortens left right) :
    takeSegments taken left = takeSegments taken right := by
  induction equivalent with
  | rel _ _ shortens => exact takeSegments_of_shortens taken shortens
  | refl _ => rfl
  | symm _ _ _ inductionHypothesis => exact inductionHypothesis.symm
  | trans _ _ _ _ _ leftHypothesis rightHypothesis =>
      exact leftHypothesis.trans rightHypothesis

theorem SamePlace.canonicalPath?_eq {left right : String} (same : SamePlace left right) :
    canonicalPath? left = canonicalPath? right :=
  congrArg (Option.map _) (takeSegments_of_eqvGen [] same)

theorem eqvGen_of_takeSegments {taken segments left : List (List Char)}
    (stacked : ∀ segment ∈ taken, IsOrdinary segment)
    (ends : takeSegments taken segments = some left) :
    Relation.EqvGen Shortens (taken.reverse ++ segments) left.reverse := by
  induction segments generalizing taken with
  | nil =>
      rw [takeSegments, Option.some.injEq] at ends
      rw [ends, List.append_nil]
      exact .refl _
  | cons segment rest inductionHypothesis =>
      cases segmentKind segment with
      | idle still =>
          rw [takeSegments_idle taken rest still] at ends
          exact .trans _ _ _ (.rel _ _ (.idle taken.reverse rest still))
            (inductionHypothesis stacked ends)
      | climb up =>
          subst up
          cases taken with
          | nil => cases ends
          | cons last taken =>
              rw [takeSegments_climb_cons] at ends
              have below := fun other among => stacked other (List.mem_cons_of_mem last among)
              have detour := Shortens.detour taken.reverse rest (stacked last List.mem_cons_self)
              rw [List.reverse_cons, List.append_assoc, List.singleton_append]
              exact .trans _ _ _ (.rel _ _ detour) (inductionHypothesis below ends)
      | ordinary named =>
          rw [takeSegments_ordinary taken rest named] at ends
          have onTop : ∀ other ∈ segment :: taken, IsOrdinary other := by
            intro other among
            rcases List.mem_cons.mp among with same | below
            · exact same ▸ named
            · exact stacked other below
          have reached := inductionHypothesis onTop ends
          rw [List.reverse_cons, List.append_assoc, List.singleton_append] at reached
          exact reached

theorem samePlace_canonical {path canonical : String}
    (found : canonicalPath? path = some canonical) : SamePlace path canonical := by
  obtain ⟨names, written, ends⟩ := writtenFrom_of_canonicalPath? found
  have nothing : ∀ segment ∈ ([] : List (List Char)), IsOrdinary segment := by
    intro segment among
    cases among
  have fromPath := eqvGen_of_takeSegments nothing ends
  have fromForm := eqvGen_of_takeSegments nothing written.takeSegments_eq
  exact .trans _ _ _ fromPath (.symm _ _ fromForm)

/-- Paths with a form have the same form exactly if they differ only by detours. -/
theorem samePlace_iff {left canonical : String} (found : canonicalPath? left = some canonical)
    (right : String) : SamePlace left right ↔ canonicalPath? right = some canonical := by
  constructor
  · intro same
    rw [← same.canonicalPath?_eq]
    exact found
  · intro sameForm
    exact .trans _ _ _ (samePlace_canonical found) (.symm _ _ (samePlace_canonical sameForm))

/-- A reference that names something and does not start at the source roots. -/
def IsRelative (reference : String) : Prop :=
  trim reference.toList ≠ [] ∧ (trim reference.toList).head? ≠ some '/'

instance : DecidablePred IsRelative := fun reference =>
  inferInstanceAs
    (Decidable (trim reference.toList ≠ [] ∧ (trim reference.toList).head? ≠ some '/'))

/-- A relative reference means the form of its path in the directory of its document. -/
theorem resolveReference?_of_relative (project : Project) (origin : FileId) {reference : String}
    (relative : IsRelative reference) :
    project.resolveReference? origin reference =
      (canonicalPath? (joinPath (parentPath origin.path) (trimmed reference))).bind
        fun path => (project.document? { path }).map Document.file := by
  have candidates : project.candidatePaths origin (trim reference.toList) =
      [joinPath (parentPath origin.path) (trimmed reference)] := by
    unfold candidatePaths
    split
    · rename_i rooted shape
      exact absurd (congrArg List.head? shape) relative.2
    · rfl
  have something : ¬(trim reference.toList).isEmpty = true := fun blank =>
    relative.1 (List.isEmpty_iff.mp blank)
  rw [resolveReference?, if_neg something, candidates]
  cases form : canonicalPath? (joinPath (parentPath origin.path) (trimmed reference)) with
  | none => rw [List.filterMap_cons_none form, List.filterMap_nil, Option.bind_none,
      List.findSome?_nil]
  | some path => rw [List.filterMap_cons_some form, List.filterMap_nil, Option.bind_some,
      List.findSome?_singleton]

/-- Whatever is found is stored under its own canonical path. -/
theorem document?_of_resolveReference? {project : Project} {origin file : FileId}
    {reference : String} (found : project.resolveReference? origin reference = some file) :
    (∃ document, project.document? file = some document ∧ document.file = file) ∧
      canonicalPath? file.path = some file.path := by
  rw [resolveReference?] at found
  split at found
  · cases found
  · obtain ⟨path, among, stored⟩ := List.exists_of_findSome?_eq_some found
    obtain ⟨document, held, same⟩ := Option.map_eq_some_iff.mp stored
    obtain ⟨candidate, _, isForm⟩ := List.mem_filterMap.mp among
    have named : document.file = { path } := file_of_document? held
    rw [← same, named]
    exact ⟨⟨document, held, named⟩, canonicalPath?_canonical isForm⟩

/-- Paths are read through their canonical forms: which of them have one and what it is, that a
directory may be given in it, that relative references are told apart by it alone, and that
whatever they resolve to is stored under it. -/
theorem references_are_canonicalized :
    (∀ path : String,
      (canonicalPath? path = none ↔
        ∃ front, front <+: pathSegments path ∧ ordinaryCount front < climbCount front) ∧
      ∀ canonical, canonicalPath? path = some canonical →
        (canonical = "" ∨ ∀ segment ∈ pathSegments canonical, IsOrdinary segment) ∧
        canonicalPath? canonical = some canonical) ∧
    (∀ directory canonical name : String, canonicalPath? directory = some canonical →
      canonicalPath? (joinPath directory name) = canonicalPath? (joinPath canonical name)) ∧
    (∀ (project : Project) (origin other : FileId) (reference variant : String),
      IsRelative reference → IsRelative variant →
      SamePlace (joinPath (parentPath origin.path) (trimmed reference))
        (joinPath (parentPath other.path) (trimmed variant)) →
      project.resolveReference? origin reference = project.resolveReference? other variant) ∧
    ∀ (project : Project) (origin file : FileId) (reference : String),
      project.resolveReference? origin reference = some file →
      (∃ document, project.document? file = some document ∧ document.file = file) ∧
        canonicalPath? file.path = some file.path := by
  refine ⟨?_, ?_, ?_, ?_⟩
  · intro path
    refine ⟨canonicalPath?_eq_none_iff path, ?_⟩
    intro canonical found
    exact ⟨canonicalPath?_segments found, canonicalPath?_canonical found⟩
  · intro directory canonical name found
    exact canonicalPath?_joinPath_canonical found name
  · intro project origin other reference variant relative relativeToo same
    rw [resolveReference?_of_relative project origin relative,
      resolveReference?_of_relative project other relativeToo, same.canonicalPath?_eq]
  · intro project origin file reference found
    exact document?_of_resolveReference? found

def pagesBesideTheme : Project :=
  { Project.empty with
    documents := [.markup ⟨"src/pages/Cart.mxml"⟩ none, .stylesheet ⟨"src/theme.css"⟩ ""] }

theorem theme_found_by_detour :
    canonicalPath? "src/./pages" = some "src/pages" ∧
    canonicalPath? (joinPath "src/./pages" "Cart.mxml") =
      canonicalPath? (joinPath "src/pages" "Cart.mxml") ∧
    pagesBesideTheme.resolveReference? ⟨"src/pages/Cart.mxml"⟩ " ../theme.css" =
      some ⟨"src/theme.css"⟩ ∧
    pagesBesideTheme.resolveReference? ⟨"src/theme.css"⟩ ".//pages/../theme.css" =
      some ⟨"src/theme.css"⟩ ∧
    canonicalPath? "src/theme.css" = some "src/theme.css" := by
  obtain ⟨_, inside, alike, stored⟩ := references_are_canonicalized
  have form : canonicalPath? "src/./pages" = some "src/pages" := by decide +kernel
  have climbs : canonicalPath? (joinPath (parentPath "src/pages/Cart.mxml")
      (trimmed " ../theme.css")) = some "src/theme.css" := by decide +kernel
  have turns : canonicalPath? (joinPath (parentPath "src/theme.css")
      (trimmed ".//pages/../theme.css")) = some "src/theme.css" := by decide +kernel
  have found : pagesBesideTheme.resolveReference? ⟨"src/pages/Cart.mxml"⟩ " ../theme.css" =
      some ⟨"src/theme.css"⟩ := by decide +kernel
  have same := alike pagesBesideTheme ⟨"src/pages/Cart.mxml"⟩ ⟨"src/theme.css"⟩ " ../theme.css"
    ".//pages/../theme.css" (by decide +kernel) (by decide +kernel)
    ((samePlace_iff climbs _).mpr turns)
  exact ⟨form, inside "src/./pages" "src/pages" "Cart.mxml" form, found, same.symm.trans found,
    (stored pagesBesideTheme _ _ _ found).2⟩

end ComponentStyles.Project
