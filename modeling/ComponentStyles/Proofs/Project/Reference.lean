import ComponentStyles.Fixture.Basic
import ComponentStyles.Proofs.Project.Path

/-!
Which references find a stored file.

A file that is stored under its canonical path is found by its name from every document of its
directory, unless trimming takes something off the name.  Under a source root the file of a name
is found by the name behind a slash if the root has a name of its own and is given in its
canonical form; a root without a name holds no file at all, and what stands under a root in
another form is stored under a path that no reference leads to.
-/

namespace ComponentStyles.Project

open ComponentStyles.Text

variable {project : Project} {file origin : FileId}

theorem map_file_document?_eq_some_iff {path : String} :
    (project.document? { path }).map Document.file = some file ↔
      path = file.path ∧ project.document? file ≠ none := by
  constructor
  · intro found
    obtain ⟨document, held, same⟩ := Option.map_eq_some_iff.mp found
    have named : { path } = file := (file_of_document? held).symm.trans same
    subst named
    exact ⟨rfl, Option.ne_none_iff_exists'.mpr ⟨document, held⟩⟩
  · intro stored
    obtain ⟨document, held⟩ := Option.ne_none_iff_exists'.mp stored.2
    rw [stored.1]
    exact Option.map_eq_some_iff.mpr ⟨document, held, file_of_document? held⟩

theorem pathSegments_name {name : String} (separate : '/' ∉ name.toList) :
    pathSegments name = [name.toList] :=
  List.splitOn_eq_singleton separate

theorem takeSegments_singleton_iff (taken : List (List Char)) {name segment : List Char}
    (ordinary : IsOrdinary name) :
    takeSegments taken [segment] = some (name :: taken) ↔ segment = name := by
  have longer : ∀ {before : List (List Char)}, before.length ≤ taken.length →
      some before ≠ some (name :: taken) := by
    intro before shorter same
    have lengths := congrArg List.length (Option.some.inj same)
    rw [List.length_cons] at lengths
    omega
  cases segmentKind segment with
  | idle still =>
      rw [takeSegments_idle taken [] still]
      refine iff_of_false (longer (Nat.le_refl _)) ?_
      intro same
      subst same
      exact still.elim ordinary.1 ordinary.2.1
  | climb up =>
      subst up
      refine iff_of_false ?_ fun same => ordinary.2.2 same.symm
      cases taken with
      | nil =>
          rw [takeSegments_climb_nil]
          exact Option.some_ne_none _ ∘ Eq.symm
      | cons last taken =>
          rw [takeSegments_climb_cons]
          exact longer (Nat.le_succ _)
  | ordinary named =>
      rw [takeSegments_ordinary taken [] named, takeSegments, Option.some.injEq,
        List.cons.injEq]
      exact and_iff_left rfl

theorem canonicalPath?_joinPath_eq_iff {directory name other : String}
    (canonical : canonicalPath? (joinPath directory name) = some (joinPath directory name))
    (separate : '/' ∉ name.toList) (ordinary : IsOrdinary name.toList)
    (separateToo : '/' ∉ other.toList) :
    canonicalPath? (joinPath directory other) = some (joinPath directory name) ↔
      other = name := by
  constructor
  · intro found
    have ends := takeSegments_of_canonicalPath? found
    rw [takeSegments_joinPath, takeSegments_joinPath, pathSegments_name separate,
      pathSegments_name separateToo] at ends
    cases reached : takeSegments [] (pathSegments directory) with
    | none =>
        have climbs := takeSegments_joinPath directory name
        rw [reached, Option.bind_none] at climbs
        have formless : canonicalPath? (joinPath directory name) = none :=
          congrArg (Option.map _) climbs
        rw [formless] at canonical
        cases canonical
    | some taken =>
        rw [reached, Option.bind_some, Option.bind_some,
          (takeSegments_singleton_iff taken ordinary).mpr rfl] at ends
        exact String.toList_inj.mp ((takeSegments_singleton_iff taken ordinary).mp ends)
  · intro same
    rw [same]
    exact canonical

theorem canonicalPath?_joinPath_self_iff (directory : String) {name : String}
    (separate : '/' ∉ name.toList) (ordinary : IsOrdinary name.toList) :
    canonicalPath? (joinPath directory name) = some (joinPath directory name) ↔
      canonicalPath? directory = some directory := by
  by_cases nameless : directory = ""
  · rw [nameless]
    refine iff_of_true ((canonicalPath?_eq_self_iff name).mpr (.inr ?_)) rfl
    rw [pathSegments_name separate, List.forall_mem_singleton]
    exact ordinary
  · have joined : joinPath directory name ≠ "" := by
      intro empty
      have among : name.toList ∈ pathSegments (joinPath directory name) := by
        rw [pathSegments_joinPath nameless, pathSegments_name separate]
        exact List.mem_append_right _ List.mem_cons_self
      rw [empty] at among
      exact ordinary.1 (List.mem_singleton.mp among)
    rw [canonicalPath?_eq_self_iff, canonicalPath?_eq_self_iff, pathSegments_joinPath nameless,
      pathSegments_name separate, List.forall_mem_append, List.forall_mem_singleton,
      or_iff_right joined, or_iff_right nameless]
    exact and_iff_left ordinary

structure HasName (file : FileId) : Prop where
  whole : joinPath (parentPath file.path) file.fileName = file.path
  separate : '/' ∉ file.fileName.toList
  ordinary : IsOrdinary file.fileName.toList

theorem hasName_of_canonical (canonical : canonicalPath? file.path = some file.path)
    (named : file.fileName ≠ "") : HasName file := by
  cases cut : cutLast? '/' file.path.toList with
  | none =>
      have separate := not_mem_of_cutLast? cut
      have directory : parentPath file.path = "" := by
        rw [parentPath, leadingSegments, cut, String.ofList_nil]
      have name : file.fileName = file.path := by
        rw [FileId.fileName, lastSegment, cut, String.ofList_toList]
      rw [name] at named
      have segments := ((canonicalPath?_eq_self_iff file.path).mp canonical).resolve_left named
      rw [pathSegments_name separate, List.forall_mem_singleton] at segments
      constructor
      · rw [directory, name]
        rfl
      · rw [name]
        exact separate
      · rw [name]
        exact segments
  | some parts =>
      obtain ⟨front, back⟩ := parts
      obtain ⟨shape, separate⟩ := append_of_cutLast? cut
      have directory : parentPath file.path = String.ofList front := by
        rw [parentPath, leadingSegments, cut]
      have name : file.fileName = String.ofList back := by
        rw [FileId.fileName, lastSegment, cut]
      have something : file.path ≠ "" := by
        intro empty
        rw [empty] at shape
        exact List.append_ne_nil_of_right_ne_nil front (List.cons_ne_nil '/' back) shape.symm
      have segments := ((canonicalPath?_eq_self_iff file.path).mp canonical).resolve_left something
      rw [pathSegments, shape, List.splitOn_append_cons_self, List.forall_mem_append,
        List.splitOn_eq_singleton separate, List.forall_mem_singleton] at segments
      have nonempty : String.ofList front ≠ "" := by
        intro empty
        have nothing : front = [] := by
          rw [← String.toList_inj, String.toList_ofList] at empty
          exact empty
        rw [nothing] at segments
        exact (segments.1 [] List.mem_cons_self).1 rfl
      constructor
      · rw [directory, name, joinPath, if_neg fun empty => nonempty (String.isEmpty_iff.mp empty)]
        refine String.toList_inj.mp ?_
        simp only [shape, String.toList_append, String.toList_ofList, List.append_assoc]
        rfl
      · rw [name, String.toList_ofList]
        exact separate
      · rw [name, String.toList_ofList]
        exact segments.2

theorem resolveReference?_of_blank {reference : String} (blank : trim reference.toList = []) :
    project.resolveReference? origin reference = none := by
  rw [resolveReference?, blank]
  exact if_pos rfl

theorem resolveReference?_relative_iff {reference : String} (relative : IsRelative reference) :
    project.resolveReference? origin reference = some file ↔
      canonicalPath? (joinPath (parentPath origin.path) (trimmed reference)) = some file.path ∧
        project.document? file ≠ none := by
  rw [resolveReference?_of_relative project origin relative, Option.bind_eq_some_iff]
  constructor
  · intro found
    obtain ⟨path, form, held⟩ := found
    obtain ⟨same, stored⟩ := map_file_document?_eq_some_iff.mp held
    exact ⟨same ▸ form, stored⟩
  · intro meant
    exact ⟨file.path, meant.1, map_file_document?_eq_some_iff.mpr ⟨rfl, meant.2⟩⟩

/-- A file stored under its canonical path is what its name means in its directory, exactly if
the name is left alone by trimming. -/
theorem sibling_reference (project : Project) {file origin : FileId} {document : Document}
    (stored : project.document? file = some document)
    (canonical : canonicalPath? file.path = some file.path) (named : file.fileName ≠ "")
    (sameDirectory : parentPath origin.path = parentPath file.path) :
    project.resolveReference? origin file.fileName = some file ↔
      trimmed file.fileName = file.fileName := by
  have parts := hasName_of_canonical canonical named
  have present : project.document? file ≠ none := Option.ne_none_iff_exists'.mpr ⟨_, stored⟩
  have trimmedName : (trimmed file.fileName).toList = trim file.fileName.toList :=
    String.toList_ofList
  have separate : '/' ∉ trim file.fileName.toList := fun among =>
    parts.separate (mem_of_mem_trim among)
  rw [← parts.whole] at canonical
  by_cases blank : trim file.fileName.toList = []
  · rw [resolveReference?_of_blank blank]
    apply iff_of_false (Option.some_ne_none _ ∘ Eq.symm)
    intro same
    rw [same] at trimmedName
    exact parts.ordinary.1 (trimmedName.trans blank)
  · have relative : IsRelative file.fileName := by
      refine ⟨blank, fun rooted => ?_⟩
      exact separate (List.mem_of_head? rooted)
    rw [← trimmedName] at separate
    have meant := canonicalPath?_joinPath_eq_iff canonical parts.separate parts.ordinary separate
    rw [parts.whole] at meant
    rw [resolveReference?_relative_iff relative, and_iff_left present, sameDirectory]
    exact meant

def themedShop : Fixture :=
  { modules :=
      [{ name := ⟨"shop"⟩, nature := .application, sourceRoots := [⟨"src"⟩], dependencies := [] }]
    documents :=
      [{ file := ⟨"src/Cart.mxml"⟩, kind := .markup, root := none, text := "" },
        { file := ⟨"src/theme.css"⟩, kind := .stylesheet, root := none, text := "" },
        { file := ⟨"src/ theme.css"⟩, kind := .stylesheet, root := none, text := "" }]
    classes := [] }

theorem theme_found_beside_cart :
    themedShop.checked = .ok themedShop ∧
    themedShop.project.resolveReference? ⟨"src/Cart.mxml"⟩ "theme.css" =
      some ⟨"src/theme.css"⟩ := by
  have stored : themedShop.project.document? ⟨"src/theme.css"⟩ =
      some (.stylesheet ⟨"src/theme.css"⟩ "") := rfl
  have canonical : canonicalPath? "src/theme.css" = some "src/theme.css" := by decide +kernel
  have name : FileId.fileName ⟨"src/theme.css"⟩ = "theme.css" := by decide +kernel
  have named : FileId.fileName ⟨"src/theme.css"⟩ ≠ "" := by decide +kernel
  have sameDirectory : parentPath (FileId.path ⟨"src/Cart.mxml"⟩) = parentPath "src/theme.css" := by
    decide +kernel
  have found := sibling_reference themedShop.project stored canonical named sameDirectory
  rw [name] at found
  exact ⟨rfl, found.mpr (by decide +kernel)⟩

/-- The space is trimmed off, and the reference means the other stylesheet. -/
theorem spaced_theme_not_found :
    themedShop.checked = .ok themedShop ∧
    (themedShop.project.document? ⟨"src/ theme.css"⟩).isSome = true ∧
    canonicalPath? "src/ theme.css" = some "src/ theme.css" ∧
    FileId.fileName ⟨"src/ theme.css"⟩ = " theme.css" ∧
    parentPath "src/Cart.mxml" = parentPath "src/ theme.css" ∧
    themedShop.project.resolveReference? ⟨"src/Cart.mxml"⟩ " theme.css" =
      some ⟨"src/theme.css"⟩ := by
  refine ⟨rfl, ?_, ?_, ?_, ?_, ?_⟩ <;> decide +kernel

/-- A name of a file as it may stand behind a slash. -/
structure IsPlainName (name : String) : Prop where
  separate : '/' ∉ name.toList
  ordinary : IsOrdinary name.toList
  bare : trimmed name = name

theorem IsPlainName.trim_rooted {name : String} (plain : IsPlainName name) :
    trim ("/" ++ name).toList = '/' :: name.toList := by
  have slash : ("/" ++ name).toList = '/' :: name.toList := by
    rw [String.toList_append]
    rfl
  have bare : trim name.toList = name.toList := by
    have lists := congrArg String.toList plain.bare
    rw [trimmed, String.toList_ofList] at lists
    exact lists
  rw [slash, trim_eq_self_iff]
  constructor
  · intro character begins
    rw [List.head?_cons, Option.mem_some_iff] at begins
    subst begins
    decide
  · intro character ends
    rw [List.getLast?_cons_of_ne_nil plain.ordinary.1] at ends
    exact ((trim_eq_self_iff name.toList).mp bare).2 character ends

theorem mem_allSourceRoots {name : ModuleName} {module : ComponentModule} {root : FileId}
    (known : project.module? name = some module) (among : root ∈ module.sourceRoots) :
    root ∈ project.allSourceRoots := by
  refine List.mem_flatMap.mpr ⟨(name, module), ?_, among⟩
  exact List.mem_mergeSort.mpr (Table.mem_of_get? known)

theorem findChild?_eq_some_iff {root : FileId} {name : String} :
    project.findChild? root name = some file ↔
      joinPath root.path name = file.path ∧ project.document? file ≠ none :=
  map_file_document?_eq_some_iff

theorem holdsFile_joinPath {root : FileId} {name : String} (named : root.path ≠ "")
    (inside : joinPath root.path name = file.path) : holdsFile root file = true := by
  rw [holdsFile, List.isPrefixOf_iff_prefix, ← inside, joinPath,
    if_neg fun empty => named (String.isEmpty_iff.mp empty)]
  simp only [String.toList_append]
  exact List.prefix_append _ _

/-- The root without a name holds only what is stored with a slash in front. -/
theorem holdsFile_nameless {root : FileId} (nameless : root.path = "")
    (separate : '/' ∉ file.path.toList) : holdsFile root file = false := by
  rw [holdsFile, nameless, Bool.eq_false_iff]
  intro held
  exact separate ((List.isPrefixOf_iff_prefix.mp held).subset List.mem_cons_self)

theorem holder_of_resolveReference? {name : String} (plain : IsPlainName name)
    (found : project.resolveReference? origin ("/" ++ name) = some file) :
    ∃ root ∈ project.allSourceRoots, holdsFile root origin = true ∧
      canonicalPath? (joinPath root.path name) = some file.path := by
  rw [resolveReference?, plain.trim_rooted] at found
  obtain ⟨path, among, held⟩ := List.exists_of_findSome?_eq_some found
  obtain ⟨candidate, meant, form⟩ := List.mem_filterMap.mp among
  obtain ⟨root, holds, joined⟩ := List.mem_map.mp meant
  obtain ⟨listed, holds⟩ := List.mem_filter.mp holds
  rw [String.ofList_toList] at joined
  refine ⟨root, listed, holds, ?_⟩
  rw [joined, form, (map_file_document?_eq_some_iff.mp held).1]

/-- A reference from the source roots finds a file if one of the roots that hold its document has
a file of the name. -/
theorem resolveReference?_rooted {name : String} (plain : IsPlainName name) {root : FileId}
    (listed : root ∈ project.allSourceRoots) (holds : holdsFile root origin = true)
    (form : canonicalPath? (joinPath root.path name) = some file.path)
    (stored : project.document? file ≠ none) :
    ∃ found, project.resolveReference? origin ("/" ++ name) = some found := by
  rw [resolveReference?, plain.trim_rooted, ← Option.isSome_iff_exists]
  refine List.findSome?_isSome_iff.mpr ⟨file.path, ?_, ?_⟩
  · refine List.mem_filterMap.mpr ⟨joinPath root.path name, ?_, form⟩
    refine List.mem_map.mpr ⟨root, List.mem_filter.mpr ⟨listed, holds⟩, ?_⟩
    rw [String.ofList_toList]
  · rw [map_file_document?_eq_some_iff.mpr ⟨rfl, stored⟩]
    rfl

/-- Two files of one source root: the name of one behind a slash, written in the other, finds a
file if the root has a name and is given in its canonical form, and where no other root holds the
document it finds the file of that name exactly then. -/
theorem rooted_reference (project : Project) {name : ModuleName} {module : ComponentModule}
    {root file sibling : FileId} {fileName siblingName : String}
    (known : project.module? name = some module) (among : root ∈ module.sourceRoots)
    (plain : IsPlainName fileName) (siblingPlain : IsPlainName siblingName)
    (found : project.findChild? root fileName = some file)
    (siblingFound : project.findChild? root siblingName = some sibling) :
    (root.path ≠ "" → canonicalPath? root.path = some root.path →
      ∃ resolved, project.resolveReference? file ("/" ++ siblingName) = some resolved) ∧
    ((∀ other ∈ project.allSourceRoots, holdsFile other file = true → other = root) →
      (project.resolveReference? file ("/" ++ siblingName) = some sibling ↔
        root.path ≠ "" ∧ canonicalPath? root.path = some root.path)) := by
  obtain ⟨inside, _⟩ := findChild?_eq_some_iff.mp found
  obtain ⟨beside, stored⟩ := findChild?_eq_some_iff.mp siblingFound
  have form := canonicalPath?_joinPath_self_iff root.path siblingPlain.separate
    siblingPlain.ordinary
  have resolves : root.path ≠ "" → canonicalPath? root.path = some root.path →
      ∃ resolved, project.resolveReference? file ("/" ++ siblingName) = some resolved := by
    intro named canonical
    apply resolveReference?_rooted siblingPlain (mem_allSourceRoots known among)
      (holdsFile_joinPath named inside) _ stored
    rw [form.mpr canonical, beside]
  refine ⟨resolves, fun alone => ⟨?_, ?_⟩⟩
  · intro resolved
    obtain ⟨holder, listed, holds, _⟩ := holder_of_resolveReference? siblingPlain resolved
    rw [alone holder listed holds] at holds
    refine ⟨?_, form.mp ?_⟩
    · intro nameless
      rw [nameless] at inside
      have separate : '/' ∉ file.path.toList := inside ▸ plain.separate
      rw [holdsFile_nameless nameless separate] at holds
      cases holds
    · rw [beside]
      exact (document?_of_resolveReference? resolved).2
  · intro clean
    obtain ⟨resolved, reached⟩ := resolves clean.1 clean.2
    obtain ⟨holder, listed, holds, same⟩ := holder_of_resolveReference? siblingPlain reached
    rw [alone holder listed holds, form.mpr clean.2, Option.some.injEq, beside] at same
    exact reached.trans (congrArg some (congrArg FileId.mk same.symm))

theorem theme_found_from_root :
    themedShop.project.findChild? ⟨"src"⟩ "theme.css" = some ⟨"src/theme.css"⟩ ∧
    themedShop.project.resolveReference? ⟨"src/Cart.mxml"⟩ "/theme.css" =
      some ⟨"src/theme.css"⟩ := by
  have known : themedShop.project.module? ⟨"shop"⟩ =
      some { nature := .application, sourceRoots := [⟨"src"⟩], dependencies := [] } := rfl
  have cart : themedShop.project.findChild? ⟨"src"⟩ "Cart.mxml" = some ⟨"src/Cart.mxml"⟩ := by
    decide +kernel
  have theme : themedShop.project.findChild? ⟨"src"⟩ "theme.css" = some ⟨"src/theme.css"⟩ := by
    decide +kernel
  have canonical : canonicalPath? "src" = some "src" := by decide +kernel
  have cartPlain : IsPlainName "Cart.mxml" :=
    ⟨by decide +kernel, by decide +kernel, by decide +kernel⟩
  have themePlain : IsPlainName "theme.css" :=
    ⟨by decide +kernel, by decide +kernel, by decide +kernel⟩
  obtain ⟨_, found⟩ := rooted_reference themedShop.project known List.mem_cons_self cartPlain
    themePlain cart theme
  have alone : ∀ other ∈ themedShop.project.allSourceRoots,
      holdsFile other ⟨"src/Cart.mxml"⟩ = true → other = ⟨"src"⟩ := by
    intro other listed _
    have roots : themedShop.project.allSourceRoots = [⟨"src"⟩] := by decide +kernel
    rw [roots] at listed
    exact List.mem_singleton.mp listed
  exact ⟨theme, (found alone).mpr ⟨by decide, canonical⟩⟩

def rootlessShop : Fixture :=
  { modules :=
      [{ name := ⟨"shop"⟩, nature := .application, sourceRoots := [⟨""⟩], dependencies := [] }]
    documents :=
      [{ file := ⟨"Cart.mxml"⟩, kind := .markup, root := none, text := "" },
        { file := ⟨"theme.css"⟩, kind := .stylesheet, root := none, text := "" }]
    classes := [] }

/-- Both files are found in the root, yet the reference finds nothing. -/
theorem rootless_theme_not_found :
    rootlessShop.checked = .ok rootlessShop ∧
    rootlessShop.project.module? ⟨"shop"⟩ =
      some { nature := .application, sourceRoots := [⟨""⟩], dependencies := [] } ∧
    rootlessShop.project.allSourceRoots = [⟨""⟩] ∧
    rootlessShop.project.findChild? ⟨""⟩ "Cart.mxml" = some ⟨"Cart.mxml"⟩ ∧
    rootlessShop.project.findChild? ⟨""⟩ "theme.css" = some ⟨"theme.css"⟩ ∧
    rootlessShop.project.resolveReference? ⟨"Cart.mxml"⟩ "/theme.css" = none := by
  refine ⟨rfl, rfl, ?_, ?_, ?_, ?_⟩ <;> decide +kernel

end ComponentStyles.Project
