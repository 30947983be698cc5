import ComponentStyles.Proofs.Pass.Counting

/-!
Projects with some style tags under other names.

A tag that is named otherwise is no style tag any more, and that is all: every other tag asks for
what it asked for before, in the same order.
-/

namespace ComponentStyles

def renameTag (names : StyleSite → Option String) (document : Document) (tag : Element) :
    Element :=
  match names { document, tag } with
  | some name => { tag with name }
  | none => tag

def Document.withNames (names : StyleSite → Option String) (document : Document) : Document :=
  match document.kind with
  | .markup =>
      { document with
        root := document.root.map fun root =>
          { root with children := root.children.map (renameTag names document) } }
  | _ => document

def Project.withNames (project : Project) (names : StyleSite → Option String) : Project :=
  { project with documents := project.documents.map (Document.withNames names) }

def StyleSite.withNames (names : StyleSite → Option String) (site : StyleSite) : StyleSite :=
  { site with document := site.document.withNames names }

section Names

variable {names : StyleSite → Option String}

theorem renameTag_none {document : Document} {tag : Element}
    (kept : names { document, tag } = none) : renameTag names document tag = tag := by
  unfold renameTag
  rw [kept]

namespace Document

variable (document : Document)

theorem file_withNames : (document.withNames names).file = document.file := by
  unfold withNames
  split <;> rfl

theorem kind_withNames : (document.withNames names).kind = document.kind := by
  unfold withNames
  split <;> rfl

theorem withNames_of_isStylesheet {document : Document} (sheet : document.isStylesheet = true) :
    document.withNames names = document := by
  have kind : document.kind = .stylesheet := beq_iff_eq.mp sheet
  unfold withNames
  rw [kind]

theorem isStylesheet_withNames :
    (document.withNames names).isStylesheet = document.isStylesheet := by
  unfold isStylesheet
  rw [kind_withNames]

end Document

def Element.body (element : Element) : Option String × Option String :=
  (element.text, element.language)

namespace Element

theorem find?_renameTag (names : StyleSite → Option String) (document : Document) (id : Nat)
    (tag : Element) :
    (find? id (renameTag names document tag)).map body = (find? id tag).map body := by
  unfold renameTag
  cases names { document, tag } with
  | none => rfl
  | some name =>
      cases tag
      rw [find?, find?]
      split <;> rfl

theorem findAmong?_renameTag (document : Document) (id : Nat) (tags : List Element) :
    (findAmong? id (tags.map (renameTag names document))).map body =
      (findAmong? id tags).map body := by
  induction tags with
  | nil => rfl
  | cons tag rest inductionHypothesis =>
      rw [List.map_cons, findAmong?, findAmong?, Option.map_or, Option.map_or,
        find?_renameTag names document id tag, inductionHypothesis]

end Element

theorem Document.element?_withNames (names : StyleSite → Option String) (document : Document)
    (id : Nat) :
    ((document.withNames names).element? id).map Element.body =
      (document.element? id).map Element.body := by
  unfold element? withNames
  split
  · cases document.root with
    | none => rfl
    | some root =>
        cases root
        simp only [Option.map_some, Option.bind_some]
        rw [Element.find?, Element.find?]
        split
        · rfl
        · exact Element.findAmong?_renameTag document id _
  · rfl

namespace Project

variable (project : Project)

theorem document?_withNames (file : FileId) :
    (project.withNames names).document? file =
      (project.document? file).map (Document.withNames names) := by
  unfold document? withNames
  rw [List.find?_map]
  congr 2
  funext document
  exact congrArg (· == file) document.file_withNames

theorem fragmentOf?_withNames (hosting : InjectionHost) :
    (project.withNames names).fragmentOf? hosting = project.fragmentOf? hosting := by
  unfold fragmentOf?
  rw [document?_withNames]
  cases project.document? hosting.file with
  | none => rfl
  | some document =>
      have bodies := document.element?_withNames names hosting.element
      simp only [Option.map_some, Option.bind_eq_bind, Option.bind_some]
      cases found : document.element? hosting.element with
      | none =>
          rw [found] at bodies
          rw [Option.map_eq_none_iff.mp bodies]
      | some element =>
          rw [found] at bodies
          obtain ⟨renamed, foundRenamed, same⟩ := Option.map_eq_some_iff.mp bodies
          obtain ⟨text, language⟩ := Prod.mk.inj same
          rw [foundRenamed]
          simp only [Option.bind_some, text, language]

theorem injectedFragments_withNames (hosting : InjectionHost) :
    (project.withNames names).injectedFragments hosting = project.injectedFragments hosting := by
  unfold injectedFragments
  rw [fragmentOf?_withNames]
  rfl

theorem resolveReference?_withNames (origin : FileId) (value : String) :
    (project.withNames names).resolveReference? origin value =
      project.resolveReference? origin value := by
  apply resolveReference?_congr
  · rfl
  · intro file
    rw [document?_withNames, Option.map_map]
    congr 1
    funext document
    exact document.file_withNames

theorem sheet_withNames (target : FileId) :
    ((project.withNames names).document? target).filter Document.isStylesheet =
      (project.document? target).filter Document.isStylesheet := by
  rw [document?_withNames]
  cases project.document? target with
  | none => rfl
  | some document =>
      rw [Option.map_some, Option.filter_some, Option.filter_some,
        document.isStylesheet_withNames]
      by_cases sheet : document.isStylesheet = true
      · rw [if_pos sheet, if_pos sheet, Document.withNames_of_isStylesheet sheet]
      · rw [if_neg sheet, if_neg sheet]

end Project

namespace StyleSite

theorem location_withNames (site : StyleSite) :
    (site.withNames names).location = site.location := by
  unfold location tagLocation withNames
  rw [Document.file_withNames]

/-- A tag under its old name asks for the same stylesheet as before. -/
theorem demand_withNames (project : Project) (sourceAttribute : String) (site : StyleSite) :
    (site.withNames names).demand (project.withNames names) sourceAttribute =
      site.demand project sourceAttribute := by
  have attached : Attachment.of (project.withNames names) sourceAttribute
      (site.withNames names).document (site.withNames names).tag =
        Attachment.of project sourceAttribute site.document site.tag := by
    unfold Attachment.of Project.injectionHost? withNames
    rw [Document.file_withNames]
    rfl
  have invalid : ∀ key arguments,
      (site.withNames names).invalid key arguments = site.invalid key arguments := by
    intro key arguments
    unfold StyleSite.invalid
    rw [location_withNames]
  have file : (site.withNames names).document.file = site.document.file :=
    site.document.file_withNames
  unfold demand
  rw [attached]
  cases Attachment.of project sourceAttribute site.document site.tag with
  | nothing => rfl
  | injected hosting =>
      simp only [injectionDemand, Project.injectedFragments_withNames]
  | reference value =>
      simp only [referenceDemand, file, Project.resolveReference?_withNames,
        Project.sheet_withNames, invalid]

end StyleSite

section Style

variable {style : StyleTagSettings}

theorem isNamed_renameTag (other : ∀ site name, names site = some name → name ≠ style.tag)
    (document : Document) (tag : Element) :
    (renameTag names document tag).isNamed style.space style.tag =
      ((names { document, tag }).isNone && tag.isNamed style.space style.tag) := by
  cases named : names { document, tag } with
  | none => rw [renameTag_none named, Option.isNone_none, Bool.true_and]
  | some name =>
      have different : (name == style.tag) = false :=
        beq_eq_false_iff_ne.mpr (other { document, tag } name named)
      unfold renameTag Element.isNamed
      rw [named]
      dsimp only
      rw [different, Bool.and_false, Option.isNone_some, Bool.false_and]

theorem tagsOf_withNames (other : ∀ site name, names site = some name → name ≠ style.tag)
    {document : Document} (markup : document.kind = .markup) :
    style.tagsOf (document.withNames names) =
      (style.tagsOf document).filter fun tag => (names { document, tag }).isNone := by
  unfold StyleTagSettings.tagsOf Document.withNames
  rw [markup]
  cases document.root with
  | none => rfl
  | some root =>
      dsimp only [Option.map_some]
      -- A tag that is still a style tag has its old name, so renaming has not touched it.
      have kept : ∀ tag ∈ root.children.filter (fun tag =>
            (names { document, tag }).isNone && tag.isNamed style.space style.tag),
          renameTag names document tag = tag := by
        intro tag inside
        have unnamed := (Bool.and_eq_true_iff.mp (List.mem_filter.mp inside).2).1
        exact renameTag_none (Option.isNone_iff_eq_none.mp unnamed)
      rw [List.filter_map, List.filter_filter]
      calc ((root.children.filter ((fun tag => tag.isNamed style.space style.tag) ∘
              renameTag names document)).map (renameTag names document))
          = (root.children.filter fun tag =>
              (names { document, tag }).isNone && tag.isNamed style.space style.tag).map
                (renameTag names document) := by
            congr 2
            funext tag
            exact isNamed_renameTag other document tag
        _ = root.children.filter fun tag =>
              (names { document, tag }).isNone && tag.isNamed style.space style.tag := by
            rw [List.map_congr_left kept, List.map_id']

theorem backingDocument?_withNames (project : Project) (declared : ComponentClass) :
    (project.withNames names).backingDocument? declared =
      (project.backingDocument? declared).map (Document.withNames names) := by
  unfold Project.backingDocument?
  cases declared.file with
  | none => rfl
  | some file =>
      simp only [Option.bind_eq_bind, Option.bind_some, Project.document?_withNames]
      cases project.document? file with
      | none => rfl
      | some document =>
          simp only [Option.map_some, Option.bind_some]
          by_cases markup : document.kind = .markup
          · have rooted : (document.withNames names).root = document.root.map fun root =>
                { root with children := root.children.map (renameTag names document) } := by
              unfold Document.withNames
              rw [markup]
            rw [rooted, document.kind_withNames]
            cases document.root with
            | none => rfl
            | some root =>
                simp only [Option.map_some, Option.bind_some, List.isEmpty_map]
                split <;> rfl
          · have unchanged : document.withNames names = document := by
              unfold Document.withNames
              split
              · contradiction
              · rfl
            rw [unchanged]
            cases document.root with
            | none => rfl
            | some root =>
                have unfit : (document.kind == DocumentKind.markup) = false :=
                  beq_eq_false_iff_ne.mpr markup
                simp only [Option.bind_some, unfit, Bool.false_and, Bool.false_eq_true, if_false,
                  Option.map_none]

theorem sitesOf_withNames (other : ∀ site name, names site = some name → name ≠ style.tag)
    (project : Project) (declared : ComponentClass) :
    (project.withNames names).sitesOf style declared =
      ((project.sitesOf style declared).filter fun site => (names site).isNone).map
        (StyleSite.withNames names) := by
  unfold Project.sitesOf
  rw [backingDocument?_withNames]
  cases backed : project.backingDocument? declared with
  | none => rfl
  | some document =>
      obtain ⟨_, _, _, _, _, markup, _⟩ := Project.backingDocument?_eq_some.mp backed
      simp only [Option.map_some]
      rw [tagsOf_withNames other markup, List.filter_map, List.map_map]
      rfl

theorem styleSites_withNames (other : ∀ site name, names site = some name → name ≠ style.tag)
    (project : Project) (classes : List ComponentClass) :
    (project.withNames names).styleSites style classes =
      ((project.styleSites style classes).filter fun site => (names site).isNone).map
        (StyleSite.withNames names) := by
  unfold Project.styleSites
  rw [List.filter_flatMap, List.map_flatMap]
  congr 1
  funext declared
  exact sitesOf_withNames other project declared

end Style

end Names

end ComponentStyles
