import ComponentStyles.Project.Injection
import ComponentStyles.Proofs.Markup.Numbering

/-!
The content that is injected into elements when none is given.

An element whose body is not blank hosts exactly one fragment, and the way back from the element's
number leads to the element itself.  The identity of the fragment is the hosting file, a number sign
and digits; cut at its last number sign it gives both back, whatever the path of the file is.
-/

namespace ComponentStyles

theorem Text.not_mem_toString {separator : Char} (noDigit : separator.isDigit = false)
    (number : Nat) : separator ∉ (toString number).toList := by
  intro inside
  rw [Nat.toString_eq_ofList_toDigits, String.toList_ofList] at inside
  have digit := Nat.isDigit_of_mem_toDigits (by decide) (by decide) inside
  rw [noDigit] at digit
  cases digit

theorem Text.number_of_toString {number other : Nat}
    (same : (toString number).toList = (toString other).toList) : number = other := by
  simp only [Nat.toString_eq_ofList_toDigits, String.toList_ofList] at same
  have value := congrArg (fun digits => Nat.ofDigitChars 10 digits 0) same
  simp only [Nat.ofDigitChars_ten_toDigits] at value
  exact value

namespace Project

theorem toList_fragmentFile (host : InjectionHost) :
    (fragmentFile host).path.toList =
      host.file.path.toList ++ '#' :: (toString host.element).toList := by
  simp only [fragmentFile, String.toList_append, List.append_assoc]
  rfl

/-- Different elements have different fragments, whatever stands in the paths of their files. -/
theorem fragmentFile_injective {host other : InjectionHost}
    (same : fragmentFile host = fragmentFile other) : host = other := by
  have cut : ∀ host : InjectionHost, Text.cutLast? '#' (fragmentFile host).path.toList =
      some (host.file.path.toList, (toString host.element).toList) := by
    intro host
    rw [toList_fragmentFile]
    exact Text.cutLast?_append (Text.not_mem_toString rfl host.element)
  have parts := cut host
  rw [same, cut other, Option.some.injEq, Prod.mk.injEq] at parts
  obtain ⟨paths, numbers⟩ := parts
  have path : other.file.path = host.file.path := String.toList_injective paths
  have number : other.element = host.element := Text.number_of_toString numbers
  cases host with
  | mk file element =>
      cases other with
      | mk otherFile otherElement =>
          cases file
          cases otherFile
          cases path
          cases number
          rfl

def bodyFragment (host : InjectionHost) (language : Option String) (text : String) :
    InjectedFragment :=
  { document :=
      .ofKind (if isStyleLanguage language then .stylesheet else .other) (fragmentFile host) none
        text
    shreds := [{ host, start := 0, stop := text.utf8ByteSize }] }

section Bodies

variable (host : InjectionHost) (language : Option String) (text : String)

theorem file_bodyFragment : (bodyFragment host language text).document.file = fragmentFile host := by
  unfold bodyFragment
  cases isStyleLanguage language <;> rfl

theorem text_bodyFragment : (bodyFragment host language text).document.text = text := by
  unfold bodyFragment
  cases isStyleLanguage language <;> rfl

theorem isStylesheet_bodyFragment :
    (bodyFragment host language text).document.isStylesheet = isStyleLanguage language := by
  unfold bodyFragment
  cases isStyleLanguage language <;> rfl

end Bodies

theorem isStyleLanguage_iff {language : Option String} :
    isStyleLanguage language = true ↔
      language = none ∨ ∃ name, language = some name ∧ Text.sameIgnoringCase name "css" = true := by
  cases language with
  | none => exact iff_of_true rfl (Or.inl rfl)
  | some name =>
      constructor
      · intro named
        exact Or.inr ⟨name, rfl, named⟩
      · rintro (absent | ⟨other, same, named⟩)
        · cases absent
        · cases same
          exact named

variable {project : Project} {host : InjectionHost}

theorem fragmentOf?_eq_some {fragment : InjectedFragment} :
    project.fragmentOf? host = some fragment ↔
      ∃ document element text, project.document? host.file = some document ∧
        document.element? host.element = some element ∧ element.text = some text ∧
        fragment = bodyFragment host element.language text := by
  unfold fragmentOf?
  simp only [Option.bind_eq_bind, Option.bind_eq_some_iff, Option.some.injEq]
  constructor
  · rintro ⟨document, stored, element, numbered, text, written, same⟩
    exact ⟨document, element, text, stored, numbered, written, same.symm⟩
  · rintro ⟨document, element, text, stored, numbered, written, same⟩
    exact ⟨document, stored, element, numbered, text, written, same.symm⟩

theorem injectionHost?_eq_some (plain : project.overrides = []) {document : Document}
    {element : Element} :
    project.injectionHost? document element = some host ↔
      host = { file := document.file, element := element.id } ∧
        ∃ text, element.text = some text ∧ Text.isBlankText text = false := by
  unfold injectionHost?
  rw [plain]
  cases element.text with
  | none =>
      refine iff_of_false nofun ?_
      rintro ⟨_, text, written, _⟩
      cases written
  | some text =>
      cases blank : Text.isBlankText text with
      | true =>
          refine iff_of_false (by simp [blank]) ?_
          rintro ⟨_, _, written, visible⟩
          cases written
          rw [blank] at visible
          cases visible
      | false =>
          constructor
          · intro hosts
            simp only [Table.get?_nil, Option.isSome_none, blank, Bool.not_false, Bool.or_true,
              if_true, Option.some.injEq] at hosts
            exact ⟨hosts.symm, text, rfl, blank⟩
          · rintro ⟨same, _⟩
            simp only [Table.get?_nil, Option.isSome_none, blank, Bool.not_false, Bool.or_true,
              if_true, same]

theorem injectedFragments_plain (plain : project.overrides = []) (host : InjectionHost) :
    project.injectedFragments host = (project.fragmentOf? host).toList := by
  unfold injectedFragments
  rw [plain, Table.get?_nil]

/-- Every stored document with elements was built as markup, its elements numbered. -/
def Numbered (project : Project) : Prop :=
  ∀ (file : FileId) (document : Document) (root : Element),
    project.document? file = some document → document.root = some root →
      ∃ element : Element, document = .markup document.file (some element)

theorem Numbered.element?_of_mem_preorder (numbered : project.Numbered) {file : FileId}
    {document : Document} {root element : Element}
    (stored : project.document? file = some document) (rooted : document.root = some root)
    (inside : element ∈ root.preorder) : document.element? element.id = some element := by
  obtain ⟨built, same⟩ := numbered file document root stored rooted
  have shape : some (built.numbered 0).1 = some root := by
    rw [← rooted, same]
    rfl
  cases shape
  rw [Document.element?, rooted, Option.bind_some]
  exact Element.find?_of_mem_preorder inside

/-- An element of a stored document that hosts content hosts its own body, and nothing else. -/
theorem Numbered.injectedFragments_eq (numbered : project.Numbered)
    (plain : project.overrides = []) {file : FileId} {document : Document}
    {root element : Element} (stored : project.document? file = some document)
    (rooted : document.root = some root) (inside : element ∈ root.preorder)
    (hosts : project.injectionHost? document element = some host) :
    ∃ text, element.text = some text ∧
      project.injectedFragments host = [bodyFragment host element.language text] := by
  obtain ⟨own, text, written, _⟩ := (injectionHost?_eq_some plain).mp hosts
  have leads := numbered.element?_of_mem_preorder stored rooted inside
  rw [← file_of_document? stored] at stored
  have found : project.fragmentOf? host = some (bodyFragment host element.language text) := by
    refine fragmentOf?_eq_some.mpr ⟨document, element, text, ?_, ?_, written, rfl⟩
    · rw [own]
      exact stored
    · rw [own]
      exact leads
  refine ⟨text, written, ?_⟩
  rw [injectedFragments_plain plain, found, Option.toList_some]

end Project

end ComponentStyles
