import ComponentStyles.Markup.Document

/-!
Numbers of elements.

Numbering gives an element and all below it consecutive numbers in pre-order, and a search takes
the first element in that order.  So no two elements of a numbered tree share a number, and each
number in it leads back to its element, however deep that stands.  Apart from the numbers the tree
stays what it was.
-/

namespace ComponentStyles.Element

mutual

def preorder : Element → List Element
  | { id, space, name, attributes, children, text, language, line } =>
      { id, space, name, attributes, children, text, language, line } :: preorderAll children

def preorderAll : List Element → List Element
  | [] => []
  | element :: rest => preorder element ++ preorderAll rest

end

theorem preorder_eq (element : Element) :
    preorder element = element :: preorderAll element.children := by
  cases element
  rw [preorder]

theorem sublist_preorderAll (elements : List Element) :
    List.Sublist elements (preorderAll elements) := by
  induction elements with
  | nil => exact List.nil_sublist _
  | cons element rest inductionHypothesis =>
      rw [preorderAll, preorder_eq, List.cons_append]
      exact (inductionHypothesis.trans (List.sublist_append_right _ _)).cons_cons element

mutual

theorem find?_eq : ∀ (element : Element) (id : Nat),
    find? id element = (preorder element).find? fun other => other.id = id
  | { id := own, children, .. }, id => by
      rw [find?, preorder, List.find?_cons]
      by_cases found : own = id
      · simp only [found, if_true, decide_true]
      · simp only [found, if_false, decide_false]
        exact findAmong?_eq children id

theorem findAmong?_eq : ∀ (elements : List Element) (id : Nat),
    findAmong? id elements = (preorderAll elements).find? fun other => other.id = id
  | [], id => by
      rw [findAmong?, preorderAll]
      rfl
  | element :: rest, id => by
      rw [findAmong?, preorderAll, List.find?_append, find?_eq element id, findAmong?_eq rest id]

end

mutual

theorem next_numbered : ∀ (element : Element) (number : Nat),
    (numbered element number).2 = number + (preorder element).length
  | { children, .. }, number => by
      rw [numbered, preorder, List.length_cons]
      dsimp only
      rw [next_numberedAll children (number + 1)]
      omega

theorem next_numberedAll : ∀ (elements : List Element) (number : Nat),
    (numberedAll elements number).2 = number + (preorderAll elements).length
  | [], number => by
      rw [numberedAll, preorderAll, List.length_nil, Nat.add_zero]
  | element :: rest, number => by
      rw [numberedAll, preorderAll, List.length_append]
      dsimp only
      rw [next_numberedAll rest, next_numbered element number]
      omega

end

mutual

/-- The numbers of a tree are consecutive in pre-order. -/
theorem ids_numbered : ∀ (element : Element) (number : Nat),
    (preorder (numbered element number).1).map Element.id =
      List.range' number (preorder element).length
  | { children, .. }, number => by
      rw [numbered, preorder, preorder, List.map_cons, List.length_cons, List.range'_succ]
      dsimp only
      rw [ids_numberedAll children (number + 1)]

theorem ids_numberedAll : ∀ (elements : List Element) (number : Nat),
    (preorderAll (numberedAll elements number).1).map Element.id =
      List.range' number (preorderAll elements).length
  | [], number => by
      rw [numberedAll, preorderAll]
      rfl
  | element :: rest, number => by
      rw [numberedAll, preorderAll, preorderAll, List.map_append, List.length_append,
        ids_numbered element number, ids_numberedAll rest, next_numbered element number,
        List.range'_append_1]

end

theorem nodup_ids_numbered (element : Element) (number : Nat) :
    ((preorder (numbered element number).1).map Element.id).Nodup := by
  rw [ids_numbered]
  exact List.nodup_range'

theorem nodup_ids_numberedAll (elements : List Element) (number : Nat) :
    ((numberedAll elements number).1.map Element.id).Nodup := by
  have among := (sublist_preorderAll (numberedAll elements number).1).map Element.id
  rw [ids_numberedAll] at among
  exact List.Nodup.sublist among List.nodup_range'

theorem find?_of_distinct {elements : List Element} {element : Element}
    (distinct : (elements.map Element.id).Nodup) (inside : element ∈ elements) :
    (elements.find? fun other => other.id = element.id) = some element :=
  Table.find?_of_distinct distinct inside

theorem find?_of_mem_preorder {root element : Element} {number : Nat}
    (inside : element ∈ preorder (numbered root number).1) :
    find? element.id (numbered root number).1 = some element := by
  rw [find?_eq]
  exact find?_of_distinct (nodup_ids_numbered root number) inside

mutual

/-- The element with all numbers in it forgotten. -/
def unnumbered : Element → Element
  | { id := _, space, name, attributes, children, text, language, line } =>
      { id := 0, space, name, attributes, children := unnumberedAll children, text, language, line }

def unnumberedAll : List Element → List Element
  | [] => []
  | element :: rest => unnumbered element :: unnumberedAll rest

end

mutual

/-- Numbering changes nothing but the numbers. -/
theorem unnumbered_numbered : ∀ (element : Element) (number : Nat),
    unnumbered (numbered element number).1 = unnumbered element
  | { children, .. }, number => by
      rw [numbered, unnumbered, unnumbered, unnumberedAll_numberedAll children (number + 1)]

theorem unnumberedAll_numberedAll : ∀ (elements : List Element) (number : Nat),
    unnumberedAll (numberedAll elements number).1 = unnumberedAll elements
  | [], number => by rw [numberedAll]
  | element :: rest, number => by
      rw [numberedAll, unnumberedAll, unnumberedAll, unnumbered_numbered element number,
        unnumberedAll_numberedAll rest]

end

mutual

theorem numbered_unnumbered : ∀ (element : Element) (number : Nat),
    numbered (unnumbered element) number = numbered element number
  | { children, .. }, number => by
      rw [unnumbered, numbered, numbered, numberedAll_unnumberedAll children (number + 1)]

theorem numberedAll_unnumberedAll : ∀ (elements : List Element) (number : Nat),
    numberedAll (unnumberedAll elements) number = numberedAll elements number
  | [], number => by rw [unnumberedAll]
  | element :: rest, number => by
      rw [unnumberedAll, numberedAll, numberedAll, numbered_unnumbered element number,
        numberedAll_unnumberedAll rest]

end

theorem numbered_congr {element other : Element} (same : unnumbered element = unnumbered other)
    (number : Nat) : numbered element number = numbered other number := by
  rw [← numbered_unnumbered element, same, numbered_unnumbered]

theorem id_of_getElem?_preorder {tree element : Element} {place : Nat}
    (stands : (preorder (numbered tree 0).1)[place]? = some element) : element.id = place := by
  have numbers := congrArg (fun ids => ids[place]?) (ids_numbered tree 0)
  rw [List.getElem?_map, stands, Option.map_some, eq_comm, List.getElem?_eq_some_iff] at numbers
  obtain ⟨within, same⟩ := numbers
  rw [List.getElem_range', Nat.zero_add, Nat.one_mul] at same
  exact same.symm

/-- A number leads to the element at its place in pre-order, and to none if there is no such
place. -/
theorem find?_numbered (tree : Element) (id : Nat) :
    find? id (numbered tree 0).1 = (preorder (numbered tree 0).1)[id]? := by
  cases stands : (preorder (numbered tree 0).1)[id]? with
  | some element =>
      have found := find?_of_mem_preorder (List.mem_of_getElem? stands)
      rw [id_of_getElem?_preorder stands] at found
      exact found
  | none =>
      rw [find?_eq, List.find?_eq_none]
      intro element inside same
      obtain ⟨place, stands'⟩ := List.getElem?_of_mem inside
      have isPlace := id_of_getElem?_preorder stands'
      rw [of_decide_eq_true same] at isPlace
      rw [← isPlace, stands] at stands'
      cases stands'

theorem length_preorder_numbered (tree : Element) (number : Nat) :
    (preorder (numbered tree number).1).length = (preorder tree).length := by
  have lengths := congrArg List.length (ids_numbered tree number)
  rw [List.length_map, List.length_range'] at lengths
  exact lengths

end ComponentStyles.Element

namespace ComponentStyles.Document

open ComponentStyles.Element

/-- The elements of a markup document have the numbers from zero up, in pre-order, whatever numbers
they had, and nothing else about them is changed.  Each number leads to the very element that has
it, and no other number leads anywhere.  The count never goes beyond the number of elements, so it
stays within 32 bits where that does. -/
theorem markup_numbered (file : FileId) (tree : Element) :
    ∃ root, markup file (some tree) = { file, kind := .markup, root := some root, text := "" } ∧
      (preorder root).map Element.id = List.range (preorder tree).length ∧
      unnumbered root = unnumbered tree ∧
      (∀ other, unnumbered other = unnumbered tree →
        markup file (some other) = markup file (some tree)) ∧
      (∀ element ∈ preorder root, root.find? element.id = some element) ∧
      (∀ id element, root.find? id = some element ↔ (preorder root)[id]? = some element) ∧
      (∀ id, (preorder tree).length ≤ id → root.find? id = none) ∧
      (numbered tree 0).2 = (preorder tree).length ∧
      ((preorder tree).length < 4294967296 → ∀ element ∈ preorder root, element.id < 4294967296) := by
  have numbers := ids_numbered tree 0
  rw [← List.range_eq_range'] at numbers
  refine ⟨(numbered tree 0).1, rfl, numbers, unnumbered_numbered tree 0, ?_,
    fun _ inside => find?_of_mem_preorder inside, ?_, ?_, ?_, ?_⟩
  · intro other same
    unfold markup
    rw [Option.map_some, Option.map_some, numbered_congr same]
  · intro id element
    rw [find?_numbered]
  · intro id beyond
    rw [find?_numbered]
    exact List.getElem?_eq_none (length_preorder_numbered tree 0 ▸ beyond)
  · rw [next_numbered, Nat.zero_add]
  · intro fits element inside
    have among := List.mem_map_of_mem (f := Element.id) inside
    rw [numbers, List.mem_range] at among
    exact Nat.lt_trans among fits

end ComponentStyles.Document
