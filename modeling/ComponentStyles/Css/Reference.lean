import ComponentStyles.Css.Node
import ComponentStyles.Text.Blank

/-!
References in a declaration's value.

`url(...)` and `Embed(...)` name assets, `ClassReference(...)` names a component class, at any
depth of nesting.  A quoted argument ends the search when anything but white space follows it
inside its function: what stands behind that function is then not looked at.
-/

namespace ComponentStyles.Css

open ComponentStyles.Text

inductive Reference where
  | asset (path : String)
  | component (className : String)
  deriving DecidableEq, Repr

def Reference.made? (function : String) : Option (String → Reference) :=
  if sameIgnoringCase function "url" || sameIgnoringCase function "embed" then some .asset
  else if sameIgnoringCase function "classreference" then some .component
  else none

theorem Reference.made?_eq_none_iff {function : String} :
    Reference.made? function = none ↔
      ∀ keyword ∈ ["url", "embed", "classreference"],
        ¬CasesOf function.toList keyword.toList := by
  have url : sameIgnoringCase function "url" = true ↔ CasesOf function.toList "url".toList :=
    sameIgnoringCase_iff (by decide)
  have embed : sameIgnoringCase function "embed" = true ↔
      CasesOf function.toList "embed".toList := sameIgnoringCase_iff (by decide)
  have component : sameIgnoringCase function "classreference" = true ↔
      CasesOf function.toList "classreference".toList := sameIgnoringCase_iff (by decide)
  simp only [List.forall_mem_cons, List.not_mem_nil, false_implies, implies_true, and_true,
    ← url, ← embed, ← component, made?]
  cases sameIgnoringCase function "url" <;> cases sameIgnoringCase function "embed" <;>
    cases sameIgnoringCase function "classreference" <;> simp

/-- The argument of a referring function, and whether the search goes on behind it. -/
structure Argument where
  value : Option String
  complete : Bool
  deriving DecidableEq, Repr

def unquotedArgument (content : List Node) : Option String :=
  let text := String.ofList (trim (nodesText content))
  if text.isEmpty || sameIgnoringCase text "null" then none else some text

def Node.quoted? : Node → Option String
  | .leaf lexeme =>
      match lexeme.token with
      | .quoted value => some value
      | _ => none
  | .block _ _ _ => none

def Argument.of (content : List Node) : Argument :=
  match content.dropWhile fun node => node.quoted?.isNone with
  | first :: rest => { value := first.quoted?, complete := rest.all Node.isSeparator }
  | [] => { value := unquotedArgument content, complete := true }

/-- The references found so far, last one first, and whether the search goes on. -/
structure Search where
  found : List Reference
  running : Bool
  deriving DecidableEq, Repr

def Search.take (search : Search) (make : String → Reference) (argument : Argument) : Search :=
  { found := (argument.value.map make).toList ++ search.found
    running := argument.complete }

mutual

def Node.search : Node → Search → Search
  | .leaf lexeme, search =>
      match lexeme.token with
      | .url address => { search with found := .asset address :: search.found }
      | _ => search
  | .block opening content _, search =>
      match opening.token with
      | .function name =>
          match Reference.made? name with
          | some make => search.take make (Argument.of content)
          | none => searchAll content search
      | _ => searchAll content search

def searchAll : List Node → Search → Search
  | [], search => search
  | node :: rest, search =>
      let after := node.search search
      if after.running then searchAll rest after else after

end

def references (value : String) : List Reference :=
  (searchAll (nodes value.toList) { found := [], running := true }).found.reverse

end ComponentStyles.Css
