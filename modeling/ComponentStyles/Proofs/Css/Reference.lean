import ComponentStyles.Css.Reference
import ComponentStyles.Proofs.Css.Joining
import ComponentStyles.Proofs.Css.Nesting

/-!
References of joined values.

The search goes over nodes in order, and what it finds in some of them does not depend on those
around, unless it ends at a quoted argument with more behind it.  So the references of two
balanced values joined by a space are those of the one and then those of the other, and the same
inside a function that refers to nothing itself.
-/

namespace ComponentStyles.Css

open ComponentStyles.Text

namespace Search

def start : Search :=
  { found := [], running := true }

def andThen (first second : Search) : Search :=
  if first.running then { found := second.found ++ first.found, running := second.running }
  else first

theorem start_andThen (search : Search) : start.andThen search = search := by
  unfold andThen start
  rw [if_pos rfl, List.append_nil]

theorem andThen_start (search : Search) : search.andThen start = search := by
  unfold andThen
  split
  · rename_i running
    unfold start
    rw [List.nil_append, ← running]
  · rfl

theorem andThen_assoc (first second third : Search) :
    (first.andThen second).andThen third = first.andThen (second.andThen third) := by
  obtain ⟨found, running⟩ := first
  obtain ⟨secondFound, secondRunning⟩ := second
  cases running <;> cases secondRunning <;> simp [andThen]

end Search

def Lexeme.made? (opening : Lexeme) : Option (String → Reference) :=
  match opening.token with
  | .function name => Reference.made? name
  | _ => none

theorem Node.search_block (opening : Lexeme) (content : List Node) (closing : Option Lexeme)
    (search : Search) :
    (Node.block opening content closing).search search =
      match opening.made? with
      | some make => search.take make (Argument.of content)
      | none => searchAll content search := by
  unfold Node.search Lexeme.made?
  cases opening.token <;> rfl

mutual

theorem Node.search_onto (node : Node) (before : List Reference) :
    node.search { found := before, running := true } =
      Search.andThen { found := before, running := true } (node.search .start) := by
  match node with
  | .leaf lexeme =>
      unfold Node.search
      split <;> rfl
  | .block opening content closing =>
      rw [Node.search_block, Node.search_block]
      split
      · simp [Search.take, Search.andThen, Search.start]
      · exact searchAll_onto content before

theorem searchAll_onto (nodes : List Node) (before : List Reference) :
    searchAll nodes { found := before, running := true } =
      Search.andThen { found := before, running := true } (searchAll nodes .start) := by
  match nodes with
  | [] => rfl
  | node :: rest =>
      have onto := node.search_onto before
      cases first : node.search .start with
      | mk found running =>
          rw [first] at onto
          unfold searchAll
          rw [onto, first]
          cases running with
          | false => rfl
          | true =>
              show searchAll rest { found := found ++ before, running := true } =
                Search.andThen _ (searchAll rest { found, running := true })
              rw [searchAll_onto rest (found ++ before), searchAll_onto rest found]
              simp [Search.andThen]

end

def searched (nodes : List Node) : Search :=
  searchAll nodes .start

theorem references_eq (value : String) :
    references value = (searched (nodes value.toList)).found.reverse := rfl

theorem searched_nil : searched [] = .start := rfl

theorem searched_cons (node : Node) (rest : List Node) :
    searched (node :: rest) = (node.search .start).andThen (searched rest) := by
  unfold searched
  rw [searchAll]
  cases first : node.search .start with
  | mk found running =>
      cases running with
      | false => rfl
      | true => exact searchAll_onto rest found

theorem searched_append (front back : List Node) :
    searched (front ++ back) = (searched front).andThen (searched back) := by
  induction front with
  | nil => exact (Search.start_andThen _).symm
  | cons node rest inductionHypothesis =>
      rw [List.cons_append, searched_cons, searched_cons, inductionHypothesis,
        Search.andThen_assoc]

theorem noUrl_of_blank {lexeme : Lexeme} (isBlank : lexeme.token = .blank) (address : String) :
    lexeme.token ≠ .url address := by
  rw [isBlank]
  exact Token.noConfusion

theorem noUrl_of_closing {lexeme : Lexeme} {bracket : Bracket}
    (isClosing : lexeme.token = .closing bracket) (address : String) :
    lexeme.token ≠ .url address := by
  rw [isClosing]
  exact Token.noConfusion

theorem search_leaf {lexeme : Lexeme} (noUrl : ∀ address, lexeme.token ≠ .url address) :
    (Node.leaf lexeme).search .start = .start := by
  unfold Node.search
  split
  · rename_i address token
    exact absurd token (noUrl address)
  · rfl

theorem searched_leaf_cons {lexeme : Lexeme} (noUrl : ∀ address, lexeme.token ≠ .url address)
    (rest : List Node) : searched (.leaf lexeme :: rest) = searched rest := by
  rw [searched_cons, search_leaf noUrl, Search.start_andThen]

theorem searched_concat_leaf {lexeme : Lexeme} (noUrl : ∀ address, lexeme.token ≠ .url address)
    (front : List Node) : searched (front ++ [.leaf lexeme]) = searched front := by
  rw [searched_append, searched_leaf_cons noUrl, searched_nil, Search.andThen_start]

theorem searched_block {opening : Lexeme} (other : opening.made? = none) (content : List Node)
    (closing : Option Lexeme) (rest : List Node) :
    searched (.block opening content closing :: rest) =
      (searched content).andThen (searched rest) := by
  rw [searched_cons, Node.search_block, other]
  rfl

mutual

/-- Behind the first quoted argument of every referring function stands nothing but white space
and comments.  What stands inside a referring function is its argument and is not looked into. -/
def Node.argumentsEnd : Node → Bool
  | .leaf _ => true
  | .block opening content _ =>
      match opening.made? with
      | some _ => (Argument.of content).complete
      | none => allArgumentsEnd content

def allArgumentsEnd : List Node → Bool
  | [] => true
  | node :: rest => node.argumentsEnd && allArgumentsEnd rest

end

mutual

theorem Node.search_running (node : Node) :
    (node.search .start).running = node.argumentsEnd := by
  match node with
  | .leaf lexeme =>
      unfold Node.search Node.argumentsEnd
      split <;> rfl
  | .block opening content closing =>
      rw [Node.search_block, Node.argumentsEnd]
      cases opening.made? with
      | some make => rfl
      | none => exact searched_running content

theorem searched_running (nodes : List Node) :
    (searched nodes).running = allArgumentsEnd nodes := by
  match nodes with
  | [] => rfl
  | node :: rest =>
      have first := node.search_running
      have others := searched_running rest
      rw [searched_cons, allArgumentsEnd, ← first, ← others]
      unfold Search.andThen
      split
      · rename_i running
        rw [running, Bool.true_and]
      · rename_i ended
        rw [Bool.not_eq_true] at ended
        rw [ended, Bool.false_and]

end

/-! ### Joined values -/

/-- A value that closes every quoted value, comment, address, function and bracket it opens, and
has no open backslash at its end. -/
structure Balanced (value : String) : Prop where
  closed : Closed value.toList
  nested : Nested (lexemes value.toList)

def ArgumentsEnd (value : String) : Prop :=
  allArgumentsEnd (nodes value.toList) = true

theorem searched_of_sameBeforeBlank {lexemes front : List Lexeme} (nested : Nested lexemes)
    (same : SameBeforeBlank lexemes front) :
    Nested front ∧ searched (nodesOf lexemes) = searched (nodesOf front) := by
  rcases same with equal | ⟨blank, isBlank, equal⟩
  · rw [← equal]
    exact ⟨nested, rfl⟩
  · rw [equal] at nested
    have frontNested := nested_of_concat_blank isBlank nested
    have opens := opens_of_blank isBlank
    refine ⟨frontNested, ?_⟩
    rw [equal, frontNested.nodesOf_append (nested_singleton opens), nodesOf_singleton opens,
      searched_concat_leaf (noUrl_of_blank isBlank)]

theorem searched_of_sameBehindBlank {lexemes back : List Lexeme} (nested : Nested lexemes)
    (same : SameBehindBlank lexemes back) :
    Nested back ∧ searched (nodesOf lexemes) = searched (nodesOf back) := by
  rcases same with equal | ⟨blank, isBlank, equal⟩
  · rw [← equal]
    exact ⟨nested, rfl⟩
  · have opens := opens_of_blank isBlank
    rw [equal, nested_cons_iff opens] at nested
    refine ⟨nested, ?_⟩
    rw [equal, nodesOf_cons opens nested, searched_leaf_cons (noUrl_of_blank isBlank)]

theorem SameBehindBlank.of_concat {lexemes back : List Lexeme} {ending : Lexeme}
    (notBlank : ending.token ≠ .blank) (same : SameBehindBlank (lexemes ++ [ending]) back) :
    ∃ inner, back = inner ++ [ending] ∧ SameBehindBlank lexemes inner := by
  rcases same with equal | ⟨blank, isBlank, equal⟩
  · exact ⟨lexemes, equal.symm, Or.inl rfl⟩
  · cases lexemes with
    | nil =>
        obtain ⟨same, _⟩ := List.cons.inj equal
        rw [← same] at isBlank
        exact absurd isBlank notBlank
    | cons first rest =>
        obtain ⟨same, others⟩ := List.cons.inj equal
        exact ⟨rest, others.symm, Or.inr ⟨blank, isBlank, congrArg (· :: rest) same⟩⟩

/-- Nested lexemes on both sides of a blank are searched one after the other. -/
theorem searched_joined {front back : List Lexeme} {blank : Lexeme}
    (isBlank : blank.token = .blank) (frontNested : Nested front) (backNested : Nested back) :
    Nested (front ++ blank :: back) ∧
      searched (nodesOf (front ++ blank :: back)) =
        (searched (nodesOf front)).andThen (searched (nodesOf back)) := by
  have opens := opens_of_blank isBlank
  have behind := (nested_cons_iff opens back).mpr backNested
  refine ⟨(nested_append_iff frontNested _).mpr behind, ?_⟩
  rw [frontNested.nodesOf_append behind, nodesOf_cons opens backNested, searched_append,
    searched_leaf_cons (noUrl_of_blank isBlank)]

/-- Inside a function that refers to nothing, nested lexemes are searched as they are outside,
wherever the function is closed. -/
theorem searched_function {function closing : Lexeme} {name : String}
    (isFunction : function.token = .function name) (other : Reference.made? name = none)
    (isClosing : closing.token = .closing .round) {content : List Lexeme}
    (nested : Nested content) :
    searched (nodesOf (function :: (content ++ [closing]))) = searched (nodesOf content) := by
  have refersToNothing : function.made? = none := by
    unfold Lexeme.made?
    rw [isFunction]
    exact other
  rcases nodesOf_function isFunction nested isClosing with
    whole | ⟨front, closer, back, isCloser, parts, whole⟩
  · rw [whole, searched_block refersToNothing, searched_nil, Search.andThen_start]
  · rw [whole, searched_block refersToNothing,
      searched_concat_leaf (noUrl_of_closing isClosing), parts, searched_append,
      searched_leaf_cons (noUrl_of_closing isCloser)]

section Joined

variable {left right : String} (leftBalanced : Balanced left) (rightBalanced : Balanced right)
  (escape : ¬ EndsInEscape left.toList) (arguments : ArgumentsEnd left)
include leftBalanced rightBalanced escape

theorem searched_space :
    searched (nodes (left ++ " " ++ right).toList) =
      (searched (nodes left.toList)).andThen (searched (nodes right.toList)) := by
  have characters : (left ++ " " ++ right).toList = left.toList ++ ' ' :: right.toList := by
    simp
  obtain ⟨front, blank, back, joined, isBlank, before, behind⟩ :=
    leftBalanced.closed.lexemes_space escape right.toList
  obtain ⟨frontNested, sameFront⟩ := searched_of_sameBeforeBlank leftBalanced.nested before
  obtain ⟨backNested, sameBack⟩ := searched_of_sameBehindBlank rightBalanced.nested behind
  unfold nodes
  rw [characters, joined, (searched_joined isBlank frontNested backNested).2, sameFront,
    sameBack]

theorem searched_in_function {function name : String} (isName : IsName function.toList name)
    (other : Reference.made? name = none) :
    searched (nodes (function ++ "(" ++ left ++ " " ++ right ++ ")").toList) =
      (searched (nodes left.toList)).andThen (searched (nodes right.toList)) := by
  have characters : (function ++ "(" ++ left ++ " " ++ right ++ ")").toList =
      function.toList ++ '(' :: (left.toList ++ ' ' :: (right.toList ++ [')'])) := by
    simp
  have notUrl : sameIgnoringCase name "url" = false := by
    rw [Bool.eq_false_iff, ne_eq, sameIgnoringCase_iff (by decide)]
    exact Reference.made?_eq_none_iff.mp other "url" List.mem_cons_self
  obtain ⟨front, blank, ending, joined, isBlank, before, behindAll⟩ :=
    leftBalanced.closed.lexemes_space escape (right.toList ++ [')'])
  rw [rightBalanced.closed.lexemes_closing [], lexemes_nil] at behindAll
  obtain ⟨back, rfl, behind⟩ := behindAll.of_concat (by decide)
  obtain ⟨frontNested, sameFront⟩ := searched_of_sameBeforeBlank leftBalanced.nested before
  obtain ⟨backNested, sameBack⟩ := searched_of_sameBehindBlank rightBalanced.nested behind
  obtain ⟨nested, apart⟩ := searched_joined isBlank frontNested backNested
  have content : front ++ blank :: (back ++ [Lexeme.closingRound]) =
      (front ++ blank :: back) ++ [.closingRound] := by
    simp
  unfold nodes
  rw [characters, isName.lexemes_function notUrl, joined, content,
    searched_function rfl other rfl nested, apart, sameFront, sameBack]

include arguments in
/-- The references of joined balanced values are those of one value and then of the other, if the
first does not end in a hexadecimal escape and nothing ends the search in it. -/
theorem references_joined :
    references (left ++ " " ++ right) = references left ++ references right ∧
      ∀ function name : String, IsName function.toList name → Reference.made? name = none →
        references (function ++ "(" ++ left ++ " " ++ right ++ ")") =
          references left ++ references right := by
  have running : (searched (nodes left.toList)).running = true :=
    (searched_running _).trans arguments
  have apart : (((searched (nodes left.toList)).andThen
        (searched (nodes right.toList))).found).reverse =
      references left ++ references right := by
    unfold Search.andThen
    rw [if_pos running, references_eq, references_eq, List.reverse_append]
  refine ⟨?_, ?_⟩
  · rw [references_eq, searched_space leftBalanced rightBalanced escape, apart]
  · intro function name isName other
    rw [references_eq, searched_in_function leftBalanced rightBalanced escape isName other,
      apart]

end Joined

def imageLexemes : List Lexeme :=
  [{ token := .url "a.png", text := "url(a.png)".toList }]

def filmLexemes : List Lexeme :=
  [{ token := .function "Embed", text := "Embed(".toList },
    { token := .quoted "b.swf", text := "\"b.swf\"".toList },
    { token := .comma, text := [','] }, { token := .blank, text := [' '] },
    { token := .identifier "x", text := ['x'] }, .closingRound]

theorem closed_image :
    Closed "url(a.png)".toList ∧ lexemes "url(a.png)".toList = imageLexemes :=
  closed_of_lexemes (by with_unfolding_all rfl)

theorem closed_film :
    Closed "Embed(\"b.swf\", x)".toList ∧
      lexemes "Embed(\"b.swf\", x)".toList = filmLexemes :=
  closed_of_lexemes (by with_unfolding_all rfl)

theorem balanced_image : Balanced "url(a.png)" := by
  refine ⟨closed_image.1, ?_⟩
  rw [closed_image.2]
  rfl

theorem balanced_film : Balanced "Embed(\"b.swf\", x)" := by
  refine ⟨closed_film.1, ?_⟩
  rw [closed_film.2]
  rfl

theorem searched_image :
    searched (nodes "url(a.png)".toList) =
      { found := [.asset "a.png"], running := true } := by
  unfold nodes
  rw [closed_image.2]
  rfl

theorem searched_film :
    searched (nodes "Embed(\"b.swf\", x)".toList) =
      { found := [.asset "b.swf"], running := false } := by
  unfold nodes
  rw [closed_film.2]
  rfl

/-- An image and a film, joined and inside a function, the search ending behind the film. -/
theorem references_of_imageAndFilm :
    Balanced "url(a.png)" ∧ Balanced "Embed(\"b.swf\", x)" ∧
      ¬ EndsInEscape "url(a.png)".toList ∧ ArgumentsEnd "url(a.png)" ∧
      references ("url(a.png)" ++ " " ++ "Embed(\"b.swf\", x)") =
        [.asset "a.png", .asset "b.swf"] ∧
      references ("format" ++ "(" ++ "url(a.png)" ++ " " ++ "Embed(\"b.swf\", x)" ++ ")") =
        [.asset "a.png", .asset "b.swf"] := by
  have escape : ¬ EndsInEscape "url(a.png)".toList := by
    rintro ⟨last, isLast, ends⟩
    rw [closed_image.2] at isLast
    obtain rfl := Option.some.inj isLast
    exact absurd ends (by decide)
  have arguments : ArgumentsEnd "url(a.png)" := by
    unfold ArgumentsEnd
    rw [← searched_running, searched_image]
  have isName : IsName "format".toList "format" := ⟨by decide, by with_unfolding_all rfl⟩
  obtain ⟨joined, inFunction⟩ :=
    references_joined balanced_image balanced_film escape arguments
  have apart : references "url(a.png)" ++ references "Embed(\"b.swf\", x)" =
      [.asset "a.png", .asset "b.swf"] := by
    rw [references_eq, references_eq, searched_image, searched_film]
    rfl
  rw [apart] at joined inFunction
  exact ⟨balanced_image, balanced_film, escape, arguments, joined,
    inFunction "format" "format" isName (by decide)⟩

theorem closed_escape :
    Closed "\\61".toList ∧
      lexemes "\\61".toList = [{ token := .identifier "a", text := "\\61".toList }] :=
  closed_of_lexemes (by with_unfolding_all rfl)

theorem balanced_escape : Balanced "\\61" := by
  refine ⟨closed_escape.1, ?_⟩
  rw [closed_escape.2]
  rfl

theorem references_escape : references "\\61" = [] := by
  rw [references_eq]
  unfold nodes
  rw [closed_escape.2]
  rfl

theorem lexemes_escapeAndImage :
    lexemes "\\61 url(a.png)".toList =
      [{ token := .function "aurl", text := "\\61 url(".toList },
        { token := .identifier "a", text := ['a'] },
        { token := .delimiter '.', text := ['.'] },
        { token := .identifier "png", text := "png".toList }, .closingRound] := by
  with_unfolding_all rfl

theorem references_escapeAndImage : references ("\\61" ++ " " ++ "url(a.png)") = [] := by
  have joined : ("\\61" ++ " " ++ "url(a.png)").toList = "\\61 url(a.png)".toList := by decide
  rw [references_eq, joined]
  unfold nodes
  rw [lexemes_escapeAndImage]
  rfl

theorem references_filmAndImage :
    references ("Embed(\"b.swf\", x)" ++ " " ++ "url(a.png)") = [.asset "b.swf"] := by
  have escape : ¬ EndsInEscape "Embed(\"b.swf\", x)".toList := by
    rintro ⟨last, isLast, ends⟩
    rw [closed_film.2] at isLast
    obtain rfl := Option.some.inj isLast
    exact absurd ends (by decide)
  rw [references_eq, searched_space balanced_film balanced_image escape, searched_film]
  rfl

/-- A value that ends in a hexadecimal escape takes the space as the end of its escape, and a
quoted argument with more behind it ends the search. -/
theorem references_not_joined :
    (Balanced "\\61" ∧ Balanced "url(a.png)" ∧
      references ("\\61" ++ " " ++ "url(a.png)") ≠
        references "\\61" ++ references "url(a.png)") ∧
    Balanced "Embed(\"b.swf\", x)" ∧ Balanced "url(a.png)" ∧
      references ("Embed(\"b.swf\", x)" ++ " " ++ "url(a.png)") ≠
        references "Embed(\"b.swf\", x)" ++ references "url(a.png)" := by
  have image : references "url(a.png)" = [.asset "a.png"] := by
    rw [references_eq, searched_image]
    rfl
  have film : references "Embed(\"b.swf\", x)" = [.asset "b.swf"] := by
    rw [references_eq, searched_film]
    rfl
  refine ⟨⟨balanced_escape, balanced_image, ?_⟩, balanced_film, balanced_image, ?_⟩
  · rw [references_escapeAndImage, references_escape, image]
    decide
  · rw [references_filmAndImage, film, image]
    decide

end ComponentStyles.Css
