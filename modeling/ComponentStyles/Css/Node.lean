import ComponentStyles.Css.Lexeme

/-!
Nesting of brackets.

A node is a lexeme that opens nothing, or a block: an opening lexeme, the nodes inside, and
the closing lexeme.  A block that the text leaves open ends where the text ends.  A closing
bracket that does not match the innermost open one is an ordinary lexeme.
-/

namespace ComponentStyles.Css

/-- A lexeme or a block of nodes.  Only the end of the text leaves a block without its closing
lexeme. -/
inductive Node where
  | leaf (lexeme : Lexeme)
  | block (opening : Lexeme) (content : List Node) (closing : Option Lexeme)
  deriving Repr

namespace Node

def isSeparator : Node → Bool
  | leaf lexeme => lexeme.token.isSeparator
  | block _ _ _ => false

def isCurly : Node → Bool
  | leaf _ => false
  | block opening _ _ => opening.token == .opening .curly

def isSemicolon : Node → Bool
  | leaf lexeme => lexeme.token == .semicolon
  | block _ _ _ => false

end Node

mutual

def Node.reversedOnto : Node → List Char → List Char
  | .leaf lexeme, onto => lexeme.text.reverseAux onto
  | .block opening content closing, onto =>
      (closing.elim [] Lexeme.text).reverseAux
        (reversedAllOnto content (opening.text.reverseAux onto))

def reversedAllOnto : List Node → List Char → List Char
  | [], onto => onto
  | node :: rest, onto => reversedAllOnto rest (node.reversedOnto onto)

end

def nodesText (nodes : List Node) : List Char :=
  (reversedAllOnto nodes []).reverse

structure OpenBlock where
  opening : Lexeme
  before : List Node

/-- The blocks still open, innermost first, and the nodes read in the innermost one in
reverse. -/
structure Nesting where
  stack : List OpenBlock
  current : List Node

namespace Nesting

def empty : Nesting :=
  { stack := [], current := [] }

def add (nesting : Nesting) (node : Node) : Nesting :=
  { nesting with current := node :: nesting.current }

def push (nesting : Nesting) (lexeme : Lexeme) : Nesting :=
  match lexeme.token.opens with
  | some _ =>
      { stack := { opening := lexeme, before := nesting.current } :: nesting.stack, current := [] }
  | none =>
      match lexeme.token.closes, nesting.stack with
      | some bracket, innermost :: outer =>
          if innermost.opening.token.opens = some bracket then
            { stack := outer
              current :=
                .block innermost.opening nesting.current.reverse (some lexeme) ::
                  innermost.before }
          else nesting.add (.leaf lexeme)
      | _, _ => nesting.add (.leaf lexeme)

/-- The nodes in order, every block still open being ended by the end of the text. -/
def close (nesting : Nesting) : List Node :=
  (nesting.stack.foldl
    (fun inner outer => .block outer.opening inner.reverse none :: outer.before)
    nesting.current).reverse

end Nesting

def nodesOf (read : List Lexeme) : List Node :=
  (read.foldl Nesting.push Nesting.empty).close

def nodes (characters : List Char) : List Node :=
  nodesOf (lexemes characters)

mutual

theorem Node.reversedOnto_eq (node : Node) (onto : List Char) :
    node.reversedOnto onto = node.reversedOnto [] ++ onto := by
  cases node with
  | leaf lexeme => simp [Node.reversedOnto]
  | block opening content closing =>
      simp only [Node.reversedOnto, List.reverseAux_eq, List.append_nil]
      rw [reversedAllOnto_eq content, reversedAllOnto_eq content opening.text.reverse]
      simp

theorem reversedAllOnto_eq (nodes : List Node) (onto : List Char) :
    reversedAllOnto nodes onto = reversedAllOnto nodes [] ++ onto := by
  cases nodes with
  | nil => simp [reversedAllOnto]
  | cons node rest =>
      simp only [reversedAllOnto]
      rw [reversedAllOnto_eq rest, node.reversedOnto_eq, reversedAllOnto_eq rest (node.reversedOnto [])]
      simp

end

@[simp]
theorem nodesText_nil : nodesText [] = [] := rfl

@[simp]
theorem nodesText_leaf_cons (lexeme : Lexeme) (rest : List Node) :
    nodesText (.leaf lexeme :: rest) = lexeme.text ++ nodesText rest := by
  simp only [nodesText, reversedAllOnto, Node.reversedOnto]
  rw [reversedAllOnto_eq]
  simp

@[simp]
theorem nodesText_block_cons (opening : Lexeme) (content : List Node)
    (closing : Option Lexeme) (rest : List Node) :
    nodesText (.block opening content closing :: rest) =
      opening.text ++ nodesText content ++ closing.elim [] Lexeme.text ++ nodesText rest := by
  simp only [nodesText, reversedAllOnto, Node.reversedOnto]
  rw [reversedAllOnto_eq, reversedAllOnto_eq content]
  simp

@[simp]
theorem nodesText_append (left right : List Node) :
    nodesText (left ++ right) = nodesText left ++ nodesText right := by
  induction left with
  | nil => simp
  | cons node rest inductionHypothesis =>
      cases node <;> simp [inductionHypothesis]

end ComponentStyles.Css
