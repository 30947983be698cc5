import ComponentStyles.Css.Node
import ComponentStyles.Text.Blank

/-!
Declarations of a block.

A block is cut at its semicolons, those inside nested blocks apart.  A piece that is not a
declaration is dropped and has no influence on the others.
-/

namespace ComponentStyles.Css

open ComponentStyles.Text

structure Declaration where
  name : String
  value : String
  deriving DecidableEq, Repr

def trimmedText (nodes : List Node) : String :=
  String.ofList (trim (nodesText nodes))

/-- A declaration is an identifier, a colon and a value; white space and comments may stand
between.  Anything else is not one. -/
def Declaration.of? (piece : List Node) : Option Declaration :=
  match piece.dropWhile Node.isSeparator with
  | .leaf { token := .identifier name, .. } :: rest =>
      match rest.dropWhile Node.isSeparator with
      | .leaf { token := .colon, .. } :: value => some { name, value := trimmedText value }
      | _ => none
  | _ => none

def declarationsFrom (content : List Node) (found : Array Declaration) : Array Declaration :=
  match content with
  | [] => found
  | node :: rest =>
      let piece := (node :: rest).takeWhile fun node => !node.isSemicolon
      let after := (node :: rest).drop (piece.length + 1)
      match Declaration.of? piece with
      | some declaration => declarationsFrom after (found.push declaration)
      | none => declarationsFrom after found
termination_by content.length
decreasing_by all_goals simp only [List.length_drop, List.length_cons]; omega

def declarations (content : List Node) : List Declaration :=
  (declarationsFrom content #[]).toList

end ComponentStyles.Css
