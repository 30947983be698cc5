import ComponentStyles.Proofs.Css.Stretch
import Mathlib.Data.List.TakeWhile

/-!
Declarations piece by piece.

A block is cut at its semicolons, and each piece is a declaration or nothing, whatever the other
pieces are.  A cursor that gives up a faulty declaration somewhere inside it finds the semicolon
that ends the piece all the same, so it reads the declarations of the pieces.
-/

namespace ComponentStyles.Css

/-- The first two tokens of the piece are the declaration's name and a colon, and its value is the
text behind them. -/
def Declares (piece : List Node) (declaration : Declaration) : Prop :=
  ∃ front name gap colon value,
    piece = front ++ .leaf name :: (gap ++ .leaf colon :: value) ∧
    (∀ node ∈ front, node.isSeparator = true) ∧ name.token = .identifier declaration.name ∧
    (∀ node ∈ gap, node.isSeparator = true) ∧ colon.token = .colon ∧
    declaration.value = trimmedText value

theorem dropWhile_separators {front : List Node} {node : Node} {rest : List Node}
    (blank : ∀ other ∈ front, other.isSeparator = true) (plain : node.isSeparator = false) :
    (front ++ node :: rest).dropWhile Node.isSeparator = node :: rest := by
  rw [List.dropWhile_append_of_pos blank,
    List.dropWhile_cons_of_neg (Bool.eq_false_iff.mp plain)]

theorem separators_of_dropWhile {nodes : List Node} {node : Node} {rest : List Node}
    (shape : nodes.dropWhile Node.isSeparator = node :: rest) :
    ∃ front, nodes = front ++ node :: rest ∧ ∀ other ∈ front, other.isSeparator = true := by
  refine ⟨nodes.takeWhile Node.isSeparator, ?_, ?_⟩
  · rw [← shape, List.takeWhile_append_dropWhile]
  · exact List.all_eq_true.mp List.all_takeWhile

theorem Declaration.of?_eq_some {piece rest value : List Node} {name colon : Lexeme}
    {text : String} (named : piece.dropWhile Node.isSeparator = .leaf name :: rest)
    (isName : name.token = .identifier text)
    (coloned : rest.dropWhile Node.isSeparator = .leaf colon :: value)
    (isColon : colon.token = .colon) :
    Declaration.of? piece = some { name := text, value := trimmedText value } := by
  obtain ⟨nameToken, nameText⟩ := name
  obtain ⟨colonToken, colonText⟩ := colon
  obtain rfl : nameToken = .identifier text := isName
  obtain rfl : colonToken = .colon := isColon
  unfold Declaration.of?
  rw [named]
  dsimp only
  rw [coloned]

theorem Declaration.of?_eq_some_iff (piece : List Node) (declaration : Declaration) :
    Declaration.of? piece = some declaration ↔ Declares piece declaration := by
  constructor
  · intro found
    unfold Declaration.of? at found
    split at found
    · rename_i name nameText rest named
      split at found
      · rename_i colonText value separated
        obtain ⟨front, parts, blank⟩ := separators_of_dropWhile named
        obtain ⟨gap, behind, gapBlank⟩ := separators_of_dropWhile separated
        rw [← Option.some.inj found]
        exact ⟨front, _, gap, _, value, by rw [parts, behind], blank, rfl, gapBlank, rfl, rfl⟩
      · cases found
    · cases found
  · rintro ⟨front, name, gap, colon, value, rfl, blank, isName, gapBlank, isColon, isValue⟩
    rw [Declaration.of?_eq_some (dropWhile_separators blank (by rw [Node.isSeparator, isName]; rfl))
      isName (dropWhile_separators gapBlank (by rw [Node.isSeparator, isColon]; rfl)) isColon,
      ← isValue]

theorem filterMap_of?_cons (piece : List Node) (others : List (List Node)) :
    (piece :: others).filterMap Declaration.of? =
      (Declaration.of? piece).toList ++ others.filterMap Declaration.of? := by
  cases found : Declaration.of? piece with
  | none => exact List.filterMap_cons_none found
  | some declaration => exact List.filterMap_cons_some found

theorem filterMap_pieces (content : List Node) :
    (content.splitOnP Node.isSemicolon).filterMap Declaration.of? =
      (Declaration.of? (content.takeWhile Node.insidePiece)).toList ++
        ((content.dropWhile Node.insidePiece).tail.splitOnP Node.isSemicolon).filterMap
          Declaration.of? := by
  have inside : ∀ node ∈ content.takeWhile Node.insidePiece, node.isSemicolon = false := by
    intro node among
    have within := List.all_eq_true.mp List.all_takeWhile node among
    exact Bool.not_eq_true' _ ▸ within
  have whole := List.takeWhile_append_dropWhile (p := Node.insidePiece) (l := content)
  cases shape : content.dropWhile Node.insidePiece with
  | nil =>
      rw [shape, List.append_nil] at whole
      rw [whole] at inside
      rw [List.splitOnP_eq_singleton inside, whole]
      exact filterMap_of?_cons content []
  | cons semicolon after =>
      have ends : semicolon.isSemicolon = true := by
        have stopped := List.head?_dropWhile_not Node.insidePiece content
        rw [shape] at stopped
        simpa [Node.insidePiece] using stopped
      rw [shape] at whole
      conv => lhs; rw [← whole]
      rw [List.splitOnP_append_cons_of_forall_mem inside semicolon ends]
      exact filterMap_of?_cons _ _

theorem drop_piece (content : List Node) :
    content.drop ((content.takeWhile Node.insidePiece).length + 1) =
      (content.dropWhile Node.insidePiece).tail := by
  have parts := List.takeWhile_append_dropWhile (p := Node.insidePiece) (l := content)
  have behind : (content.takeWhile Node.insidePiece ++ content.dropWhile Node.insidePiece).drop
      (content.takeWhile Node.insidePiece).length = content.dropWhile Node.insidePiece :=
    List.drop_left
  rw [parts] at behind
  rw [← List.tail_drop, behind]

theorem declarationsFrom_eq (content : List Node) (found : Array Declaration) :
    (declarationsFrom content found).toList =
      found.toList ++ (content.splitOnP Node.isSemicolon).filterMap Declaration.of? := by
  induction content, found using declarationsFrom.induct with
  | case1 found =>
      rw [declarationsFrom]
      exact (List.append_nil _).symm
  | case2 found node rest piece after declaration isOne inductionHypothesis =>
      have isPiece : Declaration.of? ((node :: rest).takeWhile Node.insidePiece) =
          some declaration := isOne
      rw [declarationsFrom, filterMap_pieces, ← drop_piece, isPiece, isOne]
      refine inductionHypothesis.trans ?_
      rw [Array.toList_push, List.append_assoc]
      rfl
  | case3 found node rest piece after isNone inductionHypothesis =>
      have isPiece : Declaration.of? ((node :: rest).takeWhile Node.insidePiece) = none := isNone
      rw [declarationsFrom, filterMap_pieces, ← drop_piece, isPiece, isNone]
      exact inductionHypothesis

theorem declarations_eq (content : List Node) :
    declarations content =
      (content.splitOnP Node.isSemicolon).filterMap Declaration.of? :=
  declarationsFrom_eq content #[]

/-! ### A piece read by a cursor -/

theorem Token.eq_of_identifier? {token : Token} {name : String}
    (isOne : token.identifier? = some name) : token = .identifier name := by
  cases token <;> cases isOne
  rfl

theorem Token.eq_of_colon? {token : Token} (isOne : token.colon? = some ()) : token = .colon := by
  cases token <;> cases isOne
  rfl

theorem Declaration.of?_eq_none_of_name {piece : List Node}
    (unnamed : ∀ node rest, piece.dropWhile Node.isSeparator = node :: rest →
      node.token.identifier? = none) : Declaration.of? piece = none := by
  unfold Declaration.of?
  split
  · rename_i shape
    cases unnamed _ _ shape
  · rfl

theorem Declaration.of?_eq_none_of_colon {piece rest : List Node} {name : Lexeme}
    (named : piece.dropWhile Node.isSeparator = .leaf name :: rest)
    (uncoloned : ∀ node value, rest.dropWhile Node.isSeparator = node :: value →
      node.token.colon? = none) : Declaration.of? piece = none := by
  unfold Declaration.of?
  split
  · rename_i shape
    split
    · rename_i separated
      obtain ⟨_, rfl⟩ := List.cons.inj (named.symm.trans shape)
      cases uncoloned _ _ separated
    · rfl
  · rfl

theorem isSemicolon_of_isSeparator {node : Node} (separates : node.isSeparator = true) :
    node.isSemicolon = false := by
  cases node with
  | leaf lexeme =>
      refine beq_eq_false_iff_ne.mpr fun same => ?_
      rw [Node.isSeparator, same] at separates
      cases separates
  | block opening content closing => rfl

theorem dropWhile_piece (content : List Node) :
    (content.takeWhile Node.insidePiece).dropWhile Node.isSeparator =
      (content.dropWhile Node.isSeparator).takeWhile Node.insidePiece := by
  induction content with
  | nil => rfl
  | cons node rest inductionHypothesis =>
      by_cases separates : node.isSeparator = true
      · have within : node.insidePiece = true := by
          rw [Node.insidePiece, isSemicolon_of_isSeparator separates]
          rfl
        rw [List.takeWhile_cons_of_pos within, List.dropWhile_cons_of_pos separates,
          List.dropWhile_cons_of_pos separates, inductionHypothesis]
      · rw [List.dropWhile_cons_of_neg separates]
        by_cases within : node.insidePiece = true
        · rw [List.takeWhile_cons_of_pos within, List.dropWhile_cons_of_neg separates]
        · rw [List.takeWhile_cons_of_neg within]
          rfl

theorem nothing_declared {content : List Node}
    (separators : content.dropWhile Node.isSeparator = []) :
    (content.splitOnP Node.isSemicolon).filterMap Declaration.of? = [] := by
  have plain : ∀ node ∈ content, node.isSemicolon = false := by
    intro node among
    exact isSemicolon_of_isSeparator (List.dropWhile_eq_nil_iff.mp separators node among)
  rw [List.splitOnP_eq_singleton plain, filterMap_of?_cons, Declaration.of?, separators]
  rfl

namespace Cursor.Faces

variable {cursor : Cursor} {inside : Option Bracket} {content : List Node} {tail : List Lexeme}
  (faces : cursor.Faces inside content tail)
include faces

theorem expect_cases {α : Type} (wanted : Token → Option α) :
    (∃ fault, (cursor.expect (delimitersIn inside ++ [.semicolon]) wanted).result =
          .error fault ∧
        ∀ node rest, (content.takeWhile Node.insidePiece).dropWhile Node.isSeparator =
          node :: rest → wanted node.token = none) ∨
      ∃ value node rest, wanted node.token = some value ∧
        content.dropWhile Node.isSeparator = node :: rest ∧ node.insidePiece = true ∧
        cursor.expect (delimitersIn inside ++ [.semicolon]) wanted =
          { result := .ok value, cursor := Cursor.behindFirst node (flatAll rest ++ tail) } := by
  rw [dropWhile_piece]
  unfold expect
  cases shape : content.dropWhile Node.isSeparator with
  | nil =>
      left
      rw [faces.next_of_separators (faces.ends.append _) shape]
      refine ⟨_, rfl, ?_⟩
      intro node rest parts
      cases parts
  | cons node rest =>
      have among : node ∈ content :=
        (List.dropWhile_suffix Node.isSeparator).subset (shape ▸ List.mem_cons_self)
      have stops : isDelimiter (delimitersIn inside ++ [.semicolon]) node.token =
          node.isSemicolon := by
        rw [isDelimiter_append, isDelimiter_delimitersIn faces.placed among, Bool.false_or,
          isSemicolon_eq faces.placed among]
      cases ends : node.isSemicolon with
      | true =>
          left
          obtain ⟨fault, read⟩ := faces.next_of_delimiter shape (stops.trans ends)
          rw [read]
          refine ⟨fault, rfl, ?_⟩
          intro first others parts
          rw [List.takeWhile_cons_of_neg (by simp [Node.insidePiece, ends])] at parts
          cases parts
      | false =>
          have within : node.insidePiece = true := by simp [Node.insidePiece, ends]
          rw [faces.next_of_node shape (stops.trans ends)]
          dsimp only [Reading.andThen]
          cases isWanted : wanted node.token with
          | none =>
              left
              refine ⟨_, rfl, ?_⟩
              intro first others parts
              rw [List.takeWhile_cons_of_pos within] at parts
              rw [← (List.cons.inj parts).1]
              exact isWanted
          | some value =>
              right
              exact ⟨value, node, rest, isWanted, rfl, within, rfl⟩

theorem readRest_piece (opened : cursor.opened = none) :
    ∃ stop, readRest (delimitersIn inside ++ [.semicolon]) cursor =
        { result := .ok (), cursor := stop } ∧
      stop.demandEnd (delimitersIn inside ++ [.semicolon]) = .ok () ∧
      textBetween cursor.ahead stop.ahead = trimmedText (content.takeWhile Node.insidePiece) := by
  have stops := skim_atDelimiter (delimitersIn inside ++ [.semicolon]) cursor.settled
  have between := textBetween_flatAll (content.takeWhile Node.insidePiece)
    (content.dropWhile Node.insidePiece) tail
  rw [List.takeWhile_append_dropWhile, ← faces.settled, ← ahead_of_opened opened,
    ← faces.skim_eq fun node among => ends_piece faces.placed among] at between
  exact ⟨_, readRest_eq _ _, demandEnd_facing stops, between⟩

/-- What a cursor reads of a piece, wherever it gives up, is the declaration of the piece. -/
theorem readDeclaration_piece :
    (cursor.readEntirely (delimitersIn inside ++ [.semicolon]) readDeclaration).result.toOption =
      Declaration.of? (content.takeWhile Node.insidePiece) := by
  -- The cursor gives up at the name or at the colon, or it reads a value, which is never refused.
  rcases faces.expect_cases Token.identifier? with
    ⟨fault, failed, unnamed⟩ | ⟨name, node, rest, isName, shape, within, readName⟩
  · have given : (readDeclaration (delimitersIn inside ++ [.semicolon]) cursor).result =
        .error fault := andThen_error failed _
    rw [Declaration.of?_eq_none_of_name unnamed, readEntirely, andThen_error given]
    rfl
  · have behind : node :: rest <:+ content := shape ▸ List.dropWhile_suffix _
    obtain ⟨nameLexeme, rfl⟩ := faces.placed.leaf_of_opens (behind.subset List.mem_cons_self)
      (congrArg Token.opens (Token.eq_of_identifier? isName))
    have named : (content.takeWhile Node.insidePiece).dropWhile Node.isSeparator =
        .leaf nameLexeme :: rest.takeWhile Node.insidePiece := by
      rw [dropWhile_piece, shape, List.takeWhile_cons_of_pos within]
    have restFaces := faces.behindFirst behind
    rcases restFaces.expect_cases Token.colon? with
      ⟨fault, failed, uncoloned⟩ | ⟨_, colon, value, isColon, restShape, colonWithin, readColon⟩
    · have given : (readDeclaration (delimitersIn inside ++ [.semicolon]) cursor).result =
          .error fault := by
        rw [readDeclaration, readName, andThen_ok]
        exact andThen_error failed _
      rw [Declaration.of?_eq_none_of_colon named uncoloned, readEntirely, andThen_error given]
      rfl
    · have valueBehind : colon :: value <:+ rest := restShape ▸ List.dropWhile_suffix _
      have isColon : colon.token = .colon := Token.eq_of_colon? isColon
      obtain ⟨colonLexeme, rfl⟩ := restFaces.placed.leaf_of_opens
        (valueBehind.subset List.mem_cons_self) (congrArg Token.opens isColon)
      have coloned : (rest.takeWhile Node.insidePiece).dropWhile Node.isSeparator =
          .leaf colonLexeme :: value.takeWhile Node.insidePiece := by
        rw [dropWhile_piece, restShape, List.takeWhile_cons_of_pos colonWithin]
      obtain ⟨stop, readValue, isOver, between⟩ :=
        (restFaces.behindFirst valueBehind).readRest_piece (congrArg Token.opens isColon)
      rw [readEntirely, readDeclaration, readName, andThen_ok, readColon, andThen_ok, readValue,
        andThen_ok, andThen_ok, isOver,
        Declaration.of?_eq_some named (Token.eq_of_identifier? isName) coloned isColon]
      exact congrArg (fun text => some (Declaration.mk name text)) between

/-- Wherever the piece was given up, reading goes on behind the semicolon that ends it. -/
theorem readPast_piece :
    (cursor.readPast (delimitersIn inside) [.semicolon] readDeclaration).result.toOption =
        Declaration.of? (content.takeWhile Node.insidePiece) ∧
      (cursor.readPast (delimitersIn inside) [.semicolon] readDeclaration).cursor =
        facing (flatAll (content.dropWhile Node.insidePiece).tail ++ tail) := by
  have piece := faces.readDeclaration_piece
  have stopped : (cursor.readUntil (delimitersIn inside) [.semicolon] readDeclaration).cursor =
      facing (flatAll (content.dropWhile Node.insidePiece) ++ tail) := by
    rw [readDeclaration_resumable.readUntil_cursor]
    exact congrArg facing (faces.skim_eq fun node among => ends_piece faces.placed among)
  unfold readPast
  dsimp only
  rw [stopped]
  cases shape : content.dropWhile Node.insidePiece with
  | nil =>
      have same : (cursor.readUntil (delimitersIn inside) [.semicolon] readDeclaration).cursor =
          facing tail := by rw [stopped, shape]; rfl
      split
      · exact ⟨piece, same⟩
      · rename_i lexeme rest parts
        rw [if_pos (faces.ends lexeme rest parts)]
        exact ⟨piece, same⟩
  | cons semicolon after =>
      have behind : semicolon :: after <:+ content := shape ▸ List.dropWhile_suffix _
      have among := behind.subset List.mem_cons_self
      have goesOn := isDelimiter_delimitersIn faces.placed among
      have passed := (faces.placed.of_suffix behind).skipBlocks_inner
      have parts : (facing (flatAll (semicolon :: after) ++ tail)).ahead =
          semicolon.first :: (semicolon.inner ++ (flatAll after ++ tail)) := by
        rw [flatAll_cons, semicolon.flat_eq, List.append_assoc]
        rfl
      rw [parts]
      dsimp only
      split
      · rename_i ends
        cases goesOn.symm.trans ends
      · exact ⟨piece, congrArg facing passed⟩

theorem separators_of_exhausted (exhausted : cursor.isExhausted (delimitersIn inside) = true) :
    content.dropWhile Node.isSeparator = [] := by
  cases shape : content.dropWhile Node.isSeparator with
  | nil => rfl
  | cons node rest =>
      have behind : node :: rest <:+ content := shape ▸ List.dropWhile_suffix _
      have goesOn := isDelimiter_delimitersIn faces.placed (behind.subset List.mem_cons_self)
      unfold isExhausted at exhausted
      rw [faces.next_of_node shape goesOn] at exhausted
      cases exhausted

omit faces in
/-- The declarations of the pieces are read, up to separators in front of the end of the block. -/
theorem readDeclarationsFrom_pieces (content : List Node)
    (faces : cursor.Faces inside content tail) (found : List Declaration) :
    ∃ left, left.dropWhile Node.isSeparator = [] ∧
      (readDeclarationsFrom (delimitersIn inside) cursor found).cursor.Faces inside left tail ∧
      (readDeclarationsFrom (delimitersIn inside) cursor found).result =
        .ok (found ++ (content.splitOnP Node.isSemicolon).filterMap Declaration.of?) := by
  -- By induction on the reading, for any content: each piece is read as one, and the cursor
  -- then faces the pieces behind it.
  revert content
  induction cursor, found using readDeclarationsFrom.induct (delimitersIn inside) with
  | case1 cursor found exhausted =>
      intro content faces
      have separators := faces.separators_of_exhausted exhausted
      rw [readDeclarationsFrom, dif_pos exhausted]
      refine ⟨content, separators, faces, ?_⟩
      rw [nothing_declared separators, List.append_nil]
  | case2 cursor found left piece declaration read inductionHypothesis =>
      intro content faces
      obtain ⟨isOne, behind⟩ := faces.readPast_piece
      have after := faces.of_suffix
        ((List.tail_suffix _).trans (List.dropWhile_suffix Node.insidePiece))
      rw [readDeclarationsFrom, dif_neg left]
      dsimp only
      rw [read] at isOne ⊢
      obtain ⟨last, separators, lastFaces, result⟩ := inductionHypothesis _ (behind ▸ after)
      refine ⟨last, separators, lastFaces, result.trans ?_⟩
      rw [filterMap_pieces content, ← isOne, List.append_assoc]
      rfl
  | case3 cursor found left piece fault read inductionHypothesis =>
      intro content faces
      obtain ⟨isOne, behind⟩ := faces.readPast_piece
      have after := faces.of_suffix
        ((List.tail_suffix _).trans (List.dropWhile_suffix Node.insidePiece))
      rw [readDeclarationsFrom, dif_neg left]
      dsimp only
      rw [read] at isOne ⊢
      obtain ⟨last, separators, lastFaces, result⟩ := inductionHypothesis _ (behind ▸ after)
      refine ⟨last, separators, lastFaces, result.trans ?_⟩
      rw [filterMap_pieces content, ← isOne]
      rfl

omit faces in
theorem readBlock_declarations {nodes rest : List Node} {opening : Lexeme}
    {closing : Option Lexeme} (whole : cursor.Faces inside nodes tail)
    (behind : .block opening content closing :: rest <:+ nodes)
    (isCurly : opening.token = .opening .curly) :
    (Cursor.behindFirst (.block opening content closing) (flatAll rest ++ tail)).readBlock .curly
        readDeclarations =
      { result := .ok (declarations content), cursor := facing (flatAll rest ++ tail) } := by
  obtain ⟨bracket, opens, contentFaces, left⟩ := whole.block behind
  obtain rfl : bracket = .curly :=
    Option.some.inj (opens.symm.trans (congrArg Token.opens isCurly))
  obtain ⟨last, separators, lastFaces, result⟩ :=
    readDeclarationsFrom_pieces content contentFaces []
  have isOver := lastFaces.demandEnd_of_separators separators
  rw [List.nil_append, ← declarations_eq] at result
  have read : Cursor.readEntirely [.closing .curly] readDeclarations _ = _ :=
    readEntirely_ok result isOver
  unfold readBlock
  rw [ahead_behindFirst, read]
  refine congrArg (Reading.mk _) ?_
  exact (lastFaces.leave_eq rfl).trans (congrArg facing left)

end Cursor.Faces

open Cursor

def curlyOpening : Lexeme :=
  { token := .opening .curly, text := ['{'] }

theorem nodesOf_curlyOpening (ahead : List Lexeme) :
    ∃ content closing others,
      nodesOf (curlyOpening :: ahead) = .block curlyOpening content closing :: others ∧
        ahead = flatAll content ++ closing.toList ++ flatAll others := by
  obtain ⟨placed, flat⟩ := nodesOf_placed (curlyOpening :: ahead)
  cases shape : nodesOf (curlyOpening :: ahead) with
  | nil =>
      rw [shape] at flat
      cases flat
  | cons node others =>
      rw [shape] at placed flat
      rw [flatAll_cons, node.flat_eq, List.cons_append] at flat
      obtain ⟨isFirst, isRest⟩ := List.cons.inj flat
      cases node with
      | leaf lexeme =>
          have opens := placed.isSome_opens List.mem_cons_self
          rw [Node.token, isFirst] at opens
          cases opens
      | block opening content closing =>
          obtain rfl : opening = curlyOpening := isFirst
          exact ⟨content, closing, others, rfl, isRest.symm⟩

/-- Every block is read without a fault, whatever stands in it: its declarations are those of the
pieces between its semicolons, in order, and a piece that does not begin with a name and a colon
has none.  So what stands on one side of a semicolon has no influence on the other side. -/
theorem declarations_piece_by_piece :
    (∀ ahead : List Lexeme, ∃ content closing others,
      nodesOf (curlyOpening :: ahead) = .block curlyOpening content closing :: others ∧
        Cursor.readBlock .curly readDeclarations { ahead, opened := some .curly } =
          { result := .ok ((content.splitOnP Node.isSemicolon).filterMap Declaration.of?)
            cursor := facing (flatAll others) }) ∧
    (∀ content, declarations content =
      (content.splitOnP Node.isSemicolon).filterMap Declaration.of?) ∧
    (∀ front text back,
      declarations (front ++ .leaf { token := .semicolon, text } :: back) =
        declarations front ++ declarations back) ∧
    ∀ piece declaration, Declaration.of? piece = some declaration ↔ Declares piece declaration := by
  refine ⟨?_, declarations_eq, ?_, Declaration.of?_eq_some_iff⟩
  · intro ahead
    obtain ⟨content, closing, others, shape, parts⟩ := nodesOf_curlyOpening ahead
    obtain ⟨placed, flat⟩ := nodesOf_placed (curlyOpening :: ahead)
    rw [shape] at placed
    have faces : (facing (flatAll (.block curlyOpening content closing :: others) ++ [])).Faces none
        (.block curlyOpening content closing :: others) [] :=
      { settled := settled_facing _, placed, ends := atDelimiter_nil _ }
    have read := faces.readBlock_declarations (List.suffix_refl _) rfl
    rw [List.append_nil, declarations_eq] at read
    refine ⟨content, closing, others, shape, ?_⟩
    rw [parts]
    exact read
  · intro front text back
    rw [declarations_eq, declarations_eq, declarations_eq, List.splitOnP_append_cons front back rfl,
      List.filterMap_append]

end ComponentStyles.Css
