import ComponentStyles.Css.Reader
import ComponentStyles.Proofs.Css.Placement

/-!
What a cursor reads of a stretch of text.

Reading stops at a delimiter, and the same delimiter is found from every place where the reading
of the stretch may have been given up.  A cursor that faces placed nodes reads their first tokens
one after the other and passes the nodes whole.
-/

namespace ComponentStyles.Css

def Node.insidePiece (node : Node) : Bool :=
  !node.isSemicolon

namespace Cursor

/-- Nothing is left, or a delimiter comes first. -/
def AtDelimiter (delimiters : List Delimiter) (ahead : List Lexeme) : Prop :=
  ∀ lexeme rest, ahead = lexeme :: rest → isDelimiter delimiters lexeme.token = true

theorem atDelimiter_nil (delimiters : List Delimiter) : AtDelimiter delimiters [] := by
  intro lexeme rest parts
  cases parts

theorem atDelimiter_cons {delimiters : List Delimiter} {lexeme : Lexeme}
    (ends : isDelimiter delimiters lexeme.token = true) (rest : List Lexeme) :
    AtDelimiter delimiters (lexeme :: rest) := by
  intro first others parts
  rw [← (List.cons.inj parts).1]
  exact ends

theorem atDelimiter_or (delimiters : List Delimiter) (ahead : List Lexeme) :
    AtDelimiter delimiters ahead ∨
      ∃ lexeme rest, ahead = lexeme :: rest ∧ ¬ isDelimiter delimiters lexeme.token = true := by
  cases ahead with
  | nil => exact Or.inl (atDelimiter_nil delimiters)
  | cons lexeme rest =>
      by_cases ends : isDelimiter delimiters lexeme.token = true
      · exact Or.inl (atDelimiter_cons ends rest)
      · exact Or.inr ⟨lexeme, rest, rfl, ends⟩

theorem AtDelimiter.append {delimiters : List Delimiter} {ahead : List Lexeme}
    (stops : AtDelimiter delimiters ahead) (more : List Delimiter) :
    AtDelimiter (delimiters ++ more) ahead := by
  intro lexeme rest parts
  rw [isDelimiter_append, stops lexeme rest parts, Bool.true_or]

theorem AtDelimiter.dropWhile_isSeparator {delimiters : List Delimiter} {ahead : List Lexeme}
    (stops : AtDelimiter delimiters ahead) : ahead.dropWhile Lexeme.isSeparator = ahead := by
  cases ahead with
  | nil => rfl
  | cons lexeme rest =>
      have plain := isSeparator_of_isDelimiter (stops lexeme rest rfl)
      exact List.dropWhile_cons_of_neg (Bool.eq_false_iff.mp plain)

theorem AtDelimiter.skim_eq {delimiters : List Delimiter} {ahead : List Lexeme}
    (stops : AtDelimiter delimiters ahead) : skim delimiters ahead = ahead := by
  cases ahead with
  | nil => rw [skim]
  | cons lexeme rest => rw [skim, if_pos (stops lexeme rest rfl)]

theorem skim_atDelimiter (delimiters : List Delimiter) (ahead : List Lexeme) :
    AtDelimiter delimiters (skim delimiters ahead) := by
  induction ahead using skim.induct delimiters with
  | case1 =>
      rw [skim]
      exact atDelimiter_nil delimiters
  | case2 lexeme rest ends =>
      rw [skim, if_pos ends]
      exact atDelimiter_cons ends rest
  | case3 lexeme rest goesOn inductionHypothesis =>
      rw [skim, if_neg goesOn]
      exact inductionHypothesis

theorem skim_dropWhile (delimiters : List Delimiter) (ahead : List Lexeme) :
    skim delimiters (ahead.dropWhile Lexeme.isSeparator) = skim delimiters ahead := by
  induction ahead with
  | nil => rfl
  | cons lexeme rest inductionHypothesis =>
      by_cases separates : lexeme.isSeparator = true
      · have goesOn : ¬ isDelimiter delimiters lexeme.token = true := by
          intro ends
          exact Bool.eq_false_iff.mp (isSeparator_of_isDelimiter ends) separates
        rw [List.dropWhile_cons_of_pos separates, inductionHypothesis]
        conv => rhs; rw [skim, if_neg goesOn, opens_of_isSeparator separates]
        rw [Option.toList_none, skipBlocks_nil]
      · rw [List.dropWhile_cons_of_neg separates]

theorem next_of_atDelimiter {delimiters : List Delimiter} {cursor : Cursor}
    (stops : AtDelimiter delimiters cursor.passSeparators.ahead) :
    cursor.next delimiters =
      { result := .error { kind := .endOfText, ahead := cursor.passSeparators.ahead }
        cursor := cursor.passSeparators } := by
  have faces : facing cursor.passSeparators.ahead = cursor.passSeparators := rfl
  unfold next
  split
  · rename_i shape
    rw [← faces, shape]
    rfl
  · rename_i lexeme rest shape
    rw [if_pos (stops lexeme rest shape), ← faces, shape]
    rfl

theorem next_of_cons {delimiters : List Delimiter} {cursor : Cursor} {lexeme : Lexeme}
    {rest : List Lexeme} (shape : cursor.passSeparators.ahead = lexeme :: rest)
    (goesOn : ¬ isDelimiter delimiters lexeme.token = true) :
    cursor.next delimiters =
      { result := .ok lexeme.token
        cursor := { ahead := rest, opened := lexeme.token.opens } } := by
  unfold next
  rw [shape]
  dsimp only
  rw [if_neg goesOn]

theorem skim_next (delimiters : List Delimiter) (cursor : Cursor) :
    skim delimiters (cursor.next delimiters).cursor.settled =
      skim delimiters cursor.settled := by
  rw [← skim_dropWhile delimiters cursor.settled]
  change _ = skim delimiters cursor.passSeparators.ahead
  rcases atDelimiter_or delimiters cursor.passSeparators.ahead with
    stops | ⟨lexeme, rest, shape, goesOn⟩
  · rw [next_of_atDelimiter stops]
    exact congrArg (skim delimiters) (settled_facing _)
  · rw [next_of_cons shape goesOn, shape]
    conv => rhs; rw [skim, if_neg goesOn]
    rfl

theorem demandEnd_facing {delimiters : List Delimiter} {ahead : List Lexeme}
    (stops : AtDelimiter delimiters ahead) : (facing ahead).demandEnd delimiters = .ok () := by
  have passed : AtDelimiter delimiters (facing ahead).passSeparators.ahead := by
    unfold passSeparators
    rw [settled_facing, stops.dropWhile_isSeparator]
    exact stops
  unfold demandEnd
  rw [next_of_atDelimiter passed]

/-- Wherever the reading ends, the same delimiter comes next. -/
def Resumable {α : Type} (read : List Delimiter → Cursor → Reading α) : Prop :=
  ∀ delimiters cursor,
    skim delimiters (read delimiters cursor).cursor.settled = skim delimiters cursor.settled

section Resumable

variable {α β : Type} {delimiters : List Delimiter} {cursor : Cursor}

theorem skim_expect (delimiters : List Delimiter) (wanted : Token → Option α) (cursor : Cursor) :
    skim delimiters (cursor.expect delimiters wanted).cursor.settled =
      skim delimiters cursor.settled := by
  have same := skim_next delimiters cursor
  unfold expect Reading.andThen
  split
  · dsimp only
    split <;> exact same
  · exact same

theorem andThen_error {reading : Reading α} {fault : Fault} (failed : reading.result = .error fault)
    (next : α → Cursor → Reading β) : (reading.andThen next).result = .error fault := by
  unfold Reading.andThen
  rw [failed]

theorem andThen_ok (value : α) (cursor : Cursor) (next : α → Cursor → Reading β) :
    ({ result := .ok value, cursor } : Reading α).andThen next = next value cursor := rfl

theorem readEntirely_ok {read : List Delimiter → Cursor → Reading α} {value : α}
    (result : (read delimiters cursor).result = .ok value)
    (isOver : (read delimiters cursor).cursor.demandEnd delimiters = .ok ()) :
    cursor.readEntirely delimiters read =
      { result := .ok value, cursor := (read delimiters cursor).cursor } := by
  unfold readEntirely Reading.andThen
  rw [result]
  dsimp only
  rw [isOver]
  rfl

theorem skim_andThen {reading : Reading α} {next : α → Cursor → Reading β} {found : List Lexeme}
    (first : skim delimiters reading.cursor.settled = found)
    (second : ∀ value, skim delimiters (next value reading.cursor).cursor.settled = found) :
    skim delimiters (reading.andThen next).cursor.settled = found := by
  unfold Reading.andThen
  split
  · exact second _
  · exact first

theorem readRest_eq (delimiters : List Delimiter) (cursor : Cursor) :
    readRest delimiters cursor =
      { result := .ok (), cursor := facing (skim delimiters cursor.settled) } := by
  induction cursor using readRest.induct delimiters with
  | case1 cursor token read inductionHypothesis =>
      rw [readRest]
      split
      · rw [inductionHypothesis, skim_next]
      · rename_i failed
        rw [read] at failed
        cases failed
  | case2 cursor fault failed =>
      rw [readRest]
      split
      · rename_i read
        rw [read] at failed
        cases failed
      · rcases atDelimiter_or delimiters cursor.passSeparators.ahead with
          stops | ⟨lexeme, rest, shape, goesOn⟩
        · rw [next_of_atDelimiter stops, ← skim_dropWhile delimiters cursor.settled]
          exact congrArg (fun ahead => Reading.mk (.ok ()) (facing ahead)) stops.skim_eq.symm
        · rw [next_of_cons shape goesOn] at failed
          cases failed

theorem readRest_resumable : Resumable readRest := by
  intro delimiters cursor
  rw [readRest_eq, settled_facing]
  exact (skim_atDelimiter delimiters _).skim_eq

theorem readDeclaration_resumable : Resumable readDeclaration := by
  intro delimiters cursor
  have name := skim_expect delimiters Token.identifier? cursor
  refine skim_andThen name fun _ => ?_
  have colon := (skim_expect delimiters Token.colon? _).trans name
  refine skim_andThen colon fun _ => ?_
  have rest := (readRest_resumable delimiters _).trans colon
  exact skim_andThen rest fun _ => rest

/-- A reading that is given up is resumed at the delimiter, wherever its fault showed. -/
theorem Resumable.readUntil_cursor {read : List Delimiter → Cursor → Reading α}
    (resumable : Resumable read) (delimiters more : List Delimiter) (cursor : Cursor) :
    (cursor.readUntil delimiters more read).cursor =
      facing (skim (delimiters ++ more) cursor.settled) := by
  have same := resumable (delimiters ++ more) cursor
  exact congrArg facing (skim_andThen same fun _ => same)

theorem readUntil_readRest (delimiters more : List Delimiter) (cursor : Cursor) :
    cursor.readUntil delimiters more readRest =
      { result := .ok (), cursor := facing (skim (delimiters ++ more) cursor.settled) } := by
  have stops := skim_atDelimiter (delimiters ++ more) cursor.settled
  unfold readUntil readEntirely
  rw [readRest_eq]
  dsimp only [Reading.andThen]
  rw [demandEnd_facing stops, settled_facing, stops.skim_eq]
  rfl

end Resumable

/-! ### Cursors in front of nodes -/

def delimitersIn (inside : Option Bracket) : List Delimiter :=
  inside.toList.map .closing

/-- The nodes are all that is left ahead of the cursor in the block that it stands in, or in the
text; the tail is what closes the block, and what stands behind it. -/
structure Faces (cursor : Cursor) (inside : Option Bracket) (nodes : List Node)
    (tail : List Lexeme) : Prop where
  settled : cursor.settled = flatAll nodes ++ tail
  placed : Placed inside tail.isEmpty nodes
  ends : AtDelimiter (delimitersIn inside) tail

theorem isDelimiter_singleton (delimiter : Delimiter) (token : Token) :
    isDelimiter [delimiter] token = (token == delimiter.token) := by
  unfold isDelimiter
  rw [List.any_cons, List.any_nil, Bool.or_false, BEq.comm]

theorem isDelimiter_delimitersIn {inside : Option Bracket} {atEnd : Bool} {nodes : List Node}
    (placed : Placed inside atEnd nodes) {node : Node} (among : node ∈ nodes) :
    isDelimiter (delimitersIn inside) node.token = false := by
  cases inside with
  | none => rfl
  | some bracket =>
      obtain ⟨front, rest, rfl⟩ := List.append_of_mem among
      have other := (placed.of_suffix (List.suffix_append front _)).token_ne_closing
      exact (isDelimiter_singleton (.closing bracket) node.token).trans
        (beq_eq_false_iff_ne.mpr other)

def behindFirst (node : Node) (behind : List Lexeme) : Cursor :=
  { ahead := node.inner ++ behind, opened := node.token.opens }

theorem ahead_behindFirst (opening : Lexeme) (content : List Node) (closing : Option Lexeme)
    (behind : List Lexeme) :
    (behindFirst (.block opening content closing) behind).ahead =
      flatAll content ++ (closing.toList ++ behind) :=
  List.append_assoc _ _ _

theorem ahead_of_opened {cursor : Cursor} (opened : cursor.opened = none) :
    cursor.ahead = cursor.settled := by
  unfold settled
  rw [opened]
  exact (skipBlocks_nil _).symm

theorem dropWhile_flatAll {inside : Option Bracket} {nodes : List Node} {tail : List Lexeme}
    (placed : Placed inside tail.isEmpty nodes) (ends : AtDelimiter (delimitersIn inside) tail) :
    (flatAll nodes ++ tail).dropWhile Lexeme.isSeparator =
      flatAll (nodes.dropWhile Node.isSeparator) ++ tail := by
  induction nodes with
  | nil => exact ends.dropWhile_isSeparator
  | cons node rest inductionHypothesis =>
      have same : node.isSeparator = node.first.isSeparator :=
        placed.isSeparator_eq List.mem_cons_self
      rw [flatAll_cons, node.flat_eq, List.cons_append, List.cons_append]
      by_cases separates : node.isSeparator = true
      · cases node with
        | block opening content closing => cases separates
        | leaf lexeme =>
            rw [List.dropWhile_cons_of_pos (same.symm.trans separates),
              List.dropWhile_cons_of_pos separates, ← inductionHypothesis placed.tail]
            rfl
      · rw [List.dropWhile_cons_of_neg (fun is => separates (same.trans is)),
          List.dropWhile_cons_of_neg separates, flatAll_cons, node.flat_eq]
        rfl

/-- The first of the nodes that begins with a new delimiter, and the nodes behind it. -/
theorem skim_flatAll {inside : Option Bracket} {more : List Delimiter} {keeps : Node → Bool}
    {nodes : List Node} {tail : List Lexeme} (placed : Placed inside tail.isEmpty nodes)
    (ends : AtDelimiter (delimitersIn inside) tail)
    (same : ∀ node ∈ nodes, isDelimiter more node.token = !keeps node) :
    skim (delimitersIn inside ++ more) (flatAll nodes ++ tail) =
      flatAll (nodes.dropWhile keeps) ++ tail := by
  induction nodes with
  | nil => exact (ends.append more).skim_eq
  | cons node rest inductionHypothesis =>
      have stops : isDelimiter (delimitersIn inside ++ more) node.token = !keeps node := by
        rw [isDelimiter_append, isDelimiter_delimitersIn placed List.mem_cons_self,
          Bool.false_or, same node List.mem_cons_self]
      rw [flatAll_cons, node.flat_eq, List.cons_append, List.cons_append, skim]
      change (if isDelimiter _ node.token = true then _
        else skim _ (skipBlocks node.token.opens.toList _)) = _
      cases kept : keeps node with
      | true =>
          rw [kept, Bool.not_true] at stops
          rw [if_neg (Bool.eq_false_iff.mp stops), List.dropWhile_cons_of_pos kept,
            List.append_assoc, placed.skipBlocks_inner]
          exact inductionHypothesis placed.tail fun other among =>
            same other (List.mem_cons_of_mem node among)
      | false =>
          rw [kept, Bool.not_false] at stops
          rw [if_pos stops, List.dropWhile_cons_of_neg (Bool.eq_false_iff.mp kept), flatAll_cons,
            node.flat_eq]
          rfl

namespace Faces

variable {cursor : Cursor} {inside : Option Bracket} {nodes rest : List Node} {node : Node}
  {tail : List Lexeme} {delimiters : List Delimiter} (faces : cursor.Faces inside nodes tail)
include faces

theorem of_suffix (behind : rest <:+ nodes) :
    (facing (flatAll rest ++ tail)).Faces inside rest tail :=
  { settled := settled_facing _
    placed := faces.placed.of_suffix behind
    ends := faces.ends }

theorem passSeparators_eq :
    cursor.passSeparators = facing (flatAll (nodes.dropWhile Node.isSeparator) ++ tail) := by
  unfold passSeparators
  rw [faces.settled, dropWhile_flatAll faces.placed faces.ends]

theorem skim_eq {more : List Delimiter} {keeps : Node → Bool}
    (same : ∀ node ∈ nodes, isDelimiter more node.token = !keeps node) :
    skim (delimitersIn inside ++ more) cursor.settled =
      flatAll (nodes.dropWhile keeps) ++ tail := by
  rw [faces.settled]
  exact skim_flatAll faces.placed faces.ends same

theorem next_of_separators (stops : AtDelimiter delimiters tail)
    (shape : nodes.dropWhile Node.isSeparator = []) :
    cursor.next delimiters =
      { result := .error { kind := .endOfText, ahead := tail }, cursor := facing tail } := by
  have same : cursor.passSeparators = facing tail := by
    rw [faces.passSeparators_eq, shape]
    rfl
  have ahead : AtDelimiter delimiters cursor.passSeparators.ahead := by
    rw [same]
    exact stops
  rw [next_of_atDelimiter ahead, same]
  rfl

theorem next_of_delimiter (shape : nodes.dropWhile Node.isSeparator = node :: rest)
    (ends : isDelimiter delimiters node.token = true) :
    ∃ fault, cursor.next delimiters =
      { result := .error fault, cursor := facing (flatAll (node :: rest) ++ tail) } := by
  have same := faces.passSeparators_eq
  rw [shape] at same
  have ahead : AtDelimiter delimiters cursor.passSeparators.ahead := by
    rw [same, flatAll_cons, node.flat_eq]
    exact atDelimiter_cons ends _
  rw [next_of_atDelimiter ahead, same]
  exact ⟨_, rfl⟩

/-- The first node that is no separator is read, up to behind its first token. -/
theorem next_of_node (shape : nodes.dropWhile Node.isSeparator = node :: rest)
    (goesOn : isDelimiter delimiters node.token = false) :
    cursor.next delimiters =
      { result := .ok node.token, cursor := behindFirst node (flatAll rest ++ tail) } := by
  have ahead : cursor.passSeparators.ahead =
      node.first :: (node.inner ++ (flatAll rest ++ tail)) := by
    rw [faces.passSeparators_eq, shape, flatAll_cons, node.flat_eq, List.append_assoc]
    rfl
  exact next_of_cons ahead (Bool.eq_false_iff.mp goesOn)

theorem behindFirst (behind : node :: rest <:+ nodes) :
    (behindFirst node (flatAll rest ++ tail)).Faces inside rest tail :=
  { settled := (faces.placed.of_suffix behind).skipBlocks_inner
    placed := (faces.placed.of_suffix behind).tail
    ends := faces.ends }

theorem demandEnd_of_separators (shape : nodes.dropWhile Node.isSeparator = []) :
    cursor.demandEnd (delimitersIn inside) = .ok () := by
  unfold demandEnd
  rw [faces.next_of_separators faces.ends shape]

theorem leave_eq {bracket : Bracket} (isInside : inside = some bracket) :
    cursor.leave bracket = facing (skipBlocks [bracket] tail) := by
  subst isInside
  unfold leave
  rw [faces.settled, faces.placed.skipBlocks_flatAll [] rfl]

/-- A block is entered in front of its content, which ends where the block does; it is left in
front of the nodes behind it. -/
theorem block {opening : Lexeme} {closing : Option Lexeme} {content : List Node}
    (behind : .block opening content closing :: rest <:+ nodes) :
    ∃ bracket, opening.token.opens = some bracket ∧
      (facing (flatAll content ++ (closing.toList ++ (flatAll rest ++ tail)))).Faces
        (some bracket) content (closing.toList ++ (flatAll rest ++ tail)) ∧
      skipBlocks [bracket] (closing.toList ++ (flatAll rest ++ tail)) = flatAll rest ++ tail := by
  obtain ⟨bracket, opens, placed, closes, left⟩ := (faces.placed.of_suffix behind).block
  refine ⟨bracket, opens, ⟨settled_facing _, placed, ?_⟩, left⟩
  intro lexeme others parts
  rw [closes lexeme others parts]
  exact (isDelimiter_singleton (.closing bracket) _).trans (beq_self_eq_true _)

end Faces

section Kinds

variable {inside : Option Bracket} {atEnd : Bool} {nodes : List Node} {node : Node}
  (placed : Placed inside atEnd nodes) (among : node ∈ nodes)
include placed among

theorem isSemicolon_eq : isDelimiter [.semicolon] node.token = node.isSemicolon := by
  rw [isDelimiter_singleton]
  cases node with
  | leaf lexeme => rfl
  | block opening content closing =>
      refine beq_eq_false_iff_ne.mpr fun same => ?_
      have opens := placed.isSome_opens among
      rw [same] at opens
      cases opens

theorem isCurly_eq : isDelimiter [.curlyBlock] node.token = node.isCurly := by
  rw [isDelimiter_singleton]
  cases node with
  | leaf lexeme =>
      refine beq_eq_false_iff_ne.mpr fun same => ?_
      have opens := placed.isSome_opens among
      rw [same] at opens
      cases opens
  | block opening content closing => rfl

theorem ends_piece : isDelimiter [.semicolon] node.token = !node.insidePiece :=
  (isSemicolon_eq placed among).trans (Bool.not_not _).symm

theorem ends_selector : isDelimiter [.curlyBlock] node.token = !node.insideSelector :=
  (isCurly_eq placed among).trans (Bool.not_not _).symm

theorem ends_prelude : isDelimiter [.curlyBlock, .semicolon] node.token = !node.insidePrelude := by
  unfold Node.insidePrelude
  rw [Bool.not_not, ← isCurly_eq placed among, ← isSemicolon_eq placed among]
  exact isDelimiter_append [.curlyBlock] [.semicolon] node.token

end Kinds

theorem textBetween_flatAll (front rest : List Node) (tail : List Lexeme) :
    textBetween (flatAll (front ++ rest) ++ tail) (flatAll rest ++ tail) =
      trimmedText front := by
  unfold textBetween trimmedText
  rw [flatAll_append, List.append_assoc, List.length_append, Nat.add_sub_cancel,
    List.take_left, nodesText_flatAll]

end Cursor

end ComponentStyles.Css
