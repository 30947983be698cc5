import ComponentStyles.Css.Seeker
import ComponentStyles.Proofs.Css.Reference
import ComponentStyles.Proofs.Css.Stretch

/-!
The references that a cursor finds.

A cursor that faces the nodes of a value finds the references of the nodes, and stops where their
search stops.  The first fault in a block, which is something left over behind a quoted argument,
ends the search in all blocks around it.
-/

namespace ComponentStyles.Css

theorem Placed.quoted?_eq {inside : Option Bracket} {atEnd : Bool} {nodes : List Node}
    (placed : Placed inside atEnd nodes) {node : Node} (among : node ∈ nodes) :
    node.quoted? = node.token.quotedValue? := by
  have opens := placed.isSome_opens among
  cases node with
  | leaf lexeme =>
      obtain ⟨token, text⟩ := lexeme
      cases token <;> rfl
  | block opening content closing =>
      obtain ⟨token, text⟩ := opening
      cases token with
      | quoted value => cases opens
      | _ => rfl

theorem dropWhile_behind_separators {test : Node → Bool}
    (passes : ∀ node : Node, node.isSeparator = true → test node = true) (nodes : List Node) :
    (nodes.dropWhile Node.isSeparator).dropWhile test = nodes.dropWhile test := by
  induction nodes with
  | nil => rfl
  | cons node rest inductionHypothesis =>
      by_cases separates : node.isSeparator = true
      · rw [List.dropWhile_cons_of_pos separates, inductionHypothesis,
          List.dropWhile_cons_of_pos (passes node separates)]
      · rw [List.dropWhile_cons_of_neg separates]

theorem isNone_quoted?_of_isSeparator {node : Node} (separates : node.isSeparator = true) :
    node.quoted?.isNone = true := by
  cases node with
  | leaf lexeme =>
      obtain ⟨token, text⟩ := lexeme
      cases token <;> cases separates <;> rfl
  | block opening content closing => cases separates

theorem search_of_isSeparator {node : Node} (separates : node.isSeparator = true)
    (search : Search) : node.search search = search := by
  cases node with
  | leaf lexeme =>
      obtain ⟨token, text⟩ := lexeme
      cases token <;> cases separates <;> rfl
  | block opening content closing => cases separates

theorem searchAll_behind_separators (nodes : List Node) (found : List Reference) :
    searchAll (nodes.dropWhile Node.isSeparator) { found, running := true } =
      searchAll nodes { found, running := true } := by
  induction nodes with
  | nil => rfl
  | cons node rest inductionHypothesis =>
      by_cases separates : node.isSeparator = true
      · rw [List.dropWhile_cons_of_pos separates, inductionHypothesis]
        conv => rhs; rw [searchAll, search_of_isSeparator separates]
        rfl
      · rw [List.dropWhile_cons_of_neg separates]

namespace Cursor.Faces

variable {cursor : Cursor} {inside : Option Bracket} {nodes : List Node} {tail : List Lexeme}
  (faces : cursor.Faces inside nodes tail)
include faces

/-- The first token that is read is the one of the first node that is no separator. -/
theorem first_cases :
    (nodes.dropWhile Node.isSeparator = [] ∧
      cursor.next (delimitersIn inside) =
        { result := .error { kind := .endOfText, ahead := tail }, cursor := facing tail }) ∨
    ∃ node rest, nodes.dropWhile Node.isSeparator = node :: rest ∧ node :: rest <:+ nodes ∧
      cursor.next (delimitersIn inside) =
        { result := .ok node.token, cursor := Cursor.behindFirst node (flatAll rest ++ tail) } := by
  cases shape : nodes.dropWhile Node.isSeparator with
  | nil => exact Or.inl ⟨rfl, faces.next_of_separators faces.ends shape⟩
  | cons node rest =>
      have behind : node :: rest <:+ nodes := shape ▸ List.dropWhile_suffix _
      have goesOn := isDelimiter_delimitersIn faces.placed (behind.subset List.mem_cons_self)
      exact Or.inr ⟨node, rest, rfl, behind, faces.next_of_node shape goesOn⟩

omit faces in
theorem readArgumentFrom_eq (start : List Lexeme) (nodes : List Node)
    (faces : cursor.Faces inside nodes tail) :
    readArgumentFrom start (delimitersIn inside) cursor =
      match nodes.dropWhile fun node => node.quoted?.isNone with
      | first :: rest =>
          { value := first.quoted?, cursor := Cursor.behindFirst first (flatAll rest ++ tail) }
      | [] => { value := plainArgument (textBetween start tail), cursor := facing tail } := by
  -- By induction on the reading, for any nodes: each token read is the first one of a node.
  revert nodes
  induction cursor using readArgumentFrom.induct (delimitersIn inside) with
  | case1 cursor token read value isQuoted =>
      intro nodes faces
      rcases faces.first_cases with ⟨_, next⟩ | ⟨node, rest, shape, behind, next⟩
      · rw [next] at read
        cases read
      · have isFirst := faces.placed.quoted?_eq (behind.subset List.mem_cons_self)
        rw [readArgumentFrom_quoted start read isQuoted,
          ← dropWhile_behind_separators (fun _ => isNone_quoted?_of_isSeparator) nodes, shape]
        rw [next] at read ⊢
        obtain rfl : node.token = token := Except.ok.inj read
        rw [List.dropWhile_cons_of_neg (by rw [isFirst, isQuoted]; exact Bool.false_ne_true)]
        dsimp only
        rw [isFirst, isQuoted]
  | case2 cursor token read other inductionHypothesis =>
      intro nodes faces
      rcases faces.first_cases with ⟨_, next⟩ | ⟨node, rest, shape, behind, next⟩
      · rw [next] at read
        cases read
      · have isFirst := faces.placed.quoted?_eq (behind.subset List.mem_cons_self)
        rw [readArgumentFrom_other start read other,
          ← dropWhile_behind_separators (fun _ => isNone_quoted?_of_isSeparator) nodes, shape]
        rw [next] at read inductionHypothesis ⊢
        obtain rfl : node.token = token := Except.ok.inj read
        rw [List.dropWhile_cons_of_pos (by rw [isFirst, other]; rfl)]
        exact inductionHypothesis rest (faces.behindFirst behind)
  | case3 cursor fault failed =>
      intro nodes faces
      rcases faces.first_cases with ⟨shape, next⟩ | ⟨node, rest, _, _, next⟩
      · rw [readArgumentFrom_end start failed,
          ← dropWhile_behind_separators (fun _ => isNone_quoted?_of_isSeparator) nodes, shape,
          next]
        rfl
      · rw [next] at failed
        cases failed

end Cursor.Faces

open Cursor

def Token.reference? : Token → Option Reference
  | url address => some (.asset address)
  | _ => none

theorem search_leaf_eq (lexeme : Lexeme) (found : List Reference) :
    (Node.leaf lexeme).search { found, running := true } =
      { found := lexeme.token.reference?.toList ++ found, running := true } := by
  obtain ⟨token, text⟩ := lexeme
  cases token <;> rfl

theorem SearchRound.ofToken_leaf {token : Token} (opens : token.opens = none) (after : Cursor) :
    ofToken token after = .passed token.reference? after := by
  cases token <;> cases opens <;> rfl

theorem SearchRound.ofToken_block {opening : Lexeme} {bracket : Bracket}
    (opens : opening.token.opens = some bracket) (after : Cursor) :
    (∃ make, opening.made? = some make ∧ bracket = .round ∧
        ofToken opening.token after = .referring make after) ∨
      opening.made? = none ∧ ofToken opening.token after = .entered bracket after := by
  obtain ⟨token, text⟩ := opening
  unfold Lexeme.made?
  cases token with
  | function name =>
      obtain rfl : Bracket.round = bracket := Option.some.inj opens
      unfold ofToken
      dsimp only
      cases Reference.made? name with
      | some make => exact Or.inl ⟨make, rfl, rfl, rfl⟩
      | none => exact Or.inr ⟨rfl, rfl⟩
  | opening other =>
      obtain rfl : other = bracket := Option.some.inj opens
      exact Or.inr ⟨rfl, rfl⟩
  | _ => cases opens

namespace SearchReading

/-- The cursor has found what the search of the nodes finds.  It is left in front of the tail if
that search goes on, and has met a fault if not. -/
structure Answers (reading : SearchReading) (tail : List Lexeme) (search : Search) : Prop where
  found : reading.found = search.found.reverse
  ends : search.running = true → reading.result = .ok () ∧ reading.cursor = facing tail
  stops : search.running = false → ∃ fault, reading.result = .error fault

structure Leaves (block : SearchReading) (bracket : Bracket) (behind : List Lexeme)
    (search : Search) : Prop where
  found : block.found = search.found.reverse
  ends : search.running = true →
    block.blockResult bracket = .ok () ∧ block.behind bracket = facing behind
  stops : search.running = false → ∃ fault, block.blockResult bracket = .error fault

theorem Answers.leaves {block : SearchReading} {tail behind : List Lexeme} {search : Search}
    (answers : block.Answers tail search) {bracket : Bracket}
    (ends : AtDelimiter [.closing bracket] tail) (left : skipBlocks [bracket] tail = behind) :
    block.Leaves bracket behind search where
  found := answers.found
  ends running := by
    obtain ⟨result, stands⟩ := answers.ends running
    unfold blockResult SearchReading.behind leave
    rw [result, stands, settled_facing, left]
    exact ⟨demandEnd_facing ends, rfl⟩
  stops ended := by
    obtain ⟨fault, result⟩ := answers.stops ended
    unfold blockResult
    rw [result]
    exact ⟨fault, rfl⟩

theorem Leaves.answers {block : SearchReading} {bracket : Bracket} {behind tail : List Lexeme}
    {search : Search} (leaves : block.Leaves bracket behind search) {rest : List Node}
    {goOn : Cursor → List Reference → SearchReading}
    (others : ∀ found,
      (goOn (facing behind) found.reverse).Answers tail
        (searchAll rest { found, running := true })) :
    (block.andBehind bracket goOn).Answers tail
      (if search.running then searchAll rest search else search) := by
  obtain ⟨found, running⟩ := search
  unfold andBehind
  cases running with
  | true =>
      obtain ⟨result, isBehind⟩ := leaves.ends rfl
      rw [result, isBehind, leaves.found]
      exact others found
  | false =>
      obtain ⟨fault, result⟩ := leaves.stops rfl
      rw [result]
      exact ⟨leaves.found, nofun, fun _ => ⟨fault, rfl⟩⟩

end SearchReading

theorem reverse_onto (reference : Option Reference) (found : List Reference) :
    (reference.toList ++ found).reverse = found.reverse ++ reference.toList := by
  cases reference <;> simp

namespace Cursor.Faces

variable {cursor : Cursor} {inside : Option Bracket} {nodes : List Node} {tail : List Lexeme}

theorem demandEnd_iff (faces : cursor.Faces inside nodes tail) :
    if nodes.all Node.isSeparator then cursor.demandEnd (delimitersIn inside) = .ok ()
    else ∃ fault, cursor.demandEnd (delimitersIn inside) = .error fault := by
  rcases faces.first_cases with ⟨shape, _⟩ | ⟨node, rest, shape, _, next⟩
  · have separators := List.all_eq_true.mpr (List.dropWhile_eq_nil_iff.mp shape)
    rw [if_pos separators]
    exact faces.demandEnd_of_separators shape
  · have leftOver : ¬ nodes.all Node.isSeparator = true := by
      intro separators
      rw [List.dropWhile_eq_nil_iff.mpr (List.all_eq_true.mp separators)] at shape
      cases shape
    rw [if_neg leftOver, demandEnd, next]
    exact ⟨_, rfl⟩

theorem ofArgument_leaves {content : List Node} {behind : List Lexeme} {after : Cursor}
    (ahead : after.ahead = flatAll content ++ tail)
    (faces : (facing (flatAll content ++ tail)).Faces (some .round) content tail)
    (left : skipBlocks [.round] tail = behind) (make : String → Reference)
    (found : List Reference) :
    (SearchReading.ofArgument make after found.reverse).Leaves .round behind
      (Search.take { found, running := true } make (Argument.of content)) := by
  have read := readArgumentFrom_eq (flatAll content ++ tail) content faces
  change readArgumentFrom _ [.closing .round] _ = _ at read
  unfold SearchReading.ofArgument Argument.of Search.take
  rw [ahead, read]
  cases shape : content.dropWhile fun node => node.quoted?.isNone with
  | nil =>
      have between := textBetween_flatAll content [] tail
      rw [List.append_nil, flatAll_nil, List.nil_append] at between
      dsimp only
      rw [between]
      refine ⟨(reverse_onto _ found).symm, fun _ => ⟨demandEnd_facing faces.ends, ?_⟩, nofun⟩
      unfold SearchReading.behind leave
      rw [settled_facing, left]
  | cons first others =>
      have stands : first :: others <:+ content := shape ▸ List.dropWhile_suffix _
      have othersFaces := faces.behindFirst stands
      have isOver := othersFaces.demandEnd_iff
      refine ⟨(reverse_onto _ found).symm, fun complete => ⟨?_, ?_⟩, fun incomplete => ?_⟩
      · rw [if_pos complete] at isOver
        exact isOver
      · exact (othersFaces.leave_eq rfl).trans (congrArg facing left)
      · rw [if_neg (Bool.eq_false_iff.mp incomplete)] at isOver
        exact isOver

/-- A cursor finds the references of the nodes that it faces. -/
theorem readReferences_answers {cursor : Cursor} {inside : Option Bracket} {tail : List Lexeme}
    (nodes : List Node) (faces : cursor.Faces inside nodes tail) (found : List Reference) :
    (readReferences (delimitersIn inside) cursor found.reverse).Answers tail
      (searchAll nodes { found, running := true }) := by
  -- Each round reads the first token of a node.  A block is searched first, then the nodes behind.
  rw [← searchAll_behind_separators]
  rcases faces.first_cases with ⟨shape, next⟩ | ⟨node, rest, shape, behind, next⟩
  · have round : searchRound (delimitersIn inside) cursor = .ended (facing tail) := by
      rw [searchRound, next]
    rw [readReferences_ended _ round, shape]
    exact ⟨rfl, fun _ => ⟨rfl, rfl⟩, nofun⟩
  · have round : searchRound (delimitersIn inside) cursor =
        .ofToken node.token (Cursor.behindFirst node (flatAll rest ++ tail)) := by
      rw [searchRound, next]
    have size := sizeAll_dropWhile_le Node.isSeparator nodes
    rw [shape, sizeAll] at size
    have positive := node.size_pos
    rw [shape, searchAll]
    cases node with
    | leaf lexeme =>
        have isSome := faces.placed.isSome_opens (behind.subset List.mem_cons_self)
        have opens : lexeme.token.opens = none :=
          Option.isNone_iff_eq_none.mp (Option.isSome_eq_false_iff.mp isSome)
        rw [readReferences_passed _ (round.trans (SearchRound.ofToken_leaf opens _)),
          search_leaf_eq, if_pos rfl, ← reverse_onto]
        exact readReferences_answers rest (faces.behindFirst behind) _
    | block opening content closing =>
        obtain ⟨bracket, opens, contentFaces, left⟩ := faces.block behind
        have restFaces := faces.of_suffix ((List.suffix_cons _ rest).trans behind)
        have inner := ahead_behindFirst opening content closing (flatAll rest ++ tail)
        have contentSize : (Node.block opening content closing).size = 2 + sizeAll content := by
          rw [Node.size]
        have others := readReferences_answers rest restFaces
        rw [Node.search_block]
        rcases SearchRound.ofToken_block opens
            (Cursor.behindFirst (.block opening content closing) (flatAll rest ++ tail)) with
          ⟨make, isMade, rfl, isRound⟩ | ⟨isMade, isRound⟩
        · rw [readReferences_referring _ (round.trans isRound), isMade]
          exact (ofArgument_leaves inner contentFaces left make found).answers others
        · have within := readReferences_answers content contentFaces found
          rw [readReferences_entered _ (round.trans isRound), isMade, inner]
          exact (within.leaves contentFaces.ends left).answers others
termination_by sizeAll nodes
decreasing_by all_goals omega

end Cursor.Faces

theorem seekReferences_eq (value : String) : seekReferences value = references value := by
  obtain ⟨placed, flat⟩ := nodesOf_placed (lexemes value.toList)
  have faces : (facing (lexemes value.toList)).Faces none (nodes value.toList) [] :=
    { settled := by rw [settled_facing, List.append_nil]; exact flat.symm
      placed
      ends := atDelimiter_nil _ }
  exact (faces.readReferences_answers _ []).found

end ComponentStyles.Css
