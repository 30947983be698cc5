import ComponentStyles.Css.Cursor
import ComponentStyles.Css.Entry
import ComponentStyles.Proofs.Css.Nesting

/-!
Where the nodes of a text stand.

The nodes of a text, written out, are its lexemes, and they are placed in the text: a bracket that
closes the block around it is never an ordinary lexeme, and a block without a closing lexeme has
nothing behind it.  From this a cursor that passes the blocks it does not enter passes whole
nodes.
-/

namespace ComponentStyles.Css

mutual

def Node.flat : Node → List Lexeme
  | .leaf lexeme => [lexeme]
  | .block opening content closing => opening :: (flatAll content ++ closing.toList)

def flatAll : List Node → List Lexeme
  | [] => []
  | node :: rest => node.flat ++ flatAll rest

end

@[simp]
theorem flatAll_nil : flatAll [] = [] := rfl

@[simp]
theorem flatAll_cons (node : Node) (rest : List Node) :
    flatAll (node :: rest) = node.flat ++ flatAll rest := rfl

@[simp]
theorem flatAll_append (left right : List Node) :
    flatAll (left ++ right) = flatAll left ++ flatAll right := by
  induction left with
  | nil => rfl
  | cons node rest inductionHypothesis =>
      rw [List.cons_append, flatAll_cons, flatAll_cons, inductionHypothesis, List.append_assoc]

mutual

theorem Node.text_flat (node : Node) : nodesText [node] = node.flat.flatMap Lexeme.text := by
  cases node with
  | leaf lexeme => simp [Node.flat]
  | block opening content closing =>
      rw [nodesText_block_cons, nodesText_flatAll content]
      cases closing <;> simp [Node.flat]

theorem nodesText_flatAll (nodes : List Node) :
    nodesText nodes = (flatAll nodes).flatMap Lexeme.text := by
  cases nodes with
  | nil => rfl
  | cons node rest =>
      rw [← List.singleton_append, nodesText_append, node.text_flat, nodesText_flatAll rest,
        List.singleton_append, flatAll_cons, List.flatMap_append]

end

def Node.first : Node → Lexeme
  | .leaf lexeme => lexeme
  | .block opening _ _ => opening

def Node.token (node : Node) : Token :=
  node.first.token

def Node.inner : Node → List Lexeme
  | .leaf _ => []
  | .block _ content closing => flatAll content ++ closing.toList

theorem Node.flat_eq (node : Node) : node.flat = node.first :: node.inner := by
  cases node <;> rfl

def Node.isBlock : Node → Bool
  | .leaf _ => false
  | .block _ _ _ => true

/-- The nodes may stand next to each other inside a block of the bracket, or outside all blocks.
The flag tells that nothing stands behind them in the text. -/
inductive Placed : Option Bracket → Bool → List Node → Prop where
  | nil {inside : Option Bracket} {atEnd : Bool} : Placed inside atEnd []
  | leaf {inside : Option Bracket} {atEnd : Bool} {lexeme : Lexeme} {rest : List Node} :
      lexeme.token.opens = none →
      (∀ bracket, inside = some bracket → lexeme.token.closes ≠ some bracket) →
      Placed inside atEnd rest → Placed inside atEnd (.leaf lexeme :: rest)
  | closed {inside : Option Bracket} {atEnd : Bool} {opening closing : Lexeme}
      {bracket : Bracket} {content rest : List Node} :
      opening.token.opens = some bracket → closing.token = .closing bracket →
      Placed (some bracket) false content →
      Placed inside atEnd rest → Placed inside atEnd (.block opening content (some closing) :: rest)
  | unclosed {inside : Option Bracket} {opening : Lexeme} {bracket : Bracket}
      {content : List Node} :
      opening.token.opens = some bracket → Placed (some bracket) true content →
      Placed inside true [.block opening content none]

theorem opens_of_closes {token : Token} {bracket : Bracket}
    (closes : token.closes = some bracket) : token.opens = none ∧ token = .closing bracket := by
  cases token <;> cases closes
  exact ⟨rfl, rfl⟩

theorem Placed.tail {inside : Option Bracket} {atEnd : Bool} {node : Node} {rest : List Node}
    (placed : Placed inside atEnd (node :: rest)) : Placed inside atEnd rest := by
  cases placed with
  | leaf _ _ behind => exact behind
  | closed _ _ _ behind => exact behind
  | unclosed _ _ => exact .nil

theorem Placed.of_suffix {inside : Option Bracket} {atEnd : Bool} {nodes rest : List Node}
    (placed : Placed inside atEnd nodes) (behind : rest <:+ nodes) :
    Placed inside atEnd rest := by
  induction nodes with
  | nil => exact List.suffix_nil.mp behind ▸ placed
  | cons node others inductionHypothesis =>
      rcases List.suffix_cons_iff.mp behind with same | further
      · exact same ▸ placed
      · exact inductionHypothesis placed.tail further

theorem Placed.content {inside : Option Bracket} {atEnd : Bool} {opening : Lexeme}
    {closing : Option Lexeme} {content rest : List Node}
    (placed : Placed inside atEnd (.block opening content closing :: rest)) :
    ∃ bracket within, Placed (some bracket) within content := by
  cases placed with
  | closed _ _ content _ => exact ⟨_, _, content⟩
  | unclosed _ content => exact ⟨_, _, content⟩

theorem Placed.atEnd {inside : Option Bracket} {nodes : List Node}
    (placed : Placed inside false nodes) (atEnd : Bool) : Placed inside atEnd nodes := by
  generalize isFalse : false = flag at placed
  induction placed with
  | nil => exact .nil
  | leaf opens notClosing _ inductionHypothesis =>
      exact .leaf opens notClosing (inductionHypothesis isFalse)
  | closed opens closes content _ _ inductionHypothesis =>
      exact .closed opens closes content (inductionHypothesis isFalse)
  | unclosed _ _ _ => cases isFalse

theorem Placed.append {inside : Option Bracket} {atEnd : Bool} {front back : List Node}
    (placed : Placed inside false front) (behind : Placed inside atEnd back) :
    Placed inside atEnd (front ++ back) := by
  generalize isFalse : false = flag at placed
  induction placed with
  | nil => exact behind
  | leaf opens notClosing _ inductionHypothesis =>
      exact .leaf opens notClosing (inductionHypothesis behind isFalse)
  | closed opens closes content _ _ inductionHypothesis =>
      exact .closed opens closes content (inductionHypothesis behind isFalse)
  | unclosed _ _ _ => cases isFalse

theorem Placed.token_ne_closing {bracket : Bracket} {atEnd : Bool} {node : Node}
    {rest : List Node} (placed : Placed (some bracket) atEnd (node :: rest)) :
    node.token ≠ .closing bracket := by
  intro same
  cases placed with
  | leaf _ notClosing _ =>
      exact notClosing bracket rfl (congrArg Token.closes same)
  | closed opens _ _ _ => cases (opens_of_closing same).symm.trans opens
  | unclosed opens _ => cases (opens_of_closing same).symm.trans opens

theorem Placed.isSome_opens {inside : Option Bracket} {atEnd : Bool} {nodes : List Node}
    (placed : Placed inside atEnd nodes) {node : Node} (among : node ∈ nodes) :
    node.token.opens.isSome = node.isBlock := by
  have begins (rest : List Node) (behind : Placed inside atEnd (node :: rest)) :
      node.token.opens.isSome = node.isBlock := by
    cases behind with
    | leaf opens _ _ => exact congrArg Option.isSome opens
    | closed opens _ _ _ => exact congrArg Option.isSome opens
    | unclosed opens _ => exact congrArg Option.isSome opens
  obtain ⟨front, rest, rfl⟩ := List.append_of_mem among
  exact begins rest (placed.of_suffix (List.suffix_append front _))

theorem opens_of_isSeparator {token : Token} (isOne : token.isSeparator = true) :
    token.opens = none := by
  cases token <;> cases isOne <;> rfl

theorem Placed.isSeparator_eq {inside : Option Bracket} {atEnd : Bool} {nodes : List Node}
    (placed : Placed inside atEnd nodes) {node : Node} (among : node ∈ nodes) :
    node.isSeparator = node.token.isSeparator := by
  cases node with
  | leaf lexeme => rfl
  | block opening content closing =>
      have opens := placed.isSome_opens among
      refine (Bool.eq_false_iff.mpr fun separates => ?_).symm
      rw [opens_of_isSeparator separates] at opens
      cases opens

theorem Placed.leaf_of_opens {inside : Option Bracket} {atEnd : Bool} {nodes : List Node}
    (placed : Placed inside atEnd nodes) {node : Node} (among : node ∈ nodes)
    (opens : node.token.opens = none) : ∃ lexeme, node = .leaf lexeme := by
  cases node with
  | leaf lexeme => exact ⟨lexeme, rfl⟩
  | block opening content closing =>
      have isSome := placed.isSome_opens among
      rw [opens] at isSome
      cases isSome

def innermost? : List OpenBlock → Option Bracket
  | [] => none
  | block :: _ => block.opening.token.opens

def PlacedStack : List OpenBlock → Prop
  | [] => True
  | block :: outer =>
      block.opening.token.opens ≠ none ∧
        Placed (innermost? outer) false block.before.reverse ∧ PlacedStack outer

def flatStack : List OpenBlock → List Lexeme
  | [] => []
  | block :: outer => flatStack outer ++ flatAll block.before.reverse ++ [block.opening]

namespace Nesting

structure Reads (nesting : Nesting) (read : List Lexeme) : Prop where
  stack : PlacedStack nesting.stack
  current : Placed (innermost? nesting.stack) false nesting.current.reverse
  flat : flatStack nesting.stack ++ flatAll nesting.current.reverse = read

theorem reads_empty : empty.Reads [] :=
  { stack := trivial, current := .nil, flat := rfl }

theorem Reads.push {nesting : Nesting} {read : List Lexeme} (reads : nesting.Reads read)
    (lexeme : Lexeme) : (nesting.push lexeme).Reads (read ++ [lexeme]) := by
  cases opens : lexeme.token.opens with
  | some bracket =>
      rw [push_opening opens]
      refine { stack := ⟨?_, reads.current, reads.stack⟩, current := .nil, flat := ?_ }
      · rw [opens]
        exact Option.some_ne_none bracket
      · rw [← reads.flat]
        exact List.append_nil _
  | none =>
      by_cases closed : nesting.ClosedBy lexeme
      · obtain ⟨innermost, outer, stack, closes, matching⟩ := closed
        obtain ⟨bracket, closes'⟩ := Option.isSome_iff_exists.mp closes
        obtain ⟨_, before, outerPlaced⟩ := stack ▸ reads.stack
        have content := stack ▸ reads.current
        have flat := reads.flat
        rw [push_closing opens stack closes matching]
        have block : Placed (innermost? outer) false
            [.block innermost.opening nesting.current.reverse (some lexeme)] := by
          refine .closed (matching.trans closes') (opens_of_closes closes').2 ?_ .nil
          rw [← matching.trans closes']
          exact content
        refine { stack := outerPlaced, current := ?_, flat := ?_ }
        · rw [List.reverse_cons]
          exact before.append block
        · rw [← flat, stack]
          simp [flatStack, Node.flat]
      · rw [push_plain opens closed]
        refine { stack := reads.stack, current := ?_, flat := ?_ }
        · rw [add, List.reverse_cons]
          refine reads.current.append (.leaf opens ?_ .nil)
          intro bracket inside closes
          change innermost? nesting.stack = some bracket at inside
          cases stack : nesting.stack with
          | nil =>
              rw [stack] at inside
              cases inside
          | cons innermost outer =>
              rw [stack] at inside
              refine closed ⟨innermost, outer, stack, ?_, inside.trans closes.symm⟩
              rw [closes]
              rfl
        · rw [← reads.flat]
          simp [add, Node.flat]

theorem Reads.foldl_push {nesting : Nesting} {read : List Lexeme} (reads : nesting.Reads read)
    (lexemes : List Lexeme) : (lexemes.foldl Nesting.push nesting).Reads (read ++ lexemes) := by
  induction lexemes generalizing nesting read with
  | nil =>
      rw [List.append_nil]
      exact reads
  | cons lexeme rest inductionHypothesis =>
      have next := inductionHypothesis (reads.push lexeme)
      rw [List.append_assoc, List.singleton_append] at next
      exact next

theorem placed_close (stack : List OpenBlock) (current : List Node) (placed : PlacedStack stack)
    (currentPlaced : Placed (innermost? stack) true current.reverse) :
    Placed none true (close { stack, current }) ∧
      flatAll (close { stack, current }) = flatStack stack ++ flatAll current.reverse := by
  induction stack generalizing current with
  | nil => exact ⟨currentPlaced, rfl⟩
  | cons block outer inductionHypothesis =>
      obtain ⟨opens, before, outerPlaced⟩ := placed
      obtain ⟨bracket, opens⟩ := Option.ne_none_iff_exists'.mp opens
      have ended : Placed (innermost? outer) true
          (.block block.opening current.reverse none :: block.before).reverse := by
        rw [List.reverse_cons]
        refine before.append (.unclosed opens ?_)
        rw [← opens]
        exact currentPlaced
      obtain ⟨whole, flat⟩ := inductionHypothesis _ outerPlaced ended
      refine ⟨whole, flat.trans ?_⟩
      simp [flatStack, Node.flat]

end Nesting

theorem nodesOf_placed (read : List Lexeme) :
    Placed none true (nodesOf read) ∧ flatAll (nodesOf read) = read := by
  have reads := Nesting.reads_empty.foldl_push read
  obtain ⟨placed, flat⟩ := Nesting.placed_close _ _ reads.stack (reads.current.atEnd true)
  exact ⟨placed, flat.trans reads.flat⟩

theorem skipBlocks_closing {lexeme : Lexeme} {bracket : Bracket}
    (isClosing : lexeme.token = .closing bracket) (outer : List Bracket) (behind : List Lexeme) :
    skipBlocks (bracket :: outer) (lexeme :: behind) = skipBlocks outer behind := by
  have closes : lexeme.token.closes = some bracket := congrArg Token.closes isClosing
  rw [skipBlocks, opens_of_closing isClosing]
  exact if_pos closes

theorem Placed.skipBlocks_flatAll {bracket : Bracket} {atEnd : Bool} {content : List Node}
    (placed : Placed (some bracket) atEnd content) (outer : List Bracket) {behind : List Lexeme}
    (ends : behind.isEmpty = atEnd) :
    skipBlocks (bracket :: outer) (flatAll content ++ behind) =
      skipBlocks (bracket :: outer) behind := by
  generalize isInside : some bracket = inside at placed
  induction placed generalizing bracket outer behind with
  | nil => rfl
  | @leaf inside atEnd lexeme rest opens notClosing _ inductionHypothesis =>
      rw [flatAll_cons, Node.flat, List.singleton_append, List.cons_append, skipBlocks, opens]
      dsimp only
      rw [if_neg (notClosing bracket isInside.symm)]
      exact inductionHypothesis outer ends isInside
  | @closed inside atEnd opening closing inner content rest opens closes _ _ contentSkipped
      restSkipped =>
      have shape : flatAll (.block opening content (some closing) :: rest) ++ behind =
          opening :: (flatAll content ++ closing :: (flatAll rest ++ behind)) := by
        simp [Node.flat]
      rw [shape, skipBlocks, opens]
      dsimp only
      rw [contentSkipped (bracket :: outer) rfl rfl, skipBlocks_closing closes]
      exact restSkipped outer ends isInside
  | @unclosed inside opening inner content opens _ contentSkipped =>
      have nothing : behind = [] := List.isEmpty_iff.mp ends
      have shape : flatAll [.block opening content none] ++ [] =
          opening :: (flatAll content ++ []) := by
        simp [Node.flat]
      rw [nothing, shape]
      change skipBlocks (bracket :: outer) (opening :: (flatAll content ++ [])) = []
      rw [skipBlocks, opens]
      dsimp only
      rw [contentSkipped (bracket :: outer) rfl rfl]
      rfl

/-- A block's content is placed and ends at what closes the block; from there the block is left. -/
theorem Placed.block {inside : Option Bracket} {opening : Lexeme} {closing : Option Lexeme}
    {content rest : List Node} {behind : List Lexeme}
    (placed : Placed inside behind.isEmpty (.block opening content closing :: rest)) :
    ∃ bracket, opening.token.opens = some bracket ∧
      Placed (some bracket) (closing.toList ++ (flatAll rest ++ behind)).isEmpty content ∧
      (∀ first others, closing.toList ++ (flatAll rest ++ behind) = first :: others →
        first.token = .closing bracket) ∧
      skipBlocks [bracket] (closing.toList ++ (flatAll rest ++ behind)) =
        flatAll rest ++ behind := by
  generalize isFlag : behind.isEmpty = atEnd at placed
  cases placed with
  | @closed _ _ _ closing bracket _ _ opens closes contentPlaced _ =>
      refine ⟨bracket, opens, contentPlaced, ?_, ?_⟩
      · intro first others parts
        rw [← (List.cons.inj parts).1]
        exact closes
      · rw [Option.toList_some, List.singleton_append, skipBlocks_closing closes, skipBlocks_nil]
  | @unclosed _ _ bracket _ opens contentPlaced =>
      have nothing : behind = [] := List.isEmpty_iff.mp isFlag
      rw [nothing]
      refine ⟨bracket, opens, contentPlaced, ?_, rfl⟩
      intro first others parts
      cases parts

theorem Placed.skipBlocks_inner {inside : Option Bracket} {node : Node} {rest : List Node}
    {behind : List Lexeme} (placed : Placed inside behind.isEmpty (node :: rest)) :
    skipBlocks node.token.opens.toList (node.inner ++ (flatAll rest ++ behind)) =
      flatAll rest ++ behind := by
  cases node with
  | leaf lexeme =>
      have opens : lexeme.token.opens = none :=
        Option.not_isSome_iff_eq_none.mp
          (Bool.eq_false_iff.mp (placed.isSome_opens List.mem_cons_self))
      change skipBlocks lexeme.token.opens.toList _ = _
      rw [opens]
      exact skipBlocks_nil _
  | block opening content closing =>
      obtain ⟨bracket, opens, contentPlaced, _, left⟩ := placed.block
      change skipBlocks opening.token.opens.toList _ = _
      rw [opens, Node.inner, List.append_assoc]
      exact (contentPlaced.skipBlocks_flatAll [] rfl).trans left

end ComponentStyles.Css
