import ComponentStyles.Css.Node

/-!
Nesting of lexemes read one after the other.

Lexemes that close every bracket they open become nodes of their own, whatever stands around
them.  Behind an open bracket the same holds up to the first bracket that closes it.
-/

namespace ComponentStyles.Css

namespace Nesting

/-- The blocks still open, the outermost of which follows the nodes of the base. -/
def stackOn (base : Nesting) : List OpenBlock → List OpenBlock
  | [] => base.stack
  | [outermost] =>
      { outermost with before := outermost.before ++ base.current } :: base.stack
  | block :: inner :: rest => block :: stackOn base (inner :: rest)

/-- The same nodes and open blocks, read in the innermost block of the base and behind its
nodes. -/
def on (nesting base : Nesting) : Nesting :=
  match nesting.stack with
  | [] => { stack := base.stack, current := nesting.current ++ base.current }
  | block :: rest => { stack := stackOn base (block :: rest), current := nesting.current }

def ClosedBy (nesting : Nesting) (lexeme : Lexeme) : Prop :=
  ∃ innermost outer, nesting.stack = innermost :: outer ∧
    lexeme.token.closes.isSome ∧ innermost.opening.token.opens = lexeme.token.closes

theorem push_opening {lexeme : Lexeme} {bracket : Bracket}
    (opens : lexeme.token.opens = some bracket) (nesting : Nesting) :
    nesting.push lexeme =
      { stack := { opening := lexeme, before := nesting.current } :: nesting.stack
        current := [] } := by
  rw [push, opens]

theorem push_plain {lexeme : Lexeme} {nesting : Nesting} (opens : lexeme.token.opens = none)
    (notClosed : ¬ nesting.ClosedBy lexeme) : nesting.push lexeme = nesting.add (.leaf lexeme) := by
  unfold push
  rw [opens]
  dsimp only
  split
  · rename_i bracket innermost outer closes stack
    split
    · rename_i same
      refine absurd ⟨innermost, outer, stack, ?_, same.trans closes.symm⟩ notClosed
      rw [closes]
      rfl
    · rfl
  · rfl

theorem push_closing {lexeme : Lexeme} {nesting : Nesting} {innermost : OpenBlock}
    {outer : List OpenBlock} (opens : lexeme.token.opens = none)
    (stack : nesting.stack = innermost :: outer) (closes : lexeme.token.closes.isSome)
    (same : innermost.opening.token.opens = lexeme.token.closes) :
    nesting.push lexeme =
      { stack := outer
        current :=
          .block innermost.opening nesting.current.reverse (some lexeme) :: innermost.before } := by
  obtain ⟨bracket, closing⟩ := Option.isSome_iff_exists.mp closes
  unfold push
  rw [opens, closing, stack]
  dsimp only
  rw [if_pos (same.trans closing)]

/-- Reading on over the base and over the nesting behind it is the same, as long as the lexeme
does not close the innermost block of the base. -/
theorem push_on {nesting base : Nesting} {lexeme : Lexeme}
    (within : nesting.stack ≠ [] ∨ ¬ base.ClosedBy lexeme) :
    (nesting.on base).push lexeme = (nesting.push lexeme).on base := by
  obtain ⟨stack, current⟩ := nesting
  cases opens : lexeme.token.opens with
  | some bracket =>
      rw [push_opening opens, push_opening opens]
      cases stack <;> rfl
  | none =>
      by_cases closed : ClosedBy { stack, current } lexeme
      · obtain ⟨innermost, outer, same, closes, matching⟩ := closed
        dsimp only at same
        subst same
        have step := @push_closing lexeme { stack := innermost :: outer, current } innermost outer
          opens rfl closes matching
        rw [step]
        cases outer with
        | nil =>
            have stepOn := @push_closing lexeme
              (on { stack := [innermost], current } base) _ _ opens rfl closes matching
            rw [stepOn]
            rfl
        | cons second rest =>
            have stepOn := @push_closing lexeme
              (on { stack := innermost :: second :: rest, current } base) _ _ opens rfl closes
              matching
            rw [stepOn]
            rfl
      · rw [push_plain opens closed]
        cases stack with
        | nil =>
            have notClosed := within.resolve_left fun nonempty => nonempty rfl
            exact push_plain opens notClosed
        | cons innermost outer =>
            refine push_plain opens ?_
            rintro ⟨found, others, same, closes, matching⟩
            refine closed ⟨innermost, outer, rfl, closes, ?_⟩
            rw [← matching]
            cases outer with
            | nil =>
                obtain ⟨rfl, _⟩ := List.cons.inj same
                rfl
            | cons second rest =>
                obtain ⟨rfl, _⟩ := List.cons.inj same
                rfl

theorem stack_on_eq_nil {nesting base : Nesting} (closed : base.stack = []) :
    (nesting.on base).stack = [] ↔ nesting.stack = [] := by
  obtain ⟨stack, current⟩ := nesting
  match stack with
  | [] => exact iff_of_true closed rfl
  | [outermost] => exact iff_of_false (List.cons_ne_nil _ _) (List.cons_ne_nil _ _)
  | block :: inner :: rest => exact iff_of_false (List.cons_ne_nil _ _) (List.cons_ne_nil _ _)

theorem foldl_push_on {base : Nesting} (closed : base.stack = []) (lexemes : List Lexeme)
    (nesting : Nesting) :
    lexemes.foldl push (nesting.on base) = (lexemes.foldl push nesting).on base := by
  induction lexemes generalizing nesting with
  | nil => rfl
  | cons lexeme rest inductionHypothesis =>
      have notClosed : ¬ base.ClosedBy lexeme := by
        rintro ⟨innermost, outer, stack, _⟩
        rw [closed] at stack
        cases stack
      rw [List.foldl_cons, List.foldl_cons, push_on (Or.inr notClosed), inductionHypothesis]

/-- Reading goes on behind the base as it does by itself, to the end or up to the lexeme that
closes the innermost block of the base. -/
theorem foldl_push_on_or_closed (base : Nesting) (lexemes : List Lexeme) (nesting : Nesting) :
    lexemes.foldl push (nesting.on base) = (lexemes.foldl push nesting).on base ∨
      ∃ front closer back, lexemes = front ++ closer :: back ∧
        front.foldl push (nesting.on base) = (front.foldl push nesting).on base ∧
        (front.foldl push nesting).stack = [] ∧ base.ClosedBy closer := by
  induction lexemes generalizing nesting with
  | nil => exact Or.inl rfl
  | cons lexeme rest inductionHypothesis =>
      by_cases closes : nesting.stack = [] ∧ base.ClosedBy lexeme
      · exact Or.inr ⟨[], lexeme, rest, rfl, rfl, closes.1, closes.2⟩
      · have within : nesting.stack ≠ [] ∨ ¬ base.ClosedBy lexeme :=
          Decidable.not_and_iff_not_or_not.mp closes
        have step := push_on within
        rcases inductionHypothesis (nesting.push lexeme) with same | found
        · left
          rw [List.foldl_cons, List.foldl_cons, step, same]
        · right
          obtain ⟨front, closer, back, parts, same, level, closed⟩ := found
          refine ⟨lexeme :: front, closer, back, ?_, ?_, level, closed⟩
          · rw [parts, List.cons_append]
          · rw [List.foldl_cons, List.foldl_cons, step, same]

end Nesting

def nestingOf (lexemes : List Lexeme) : Nesting :=
  lexemes.foldl Nesting.push .empty

/-- The lexemes close every bracket they open.  They may close others, too. -/
def Nested (lexemes : List Lexeme) : Prop :=
  (nestingOf lexemes).stack = []

theorem Nested.nodesOf_eq {lexemes : List Lexeme} (nested : Nested lexemes) :
    nodesOf lexemes = (nestingOf lexemes).current.reverse := by
  have stack : (lexemes.foldl Nesting.push .empty).stack = [] := nested
  unfold nodesOf Nesting.close
  rw [stack]
  rfl

theorem nestingOf_append {front : List Lexeme} (nested : Nested front) (back : List Lexeme) :
    nestingOf (front ++ back) = (nestingOf back).on (nestingOf front) := by
  unfold nestingOf
  rw [List.foldl_append]
  exact Nesting.foldl_push_on nested back .empty

theorem nested_append_iff {front : List Lexeme} (nested : Nested front) (back : List Lexeme) :
    Nested (front ++ back) ↔ Nested back := by
  unfold Nested
  rw [nestingOf_append nested]
  exact Nesting.stack_on_eq_nil nested

theorem Nested.nodesOf_append {front back : List Lexeme} (nested : Nested front)
    (backNested : Nested back) : nodesOf (front ++ back) = nodesOf front ++ nodesOf back := by
  have joined := (nested_append_iff nested back).mpr backNested
  have stack : (nestingOf back).stack = [] := backNested
  rw [joined.nodesOf_eq, nested.nodesOf_eq, backNested.nodesOf_eq, nestingOf_append nested]
  unfold Nesting.on
  rw [stack]
  exact List.reverse_append

theorem nestingOf_singleton {lexeme : Lexeme} (opens : lexeme.token.opens = none) :
    nestingOf [lexeme] = { stack := [], current := [.leaf lexeme] } := by
  refine Nesting.push_plain opens ?_
  rintro ⟨innermost, outer, stack, _⟩
  cases stack

theorem nested_singleton {lexeme : Lexeme} (opens : lexeme.token.opens = none) :
    Nested [lexeme] := by
  unfold Nested
  rw [nestingOf_singleton opens]

theorem nodesOf_singleton {lexeme : Lexeme} (opens : lexeme.token.opens = none) :
    nodesOf [lexeme] = [.leaf lexeme] := by
  rw [(nested_singleton opens).nodesOf_eq, nestingOf_singleton opens]
  rfl

theorem nodesOf_cons {lexeme : Lexeme} (opens : lexeme.token.opens = none) {rest : List Lexeme}
    (nested : Nested rest) : nodesOf (lexeme :: rest) = .leaf lexeme :: nodesOf rest := by
  rw [← List.singleton_append, (nested_singleton opens).nodesOf_append nested,
    nodesOf_singleton opens, List.singleton_append]

theorem nested_cons_iff {lexeme : Lexeme} (opens : lexeme.token.opens = none)
    (rest : List Lexeme) : Nested (lexeme :: rest) ↔ Nested rest :=
  nested_append_iff (nested_singleton opens) rest

theorem opens_of_blank {lexeme : Lexeme} (isBlank : lexeme.token = .blank) :
    lexeme.token.opens = none := by
  rw [isBlank]
  rfl

theorem opens_of_closing {lexeme : Lexeme} {bracket : Bracket}
    (isClosing : lexeme.token = .closing bracket) : lexeme.token.opens = none := by
  rw [isClosing]
  rfl

theorem nested_of_concat_blank {front : List Lexeme} {blank : Lexeme}
    (isBlank : blank.token = .blank) (nested : Nested (front ++ [blank])) : Nested front := by
  have notClosed : ¬ (nestingOf front).ClosedBy blank := by
    rintro ⟨_, _, _, closes, _⟩
    rw [isBlank] at closes
    cases closes
  have step : nestingOf (front ++ [blank]) = (nestingOf front).push blank := by
    unfold nestingOf
    rw [List.foldl_append, List.foldl_cons, List.foldl_nil]
  unfold Nested at nested ⊢
  rw [step, Nesting.push_plain (opens_of_blank isBlank) notClosed] at nested
  exact nested

theorem closes_round {lexeme : Lexeme} (closing : lexeme.token.closes = some .round) :
    lexeme.token = .closing .round := by
  cases token : lexeme.token with
  | closing bracket =>
      rw [token] at closing
      rw [Option.some.inj closing]
  | _ =>
      rw [token] at closing
      cases closing

section Function

variable {function : Lexeme} {name : String} (isFunction : function.token = .function name)
include isFunction

def functionBlock (function : Lexeme) : Nesting :=
  { stack := [{ opening := function, before := [] }], current := [] }

theorem nestingOf_function (rest : List Lexeme) :
    nestingOf (function :: rest) =
      rest.foldl Nesting.push (Nesting.empty.on (functionBlock function)) := by
  have opens : function.token.opens = some .round := by
    rw [isFunction]
    rfl
  unfold nestingOf
  rw [List.foldl_cons, Nesting.push_opening opens]
  rfl

theorem nodesOf_function_of_same {content : List Lexeme} (nested : Nested content)
    (same : content.foldl Nesting.push (Nesting.empty.on (functionBlock function)) =
      (nestingOf content).on (functionBlock function))
    {closing : Lexeme} (isClosing : closing.token = .closing .round) :
    Nested (function :: (content ++ [closing])) ∧
      nodesOf (function :: (content ++ [closing])) =
        [.block function (nodesOf content) (some closing)] := by
  have stack : (nestingOf content).stack = [] := nested
  have inside : (nestingOf content).on (functionBlock function) =
      { stack := [{ opening := function, before := [] }]
        current := (nestingOf content).current } := by
    unfold Nesting.on
    rw [stack]
    exact congrArg (Nesting.mk _) (List.append_nil _)
  have whole : nestingOf (function :: (content ++ [closing])) =
      { stack := []
        current := [.block function (nestingOf content).current.reverse (some closing)] } := by
    rw [nestingOf_function isFunction, List.foldl_append, same, inside, List.foldl_cons,
      List.foldl_nil]
    have closes : closing.token.closes.isSome := by
      rw [isClosing]
      rfl
    have matching : function.token.opens = closing.token.closes := by
      rw [isFunction, isClosing]
      rfl
    exact @Nesting.push_closing closing
      { stack := [{ opening := function, before := [] }]
        current := (nestingOf content).current } _ _ (opens_of_closing isClosing) rfl closes
      matching
  have wholeNested : Nested (function :: (content ++ [closing])) := by
    unfold Nested
    rw [whole]
  refine ⟨wholeNested, ?_⟩
  rw [wholeNested.nodesOf_eq, whole, nested.nodesOf_eq]
  rfl

/-- What becomes of nested lexemes inside a function: its content, or, if a bracket among them
closes the function, its content up to there and nodes behind it. -/
theorem nodesOf_function {content : List Lexeme} (nested : Nested content) {closing : Lexeme}
    (isClosing : closing.token = .closing .round) :
    nodesOf (function :: (content ++ [closing])) =
        [.block function (nodesOf content) (some closing)] ∨
      ∃ front closer back, closer.token = .closing .round ∧
        nodesOf content = nodesOf front ++ .leaf closer :: nodesOf back ∧
        nodesOf (function :: (content ++ [closing])) =
          .block function (nodesOf front) (some closer) :: (nodesOf back ++ [.leaf closing]) := by
  rcases Nesting.foldl_push_on_or_closed (functionBlock function) content .empty with
    same | ⟨front, closer, back, parts, same, level, innermost, outer, stack, closes, matching⟩
  · exact Or.inl (nodesOf_function_of_same isFunction nested same isClosing).2
  · right
    obtain ⟨isInnermost, _⟩ := List.cons.inj stack
    have isCloser : closer.token = .closing .round := by
      refine closes_round (matching.symm.trans ?_)
      rw [← isInnermost]
      exact congrArg Token.opens isFunction
    have frontNested : Nested front := level
    have backNested : Nested back := by
      rw [parts, nested_append_iff frontNested, nested_cons_iff (opens_of_closing isCloser)]
        at nested
      exact nested
    obtain ⟨functionNested, functionNodes⟩ :=
      nodesOf_function_of_same isFunction frontNested same isCloser
    have behindNested : Nested (back ++ [closing]) :=
      (nested_append_iff backNested _).mpr (nested_singleton (opens_of_closing isClosing))
    have rearranged : function :: (content ++ [closing]) =
        (function :: (front ++ [closer])) ++ (back ++ [closing]) := by
      rw [parts]
      simp
    refine ⟨front, closer, back, isCloser, ?_, ?_⟩
    · rw [parts, frontNested.nodesOf_append
        ((nested_cons_iff (opens_of_closing isCloser) back).mpr backNested),
        nodesOf_cons (opens_of_closing isCloser) backNested]
    · rw [rearranged, functionNested.nodesOf_append behindNested, functionNodes,
        backNested.nodesOf_append (nested_singleton (opens_of_closing isClosing)),
        nodesOf_singleton (opens_of_closing isClosing), List.singleton_append]

end Function

end ComponentStyles.Css
