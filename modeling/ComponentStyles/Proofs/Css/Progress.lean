import ComponentStyles.Proofs.Css.Loop
import ComponentStyles.Proofs.Css.Round
import ComponentStyles.Proofs.Css.Seeker

/-!
The loops that read a stylesheet.

The rules of a list, the declarations of a block and the references in a value are read by three
loops.  An iteration of the first or the last that comes to a block runs its loop on the content of
the block, and one that keeps a rule has run the second loop in the block of the rule.  Every
iteration that goes on moves the cursor strictly forward, so each loop is left on every text,
however malformed, with the result of the reader.
-/

namespace ComponentStyles.Css

open Cursor

theorem Cursor.settled_leave (bracket : Bracket) (cursor : Cursor) :
    (cursor.leave bracket).settled = (cursor.leave bracket).ahead :=
  settled_facing _

/-! ### Rules -/

structure RulesState where
  delimiters : List Delimiter
  condition : Option String
  cursor : Cursor
  found : List Rule

namespace RulesState

def start (text : String) : RulesState :=
  { delimiters := [], condition := none, cursor := facing (lexemes text.toList), found := [] }

def reading (state : RulesState) : RulesReading :=
  readRules state.delimiters state.condition state.cursor state.found

def round (state : RulesState) : Round :=
  readRound state.delimiters state.cursor

def inGroup (state : RulesState) (header : String) (after : Cursor) : RulesState :=
  { delimiters := [.closing .curly]
    condition := some (nestedCondition state.condition header)
    cursor := facing after.ahead
    found := state.found }

def behindGroup (state : RulesState) (block : RulesReading) : Iteration RulesState RulesReading :=
  match block.blockResult with
  | .error fault =>
      .failed { result := .error fault, cursor := block.behind, found := block.found }
  | .ok _ => .goesOn { state with cursor := block.behind, found := block.found }

end RulesState

inductive RulesIteration : RulesState → Iteration RulesState RulesReading → Prop where
  | ended {state : RulesState} {after : Cursor} :
      state.round = .ended (.ok ()) after →
        RulesIteration state (.left { result := .ok (), cursor := after, found := state.found })
  | failed {state : RulesState} {fault : Fault} {after : Cursor} :
      state.round = .ended (.error fault) after →
        RulesIteration state
          (.failed { result := .error fault, cursor := after, found := state.found })
  | passed {state : RulesState} {after : Cursor} :
      state.round = .passed after →
        RulesIteration state (.goesOn { state with cursor := after })
  | kept {state : RulesState} {selector : String} {declarations : List Declaration}
      {after : Cursor} :
      state.round = .kept selector declarations after →
        RulesIteration state
          (.goesOn
            { state with
              cursor := after
              found := state.found ++ [⟨state.condition, selector, declarations⟩] })
  | group {state : RulesState} {header : String} {after : Cursor} {block : RulesReading}
      {count : Nat} :
      state.round = .entered header after →
      LoopRun RulesIteration (state.inGroup header after) block count →
        RulesIteration state (state.behindGroup block)

/-- The states that reading the text leads to, those at the content of a group included. -/
inductive RulesState.Reached (text : String) : RulesState → Prop where
  | start : Reached text (.start text)
  | next {state next : RulesState} :
      Reached text state → RulesIteration state (.goesOn next) → Reached text next
  | inGroup {state : RulesState} {header : String} {after : Cursor} :
      Reached text state → state.round = .entered header after →
        Reached text (state.inGroup header after)

namespace RulesState

theorem reading_suffix (state : RulesState) :
    state.reading.cursor.settled <:+ state.cursor.settled :=
  (readRulesFrom state.delimiters state.condition state.cursor state.found).2

theorem failed_left {state : RulesState} {fault : Fault} {after : Cursor}
    (round : state.round = .ended (.error fault) after) : 0 < lexemesLeft cursor state := by
  have start := ((settled_suffix _).trans state.cursor.passSeparators_suffix).length_le
  unfold RulesState.round readRound at round
  dsimp only at round
  split at round
  · cases round
  · rename_i token read
    exact Nat.zero_lt_of_lt (Nat.lt_of_lt_of_le (length_next_lt read) start)

theorem settled_inGroup (state : RulesState) (header : String) (after : Cursor) :
    (state.inGroup header after).cursor.settled = after.ahead :=
  settled_facing after.ahead

section Group

variable {state : RulesState} {header : String} {after : Cursor}
  (round : state.round = .entered header after)
include round

theorem inGroup_nearer :
    lexemesLeft cursor (state.inGroup header after) < lexemesLeft cursor state := by
  unfold lexemesLeft
  rw [settled_inGroup]
  exact (settled_of_round round rfl).2

theorem behindGroup_continues :
    (state.behindGroup (state.inGroup header after).reading).Continues cursor reading state := by
  obtain ⟨stands, fewer⟩ := settled_of_round round rfl
  have inside := (state.inGroup header after).reading_suffix
  rw [settled_inGroup] at inside
  have left := RulesReading.behind_suffix inside
  rw [RulesReading.behind, settled_leave] at left
  have same : state.reading =
      match (state.inGroup header after).reading.blockResult with
      | .error fault => _
      | .ok _ => _ :=
    readRules_entered state.condition state.found round
  unfold behindGroup
  cases blockResult : (state.inGroup header after).reading.blockResult with
  | error fault =>
      rw [blockResult] at same
      exact ⟨same.symm, Nat.zero_lt_of_lt fewer⟩
  | ok _ =>
      rw [blockResult] at same
      exact ⟨left.trans stands, Nat.lt_of_le_of_lt left.length_le fewer, same.symm⟩

end Group

end RulesState

theorem RulesIteration.sound (state : RulesState)
    (behind : SoundBehind RulesState.cursor RulesIteration RulesState.reading state)
    (outcome : Iteration RulesState RulesReading) (does : RulesIteration state outcome) :
    outcome.Continues RulesState.cursor RulesState.reading state := by
  cases does with
  | ended round => exact (readRules_ended state.condition state.found round).symm
  | failed round =>
      exact ⟨(readRules_ended state.condition state.found round).symm, RulesState.failed_left round⟩
  | passed round =>
      obtain ⟨stands, fewer⟩ := settled_of_round round rfl
      exact ⟨stands, fewer, (readRules_passed state.condition state.found round).symm⟩
  | kept round =>
      obtain ⟨stands, fewer⟩ := settled_of_round round rfl
      exact ⟨stands, fewer, (readRules_kept state.condition state.found round).symm⟩
  | group round run =>
      -- The content of the group is nearer to the end, so the run in it comes to its reading.
      obtain rfl := behind _ _ _ (RulesState.inGroup_nearer round) run
      exact RulesState.behindGroup_continues round

theorem RulesIteration.total (state : RulesState)
    (ends : EndsBehind RulesState.cursor RulesIteration RulesState.reading state) :
    ∃ outcome, RulesIteration state outcome := by
  cases round : state.round with
  | ended result after =>
      cases result with
      | ok _ => exact ⟨_, .ended round⟩
      | error fault => exact ⟨_, .failed round⟩
  | passed after => exact ⟨_, .passed round⟩
  | kept selector declarations after => exact ⟨_, .kept round⟩
  | entered header after =>
      obtain ⟨count, run⟩ := ends _ (RulesState.inGroup_nearer round)
      exact ⟨_, .group round run⟩

theorem RulesState.Reached.standsIn {text : String} {state : RulesState}
    (reached : Reached text state) : state.cursor.StandsIn text := by
  induction reached with
  | start => exact List.suffix_refl _
  | next _ does inductionHypothesis =>
      exact Iteration.standsIn RulesIteration.sound does inductionHypothesis
  | @inGroup state _ _ _ round inductionHypothesis =>
      have behind := (settled_of_round round rfl).1
      exact (behind.trans (settled_suffix state.cursor)).trans inductionHypothesis

/-! ### Declarations -/

structure DeclarationsState where
  delimiters : List Delimiter
  cursor : Cursor
  found : List Declaration

namespace DeclarationsState

def atBlock (cursor : Cursor) : DeclarationsState :=
  { delimiters := [.closing .curly], cursor := facing cursor.ahead, found := [] }

def reading (state : DeclarationsState) : Reading (List Declaration) :=
  readDeclarationsFrom state.delimiters state.cursor state.found

def piece (state : DeclarationsState) : Reading Declaration :=
  state.cursor.readPast state.delimiters [.semicolon] readDeclaration

theorem piece_suffix (state : DeclarationsState) :
    state.piece.cursor.ahead <:+ state.cursor.settled :=
  readPast_suffix readDeclaration_forward state.delimiters [.semicolon] state.cursor

section Left

variable {state : DeclarationsState} (left : state.cursor.isExhausted state.delimiters = false)
include left

theorem length_piece_lt : state.piece.cursor.ahead.length < state.cursor.settled.length :=
  length_readPast_lt readDeclaration_forward left

theorem reading_of_left :
    state.reading =
      match state.piece.result with
      | .ok declaration =>
          readDeclarationsFrom state.delimiters state.piece.cursor (state.found ++ [declaration])
      | .error _ => readDeclarationsFrom state.delimiters state.piece.cursor state.found := by
  rw [reading, readDeclarationsFrom, dif_neg (Bool.eq_false_iff.mp left)]
  rfl

end Left

end DeclarationsState

inductive DeclarationsIteration :
    DeclarationsState → Iteration DeclarationsState (Reading (List Declaration)) → Prop where
  | exhausted {state : DeclarationsState} :
      state.cursor.isExhausted state.delimiters = true →
        DeclarationsIteration state
          (.left { result := .ok state.found, cursor := state.cursor })
  | kept {state : DeclarationsState} {declaration : Declaration} :
      state.cursor.isExhausted state.delimiters = false →
      state.piece.result = .ok declaration →
        DeclarationsIteration state
          (.goesOn
            { state with cursor := state.piece.cursor, found := state.found ++ [declaration] })
  | dropped {state : DeclarationsState} {fault : Fault} :
      state.cursor.isExhausted state.delimiters = false →
      state.piece.result = .error fault →
        DeclarationsIteration state (.goesOn { state with cursor := state.piece.cursor })

theorem DeclarationsIteration.sound (state : DeclarationsState)
    (_ : SoundBehind DeclarationsState.cursor DeclarationsIteration DeclarationsState.reading state)
    (outcome : Iteration DeclarationsState (Reading (List Declaration)))
    (does : DeclarationsIteration state outcome) :
    outcome.Continues DeclarationsState.cursor DeclarationsState.reading state := by
  cases does with
  | exhausted exhausted =>
      have same : state.reading = _ := readDeclarationsFrom.eq_def _ _ _
      rw [dif_pos exhausted] at same
      exact same.symm
  | kept left read =>
      have same := DeclarationsState.reading_of_left left
      rw [read] at same
      exact ⟨state.piece_suffix, DeclarationsState.length_piece_lt left, same.symm⟩
  | dropped left read =>
      have same := DeclarationsState.reading_of_left left
      rw [read] at same
      exact ⟨state.piece_suffix, DeclarationsState.length_piece_lt left, same.symm⟩

theorem DeclarationsIteration.total (state : DeclarationsState) :
    ∃ outcome, DeclarationsIteration state outcome := by
  cases left : state.cursor.isExhausted state.delimiters with
  | true => exact ⟨_, .exhausted left⟩
  | false =>
      cases read : state.piece.result with
      | ok declaration => exact ⟨_, .kept left read⟩
      | error fault => exact ⟨_, .dropped left read⟩

def Cursor.behindPrelude (delimiters ending : List Delimiter) (cursor : Cursor) : Reading Unit :=
  (cursor.readUntil delimiters ending readRest).cursor.expect delimiters Token.curlyBlock?

theorem Cursor.behindPrelude_suffix (delimiters ending : List Delimiter) (cursor : Cursor) :
    (cursor.behindPrelude delimiters ending).cursor.ahead <:+ cursor.settled :=
  ((expect_suffix delimiters Token.curlyBlock? _).trans (settled_suffix _)).trans
    (readUntil_suffix readRest_forward delimiters ending cursor)

def RulesState.afterFirst (state : RulesState) : Cursor :=
  (state.cursor.passSeparators.next state.delimiters).cursor

theorem RulesState.afterFirst_suffix (state : RulesState) :
    state.afterFirst.ahead <:+ state.cursor.settled :=
  (state.cursor.passSeparators.next_suffix state.delimiters).trans
    ((settled_suffix _).trans state.cursor.passSeparators_suffix)

inductive DeclarationsState.Reached (text : String) : DeclarationsState → Prop where
  | opened {state : RulesState} {ending : List Delimiter} :
      RulesState.Reached text state →
      (state.afterFirst.behindPrelude state.delimiters ending).result = .ok () →
        Reached text (.atBlock (state.afterFirst.behindPrelude state.delimiters ending).cursor)
  | next {state next : DeclarationsState} :
      Reached text state → DeclarationsIteration state (.goesOn next) → Reached text next

theorem DeclarationsState.Reached.standsIn {text : String} {state : DeclarationsState}
    (reached : Reached text state) : state.cursor.StandsIn text := by
  induction reached with
  | @opened state ending reached _ =>
      have block := state.afterFirst.behindPrelude_suffix state.delimiters ending
      have first := (settled_suffix _).trans state.afterFirst_suffix
      exact ((block.trans first).trans (settled_suffix _)).trans reached.standsIn
  | next _ does inductionHypothesis =>
      exact Iteration.standsIn DeclarationsIteration.sound does inductionHypothesis

section Kept

variable {selector : String} {declarations : List Declaration} {after : Cursor}

theorem Cursor.result_of_readEntirely {α : Type} {delimiters : List Delimiter} {cursor : Cursor}
    {read : List Delimiter → Cursor → Reading α} {value : α}
    (succeeds : (cursor.readEntirely delimiters read).result = .ok value) :
    (read delimiters cursor).result = .ok value := by
  unfold readEntirely Reading.andThen at succeeds
  split at succeeds
  · rename_i found isFound
    dsimp only at succeeds
    cases isOver : (read delimiters cursor).cursor.demandEnd delimiters with
    | error fault =>
        rw [isOver] at succeeds
        cases succeeds
    | ok _ =>
        rw [isOver] at succeeds
        cases succeeds
        exact isFound
  · cases succeeds

theorem Round.result_of_keeping {header : String} {block : Reading (List Declaration)}
    (kept : Round.keeping header block = .kept selector declarations after) :
    block.result = .ok declarations := by
  unfold Round.keeping at kept
  split at kept
  · rename_i found isFound
    cases kept
    exact isFound
  · cases kept

/-- The declarations of a rule are what the loop comes to in its block. -/
theorem reading_of_keeping {header : String} {cursor : Cursor}
    (kept : Round.keeping header (cursor.readBlock .curly readDeclarations) =
      .kept selector declarations after) :
    (DeclarationsState.atBlock cursor).reading.result = .ok declarations := by
  have read : (cursor.readBlock .curly readDeclarations).result = .ok declarations :=
    Round.result_of_keeping kept
  unfold readBlock at read
  exact result_of_readEntirely read

theorem readAtRule_kept {delimiters : List Delimiter} {name : String} {cursor : Cursor}
    (kept : readAtRule delimiters name cursor = .kept selector declarations after) :
    ∃ ending, (cursor.behindPrelude delimiters ending).result = .ok () ∧
      (DeclarationsState.atBlock (cursor.behindPrelude delimiters ending).cursor).reading.result =
        .ok declarations := by
  refine ⟨[.curlyBlock, .semicolon], ?_⟩
  unfold readAtRule at kept
  dsimp only at kept
  split at kept
  · cases kept
  · split at kept
    · cases kept
    · rename_i opened
      split at kept
      · cases kept
      · exact ⟨opened, reading_of_keeping kept⟩
      · cases kept

theorem readStyleRule_kept {delimiters : List Delimiter} {start : List Lexeme} {cursor : Cursor}
    (kept : readStyleRule delimiters start cursor = .kept selector declarations after) :
    ∃ ending, (cursor.behindPrelude delimiters ending).result = .ok () ∧
      (DeclarationsState.atBlock (cursor.behindPrelude delimiters ending).cursor).reading.result =
        .ok declarations := by
  refine ⟨[.curlyBlock], ?_⟩
  unfold readStyleRule at kept
  dsimp only at kept
  split at kept
  · cases kept
  · split at kept
    · cases kept
    · rename_i opened
      exact ⟨opened, reading_of_keeping kept⟩

/-- A round that keeps a rule has run the loop over the declarations of its block. -/
theorem RulesState.Reached.exists_block {text : String} {state : RulesState}
    (reached : Reached text state) (kept : state.round = .kept selector declarations after) :
    ∃ block, DeclarationsState.Reached text block ∧ block.reading.result = .ok declarations := by
  have parts : ∃ ending, (state.afterFirst.behindPrelude state.delimiters ending).result = .ok () ∧
      (DeclarationsState.atBlock
        (state.afterFirst.behindPrelude state.delimiters ending).cursor).reading.result =
          .ok declarations := by
    unfold RulesState.round readRound at kept
    dsimp only at kept
    split at kept
    · cases kept
    · split at kept
      iterate 4 cases kept
      · exact readAtRule_kept kept
      · exact readStyleRule_kept kept
  obtain ⟨ending, opened, read⟩ := parts
  exact ⟨_, .opened reached opened, read⟩

end Kept

/-! ### References -/

structure SearchState where
  delimiters : List Delimiter
  cursor : Cursor
  found : List Reference

namespace SearchState

def start (value : String) : SearchState :=
  { delimiters := [], cursor := facing (lexemes value.toList), found := [] }

def reading (state : SearchState) : SearchReading :=
  readReferences state.delimiters state.cursor state.found

def round (state : SearchState) : SearchRound :=
  searchRound state.delimiters state.cursor

def inBlock (state : SearchState) (bracket : Bracket) (after : Cursor) : SearchState :=
  { delimiters := [.closing bracket], cursor := facing after.ahead, found := state.found }

def behindBlock (state : SearchState) (bracket : Bracket) (block : SearchReading) :
    Iteration SearchState SearchReading :=
  match block.blockResult bracket with
  | .error fault =>
      .failed { result := .error fault, cursor := block.behind bracket, found := block.found }
  | .ok _ => .goesOn { state with cursor := block.behind bracket, found := block.found }

end SearchState

inductive SearchIteration : SearchState → Iteration SearchState SearchReading → Prop where
  | ended {state : SearchState} {after : Cursor} :
      state.round = .ended after →
        SearchIteration state (.left { result := .ok (), cursor := after, found := state.found })
  | passed {state : SearchState} {reference : Option Reference} {after : Cursor} :
      state.round = .passed reference after →
        SearchIteration state
          (.goesOn { state with cursor := after, found := state.found ++ reference.toList })
  | argument {state : SearchState} {make : String → Reference} {after : Cursor} :
      state.round = .referring make after →
        SearchIteration state (state.behindBlock .round (.ofArgument make after state.found))
  | block {state : SearchState} {bracket : Bracket} {after : Cursor} {block : SearchReading}
      {count : Nat} :
      state.round = .entered bracket after →
      LoopRun SearchIteration (state.inBlock bracket after) block count →
        SearchIteration state (state.behindBlock bracket block)

/-- The states that searching the value leads to, those at the content of a block included. -/
inductive SearchState.Reached (value : String) : SearchState → Prop where
  | start : Reached value (.start value)
  | next {state next : SearchState} :
      Reached value state → SearchIteration state (.goesOn next) → Reached value next
  | inBlock {state : SearchState} {bracket : Bracket} {after : Cursor} :
      Reached value state → state.round = .entered bracket after →
        Reached value (state.inBlock bracket after)

namespace SearchState

theorem reading_suffix (state : SearchState) :
    state.reading.cursor.settled <:+ state.cursor.settled :=
  readReferences_suffix state.found

theorem settled_inBlock (state : SearchState) (bracket : Bracket) (after : Cursor) :
    (state.inBlock bracket after).cursor.settled = after.ahead :=
  settled_facing after.ahead

theorem inBlock_nearer {state : SearchState} {bracket : Bracket} {after : Cursor}
    (round : state.round = .entered bracket after) :
    lexemesLeft cursor (state.inBlock bracket after) < lexemesLeft cursor state := by
  unfold lexemesLeft
  rw [settled_inBlock]
  exact (settled_of_searchRound round rfl).2

theorem behindBlock_continues {state : SearchState} {bracket : Bracket} {after : Cursor}
    {block : SearchReading} (stands : after.ahead <:+ state.cursor.settled)
    (fewer : after.ahead.length < state.cursor.settled.length)
    (inside : block.cursor.settled <:+ after.ahead)
    (same : state.reading = block.andBehind bracket (readReferences state.delimiters)) :
    (state.behindBlock bracket block).Continues cursor reading state := by
  have left := SearchReading.behind_suffix bracket inside
  rw [SearchReading.behind, settled_leave] at left
  unfold SearchReading.andBehind at same
  unfold behindBlock
  cases blockResult : block.blockResult bracket with
  | error fault =>
      rw [blockResult] at same
      exact ⟨same.symm, Nat.zero_lt_of_lt fewer⟩
  | ok _ =>
      rw [blockResult] at same
      exact ⟨left.trans stands, Nat.lt_of_le_of_lt left.length_le fewer, same.symm⟩

end SearchState

theorem SearchIteration.sound (state : SearchState)
    (behind : SoundBehind SearchState.cursor SearchIteration SearchState.reading state)
    (outcome : Iteration SearchState SearchReading) (does : SearchIteration state outcome) :
    outcome.Continues SearchState.cursor SearchState.reading state := by
  cases does with
  | ended round => exact (readReferences_ended state.found round).symm
  | passed round =>
      obtain ⟨stands, fewer⟩ := settled_of_searchRound round rfl
      exact ⟨stands, fewer, (readReferences_passed state.found round).symm⟩
  | @argument _ make after round =>
      obtain ⟨stands, fewer⟩ := settled_of_searchRound round rfl
      exact SearchState.behindBlock_continues stands fewer
        (SearchReading.ofArgument_suffix make after state.found)
        (readReferences_referring state.found round)
  | @block _ bracket after block count round run =>
      obtain ⟨stands, fewer⟩ := settled_of_searchRound round rfl
      have inside := (state.inBlock bracket after).reading_suffix
      rw [SearchState.settled_inBlock] at inside
      obtain rfl := behind _ _ _ (SearchState.inBlock_nearer round) run
      exact SearchState.behindBlock_continues stands fewer inside
        (readReferences_entered state.found round)

theorem SearchIteration.total (state : SearchState)
    (ends : EndsBehind SearchState.cursor SearchIteration SearchState.reading state) :
    ∃ outcome, SearchIteration state outcome := by
  cases round : state.round with
  | ended after => exact ⟨_, .ended round⟩
  | passed reference after => exact ⟨_, .passed round⟩
  | referring make after => exact ⟨_, .argument round⟩
  | entered bracket after =>
      obtain ⟨count, run⟩ := ends _ (SearchState.inBlock_nearer round)
      exact ⟨_, .block round run⟩

theorem SearchState.Reached.standsIn {value : String} {state : SearchState}
    (reached : Reached value state) : state.cursor.StandsIn value := by
  induction reached with
  | start => exact List.suffix_refl _
  | next _ does inductionHypothesis =>
      exact Iteration.standsIn SearchIteration.sound does inductionHypothesis
  | @inBlock state _ _ _ round inductionHypothesis =>
      have behind := (settled_of_searchRound round rfl).1
      exact (behind.trans (settled_suffix state.cursor)).trans inductionHypothesis

/-- The loop over rules comes to the rules of the text, if it has any, and to a fault if not. -/
theorem rules_reading (text : String) (found : List Rule) :
    rules text = .ok found ↔
      (RulesState.start text).reading.result = .ok () ∧
        (RulesState.start text).reading.found = found := by
  have read : readText text = (RulesState.start text).reading.result.map
      fun _ => (RulesState.start text).reading.found := rfl
  have same : rules text = .ok found ↔ readText text = .ok found := by
    obtain ⟨enclosed, bares, list⟩ := ruleList_total (nodes text.toList)
    cases bares with
    | nil =>
        rw [list.rules_eq, list.readText_eq]
        exact ⟨fun ended => congrArg Except.ok (Except.ok.inj ended),
          fun ended => congrArg Except.ok (Except.ok.inj ended)⟩
    | cons bare others =>
        rw [list.rules_fault, list.readText_fault]
        exact ⟨nofun, nofun⟩
  rw [same, read]
  cases (RulesState.start text).reading.result with
  | ok _ => exact ⟨fun ended => ⟨rfl, Except.ok.inj ended⟩, fun ended => congrArg Except.ok ended.2⟩
  | error fault => exact ⟨nofun, fun ended => nomatch ended.1⟩

/-- The loops over rules, declarations and references advance through every text.  What the first
comes to are the rules of the text, with the declarations that the second comes to in their blocks;
what the last comes to are the references in the text, as in the text of a value. -/
theorem loops_advance (text : String) :
    Advances RulesState.cursor RulesIteration RulesState.reading (RulesState.Reached text) text ∧
      Advances DeclarationsState.cursor DeclarationsIteration DeclarationsState.reading
        (DeclarationsState.Reached text) text ∧
      Advances SearchState.cursor SearchIteration SearchState.reading
        (SearchState.Reached text) text ∧
      (∀ found, rules text = .ok found ↔
        (RulesState.start text).reading.result = .ok () ∧
          (RulesState.start text).reading.found = found) ∧
      (∀ state, RulesState.Reached text state → ∀ selector declarations after,
        state.round = .kept selector declarations after →
          ∃ block, DeclarationsState.Reached text block ∧
            block.reading.result = .ok declarations) ∧
      references text = (SearchState.start text).reading.found := by
  refine ⟨?_, ?_, ?_, rules_reading text, fun _ reached _ _ _ kept => reached.exists_block kept,
    (seekReferences_eq text).symm⟩
  · exact advances_of_body RulesIteration.sound RulesIteration.total
      fun _ reached => reached.standsIn
  · exact advances_of_body DeclarationsIteration.sound
      (fun state _ => DeclarationsIteration.total state) fun _ reached => reached.standsIn
  · exact advances_of_body SearchIteration.sound SearchIteration.total
      fun _ reached => reached.standsIn

end ComponentStyles.Css
