import ComponentStyles.Css.Cursor

/-!
Loops over a text.

A loop repeats its body from state to state until it is left with a result.  If every iteration
that goes on moves a cursor towards the end of its text, the loop is left on every text, after at
most as many iterations as there are bytes ahead of the cursor.  A body may run the loop itself
for a stretch further on; then what holds of the loops nearer to the end is known when the body is
looked at.
-/

namespace ComponentStyles.Css

inductive Iteration (σ ρ : Type) where
  | left (result : ρ)
  | failed (result : ρ)
  | goesOn (state : σ)

/-- The loop that repeats the body is left with the result after so many iterations, one that fails
among them.  That there is nothing left to do is not counted. -/
inductive LoopRun {σ ρ : Type} (body : σ → Iteration σ ρ → Prop) : σ → ρ → Nat → Prop where
  | left {state : σ} {result : ρ} : body state (.left result) → LoopRun body state result 0
  | failed {state : σ} {result : ρ} : body state (.failed result) → LoopRun body state result 1
  | goesOn {state next : σ} {result : ρ} {count : Nat} :
      body state (.goesOn next) → LoopRun body next result count →
        LoopRun body state result (count + 1)

def bytesOf (ahead : List Lexeme) : Nat :=
  (String.ofList (ahead.flatMap Lexeme.text)).utf8ByteSize

theorem bytesOf_append (front back : List Lexeme) :
    bytesOf (front ++ back) = bytesOf front + bytesOf back := by
  rw [bytesOf, List.flatMap_append, String.ofList_append, String.utf8ByteSize_append]
  rfl

theorem length_le_bytesOf {ahead : List Lexeme} (written : ∀ lexeme ∈ ahead, lexeme.text ≠ []) :
    ahead.length ≤ bytesOf ahead := by
  induction ahead with
  | nil => exact Nat.zero_le _
  | cons lexeme rest inductionHypothesis =>
      have first : 0 < bytesOf [lexeme] := by
        refine Nat.pos_of_ne_zero fun none => written lexeme List.mem_cons_self ?_
        rw [bytesOf, List.flatMap_singleton, String.utf8ByteSize_eq_zero_iff,
          String.ofList_eq_empty_iff] at none
        exact none
      have others := inductionHypothesis fun other among =>
        written other (List.mem_cons_of_mem lexeme among)
      rw [← List.singleton_append, bytesOf_append, List.length_append, List.length_singleton]
      omega

namespace Cursor

def StandsIn (text : String) (cursor : Cursor) : Prop :=
  cursor.ahead <:+ lexemes text.toList

def bytesLeft (cursor : Cursor) : Nat :=
  bytesOf cursor.ahead

def position (text : String) (cursor : Cursor) : Nat :=
  text.utf8ByteSize - cursor.bytesLeft

theorem bytesOf_lexemes (text : String) : bytesOf (lexemes text.toList) = text.utf8ByteSize := by
  rw [bytesOf, lexemes_flatMap_text, String.ofList_toList]

/-- Between two places of a text there are at least as many bytes as lexemes. -/
theorem StandsIn.length_add_bytesLeft_le {text : String} {cursor next : Cursor}
    (stands : cursor.StandsIn text) (behind : next.ahead <:+ cursor.ahead) :
    cursor.ahead.length + next.bytesLeft ≤ cursor.bytesLeft + next.ahead.length := by
  obtain ⟨passed, parts⟩ := behind
  have written : ∀ lexeme ∈ passed, lexeme.text ≠ [] := by
    intro lexeme among
    have inside : lexeme ∈ cursor.ahead := parts ▸ List.mem_append_left _ among
    exact text_ne_nil_of_mem_lexemes (stands.subset inside)
  have counted := length_le_bytesOf written
  rw [bytesLeft, bytesLeft, ← parts, bytesOf_append, List.length_append]
  omega

theorem StandsIn.length_le_bytesLeft {text : String} {cursor : Cursor}
    (stands : cursor.StandsIn text) : cursor.ahead.length ≤ cursor.bytesLeft :=
  length_le_bytesOf fun _ among => text_ne_nil_of_mem_lexemes (stands.subset among)

theorem StandsIn.position_lt {text : String} {cursor next : Cursor} (stands : cursor.StandsIn text)
    (behind : next.ahead <:+ cursor.ahead) (fewer : next.ahead.length < cursor.ahead.length) :
    cursor.position text < next.position text := by
  have between := stands.length_add_bytesLeft_le behind
  obtain ⟨passed, parts⟩ := stands
  have whole := bytesOf_append passed cursor.ahead
  rw [parts, bytesOf_lexemes] at whole
  unfold position bytesLeft at *
  omega

end Cursor

open Cursor

section Advances

variable {σ ρ : Type} (cursorOf : σ → Cursor) (body : σ → Iteration σ ρ → Prop) (answer : σ → ρ)

/-- All states that are reached stand somewhere in the text.  From every place of the text, the
loop moves strictly forward with each iteration that goes on.  It is left with its answer, and with
nothing else, after at most as many iterations as there are bytes left. -/
structure Advances (reached : σ → Prop) (text : String) : Prop where
  stands : ∀ state, reached state → (cursorOf state).StandsIn text
  forward : ∀ state next, (cursorOf state).StandsIn text → body state (.goesOn next) →
    (cursorOf next).StandsIn text ∧
      (cursorOf state).position text < (cursorOf next).position text
  ends : ∀ state, (cursorOf state).StandsIn text → ∃ count, LoopRun body state (answer state) count
  within : ∀ state result count, (cursorOf state).StandsIn text →
    LoopRun body state result count →
      result = answer state ∧ count ≤ (cursorOf state).bytesLeft

def lexemesLeft (state : σ) : Nat :=
  (cursorOf state).settled.length

/-- The loop is left with its answer, or goes on with fewer lexemes ahead and the same answer.  It
fails only where there is something to read. -/
def Iteration.Continues (state : σ) : Iteration σ ρ → Prop
  | .left result => result = answer state
  | .failed result => result = answer state ∧ 0 < lexemesLeft cursorOf state
  | .goesOn next =>
      (cursorOf next).ahead <:+ (cursorOf state).settled ∧
        (cursorOf next).ahead.length < lexemesLeft cursorOf state ∧ answer next = answer state

def SoundBehind (state : σ) : Prop :=
  ∀ other result count, lexemesLeft cursorOf other < lexemesLeft cursorOf state →
    LoopRun body other result count → result = answer other

def EndsBehind (state : σ) : Prop :=
  ∀ other, lexemesLeft cursorOf other < lexemesLeft cursorOf state →
    ∃ count, LoopRun body other (answer other) count

variable {cursorOf body answer}

theorem lexemesLeft_lt {state next : σ}
    (fewer : (cursorOf next).ahead.length < lexemesLeft cursorOf state) :
    lexemesLeft cursorOf next < lexemesLeft cursorOf state :=
  Nat.lt_of_le_of_lt (settled_suffix (cursorOf next)).length_le fewer

variable (sound : ∀ state, SoundBehind cursorOf body answer state →
    ∀ outcome, body state outcome → outcome.Continues cursorOf answer state)
include sound

theorem LoopRun.result_eq {state : σ} {result : ρ} {count : Nat}
    (run : LoopRun body state result count) : result = answer state := by
  -- By induction on what is left to read, so that loops inside the body are covered.
  induction left : lexemesLeft cursorOf state using Nat.strongRecOn
    generalizing state result count with
  | ind bound inductionHypothesis =>
      subst left
      have behind : SoundBehind cursorOf body answer state :=
        fun other _ _ fewer inner => inductionHypothesis _ fewer inner rfl
      cases run with
      | left isLeft => exact sound state behind _ isLeft
      | failed hasFailed => exact (sound state behind _ hasFailed).1
      | goesOn isNext rest =>
          obtain ⟨_, fewer, same⟩ := sound state behind _ isNext
          exact (inductionHypothesis _ (lexemesLeft_lt fewer) rest rfl).trans same

theorem Iteration.continues {state : σ} {outcome : Iteration σ ρ} (does : body state outcome) :
    outcome.Continues cursorOf answer state :=
  sound state (fun _ _ _ _ run => run.result_eq sound) outcome does

theorem LoopRun.count_le {state : σ} {result : ρ} {count : Nat}
    (run : LoopRun body state result count) : count ≤ lexemesLeft cursorOf state := by
  induction run with
  | left _ => exact Nat.zero_le _
  | failed hasFailed => exact (Iteration.continues sound hasFailed).2
  | goesOn isNext _ inductionHypothesis =>
      obtain ⟨_, fewer, _⟩ := Iteration.continues sound isNext
      exact Nat.lt_of_le_of_lt inductionHypothesis (lexemesLeft_lt fewer)

theorem LoopRun.exists_run
    (total : ∀ state, EndsBehind cursorOf body answer state → ∃ outcome, body state outcome)
    (state : σ) : ∃ count, LoopRun body state (answer state) count := by
  induction left : lexemesLeft cursorOf state using Nat.strongRecOn
    generalizing state with
  | ind bound inductionHypothesis =>
      subst left
      obtain ⟨outcome, does⟩ := total state fun other fewer =>
        inductionHypothesis _ fewer other rfl
      have continues := Iteration.continues sound does
      cases outcome with
      | left result =>
          obtain rfl : result = answer state := continues
          exact ⟨0, .left does⟩
      | failed result =>
          obtain ⟨rfl, _⟩ : result = answer state ∧ _ := continues
          exact ⟨1, .failed does⟩
      | goesOn next =>
          obtain ⟨_, fewer, same⟩ := continues
          obtain ⟨count, rest⟩ := inductionHypothesis _ (lexemesLeft_lt fewer) next rfl
          exact ⟨count + 1, .goesOn does (same ▸ rest)⟩

theorem Iteration.standsIn {state next : σ} {text : String} (does : body state (.goesOn next))
    (stands : (cursorOf state).StandsIn text) : (cursorOf next).StandsIn text := by
  obtain ⟨behind, _⟩ := Iteration.continues sound does
  exact (behind.trans (settled_suffix (cursorOf state))).trans stands

/-- A loop advances through every text if its body does what it has to, granted that the loops
nearer to the end do. -/
theorem advances_of_body
    (total : ∀ state, EndsBehind cursorOf body answer state → ∃ outcome, body state outcome)
    {reached : σ → Prop} {text : String}
    (stands : ∀ state, reached state → (cursorOf state).StandsIn text) :
    Advances cursorOf body answer reached text where
  stands := stands
  forward state next stands does := by
    obtain ⟨behind, fewer, _⟩ := Iteration.continues sound does
    have settled := settled_suffix (cursorOf state)
    exact ⟨Iteration.standsIn sound does stands,
      stands.position_lt (behind.trans settled) (Nat.lt_of_lt_of_le fewer settled.length_le)⟩
  ends state _ := LoopRun.exists_run sound total state
  within state result count stands run := by
    have settled := settled_suffix (cursorOf state)
    exact ⟨run.result_eq sound, Nat.le_trans (run.count_le sound)
      (Nat.le_trans settled.length_le stands.length_le_bytesLeft)⟩

end Advances

end ComponentStyles.Css
