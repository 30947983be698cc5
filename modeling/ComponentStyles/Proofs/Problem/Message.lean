import ComponentStyles.Pass.Resolution
import ComponentStyles.Proofs.Problem.Replacing
import ComponentStyles.Proofs.Project.Injection

/-!
What arguments become in a message.

Arguments are put into a template one after the other, and each is put into everything that stands
there by then.  So every place of the template is filled with its argument, but in that argument the
places of later arguments have been filled as well.  The message is the template with the arguments
as they were given where no argument holds the place of a later one.
-/

namespace ComponentStyles.Message

def IsPlain (character : Char) : Prop :=
  character ≠ '\x7b' ∧ character ≠ '\x7d' ∧ character.isDigit = false

instance : DecidablePred IsPlain := fun character =>
  inferInstanceAs
    (Decidable (character ≠ '\x7b' ∧ character ≠ '\x7d' ∧ character.isDigit = false))

theorem placeOf_ne_nil (position : Nat) : placeOf position ≠ [] :=
  List.cons_ne_nil _ _

theorem not_mem_placeOf {character : Char} (plain : IsPlain character) (position : Nat) :
    character ∉ placeOf position := by
  obtain ⟨notOpening, notClosing, noDigit⟩ := plain
  simp only [placeOf, List.mem_append, List.mem_cons, List.not_mem_nil, or_false, not_or]
  exact ⟨⟨notOpening, Text.not_mem_toString noDigit position⟩, notClosing⟩

theorem not_infix_placeOf {position other : Nat} (different : position ≠ other) :
    ¬placeOf position <:+: placeOf other := by
  have digits : ∀ number : Nat, '\x7d' ∉ (toString number).toList :=
    Text.not_mem_toString rfl
  intro inside
  rcases List.infix_cons_iff.mp inside with front | behind
  · have numbers := (List.cons_prefix_cons.mp front).2
    rcases List.prefix_concat_iff.mp numbers with same | within
    · exact different (Text.number_of_toString (List.append_inj_left' same rfl))
    · exact digits other (within.subset (List.mem_append_right _ List.mem_cons_self))
  · have opening : '\x7b' ∈ (toString other).toList ++ ['\x7d'] :=
      behind.subset List.mem_cons_self
    rcases List.mem_append.mp opening with digit | closing
    · exact Text.not_mem_toString rfl other digit
    · exact absurd (List.mem_singleton.mp closing) (by decide)

theorem fill_nil (position : Nat) (arguments : List String) : fill position arguments [] = [] := by
  induction arguments generalizing position with
  | nil => rfl
  | cons argument rest inductionHypothesis => rw [fill, replaceAll_nil, inductionHypothesis]

theorem fill_divided {character : Char} (plain : IsPlain character) (position : Nat)
    (arguments : List String) (front rest : List Char) :
    fill position arguments (front ++ character :: rest) =
      fill position arguments front ++ character :: fill position arguments rest := by
  induction arguments generalizing position front rest with
  | nil => rfl
  | cons argument others inductionHypothesis =>
      rw [fill, fill, fill, replaceAll_divided _ (not_mem_placeOf plain position)
        (placeOf_ne_nil position), inductionHypothesis]

theorem fill_of_absent {position : Nat} {arguments : List String} {text : List Char}
    (absent : ∀ offset < arguments.length, ¬placeOf (position + offset) <:+: text) :
    fill position arguments text = text := by
  induction arguments generalizing position with
  | nil => rfl
  | cons argument rest inductionHypothesis =>
      have first : ¬placeOf position <:+: text := absent 0 (Nat.succ_pos rest.length)
      rw [fill, replaceAll_of_absent _ first]
      apply inductionHypothesis
      intro offset inside
      rw [Nat.add_assoc, Nat.add_comm 1 offset]
      exact absent (offset + 1) (Nat.succ_lt_succ inside)

def refilled (position : Nat) : List String → List (List Char)
  | [] => []
  | argument :: rest => fill (position + 1) rest argument.toList :: refilled (position + 1) rest

theorem fill_placeOf (position offset : Nat) (arguments : List String) :
    fill position arguments (placeOf (position + offset)) =
      (refilled position arguments)[offset]?.getD (placeOf (position + offset)) := by
  induction arguments generalizing position offset with
  | nil => rfl
  | cons argument rest inductionHypothesis =>
      cases offset with
      | zero =>
          have replaced := replaceAll_marked argument.toList (placeOf_ne_nil position) []
          rw [List.append_nil, replaceAll_nil, List.append_nil] at replaced
          rw [Nat.add_zero, fill, replaced]
          rfl
      | succ offset =>
          have different : position ≠ position + (offset + 1) := by omega
          have next : position + (offset + 1) = position + 1 + offset := by omega
          rw [fill, replaceAll_of_absent _ (not_infix_placeOf different), next,
            inductionHypothesis]
          rfl

def placeAt? (count : Nat) (text : List Char) : Option Nat :=
  (List.range count).find? fun position => (placeOf position).isPrefixOf text

/-- Puts all arguments into a text at once: what is put in is not read again. -/
def fillAtOnce (arguments : List (List Char)) (text : List Char) : List Char :=
  match text with
  | [] => []
  | character :: rest =>
      match placeAt? arguments.length (character :: rest) with
      | some position =>
          arguments[position]?.getD [] ++
            fillAtOnce arguments (rest.drop ((placeOf position).length - 1))
      | none => character :: fillAtOnce arguments rest
termination_by text.length
decreasing_by all_goals simp only [List.length_cons, List.length_drop]; omega

theorem prefix_of_placeAt? {count position : Nat} {text : List Char}
    (found : placeAt? count text = some position) : placeOf position <+: text := by
  rw [placeAt?, List.find?_range_eq_some] at found
  exact List.isPrefixOf_iff_prefix.mp found.1

theorem placeAt?_of_head {character : Char} (noOpening : character ≠ '\x7b') (count : Nat)
    (rest : List Char) : placeAt? count (character :: rest) = none := by
  rw [placeAt?, List.find?_eq_none]
  intro position _ marked
  have front : placeOf position <+: character :: rest := List.isPrefixOf_iff_prefix.mp marked
  exact noOpening (List.cons_prefix_cons.mp front).1.symm

theorem placeAt?_placeOf (count position : Nat) :
    placeAt? count (placeOf position) = if position < count then some position else none := by
  have marked : ∀ other,
      (placeOf other).isPrefixOf (placeOf position) = decide (other = position) := by
    intro other
    by_cases same : other = position
    · rw [same, decide_eq_true rfl]
      exact List.isPrefixOf_iff_prefix.mpr (List.prefix_refl _)
    · rw [decide_eq_false same, Bool.eq_false_iff]
      intro front
      exact not_infix_placeOf same (List.isPrefixOf_iff_prefix.mp front).isInfix
  simp only [placeAt?, marked]
  split
  · rename_i inside
    rw [List.find?_range_eq_some]
    refine ⟨decide_eq_true rfl, List.mem_range.mpr inside, ?_⟩
    intro other before
    rw [decide_eq_false (Nat.ne_of_lt before)]
    rfl
  · rename_i outside
    rw [List.find?_eq_none]
    intro other among same
    rw [decide_eq_true_iff] at same
    exact outside (same ▸ List.mem_range.mp among)

theorem placeAt?_divided {character : Char} (plain : IsPlain character) (count : Nat)
    (front rest : List Char) :
    placeAt? count (front ++ character :: rest) = placeAt? count front := by
  have marked : ∀ position, (placeOf position).isPrefixOf (front ++ character :: rest) =
      (placeOf position).isPrefixOf front := by
    intro position
    rw [Bool.eq_iff_iff, List.isPrefixOf_iff_prefix, List.isPrefixOf_iff_prefix]
    constructor
    · exact prefix_of_foreign (not_mem_placeOf plain position)
    · intro short
      exact short.trans (List.prefix_append front _)
  simp only [placeAt?, marked]

theorem fillAtOnce_behind (arguments : List (List Char)) {words : List Char}
    (noOpening : '\x7b' ∉ words) (rest : List Char) :
    fillAtOnce arguments (words ++ rest) = words ++ fillAtOnce arguments rest := by
  induction words with
  | nil => rfl
  | cons character others inductionHypothesis =>
      rw [List.mem_cons, not_or] at noOpening
      rw [List.cons_append, fillAtOnce, placeAt?_of_head (Ne.symm noOpening.1)]
      exact congrArg (character :: ·) (inductionHypothesis noOpening.2)

theorem fillAtOnce_placeOf (arguments : List (List Char)) (position : Nat) :
    fillAtOnce arguments (placeOf position) = arguments[position]?.getD (placeOf position) := by
  have found := placeAt?_placeOf arguments.length position
  have shape : placeOf position = '\x7b' :: (placeOf position).tail := rfl
  by_cases inside : position < arguments.length
  · rw [if_pos inside, shape] at found
    rw [List.getElem?_eq_getElem inside, shape, fillAtOnce, found]
    simp only [List.getElem?_eq_getElem inside, Option.getD_some, ← List.length_tail,
      List.drop_length, fillAtOnce, List.append_nil]
  · rw [if_neg inside, shape] at found
    have noOpening : '\x7b' ∉ (placeOf position).tail := by
      intro opening
      rcases List.mem_append.mp opening with digit | closing
      · exact Text.not_mem_toString rfl position digit
      · exact absurd (List.mem_singleton.mp closing) (by decide)
    have numbers := fillAtOnce_behind arguments noOpening []
    rw [fillAtOnce, List.append_nil] at numbers
    rw [List.getElem?_eq_none (Nat.le_of_not_lt inside), Option.getD_none, shape, fillAtOnce, found]
    exact congrArg ('\x7b' :: ·) numbers

theorem fillAtOnce_divided {character : Char} (plain : IsPlain character)
    (arguments : List (List Char)) (front rest : List Char) :
    fillAtOnce arguments (front ++ character :: rest) =
      fillAtOnce arguments front ++ character :: fillAtOnce arguments rest := by
  fun_induction fillAtOnce arguments front with
  | case1 =>
      rw [List.nil_append, fillAtOnce, placeAt?_of_head plain.1]
      rfl
  | case2 next behind position found inductionHypothesis =>
      have same := placeAt?_divided plain arguments.length (next :: behind) rest
      rw [found, List.cons_append] at same
      have within : (placeOf position).length - 1 ≤ behind.length :=
        Nat.sub_le_of_le_add (prefix_of_placeAt? found).length_le
      rw [List.cons_append, fillAtOnce, same]
      simp only [List.drop_append_of_le_length within, inductionHypothesis, List.append_assoc]
  | case3 next behind found inductionHypothesis =>
      have same := placeAt?_divided plain arguments.length (next :: behind) rest
      rw [found, List.cons_append] at same
      rw [List.cons_append, fillAtOnce, same]
      exact congrArg (next :: ·) inductionHypothesis

inductive Template : List Char → Prop
  | nothing : Template []
  | place (position : Nat) : Template (placeOf position)
  | divided {character : Char} {front rest : List Char} :
      IsPlain character → Template front → Template rest → Template (front ++ character :: rest)

theorem Template.behind {words rest : List Char} (plain : ∀ character ∈ words, IsPlain character)
    (template : Template rest) : Template (words ++ rest) := by
  induction words with
  | nil => exact template
  | cons character others inductionHypothesis =>
      have plainBehind : ∀ other ∈ others, IsPlain other :=
        fun other inside => plain other (List.mem_cons_of_mem _ inside)
      exact .divided (plain character List.mem_cons_self) .nothing
        (inductionHypothesis plainBehind)

/-- Filling a template with one argument after the other is filling it at once with what the
arguments come to be. -/
theorem Template.fill_eq {text : List Char} (template : Template text) (arguments : List String) :
    fill 0 arguments text = fillAtOnce (refilled 0 arguments) text := by
  induction template with
  | nothing => rw [fill_nil, fillAtOnce]
  | place position =>
      have placed := fill_placeOf 0 position arguments
      rw [Nat.zero_add] at placed
      rw [placed, fillAtOnce_placeOf]
  | divided plain _ _ front rest =>
      rw [fill_divided plain, fillAtOnce_divided plain, front, rest]

theorem toList_notCompiled :
    "Cannot compile stylesheet \x7b0\x7d: \x7b1\x7d".toList =
      "Cannot compile stylesheet ".toList ++ (placeOf 0 ++ ':' :: ([' '] ++ placeOf 1)) :=
  rfl

theorem template_of_known {key template : String} (known : (key, template) ∈ templates) :
    Template template.toList := by
  simp only [templates, List.mem_cons, Prod.mk.injEq, List.not_mem_nil, or_false] at known
  rcases known with ⟨_, same⟩ | ⟨_, same⟩ | ⟨_, same⟩
  · have shape : template.toList = "Embedded source is not a CSS file: ".toList ++ placeOf 0 :=
      congrArg String.toList same
    rw [shape]
    exact .behind (by simp [IsPlain]) (.place 0)
  · have shape : template.toList = "Cannot resolve embedded source: ".toList ++ placeOf 0 :=
      congrArg String.toList same
    rw [shape]
    exact .behind (by simp [IsPlain]) (.place 0)
  · rw [same, toList_notCompiled]
    have colon : IsPlain ':' := by decide
    have reason : Template ([' '] ++ placeOf 1) := .behind (by simp [IsPlain]) (.place 1)
    exact .behind (by simp [IsPlain]) (.divided colon (.place 0) reason)

theorem render_of_known {key template : String} (known : (key, template) ∈ templates)
    (arguments : List String) :
    render key arguments = String.ofList (fill 0 arguments template.toList) := by
  have distinct : (templates.map Prod.fst).Nodup := by decide
  have found : templates.find? (·.1 == key) = some (key, template) :=
    Table.find?_of_distinct distinct known
  rw [render, found]

/-- No argument holds the place of a later one. -/
def NamesNoLater (arguments : List String) : Prop :=
  ∀ position argument, arguments[position]? = some argument →
    ∀ later, position < later → later < arguments.length → ¬placeOf later <:+: argument.toList

theorem refilled_of_absent {position : Nat} {arguments : List String}
    (absent : ∀ offset argument, arguments[offset]? = some argument →
      ∀ later, offset < later → later < arguments.length →
        ¬placeOf (position + later) <:+: argument.toList) :
    refilled position arguments = arguments.map String.toList := by
  induction arguments generalizing position with
  | nil => rfl
  | cons argument rest inductionHypothesis =>
      have next : ∀ offset, position + 1 + offset = position + (offset + 1) := by omega
      have untouched : fill (position + 1) rest argument.toList = argument.toList := by
        apply fill_of_absent
        intro offset inside
        rw [next]
        exact absent 0 argument rfl (offset + 1) (Nat.succ_pos offset) (Nat.succ_lt_succ inside)
      rw [refilled, untouched, List.map_cons, inductionHypothesis]
      intro offset other found later behind inside
      rw [next]
      exact absent (offset + 1) other found (later + 1) (Nat.succ_lt_succ behind)
        (Nat.succ_lt_succ inside)

theorem render_notCompiled (file reason : String) :
    render notCompiledKey [file, reason] =
      "Cannot compile stylesheet " ++
        String.ofList (replaceAll (placeOf 1) reason.toList file.toList) ++ ": " ++ reason := by
  have known : (notCompiledKey, "Cannot compile stylesheet \x7b0\x7d: \x7b1\x7d") ∈ templates := by
    simp [templates]
  apply String.toList_injective
  rw [render_of_known known, (template_of_known known).fill_eq, toList_notCompiled,
    fillAtOnce_behind _ (by decide), fillAtOnce_divided (by decide),
    fillAtOnce_behind _ (by decide), fillAtOnce_placeOf, fillAtOnce_placeOf]
  simp [refilled, fill]

/-- The message of a sheet that does not compile has the file's name as it is unless that name holds
the place of the reason. -/
theorem render_notCompiled_iff (file reason : String) :
    render notCompiledKey [file, reason] =
        "Cannot compile stylesheet " ++ file ++ ": " ++ reason ↔
      ¬placeOf 1 <:+: file.toList ∨ reason = "\x7b1\x7d" := by
  have mark : placeOf 1 = "\x7b1\x7d".toList := rfl
  have reasons : reason.toList = placeOf 1 ↔ reason = "\x7b1\x7d" := by
    rw [mark]
    exact String.toList_inj
  rw [render_notCompiled, ← reasons, ← replaceAll_eq_self _ (placeOf_ne_nil 1),
    String.append_left_inj, String.append_left_inj, String.append_right_inj,
    ← String.toList_inj, String.toList_ofList]

variable {σ : Type}

/-- Whatever arguments a known key is given, its message is the template with every place filled at
once by what its argument comes to be, in which the places of later arguments are filled; and that
is the argument itself where no argument holds the place of a later one.  A sheet that does not
compile is told by its file and the reason, except that the reason also comes to stand in every
place that the name of the file holds for it. -/
theorem arguments_fill_places (arguments : List String) (context : ResolutionContext σ) :
    (∀ key template, (key, template) ∈ templates →
      render key arguments =
          String.ofList (fillAtOnce (refilled 0 arguments) template.toList) ∧
        (NamesNoLater arguments → render key arguments =
          String.ofList (fillAtOnce (arguments.map String.toList) template.toList))) ∧
    ∀ location stylesheet state file reason after,
      context.compiler.compile stylesheet context.module state =
        (.error (.stylesheet file reason), after) →
      ∃ invalid, (context.compileFor location stylesheet state).1 = .error (.property invalid) ∧
        (invalid.message = "Cannot compile stylesheet " ++ file ++ ": " ++ reason ↔
          ¬placeOf 1 <:+: file.toList ∨ reason = "\x7b1\x7d") := by
  refine ⟨?_, ?_⟩
  · intro key template known
    have filled : render key arguments =
        String.ofList (fillAtOnce (refilled 0 arguments) template.toList) := by
      rw [render_of_known known, (template_of_known known).fill_eq]
    refine ⟨filled, ?_⟩
    intro plain
    have untouched : refilled 0 arguments = arguments.map String.toList := by
      apply refilled_of_absent
      intro offset argument found later behind inside
      rw [Nat.zero_add]
      exact plain offset argument found later behind inside
    rw [filled, untouched]
  · intro location stylesheet state file reason after failed
    refine ⟨{ location, key := notCompiledKey, arguments := [file, reason] }, ?_,
      render_notCompiled_iff file reason⟩
    rw [ResolutionContext.compileFor, failed]

def refusingCompiler : StyleCompiler Unit where
  compile document _ state := (.error (.stylesheet document.file.path "unreadable"), state)

theorem refused_theme_told :
    let template := "Cannot compile stylesheet \x7b0\x7d: \x7b1\x7d"
    let arguments := ["theme.css", "\x7b0\x7d expected"]
    let context : ResolutionContext Unit :=
      { project := .empty, compiler := refusingCompiler, sourceAttribute := "source",
        module := ⟨"shop"⟩ }
    let location : ElementLocation := { file := ⟨"Cart.mxml"⟩, element := 1, line := none }
    let sheet : Document := .stylesheet ⟨"theme.css"⟩ ""
    (notCompiledKey, template) ∈ templates ∧ NamesNoLater arguments ∧
      render notCompiledKey arguments =
        String.ofList (fillAtOnce (arguments.map String.toList) template.toList) ∧
      context.compiler.compile sheet context.module () =
        (.error (.stylesheet "theme.css" "unreadable"), ()) ∧
      ∃ invalid, (context.compileFor location sheet ()).1 = .error (.property invalid) ∧
        invalid.message = "Cannot compile stylesheet " ++ "theme.css" ++ ": " ++ "unreadable" := by
  intro template arguments context location sheet
  have known : (notCompiledKey, template) ∈ templates := by simp [templates, template]
  have unnamed : ¬placeOf 1 <:+: "theme.css".toList := by
    intro inside
    have opening : '\x7b' ∈ "theme.css".toList := inside.subset List.mem_cons_self
    exact absurd opening (by decide +kernel)
  have plain : NamesNoLater arguments := by
    intro position argument found later behind inside
    have count : later < 2 := inside
    obtain ⟨rfl, rfl⟩ : position = 0 ∧ later = 1 := by omega
    cases found
    exact unnamed
  obtain ⟨filled, refused⟩ := arguments_fill_places arguments context
  obtain ⟨invalid, property, told⟩ := refused location sheet () _ _ () rfl
  exact ⟨known, plain, (filled notCompiledKey template known).2 plain, rfl, invalid, property,
    told.mpr (Or.inl unnamed)⟩

/-- The name of the file holds the place of the reason, which is put in there as well. -/
theorem reason_in_file_name :
    render notCompiledKey ["a\x7b1\x7d", "m"] = "Cannot compile stylesheet am: m" ∧
      render notCompiledKey ["a\x7b1\x7d", "m"] ≠
        "Cannot compile stylesheet " ++ "a\x7b1\x7d" ++ ": " ++ "m" := by
  decide +kernel

end ComponentStyles.Message
