import ComponentStyles.Css.Reference
import ComponentStyles.Css.Rule
import ComponentStyles.HostFailure
import ComponentStyles.Markup.Document
import ComponentStyles.Sheet.Layout
import ComponentStyles.Sheet.StringTable
import ComponentStyles.Sheet.Tally

/-!
Compiling a stylesheet.

A sheet is checked as a whole before anything is written, so a sheet that does not compile
leaves the sinks as they were.  What compiles is written in string numbers, and the references
in its values are counted.
-/

namespace ComponentStyles.Sheet

open ComponentStyles.Css

structure Sinks where
  strings : StringTable
  components : ComponentTally
  assets : AssetTally
  deriving DecidableEq, Repr

def Sinks.empty : Sinks :=
  { strings := .empty, components := .empty, assets := .empty }

inductive SheetFault where
  | missingBlock (fault : MissingBlock)
  | tooManyRules (count : Nat)
  | tooManyDeclarations (selector : String) (count : Nat)
  deriving DecidableEq, Repr

def SheetFault.message : SheetFault → String
  | missingBlock fault => fault.message
  | tooManyRules count =>
      toString count ++ " rules exceed the limit of " ++ toString countLimit
  | tooManyDeclarations selector count =>
      "rule '" ++ selector ++ "' has " ++ toString count ++ " declarations, more than " ++
        toString countLimit

def oversized (rule : Rule) : Bool :=
  countLimit < rule.declarations.length

def checkedRules (text : String) : Except SheetFault (List Rule) :=
  match rules text with
  | .error fault => .error (.missingBlock fault)
  | .ok found =>
      if countLimit < found.length then .error (.tooManyRules found.length)
      else
        match found.find? oversized with
        | some rule => .error (.tooManyDeclarations rule.selector rule.declarations.length)
        | none => .ok found

def recordAll {α β : Type} (step : α → Sinks → β × Sinks) (items : List α) (sinks : Sinks)
    (records : Array β) : Array β × Sinks :=
  match items with
  | [] => (records, sinks)
  | item :: rest =>
      let recorded := step item sinks
      recordAll step rest recorded.2 (records.push recorded.1)

def Sinks.intern (sinks : Sinks) (text : String) : UInt32 × Sinks :=
  let interned := sinks.strings.intern text
  (interned.1, { sinks with strings := interned.2 })

def Sinks.note (sinks : Sinks) : Reference → Sinks
  | .asset path => { sinks with assets := sinks.assets.record path }
  | .component className =>
      { sinks with components := sinks.components.register { qualified := className } }

def Sinks.scan (sinks : Sinks) (value : String) : Sinks :=
  (references value).foldl Sinks.note sinks

def recordDeclaration (declaration : Declaration) (sinks : Sinks) :
    (UInt32 × UInt32) × Sinks :=
  let name := (sinks.scan declaration.value).intern declaration.name
  let value := name.2.intern declaration.value
  ((name.1, value.1), value.2)

def recordCondition (condition : Option String) (sinks : Sinks) : UInt32 × Sinks :=
  match condition with
  | some text => sinks.intern text
  | none => (noCondition, sinks)

def recordRule (rule : Rule) (sinks : Sinks) : RuleRecord × Sinks :=
  let condition := recordCondition rule.condition sinks
  let selector := condition.2.intern rule.selector
  let declarations := recordAll recordDeclaration rule.declarations selector.2 #[]
  ({ condition := condition.1
     selector := selector.1
     declarations := declarations.1.toList },
    declarations.2)

def compileRules (rules : List Rule) (sinks : Sinks) : List UInt8 × Sinks :=
  let records := recordAll recordRule rules sinks #[]
  (writeSheet records.1.toList, records.2)

def compileText (text : String) (sinks : Sinks) : Except SheetFault (List UInt8) × Sinks :=
  match checkedRules text with
  | .error fault => (.error fault, sinks)
  | .ok found =>
      let compiled := compileRules found sinks
      (.ok compiled.1, compiled.2)

end ComponentStyles.Sheet

namespace ComponentStyles

structure StyleCompiler (σ : Type) where
  compile : Document → ModuleName → σ → Except HostFailure (List UInt8) × σ

def sheetCompiler : StyleCompiler Sheet.Sinks where
  compile document _ sinks :=
    match Sheet.compileText document.text sinks with
    | (.ok bytes, after) => (.ok bytes, after)
    | (.error fault, after) => (.error (.stylesheet document.file.path fault.message), after)

end ComponentStyles
