import ComponentStyles.Settings.Basic
import ComponentStyles.Toml.Document

/-!
Settings as TOML.

A record is a table of its fields, without any others, or an array of its fields in order, whose
further items do not count.  A field that is not there has its usual value.
-/

namespace ComponentStyles.Toml.Value

def items? : Value → Option (List Value)
  | .array items => some items
  | .tables last front => some ((last :: front).reverse.map (.table .declared))
  | _ => none

def fields? (names : List String) : Value → Option (List (Option Value))
  | .table _ entries =>
      if entries.all fun entry => names.contains entry.1 then
        some (names.map fun name => Table.get? entries name)
      else none
  | value => value.items?.map fun items =>
      (List.range names.length).map fun position => items[position]?

def string? : Value → Option String
  | .string text => some text
  | _ => none

def natural? (limit : Nat) : Value → Option Nat
  | .integer value => if 0 ≤ value ∧ value.toNat ≤ limit then some value.toNat else none
  | _ => none

end ComponentStyles.Toml.Value

namespace ComponentStyles

open Toml (Value)

def presentOr {α : Type} (usual : α) (decode : Value → Option α) : Option Value → Option α
  | none => some usual
  | some value => decode value

def BaseType.ofToml? (value : Value) : Option BaseType := do
  match ← value.fields? ["qualified_name", "min_sdk_major"] with
  | [some name, minimum] =>
      let qualified ← name.string?
      let minimumMajor ← presentOr none (fun value => (value.natural? SdkVersion.majorLimit).map some) minimum
      some { name := { qualified }, minimumMajor }
  | _ => none

def StyleTagSettings.ofToml? (value : Value) : Option StyleTagSettings := do
  match ← value.fields? ["namespace", "tag", "source_attribute"] with
  | [space, tag, sourceAttribute] =>
      let space ← presentOr standard.space Value.string? space
      let tag ← presentOr standard.tag Value.string? tag
      let sourceAttribute ← presentOr standard.sourceAttribute Value.string? sourceAttribute
      some { space, tag, sourceAttribute }
  | _ => none

def LibrarySettings.ofToml? (value : Value) : Option LibrarySettings := do
  match ← value.fields? ["defaults_stylesheet"] with
  | [defaultsSheet] =>
      let defaultsSheet ← presentOr standard.defaultsSheet Value.string? defaultsSheet
      some { defaultsSheet }
  | _ => none

def BaseType.listOfToml? (value : Value) : Option (List BaseType) := do
  (← value.items?).mapM BaseType.ofToml?

def Settings.ofToml? (value : Value) : Option Settings := do
  match ← value.fields? ["style", "library", "base_types"] with
  | [style, library, baseTypes] =>
      let style ← presentOr .standard StyleTagSettings.ofToml? style
      let library ← presentOr .standard LibrarySettings.ofToml? library
      let baseTypes ← presentOr BaseType.standard BaseType.listOfToml? baseTypes
      some { style, library, baseTypes }
  | _ => none

def Settings.parseToml (text : String) : Except SettingsFault Settings :=
  match (Toml.parse text).bind fun entries => Settings.ofToml? (.table .declared entries) with
  | none => .error .malformedToml
  | some settings => settings.checked

end ComponentStyles
