import ComponentStyles.Toml.Statement

/-!
TOML documents: the table that the statements of a text build up.
-/

namespace ComponentStyles.Toml

structure Draft where
  entries : Entries
  current : List String

def Draft.add? (draft : Draft) : Statement → Option Draft
  | .table key =>
      (draft.entries.within? (·.declare? key.name) key.outer).map fun entries =>
        { entries, current := key.path }
  | .item key =>
      (draft.entries.within? (·.declareItem? key.name) key.outer).map fun entries =>
        { entries, current := key.path }
  | .entry key value =>
      (draft.entries.within? (·.insert? key.name value key.outer) draft.current).map
        fun entries => { draft with entries }

def parse (text : String) : Option Entries :=
  match statements text.toList with
  | none => none
  | some statements =>
      (statements.foldlM Draft.add? { entries := [], current := [] }).map Draft.entries

end ComponentStyles.Toml
