import ComponentStyles.Json.Reader
import ComponentStyles.Settings.Basic

/-!
Settings as JSON.  Every record refuses unknown fields, and a field that is not there has its
usual value.
-/

namespace ComponentStyles

structure StyleTagDraft where
  space : Option String
  tag : Option String
  sourceAttribute : Option String

def StyleTagSettings.shape : Json.Shape StyleTagDraft StyleTagSettings where
  start := ⟨none, none, none⟩
  fields :=
    [.make "namespace" (·.space) Json.string
       fun draft value => { draft with space := some value },
     .make "tag" (·.tag) Json.string fun draft value => { draft with tag := some value },
     .make "source_attribute" (·.sourceAttribute) Json.string
       fun draft value => { draft with sourceAttribute := some value }]
  strict := true
  finish := fun draft =>
    some
      { space := draft.space.getD standard.space
        tag := draft.tag.getD standard.tag
        sourceAttribute := draft.sourceAttribute.getD standard.sourceAttribute }

def LibrarySettings.shape : Json.Shape (Option String) LibrarySettings where
  start := none
  fields := [.make "defaults_stylesheet" id Json.string fun _ value => some value]
  strict := true
  finish := fun draft => some { defaultsSheet := draft.getD standard.defaultsSheet }

structure BaseTypeDraft where
  qualified : Option String
  minimumMajor : Option (Option Nat)

def BaseType.shape : Json.Shape BaseTypeDraft BaseType where
  start := ⟨none, none⟩
  fields :=
    [.make "qualified_name" (·.qualified) Json.string
       fun draft value => { draft with qualified := some value },
     .make "min_sdk_major" (·.minimumMajor) (Json.optional (Json.natural SdkVersion.majorLimit))
       fun draft value => { draft with minimumMajor := some value }]
  strict := true
  finish := fun draft =>
    draft.qualified.map fun qualified =>
      { name := { qualified }, minimumMajor := draft.minimumMajor.getD none }

structure SettingsDraft where
  style : Option StyleTagSettings
  library : Option LibrarySettings
  baseTypes : Option (List BaseType)

def Settings.shape (levels : Nat) : Json.Shape SettingsDraft Settings where
  start := ⟨none, none, none⟩
  fields :=
    [.make "style" (·.style) (Json.record levels fun _ => StyleTagSettings.shape)
       fun draft value => { draft with style := some value },
     .make "library" (·.library) (Json.record levels fun _ => LibrarySettings.shape)
       fun draft value => { draft with library := some value },
     .make "base_types" (·.baseTypes)
       (Json.list levels fun levels => Json.record levels fun _ => BaseType.shape)
       fun draft value => { draft with baseTypes := some value }]
  strict := true
  finish := fun draft =>
    some
      { style := draft.style.getD .standard
        library := draft.library.getD .standard
        baseTypes := draft.baseTypes.getD BaseType.standard }

def Settings.parseJson (text : String) : Except SettingsFault Settings :=
  match Json.whole (Json.record Json.nestingLimit Settings.shape) text.toList with
  | .error fault => .error (.malformedJson fault)
  | .ok settings => settings.checked

end ComponentStyles
