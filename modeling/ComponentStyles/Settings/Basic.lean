import ComponentStyles.Json.Lexical
import ComponentStyles.Name
import ComponentStyles.Settings.Sdk

/-!
Settings of a pass: which elements are style tags, which stylesheet a library is born with, and
from which base types components descend.
-/

namespace ComponentStyles

structure StyleTagSettings where
  space : String
  tag : String
  sourceAttribute : String
  deriving DecidableEq, Repr

structure LibrarySettings where
  defaultsSheet : String
  deriving DecidableEq, Repr

/-- A class whose inheritors may have style tags, from a major SDK version on. -/
structure BaseType where
  name : ClassName
  minimumMajor : Option Nat
  deriving DecidableEq, Repr

structure Settings where
  style : StyleTagSettings
  library : LibrarySettings
  baseTypes : List BaseType
  deriving DecidableEq, Repr

inductive SettingsFault where
  | unreadable (reason : String)
  | malformedToml
  | malformedJson (fault : Json.Fault)
  | emptyField (field : String)
  | noBaseTypes
  deriving DecidableEq, Repr

def SettingsFault.message : SettingsFault → String
  | unreadable reason => "failed to read config file: " ++ reason
  | malformedToml => "failed to parse config: the text is not TOML of the expected form"
  | malformedJson fault => "failed to parse config: " ++ fault.message
  | emptyField field => field ++ " must not be empty"
  | noBaseTypes => "at least one base type must be configured"

def StyleTagSettings.standard : StyleTagSettings :=
  { space := "http://ns.adobe.com/mxml/2009", tag := "Style", sourceAttribute := "source" }

def LibrarySettings.standard : LibrarySettings :=
  { defaultsSheet := "defaults.css" }

def BaseType.standard : List BaseType :=
  [{ name := { qualified := "spark.components.Application" }, minimumMajor := some 4 },
   { name := { qualified := "mx.core.Application" }, minimumMajor := none }]

namespace Settings

def standard : Settings :=
  { style := .standard, library := .standard, baseTypes := BaseType.standard }

def requiredTexts (settings : Settings) : List (String × String) :=
  [("style.namespace", settings.style.space),
   ("style.tag", settings.style.tag),
   ("style.source_attribute", settings.style.sourceAttribute),
   ("library.defaults_stylesheet", settings.library.defaultsSheet)]

def checked (settings : Settings) : Except SettingsFault Settings :=
  match settings.requiredTexts.find? fun required => Text.isBlankText required.2 with
  | some required => .error (.emptyField required.1)
  | none =>
      if settings.baseTypes.isEmpty then .error .noBaseTypes
      else if settings.baseTypes.any fun base => base.name.qualified.isEmpty then
        .error (.emptyField "base_types.qualified_name")
      else .ok settings

end Settings

def BaseType.appliesTo (base : BaseType) (sdk : SdkVersion) : Bool :=
  match base.minimumMajor with
  | some minimum => sdk.supports minimum
  | none => true

def Settings.baseTypesFor (settings : Settings) (sdk : SdkVersion) : List ClassName :=
  (settings.baseTypes.filter (·.appliesTo sdk)).map BaseType.name

end ComponentStyles
