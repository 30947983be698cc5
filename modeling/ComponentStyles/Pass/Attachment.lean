import ComponentStyles.Project.Injection

/-!
How a style tag attaches its stylesheet: by naming a file, or by its own body.
-/

namespace ComponentStyles

inductive Attachment where
  | reference (value : String)
  | injected (host : InjectionHost)
  | nothing
  deriving DecidableEq, Repr

/-- A tag with the source attribute refers to a file, and to none if the attribute has no value;
only a tag without the attribute attaches its body. -/
def Attachment.of (project : Project) (sourceAttribute : String) (document : Document)
    (tag : Element) : Attachment :=
  match tag.attribute? sourceAttribute with
  | some (some value) => .reference value
  | some none => .nothing
  | none =>
      match project.injectionHost? document tag with
      | some host => .injected host
      | none => .nothing

end ComponentStyles
