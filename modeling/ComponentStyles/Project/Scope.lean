import ComponentStyles.Project.Basic
import ComponentStyles.Project.BreadthFirst

/-!
Where classes are looked up: in a module alone, or in it and everything it depends on.
-/

namespace ComponentStyles

inductive Scope where
  | own (module : ModuleName)
  | withDependencies (module : ModuleName)
  deriving DecidableEq, Repr

namespace Project

def dependenciesOf (project : Project) (name : ModuleName) : List ModuleName :=
  match project.module? name with
  | some found => found.dependencies
  | none => []

def mentionedModules (project : Project) (name : ModuleName) : List ModuleName :=
  name :: project.modules.flatMap fun entry => entry.2.dependencies

/-- The module and everything it depends on, through other modules too.  Names that no module
has are among them. -/
def moduleClosure (project : Project) (name : ModuleName) : List ModuleName :=
  breadthFirst id project.dependenciesOf (project.mentionedModules name) [name]

def scopeModules (project : Project) : Scope → List ModuleName
  | .own module => [module]
  | .withDependencies module => project.moduleClosure module

def findClass? (project : Project) (name : ClassName) (scope : Scope) : Option ComponentClass :=
  let modules := project.scopeModules scope
  project.classes.find? fun declared => declared.name == name && modules.contains declared.module

end Project

end ComponentStyles
