import ComponentStyles.Project.Scope

/-!
Inheritors of a class.

The search follows declared classes by the name of the class they extend, through classes
outside the scope too.  Of several classes with one name only the first found counts.
-/

namespace ComponentStyles.Project

def directInheritors (project : Project) (name : ClassName) : List ComponentClass :=
  project.classes.filter fun declared => declared.extends? == some name

def inheritorsByName (project : Project) (name : ClassName) : List ComponentClass :=
  breadthFirst ComponentClass.name (fun found => project.directInheritors found.name)
    (withoutKey (project.classes.map ComponentClass.name) name)
    (project.directInheritors name)

/-- The inheritors of a class that belong to the scope, the class itself in front if wanted. -/
def findInheritors (project : Project) (base : ComponentClass) (includeSelf : Bool)
    (scope : Scope) : List ComponentClass :=
  let modules := project.scopeModules scope
  let found := (project.inheritorsByName base.name).filter fun declared =>
    modules.contains declared.module
  if includeSelf && modules.contains base.module then base :: found else found

end ComponentStyles.Project
