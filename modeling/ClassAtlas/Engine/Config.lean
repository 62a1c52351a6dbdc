/-!
# Settings

Each engine has its own settings: which supertypes are never shown, where simple
names are looked for, whether accessors are shown as properties, and which
aliases are known besides the built-in ones.
-/

namespace ClassAtlas

/-- The settings of an engine. -/
structure EngineConfig where
  /-- Supertypes that are never attached to a type. -/
  ignoredSupertypes : List String
  /-- Packages tried in order for names without a package. -/
  defaultPackages : List String
  /-- Whether accessors are also shown as properties. -/
  beanProperties : Bool
  /-- Aliases on top of the built-in ones, with their qualified names. -/
  aliases : List (String × String)
  deriving DecidableEq, Repr

/-- The settings of an engine for which nothing is set. -/
def EngineConfig.standard : EngineConfig :=
  { ignoredSupertypes := ["java.lang.Object"]
    defaultPackages := ["java.lang"]
    beanProperties := false
    aliases := [] }

end ClassAtlas
