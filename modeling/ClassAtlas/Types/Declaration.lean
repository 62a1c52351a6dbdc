import ClassAtlas.Descriptor

/-!
# Type declarations

A type is asked for by its qualified name, either for all of its members or for
its static members only, as when the class itself is the receiver of a call.
-/

namespace ClassAtlas

/-- A type as the resolver knows it. -/
structure TypeDeclaration where
  /-- The qualified name. -/
  qualifiedName : String
  /-- Whether only static members are asked for. -/
  staticsOnly : Bool
  deriving DecidableEq, Repr

namespace TypeDeclaration

/-- The declaration of a name, for all members. -/
def ofName (qualifiedName : String) : TypeDeclaration :=
  ⟨qualifiedName, false⟩

/-- The declaration of the same type for a given choice of members. -/
def withStaticsOnly (declaration : TypeDeclaration) (staticsOnly : Bool) : TypeDeclaration :=
  { declaration with staticsOnly }

/-- The package, empty without one. -/
def package (declaration : TypeDeclaration) : String :=
  Text.packageName declaration.qualifiedName

/-- The name without the package. -/
def name (declaration : TypeDeclaration) : String :=
  Text.simpleName declaration.qualifiedName

/-- The name, with a mark when only static members are asked for. -/
def display (declaration : TypeDeclaration) : String :=
  if declaration.staticsOnly then declaration.qualifiedName ++ " (static)"
  else declaration.qualifiedName

end TypeDeclaration

namespace PlatformName

/-- The root of all classes. -/
def object : String := "java.lang.Object"
/-- Texts. -/
def string : String := "java.lang.String"
/-- Boxed numbers. -/
def number : String := "java.lang.Number"
/-- Boxed truth values. -/
def boolean : String := "java.lang.Boolean"
/-- Points in time. -/
def date : String := "java.util.Date"
/-- Arrays can be cloned. -/
def cloneable : String := "java.lang.Cloneable"
/-- Arrays can be serialized. -/
def serializable : String := "java.io.Serializable"

end PlatformName

/-- The element type of an array type name. -/
def elementName? (name : String) : Option String :=
  Text.dropEnding? "[]" name

/-- Whether a type name names an array type. -/
def isArrayName (name : String) : Bool :=
  Text.hasEnding "[]" name

end ClassAtlas
