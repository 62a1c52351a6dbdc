import ClassAtlas.Types.Declaration

/-!
# Type hierarchies

A hierarchy gives the direct supertypes of class names, of which only finitely
many have any. Where it knows nothing about a name, a few platform types have
built-in supertypes.
-/

namespace ClassAtlas

/-- The direct supertypes of classes. -/
structure Hierarchy where
  /-- The superclass first, then the interfaces; none for an unknown class. -/
  supertypes : String → List String
  /-- Names that include all with supertypes. -/
  names : List String
  /-- No other name has supertypes. -/
  complete : ∀ name, supertypes name ≠ [] → name ∈ names

/-- The supertypes known without any library. -/
def builtinSupertypes : List (String × List String) :=
  [("java.lang.Byte", [PlatformName.number]), ("java.lang.Short", [PlatformName.number]),
    ("java.lang.Integer", [PlatformName.number]), ("java.lang.Long", [PlatformName.number]),
    ("java.lang.Float", [PlatformName.number]), ("java.lang.Double", [PlatformName.number]),
    ("java.math.BigInteger", [PlatformName.number]),
    ("java.math.BigDecimal", [PlatformName.number]),
    (PlatformName.string,
      ["java.lang.CharSequence", "java.lang.Comparable", PlatformName.serializable]),
    (PlatformName.number, [PlatformName.serializable]),
    (PlatformName.boolean, [PlatformName.serializable]),
    (PlatformName.date, [PlatformName.serializable])]

/-- The supertypes listed for a name. -/
def listedSupertypes (listing : List (String × List String)) (name : String) : List String :=
  match listing.find? (·.1 = name) with
  | some (_, supertypes) => supertypes
  | none => []

theorem mem_of_listedSupertypes_ne_nil {listing : List (String × List String)} {name : String}
    (h : listedSupertypes listing name ≠ []) : name ∈ listing.map (·.1) := by
  unfold listedSupertypes at h
  cases hfind : listing.find? (·.1 = name) with
  | none => simp [hfind] at h
  | some entry =>
    have hname : entry.1 = name := by simpa using List.find?_some hfind
    exact List.mem_map.2 ⟨entry, List.mem_of_find?_eq_some hfind, hname⟩

namespace Hierarchy

/-- The hierarchy of a list of names with their supertypes. -/
def ofList (listing : List (String × List String)) : Hierarchy where
  supertypes := listedSupertypes listing
  names := listing.map (·.1)
  complete := fun _ h => mem_of_listedSupertypes_ne_nil h

/-- The hierarchy that knows no class. -/
def unknown : Hierarchy :=
  ofList []

/-- The supertypes of a name: those of the hierarchy, or the built-in ones without any. -/
def parents (hierarchy : Hierarchy) (name : String) : List String :=
  match hierarchy.supertypes name with
  | [] => listedSupertypes builtinSupertypes name
  | known => known

/-- Names that include all with parents. -/
def parentNames (hierarchy : Hierarchy) : List String :=
  hierarchy.names ++ builtinSupertypes.map (·.1)

end Hierarchy

end ClassAtlas
