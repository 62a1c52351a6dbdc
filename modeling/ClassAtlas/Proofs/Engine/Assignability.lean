import ClassAtlas.Proofs.Engine.Resolution
import ClassAtlas.Proofs.Engine.WrittenNames
import ClassAtlas.Proofs.Types.Ancestry

/-!
# Extensions can be assigned to

What a type extends is known twice: the records in the cache list its extensions,
and the hierarchy of the index lists its supertypes. The records look names up in
the packages of the engine, the hierarchy looks them up in the standard packages.
Where this leads to the same classes, the hierarchy has all extensions among its
supertypes, and a value of a type can be assigned to everything that its cached
extensions lead to. Types with the name of a primitive type or of an array are
excepted, as nothing is assigned to or from these by way of supertypes.
-/

namespace ClassAtlas.Engine

section Definitions

variable (tree : FileTree) (engine : Engine)

/-- Whether a name leads to the same class in the packages of an engine as in the standard
packages. -/
def LooksUpAlike (name : String) : Prop :=
  engine.index.lookupIn? tree name "" engine.config.defaultPackages = engine.index.lookup? tree name

/-- Whether a type extends another by a record in the cache, and its name leads to the same
class for the hierarchy. -/
def ExtendsAlike (lower upper : TypeDeclaration) : Prop :=
  engine.CachedExtends lower upper ∧ engine.LooksUpAlike tree lower.qualifiedName

end Definitions

variable {tree : FileTree} {engine : Engine} {name : String}
  {declaration lower upper above : TypeDeclaration}

instance : Decidable (engine.CachedExtends lower upper) :=
  decidable_of_iff
    ((engine.cached? lower).any (fun cached => upper ∈ cached.resolved.extensions) = true)
    (by simp [CachedExtends, Option.any_eq_true])

/-- A qualified name is looked up in no package. -/
theorem looksUpAlike_of_isQualified (h : Text.isQualified name = true) :
    engine.LooksUpAlike tree name := by
  unfold LooksUpAlike LibraryIndex.lookup? LibraryIndex.lookupIn? LibraryIndex.served?
  simp only [LibraryIndex.candidateNames_of_isQualified h]

/-- With the standard default packages, engine and index look all names up alike. -/
theorem looksUpAlike_of_defaultPackages
    (h : engine.config.defaultPackages = standardPackages) :
    engine.LooksUpAlike tree name := by
  unfold LooksUpAlike LibraryIndex.lookup?
  rw [h]

/-- What a fresh record extends is a supertype of the class that is found. -/
theorem exists_of_mem_extensions (h : upper ∈ (engine.freshRecord tree lower).extensions) :
    ∃ description, engine.description? tree lower = some description
      ∧ upper.qualifiedName ∈ description.supertypes := by
  unfold freshRecord at h
  cases hdescription : engine.description? tree lower with
  | none =>
    rw [hdescription] at h
    cases h
  | some description =>
    rw [hdescription] at h
    obtain ⟨supertype, hsupertype, rfl⟩ := List.mem_map.1 h
    exact ⟨description, rfl, (List.mem_filter.1 hsupertype).1⟩

/-- An extension that is looked up alike is a parent in the hierarchy. -/
theorem UpToDate.isBelow (h : engine.UpToDate tree)
    (hextends : engine.ExtendsAlike tree lower upper) :
    (engine.index.hierarchy tree).IsBelow lower.qualifiedName upper.qualifiedName := by
  obtain ⟨⟨cached, hcached, hupper⟩, halike⟩ := hextends
  have hrecord : engine.record tree lower = cached.resolved := record_of_cached? hcached
  rw [← hrecord, h.record_fresh] at hupper
  obtain ⟨description, hdescription, hsupertype⟩ := exists_of_mem_extensions hupper
  -- the hierarchy finds the class of the record, though it looks in the standard packages
  have hlookup : engine.index.lookup? tree lower.qualifiedName = some description :=
    halike.symm.trans hdescription
  apply Hierarchy.isBelow_of_mem_supertypes
  change upper.qualifiedName ∈ engine.index.supertypes tree lower.qualifiedName
  rw [LibraryIndex.supertypes, hlookup]
  exact hsupertype

/-- Everything that such extensions lead to is above the type in the hierarchy. -/
theorem UpToDate.reflTransGen_isBelow (h : engine.UpToDate tree)
    (hleads : Relation.ReflTransGen (engine.ExtendsAlike tree) declaration above) :
    Relation.ReflTransGen (engine.index.hierarchy tree).IsBelow declaration.qualifiedName
      above.qualifiedName :=
  hleads.lift TypeDeclaration.qualifiedName fun _ _ hextends => h.isBelow hextends

/-- When a declaration has been resolved, after any queries, its type can be assigned to every
type that cached extensions lead to, as long as these are looked up alike and supertypes count
between the two names. So an argument of the type is not refused for a parameter of the other,
unless aliases make something else of these names. Qualified names are always looked up alike,
and so are all names in an engine with the standard packages. -/
theorem extensions_assignable (calls : List LibraryIndex.Call) (config : EngineConfig)
    (provider : Option DocumentationProvider) (history : List EngineQuery) (tree : FileTree)
    (declaration above : TypeDeclaration) :
    let engine := ((ofIndex (.ofCalls calls) config provider).answerAll tree history).resolve tree
      declaration
    (∀ name, Text.isQualified name = true
        ∨ config.defaultPackages = standardPackages → engine.LooksUpAlike tree name)
      ∧ (Relation.ReflTransGen (engine.ExtendsAlike tree) declaration above →
        SupertypesCount declaration.qualifiedName above.qualifiedName →
          (engine.index.hierarchy tree).isAssignable declaration.qualifiedName above.qualifiedName
              = true
            ∧ ∀ registry : AliasRegistry,
              registry.normalize declaration.qualifiedName = declaration.qualifiedName →
                registry.normalize above.qualifiedName = above.qualifiedName →
                  registry.conversionScore (engine.index.hierarchy tree) declaration.qualifiedName
                    above.qualifiedName < noMatch) := by
  intro engine
  have hstart : (ofIndex (.ofCalls calls) config provider).UpToDate tree :=
    upToDate_ofIndex (LibraryIndex.coherent_ofCalls calls) config provider
  have hhistory : Refreshes tree (ofIndex (.ofCalls calls) config provider)
      ((ofIndex (.ofCalls calls) config provider).answerAll tree history) :=
    refreshes_answerAll hstart.coherent history
  have hrun : Refreshes tree (ofIndex (.ofCalls calls) config provider) engine :=
    hhistory.trans (refreshes_resolve hhistory.coherent declaration)
  refine ⟨fun name hname => ?_, fun hleads hcount => ?_⟩
  · rcases hname with hqualified | hpackages
    · exact looksUpAlike_of_isQualified hqualified
    · apply looksUpAlike_of_defaultPackages
      rw [← hrun.alike.config_eq]
      exact hpackages
  · have habove := (hstart.of_refreshes hrun).reflTransGen_isBelow hleads
    have hassignable := Hierarchy.isAssignable_of_supertypesCount hcount habove
    refine ⟨hassignable, fun registry hactual hformal => ?_⟩
    apply AliasRegistry.conversionScore_lt_of_isAssignable
    rw [hactual, hformal]
    exact hassignable

/-- The bytes of a text constant, for ASCII texts of fewer than 256 characters. -/
def textConstant (text : String) : Bytes :=
  0x01 :: 0x00 :: text.length.toUInt8 :: text.toList.map fun c => c.toNat.toUInt8

/-- A class file that declares a class by its internal name, which implements `app.Base`. -/
def implementingFile (internalName : String) : Bytes :=
  [0xCA, 0xFE, 0xBA, 0xBE, 0x00, 0x00, 0x00, 0x34, 0x00, 0x05] ++ textConstant internalName
    ++ [0x07, 0x00, 0x01] ++ textConstant "app/Base"
    ++ [0x07, 0x00, 0x03, 0x00, 0x21, 0x00, 0x02, 0x00, 0x00, 0x00, 0x01, 0x00, 0x04, 0x00, 0x00,
      0x00, 0x00, 0x00, 0x00]

/-- The tree that holds an archive with three such classes, of which one has the name of a
primitive type and one the name of an array. -/
def implementingTree : FileTree :=
  ⟨[(["app.jar"], .file (.archive
    [⟨"int.class", implementingFile "int", false⟩, ⟨"A[].class", implementingFile "A[]", false⟩,
      ⟨"app/Foo.class", implementingFile "app/Foo", false⟩]))], []⟩

/-- The registration of this archive. -/
def implementingCalls : List LibraryIndex.Call :=
  [.register implementingTree ⟨.archive, "app.jar"⟩ none]

/-- An engine over this archive that has resolved a declaration. -/
def implementingEngine (config : EngineConfig) (declaration : TypeDeclaration) : Engine :=
  (ofIndex (.ofCalls implementingCalls) config none).resolve implementingTree declaration

/-- The class `app.Foo` of this archive can be assigned to `app.Base`. -/
theorem foo_assignable_to_base :
    let engine := implementingEngine .standard ⟨"app.Foo", false⟩
    engine.ExtendsAlike implementingTree ⟨"app.Foo", false⟩ ⟨"app.Base", false⟩
      ∧ SupertypesCount "app.Foo" "app.Base"
      ∧ (engine.index.hierarchy implementingTree).isAssignable "app.Foo" "app.Base" = true
      ∧ engine.registry.conversionScore (engine.index.hierarchy implementingTree) "app.Foo"
        "app.Base" < noMatch := by
  intro engine
  have hextends : engine.ExtendsAlike implementingTree ⟨"app.Foo", false⟩ ⟨"app.Base", false⟩ :=
    ⟨by decide +kernel, looksUpAlike_of_isQualified (by decide)⟩
  have hcount : SupertypesCount "app.Foo" "app.Base" := .inr (.inl (by decide))
  obtain ⟨hassignable, hconverts⟩ := (extensions_assignable implementingCalls .standard none []
    implementingTree ⟨"app.Foo", false⟩ ⟨"app.Base", false⟩).2 (.single hextends) hcount
  exact ⟨hextends, hcount, hassignable,
    hconverts engine.registry (by decide +kernel) (by decide +kernel)⟩

/-- Whether a class of this archive extends `app.Base` and cannot be assigned to it. -/
def RefusesBase (config : EngineConfig) (name : String) : Prop :=
  (implementingEngine config ⟨name, false⟩).CachedExtends ⟨name, false⟩ ⟨"app.Base", false⟩
    ∧ ((implementingEngine config ⟨name, false⟩).index.hierarchy implementingTree).isAssignable
      name "app.Base" = false

/-- Not all extensions can be assigned to: classes with the name of a primitive type or of an
array are no classes to the rules, and the hierarchy does not find `app.Foo` by its simple
name in a package of the engine. And an alias for the name of an extension lets an argument be
refused that can be assigned. -/
theorem extensions_refused :
    RefusesBase .standard "int" ∧ RefusesBase .standard "A[]"
      ∧ RefusesBase { EngineConfig.standard with defaultPackages := ["app"] } "Foo"
      ∧ (let engine := implementingEngine
          { EngineConfig.standard with aliases := [("app.Base", "lib.Base")] } ⟨"app.Foo", false⟩
        engine.CachedExtends ⟨"app.Foo", false⟩ ⟨"app.Base", false⟩
          ∧ engine.registry.conversionScore (engine.index.hierarchy implementingTree) "app.Foo"
            "app.Base" = noMatch) := by
  unfold RefusesBase
  decide +kernel

end ClassAtlas.Engine
