import ClassAtlas.Proofs.Engine.Coherence
import ClassAtlas.Proofs.Types.AliasDirections
import ClassAtlas.Proofs.Types.Spelling

/-!
# Calls and the queries before them

Every class that is found under its simple name adds an alias, and aliases are
replaced in the types of arguments and parameters before a conversion is judged. An
alias has no package, so it never stands for a qualified or primitive name. A
parameter type without a package is another matter: when the index has a second
class of this simple name, a query for that class changes what the parameter means.
Where no such parameter is in question, a call resolves the same after any queries.
-/

namespace ClassAtlas

/-- The last segment of a name is not qualified. -/
theorem Text.isQualified_simpleName (qualified : String) :
    Text.isQualified (Text.simpleName qualified) = false := by
  have hpoint : '.' ∉ Text.afterLast '.' qualified.toList := by
    intro hmem
    have hkept := List.all_eq_true.1 List.all_takeWhile '.' (List.mem_reverse.1 hmem)
    simp at hkept
  simpa [Text.isQualified, Text.simpleName] using hpoint

/-- Indices that are alike have the same hierarchy. -/
theorem LibraryIndex.Alike.hierarchy_eq {tree : FileTree} {first second : LibraryIndex}
    (h : first.Alike tree second) : first.hierarchy tree = second.hierarchy tree := by
  have hsupertypes : first.supertypes tree = second.supertypes tree := by
    funext name
    unfold supertypes lookup?
    rw [h.lookupIn?_eq]
  have hnames : first.lookupNames = second.lookupNames := by
    unfold lookupNames
    rw [h.owners_eq]
  unfold hierarchy
  congr 1

/-! ## How a registry grows -/

namespace AliasRegistry

/-- A registry that has grown from its starting aliases by classes that were found. -/
structure GrownBy (found : ClassDescription → Prop) (configured : List (String × String))
    (registry : AliasRegistry) : Prop where
  /-- The configured aliases are kept for a reset. -/
  configured_eq : registry.configured = configured
  /-- The starting aliases keep their meaning. -/
  starting_kept : ∀ shortName qualifiedName,
    (ofConfigured configured).qualified.get? shortName = some qualifiedName →
      registry.qualified.get? shortName = some qualifiedName
  /-- Any other alias is the simple name of a class that was found. -/
  discovered : ∀ shortName qualifiedName,
    registry.qualified.get? shortName = some qualifiedName →
      (ofConfigured configured).qualified.get? shortName = some qualifiedName
        ∨ isPrimitiveName shortName = false ∧ ∃ description, found description
          ∧ description.simpleName = shortName ∧ description.name = qualifiedName

variable {found : ClassDescription → Prop} {configured : List (String × String)}
  {registry : AliasRegistry}

/-- A new registry has grown by nothing. -/
theorem grownBy_ofConfigured (found : ClassDescription → Prop)
    (configured : List (String × String)) : (ofConfigured configured).GrownBy found configured where
  configured_eq := configured_ofConfigured configured
  starting_kept _ _ h := h
  discovered _ _ h := .inl h

/-- A class that is found lets a registry grow. -/
theorem GrownBy.register (h : registry.GrownBy found configured) {description : ClassDescription}
    (hfound : found description) :
    (registry.register description.simpleName description.name).2.GrownBy found configured where
  configured_eq := by
    rw [configured_register, h.configured_eq]
  starting_kept := by
    intro shortName qualifiedName hstart
    have hkept := h.starting_kept shortName qualifiedName hstart
    rw [get?_register, if_neg]
    · exact hkept
    · rintro ⟨rfl, hfree, _⟩
      rw [hfree] at hkept
      cases hkept
  discovered := by
    intro shortName qualifiedName hget
    rw [get?_register] at hget
    split at hget
    · next hnew =>
      obtain ⟨rfl, _, hprimitive⟩ := hnew
      exact .inr ⟨hprimitive, description, hfound, rfl, Option.some.inj hget⟩
    · exact h.discovered shortName qualifiedName hget

/-- Whether an element means the same whatever has been found: it is a starting alias or a
primitive name, or no class of this simple name has another name. -/
def Settled (found : ClassDescription → Prop) (configured : List (String × String))
    (element : String) : Prop :=
  (ofConfigured configured).qualified.contains element = true ∨ isPrimitiveName element = true
    ∨ ∀ description, found description → description.simpleName = element →
      description.name = element

/-- The simple name of a class has no package, so qualified names mean the same. -/
theorem settled_of_isQualified {element : String} (h : Text.isQualified element = true) :
    Settled found configured element := by
  refine .inr (.inr fun description _ hname => ?_)
  rw [← hname, ClassDescription.simpleName, Text.isQualified_simpleName] at h
  cases h

/-- A settled element is replaced as in the beginning. -/
theorem GrownBy.standsFor?_eq (h : registry.GrownBy found configured) {element : String}
    (hsettled : Settled found configured element) :
    registry.standsFor? element = (ofConfigured configured).standsFor? element := by
  unfold standsFor?
  cases hstart : (ofConfigured configured).qualified.get? element with
  | some qualifiedName => rw [h.starting_kept element qualifiedName hstart]
  | none =>
    cases hget : registry.qualified.get? element with
    | none => rfl
    | some qualifiedName =>
      -- The alias was discovered, and what it stands for is the element itself.
      rcases h.discovered element qualifiedName hget with hsame | ⟨hprimitive, hclass⟩
      · rw [hstart] at hsame
        cases hsame
      · obtain ⟨description, hfound, hsimple, hname⟩ := hclass
        rcases hsettled with htaken | htype | hown
        · rw [Table.contains, hstart] at htaken
          cases htaken
        · rw [htype] at hprimitive
          cases hprimitive
        · have hself : qualifiedName = element := by
            rw [← hname]
            exact hown description hfound hsimple
          simp only [if_pos hself]

/-- Two registries that have grown by the same classes spell a name with a settled element
alike. -/
theorem GrownBy.spellsAlike {other : AliasRegistry} (h : registry.GrownBy found configured)
    (h' : other.GrownBy found configured) {name : String}
    (hsettled : Settled found configured (writtenElement name)) :
    SpellsAlike registry other name := by
  apply spellsAlike_of_standsFor?
  rw [h.standsFor?_eq hsettled, h'.standsFor?_eq hsettled]

end AliasRegistry

/-! ## How the queries of an engine let its registry grow -/

namespace Engine

open AliasRegistry

/-- Whether some declaration leads to a class. -/
def Finds (tree : FileTree) (engine : Engine) (description : ClassDescription) : Prop :=
  ∃ declaration, engine.description? tree declaration = some description

/-- Engines that are alike find the same classes. -/
theorem Alike.finds_eq {tree : FileTree} {first second : Engine} (h : Alike tree first second) :
    first.Finds tree = second.Finds tree := by
  funext description
  unfold Finds
  simp only [h.description?_eq]

section Steps

variable {tree : FileTree} {engine : Engine} {configured : List (String × String)}

theorem grownBy_ofIndex (found : ClassDescription → Prop) (index : LibraryIndex)
    (config : EngineConfig) (provider : Option DocumentationProvider) :
    (ofIndex index config provider).registry.GrownBy found
      (ofIndex index config provider).config.aliases := by
  dsimp only [ofIndex]
  exact grownBy_ofConfigured found config.aliases

/-- Populating a type lets the registry grow by a class that the engine finds, if at all. -/
theorem grownBy_populate (h : engine.registry.GrownBy (engine.Finds tree) configured)
    (declaration : TypeDeclaration) :
    (engine.populate tree declaration).registry.GrownBy (engine.Finds tree) configured := by
  unfold populate
  split
  · exact h
  · unfold freshRecord
    simp only
    cases hfound : engine.description? tree declaration with
    | none => exact h
    | some description => exact h.register ⟨declaration, hfound⟩

/-- Making records one after the other lets the registry grow by what the engine finds, which
stays the same. -/
theorem grownBy_foldl_populate (hcoherent : engine.index.Coherent)
    (h : engine.registry.GrownBy (engine.Finds tree) configured)
    (declarations : List TypeDeclaration) :
    (declarations.foldl (populate tree) engine).registry.GrownBy (engine.Finds tree)
      configured := by
  induction declarations generalizing engine with
  | nil => exact h
  | cons declaration declarations ih =>
    have hstep : Refreshes tree engine (engine.populate tree declaration) :=
      refreshes_populate hcoherent declaration
    have hgrown := grownBy_populate h declaration
    rw [hstep.alike.finds_eq] at hgrown ⊢
    exact ih hstep.coherent hgrown

/-- Resolving a declaration lets the registry grow by classes that the engine finds. -/
theorem grownBy_resolve (hcoherent : engine.index.Coherent)
    (h : engine.registry.GrownBy (engine.Finds tree) configured)
    (declaration : TypeDeclaration) :
    (engine.resolve tree declaration).registry.GrownBy (engine.Finds tree) configured :=
  grownBy_foldl_populate hcoherent h _

/-- Judging conversions discovers no alias. -/
theorem registry_bestOverload {γ : Type} (tree : FileTree) (engine : Engine)
    (view : γ → Candidate) (candidates : List γ) (call : CallSite) :
    (engine.bestOverload tree view candidates call).2.registry = engine.registry := rfl

/-- Resolving a call lets the registry grow by classes that the engine finds. -/
theorem grownBy_resolveCallSite (hcoherent : engine.index.Coherent)
    (h : engine.registry.GrownBy (engine.Finds tree) configured)
    (declaration : TypeDeclaration) (call : CallSite) :
    (engine.resolveCallSite tree declaration call).2.registry.GrownBy (engine.Finds tree)
      configured := by
  have hresolve := grownBy_resolve hcoherent h declaration
  rw [resolveCallSite_eq]
  split
  · exact hresolve
  · rw [registry_bestOverload]
    exact hresolve

/-- Every query lets the registry grow by classes that the engine finds, or forget some. -/
theorem grownBy_answer (hcoherent : engine.index.Coherent)
    (h : engine.registry.GrownBy (engine.Finds tree) configured) (query : EngineQuery) :
    (engine.answer tree query).registry.GrownBy (engine.Finds tree) configured := by
  cases query with
  | resolve declaration => exact grownBy_resolve hcoherent h declaration
  | resolveName name staticsOnly => exact grownBy_resolve hcoherent h _
  | completions declaration => exact grownBy_resolve hcoherent h declaration
  | resolveCallSite declaration call => exact grownBy_resolveCallSite hcoherent h declaration call
  | resolveCall typeName call =>
    rw [answer, resolveCall]
    cases CallSite.parse call with
    | error error => exact h
    | ok site => exact grownBy_resolveCallSite hcoherent h _ site
  | resolveFunctionCall call => exact h
  | mergeKeywords keywords => exact h
  | invalidate names => exact h
  | clearCache => exact h
  | resetAliases =>
    have hreset : (engine.answer tree .resetAliases).registry = ofConfigured configured := by
      rw [answer, resetAliases, reset, h.configured_eq]
    rw [hreset]
    exact grownBy_ofConfigured _ _

/-- After any queries, the registry has grown by classes that the engine finds. -/
theorem grownBy_answerAll (hcoherent : engine.index.Coherent)
    (h : engine.registry.GrownBy (engine.Finds tree) configured) (queries : List EngineQuery) :
    (engine.answerAll tree queries).registry.GrownBy (engine.Finds tree) configured := by
  unfold answerAll
  induction queries generalizing engine with
  | nil => exact h
  | cons query queries ih =>
    have hstep : Refreshes tree engine (engine.answer tree query) :=
      refreshes_answer hcoherent query
    have hgrown := grownBy_answer hcoherent h query
    rw [hstep.alike.finds_eq] at hgrown ⊢
    exact ih hstep.coherent hgrown

end Steps

/-! ## What a call resolves to -/

/-- The candidates of a call: the callable completions of a declaration. -/
def callable (tree : FileTree) (engine : Engine) (declaration : TypeDeclaration) : List Member :=
  (engine.completed tree declaration).filter Member.isCallable

/-- What a call resolves to, seen from the engine that has resolved the declaration. -/
theorem resolveCallSite_result (tree : FileTree) (engine : Engine)
    (declaration : TypeDeclaration) (call : CallSite) :
    (engine.resolveCallSite tree declaration call).1
      = if !(engine.resolved tree declaration).isFound then .typeNotFound
        else .ofBest (((engine.resolve tree declaration).registry.best Member.candidate
          (engine.callable tree declaration) call.name call.arguments).result
            ((engine.resolve tree declaration).index.hierarchy tree)) := by
  unfold resolveCallSite callable completed resolved
  generalize engine.resolve tree declaration = after
  dsimp only
  split
  · rfl
  · rfl

/-- Whether an element of a type name means the same whatever an engine is asked. -/
def MeansTheSame (tree : FileTree) (engine : Engine) (element : String) : Prop :=
  Settled (engine.Finds tree) engine.config.aliases element

/-- Whether a type name is qualified or primitive, or an array of such a type. -/
def PlainlyWritten (name : String) : Prop :=
  Text.isQualified (writtenElement name) = true ∨ isPrimitiveName (writtenElement name) = true

/-- A name that is plainly written means the same whatever is discovered. -/
theorem PlainlyWritten.settled {found : ClassDescription → Prop}
    {configured : List (String × String)} {name : String} (h : PlainlyWritten name) :
    Settled found configured (writtenElement name) := by
  rcases h with hqualified | hprimitive
  · exact settled_of_isQualified hqualified
  · exact .inr (.inl hprimitive)

/-- Two engines that find the same classes resolve a call alike, when its arguments are plainly
written and the parameters of its candidates mean the same. -/
theorem UpToDate.resolveCallSite_result_eq {tree : FileTree} {first second : Engine}
    {declaration : TypeDeclaration} {call : CallSite} (hfirst : first.UpToDate tree)
    (hsecond : second.UpToDate tree) (halike : Alike tree first second)
    (hfirstGrown : first.registry.GrownBy (first.Finds tree) second.config.aliases)
    (hsecondGrown : second.registry.GrownBy (second.Finds tree) second.config.aliases)
    (harguments : ∀ argument ∈ call.arguments, PlainlyWritten argument)
    (hparameters : ∀ member ∈ second.callable tree declaration, member.name = call.name →
      member.parameters.length = call.arguments.length → ∀ parameter ∈ member.parameters,
        second.MeansTheSame tree (writtenElement parameter.typeName)) :
    (first.resolveCallSite tree declaration call).1
      = (second.resolveCallSite tree declaration call).1 := by
  have hfirstStep : Refreshes tree first (first.resolve tree declaration) :=
    refreshes_resolve hfirst.coherent declaration
  have hsecondStep : Refreshes tree second (second.resolve tree declaration) :=
    refreshes_resolve hsecond.coherent declaration
  have hfirstAfter := hfirst.of_refreshes hfirstStep
  have hsecondAfter := hsecond.of_refreshes hsecondStep
  have halikeAfter := hfirstStep.alike.symm.trans (halike.trans hsecondStep.alike)
  have hresolved : first.resolved tree declaration = second.resolved tree declaration :=
    congrFun (hfirstAfter.record_eq hsecondAfter halikeAfter) declaration
  have hcallable : first.callable tree declaration = second.callable tree declaration := by
    unfold callable completed
    rw [hfirstAfter.completions_eq hsecondAfter halikeAfter]
  -- Both registries have grown by the same classes, also on the way through this declaration.
  have hfirstRegistry := grownBy_resolve hfirst.coherent hfirstGrown declaration
  have hsecondRegistry := grownBy_resolve hsecond.coherent hsecondGrown declaration
  rw [halike.finds_eq] at hfirstRegistry
  have hbest : (first.resolve tree declaration).registry.best Member.candidate
      (second.callable tree declaration) call.name call.arguments
      = (second.resolve tree declaration).registry.best Member.candidate
        (second.callable tree declaration) call.name call.arguments := by
    apply best_congr
    · intro argument hargument
      exact hfirstRegistry.spellsAlike hsecondRegistry (harguments argument hargument).settled
    · intro member hmember hname hlength formal hformal
      obtain ⟨parameter, hparameter, rfl⟩ := List.mem_map.1 hformal
      have hcount : member.parameters.length = call.arguments.length := by
        rw [← hlength]
        exact (List.length_map _).symm
      exact hfirstRegistry.spellsAlike hsecondRegistry
        (hparameters member hmember hname hcount parameter hparameter)
  rw [resolveCallSite_result, resolveCallSite_result, hresolved, hcallable, hbest,
    halikeAfter.index_alike.hierarchy_eq]

/-- A call with plainly written arguments resolves the same after any queries, when the
parameters of its candidates mean the same. -/
theorem call_independent_of_history (tree : FileTree) (calls : List LibraryIndex.Call)
    (config : EngineConfig) (provider : Option DocumentationProvider)
    (history : List EngineQuery) (declaration : TypeDeclaration) (call : CallSite)
    (harguments : ∀ argument ∈ call.arguments, PlainlyWritten argument)
    (hparameters : ∀ member ∈ (ofIndex (.ofCalls calls) config provider).callable tree declaration,
      member.name = call.name → member.parameters.length = call.arguments.length →
        ∀ parameter ∈ member.parameters,
          (ofIndex (.ofCalls calls) config provider).MeansTheSame tree
            (writtenElement parameter.typeName)) :
    (((ofIndex (.ofCalls calls) config provider).answerAll tree history).resolveCallSite tree
        declaration call).1
      = ((ofIndex (.ofCalls calls) config provider).resolveCallSite tree declaration call).1 := by
  have hstart : (ofIndex (.ofCalls calls) config provider).UpToDate tree :=
    upToDate_ofIndex (LibraryIndex.coherent_ofCalls calls) config provider
  have hgrown : (ofIndex (.ofCalls calls) config provider).registry.GrownBy
      ((ofIndex (.ofCalls calls) config provider).Finds tree)
      (ofIndex (.ofCalls calls) config provider).config.aliases := grownBy_ofIndex _ _ _ _
  generalize ofIndex (.ofCalls calls) config provider = start at *
  have hrun : Refreshes tree start (start.answerAll tree history) :=
    refreshes_answerAll hstart.coherent history
  have hrunGrown := grownBy_answerAll hstart.coherent hgrown history
  rw [hrun.alike.finds_eq] at hrunGrown
  exact (hstart.of_refreshes hrun).resolveCallSite_result_eq hstart hrun.alike.symm hrunGrown
    hgrown harguments hparameters

/-- A class file that declares the interface `app.Main` with two methods `f`, one for the class
`Widget` without a package and one for any object, and two methods `g`, one for the class
`lib.Widget` and one for any object. -/
def mainFile : Bytes :=
  [0xCA, 0xFE, 0xBA, 0xBE, 0x00, 0x00, 0x00, 0x34, 0x00, 0x08, 0x01, 0x00, 0x08, 0x61, 0x70, 0x70,
    0x2F, 0x4D, 0x61, 0x69, 0x6E, 0x07, 0x00, 0x01, 0x01, 0x00, 0x01, 0x66, 0x01, 0x00, 0x0B, 0x28,
    0x4C, 0x57, 0x69, 0x64, 0x67, 0x65, 0x74, 0x3B, 0x29, 0x56, 0x01, 0x00, 0x15, 0x28, 0x4C, 0x6A,
    0x61, 0x76, 0x61, 0x2F, 0x6C, 0x61, 0x6E, 0x67, 0x2F, 0x4F, 0x62, 0x6A, 0x65, 0x63, 0x74, 0x3B,
    0x29, 0x56, 0x01, 0x00, 0x01, 0x67, 0x01, 0x00, 0x0F, 0x28, 0x4C, 0x6C, 0x69, 0x62, 0x2F, 0x57,
    0x69, 0x64, 0x67, 0x65, 0x74, 0x3B, 0x29, 0x56, 0x06, 0x01, 0x00, 0x02, 0x00, 0x00, 0x00, 0x00,
    0x00, 0x00, 0x00, 0x04, 0x04, 0x01, 0x00, 0x03, 0x00, 0x04, 0x00, 0x00, 0x04, 0x01, 0x00, 0x03,
    0x00, 0x05, 0x00, 0x00, 0x04, 0x01, 0x00, 0x06, 0x00, 0x07, 0x00, 0x00, 0x04, 0x01, 0x00, 0x06,
    0x00, 0x05, 0x00, 0x00, 0x00, 0x00]

/-- A class file that declares the interface `lib.Widget` and nothing else. -/
def widgetFile : Bytes :=
  [0xCA, 0xFE, 0xBA, 0xBE, 0x00, 0x00, 0x00, 0x34, 0x00, 0x03, 0x01, 0x00, 0x0A, 0x6C, 0x69, 0x62,
    0x2F, 0x57, 0x69, 0x64, 0x67, 0x65, 0x74, 0x07, 0x00, 0x01, 0x06, 0x01, 0x00, 0x02, 0x00, 0x00,
    0x00, 0x00, 0x00, 0x00, 0x00, 0x00, 0x00, 0x00]

/-- The tree that holds these files in one archive. -/
def widgetTree : FileTree :=
  ⟨[(["calls.jar"], .file (.archive
    [⟨"app/Main.class", mainFile, false⟩, ⟨"lib/Widget.class", widgetFile, false⟩]))], []⟩

/-- The registration of this archive. -/
def widgetCalls : List LibraryIndex.Call :=
  [.register widgetTree ⟨.archive, "calls.jar"⟩ none]

/-- Resolving `lib.Widget` before makes no difference to a call of `g`, whose parameter types mean
the same to both engines. -/
theorem call_of_widget_independent :
    (∀ member ∈ (ofIndex (.ofCalls widgetCalls) .standard none).callable widgetTree
        ⟨"app.Main", false⟩, member.name = "g" → ∀ parameter ∈ member.parameters,
          (ofIndex (.ofCalls widgetCalls) .standard none).MeansTheSame widgetTree
            (writtenElement parameter.typeName))
      ∧ (((ofIndex (.ofCalls widgetCalls) .standard none).answerAll widgetTree
          [.resolve ⟨"lib.Widget", false⟩]).resolveCallSite widgetTree ⟨"app.Main", false⟩
            ⟨"g", ["lib.Widget"]⟩).1
        = ((ofIndex (.ofCalls widgetCalls) .standard none).resolveCallSite widgetTree
            ⟨"app.Main", false⟩ ⟨"g", ["lib.Widget"]⟩).1 := by
  have hqualified : ∀ member ∈ (ofIndex (.ofCalls widgetCalls) .standard none).callable widgetTree
      ⟨"app.Main", false⟩, member.name = "g" → ∀ parameter ∈ member.parameters,
        Text.isQualified (writtenElement parameter.typeName) = true := by
    decide +kernel
  have hmeans : ∀ member ∈ (ofIndex (.ofCalls widgetCalls) .standard none).callable widgetTree
      ⟨"app.Main", false⟩, member.name = "g" → ∀ parameter ∈ member.parameters,
        (ofIndex (.ofCalls widgetCalls) .standard none).MeansTheSame widgetTree
          (writtenElement parameter.typeName) :=
    fun member hmember hname parameter hparameter =>
      settled_of_isQualified (hqualified member hmember hname parameter hparameter)
  refine ⟨hmeans, call_independent_of_history widgetTree widgetCalls .standard none _ _ _ ?_
    fun member hmember hname _ => hmeans member hmember hname⟩
  intro argument hargument
  rw [List.mem_singleton.1 hargument]
  exact .inl (by decide +kernel)

/-- The method of `app.Main` with one parameter of a given type. -/
def mainMethod (name typeName : String) : Member :=
  { kind := .method, name, owner := some "app.Main", key := name ++ "(" ++ typeName ++ ")"
    resultType := none, parameters := [⟨typeName, "arg0"⟩], isStatic := false
    isDeprecated := false
    summary := "public abstract void " ++ name ++ "(" ++ typeName ++ " arg0)" }

/-- Not every call resolves the same after other queries: a query for `lib.Widget` makes
`Widget` an alias of it, and a call that a fresh engine resolves to the method for any object
then resolves to the method for the class `Widget` without a package. -/
theorem discovered_alias_changes_call :
    Text.isQualified "app.Main" = true ∧ PlainlyWritten "lib.Widget"
      ∧ ((ofIndex (.ofCalls widgetCalls) .standard none).resolveCallSite widgetTree
          ⟨"app.Main", false⟩ ⟨"f", ["lib.Widget"]⟩).1
        = .resolved (mainMethod "f" "java.lang.Object") 2
      ∧ (((ofIndex (.ofCalls widgetCalls) .standard none).answerAll widgetTree
          [.resolve ⟨"lib.Widget", false⟩]).resolveCallSite widgetTree ⟨"app.Main", false⟩
            ⟨"f", ["lib.Widget"]⟩).1
        = .resolved (mainMethod "f" "Widget") 0 := by
  refine ⟨by decide +kernel, .inl (by decide +kernel), ?_, ?_⟩
  · decide +kernel
  · decide +kernel

end Engine

end ClassAtlas
