import ClassAtlas.Proofs.Engine.Removal
import ClassAtlas.Proofs.Engine.States

/-!
# Where a written name leads

A name as the caller wrote it is searched for in two ways. The index takes it as it
is before it tries the default packages, and passes over packages without a name.
The engine tries all default packages first, and falls back on the name as it is.
They find the same class unless the engine prefers a member of a package where the
index takes another name. While no library comes or goes, the cache does not show in
this.
-/

namespace ClassAtlas

/-! ## Searching for names -/

/-- Whatever is found among some names is found among them without repetitions. -/
theorem find?_eraseDups (test : String → Bool) :
    (names : List String) → names.eraseDups.find? test = names.find? test
  | [] => rfl
  | first :: names => by
    rw [List.eraseDups_cons]
    by_cases htest : test first = true
    · rw [List.find?_cons_of_pos htest, List.find?_cons_of_pos htest]
    · rw [List.find?_cons_of_neg htest, List.find?_cons_of_neg htest, find?_eraseDups test]
      refine LibraryIndex.find?_filter_of_kept fun name hname => ?_
      have hne : name ≠ first := fun heq => htest (heq ▸ List.find?_some hname)
      simpa using hne
termination_by names => names.length
decreasing_by exact Nat.lt_succ_of_le (List.length_filter_le _ _)

/-- The name of a package member is qualified. -/
theorem Text.isQualified_member (package name : String) :
    isQualified (package ++ "." ++ name) = true := by
  simp [isQualified]

/-- Only the package without a name puts nothing before the point. -/
theorem Text.member_eq_unnamed_iff {package name : String} :
    package ++ "." ++ name = "." ++ name ↔ package = "" := by
  rw [String.append_assoc, String.append_eq_right_iff]

namespace LibraryIndex

variable {tree : FileTree} {index : LibraryIndex}

/-- The class that is served under a name, taken as it is. -/
def classAt? (tree : FileTree) (index : LibraryIndex) (name : String) :
    Option ClassDescription :=
  (index.owner? name).bind (·.class? tree name)

/-- A look-up takes the first candidate that is served. -/
theorem Coherent.lookupIn?_eq_bind (h : index.Coherent) (name current : String)
    (defaults : List String) :
    index.lookupIn? tree name current defaults
      = ((candidateNames name current defaults).find? index.contains).bind
        (index.classAt? tree) := by
  rw [lookupIn?_eq]
  induction candidateNames name current defaults with
  | nil => rfl
  | cons candidate candidates ih =>
    rw [List.findSome?_cons, List.find?_cons, h.contains_eq]
    cases howner : index.owner? candidate with
    | none => exact ih
    | some library => simp [classAt?, howner]

theorem candidateNames_of_isQualified {name : String} (h : Text.isQualified name = true)
    (current : String) (defaults : List String) :
    candidateNames name current defaults = [name] := by
  rw [candidateNames, if_pos h]

/-- A simple name is taken as it is, and otherwise in the packages that have a name. -/
theorem find?_candidateNames {name : String} (h : Text.isQualified name = false)
    (defaults : List String) (test : String → Bool) :
    (candidateNames name "" defaults).find? test
      = if test name then some name
        else ((defaults.map (· ++ "." ++ name)).filter (· ≠ "." ++ name)).find? test := by
  have hnamed : (defaults.map (· ++ "." ++ name)).filter (· ≠ "." ++ name)
      = (("" :: defaults).filter (· ≠ "")).map (· ++ "." ++ name) := by
    rw [List.filter_map, List.filter_cons_of_neg (by simp)]
    congr 2
    funext package
    simp only [Function.comp_apply, ne_eq, Text.member_eq_unnamed_iff]
  have hsimple : ¬ Text.isQualified name = true := by rw [h]; exact Bool.false_ne_true
  rw [candidateNames, if_neg hsimple, find?_eraseDups, List.find?_cons, hnamed]
  cases test name with
  | true => rfl
  | false => rfl

end LibraryIndex

namespace Engine

/-! ## The two searches -/

/-- The names that a written name has in the default packages; a qualified name has none. -/
def packageMembers (config : EngineConfig) (name : String) : List String :=
  if Text.isQualified name then [] else config.defaultPackages.map (· ++ "." ++ name)

section Definitions

variable (tree : FileTree) (engine : Engine)

/-- Whether the engine takes a package member for a written name although the index does not:
the name is served as it is, or the package has no name. -/
def Prefers (name member : String) : Prop :=
  (packageMembers engine.config name).find? engine.index.contains = some member
    ∧ (engine.index.contains name = true ∨ member = "." ++ name)

/-- Whether resolving a written name gives the class that a look-up finds, and none when the
look-up finds none. -/
def FindsLookedUp (name : String) : Prop :=
  (engine.resolved tree (engine.declaration name)).description
    = engine.index.lookupIn? tree name "" engine.config.defaultPackages

/-- Whether the record of a declaration holds another class than would be found now. -/
def Outdated (declaration : TypeDeclaration) : Prop :=
  (engine.record tree declaration).description ≠ engine.description? tree declaration

end Definitions

variable {tree : FileTree} {engine : Engine} {name member : String}

/-- A name that is no alias is declared in the first default package that serves it, or as it is
written. -/
theorem declaration_of_not_alias (h : engine.registry.declaration? name = none) :
    engine.declaration name
      = .ofName (((packageMembers engine.config name).find? engine.index.contains).getD name) := by
  rw [declaration, h]
  rfl

/-- Whatever is found in a package belongs to a simple name. -/
theorem simple_of_find?_packageMembers {config : EngineConfig} {test : String → Bool}
    (h : (packageMembers config name).find? test = some member) :
    Text.isQualified name = false
      ∧ packageMembers config name = config.defaultPackages.map (· ++ "." ++ name)
      ∧ Text.isQualified member = true := by
  have hmem := List.mem_of_find?_eq_some h
  unfold packageMembers at hmem ⊢
  split at hmem
  · cases hmem
  · next hsimple =>
    rw [if_neg hsimple]
    obtain ⟨package, _, rfl⟩ := List.mem_map.1 hmem
    exact ⟨Bool.eq_false_iff.2 hsimple, rfl, Text.isQualified_member package name⟩

/-- The class of a package member is the one that is served under its name. -/
theorem description?_ofName_member (hcoherent : engine.index.Coherent)
    (h : (packageMembers engine.config name).find? engine.index.contains = some member) :
    engine.description? tree (.ofName member) = engine.index.classAt? tree member := by
  obtain ⟨-, -, hqualified⟩ := simple_of_find?_packageMembers h
  have hserved : [member].find? engine.index.contains = some member :=
    List.find?_cons_of_pos (List.find?_some h)
  have hname : (TypeDeclaration.ofName member).qualifiedName = member := rfl
  rw [description?, hname, hcoherent.lookupIn?_eq_bind,
    LibraryIndex.candidateNames_of_isQualified hqualified, hserved, Option.bind_some]

/-- A package member that is not merely preferred is what the index takes as well. -/
theorem lookupIn?_of_not_prefers (hcoherent : engine.index.Coherent)
    (h : (packageMembers engine.config name).find? engine.index.contains = some member)
    (hnot : ¬ engine.Prefers name member) :
    engine.index.lookupIn? tree name "" engine.config.defaultPackages
      = engine.index.classAt? tree member := by
  obtain ⟨hsimple, hmembers, -⟩ := simple_of_find?_packageMembers h
  have hothers : ¬ engine.index.contains name = true ∧ member ≠ "." ++ name :=
    not_or.1 fun hor => hnot ⟨h, hor⟩
  rw [hmembers] at h
  -- the member that is found stays the first one without the package that has no name
  have hnamed : ((engine.config.defaultPackages.map (· ++ "." ++ name)).filter
      (· ≠ "." ++ name)).find? engine.index.contains = some member := by
    rw [LibraryIndex.find?_filter_of_kept, h]
    intro other hother
    rw [h, Option.some.injEq] at hother
    rw [← hother]
    exact decide_eq_true hothers.2
  rw [hcoherent.lookupIn?_eq_bind, LibraryIndex.find?_candidateNames hsimple, if_neg hothers.1,
    hnamed, Option.bind_some]

/-- Both searches end at the same class exactly if that is so for what the engine prefers. -/
theorem description?_declaration_eq_iff (hcoherent : engine.index.Coherent)
    (halias : engine.registry.declaration? name = none) :
    engine.description? tree (engine.declaration name)
        = engine.index.lookupIn? tree name "" engine.config.defaultPackages
      ↔ ∀ member, engine.Prefers name member → engine.index.classAt? tree member
        = engine.index.lookupIn? tree name "" engine.config.defaultPackages := by
  rw [declaration_of_not_alias halias]
  cases hfind : (packageMembers engine.config name).find? engine.index.contains with
  | none =>
    -- the declaration has the name as it is, which is looked up in the same way
    refine iff_of_true rfl fun member hprefers => ?_
    rw [Prefers, hfind] at hprefers
    cases hprefers.1
  | some member =>
    rw [Option.getD_some, description?_ofName_member hcoherent hfind]
    constructor
    · intro hsame other hprefers
      have hother := hprefers.1
      rw [hfind, Option.some.injEq] at hother
      rw [← hother]
      exact hsame
    · intro hpreferred
      by_cases hprefers : engine.Prefers name member
      · exact hpreferred member hprefers
      · exact (lookupIn?_of_not_prefers hcoherent hfind hprefers).symm

/-- A fresh record has the class that the engine finds. -/
theorem description_freshRecord (tree : FileTree) (engine : Engine)
    (declaration : TypeDeclaration) :
    (engine.freshRecord tree declaration).description = engine.description? tree declaration := by
  unfold freshRecord
  cases engine.description? tree declaration with
  | none => rfl
  | some description => rfl

/-- Records that are up to date are not outdated. -/
theorem UpToDate.not_outdated (h : engine.UpToDate tree) (declaration : TypeDeclaration) :
    ¬ engine.Outdated tree declaration := by
  intro houtdated
  refine houtdated ?_
  rw [h.record_fresh, description_freshRecord]

/-- What resolving answers is the record, which is the class that is found now unless it is
outdated. -/
theorem description_resolved (hcoherent : engine.index.Coherent) {declaration : TypeDeclaration}
    (hfresh : ¬ engine.Outdated tree declaration) :
    (engine.resolved tree declaration).description = engine.description? tree declaration := by
  rw [resolved, record_resolve hcoherent]
  exact not_not.1 hfresh

/-- In every state that an engine can come to, a written name that is no alias and has no
outdated record resolves to the class that a look-up finds, exactly if what the engine prefers
to the choice of the index is the same class. No record is outdated as long as libraries
neither come nor go. -/
theorem written_name_looked_up_iff (calls : List LibraryIndex.Call) (config : EngineConfig)
    (provider : Option DocumentationProvider) (tree : FileTree) :
    (∀ events name,
      let engine := (ofIndex (.ofCalls calls) config provider).after events
      engine.registry.declaration? name = none →
        ¬ engine.Outdated tree (engine.declaration name) →
          (engine.FindsLookedUp tree name
            ↔ ∀ member, engine.Prefers name member → engine.index.classAt? tree member
              = engine.index.lookupIn? tree name "" engine.config.defaultPackages))
      ∧ ∀ queries declaration,
        ¬ ((ofIndex (.ofCalls calls) config provider).answerAll tree queries).Outdated tree
          declaration := by
  refine ⟨fun events name => ?_, fun queries declaration => ?_⟩
  · intro engine halias hfresh
    have h : engine.WellFormed := wellFormed_after calls config provider events
    rw [FindsLookedUp, description_resolved h.coherent hfresh]
    exact description?_declaration_eq_iff h.coherent halias
  · have hstart : (ofIndex (.ofCalls calls) config provider).UpToDate tree :=
      upToDate_ofIndex (LibraryIndex.coherent_ofCalls calls) config provider
    have hrun := hstart.of_refreshes (refreshes_answerAll hstart.coherent queries)
    exact hrun.not_outdated declaration

/-- Where only `java.lang.Foo` is served, a name without a package leads there in both ways. -/
theorem written_foo_looked_up :
    let engine := (ofIndex (.ofCalls []) .standard none).after
      [.indexCall (.register fooTree fooLocation none)]
    engine.registry.declaration? "Foo" = none
      ∧ ¬ engine.Outdated fooTree (engine.declaration "Foo")
      ∧ engine.FindsLookedUp fooTree "Foo" := by
  intro engine
  have halias : engine.registry.declaration? "Foo" = none := by
    decide +kernel
  have hfresh : ¬ engine.Outdated fooTree (engine.declaration "Foo") := by
    intro houtdated
    have hnone : engine.cached? (engine.declaration "Foo") = none := by
      decide +kernel
    rw [Outdated, record_of_cached?_eq_none hnone, description_freshRecord] at houtdated
    exact houtdated rfl
  refine ⟨halias, hfresh, ((written_name_looked_up_iff [] .standard none fooTree).1 _ "Foo" halias
    hfresh).2 ?_⟩
  rintro member ⟨hmember, hprefers⟩
  have hfound : (packageMembers engine.config "Foo").find? engine.index.contains
      = some "java.lang.Foo" := by
    decide +kernel
  have hunserved : engine.index.contains "Foo" = false := by
    decide +kernel
  rw [hfound, Option.some.injEq] at hmember
  rw [hunserved, ← hmember] at hprefers
  exact absurd hprefers (by decide)

/-- A class file that declares the class `Foo` without a package and nothing else. -/
def plainFooFile : Bytes :=
  [0xCA, 0xFE, 0xBA, 0xBE, 0x00, 0x00, 0x00, 0x34, 0x00, 0x03, 0x07, 0x00, 0x02, 0x01, 0x00, 0x03,
    0x46, 0x6F, 0x6F, 0x00, 0x21, 0x00, 0x01, 0x00, 0x00, 0x00, 0x00, 0x00, 0x00, 0x00, 0x00, 0x00,
    0x00]

/-- The tree that holds an archive of given entries. -/
def archiveTree (entries : List ArchiveEntry) : FileTree :=
  ⟨[(["foos.jar"], .file (.archive entries))], []⟩

/-- An engine in which such an archive is registered, and that knows one default package. -/
def archiveEngine (entries : List ArchiveEntry) (package : String) : Engine :=
  ofIndex (.ofCalls [.register (archiveTree entries) ⟨.archive, "foos.jar"⟩ none])
    { EngineConfig.standard with defaultPackages := [package] } none

/-- The class `Foo` without a package, and the class `java.lang.Foo`. -/
def twoFoos : List ArchiveEntry :=
  [⟨"Foo.class", plainFooFile, false⟩, ⟨"java/lang/Foo.class", fooFile, false⟩]

/-- The class `Foo` in a package without a name. -/
def unnamedFoo : List ArchiveEntry :=
  [⟨"/Foo.class", plainFooFile, false⟩]

/-- Not every written name leads to the same class in both ways. Of two classes `Foo`, the
engine resolves the one in a default package and the look-up finds the one without a package.
In a package without a name, the engine resolves a class that the look-up does not find. -/
theorem default_package_before_written_name :
    (archiveEngine twoFoos "java.lang").registry.declaration? "Foo" = none
      ∧ ¬ (archiveEngine twoFoos "java.lang").FindsLookedUp (archiveTree twoFoos) "Foo"
      ∧ (archiveEngine unnamedFoo "").registry.declaration? "Foo" = none
      ∧ ¬ (archiveEngine unnamedFoo "").FindsLookedUp (archiveTree unnamedFoo) "Foo" := by
  refine ⟨by decide +kernel, fun hsame => ?_, by decide +kernel, fun hsame => ?_⟩
  · have hname := congrArg (Option.map ClassDescription.name) hsame
    revert hname
    decide +kernel
  · have hname := congrArg (Option.map ClassDescription.name) hsame
    revert hname
    decide +kernel

end Engine

end ClassAtlas
