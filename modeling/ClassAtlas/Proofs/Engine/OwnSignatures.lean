import ClassAtlas.Proofs.Engine.CallHistory
import ClassAtlas.Proofs.Engine.Resolution
import ClassAtlas.Proofs.Types.Winners

/-!
# Calling what is listed

A member that the completions of a declaration list can be called with its own
parameter types as arguments. Nothing has to be converted then, so the call resolves
with a score of zero, whatever else is listed. Another member of the same name may
come first that takes these types just as they are: one from another type on the
chain of extensions, or one whose parameter types are aliases of the same types. The
first such member is what the call resolves to.
-/

namespace ClassAtlas

/-- The call of a member with its own parameter types as arguments. -/
def Member.ownCall (member : Member) : CallSite :=
  ⟨member.name, member.parameters.map (·.typeName)⟩

namespace Engine

/-- Whether two parameters are of the same type to an engine that has resolved a declaration:
the types are equal, or aliases make the same name of both. -/
def SameType (tree : FileTree) (engine : Engine) (declaration : TypeDeclaration)
    (first second : MemberParameter) : Prop :=
  first.typeName = second.typeName
    ∨ (engine.resolve tree declaration).registry.normalize first.typeName
      = (engine.resolve tree declaration).registry.normalize second.typeName

/-- Whether a member takes the call of another one as it is. -/
def TakesOwnCall (tree : FileTree) (engine : Engine) (declaration : TypeDeclaration)
    (member other : Member) : Prop :=
  (engine.resolve tree declaration).registry.TakesCall member.name
    (member.parameters.map (·.typeName)) other.candidate

variable {tree : FileTree} {engine : Engine} {declaration : TypeDeclaration} {member other : Member}

/-- A member that takes the call of another one has the same name and parameters of the same
types. -/
theorem TakesOwnCall.forall₂_sameType (h : engine.TakesOwnCall tree declaration member other) :
    other.name = member.name
      ∧ List.Forall₂ (engine.SameType tree declaration) member.parameters other.parameters := by
  obtain ⟨hname, hparameters⟩ := h
  refine ⟨hname, ?_⟩
  rw [Member.candidate, List.forall₂_map_left_iff, List.forall₂_map_right_iff] at hparameters
  refine hparameters.imp fun first second htakes => ?_
  rcases htakes with hsame | ⟨_, hspelled⟩
  · exact .inl hsame
  · exact .inr hspelled

/-- The call of a listed member resolves to the first one that takes it as it is. -/
theorem exists_resolveCallSite_ownCall (hfound : (engine.resolved tree declaration).isFound = true)
    (hmember : member ∈ engine.callable tree declaration) :
    ∃ winner earlier later, engine.callable tree declaration = earlier ++ winner :: later
      ∧ engine.TakesOwnCall tree declaration member winner
      ∧ (∀ other ∈ earlier, ¬ engine.TakesOwnCall tree declaration member other)
      ∧ (engine.resolveCallSite tree declaration member.ownCall).1 = .resolved winner 0 := by
  have hself : engine.TakesOwnCall tree declaration member member :=
    AliasRegistry.takesCall_self _ member.candidate
  obtain ⟨winner, earlier, later, hcallable, htakes, hearlier, hbest⟩ :=
    AliasRegistry.exists_result_best_eq ⟨member, hmember, hself⟩
  refine ⟨winner, earlier, later, hcallable, htakes, hearlier, ?_⟩
  rw [resolveCallSite_result, hfound, Member.ownCall, hbest]
  rfl

/-- Asking for the completions before makes no difference to what a call resolves to. -/
theorem WellFormed.resolveCallSite_resolve (h : engine.WellFormed) (call : CallSite) :
    ((engine.resolve tree declaration).resolveCallSite tree declaration call).1
      = (engine.resolveCallSite tree declaration call).1 := by
  rw [resolveCallSite_result, resolveCallSite_result, callable, completed, resolved,
    h.resolve_resolve]
  rfl

/-- In every state that an engine can come to, a callable member in the completions of a
declaration that was found can be called by its own parameter types. The call resolves with a
score of zero to a member of the same name, with as many parameters, of the same types; it is
the first callable completion that takes the call as it is. Having asked for the completions
makes no difference. -/
theorem listed_members_callable (calls : List LibraryIndex.Call) (config : EngineConfig)
    (provider : Option DocumentationProvider) (events : List EngineEvent) (tree : FileTree)
    (declaration : TypeDeclaration) (member : Member) :
    let engine := (ofIndex (.ofCalls calls) config provider).after events
    (engine.resolved tree declaration).isFound = true →
      member ∈ engine.completed tree declaration → member.isCallable = true →
        ∃ winner,
          (engine.resolveCallSite tree declaration member.ownCall).1 = .resolved winner 0
            ∧ ((engine.answer tree (.completions declaration)).resolveCallSite tree declaration
              member.ownCall).1 = .resolved winner 0
            ∧ winner.name = member.name
            ∧ List.Forall₂ (engine.SameType tree declaration) member.parameters winner.parameters
            ∧ engine.TakesOwnCall tree declaration member winner
            ∧ ∃ earlier later, engine.callable tree declaration = earlier ++ winner :: later
              ∧ ∀ other ∈ earlier, ¬ engine.TakesOwnCall tree declaration member other := by
  intro engine hfound hmember hcallable
  have h : engine.WellFormed := wellFormed_after calls config provider events
  have hlisted : member ∈ engine.callable tree declaration :=
    List.mem_filter.2 ⟨hmember, hcallable⟩
  obtain ⟨winner, earlier, later, hsplit, htakes, hearlier, hresolves⟩ :=
    exists_resolveCallSite_ownCall hfound hlisted
  obtain ⟨hname, hparameters⟩ := htakes.forall₂_sameType
  refine ⟨winner, hresolves, ?_, hname, hparameters, htakes, earlier, later, hsplit, hearlier⟩
  exact (h.resolveCallSite_resolve member.ownCall).trans hresolves

/-- The class `Meter` with the methods `add(long, Number[])`, `add(int, Number[])` and
`add(int, java.lang.Number[])`. -/
def meterFile : Bytes :=
  [0xCA, 0xFE, 0xBA, 0xBE, 0x00, 0x00, 0x00, 0x34, 0x00, 0x07, 0x01, 0x00, 0x05, 0x4D, 0x65, 0x74,
    0x65, 0x72, 0x07, 0x00, 0x01, 0x01, 0x00, 0x03, 0x61, 0x64, 0x64, 0x01, 0x00, 0x0D, 0x28, 0x4A,
    0x5B, 0x4C, 0x4E, 0x75, 0x6D, 0x62, 0x65, 0x72, 0x3B, 0x29, 0x56, 0x01, 0x00, 0x0D, 0x28, 0x49,
    0x5B, 0x4C, 0x4E, 0x75, 0x6D, 0x62, 0x65, 0x72, 0x3B, 0x29, 0x56, 0x01, 0x00, 0x17, 0x28, 0x49,
    0x5B, 0x4C, 0x6A, 0x61, 0x76, 0x61, 0x2F, 0x6C, 0x61, 0x6E, 0x67, 0x2F, 0x4E, 0x75, 0x6D, 0x62,
    0x65, 0x72, 0x3B, 0x29, 0x56, 0x00, 0x21, 0x00, 0x02, 0x00, 0x00, 0x00, 0x00, 0x00, 0x00, 0x00,
    0x03, 0x01, 0x01, 0x00, 0x03, 0x00, 0x04, 0x00, 0x00, 0x01, 0x01, 0x00, 0x03, 0x00, 0x05, 0x00,
    0x00, 0x01, 0x01, 0x00, 0x03, 0x00, 0x06, 0x00, 0x00, 0x00, 0x00]

/-- The tree that holds this file in an archive. -/
def meterTree : FileTree :=
  ⟨[(["meter.jar"], .file (.archive [⟨"Meter.class", meterFile, false⟩]))], []⟩

/-- An engine for which this archive has been registered and nothing has been asked. -/
def meterEngine : Engine :=
  (ofIndex (.ofCalls []) .standard none).after
    [.call meterTree (.register ⟨.archive, "meter.jar"⟩ none)]

/-- The method of `Meter` with parameters of two types. -/
def meterAdd (first second : String) : Member :=
  { kind := .method, name := "add", owner := some "Meter"
    key := "add(" ++ first ++ ", " ++ second ++ ")", resultType := none
    parameters := [⟨first, "arg0"⟩, ⟨second, "arg1"⟩], isStatic := false, isDeprecated := false
    summary := "public native void add(" ++ first ++ " arg0, " ++ second ++ " arg1)" }

/-- The completions of `Meter` list three methods `add`. A call of the last one by its own
parameter types resolves to the second one, whose types are aliases of the same types; the first
one is passed over, since an `int` has to be converted to a `long`. -/
theorem meter_add_callable :
    (meterEngine.resolved meterTree ⟨"Meter", false⟩).isFound = true
      ∧ meterEngine.completed meterTree ⟨"Meter", false⟩
        = [meterAdd "long" "Number[]", meterAdd "int" "Number[]",
          meterAdd "int" "java.lang.Number[]"]
      ∧ (meterAdd "int" "java.lang.Number[]").isCallable = true
      ∧ (meterEngine.resolveCallSite meterTree ⟨"Meter", false⟩
          ⟨"add", ["int", "java.lang.Number[]"]⟩).1 = .resolved (meterAdd "int" "Number[]") 0
      ∧ ∃ winner, (meterEngine.resolveCallSite meterTree ⟨"Meter", false⟩
          ⟨"add", ["int", "java.lang.Number[]"]⟩).1 = .resolved winner 0
        ∧ winner.name = "add"
        ∧ List.Forall₂ (meterEngine.SameType meterTree ⟨"Meter", false⟩)
          [⟨"int", "arg0"⟩, ⟨"java.lang.Number[]", "arg1"⟩] winner.parameters := by
  have hfound : (meterEngine.resolved meterTree ⟨"Meter", false⟩).isFound = true := by
    decide +kernel
  have hlisted : meterEngine.completed meterTree ⟨"Meter", false⟩
      = [meterAdd "long" "Number[]", meterAdd "int" "Number[]",
        meterAdd "int" "java.lang.Number[]"] := by
    decide +kernel
  have hmember : meterAdd "int" "java.lang.Number[]"
      ∈ meterEngine.completed meterTree ⟨"Meter", false⟩ := by
    rw [hlisted]
    exact List.mem_cons_of_mem _ (List.mem_cons_of_mem _ (List.mem_singleton_self _))
  obtain ⟨winner, hresolves, _, hname, hparameters, _⟩ := listed_members_callable [] .standard none
    [.call meterTree (.register ⟨.archive, "meter.jar"⟩ none)] meterTree ⟨"Meter", false⟩
    (meterAdd "int" "java.lang.Number[]") hfound hmember rfl
  exact ⟨hfound, hlisted, rfl, by decide +kernel, winner, hresolves, hname, hparameters⟩

end Engine

end ClassAtlas
