import ClassAtlas.Proofs.Library.Ownership

/-!
# Which registrations survive

A run registers libraries, removes some of them and asks for classes, and some of
its registrations fail. The libraries at the end are those that a call has
registered and no later call has removed, in the order of their registration. The
earliest of them that enumerates a class serves it, as if the surviving libraries
alone had been registered.
-/

namespace ClassAtlas

namespace Library

/-- The library as it was when it was opened, with nothing asked for. -/
def asOpened (library : Library) : Library :=
  ofSource library.location library.sourceLocation library.source

@[simp] theorem key_asOpened (library : Library) : library.asOpened.key = library.key := rfl

@[simp] theorem classNames_asOpened (library : Library) :
    library.asOpened.classNames = library.classNames := rfl

/-- Asking for a class makes no difference to how the library was opened. -/
@[simp] theorem asOpened_request (tree : FileTree) (library : Library) (qualified : String) :
    (library.request tree qualified).asOpened = library.asOpened := by
  unfold request
  split <;> rfl

/-- A library that has just been opened is as it was opened. -/
theorem asOpened_of_openAt {tree : FileTree} {location : Location}
    {sourceLocation : Option SourceLocation} {library : Library}
    (h : openAt tree location sourceLocation = .ok library) : library.asOpened = library := by
  unfold openAt at h
  cases hopen : ClassSource.openLocation tree location with
  | error error =>
    rw [hopen] at h
    cases h
  | ok source =>
    rw [hopen] at h
    cases h
    rfl

end Library

namespace LibraryIndex

variable {index : LibraryIndex}

/-! ## Survivors of a run -/

/-- The surviving libraries after one more call. A location that is not among them and can be
opened comes last, a removed location is taken out, and nothing else makes a difference. -/
def survive (libraries : List Library) : Call → List Library
  | .register tree location sourceLocation =>
    if libraries.any (·.key = location.key) then libraries
    else
      match Library.openAt tree location sourceLocation with
      | .ok library => libraries ++ [library]
      | .error _ => libraries
  | .remove location => libraries.filter (·.key ≠ location.key)
  | .request .. => libraries

/-- The libraries that survive some calls, as they were opened, in order of registration. -/
def survivors (calls : List Call) : List Library :=
  calls.foldl survive []

/-- Whether a call removes a location. -/
def Call.removes (key : LocationKey) : Call → Bool
  | .remove location => key = location.key
  | _ => false

/-- Whether a call asks for a class. -/
def Call.asks : Call → Bool
  | .request .. => true
  | _ => false

/-- The call that comes after some others registers a library. -/
def Registers (earlier : List Call) (call : Call) (library : Library) : Prop :=
  ∃ tree location sourceLocation after, call = .register tree location sourceLocation
    ∧ (ofCalls earlier).register tree location sourceLocation = .ok (library, after)

/-- A further call is performed on the index of those before. -/
theorem ofCalls_concat (calls : List Call) (call : Call) :
    ofCalls (calls ++ [call]) = (ofCalls calls).perform call := by
  rw [ofCalls, List.foldl_append]
  rfl

/-- What survives a further call is what it leaves of the survivors before. -/
theorem survivors_concat (calls : List Call) (call : Call) :
    survivors (calls ++ [call]) = survive (survivors calls) call := by
  rw [survivors, List.foldl_append]
  rfl

/-! ## What one call does to the libraries -/

/-- A location is registered when one of the libraries is there. -/
theorem isRegistered_eq (location : Location) :
    index.isRegistered location = index.libraries.any (·.key = location.key) := by
  rw [Bool.eq_iff_iff, isRegistered, libraryAt?, List.find?_isSome, List.any_eq_true]

/-- It makes no difference to this whether the libraries have been asked for classes. -/
theorem any_key_asOpened (location : Location) :
    (index.libraries.map Library.asOpened).any (·.key = location.key)
      = index.isRegistered location := by
  rw [isRegistered_eq, List.any_map]
  rfl

/-- Asking for a class leaves the libraries as they were opened. -/
theorem asOpened_requestIn (tree : FileTree) (name current : String) (defaults : List String) :
    (index.requestIn tree name current defaults).libraries.map Library.asOpened
      = index.libraries.map Library.asOpened := by
  unfold requestIn
  split
  · rw [requestFrom, List.map_map]
    refine List.map_congr_left fun library _ => ?_
    rw [Function.comp_apply]
    split
    · exact Library.asOpened_request tree library _
    · rfl
  · rfl

/-- One call does to the libraries, as they were opened, what it does to survivors. -/
theorem asOpened_perform (call : Call) :
    (index.perform call).libraries.map Library.asOpened
      = survive (index.libraries.map Library.asOpened) call := by
  cases call with
  | register tree location sourceLocation =>
    rw [perform, survive, any_key_asOpened, register]
    cases hregistered : index.isRegistered location with
    | true => rfl
    | false =>
      cases hopen : Library.openAt tree location sourceLocation with
      | error error => rfl
      | ok library =>
        simp [Library.asOpened_of_openAt hopen]
  | remove location =>
    rw [perform, survive, libraries_remove_eq, List.filter_map]
    rfl
  | request tree name current defaults => exact asOpened_requestIn tree name current defaults

/-- The libraries after a run are its survivors, in order. -/
theorem asOpened_ofCalls (calls : List Call) :
    (ofCalls calls).libraries.map Library.asOpened = survivors calls := by
  induction calls using List.reverseRecOn with
  | nil => rfl
  | append_singleton calls call ih =>
    rw [ofCalls_concat, survivors_concat, asOpened_perform, ih]

/-- A registration registers a library exactly if the location is new and can be opened. -/
theorem registers_register_iff {calls : List Call} {tree : FileTree} {location : Location}
    {sourceLocation : Option SourceLocation} {library : Library} :
    Registers calls (.register tree location sourceLocation) library
      ↔ (ofCalls calls).isRegistered location = false
        ∧ Library.openAt tree location sourceLocation = .ok library := by
  constructor
  · rintro ⟨_, _, _, after, hcall, hregister⟩
    cases hcall
    obtain ⟨hnew, hopen, -⟩ := register_eq_ok_iff.1 hregister
    exact ⟨hnew, hopen⟩
  · rintro ⟨hnew, hopen⟩
    exact ⟨tree, location, sourceLocation, _, rfl, register_eq_ok_iff.2 ⟨hnew, hopen, rfl⟩⟩

/-- A library survives one more call if it has survived the calls before and is not removed, or
if the call registers it. -/
theorem mem_survivors_concat_iff {calls : List Call} {call : Call} {library : Library} :
    library ∈ survivors (calls ++ [call])
      ↔ library ∈ survivors calls ∧ call.removes library.key = false
        ∨ Registers calls call library := by
  rw [survivors_concat]
  cases call with
  | register tree location sourceLocation =>
    rw [registers_register_iff, survive, ← asOpened_ofCalls, any_key_asOpened]
    cases (ofCalls calls).isRegistered location with
    | true => simp [Call.removes]
    | false =>
      cases Library.openAt tree location sourceLocation with
      | error error => simp [Call.removes]
      | ok opened => simp [Call.removes, eq_comm]
  | remove location =>
    have hnone : ¬ Registers calls (.remove location) library := by simp [Registers]
    rw [survive, List.mem_filter, or_iff_left hnone]
    simp [Call.removes]
  | request tree name current defaults =>
    have hnone : ¬ Registers calls (.request tree name current defaults) library := by
      simp [Registers]
    simp [survive, Call.removes, hnone]

/-- The survivors of a run are the libraries that one of its calls has registered and no later
call has removed. -/
theorem mem_survivors_iff {calls : List Call} {library : Library} :
    library ∈ survivors calls
      ↔ ∃ earlier call later, calls = earlier ++ call :: later ∧ Registers earlier call library
        ∧ ∀ other ∈ later, other.removes library.key = false := by
  induction calls using List.reverseRecOn with
  | nil => simp [survivors]
  | append_singleton calls last ih =>
    rw [mem_survivors_concat_iff, ih]
    constructor
    · rintro (⟨⟨earlier, call, later, rfl, hregisters, hkept⟩, hlast⟩ | hregisters)
      · refine ⟨earlier, call, later ++ [last], by simp, hregisters, ?_⟩
        rw [List.forall_mem_append, List.forall_mem_singleton]
        exact ⟨hkept, hlast⟩
      · exact ⟨calls, last, [], rfl, hregisters, fun _ hmem => absurd hmem List.not_mem_nil⟩
    · rintro ⟨earlier, call, later, hcalls, hregisters, hkept⟩
      -- The last call is the one that registers the library, or it comes later than that one.
      rcases List.eq_nil_or_concat later with rfl | ⟨others, other, rfl⟩
      · obtain ⟨rfl, hlast⟩ := List.append_inj' hcalls rfl
        cases hlast
        exact .inr hregisters
      · rw [List.concat_eq_append, ← List.cons_append, ← List.append_assoc] at hcalls
        obtain ⟨rfl, hlast⟩ := List.append_inj' hcalls rfl
        cases hlast
        rw [List.concat_eq_append, List.forall_mem_append, List.forall_mem_singleton] at hkept
        exact .inl ⟨⟨earlier, call, others, rfl, hregisters, hkept.1⟩, hkept.2⟩

/-! ## The earliest survivor serves -/

/-- Adding the survivors of a run alone gives their index. -/
theorem coherent_survivors (calls : List Call) :
    ((survivors calls).foldl LibraryIndex.add empty).libraries = survivors calls
      ∧ ((survivors calls).foldl LibraryIndex.add empty).Coherent := by
  rw [← asOpened_ofCalls]
  refine coherent_foldl_add ?_ fun library hmem => ?_
  · rw [List.map_map]
    exact (coherent_ofCalls calls).keys_distinct
  · obtain ⟨opened, -, rfl⟩ := List.mem_map.1 hmem
    exact Library.numbered_ofSource _ _ _

/-- The serving libraries are as if the survivors alone had been added. -/
theorem get?_owners_ofCalls (calls : List Call) (name : String) :
    (ofCalls calls).owners.get? name
      = ((survivors calls).foldl LibraryIndex.add empty).owners.get? name := by
  obtain ⟨hlibraries, hcoherent⟩ := coherent_survivors calls
  rw [(coherent_ofCalls calls).serves_earliest, hcoherent.serves_earliest, hlibraries,
    ← asOpened_ofCalls, holder?, holder?, List.find?_map, Option.map_map]
  simp only [Function.comp_def, Library.classNames_asOpened, Library.key_asOpened]

/-- Where no class is asked for, the libraries stay as they were opened. -/
theorem libraries_ofCalls {calls : List Call} (h : ∀ call ∈ calls, call.asks = false) :
    (ofCalls calls).libraries = survivors calls := by
  have hopened : ∀ library ∈ (ofCalls calls).libraries, library.asOpened = library := by
    induction calls using List.reverseRecOn with
    | nil => exact fun _ hmem => absurd hmem List.not_mem_nil
    | append_singleton calls call ih =>
      rw [List.forall_mem_append, List.forall_mem_singleton] at h
      have hbefore := ih h.1
      rw [ofCalls_concat]
      cases call with
      | register tree location sourceLocation =>
        rw [perform]
        split
        · next library after hregister =>
          obtain ⟨-, hopen, rfl⟩ := register_eq_ok_iff.1 hregister
          rw [libraries_add, List.forall_mem_append, List.forall_mem_singleton]
          exact ⟨hbefore, Library.asOpened_of_openAt hopen⟩
        · exact hbefore
      | remove location =>
        rw [perform, libraries_remove_eq]
        exact fun library hmem => hbefore library (List.mem_of_mem_filter hmem)
      | request tree name current defaults => cases h.2
  rw [← asOpened_ofCalls, List.map_congr_left hopened, List.map_id']

/-- What is registered after some calls: the libraries that these have registered and not removed
since. -/
structure HoldsSurvivors (index : LibraryIndex) (calls : List Call) : Prop where
  /-- The libraries are the survivors in order, but for the classes that were asked for. -/
  libraries_opened : index.libraries.map Library.asOpened = survivors calls
  /-- A survivor was registered by a call, and no later call has removed its location. -/
  survivor_iff : ∀ library, library ∈ survivors calls
    ↔ ∃ earlier call later, calls = earlier ++ call :: later ∧ Registers earlier call library
      ∧ ∀ other ∈ later, other.removes library.key = false
  /-- The serving libraries are as if the survivors alone had been added, in order. -/
  owners_rebuilt : ∀ name, index.owners.get? name
    = ((survivors calls).foldl LibraryIndex.add empty).owners.get? name
  /-- So is the whole index if no class was asked for. -/
  index_rebuilt : (∀ call ∈ calls, call.asks = false) →
    index.Agrees ((survivors calls).foldl LibraryIndex.add empty)

/-- The earliest registration of a class wins, and nothing but the registered libraries
matters: neither libraries that were removed, nor registrations that failed. -/
structure EarliestWins (index : LibraryIndex) : Prop where
  /-- The registered locations are distinct. -/
  locations_distinct : (index.libraries.map Library.key).Nodup
  /-- A class is served by the earliest library that enumerates it. -/
  earliest_serves : ∀ name,
    index.owners.get? name
        = (index.libraries.find? (·.classNames.contains name)).map Library.key
      ∧ index.owner? name = index.libraries.find? (·.classNames.contains name)
  /-- A class is served by none when no library enumerates it. -/
  unserved_iff : ∀ name,
    index.owners.get? name = none ↔ ∀ library ∈ index.libraries, name ∉ library.classNames
  /-- The index is the same as if only its libraries had ever been added, in order. -/
  rebuilt : index.Agrees (index.libraries.foldl LibraryIndex.add empty)
  /-- A registration succeeds exactly for a location that is not registered and can be opened. -/
  registers_iff : ∀ tree location sourceLocation library,
    (∃ after, index.register tree location sourceLocation = .ok (library, after))
      ↔ (∀ registered ∈ index.libraries, registered.key ≠ location.key)
        ∧ Library.openAt tree location sourceLocation = .ok library
  /-- The library of a registration comes behind those that were there. -/
  registered_last : ∀ tree location sourceLocation library after,
    index.register tree location sourceLocation = .ok (library, after) →
      library.key = location.key ∧ after.libraries = index.libraries ++ [library]
        ∧ index.perform (.register tree location sourceLocation) = after
  /-- Removing takes out the library at the location, and no other. -/
  removed_only : ∀ location, (index.remove location).2.libraries
    = index.libraries.filter (·.key ≠ location.key)
  /-- Removing a location tells what changes. -/
  removal_tells : ∀ location, index.TellsChanges location
  /-- A registration that fails changes neither the index nor an engine over it. -/
  failure_harmless : ∀ tree location sourceLocation error,
    index.register tree location sourceLocation = .error error →
      index.perform (.register tree location sourceLocation) = index
        ∧ ∀ engine : Engine, engine.index = index →
          engine.registerLibrary tree location sourceLocation = .error error
            ∧ engine.perform tree (.register location sourceLocation) = engine

/-- A run leaves its survivors behind. -/
theorem holdsSurvivors_ofCalls (calls : List Call) : (ofCalls calls).HoldsSurvivors calls where
  libraries_opened := asOpened_ofCalls calls
  survivor_iff _ := mem_survivors_iff
  owners_rebuilt := get?_owners_ofCalls calls
  index_rebuilt h :=
    ⟨(libraries_ofCalls h).trans (coherent_survivors calls).1.symm, get?_owners_ofCalls calls⟩

/-- A failed registration leaves the index alone, and an engine over it. -/
theorem perform_of_register_error {tree : FileTree} {location : Location}
    {sourceLocation : Option SourceLocation} {error : RegistrationError}
    (h : index.register tree location sourceLocation = .error error) :
    index.perform (.register tree location sourceLocation) = index
      ∧ ∀ engine : Engine, engine.index = index →
        engine.registerLibrary tree location sourceLocation = .error error
          ∧ engine.perform tree (.register location sourceLocation) = engine := by
  refine ⟨by rw [perform, h], ?_⟩
  rintro engine rfl
  have hengine : engine.registerLibrary tree location sourceLocation = .error error := by
    rw [Engine.registerLibrary, h]
    rfl
  exact ⟨hengine, by rw [Engine.perform, hengine]⟩

/-- In a coherent index the earliest registration of every class wins. -/
theorem Coherent.earliestWins (h : index.Coherent) : index.EarliestWins where
  locations_distinct := h.keys_distinct
  earliest_serves name := ⟨h.serves_earliest name, h.owner?_eq name⟩
  unserved_iff _ := h.get?_eq_none_iff
  rebuilt := h.agrees_foldl_add
  registers_iff := by
    intro tree location sourceLocation library
    have hnew : index.isRegistered location = false
        ↔ ∀ registered ∈ index.libraries, registered.key ≠ location.key := by
      simp [isRegistered_eq]
    simp only [register_eq_ok_iff, hnew, exists_and_left, exists_eq, and_true]
  registered_last := by
    intro tree location sourceLocation library after hregister
    obtain ⟨-, hopen, rfl⟩ := register_eq_ok_iff.1 hregister
    refine ⟨(Library.numbered_of_openAt hopen).2, libraries_add library, ?_⟩
    rw [LibraryIndex.perform, hregister]
  removed_only := libraries_remove_eq
  removal_tells := h.tellsChanges
  failure_harmless _ _ _ _ := perform_of_register_error

/-- After any calls, the registered libraries are those that the calls have registered and not
removed since, and the earliest registration of every class wins. -/
theorem earliestWins_ofCalls (calls : List Call) :
    (ofCalls calls).HoldsSurvivors calls ∧ (ofCalls calls).EarliestWins :=
  ⟨holdsSurvivors_ofCalls calls, (coherent_ofCalls calls).earliestWins⟩

/-- An archive with the classes `Foo` and `Bar`. -/
def firstArchive : Location := ⟨.archive, "first.jar"⟩

/-- An archive with the class `Foo`. -/
def secondArchive : Location := ⟨.archive, "second.jar"⟩

/-- The tree that holds both archives. -/
def archivesTree : FileTree :=
  ⟨[(["first.jar"], .file (.archive [⟨"Foo.class", [], false⟩, ⟨"Bar.class", [], false⟩])),
    (["second.jar"], .file (.archive [⟨"Foo.class", [], false⟩]))], []⟩

/-- Both archives are registered, and the first one once more. -/
def archiveCalls : List Call :=
  [.register archivesTree firstArchive none, .register archivesTree secondArchive none,
    .register archivesTree firstArchive none]

/-- The first archive serves both classes; registering it once more fails. Removing it tells both
classes. Then the second archive survives alone, serves `Foo`, and nothing serves `Bar`. -/
theorem second_archive_takes_over :
    (ofCalls archiveCalls).libraries.map Library.key = [firstArchive.key, secondArchive.key]
      ∧ (ofCalls archiveCalls).owners.get? "Foo" = some firstArchive.key
      ∧ ((ofCalls archiveCalls).remove firstArchive).1 = ["Foo", "Bar"]
      ∧ (survivors (archiveCalls ++ [.remove firstArchive])).map Library.key = [secondArchive.key]
      ∧ (ofCalls (archiveCalls ++ [.remove firstArchive])).owners.get? "Foo"
        = some secondArchive.key
      ∧ (ofCalls (archiveCalls ++ [.remove firstArchive])).owners.get? "Bar" = none
      ∧ (ofCalls (archiveCalls ++ [.remove firstArchive])).HoldsSurvivors
        (archiveCalls ++ [.remove firstArchive])
      ∧ (ofCalls (archiveCalls ++ [.remove firstArchive])).EarliestWins := by
  refine ⟨by decide +kernel, by decide +kernel, by decide +kernel, by decide +kernel,
    by decide +kernel, by decide +kernel, ?_⟩
  exact earliestWins_ofCalls (archiveCalls ++ [.remove firstArchive])

end LibraryIndex

end ClassAtlas
