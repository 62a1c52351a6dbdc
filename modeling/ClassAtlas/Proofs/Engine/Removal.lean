import ClassAtlas.Proofs.Engine.Coherence

/-!
# Records after a removal

Removing a library drops the records of the classes it served, and the records of
everything that extends them. The records are found by the names under which they
were asked for. A class that was asked for by its simple name was served under a
longer one, so its record stays when only the longer name is known to have gone;
so does a record whose documentation came from a library that serves the name
the class gives itself. These are the only records that a removal can leave
outdated.
-/

namespace ClassAtlas

/-! ## Look-ups after a removal -/

namespace LibraryIndex

variable {index : LibraryIndex} {location : Location}

/-- The table of owners tells the location of the serving library. -/
theorem Coherent.get?_owners_eq (h : index.Coherent) (name : String) :
    index.owners.get? name = (index.owner? name).map Library.key := by
  rw [h.owner?_eq, h.serves_earliest]

/-- A class that the removed library did not serve is served as before. -/
theorem Coherent.owner?_remove (h : index.Coherent) {name : String}
    (hname : index.owners.get? name ≠ some location.key) :
    (index.remove location).2.owner? name = index.owner? name := by
  cases hat : index.libraryAt? location.key with
  | none => rw [remove_of_unregistered hat]
  | some removed =>
    by_contra hne
    exact hname ((h.owner?_remove_ne_iff hat name).1 hne)

/-- A name that is found is served by the library that is found. -/
theorem owner?_of_served? {name current found : String} {defaults : List String}
    {library : Library} (h : index.served? name current defaults = some (found, library)) :
    index.owner? found = some library := by
  obtain ⟨candidate, _, hcandidate⟩ := List.exists_of_findSome?_eq_some h
  obtain ⟨owner, howner, hpair⟩ := Option.map_eq_some_iff.1 hcandidate
  cases hpair
  exact howner

/-- A written name that another library serves is found as before. The induction is on the
candidates, of which those before the one that is found are served by nobody. -/
theorem Coherent.served?_remove (h : index.Coherent) {name current : String}
    {defaults : List String}
    (hserved : ∀ found library, index.served? name current defaults = some (found, library) →
      library.key ≠ location.key) :
    (index.remove location).2.served? name current defaults
      = index.served? name current defaults := by
  unfold served? at hserved ⊢
  generalize candidateNames name current defaults = candidates at hserved
  induction candidates with
  | nil => rfl
  | cons candidate candidates ih =>
    have hkey : index.owners.get? candidate ≠ some location.key := by
      rw [h.get?_owners_eq]
      cases howner : index.owner? candidate with
      | none => simp
      | some library =>
        have hne := hserved candidate library (by rw [List.findSome?_cons, howner]; rfl)
        simpa using hne
    rw [List.findSome?_cons, List.findSome?_cons, h.owner?_remove hkey]
    cases howner : index.owner? candidate with
    | none =>
      refine ih fun found library hfound => hserved found library ?_
      rw [List.findSome?_cons, howner]
      exact hfound
    | some library => rfl

/-- A removed library tells the classes it served. -/
theorem Coherent.mem_remove (h : index.Coherent) {name : String} {library : Library}
    (howner : index.owner? name = some library) (hkey : library.key = location.key) :
    name ∈ (index.remove location).1 := by
  have hmem : library ∈ index.libraries := by
    rw [h.owner?_eq] at howner
    exact List.mem_of_find?_eq_some howner
  have hat : index.libraryAt? location.key = some library := by
    rw [← hkey]
    exact h.libraryAt?_key hmem
  have hserved : index.owners.get? name = some location.key := by
    rw [h.get?_owners_eq, howner, ← hkey]
    rfl
  exact ((h.tellsChanges location).told_iff name).2 ((h.owner?_remove_ne_iff hat name).2 hserved)

end LibraryIndex

namespace Engine

/-! ## Invalidation -/

/-- The names that go are found by a walk from the given names to their dependents. -/
theorem completes_affected (cache : Table TypeDeclaration CachedType) (names : List String) :
    Walk.Completes id (dependents cache) names [] (affected cache names) := by
  have hkeys : ∀ extended, True → dependents cache extended ≠ [] →
      id extended ∈ (cache.entries.flatMap fun entry => entry.2.resolved.extensions).map
        (·.qualifiedName) := by
    intro extended _ hdependents
    obtain ⟨dependent, hdependent⟩ := List.exists_mem_of_ne_nil _ hdependents
    obtain ⟨entry, hentry, _⟩ := List.mem_map.1 hdependent
    obtain ⟨hmem, hany⟩ := List.mem_filter.1 hentry
    obtain ⟨extension, hextension, hname⟩ := List.any_eq_true.1 hany
    exact List.mem_map.2
      ⟨extension, List.mem_flatMap.2 ⟨entry, hmem, hextension⟩, of_decide_eq_true hname⟩
  have hbound : ((cache.entries.flatMap fun entry => entry.2.resolved.extensions).map
      (·.qualifiedName)).length ≤ extendedBound cache := by
    rw [List.length_map, extendedBound]
  exact Walk.completes_visits (fun _ _ _ _ => trivial) hkeys hbound fun _ _ => trivial

/-- All given names are among those that go. -/
theorem mem_affected {cache : Table TypeDeclaration CachedType} {names : List String}
    {name : String} (h : name ∈ names) : name ∈ affected cache names := by
  have hmem := (completes_affected cache names).mem_keys_of_pending h
  rwa [List.map_id] at hmem

section Removal

variable (tree : FileTree) (engine : Engine) (location : Location)

/-- Whether the removal of a library reaches the name of a declaration. -/
def Reaches (declaration : TypeDeclaration) : Prop :=
  declaration.qualifiedName ∈ affected engine.cache (engine.index.remove location).1

/-- Whether a declaration is found under a name that the library at a location serves. -/
def FoundUnder (declaration : TypeDeclaration) (name : String) : Prop :=
  ∃ library, library.key = location.key
    ∧ engine.index.served? declaration.qualifiedName "" engine.config.defaultPackages
      = some (name, library)

/-- Whether the library at a location provides the source text of a class: it serves the
name that the class gives itself. -/
def DocumentedFrom (declaration : TypeDeclaration) : Prop :=
  engine.provider.isSome ∧ ∃ description, engine.description? tree declaration = some description
    ∧ engine.index.owners.get? description.name = some location.key

/-- After the removal of a library, every declaration resolves as in a fresh engine over the
same index, and no record of a class stays that the removed library served. -/
structure RemovalCoherent : Prop where
  /-- Declarations resolve as in a fresh engine. -/
  resolved_fresh : ∀ declaration,
    (engine.removeLibrary location).resolved tree declaration
      = (ofIndex (engine.removeLibrary location).index engine.config engine.provider).resolved tree
        declaration
  /-- No record of a class stays that the removed library served. -/
  served_dropped : ∀ declaration cached name,
    (engine.removeLibrary location).cached? declaration = some cached →
      cached.resolved.isFound = true → ¬ engine.FoundUnder location declaration name

/-- The removal of a library reaches what it has to reach. -/
structure RemovalReaches : Prop where
  /-- Classes that were asked for by a shorter name than the one they are served under are
  reached by the shorter name too. -/
  short_names_reached : ∀ declaration cached name, engine.cached? declaration = some cached →
    cached.resolved.isFound = true → engine.FoundUnder location declaration name →
      name ≠ declaration.qualifiedName → engine.Reaches location declaration
  /-- Where a record is not reached, although the library served the declaration or documented
  the class, a fresh record is the same as before. -/
  unreached_unchanged : ∀ declaration cached, engine.cached? declaration = some cached →
    ¬ engine.Reaches location declaration →
      ((∃ name, engine.FoundUnder location declaration name)
        ∨ engine.DocumentedFrom tree location declaration) →
      (engine.removeLibrary location).freshRecord tree declaration
        = engine.freshRecord tree declaration

end Removal

section Lemmas

variable {tree : FileTree} {engine : Engine} {location : Location}
  {declaration : TypeDeclaration}

@[simp] theorem index_removeLibrary :
    (engine.removeLibrary location).index = (engine.index.remove location).2 := rfl

@[simp] theorem config_removeLibrary :
    (engine.removeLibrary location).config = engine.config := rfl

@[simp] theorem provider_removeLibrary :
    (engine.removeLibrary location).provider = engine.provider := rfl

/-- The records that stay are those whose names are not reached. -/
theorem cached?_removeLibrary_eq_some_iff {cached : CachedType} :
    (engine.removeLibrary location).cached? declaration = some cached
      ↔ engine.cached? declaration = some cached ∧ ¬ engine.Reaches location declaration := by
  unfold removeLibrary invalidate cached? Reaches
  rw [Table.get?_filterKeys]
  simp only [Bool.not_eq_true', List.contains_eq_mem, decide_eq_false_iff_not]
  by_cases hgone : declaration.qualifiedName
      ∈ affected engine.cache (engine.index.remove location).1
  · simp [hgone]
  · simp [hgone]

/-- A declaration that was written as it is served is reached. -/
theorem reaches_of_foundUnder (h : engine.index.Coherent)
    (hfound : engine.FoundUnder location declaration declaration.qualifiedName) :
    engine.Reaches location declaration := by
  obtain ⟨library, hkey, hserved⟩ := hfound
  exact mem_affected (h.mem_remove (LibraryIndex.owner?_of_served? hserved) hkey)

/-- A removal changes no fresh record of a declaration that the library neither served nor
documented. -/
theorem freshRecord_removeLibrary (h : engine.index.Coherent)
    (hserved : ¬ ∃ name, engine.FoundUnder location declaration name)
    (hdocumented : ¬ engine.DocumentedFrom tree location declaration) :
    (engine.removeLibrary location).freshRecord tree declaration
      = engine.freshRecord tree declaration := by
  have hsame : (engine.removeLibrary location).description? tree declaration
      = engine.description? tree declaration := by
    have hlookup : (engine.index.remove location).2.served? declaration.qualifiedName ""
          engine.config.defaultPackages
        = engine.index.served? declaration.qualifiedName "" engine.config.defaultPackages :=
      h.served?_remove fun name library hfound hkey => hserved ⟨name, library, hkey, hfound⟩
    unfold description? LibraryIndex.lookupIn?
    rw [index_removeLibrary, config_removeLibrary, hlookup]
  unfold freshRecord
  rw [hsame]
  cases hdescription : engine.description? tree declaration with
  | none => rfl
  | some description =>
    simp only
    refine recordOf_congr config_removeLibrary provider_removeLibrary (fun hprovider => ?_) declaration
    have hname : engine.index.owners.get? description.name ≠ some location.key :=
      fun hkey => hdocumented ⟨hprovider, description, hdescription, hkey⟩
    rw [sourceText_eq, sourceText_eq, index_removeLibrary, h.owner?_remove hname]

/-- What resolving answers after a removal is the record that stayed, or a fresh one. -/
theorem resolved_removeLibrary (h : engine.index.Coherent) :
    (engine.removeLibrary location).resolved tree declaration
      = (engine.removeLibrary location).record tree declaration :=
  record_resolve (h.remove location) declaration declaration

/-- A fresh engine answers with fresh records. -/
theorem resolved_ofIndex_removeLibrary (h : engine.index.Coherent) :
    (ofIndex (engine.removeLibrary location).index engine.config engine.provider).resolved tree
        declaration
      = (engine.removeLibrary location).freshRecord tree declaration := by
  rw [resolved, record_resolve (h.remove location)]
  exact Alike.freshRecord_eq ⟨rfl, rfl, LibraryIndex.Alike.refl _⟩ declaration

/-- A coherent removal leaves no outdated records. -/
theorem RemovalCoherent.upToDate (hremoval : engine.RemovalCoherent tree location)
    (h : engine.index.Coherent) : (engine.removeLibrary location).UpToDate tree := by
  refine ⟨h.remove location, fun declaration => ?_⟩
  rw [← resolved_removeLibrary h, hremoval.resolved_fresh, resolved_ofIndex_removeLibrary h]

/-- A record that stays in an engine without outdated records is the fresh one from before. -/
theorem UpToDate.record_removeLibrary (h : engine.UpToDate tree) {cached : CachedType}
    (hcached : (engine.removeLibrary location).cached? declaration = some cached) :
    (engine.removeLibrary location).record tree declaration
      = engine.freshRecord tree declaration := by
  rw [← h.record_fresh, record, hcached, record, (cached?_removeLibrary_eq_some_iff.1 hcached).1]

/-- In an engine without outdated records, a removal is coherent exactly when it reaches what
it has to reach. -/
theorem UpToDate.removalCoherent_iff (h : engine.UpToDate tree) :
    engine.RemovalCoherent tree location ↔ engine.RemovalReaches tree location := by
  constructor
  · intro hremoval
    constructor
    · intro declaration cached name hcached hisFound hfound _
      by_contra hstays
      exact hremoval.served_dropped declaration cached name
        (cached?_removeLibrary_eq_some_iff.2 ⟨hcached, hstays⟩) hisFound hfound
    · intro declaration cached hcached hstays _
      have hkept := cached?_removeLibrary_eq_some_iff.2 ⟨hcached, hstays⟩
      rw [← h.record_removeLibrary hkept, (hremoval.upToDate h.coherent).record_fresh]
  · intro hreaches
    constructor
    · intro declaration
      rw [resolved_removeLibrary h.coherent, resolved_ofIndex_removeLibrary h.coherent]
      cases hcached : (engine.removeLibrary location).cached? declaration with
      | none => exact record_of_cached?_eq_none hcached
      | some cached =>
        obtain ⟨hbefore, hstays⟩ := cached?_removeLibrary_eq_some_iff.1 hcached
        rw [h.record_removeLibrary hcached]
        by_cases hexposed : (∃ name, engine.FoundUnder location declaration name)
            ∨ engine.DocumentedFrom tree location declaration
        · exact (hreaches.unreached_unchanged declaration cached hbefore hstays hexposed).symm
        · rw [not_or] at hexposed
          exact (freshRecord_removeLibrary h.coherent hexposed.1 hexposed.2).symm
    · intro declaration cached name hcached hisFound hfound
      obtain ⟨hbefore, hstays⟩ := cached?_removeLibrary_eq_some_iff.1 hcached
      by_cases hname : name = declaration.qualifiedName
      · rw [hname] at hfound
        exact hstays (reaches_of_foundUnder h.coherent hfound)
      · exact hstays (hreaches.short_names_reached declaration cached name hbefore hisFound hfound
          hname)

end Lemmas

/-! ## Runs -/

variable {tree : FileTree} {engine : Engine}

/-- Registering a library leaves an engine up to date, since it drops all records. -/
theorem UpToDate.perform_register (h : engine.UpToDate tree) (location : Location)
    (sourceLocation : Option SourceLocation) :
    (engine.perform tree (.register location sourceLocation)).UpToDate tree := by
  rw [perform, registerLibrary]
  cases hregister : engine.index.register tree location sourceLocation with
  | error error => exact h
  | ok registered =>
    obtain ⟨library, index⟩ := registered
    exact ⟨h.coherent.register hregister, fun _ => rfl⟩

/-- Records stay up to date along a run in which removals from up to date records are
coherent. -/
theorem UpToDate.performAll (h : engine.UpToDate tree) {calls : List EngineCall}
    (hremovals : ∀ earlier location later, calls = earlier ++ .remove location :: later →
      (engine.performAll tree earlier).UpToDate tree →
        (engine.performAll tree earlier).RemovalCoherent tree location) :
    (engine.performAll tree calls).UpToDate tree := by
  induction calls using List.reverseRecOn with
  | nil => exact h
  | append_singleton calls call ih =>
    have hbefore : (engine.performAll tree calls).UpToDate tree := by
      refine ih fun earlier location later hcalls => hremovals earlier location (later ++ [call]) ?_
      rw [hcalls, List.append_assoc, List.cons_append]
    have hstep : engine.performAll tree (calls ++ [call])
        = (engine.performAll tree calls).perform tree call := by
      rw [Engine.performAll, List.foldl_append]
      rfl
    rw [hstep]
    cases call with
    | query query => exact hbefore.of_refreshes (refreshes_answer hbefore.coherent query)
    | register location sourceLocation => exact hbefore.perform_register location sourceLocation
    | remove location =>
      exact (hremovals calls location [] rfl hbefore).upToDate hbefore.coherent

/-- Along any run, all removals are coherent exactly when they all reach what they have to
reach: the short names of found classes, and the records that would not be the same. -/
theorem removals_coherent_iff (tree : FileTree) (indexCalls : List LibraryIndex.Call)
    (config : EngineConfig) (provider : Option DocumentationProvider)
    (calls : List EngineCall) :
    (∀ earlier location later, calls = earlier ++ .remove location :: later →
        ((ofIndex (.ofCalls indexCalls) config provider).performAll tree earlier).RemovalCoherent
          tree location)
      ↔ ∀ earlier location later, calls = earlier ++ .remove location :: later →
        ((ofIndex (.ofCalls indexCalls) config provider).performAll tree earlier).RemovalReaches
          tree location := by
  have hstart : (ofIndex (.ofCalls indexCalls) config provider).UpToDate tree :=
    upToDate_ofIndex (LibraryIndex.coherent_ofCalls indexCalls) config provider
  generalize ofIndex (.ofCalls indexCalls) config provider = start at hstart
  constructor
  · intro hremovals earlier location later hcalls
    have hbefore : (start.performAll tree earlier).UpToDate tree := by
      refine hstart.performAll fun first other between hearlier _ => ?_
      refine hremovals first other (between ++ .remove location :: later) ?_
      rw [hcalls, hearlier, List.append_assoc, List.cons_append]
    exact hbefore.removalCoherent_iff.1 (hremovals earlier location later hcalls)
  · intro hremovals earlier location later hcalls
    have hbefore : (start.performAll tree earlier).UpToDate tree := by
      refine hstart.performAll fun first other between hearlier hfirst => ?_
      refine hfirst.removalCoherent_iff.2
        (hremovals first other (between ++ .remove location :: later) ?_)
      rw [hcalls, hearlier, List.append_assoc, List.cons_append]
    exact hbefore.removalCoherent_iff.2 (hremovals earlier location later hcalls)

/-- A class file that declares the class `java.lang.Foo` and nothing else. -/
def fooFile : Bytes :=
  [0xCA, 0xFE, 0xBA, 0xBE, 0x00, 0x00, 0x00, 0x34, 0x00, 0x03, 0x07, 0x00, 0x02, 0x01, 0x00, 0x0D,
    0x6A, 0x61, 0x76, 0x61, 0x2F, 0x6C, 0x61, 0x6E, 0x67, 0x2F, 0x46, 0x6F, 0x6F, 0x00, 0x21, 0x00,
    0x01, 0x00, 0x00, 0x00, 0x00, 0x00, 0x00, 0x00, 0x00, 0x00, 0x00]

/-- The tree that holds this file. -/
def fooTree : FileTree :=
  ⟨[(["Foo.class"], .file (.plain fooFile))], []⟩

/-- The location of this file. -/
def fooLocation : Location :=
  ⟨.classFile, "Foo.class"⟩

/-- Not every removal is coherent: when `Foo` has been resolved, the record of the class
`java.lang.Foo` outlives the library. -/
theorem short_name_outlives_removal :
    ¬ ((ofIndex (.ofCalls []) .standard none).performAll fooTree
      [.register fooLocation none, .query (.resolve ⟨"Foo", false⟩)]).RemovalCoherent fooTree
        fooLocation := by
  intro h
  have hsame := congrArg ResolvedType.isFound (h.resolved_fresh ⟨"Foo", false⟩)
  revert hsame
  decide +kernel

end Engine

end ClassAtlas
