import ClassAtlas.Proofs.Engine.Resolution

/-!
# Which members completions show

The completions of a declaration come from everything that its extensions lead to,
type by type. A type is met once, on the first way that leads to it, and what hides
its members are the members of the types on that way. So nothing is shown twice,
and nothing is lost without something of the same key in its place, on any
hierarchy. But a type that overrides a member hides it only from those who come by:
where another way comes first, both are shown, and this depends on the order in
which extensions are listed.
-/

namespace ClassAtlas.Engine

section Definitions

variable (tree : FileTree) (engine : Engine)

/-- The keys of the members of a type itself. -/
def ownKeys (declaration : TypeDeclaration) : List String :=
  (engine.record tree declaration).members.map (·.key)

/-- Whether extensions lead from one type to another, or they are the same. -/
def LeadsTo : TypeDeclaration → TypeDeclaration → Prop :=
  Relation.ReflTransGen (engine.Extends tree)

/-- A path of extensions from a declaration to a type, given by the types before the last
one. -/
def Path (declaration : TypeDeclaration) (way : List TypeDeclaration)
    (above : TypeDeclaration) : Prop :=
  Walk.Path (fun lower => (engine.record tree lower).extensions) declaration way above

/-- The way from a declaration to a type that takes the first extension at each fork. It
lists the types before the last one. -/
def FirstWay (declaration : TypeDeclaration) (way : List TypeDeclaration)
    (above : TypeDeclaration) : Prop :=
  Walk.FirstWay (fun lower => (engine.record tree lower).extensions) [] declaration way above

/-- The completions of a declaration, by the types they come from. -/
def listing (declaration : TypeDeclaration) : List (TypeDeclaration × List Member) :=
  (engine.contributions tree declaration).map fun step =>
    (step.declaration, engine.contributed tree step)

/-- Whether the completions of a declaration show a member of a type. -/
def Shows (declaration above : TypeDeclaration) (member : Member) : Prop :=
  ∃ members, (above, members) ∈ engine.listing tree declaration ∧ member ∈ members

/-- Whether another type between a declaration and a type has a member of a key, on any way
from one to the other. -/
def Overridden (declaration above : TypeDeclaration) (key : String) : Prop :=
  ∃ between, between ≠ above ∧ engine.LeadsTo tree declaration between
    ∧ engine.LeadsTo tree between above ∧ key ∈ engine.ownKeys tree between

/-- Members are hidden exactly when they are overridden. -/
def OverridesHide (declaration : TypeDeclaration) : Prop :=
  ∀ above, engine.LeadsTo tree declaration above →
    ∀ member ∈ (engine.record tree above).members,
      (engine.Shows tree declaration above member
        ↔ ¬ engine.Overridden tree declaration above member.key)

/-- What is overridden at all is overridden on the first way. -/
def OverriddenOnFirstWay (declaration : TypeDeclaration) : Prop :=
  ∀ above way, engine.FirstWay tree declaration way above →
    ∀ member ∈ (engine.record tree above).members,
      engine.Overridden tree declaration above member.key →
        ∃ between ∈ way, member.key ∈ engine.ownKeys tree between

end Definitions

variable {tree : FileTree} {engine : Engine} {declaration above : TypeDeclaration}
  {way : List TypeDeclaration}

/-! ## The walk through the types -/

/-- On its way, a step gathers the keys of the types it passes. -/
theorem hidden_of_follows {step target : ChainStep}
    (h : Walk.Follows ChainStep.declaration (engine.stepsAbove tree) step way target) :
    target.hidden = step.hidden ++ way.flatMap (engine.ownKeys tree) := by
  induction h with
  | here => rw [List.flatMap_nil, List.append_nil]
  | @up node successor target way hnext _ ih =>
    obtain ⟨extended, _, rfl⟩ := List.mem_map.1 hnext
    rw [ih, List.flatMap_cons, ← List.append_assoc]
    rfl

/-- A type is met on the first way, with the keys of the types on that way. -/
theorem WellFormed.mem_contributions_iff (h : engine.WellFormed) {step : ChainStep} :
    step ∈ engine.contributions tree declaration
      ↔ ∃ way, engine.FirstWay tree declaration way step.declaration
        ∧ step.hidden = way.flatMap (engine.ownKeys tree) := by
  have hwalk := h.completes_contributions tree declaration
  have hmeets : ∀ {above : TypeDeclaration}, engine.LeadsTo tree declaration above →
      ∃ way, engine.FirstWay tree declaration way above
        ∧ ⟨above, way.flatMap (engine.ownKeys tree)⟩ ∈ engine.contributions tree declaration := by
    intro above hleads
    obtain ⟨way, target, hway, hfollows, rfl, hmem⟩ :=
      hwalk.exists_firstWay_of_start map_declaration_stepsAbove hleads
    have hhidden := hidden_of_follows hfollows
    rw [List.nil_append] at hhidden
    refine ⟨way, hway, ?_⟩
    rw [← hhidden]
    exact hmem
  constructor
  · intro hstep
    have hleads : engine.LeadsTo tree declaration step.declaration :=
      (hwalk.mem_keys_iff map_declaration_stepsAbove _).1 (List.mem_map_of_mem hstep)
    obtain ⟨way, hway, hmem⟩ := hmeets hleads
    have hsame := List.inj_on_of_nodup_map (hwalk.nodup_keys List.nodup_nil) hstep hmem rfl
    exact ⟨way, hway, by rw [hsame]⟩
  · rintro ⟨way, hway, hhidden⟩
    obtain ⟨way', hway', hmem⟩ := hmeets (Walk.Reaches.nil_iff.1 hway.reaches)
    rw [← hway.unique hway', ← hhidden] at hmem
    exact hmem

/-- There is a first way to everything that extensions lead to. -/
theorem WellFormed.exists_firstWay (h : engine.WellFormed)
    (hleads : engine.LeadsTo tree declaration above) :
    ∃ way, engine.FirstWay tree declaration way above := by
  obtain ⟨way, _, hway, _⟩ := (h.completes_contributions tree declaration).exists_firstWay_of_start
    map_declaration_stepsAbove hleads
  exact ⟨way, hway⟩

/-! ## Shown members -/

/-- A first way leads to its end. -/
theorem FirstWay.leadsTo (h : engine.FirstWay tree declaration way above) :
    engine.LeadsTo tree declaration above :=
  Walk.Reaches.nil_iff.1 (Walk.FirstWay.reaches h)

/-- A first way is a path of extensions. -/
theorem FirstWay.path (h : engine.FirstWay tree declaration way above) :
    engine.Path tree declaration way above :=
  Walk.FirstWay.path h

/-- Members on the first way override those of the type at its end. -/
theorem FirstWay.overridden (h : engine.FirstWay tree declaration way above) {key : String}
    {between : TypeDeclaration} (hbetween : between ∈ way)
    (hkey : key ∈ engine.ownKeys tree between) :
    engine.Overridden tree declaration above key := by
  obtain ⟨front, back, rfl⟩ := List.append_of_mem hbetween
  have hfront : engine.FirstWay tree declaration front between := Walk.FirstWay.before h
  exact ⟨between, Walk.FirstWay.ne_of_mem h hbetween, hfront.leadsTo,
    Walk.Reaches.nil_iff.1 (Walk.FirstWay.reaches_of_mem h hbetween), hkey⟩

/-- A step contributes the members of its type whose keys are not hidden. -/
theorem mem_contributed_iff {step : ChainStep} {member : Member} :
    member ∈ engine.contributed tree step
      ↔ member ∈ (engine.record tree step.declaration).members ∧ member.key ∉ step.hidden := by
  rw [contributed, List.mem_filter]
  simp

/-- A member is shown exactly when no type on the first way has a member of the same key. -/
theorem WellFormed.shows_iff (h : engine.WellFormed)
    (hway : engine.FirstWay tree declaration way above) {member : Member} :
    engine.Shows tree declaration above member
      ↔ member ∈ (engine.record tree above).members
        ∧ ∀ between ∈ way, member.key ∉ engine.ownKeys tree between := by
  constructor
  · rintro ⟨members, hlisted, hmember⟩
    obtain ⟨step, hstep, hpair⟩ := List.mem_map.1 hlisted
    obtain ⟨rfl, rfl⟩ := Prod.mk.inj hpair
    obtain ⟨hown, hshown⟩ := mem_contributed_iff.1 hmember
    obtain ⟨way', hway', hhidden⟩ := h.mem_contributions_iff.1 hstep
    rw [hhidden, ← hway.unique hway'] at hshown
    exact ⟨hown, fun between hbetween hkey =>
      hshown (List.mem_flatMap.2 ⟨between, hbetween, hkey⟩)⟩
  · rintro ⟨hown, hshown⟩
    have hstep : ⟨above, way.flatMap (engine.ownKeys tree)⟩
        ∈ engine.contributions tree declaration := h.mem_contributions_iff.2 ⟨way, hway, rfl⟩
    refine ⟨_, List.mem_map_of_mem hstep, mem_contributed_iff.2 ⟨hown, fun hhidden => ?_⟩⟩
    obtain ⟨between, hbetween, hkey⟩ := List.mem_flatMap.1 hhidden
    exact hshown between hbetween hkey

/-- Whoever is the first on the first way to have a key shows it. -/
theorem WellFormed.exists_shows (h : engine.WellFormed) {key : String}
    (hway : engine.FirstWay tree declaration way above) (hkey : key ∈ engine.ownKeys tree above) :
    ∃ between ∈ way ++ [above], ∃ member,
      engine.Shows tree declaration between member ∧ member.key = key := by
  cases hfind : way.find? fun between => key ∈ engine.ownKeys tree between with
  | none =>
    have hfree : ∀ between ∈ way, key ∉ engine.ownKeys tree between := by
      simpa using List.find?_eq_none.1 hfind
    obtain ⟨member, hmember, rfl⟩ := List.mem_map.1 hkey
    exact ⟨above, List.mem_append_right _ (List.mem_singleton_self above), member,
      (h.shows_iff hway).2 ⟨hmember, hfree⟩, rfl⟩
  | some between =>
    have hbetween : between ∈ way := List.mem_of_find?_eq_some hfind
    -- up to the first type that has the key, the way is the first way to that type
    obtain ⟨hown, front, back, rfl, hfront⟩ := List.find?_eq_some_iff_append.1 hfind
    simp only [decide_eq_true_eq, Bool.not_eq_true', decide_eq_false_iff_not] at hown hfront
    obtain ⟨member, hmember, rfl⟩ := List.mem_map.1 hown
    have hbefore : engine.FirstWay tree declaration front between := Walk.FirstWay.before hway
    exact ⟨between, List.mem_append_left _ hbetween, member,
      (h.shows_iff hbefore).2 ⟨hmember, hfront⟩, rfl⟩

/-! ## Completions -/

/-- The completions are what the types contribute, in the order of the listing. -/
theorem completions_eq_flatMap :
    engine.completions tree declaration = (engine.listing tree declaration).flatMap (·.2) := by
  rw [completions, listing, List.flatMap_map]

/-- Resolving the declaration first makes no difference to the completions. -/
theorem WellFormed.completed_eq (h : engine.WellFormed) :
    engine.completed tree declaration = (engine.listing tree declaration).flatMap (·.2) := by
  have hrecord : (engine.resolve tree declaration).record tree = engine.record tree :=
    funext fun other => record_resolve h.coherent declaration other
  rw [completed, (h.resolve tree declaration).completions_congr h hrecord, completions_eq_flatMap]

/-- The declaration itself comes first, with all of its members. -/
theorem WellFormed.exists_listing_eq_cons (h : engine.WellFormed) (tree : FileTree)
    (declaration : TypeDeclaration) :
    ∃ others, engine.listing tree declaration
      = (declaration, (engine.record tree declaration).members) :: others := by
  have hfirst : [⟨declaration, []⟩] <+: engine.contributions tree declaration := by
    cases h.completes_contributions tree declaration with
    | skip hold _ => cases hold
    | visit _ rest => exact rest.starts_with_visited
  obtain ⟨others, hcontributions⟩ := hfirst
  have hall : engine.contributed tree ⟨declaration, []⟩
      = (engine.record tree declaration).members := by
    simp [contributed]
  refine ⟨others.map fun step => (step.declaration, engine.contributed tree step), ?_⟩
  rw [listing, ← hcontributions, List.singleton_append, List.map_cons, hall]

/-- What the completions of a declaration show, and what they leave out. -/
structure CompletionsCover (tree : FileTree) (engine : Engine) (declaration : TypeDeclaration) :
    Prop where
  /-- Resolving the declaration and collecting the completions both come to an end. -/
  ends : ResolvesTo tree [declaration] [] engine (engine.resolve tree declaration)
    ∧ Walk.Completes ChainStep.declaration (engine.stepsAbove tree) [⟨declaration, []⟩] []
      (engine.contributions tree declaration)
  /-- The completions are listed type by type. -/
  by_types : engine.completed tree declaration = (engine.listing tree declaration).flatMap (·.2)
  /-- The members of the declaration itself come first, all of them and in their order. -/
  own_first : (engine.resolved tree declaration).members <+: engine.completed tree declaration
  /-- The types are those that extensions lead to, each of them once. -/
  types_once : ((engine.listing tree declaration).map (·.1)).Nodup
    ∧ ∀ above, above ∈ (engine.listing tree declaration).map (·.1)
      ↔ engine.LeadsTo tree declaration above
  /-- Each type contributes members of its own, in their order and each of them once. -/
  members_once : ∀ above members, (above, members) ∈ engine.listing tree declaration →
    members.Sublist (engine.record tree above).members ∧ (members.map (·.key)).Nodup
  /-- A member is left out only if a type before its own on a path has a member of the same
  key. -/
  omitted_overridden : ∀ above, engine.LeadsTo tree declaration above →
    ∀ member ∈ (engine.record tree above).members, ¬ engine.Shows tree declaration above member →
      ∃ way, engine.Path tree declaration way above
        ∧ ∃ between ∈ way, member.key ∈ engine.ownKeys tree between
  /-- For each key of each type, a member of that key is shown, of the type itself or of one
  on a path to it. -/
  keys_shown : ∀ above, engine.LeadsTo tree declaration above →
    ∀ key ∈ engine.ownKeys tree above, ∃ way, engine.Path tree declaration way above
      ∧ ∃ between ∈ way ++ [above], ∃ member,
        engine.Shows tree declaration between member ∧ member.key = key

/-- In every state that an engine can come to, completions lose nothing and show nothing
twice, on any hierarchy. -/
theorem completions_cover (calls : List LibraryIndex.Call) (config : EngineConfig)
    (provider : Option DocumentationProvider) (events : List EngineEvent) (tree : FileTree)
    (declaration : TypeDeclaration) :
    ((ofIndex (.ofCalls calls) config provider).after events).CompletionsCover tree
      declaration := by
  have h := wellFormed_after calls config provider events
  generalize (ofIndex (.ofCalls calls) config provider).after events = engine at h
  have hwalk := h.completes_contributions tree declaration
  have htypes : (engine.listing tree declaration).map (·.1)
      = (engine.contributions tree declaration).map (·.declaration) := by
    rw [listing, List.map_map]
    rfl
  refine ⟨⟨h.resolvesTo_resolve tree declaration, hwalk⟩, h.completed_eq, ?_, ⟨?_, fun above => ?_⟩,
    fun above members hlisted => ?_, fun above hleads member hmember homitted => ?_,
    fun above hleads key hkey => ?_⟩
  · obtain ⟨others, hothers⟩ := h.exists_listing_eq_cons tree declaration
    rw [resolved, record_resolve h.coherent, h.completed_eq, hothers, List.flatMap_cons]
    exact List.prefix_append _ _
  · rw [htypes]
    exact hwalk.nodup_keys List.nodup_nil
  · rw [htypes]
    exact hwalk.mem_keys_iff map_declaration_stepsAbove above
  · obtain ⟨step, _, hpair⟩ := List.mem_map.1 hlisted
    obtain ⟨rfl, rfl⟩ := Prod.mk.inj hpair
    have hsublist : (engine.contributed tree step).Sublist
        (engine.record tree step.declaration).members := List.filter_sublist
    have hdistinct := (h.record_madeFor tree step.declaration).keys_distinct
    exact ⟨hsublist, hdistinct.sublist (hsublist.map _)⟩
  · obtain ⟨way, hway⟩ := h.exists_firstWay hleads
    refine ⟨way, hway.path, ?_⟩
    by_contra hnone
    refine homitted ((h.shows_iff hway).2 ⟨hmember, fun between hbetween hown => ?_⟩)
    exact hnone ⟨between, hbetween, hown⟩
  · obtain ⟨way, hway⟩ := h.exists_firstWay hleads
    exact ⟨way, hway.path, h.exists_shows hway hkey⟩

/-! ## Overrides -/

/-- In every state that an engine can come to, a member is shown exactly when no type on the
first way has a member of the same key. So members are hidden exactly when they are
overridden, if and only if overrides are all met on first ways. -/
theorem overrides_hide_iff (calls : List LibraryIndex.Call) (config : EngineConfig)
    (provider : Option DocumentationProvider) (events : List EngineEvent) (tree : FileTree)
    (declaration : TypeDeclaration) :
    let engine := (ofIndex (.ofCalls calls) config provider).after events
    (∀ above way, engine.FirstWay tree declaration way above →
        ∀ member, engine.Shows tree declaration above member
          ↔ member ∈ (engine.record tree above).members
            ∧ ∀ between ∈ way, member.key ∉ engine.ownKeys tree between)
      ∧ (engine.OverridesHide tree declaration ↔ engine.OverriddenOnFirstWay tree declaration) := by
  have h := wellFormed_after calls config provider events
  intro engine
  refine ⟨fun above way hway member => h.shows_iff hway, ?_, ?_⟩
  · intro hhide above way hway member hmember hoverridden
    have hhidden : ¬ engine.Shows tree declaration above member :=
      fun hshows => (hhide above hway.leadsTo member hmember).1 hshows hoverridden
    by_contra hnone
    refine hhidden ((h.shows_iff hway).2 ⟨hmember, fun between hbetween hown => ?_⟩)
    exact hnone ⟨between, hbetween, hown⟩
  · intro hfirst above hleads member hmember
    obtain ⟨way, hway⟩ := h.exists_firstWay hleads
    rw [h.shows_iff hway]
    constructor
    · intro hshown hoverridden
      obtain ⟨between, hbetween, hown⟩ := hfirst above way hway member hmember hoverridden
      exact hshown.2 between hbetween hown
    · intro hfree
      exact ⟨hmember, fun between hbetween hown => hfree (hway.overridden hbetween hown)⟩

/-- The interface `Shape` with the method `area()`. -/
def shapeFile : Bytes :=
  [0xCA, 0xFE, 0xBA, 0xBE, 0x00, 0x00, 0x00, 0x34, 0x00, 0x05, 0x01, 0x00, 0x05, 0x53, 0x68, 0x61,
    0x70, 0x65, 0x07, 0x00, 0x01, 0x01, 0x00, 0x04, 0x61, 0x72, 0x65, 0x61, 0x01, 0x00, 0x03, 0x28,
    0x29, 0x56, 0x06, 0x01, 0x00, 0x02, 0x00, 0x00, 0x00, 0x00, 0x00, 0x00, 0x00, 0x01, 0x04, 0x01,
    0x00, 0x03, 0x00, 0x04, 0x00, 0x00, 0x00, 0x00]

/-- The interface `Round`, which extends `Shape` and has a method `area()` of its own. -/
def roundFile : Bytes :=
  [0xCA, 0xFE, 0xBA, 0xBE, 0x00, 0x00, 0x00, 0x34, 0x00, 0x07, 0x01, 0x00, 0x05, 0x52, 0x6F, 0x75,
    0x6E, 0x64, 0x07, 0x00, 0x01, 0x01, 0x00, 0x05, 0x53, 0x68, 0x61, 0x70, 0x65, 0x07, 0x00, 0x03,
    0x01, 0x00, 0x04, 0x61, 0x72, 0x65, 0x61, 0x01, 0x00, 0x03, 0x28, 0x29, 0x56, 0x06, 0x01, 0x00,
    0x02, 0x00, 0x00, 0x00, 0x01, 0x00, 0x04, 0x00, 0x00, 0x00, 0x01, 0x04, 0x01, 0x00, 0x05, 0x00,
    0x06, 0x00, 0x00, 0x00, 0x00]

/-- The class `Disc`, which implements `Shape` and `Round`, in this order. -/
def discFile : Bytes :=
  [0xCA, 0xFE, 0xBA, 0xBE, 0x00, 0x00, 0x00, 0x34, 0x00, 0x07, 0x01, 0x00, 0x04, 0x44, 0x69, 0x73,
    0x63, 0x07, 0x00, 0x01, 0x01, 0x00, 0x05, 0x53, 0x68, 0x61, 0x70, 0x65, 0x07, 0x00, 0x03, 0x01,
    0x00, 0x05, 0x52, 0x6F, 0x75, 0x6E, 0x64, 0x07, 0x00, 0x05, 0x00, 0x21, 0x00, 0x02, 0x00, 0x00,
    0x00, 0x02, 0x00, 0x04, 0x00, 0x06, 0x00, 0x00, 0x00, 0x00, 0x00, 0x00]

/-- The class `Ring`, which implements `Round` and `Shape`, in this order. -/
def ringFile : Bytes :=
  [0xCA, 0xFE, 0xBA, 0xBE, 0x00, 0x00, 0x00, 0x34, 0x00, 0x07, 0x01, 0x00, 0x04, 0x52, 0x69, 0x6E,
    0x67, 0x07, 0x00, 0x01, 0x01, 0x00, 0x05, 0x52, 0x6F, 0x75, 0x6E, 0x64, 0x07, 0x00, 0x03, 0x01,
    0x00, 0x05, 0x53, 0x68, 0x61, 0x70, 0x65, 0x07, 0x00, 0x05, 0x00, 0x21, 0x00, 0x02, 0x00, 0x00,
    0x00, 0x02, 0x00, 0x04, 0x00, 0x06, 0x00, 0x00, 0x00, 0x00, 0x00, 0x00]

/-- The tree that holds these files in one archive. -/
def shapesTree : FileTree :=
  ⟨[(["shapes.jar"], .file (.archive
    [⟨"Shape.class", shapeFile, false⟩, ⟨"Round.class", roundFile, false⟩,
      ⟨"Disc.class", discFile, false⟩, ⟨"Ring.class", ringFile, false⟩]))], []⟩

/-- An engine for which this archive has been registered and nothing has been asked. -/
def shapesEngine : Engine :=
  (ofIndex (.ofCalls []) .standard none).after
    [.call shapesTree (.register ⟨.archive, "shapes.jar"⟩ none)]

/-- The method `area()` of `Shape`. -/
def shapeArea : Member :=
  { kind := .method, name := "area", owner := some "Shape", key := "area()", resultType := none
    parameters := [], isStatic := false, isDeprecated := false
    summary := "public abstract void area()" }

/-- How far up the chains of the archive a type is, from the other end. -/
def shapesHeight (declaration : TypeDeclaration) : Nat :=
  if declaration.qualifiedName = "Shape" then 0
  else if declaration.qualifiedName = "Round" then 1
  else 2

/-- Extensions of the archive go up, so that no type extends itself. -/
theorem shapesHeight_lt_of_extends {lower upper : TypeDeclaration}
    (h : shapesEngine.Extends shapesTree lower upper) : shapesHeight upper < shapesHeight lower := by
  have hlisted : ∀ staticsOnly, ∀ lower ∈ shapesEngine.extendingDeclarations staticsOnly,
      ∀ upper ∈ (shapesEngine.record shapesTree lower).extensions,
        shapesHeight upper < shapesHeight lower := by
    decide +kernel
  exact hlisted lower.staticsOnly lower (mem_extendingDeclarations (List.ne_nil_of_mem h)) upper h

/-- Not every override hides what it overrides, even where no type extends itself: `Disc`
meets `Shape` before `Round`, which overrides `area()`, and both methods are shown. In the
other order, as in `Ring`, only the override is shown. -/
theorem first_way_misses_override :
    (∀ type, ¬ Relation.TransGen (shapesEngine.Extends shapesTree) type type)
      ∧ ¬ shapesEngine.OverridesHide shapesTree ⟨"Disc", false⟩
      ∧ (shapesEngine.record shapesTree ⟨"Disc", false⟩).extensions.Perm
        (shapesEngine.record shapesTree ⟨"Ring", false⟩).extensions
      ∧ (shapesEngine.completed shapesTree ⟨"Disc", false⟩).map (·.owner)
        = [some "Shape", some "Round"]
      ∧ (shapesEngine.completed shapesTree ⟨"Ring", false⟩).map (·.owner) = [some "Round"] := by
  have hfacts : (⟨"Shape", false⟩ ∈ (shapesEngine.record shapesTree ⟨"Disc", false⟩).extensions
        ∧ ⟨"Round", false⟩ ∈ (shapesEngine.record shapesTree ⟨"Disc", false⟩).extensions
        ∧ ⟨"Shape", false⟩ ∈ (shapesEngine.record shapesTree ⟨"Round", false⟩).extensions)
      ∧ shapeArea ∈ (shapesEngine.record shapesTree ⟨"Shape", false⟩).members
      ∧ shapeArea.key ∈ shapesEngine.ownKeys shapesTree ⟨"Round", false⟩
      ∧ (⟨"Shape", false⟩, [shapeArea]) ∈ shapesEngine.listing shapesTree ⟨"Disc", false⟩ := by
    decide +kernel
  obtain ⟨⟨hdisc, hround, habove⟩, hmember, hkey, hshown⟩ := hfacts
  refine ⟨fun type hcycle => ?_, fun hhide => ?_, by decide +kernel⟩
  · have hlt : ∀ upper, Relation.TransGen (shapesEngine.Extends shapesTree) type upper →
        shapesHeight upper < shapesHeight type := by
      intro upper hupper
      induction hupper with
      | single hstep => exact shapesHeight_lt_of_extends hstep
      | tail _ hstep ih => exact Nat.lt_trans (shapesHeight_lt_of_extends hstep) ih
    exact Nat.lt_irrefl _ (hlt type hcycle)
  · have hhidden := hhide ⟨"Shape", false⟩ (.single hdisc) shapeArea hmember
    exact hhidden.1 ⟨_, hshown, List.mem_singleton_self shapeArea⟩
      ⟨⟨"Round", false⟩, by decide, .single hround, .single habove, hkey⟩

end ClassAtlas.Engine
