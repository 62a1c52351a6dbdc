import ClassAtlas.Engine.Basic
import ClassAtlas.Proofs.ClassFile.OverloadKeys

/-!
# Overloads in records

The record of a class has the visible fields and methods of the class, and of each key
the first member only. A method is missed when something in front of it has its key: a
field of that name, the property of an accessor, or a method with another name or other
parameter types that looks like it. With plain names there is no such member.
-/

namespace ClassAtlas

/-! ## First items of their kind -/

section

variable {α κ : Type} [DecidableEq κ] (key : α → κ)

/-- The items with a key that is not among those seen, nor that of an item in front. -/
def keepFirst : (seen : List κ) → List α → List α
  | _, [] => []
  | seen, item :: items =>
    if key item ∈ seen then keepFirst (key item :: seen) items
    else item :: keepFirst (key item :: seen) items

/-- Keeping the first of each key goes on behind a front with the keys of the front. -/
theorem keepFirst_append (seen : List κ) (front back : List α) :
    keepFirst key seen (front ++ back)
      = keepFirst key seen front ++ keepFirst key ((front.map key).reverse ++ seen) back := by
  induction front generalizing seen with
  | nil => rfl
  | cons item front ih =>
    have hseen : ((item :: front).map key).reverse ++ seen
        = (front.map key).reverse ++ key item :: seen := by simp
    rw [List.cons_append, keepFirst, keepFirst, ih, hseen]
    split
    · rfl
    · rfl

/-- What is kept stands in the same order as before. -/
theorem keepFirst_sublist (seen : List κ) (items : List α) :
    (keepFirst key seen items).Sublist items := by
  induction items generalizing seen with
  | nil => exact List.Sublist.refl _
  | cons item items ih =>
    rw [keepFirst]
    split
    · exact (ih _).cons item
    · exact (ih _).cons_cons item

end

/-- The members of a record are the first ones of their keys. -/
theorem Member.firstByKey_eq_keepFirst (members : List Member) :
    Member.firstByKey members = keepFirst Member.key [] members := by
  have hfold : ∀ (kept : List Member) (seen : List String),
      (∀ key, (kept.any (·.key = key)) = true ↔ key ∈ seen) →
        (members.foldl
          (fun kept member => if kept.any (·.key = member.key) then kept else member :: kept)
          kept).reverse = kept.reverse ++ keepFirst Member.key seen members := by
    induction members with
    | nil =>
      intro kept seen _
      exact (List.append_nil _).symm
    | cons member members ih =>
      intro kept seen hseen
      rw [List.foldl_cons, keepFirst]
      by_cases hkey : member.key ∈ seen
      · rw [if_pos ((hseen member.key).2 hkey), if_pos hkey]
        refine ih kept (member.key :: seen) fun key => ?_
        rw [hseen, List.mem_cons]
        exact ⟨.inr, fun h => h.elim (fun hsame => hsame ▸ hkey) id⟩
      · rw [if_neg fun hany => hkey ((hseen member.key).1 hany), if_neg hkey,
          ih (member :: kept) (member.key :: seen), List.reverse_cons, List.append_assoc]
        · rfl
        · intro key
          rw [List.any_cons, Bool.or_eq_true, hseen, List.mem_cons, decide_eq_true_eq, eq_comm]
  exact hfold [] [] fun key => by simp

/-! ## Members of a class -/

namespace MemberContext

variable {context : MemberContext}

/-- Whether a method is shown. -/
def lists (context : MemberContext) (method : Method) : Bool :=
  !(method.isConstructor || method.isStaticInitializer || method.isCompilerGenerated)
    && context.isVisible method.isPublic method.isStatic

/-- The methods that are shown. -/
def listed (context : MemberContext) : List Method :=
  context.description.methods.filter context.lists

/-- The fields that are shown. -/
def listedFields (context : MemberContext) : List Field :=
  context.description.fields.filter fun field => context.isVisible field.isPublic field.isStatic

/-- The name of the property that is shown behind a method. -/
def property? (context : MemberContext) (method : Method) : Option String :=
  if context.beanProperties then propertyName? method else none

/-- A shown method with its property. -/
def entries (context : MemberContext) (method : Method) : List Member :=
  context.methodMember method
    :: ((context.property? method).map (context.propertyMember method)).toList

/-- A method has its entries if it is listed, and else none. -/
theorem methodMembers_eq (context : MemberContext) (method : Method) :
    context.methodMembers method = if context.lists method then context.entries method else [] := by
  unfold methodMembers lists entries property?
  cases method.isConstructor || method.isStaticInitializer || method.isCompilerGenerated
  · cases context.isVisible method.isPublic method.isStatic
    · rfl
    · cases context.beanProperties <;> rfl
  · rfl

/-- The members are those of the listed fields, and behind them the entries of the listed methods.
-/
theorem members_eq (context : MemberContext) :
    context.members = context.listedFields.map context.fieldMember
      ++ context.listed.flatMap context.entries := by
  have hmethods : ∀ methods : List Method, methods.flatMap context.methodMembers
      = (methods.filter context.lists).flatMap context.entries := by
    intro methods
    induction methods with
    | nil => rfl
    | cons method methods ih =>
      rw [List.flatMap_cons, ih, methodMembers_eq]
      by_cases hlists : context.lists method = true
      · rw [if_pos hlists, List.filter_cons_of_pos hlists, List.flatMap_cons]
      · rw [if_neg hlists, List.filter_cons_of_neg hlists, List.nil_append]
  exact congrArg _ (hmethods context.description.methods)

/-- The keys that a shown method adds: its own and the name of its property. -/
theorem keys_entries (context : MemberContext) (method : Method) :
    (context.entries method).map Member.key = method.key :: (context.property? method).toList := by
  unfold entries
  cases context.property? method <;> rfl

/-! ## Methods that are kept -/

/-- The methods among the members that are kept of some methods, when some keys have been seen. -/
def keptMethods (context : MemberContext) (seen : List String) (methods : List Method) :
    List Member :=
  (keepFirst Member.key seen (methods.flatMap context.entries)).filter (·.kind = .method)

/-- The keys seen behind a method. -/
def seenBehind (context : MemberContext) (seen : List String) (method : Method) : List String :=
  ((context.entries method).map Member.key).reverse ++ seen

/-- Behind a method, its own key and that of its property have been seen. -/
theorem mem_seenBehind_iff {seen : List String} {method : Method} {key : String} :
    key ∈ context.seenBehind seen method
      ↔ key = method.key ∨ context.property? method = some key ∨ key ∈ seen := by
  rw [seenBehind, keys_entries, List.mem_append, List.mem_reverse, List.mem_cons,
    Option.mem_toList, or_assoc]

/-- Members of other kinds leave no method. -/
theorem filter_keepFirst_eq_nil {seen : List String} {members : List Member}
    (h : ∀ member ∈ members, member.kind ≠ .method) :
    (keepFirst Member.key seen members).filter (·.kind = .method) = [] := by
  refine List.filter_eq_nil_iff.2 fun member hmember => ?_
  simpa using h member ((keepFirst_sublist Member.key seen members).subset hmember)

/-- A method is kept if its key has not been seen, and the rest is kept behind what it adds to the
keys. -/
theorem keptMethods_cons (context : MemberContext) (seen : List String) (method : Method)
    (methods : List Method) :
    context.keptMethods seen (method :: methods)
      = (if method.key ∈ seen then [] else [context.methodMember method])
        ++ context.keptMethods (context.seenBehind seen method) methods := by
  have hproperty : ∀ member ∈
      ((context.property? method).map (context.propertyMember method)).toList,
        member.kind ≠ .method := by
    intro member hmember
    obtain ⟨name, _, rfl⟩ := Option.map_eq_some_iff.1 (Option.mem_toList.1 hmember)
    exact nofun
  have hkey : (context.methodMember method).key = method.key := rfl
  have hkind : (context.methodMember method).kind = .method := rfl
  unfold keptMethods seenBehind
  rw [List.flatMap_cons, keepFirst_append, List.filter_append]
  congr 1
  unfold entries
  rw [keepFirst, hkey]
  split
  · exact filter_keepFirst_eq_nil hproperty
  · rw [List.filter_cons_of_pos (by simp [hkind]), filter_keepFirst_eq_nil hproperty]

variable {seen : List String} {done : List Overload}

/-- The overloads of methods in front have had their keys seen. -/
def Covers (done : List Overload) (seen : List String) : Prop :=
  ∀ overload ∈ done, overload.key ∈ seen

/-- Behind a method, the keys that have been seen cover its overload too. -/
theorem Covers.seenBehind (h : Covers done seen) (context : MemberContext) (method : Method) :
    Covers (method.overload :: done) (context.seenBehind seen method) := by
  refine List.forall_mem_cons.2 ⟨mem_seenBehind_iff.2 (.inl rfl), fun overload hdone => ?_⟩
  exact mem_seenBehind_iff.2 (.inr (.inr (h overload hdone)))

/-- No more methods are kept than there are overloads. -/
theorem length_keptMethods_le (context : MemberContext) (h : Covers done seen)
    (methods : List Method) : (context.keptMethods seen methods).length
      ≤ (keepFirst Method.overload done methods).length := by
  induction methods generalizing seen done with
  | nil => exact Nat.zero_le _
  | cons method methods ih =>
    have hbehind := ih (h.seenBehind context method)
    rw [keptMethods_cons, keepFirst, List.length_append]
    by_cases hdone : method.overload ∈ done
    · have hseen : method.key ∈ seen := h method.overload hdone
      rw [if_pos hdone, if_pos hseen, List.length_nil, Nat.zero_add]
      exact hbehind
    · rw [if_neg hdone, List.length_cons]
      split
      · rw [List.length_nil]
        omega
      · rw [List.length_singleton]
        omega

/-- Nothing in front of the first method of an overload has its key. -/
def Unobstructed (context : MemberContext) (seen : List String) (done : List Overload)
    (methods : List Method) : Prop :=
  ∀ front method back, methods = front ++ method :: back →
    method.overload ∉ front.map Method.overload ++ done →
      method.key ∉ seen ∧ ∀ other ∈ front,
        method.key ≠ other.key ∧ context.property? other ≠ some method.key

/-- Methods are unobstructed if the first one is and those behind it are, with its keys seen. -/
theorem unobstructed_cons (context : MemberContext) (seen : List String) (done : List Overload)
    (first : Method) (methods : List Method) :
    context.Unobstructed seen done (first :: methods)
      ↔ (first.overload ∉ done → first.key ∉ seen)
        ∧ context.Unobstructed (context.seenBehind seen first) (first.overload :: done)
          methods := by
  constructor
  · intro h
    refine ⟨fun hnew => (h [] first methods rfl hnew).1, ?_⟩
    rintro front method back rfl hnew
    have hnew' : method.overload ∉ (first :: front).map Method.overload ++ done := by
      intro hmem
      simp only [List.map_cons, List.cons_append, List.mem_cons, List.mem_append] at hmem hnew
      tauto
    obtain ⟨hseen, hfront⟩ := h (first :: front) method back rfl hnew'
    obtain ⟨hfirst, hothers⟩ := List.forall_mem_cons.1 hfront
    refine ⟨fun hmem => ?_, hothers⟩
    obtain hkey | hproperty | hmem := mem_seenBehind_iff.1 hmem
    · exact hfirst.1 hkey
    · exact hfirst.2 hproperty
    · exact hseen hmem
  · rintro ⟨hfirst, hothers⟩ front method back hsplit hnew
    cases front with
    | nil =>
      obtain ⟨rfl, rfl⟩ := List.cons.inj hsplit
      exact ⟨hfirst hnew, nofun⟩
    | cons other front =>
      obtain ⟨rfl, rfl⟩ := List.cons.inj hsplit
      have hnew' : method.overload ∉ front.map Method.overload ++ first.overload :: done := by
        intro hmem
        simp only [List.map_cons, List.cons_append, List.mem_cons, List.mem_append] at hmem hnew
        tauto
      obtain ⟨hseen, hfront⟩ := hothers front method back rfl hnew'
      rw [mem_seenBehind_iff, not_or, not_or] at hseen
      exact ⟨hseen.2.2, List.forall_mem_cons.2 ⟨⟨hseen.1, hseen.2.1⟩, hfront⟩⟩

/-- Of each overload the first method is kept exactly when nothing in front of it has its key. -/
theorem keptMethods_eq_iff (context : MemberContext) (h : Covers done seen)
    (methods : List Method) : context.keptMethods seen methods
        = (keepFirst Method.overload done methods).map context.methodMember
      ↔ context.Unobstructed seen done methods := by
  induction methods generalizing seen done with
  | nil =>
    refine iff_of_true rfl fun front method back hsplit => ?_
    simp at hsplit
  | cons first methods ih =>
    have hbehind := h.seenBehind context first
    rw [unobstructed_cons, ← ih hbehind, keptMethods_cons, keepFirst]
    by_cases hdone : first.overload ∈ done
    · have hseen : first.key ∈ seen := h first.overload hdone
      rw [if_pos hdone, if_pos hseen, List.nil_append]
      exact ⟨fun hkept => ⟨fun hnew => absurd hdone hnew, hkept⟩, And.right⟩
    · rw [if_neg hdone, List.map_cons]
      by_cases hseen : first.key ∈ seen
      · -- a method is missing, and none can make up for it
        have hle := context.length_keptMethods_le hbehind methods
        rw [if_pos hseen, List.nil_append]
        refine iff_of_false (fun hkept => ?_) fun hfree => hfree.1 hdone hseen
        rw [hkept, List.length_cons, List.length_map] at hle
        omega
      · rw [if_neg hseen, List.singleton_append, List.cons.injEq]
        exact ⟨fun hkept => ⟨fun _ => hseen, hkept.2⟩, fun hfree => ⟨rfl, hfree.2⟩⟩

/-- Whether the first shown method of each overload is among the members that are kept. -/
def KeepsOverloads (context : MemberContext) (kept : List Member) : Prop :=
  kept.filter (·.kind = .method)
    = (keepFirst Method.overload [] context.listed).map context.methodMember

/-- Something in front of a method has its key: a field of this name, a method that looks like it
or a property of this name. -/
def KeyTaken (context : MemberContext) (front : List Method) (method : Method) : Prop :=
  (∃ field ∈ context.listedFields, field.name = method.key)
    ∨ ∃ other ∈ front, other.overload.LooksLike method.overload
      ∨ context.property? other = some method.key

/-- The key of a method is free if no listed field has it, and no method in front of it, nor the
property of one. -/
theorem not_keyTaken_iff (context : MemberContext) (front : List Method) (method : Method) :
    ¬ context.KeyTaken front method
      ↔ method.key ∉ (context.listedFields.map context.fieldMember).map Member.key
        ∧ ∀ other ∈ front, method.key ≠ other.key
          ∧ context.property? other ≠ some method.key := by
  have hfields : (context.listedFields.map context.fieldMember).map Member.key
      = context.listedFields.map Field.name := by
    rw [List.map_map]
    rfl
  have hmethods : ∀ other : Method,
      method.key ≠ other.key ↔ ¬ other.overload.LooksLike method.overload := by
    intro other
    rw [← Overload.key_eq_iff, ← Method.key_eq, ← Method.key_eq]
    exact ne_comm
  rw [KeyTaken, not_or, hfields, List.mem_map]
  simp only [hmethods, not_exists, not_and, not_or, ne_eq]

/-- Of each shown overload a method is kept exactly when nothing in front of the first one has its
key. -/
theorem keepsOverloads_firstByKey_iff (context : MemberContext) :
    context.KeepsOverloads (Member.firstByKey context.members)
      ↔ ∀ front method back, context.listed = front ++ method :: back →
        method.overload ∉ front.map Method.overload → ¬ context.KeyTaken front method := by
  have hfields : ∀ member ∈ context.listedFields.map context.fieldMember,
      member.kind ≠ .method := by
    intro member hmember
    obtain ⟨field, _, rfl⟩ := List.mem_map.1 hmember
    exact nofun
  have hcovers : Covers [] (((context.listedFields.map context.fieldMember).map Member.key).reverse
      ++ []) := nofun
  have hkept := context.keptMethods_eq_iff hcovers context.listed
  unfold keptMethods Unobstructed at hkept
  unfold KeepsOverloads
  rw [Member.firstByKey_eq_keepFirst, members_eq, keepFirst_append, List.filter_append,
    filter_keepFirst_eq_nil hfields, List.nil_append, hkept]
  simp only [List.append_nil, List.mem_reverse, not_keyTaken_iff]

end MemberContext

/-! ## Records of classes -/

/-- Methods with another name or other parameter types have other keys. -/
def ClassDescription.KeysTellOverloads (description : ClassDescription) : Prop :=
  ∀ first ∈ description.methods, ∀ second ∈ description.methods,
    first.overload ≠ second.overload → first.key ≠ second.key

/-- Whether no name in a class passes for anything else: no field, method or property has a
parenthesis in its name, and the parameter types are plain. -/
def ClassDescription.isPlainlyNamed (description : ClassDescription) : Bool :=
  (description.fields.all fun field => !field.name.toList.contains '(')
    && description.methods.all fun method => method.overload.isPlain
      && (propertyName? method).all fun name => !name.toList.contains '('

/-- The names of a class are plain if no field or property has a parenthesis in its name and all
overloads are plain. -/
theorem ClassDescription.isPlainlyNamed_iff {description : ClassDescription} :
    description.isPlainlyNamed = true
      ↔ (∀ field ∈ description.fields, '(' ∉ field.name.toList)
        ∧ ∀ method ∈ description.methods, method.overload.isPlain = true
          ∧ ∀ name, propertyName? method = some name → '(' ∉ name.toList := by
  simp [isPlainlyNamed, Option.all_eq_true]

/-- The key of a method has a parenthesis in it. -/
theorem Method.parenthesis_mem_key (method : Method) : '(' ∈ method.key.toList := by
  rw [key_eq, Overload.toList_key]
  simp

/-- In a class of plain names, keys tell all overloads apart. -/
theorem ClassDescription.keysTellOverloads_of_isPlainlyNamed {description : ClassDescription}
    (h : description.isPlainlyNamed = true) : description.KeysTellOverloads := by
  obtain ⟨_, hmethods⟩ := isPlainlyNamed_iff.1 h
  intro first hfirst second hsecond hne hkey
  exact hne (Overload.eq_of_key_eq (hmethods first hfirst).1 (hmethods second hsecond).1 hkey)

/-- With plain names only a method of the same overload has the key of a method. -/
theorem MemberContext.not_keyTaken_of_isPlainlyNamed {context : MemberContext}
    {front back : List Method} {method : Method}
    (h : context.description.isPlainlyNamed = true)
    (hsplit : context.listed = front ++ method :: back)
    (hnew : method.overload ∉ front.map Method.overload) : ¬ context.KeyTaken front method := by
  obtain ⟨hfields, hmethods⟩ := ClassDescription.isPlainlyNamed_iff.1 h
  have hlisted : ∀ other ∈ front ++ method :: back, other ∈ context.description.methods := by
    rw [← hsplit]
    exact fun other hother => (List.mem_filter.1 hother).1
  have hparenthesis := method.parenthesis_mem_key
  rintro (⟨field, hfield, hname⟩ | ⟨other, hother, hlooks | hproperty⟩)
  · rw [← hname] at hparenthesis
    exact hfields field (List.mem_filter.1 hfield).1 hparenthesis
  · have hplain := (hmethods other (hlisted other (by simp [hother]))).1
    have hplain' := (hmethods method (hlisted method (by simp))).1
    have hsame := Overload.eq_of_key_eq hplain hplain' hlooks.key_eq
    exact hnew (hsame ▸ List.mem_map_of_mem hother)
  · unfold property? at hproperty
    split at hproperty
    · exact (hmethods other (hlisted other (by simp [hother]))).2 _ hproperty hparenthesis
    · cases hproperty

namespace Engine

/-- What shapes the members of a record. -/
def contextOf (tree : FileTree) (engine : Engine) (declaration : TypeDeclaration)
    (description : ClassDescription) : MemberContext where
  description
  staticsOnly := declaration.staticsOnly
  beanProperties := engine.config.beanProperties
  provider := engine.provider
  sourceText := if engine.provider.isSome then engine.sourceText tree description else none

/-- The record of a class has the first of its members of each key. -/
theorem members_recordOf (tree : FileTree) (engine : Engine) (declaration : TypeDeclaration)
    (description : ClassDescription) :
    (engine.recordOf tree declaration description).members
      = Member.firstByKey (engine.contextOf tree declaration description).members :=
  rfl

/-- Whether the record of a class has a method of every overload that is shown. -/
def KeepsOverloads (tree : FileTree) (engine : Engine) (declaration : TypeDeclaration)
    (description : ClassDescription) : Prop :=
  (engine.contextOf tree declaration description).KeepsOverloads
    (engine.recordOf tree declaration description).members

/-- All overloads are kept exactly if the key of each is free where it first occurs. -/
theorem keepsOverloads_iff (tree : FileTree) (engine : Engine) (declaration : TypeDeclaration)
    (description : ClassDescription) :
    KeepsOverloads tree engine declaration description
      ↔ ∀ front method back,
        (engine.contextOf tree declaration description).listed = front ++ method :: back →
          method.overload ∉ front.map Method.overload →
            ¬ (engine.contextOf tree declaration description).KeyTaken front method := by
  unfold KeepsOverloads
  rw [members_recordOf]
  exact (engine.contextOf tree declaration description).keepsOverloads_firstByKey_iff

end Engine

/-- For every class: keys tell the methods apart exactly when no method looks like one of another
name or of other parameter types. The record of the class, whoever asks for it, has a method of
every shown overload exactly when no field, method or property in front of the first one has its
key. Both is so when the names in the class are plain. -/
theorem overloads_told_iff (description : ClassDescription) :
    (description.KeysTellOverloads
      ↔ ∀ first ∈ description.methods, ∀ second ∈ description.methods,
        first.overload.LooksLike second.overload → first.overload = second.overload)
    ∧ (∀ tree engine declaration, Engine.KeepsOverloads tree engine declaration description
      ↔ ∀ front method back,
        (engine.contextOf tree declaration description).listed = front ++ method :: back →
          method.overload ∉ front.map Method.overload →
            ¬ (engine.contextOf tree declaration description).KeyTaken front method)
    ∧ (description.isPlainlyNamed = true → description.KeysTellOverloads
      ∧ ∀ tree engine declaration,
        Engine.KeepsOverloads tree engine declaration description) := by
  refine ⟨?_, fun tree engine declaration => ?_, fun hplain => ⟨?_, ?_⟩⟩
  · refine forall₄_congr fun first _ second _ => ?_
    rw [← Overload.key_eq_iff]
    exact not_imp_not
  · exact Engine.keepsOverloads_iff tree engine declaration description
  · exact ClassDescription.keysTellOverloads_of_isPlainlyNamed hplain
  · intro tree engine declaration
    rw [Engine.keepsOverloads_iff]
    intro front method back hsplit hnew
    exact MemberContext.not_keyTaken_of_isPlainlyNamed hplain hsplit hnew

/-- A text constant of a class file. -/
def textEntry (text : String) : Bytes :=
  [1, 0, UInt8.ofNat text.length] ++ text.toList.map fun c => UInt8.ofNat c.toNat

/-- A class with two public methods of one name, by their descriptors. -/
def overloadFile (first second : String) : Bytes :=
  [0xCA, 0xFE, 0xBA, 0xBE, 0, 0, 0, 0x34, 0, 6] ++ textEntry "P" ++ [7, 0, 1] ++ textEntry "f"
    ++ textEntry first ++ textEntry second
    ++ [0, 0x21, 0, 2, 0, 0, 0, 0, 0, 0, 0, 2, 0, 1, 0, 3, 0, 4, 0, 0, 0, 1, 0, 3, 0, 5, 0, 0, 0, 0]

/-- With a number and a class as parameters, both methods are found in the record. -/
theorem plain_overloads_told :
    ∃ description, decode (overloadFile "(I)V" "(La/B;)V") = .ok description
      ∧ description.methods.map Method.key = ["f(int)", "f(a.B)"]
      ∧ description.KeysTellOverloads
      ∧ ∀ tree engine declaration, Engine.KeepsOverloads tree engine declaration description := by
  have hcheck : (decode (overloadFile "(I)V" "(La/B;)V")).toOption.any (fun description =>
      description.methods.map Method.key = ["f(int)", "f(a.B)"]
        && description.isPlainlyNamed) = true := by
    decide +kernel
  cases hread : decode (overloadFile "(I)V" "(La/B;)V") with
  | error error =>
    rw [hread] at hcheck
    cases hcheck
  | ok description =>
    rw [hread] at hcheck
    obtain ⟨hkeys, hplain⟩ := Bool.and_eq_true_iff.1 hcheck
    exact ⟨description, rfl, of_decide_eq_true hkeys, (overloads_told_iff description).2.2 hplain⟩

/-- A public method called `f` is shown, unless static members are asked for. -/
theorem MemberContext.lists_of_public {context : MemberContext} {method : Method}
    (hstatics : context.staticsOnly = false) (hflags : method.flags = 1)
    (hname : method.name = "f") : context.lists method = true := by
  simp only [lists, isVisible, hstatics, Method.isConstructor, Method.isStaticInitializer,
    Method.isCompilerGenerated, Method.isPublic, Method.isStatic, hflags, hname]
  decide

/-- A class `a, b` as the parameter of one method makes its key that of another with two classes
`a` and `b` as parameters, which is missing in every record of the class then. -/
theorem comma_overload_lost :
    ∃ description, decode (overloadFile "(La, b;)V" "(La;Lb;)V") = .ok description
      ∧ ¬ description.KeysTellOverloads
      ∧ ∀ tree engine, ¬ Engine.KeepsOverloads tree engine ⟨"P", false⟩ description := by
  have hmethods : (decode (overloadFile "(La, b;)V" "(La;Lb;)V")).toOption.map (fun description =>
      description.methods.map fun method => (method.flags, method.overload))
      = some [(1, ⟨"f", [.object "a, b"]⟩), (1, ⟨"f", [.object "a", .object "b"]⟩)] := by
    decide +kernel
  cases hread : decode (overloadFile "(La, b;)V" "(La;Lb;)V") with
  | error error =>
    rw [hread] at hmethods
    cases hmethods
  | ok description =>
    rw [hread] at hmethods
    obtain ⟨first, others, hlist, hfirst, hothers⟩ :=
      List.map_eq_cons_iff.1 (Option.some.inj hmethods)
    obtain ⟨second, none, rfl, hsecond, hnone⟩ := List.map_eq_cons_iff.1 hothers
    obtain rfl := List.map_eq_nil_iff.1 hnone
    obtain ⟨hflags, hoverload⟩ := Prod.mk.inj hfirst
    obtain ⟨hflags', hoverload'⟩ := Prod.mk.inj hsecond
    have hne : first.overload ≠ second.overload := by
      rw [hoverload, hoverload']
      decide
    have hlooks : first.overload.LooksLike second.overload := by
      rw [hoverload, hoverload']
      exact .rel _ _ (.two "f" [] [] "a" "b")
    refine ⟨description, rfl, fun htell => ?_, fun tree engine hkeeps => ?_⟩
    · exact htell first (by simp [hlist]) second (by simp [hlist]) hne hlooks.key_eq
    · have hlisted : (engine.contextOf tree ⟨"P", false⟩ description).listed = [first, second] := by
        have hname : first.name = "f" := congrArg Overload.name hoverload
        have hname' : second.name = "f" := congrArg Overload.name hoverload'
        change description.methods.filter _ = [first, second]
        rw [hlist, List.filter_cons_of_pos (MemberContext.lists_of_public rfl hflags hname),
          List.filter_cons_of_pos (MemberContext.lists_of_public rfl hflags' hname')]
        rfl
      have hnew : second.overload ∉ [first].map Method.overload := by simpa using hne.symm
      rw [Engine.keepsOverloads_iff] at hkeeps
      exact hkeeps [first] second [] hlisted hnew
        (.inr ⟨first, List.mem_cons_self, .inl hlooks⟩)

end ClassAtlas
