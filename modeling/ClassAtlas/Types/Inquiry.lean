import ClassAtlas.Types.Assignability

/-!
# Inquiries

Conversion rules decide by asking assignability questions one after the other,
where the next question may depend on the answers so far. An inquiry is such a
procedure as a value. A hierarchy can be asked for its result and for the class
names that were consulted on the way.
-/

namespace ClassAtlas

/-- A procedure that asks assignability questions. -/
inductive Inquiry (α : Type) where
  /-- The result is known. -/
  | done (result : α)
  /-- Asks whether `source` can be assigned to `target` and goes on with the answer. -/
  | ask (source target : String) (next : Bool → Inquiry α)

namespace Inquiry

variable {α γ : Type}

/-- One procedure after the other. -/
def andThen : Inquiry α → (α → Inquiry γ) → Inquiry γ
  | done result, next => next result
  | ask source target continued, next => ask source target fun answer =>
    (continued answer).andThen next

instance : Monad Inquiry where
  pure := done
  bind := andThen

/-- The answer to a single question. -/
def assignable (source target : String) : Inquiry Bool :=
  ask source target done

/-- The result in a hierarchy. -/
def result (hierarchy : Hierarchy) : Inquiry α → α
  | done result => result
  | ask source target next => (next (hierarchy.isAssignable source target)).result hierarchy

/-- The class names consulted in a hierarchy, in order. -/
def consulted (hierarchy : Hierarchy) : Inquiry α → List String
  | done _ => []
  | ask source target next =>
    hierarchy.consulted source target
      ++ (next (hierarchy.isAssignable source target)).consulted hierarchy

@[simp] theorem result_pure (hierarchy : Hierarchy) (a : α) :
    (pure a : Inquiry α).result hierarchy = a := rfl

@[simp] theorem result_assignable (hierarchy : Hierarchy) (source target : String) :
    (assignable source target).result hierarchy = hierarchy.isAssignable source target := rfl

@[simp] theorem result_bind (hierarchy : Hierarchy) (first : Inquiry α) (next : α → Inquiry γ) :
    (first >>= next).result hierarchy = (next (first.result hierarchy)).result hierarchy := by
  change (first.andThen next).result hierarchy = _
  induction first with
  | done a => rfl
  | ask source target continued ih => exact ih (hierarchy.isAssignable source target)

end Inquiry

end ClassAtlas
