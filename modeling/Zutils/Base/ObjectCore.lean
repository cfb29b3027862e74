import Mathlib.Data.Nat.Notation
import Mathlib.Logic.Function.Basic
import Mathlib.Tactic.TypeStar

/-!
# Classes that are known at run time (`base2/object_core.cc`, `base2/object_core.h`)

A `Class` names its base and, in `base_next_`, the first of its additional bases. The additional bases are linked with
one another by their own `base_next_`, so that the construction of one class writes to others. `IsKindOf` goes along
the bases of a class and then on to what its `base_next_` names.

A `Class` is a static member of the class that it describes: before its constructor runs its memory is zero.
-/

namespace Zutils

/-- `struct Class`. -/
@[ext]
structure Class (α : Type*) where
  base : Option α
  baseNext : Option α
  deriving DecidableEq, Repr

namespace Class

variable {α : Type*}

/-- The classes in memory, by their addresses. -/
abbrev Memory (α : Type*) := α → Class α

/-- Memory in which no constructor has run. -/
def Memory.zero : Memory α := fun _ => ⟨none, none⟩

/-- A class that is constructed, with what is given to its constructor. -/
inductive Construction (α : Type*) where
  | object (this : α)
  | derived (this baseClass : α) (baseNextClasses : List α)

namespace Memory

section Constructors

variable [DecidableEq α] (m : Memory α)

/-- `c->base_next_ = next`. -/
def setBaseNext (c : α) (next : Option α) : Memory α := Function.update m c { m c with baseNext := next }

/-- `baseNextClass1->base_next_ = baseNextClass2` and so on, up to `base_next_ = NULL` of the last one. -/
def link (m : Memory α) : List α → Memory α
  | [] => m
  | [c] => m.setBaseNext c none
  | c :: d :: rest => link (m.setBaseNext c (some d)) (d :: rest)

/-- `Class()`. -/
def object (this : α) : Memory α := Function.update m this ⟨none, none⟩

/-- `Class(…, baseClass, …)` with up to eight additional bases. -/
def derived (this baseClass : α) (baseNextClasses : List α) : Memory α :=
  link (Function.update m this ⟨some baseClass, baseNextClasses.head?⟩) baseNextClasses

/-- `Class(…, baseClass, …)` with nine additional bases, which does not set `base_next_`. -/
def derived9 (this baseClass : α) (baseNextClasses : List α) : Memory α :=
  link (Function.update m this ⟨some baseClass, (m this).baseNext⟩) baseNextClasses

/-- The constructor is chosen by the number of arguments. -/
def construct : Construction α → Memory α
  | .object this => m.object this
  | .derived this baseClass baseNextClasses =>
    if baseNextClasses.length ≤ 8 then m.derived this baseClass baseNextClasses
    else m.derived9 this baseClass baseNextClasses

end Constructors

section Kinds

variable [DecidableEq α]

/-- `derivedFrom`, which is the loop of `IsKindOf`, with fuel. -/
def derivedFrom (m : Memory α) : ℕ → Option α → α → Option Bool
  | 0, _, _ => none
  | _ + 1, none, _ => some false
  | n + 1, some classThis, clazz =>
    if classThis = clazz then some true else m.derivedFrom n (m classThis).base clazz

/-- `IsKindOf`, with fuel. -/
def isKindOf (m : Memory α) : ℕ → α → α → Option Bool
  | 0, _, _ => none
  | n + 1, classThis, clazz => do
    if ← m.derivedFrom n (some classThis) clazz then return true
    else
      match (m classThis).baseNext with
      | none => return false
      | some baseNext => m.isKindOf n baseNext clazz

end Kinds

end Memory

end Class

end Zutils
