/-
**Handles.**

Elements of a circuit are referred to by handles, numbered from zero in the order in which the
elements were added.
-/

namespace Switching

/-- A reference to an element of a circuit. -/
structure Handle where
  /-- The number of elements added before. -/
  id : Nat
deriving DecidableEq

/-- The handle as text, such as `#3`. -/
def Handle.text (handle : Handle) : String := "#" ++ toString handle.id

end Switching
