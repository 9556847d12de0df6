/-
**The meaning of a circuit.**

Which elements an element reads, and the value that follows from theirs, said without an evaluator.

* `Element.value_eq_meaning`: an element's value is the one it is meant to have;
* `HasValue.of_dependsOn`: all that an element with a value depends on has one;
* `HasValue.unique`: an element has at most one value;
* `HasValue.live`: only the elements of the circuit have values;
* `OnCycle`: an element that reads itself, through any number of others.
-/

import Switching.Circuit.Basic

namespace Switching

/-- What an element is meant to show where the elements that it reads show these values. -/
def Element.meaning : Element → List Bool → Bool
  | input value, _ => value
  | gate .and, inputs => !inputs.isEmpty && inputs.all id
  | gate .or, inputs => inputs.any id
  | gate .not, inputs => (inputs.head?.map Bool.not).getD false
  | output, inputs => inputs.head?.getD false

/-- An element's value is the one it is meant to have. -/
theorem Element.value_eq_meaning (element : Element) (inputs : List Bool) :
    element.value inputs = element.meaning inputs := by
  cases element with
  | input value => rfl
  | gate kind =>
    cases kind with
    | and =>
      refine Bool.eq_iff_iff.mpr (BasicGate.value_and.trans ?_)
      simp [meaning]
    | or =>
      refine Bool.eq_iff_iff.mpr (BasicGate.value_or.trans ?_)
      simp [meaning]
    | not => cases inputs <;> rfl
  | output => cases inputs <;> rfl

namespace Circuit

/-- The sources that the element of a handle reads, in the order in which it reads them. -/
def reads (c : Circuit) (handle : Handle) : List Handle :=
  match c.get? handle with
  | some element => element.reads (c.fanIn handle)
  | none => []

/-- The element of the first handle reads that of the second. -/
def ReadsFrom (c : Circuit) (reader source : Handle) : Prop := source ∈ c.reads reader

/-- The element of the first handle depends on the second: they are the same, or it reads one that
depends on the second. -/
inductive DependsOn (c : Circuit) : Handle → Handle → Prop
  | refl (handle : Handle) : DependsOn c handle handle
  | step {reader source target : Handle} (read : c.ReadsFrom reader source)
      (others : DependsOn c source target) : DependsOn c reader target

/-- The element reads one that depends on it. -/
def OnCycle (c : Circuit) (handle : Handle) : Prop :=
  ∃ source, c.ReadsFrom handle source ∧ c.DependsOn source handle

/-- The element of a handle has a value: that which follows from the values of those it reads. -/
inductive HasValue (c : Circuit) : Handle → Bool → Prop
  | intro {handle : Handle} {element : Element} (live : c.get? handle = some element)
      (valuation : Handle → Bool)
      (read : ∀ source ∈ c.reads handle, HasValue c source (valuation source)) :
      HasValue c handle (element.meaning ((c.reads handle).map valuation))

theorem reads_of_get? {c : Circuit} {handle : Handle} {element : Element}
    (live : c.get? handle = some element) : c.reads handle = element.reads (c.fanIn handle) := by
  rw [reads, live]

namespace DependsOn

theorem trans {c : Circuit} {first second third : Handle} (left : c.DependsOn first second)
    (right : c.DependsOn second third) : c.DependsOn first third := by
  induction left with
  | refl _ => exact right
  | step read _ ih => exact .step read (ih right)

end DependsOn

namespace HasValue

theorem live {c : Circuit} {handle : Handle} {value : Bool} (valued : c.HasValue handle value) :
    (c.get? handle).isSome = true := by
  cases valued with
  | intro live _ _ => rw [live]; rfl

/-- An element has at most one value. -/
theorem unique {c : Circuit} {handle : Handle} {first second : Bool}
    (one : c.HasValue handle first) (other : c.HasValue handle second) : first = second := by
  induction one generalizing second with
  | intro live valuation _ ih =>
    cases other with
    | intro live' valuation' read' =>
      rw [live, Option.some.injEq] at live'
      subst live'
      congr 1
      exact List.map_congr_left fun source member => ih source member (read' source member)

/-- All that an element with a value depends on has one. -/
theorem of_dependsOn {c : Circuit} {handle target : Handle} {value : Bool}
    (valued : c.HasValue handle value) (depends : c.DependsOn handle target) :
    ∃ other, c.HasValue target other := by
  induction depends generalizing value with
  | refl handle => exact ⟨value, valued⟩
  | step read _ ih =>
    cases valued with
    | intro live valuation values => exact ih (values _ read)

/-- An element on a cycle has no value. -/
theorem not_onCycle {c : Circuit} {handle : Handle} {value : Bool}
    (valued : c.HasValue handle value) : ¬ c.OnCycle handle := by
  suffices apart : ∀ target, c.DependsOn handle target → ¬ c.OnCycle target from
    apart handle (.refl handle)
  induction valued with
  | @intro handle element live valuation read ih =>
    intro target depends cycle
    cases depends with
    | refl _ =>
      obtain ⟨source, reads, back⟩ := cycle
      exact ih source reads handle back ⟨source, reads, back⟩
    | step reads others => exact ih _ reads target others cycle

end HasValue

end Circuit

end Switching
