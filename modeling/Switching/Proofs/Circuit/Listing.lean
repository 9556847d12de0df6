/-
**What a circuit lists.**

The listings of a circuit name each of its elements once, in the order of the handles, and no
others.

* `Ascending.eq_of_mem_iff`: a listing in order is determined by what it lists;
* `mem_elements_iff`: what is listed is there;
* `pairwise_elements`: handles are listed in strictly increasing order;
* `mem_handles_iff`, `mem_inputs_iff`, `mem_outputs_iff`, and that these are in order, too.
-/

import Mathlib.Data.List.Sort
import Switching.Circuit.Basic

namespace Switching

/-- In the order of the handles, each once. -/
def Ascending (handles : List Handle) : Prop :=
  handles.Pairwise fun first second => first.id < second.id

/-- **A listing in order is determined by what it lists.** -/
theorem Ascending.eq_of_mem_iff {one other : List Handle} (ascending : Ascending one)
    (ascending' : Ascending other) (same : ∀ handle, handle ∈ one ↔ handle ∈ other) :
    one = other := by
  have asymm : Std.Antisymm fun first second : Handle => first.id < second.id :=
    ⟨fun _ _ less more => absurd less (Nat.lt_asymm more)⟩
  have irrefl : Std.Irrefl fun first second : Handle => first.id < second.id :=
    ⟨fun _ => Nat.lt_irrefl _⟩
  exact List.Pairwise.eq_of_mem_iff ascending ascending' same

namespace Circuit

variable {c : Circuit} {handle : Handle} {element : Element}

/-- **What is listed is there.** -/
theorem mem_elements_iff : (handle, element) ∈ c.elements ↔ c.get? handle = some element := by
  unfold elements
  rw [List.mem_filterMap, get?_eq_some_iff]
  constructor
  · rintro ⟨⟨content, id⟩, placed, shown⟩
    obtain ⟨behind, held⟩ := List.mk_mem_zipIdx_iff_le_and_getElem?_sub.mp placed
    obtain ⟨_, rfl, same⟩ := Option.map_eq_some_iff.mp shown
    cases same
    refine ⟨id - c.base, by simp only; omega, ?_⟩
    rw [← Array.getElem?_toList]
    exact held
  · rintro ⟨place, same, held⟩
    refine ⟨(some element, handle.id), ?_, rfl⟩
    rw [List.mk_mem_zipIdx_iff_le_and_getElem?_sub, same, Nat.add_sub_cancel_left,
      Array.getElem?_toList]
    exact ⟨Nat.le_add_right _ _, held⟩

/-- **Handles are listed in strictly increasing order.** -/
theorem pairwise_elements (c : Circuit) :
    c.elements.Pairwise fun first second => first.1.id < second.1.id := by
  have ordered :
      (c.slots.toList.zipIdx c.base).Pairwise fun first second => first.2 < second.2 := by
    refine List.pairwise_map.mp ?_
    rw [List.zipIdx_map_snd]
    exact List.pairwise_lt_range'
  refine List.Pairwise.filterMap _ ?_ ordered
  rintro ⟨content, id⟩ ⟨other, next⟩ less shown listed shown' listed'
  obtain ⟨_, _, rfl⟩ := Option.map_eq_some_iff.mp listed
  obtain ⟨_, _, rfl⟩ := Option.map_eq_some_iff.mp listed'
  exact less

theorem mem_handlesWhere_iff {kind : Element → Bool} :
    handle ∈ c.handlesWhere kind ↔
      ∃ element, c.get? handle = some element ∧ kind element = true := by
  unfold handlesWhere
  constructor
  · intro member
    obtain ⟨⟨_, element⟩, listed, rfl⟩ := List.mem_map.mp member
    obtain ⟨listed, fits⟩ := List.mem_filter.mp listed
    exact ⟨element, mem_elements_iff.mp listed, fits⟩
  · rintro ⟨element, live, fits⟩
    exact List.mem_map.mpr
      ⟨(handle, element), List.mem_filter.mpr ⟨mem_elements_iff.mpr live, fits⟩, rfl⟩

theorem ascending_handlesWhere (c : Circuit) (kind : Element → Bool) :
    Ascending (c.handlesWhere kind) :=
  List.pairwise_map.mpr (c.pairwise_elements.filter _)

theorem handlesWhere_true (c : Circuit) : c.handlesWhere (fun _ => true) = c.handles := by
  unfold handlesWhere handles
  rw [List.filter_eq_self.mpr fun _ _ => rfl]

theorem mem_handles_iff : handle ∈ c.handles ↔ ∃ element, c.get? handle = some element := by
  rw [← handlesWhere_true, mem_handlesWhere_iff]
  simp

theorem ascending_handles (c : Circuit) : Ascending c.handles := by
  rw [← handlesWhere_true]
  exact c.ascending_handlesWhere _

theorem mem_inputs_iff : handle ∈ c.inputs ↔ ∃ value, c.get? handle = some (.input value) := by
  unfold inputs
  rw [mem_handlesWhere_iff]
  constructor
  · rintro ⟨element, live, fits⟩
    cases element with
    | input value => exact ⟨value, live⟩
    | gate kind => cases fits
    | output => cases fits
  · rintro ⟨value, live⟩
    exact ⟨_, live, rfl⟩

theorem mem_outputs_iff : handle ∈ c.outputs ↔ c.get? handle = some .output := by
  unfold outputs
  rw [mem_handlesWhere_iff]
  constructor
  · rintro ⟨element, live, fits⟩
    cases element with
    | input value => cases fits
    | gate kind => cases fits
    | output => exact live
  · intro live
    exact ⟨_, live, rfl⟩

end Circuit

end Switching
