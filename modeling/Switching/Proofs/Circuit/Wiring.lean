/-
**Wires do not dangle.**

Every wire of a circuit that edits can build leads from an element that is no output to one that is
no input. Removing an element takes its wires along, and no other edit takes an element away or
turns it into one of another kind.

* `Wired`: both ends of every wire fit;
* `Wired.edit`: an edit keeps this;
* `Reachable.wired`: so every circuit that edits can build has it;
* `Wired.live_of_reads`: an element reads elements only.
-/

import Switching.Circuit.Meaning
import Switching.Circuit.Run

namespace Switching.Circuit

/-- The ends of a wire are elements, the first no output and the second no input. -/
structure Fits (c : Circuit) (wire : Wire) : Prop where
  source : ∃ driver, c.get? wire.source = some driver ∧ driver.isOutput = false
  target : ∃ driven, c.get? wire.target = some driven ∧ driven.isInput = false

/-- Every wire fits. -/
def Wired (c : Circuit) : Prop := ∀ wire ∈ c.wires, c.Fits wire

namespace Wired

variable {c changed : Circuit} {handle : Handle}

theorem empty : Wired Circuit.empty := by
  intro wire member
  cases Array.not_mem_empty _ member

theorem add (wired : c.Wired) (element : Element) : (c.add element).2.Wired := by
  intro wire member
  obtain ⟨⟨driver, live, sends⟩, ⟨driven, lives, takes⟩⟩ := wired wire member
  exact ⟨⟨driver, get?_add_of_get? live element, sends⟩,
    ⟨driven, get?_add_of_get? lives element, takes⟩⟩

theorem connect (wired : c.Wired) {source target : Handle}
    (done : c.connect source target = .ok changed) : changed.Wired := by
  obtain ⟨driver, driven, live, sends, lives, takes, rfl⟩ := connect_eq_ok_iff.mp done
  intro wire member
  rcases Array.mem_push.mp member with before | rfl
  · obtain ⟨first, second⟩ := wired wire before
    exact ⟨first, second⟩
  · exact ⟨⟨driver, live, sends⟩, ⟨driven, lives, takes⟩⟩

/-- What is set was an input and is one: no wire ends there, and any may start there. -/
theorem setInput (wired : c.Wired) {value : Bool}
    (done : c.setInput handle value = .ok changed) : changed.Wired := by
  intro wire member
  rw [wires_setInput done] at member
  obtain ⟨⟨driver, live, sends⟩, ⟨driven, lives, takes⟩⟩ := wired wire member
  constructor
  · rw [get?_setInput done]
    split
    · exact ⟨_, rfl, rfl⟩
    · exact ⟨driver, live, sends⟩
  · have other : wire.target ≠ handle := by
      rintro rfl
      obtain ⟨old, input⟩ := isInput_of_setInput done
      rw [input] at lives
      cases lives
      cases takes
    rw [get?_setInput done, if_neg other]
    exact ⟨driven, lives, takes⟩

theorem remove (wired : c.Wired) {element : Element}
    (done : c.remove handle = .ok (element, changed)) : changed.Wired := by
  intro wire member
  obtain ⟨before, source, target⟩ := (mem_wires_remove done).mp member
  obtain ⟨first, second⟩ := wired wire before
  constructor
  · rw [get?_remove done, if_neg source]
    exact first
  · rw [get?_remove done, if_neg target]
    exact second

theorem clear (c : Circuit) : c.clear.Wired := by
  intro wire member
  cases Array.not_mem_empty _ member

/-- **An edit keeps the wires fitting.** -/
theorem edit (wired : c.Wired) (change : Edit) : (c.edit change).Wired := by
  rcases c.edited_or_eq change with edited | same
  · cases edited with
    | add element => exact wired.add element
    | connect done => exact wired.connect done
    | setInput done => exact wired.setInput done
    | toggleInput done => exact wired.setInput done
    | remove done => exact wired.remove done
    | clear => exact clear c
  · rw [same]
    exact wired

theorem live_of_reads (wired : c.Wired) {source : Handle} (read : c.ReadsFrom handle source) :
    ∃ element, c.get? source = some element := by
  have listed : source ∈ c.fanIn handle := by
    unfold ReadsFrom reads at read
    split at read
    · rename_i element _
      exact (element.reads_sublist _).subset read
    · cases read
  obtain ⟨wire, member, found⟩ := Array.mem_filterMap.mp (Array.mem_toList_iff.mp listed)
  split at found
  · cases found
    obtain ⟨driver, live, _⟩ := (wired wire member).source
    exact ⟨driver, live⟩
  · cases found

end Wired

/-- **In every circuit that edits can build the wires fit.** -/
theorem Reachable.wired {c : Circuit} (reachable : c.Reachable) : c.Wired :=
  reachable.induction Wired.empty fun _ change wired => wired.edit change

end Switching.Circuit
