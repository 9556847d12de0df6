/-
**The stack of a pass.**

A pass that is to find the value of `root` keeps the elements on its way there. The stack is a way
of reading from `root` to the element whose value is awaited, each waiting element has read the
values of the first of its sources, exactly the waiting elements are marked as in progress, and a
value that is marked as done is the element's value.

* `HasValue.of_inputs`: an element has the value that follows from those of its sources;
* `Frame.FilledBy`, `Frame.Filled`: a frame has read the values of the first of its sources;
* `Waits`: the stack leads from the root to the awaited element;
* `Waits.returnsTo`: what is read from the awaited element is read from the root;
* `Marks.Sound`: what is marked is so.
-/

import Mathlib.Data.List.Forall2
import Switching.Circuit.Pass
import Switching.Proofs.Circuit.Cycle
import Switching.Proofs.Circuit.Wiring

namespace Switching

/-! ### Values from values -/

namespace Circuit.HasValue

variable {c : Circuit}

theorem eq_decide [DecidablePred fun handle => c.HasValue handle true] {handle : Handle}
    {value : Bool} (valued : c.HasValue handle value) : decide (c.HasValue handle true) = value := by
  cases value with
  | true => exact decide_eq_true valued
  | false => exact decide_eq_false fun other => Bool.noConfusion (valued.unique other)

/-- **An element has the value that follows from those of its sources.** -/
theorem of_inputs {handle : Handle} {element : Element} {inputs : List Bool}
    (live : c.get? handle = some element)
    (read : List.Forall₂ c.HasValue (c.reads handle) inputs) :
    c.HasValue handle (element.value inputs) := by
  classical
  let valuation : Handle → Bool := fun source => decide (c.HasValue source true)
  have agree : ∀ {sources : List Handle} {inputs : List Bool},
      List.Forall₂ c.HasValue sources inputs →
        sources.map valuation = inputs ∧
          ∀ source ∈ sources, c.HasValue source (valuation source) := by
    intro sources inputs read
    induction read with
    | nil => exact ⟨rfl, fun source member => by cases member⟩
    | @cons source input others inputs valued _ ih =>
      have same : valuation source = input := valued.eq_decide
      refine ⟨by rw [List.map_cons, same, ih.1], ?_⟩
      intro other member
      rcases List.mem_cons.mp member with rfl | further
      · exact same.symm ▸ valued
      · exact ih.2 other further
  obtain ⟨same, valued⟩ := agree read
  rw [element.value_eq_meaning, ← same]
  exact .intro live valuation valued

end Circuit.HasValue

/-! ### Waiting elements -/

namespace Frame

variable {c : Circuit} {source : Handle}

theorem sources_eq (frame : Frame c) : frame.sources.toList = c.reads frame.handle := by
  rw [frame.reads, Circuit.reads, frame.live]

/-- The frame has read, for the first of its sources, what this says of them. -/
def FilledBy (valued : Handle → Bool → Prop) (frame : Frame c) : Prop :=
  List.Forall₂ valued (frame.sources.toList.take frame.inputs.size) frame.inputs.toList

/-- The frame has read the values of the first of its sources. -/
def Filled (frame : Frame c) : Prop :=
  List.Forall₂ c.HasValue (frame.sources.toList.take frame.inputs.size) frame.inputs.toList

/-- The frame waits for the value of the source. -/
def Next (frame : Frame c) (source : Handle) : Prop :=
  frame.sources[frame.inputs.size]? = some source

theorem Next.reads {frame : Frame c} (next : frame.Next source) :
    c.ReadsFrom frame.handle source := by
  show source ∈ c.reads frame.handle
  rw [← frame.sources_eq]
  exact Array.mem_toList_iff.mpr (Array.mem_of_getElem? next)

theorem FilledBy.of_fresh {valued : Handle → Bool → Prop} {frame : Frame c}
    (fresh : frame.inputs = #[]) : frame.FilledBy valued := by
  rw [FilledBy, fresh]
  exact .nil

/-- The value that was waited for comes behind the others. -/
theorem FilledBy.receive {valued : Handle → Bool → Prop} {frame : Frame c}
    (filled : frame.FilledBy valued) (next : frame.Next source) {value : Bool}
    (found : valued source value) : (frame.receive (some value)).FilledBy valued := by
  have more : frame.sources.toList.take (frame.inputs.size + 1) =
      frame.sources.toList.take frame.inputs.size ++ [source] := by
    rw [List.take_add_one, Array.getElem?_toList, next]
    rfl
  show List.Forall₂ valued (frame.sources.toList.take (frame.inputs.push value).size)
    (frame.inputs.push value).toList
  rw [Array.size_push, Array.toList_push, more]
  exact List.rel_append filled (.cons found .nil)

theorem FilledBy.of_receive {valued : Handle → Bool → Prop} {frame : Frame c}
    {ready : Option Bool} (filled : (frame.receive ready).FilledBy valued) :
    frame.FilledBy valued := by
  cases ready with
  | none => exact filled
  | some value =>
    have fewer : List.Forall₂ valued
        ((frame.sources.toList.take (frame.inputs.push value).size).take frame.inputs.size)
        ((frame.inputs.push value).toList.take frame.inputs.size) :=
      List.forall₂_take frame.inputs.size filled
    rw [List.take_take, Array.size_push, Nat.min_eq_left (Nat.le_succ _), Array.toList_push,
      List.take_left' Array.length_toList] at fewer
    exact fewer

theorem Filled.receive {frame : Frame c} (filled : frame.Filled) (next : frame.Next source)
    {value : Bool} (valued : c.HasValue source value) : (frame.receive (some value)).Filled :=
  FilledBy.receive filled next valued

/-- The sources of a frame: those read, which have values, the one it waits for and the others. -/
theorem Filled.split {frame : Frame c} (filled : frame.Filled) (next : frame.Next source) :
    ∃ before after, c.reads frame.handle = before ++ source :: after ∧
      ∀ other ∈ before, ∃ value, c.HasValue other value := by
  refine ⟨frame.sources.toList.take frame.inputs.size,
    frame.sources.toList.drop (frame.inputs.size + 1), ?_, ?_⟩
  · obtain ⟨inside, here⟩ := Array.getElem?_eq_some_iff.mp next
    rw [← frame.sources_eq, ← here, ← Array.getElem_toList, ← List.drop_eq_getElem_cons,
      List.take_append_drop]
  · have each : List.Forall₂ (fun other value => (∃ value, c.HasValue other value) ∧
        c.HasValue other value) (frame.sources.toList.take frame.inputs.size)
        frame.inputs.toList := filled.imp fun _ value valued => ⟨⟨value, valued⟩, valued⟩
    exact ((List.forall₂_and_left _ _).mp each).1

theorem Filled.hasValue {frame : Frame c} (filled : frame.Filled)
    (nothing : frame.sources[frame.inputs.size]? = none) :
    c.HasValue frame.handle (frame.element.value frame.inputs.toList) := by
  refine .of_inputs frame.live ?_
  have all : frame.sources.toList.length ≤ frame.inputs.size := by
    simpa using Array.getElem?_eq_none_iff.mp nothing
  have filled' := filled
  rw [Filled, List.take_of_length_le all, frame.sources_eq] at filled'
  exact filled'

end Frame

namespace Pass

variable {c : Circuit} {root source : Handle} {stack waiting : List (Frame c)} {frame : Frame c}

/-- **The stack leads from the root to an awaited element**: each frame waits for the element above
it, the uppermost for the awaited one. -/
inductive Waits (root : Handle) : Handle → List (Frame c) → Prop
  | root : Waits root root []
  | frame {frame : Frame c} {waiting : List (Frame c)} {source : Handle} (next : frame.Next source)
      (filled : frame.Filled) (below : Waits root frame.handle waiting) :
      Waits root source (frame :: waiting)

/-- **What is read from the awaited element is read from the root**: where reading on from it, with
the waiting elements on the way, comes back to a place, so does reading on from the root. -/
theorem Waits.returnsTo (waits : Waits root source stack) (once : (stack.map Frame.handle).Nodup)
    {place : Handle} (returns : c.ReturnsTo (stack.map Frame.handle) source place) :
    c.ReturnsTo [] root place := by
  induction waits with
  | root => exact returns
  | @frame frame waiting source next filled _ ih =>
    obtain ⟨fresh, others⟩ := List.nodup_cons.mp once
    obtain ⟨before, after, sources, valued⟩ := filled.split next
    exact ih others (.further fresh sources valued returns)

end Pass

/-! ### Marks -/

/-- What is marked is so, where these elements wait. -/
structure Marks.Sound {c : Circuit} (marks : Marks c) (stack : List (Frame c)) : Prop where
  done : ∀ handle value, marks.of? handle = some (.done value) → c.HasValue handle value
  waiting : ∀ handle, marks.of? handle = some .inProgress ↔ handle ∈ stack.map Frame.handle
  once : (stack.map Frame.handle).Nodup

namespace Marks.Sound

variable {c : Circuit} {marks : Marks c} {stack : List (Frame c)} {frame : Frame c}

theorem initial (c : Circuit) : (Marks.initial c).Sound [] where
  done handle value marked := by cases Marks.of?_initial marked
  waiting handle := by
    constructor
    · intro marked
      cases Marks.of?_initial marked
    · intro member
      cases member
  once := List.nodup_nil

/-- A waiting element is marked as in progress. -/
theorem enter (sound : marks.Sound stack) (fresh : marks.inSlot frame.slot = .unvisited) :
    (marks.put frame.slot .inProgress).Sound (frame :: stack) := by
  have mark := Marks.of?_of_slot? frame.placed marks
  rw [fresh] at mark
  constructor
  · intro handle value marked
    rw [Marks.of?_put frame.placed] at marked
    split at marked
    · cases marked
    · exact sound.done handle value marked
  · intro handle
    rw [Marks.of?_put frame.placed, List.map_cons, List.mem_cons]
    split
    · rename_i same
      exact iff_of_true rfl (.inl same)
    · rename_i other
      rw [sound.waiting handle, or_iff_right other]
  · rw [List.map_cons, List.nodup_cons]
    refine ⟨?_, sound.once⟩
    intro member
    rw [(sound.waiting frame.handle).mpr member] at mark
    cases mark

/-- An element that has its value waits no longer. -/
theorem leave (sound : marks.Sound (frame :: stack)) {value : Bool}
    (valued : c.HasValue frame.handle value) :
    (marks.put frame.slot (.done value)).Sound stack := by
  obtain ⟨notBelow, once⟩ := List.nodup_cons.mp sound.once
  constructor
  · intro handle found marked
    rw [Marks.of?_put frame.placed] at marked
    split at marked
    · rename_i same
      cases marked
      exact same.symm ▸ valued
    · exact sound.done handle found marked
  · intro handle
    rw [Marks.of?_put frame.placed]
    split
    · rename_i same
      refine iff_of_false (by simp) ?_
      rw [same]
      exact notBelow
    · rename_i other
      rw [sound.waiting handle, List.map_cons, List.mem_cons, or_iff_right other]
  · exact once

/-- Which values have been read does not matter to the marks. -/
theorem of_handles (sound : marks.Sound stack) {other : List (Frame c)}
    (same : other.map Frame.handle = stack.map Frame.handle) : marks.Sound other := by
  constructor
  · exact sound.done
  · rw [same]
    exact sound.waiting
  · rw [same]
    exact sound.once

end Marks.Sound

end Switching
