/-
**The loop of an evaluator.**

A pass has the type of its states to thank for much: a slot is one of the circuit's, a waiting element
is an element and has the sources that it reads, and without a value some element waits. An evaluator
as it runs knows nothing of the kind. Its marks are an array, its stack is a list of elements with the
slots and sources that were looked up for them, and where an index is out of range or nothing waits,
it crashes. From the states of a pass it goes on exactly as the pass does, so it never crashes there,
and every call comes to an end.

* `Evaluator.meet`, `Evaluator.settle`, `Evaluator.turn`: what an evaluator does in a turn;
* `Pass.meet_eq`, `Pass.turned`: an evaluator does what the pass does;
* `Pass.exists_turns`, `Pass.exists_turns_meet`: after finitely many turns it answers as the pass
  does.
-/

import Mathlib.Logic.Function.Iterate
import Switching.Circuit.Pass

namespace Switching

/-! ### Evaluators -/

/-- An element that waits for the values of its sources, with what was looked up for it. -/
structure Waiting where
  handle : Handle
  slot : Nat
  element : Element
  sources : Array Handle
  /-- The values of the first sources. -/
  inputs : Array Bool

/-- A waiting element takes the value that it waits for, if one was found. -/
def Waiting.receive (frame : Waiting) : Option Bool → Waiting
  | none => frame
  | some value => { frame with inputs := frame.inputs.push value }

/-- What an evaluator is doing. -/
inductive Activity where
  /-- It has answered the last call, if there was one, and waits for the next. -/
  | idle (answer : Option Bool)
  /-- It is about to take a turn, with these elements waiting, the latest first, and with the value
  that was found in the last turn, if one was. -/
  | looping (stack : List Waiting) (ready : Option Bool)
  | failed (e : Error)
  /-- It has come to a place that should not be reached, or used an index that is out of range. -/
  | crashed

/-- An evaluator of a circuit. -/
structure Evaluator where
  /-- The marks of all elements, by slot. -/
  marks : Array Mark
  /-- The values that were computed, the latest first. -/
  log : List (Handle × Bool)
  activity : Activity

namespace Evaluator

/-- An evaluator that has not been called. -/
def initial (c : Circuit) : Evaluator :=
  ⟨.replicate c.slots.size .unvisited, [], .idle none⟩

/-- Meets an element, with these elements waiting. -/
def meet (c : Circuit) (evaluator : Evaluator) (stack : List Waiting) (handle : Handle) :
    Evaluator :=
  match c.slot? handle with
  | none => { evaluator with activity := .failed (.unknownElement handle) }
  | some slot =>
    match evaluator.marks[slot.1]? with
    | none => { evaluator with activity := .crashed }
    | some (.done value) => { evaluator with activity := .looping stack (some value) }
    | some .inProgress => { evaluator with activity := .failed (.cycle handle) }
    | some .unvisited =>
      let marks := evaluator.marks.setIfInBounds slot.1 .inProgress
      match c.get? handle with
      | none => ⟨marks, evaluator.log, .failed (.unknownElement handle)⟩
      | some element =>
        let sources := (element.reads (c.fanIn handle)).toArray
        ⟨marks, evaluator.log, .looping (⟨handle, slot.1, element, sources, #[]⟩ :: stack) none⟩

/-- Takes the latest of the waiting elements off the stack and computes its value. -/
def settle (evaluator : Evaluator) : List Waiting → Evaluator
  | [] => { evaluator with activity := .crashed }
  | frame :: stack =>
    let value := frame.element.value frame.inputs.toList
    if frame.slot < evaluator.marks.size then
      ⟨evaluator.marks.setIfInBounds frame.slot (.done value),
        (frame.handle, value) :: evaluator.log, .looping stack (some value)⟩
    else { evaluator with activity := .crashed }

/-- One turn of the loop. -/
def turn (c : Circuit) (evaluator : Evaluator) : Evaluator :=
  match evaluator.activity with
  | .looping [] (some value) => { evaluator with activity := .idle (some value) }
  | .looping [] none => { evaluator with activity := .crashed }
  | .looping (frame :: waiting) ready =>
    let frame := frame.receive ready
    match frame.sources[frame.inputs.size]? with
    | some source => meet c evaluator (frame :: waiting) source
    | none => settle evaluator (frame :: waiting)
  | _ => evaluator

/-- One move: a call of an evaluator that waits for one, or a turn of one that is in its loop. -/
inductive Move (c : Circuit) : Evaluator → Evaluator → Prop
  | call {evaluator : Evaluator} {answer : Option Bool} (idle : evaluator.activity = .idle answer)
      (root : Handle) : Move c evaluator (meet c evaluator [] root)
  | turn {evaluator : Evaluator} {stack : List Waiting} {ready : Option Bool}
      (looping : evaluator.activity = .looping stack ready) : Move c evaluator (turn c evaluator)

end Evaluator

/-! ### The evaluator of a pass -/

/-- A waiting element of a pass, without what is known of it. -/
def Frame.waiting {c : Circuit} (frame : Frame c) : Waiting :=
  ⟨frame.handle, frame.slot.1, frame.element, frame.sources, frame.inputs⟩

/-- An evaluator in the state of a pass, where these values were computed. -/
def PassState.evaluator {c : Circuit} (state : PassState c) (log : List (Handle × Bool)) :
    Evaluator :=
  ⟨state.marks.toArray, log, .looping (state.stack.map Frame.waiting) state.ready⟩

theorem Marks.getElem?_toArray {c : Circuit} (marks : Marks c) (slot : Fin c.slots.size) :
    marks.toArray[slot.1]? = some (marks.inSlot slot) := by
  rw [Vector.getElem?_toArray]
  exact Vector.getElem?_eq_getElem slot.2

theorem Marks.toArray_put {c : Circuit} (marks : Marks c) (slot : Fin c.slots.size) (mark : Mark) :
    (marks.put slot mark).toArray = marks.toArray.setIfInBounds slot.1 mark := by
  rw [Array.setIfInBounds, dif_pos (by simp)]
  rfl

namespace Pass

variable {c : Circuit}

/-- An evaluator that has met an element as a pass did, with these elements waiting. -/
def metEvaluator (marks : Marks c) (log : List (Handle × Bool)) (stack : List (Frame c)) :
    Except Error (Visit c) → Evaluator
  | .error e => ⟨marks.toArray, log, .failed e⟩
  | .ok (.known value) => ⟨marks.toArray, log, .looping (stack.map Frame.waiting) (some value)⟩
  | .ok (.entered later frame) =>
    ⟨later.toArray, log, .looping ((frame :: stack).map Frame.waiting) none⟩

/-- **An evaluator meets an element as the pass does.** -/
theorem meet_eq (marks : Marks c) (log : List (Handle × Bool)) (activity : Activity)
    (stack : List (Frame c)) (handle : Handle) :
    Evaluator.meet c ⟨marks.toArray, log, activity⟩ (stack.map Frame.waiting) handle =
      metEvaluator marks log stack (visit c marks handle) := by
  unfold visit
  split
  · rename_i gone
    rw [Evaluator.meet, gone]
    rfl
  · rename_i slot placed
    have mark := marks.getElem?_toArray slot
    split
    · rename_i marked
      rw [marked] at mark
      simp only [Evaluator.meet, placed, mark, metEvaluator]
    · rename_i marked
      rw [marked] at mark
      simp only [Evaluator.meet, placed, mark, metEvaluator]
    · rename_i marked
      rw [marked] at mark
      split
      · rename_i gone
        have some := c.isSome_get? handle
        rw [gone, placed] at some
        cases some
      · rename_i live
        simp only [Evaluator.meet, placed, mark, live, metEvaluator, Marks.toArray_put]
        rfl

theorem meet_root_eq (marks : Marks c) (log : List (Handle × Bool)) (activity : Activity)
    (root : Handle) :
    Evaluator.meet c ⟨marks.toArray, log, activity⟩ [] root =
      metEvaluator marks log [] (visit c marks root) :=
  meet_eq marks log activity [] root

/-- What a turn does that does not end the pass, and the values that it computes. -/
inductive Goes : PassState c → PassState c → List (Handle × Bool) → Prop
  /-- The next source has a value. -/
  | known {marks : Marks c} {frame received : Frame c} {waiting : List (Frame c)}
      {ready : Option Bool} {source : Handle} {value : Bool} {busy busy'}
      (same : frame.receive ready = received)
      (next : received.sources[received.inputs.size]? = some source)
      (marked : marks.of? source = some (.done value)) :
      Goes ⟨marks, frame :: waiting, ready, busy⟩ ⟨marks, received :: waiting, some value, busy'⟩ []
  /-- The next source waits as well. -/
  | entered {marks : Marks c} {frame received inner : Frame c} {waiting : List (Frame c)}
      {ready : Option Bool} {busy busy'} (same : frame.receive ready = received)
      (next : received.sources[received.inputs.size]? = some inner.handle)
      (fresh : inner.inputs = #[]) (marked : marks.inSlot inner.slot = .unvisited) :
      Goes ⟨marks, frame :: waiting, ready, busy⟩
        ⟨marks.put inner.slot .inProgress, inner :: received :: waiting, none, busy'⟩ []
  /-- All sources have been read. -/
  | settled {marks : Marks c} {frame received : Frame c} {waiting : List (Frame c)}
      {ready : Option Bool} {value : Bool} {busy busy'} (same : frame.receive ready = received)
      (nothing : received.sources[received.inputs.size]? = none)
      (valued : received.element.value received.inputs.toList = value) :
      Goes ⟨marks, frame :: waiting, ready, busy⟩
        ⟨marks.put received.slot (.done value), waiting, some value, busy'⟩
        [(received.handle, value)]

/-- What a turn does, of a pass and of its evaluator. -/
inductive Turned (state : PassState c) (log : List (Handle × Bool)) :
    Outcome c → Evaluator → Prop
  | next {later : PassState c} {computed : List (Handle × Bool)}
      (goes : Goes state later computed) :
      Turned state log (.next later) (later.evaluator (computed ++ log))
  | finished {value : Bool} (last : state.stack = []) (ready : state.ready = some value) :
      Turned state log (.finished value state.marks)
        ⟨state.marks.toArray, log, .idle (some value)⟩
  | failed (e : Error) : Turned state log (.failed e) ⟨state.marks.toArray, log, .failed e⟩

/-- The latest of the waiting elements looks for its next source, or has read them all. -/
theorem turn_evaluator (marks : Marks c) (frame : Frame c) (waiting : List (Frame c))
    (ready : Option Bool) {busy} (log : List (Handle × Bool)) :
    Evaluator.turn c (PassState.evaluator ⟨marks, frame :: waiting, ready, busy⟩ log) =
      let evaluator : Evaluator :=
        ⟨marks.toArray, log, .looping ((frame :: waiting).map Frame.waiting) ready⟩
      let stack := (frame.receive ready :: waiting).map Frame.waiting
      match (frame.receive ready).sources[(frame.receive ready).inputs.size]? with
      | some source => evaluator.meet c stack source
      | none => evaluator.settle stack := by
  cases ready <;> rfl

theorem settle_evaluator (marks : Marks c) (frame : Frame c) (waiting : List (Frame c))
    (log : List (Handle × Bool)) (activity : Activity) :
    Evaluator.settle ⟨marks.toArray, log, activity⟩ ((frame :: waiting).map Frame.waiting) =
      let value := frame.element.value frame.inputs.toList
      PassState.evaluator ⟨marks.put frame.slot (.done value), waiting, some value, nofun⟩
        ((frame.handle, value) :: log) := by
  have inside : frame.slot.1 < marks.toArray.size := by simp
  simp only [PassState.evaluator, Marks.toArray_put]
  exact if_pos inside

/-- **An evaluator takes the turns of the pass.** -/
theorem turned (state : PassState c) (log : List (Handle × Bool)) :
    Turned state log (step state) (Evaluator.turn c (state.evaluator log)) := by
  obtain ⟨marks, stack, ready, busy⟩ := state
  cases stack with
  | nil =>
    cases ready with
    | none => exact absurd rfl (busy rfl)
    | some value => exact .finished rfl rfl
  | cons frame waiting =>
    rw [turn_evaluator]
    show Turned _ log (advance marks (frame.receive ready) waiting) _
    generalize same : frame.receive ready = received
    unfold advance
    cases next : received.sources[received.inputs.size]? with
    | none =>
      simp only [settle_evaluator]
      exact .next (.settled same next rfl)
    | some source =>
      have met := met_visit marks source
      simp only [meet_eq]
      generalize visit c marks source = visited at met ⊢
      cases met with
      | unknown gone => exact .failed _
      | cyclic marked => exact .failed _
      | known marked => exact .next (.known same next marked)
      | entered here fresh marked =>
        subst here
        exact .next (.entered same next fresh marked)

/-! ### Calls -/

/-- The evaluator has given this answer, with what is known after it. -/
def Gives (evaluator : Evaluator) : Except Error (Bool × Marks c) → Prop
  | .ok (value, marks) =>
    evaluator.marks = marks.toArray ∧ evaluator.activity = .idle (some value)
  | .error e => evaluator.activity = .failed e

/-- **After finitely many turns an evaluator answers as the pass does.** -/
theorem exists_turns (state : PassState c) (log : List (Handle × Bool)) :
    ∃ turns, Gives ((Evaluator.turn c)^[turns] (state.evaluator log)) (proceed state) := by
  fun_induction proceed state generalizing log with
  | case1 state later taken ih =>
    have turned := turned state log
    rw [taken] at turned
    generalize here : Evaluator.turn c (state.evaluator log) = evaluator at turned
    cases turned with
    | next goes =>
      obtain ⟨turns, gives⟩ := ih _
      refine ⟨turns + 1, ?_⟩
      rw [Function.iterate_succ_apply, here]
      exact gives
  | case2 state value marks taken =>
    have turned := turned state log
    rw [taken] at turned
    refine ⟨1, ?_⟩
    rw [Function.iterate_one]
    generalize Evaluator.turn c (state.evaluator log) = evaluator at turned ⊢
    cases turned with
    | finished last ready => exact ⟨rfl, rfl⟩
  | case3 state e taken =>
    have turned := turned state log
    rw [taken] at turned
    refine ⟨1, ?_⟩
    rw [Function.iterate_one]
    generalize Evaluator.turn c (state.evaluator log) = evaluator at turned ⊢
    cases turned with
    | failed e => rfl

/-- **Every call comes to an end**, with the answer of the pass. -/
theorem exists_turns_meet (marks : Marks c) (log : List (Handle × Bool)) (activity : Activity)
    (root : Handle) :
    ∃ turns, Gives
      ((Evaluator.turn c)^[turns] (Evaluator.meet c ⟨marks.toArray, log, activity⟩ [] root))
      (run c marks root) := by
  rw [meet_root_eq]
  unfold run
  split
  · rename_i e failed
    rw [failed]
    exact ⟨0, rfl⟩
  · rename_i value known
    rw [known]
    exact exists_turns ⟨marks, [], some value, _⟩ log
  · rename_i later frame entered
    rw [entered]
    exact exists_turns ⟨later, [frame], none, _⟩ log

end Pass

end Switching
