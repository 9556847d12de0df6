/-
**An evaluator at work.**

Whatever an evaluator is asked for, one element after another, and however far it has come: its stack
is a way of reading on from the element that it was asked for, exactly the elements on the stack are
marked as in progress, what they have read is what is marked as done, and a mark only ever goes from
unvisited to in progress and from there to done. So no value is computed twice, and none changes.

* `Marks.Moves`: what a turn does to the marks;
* `Goes.moves`, `Goes.filled`: what a turn of a pass does to its marks and to what has been read;
* `Reached.move`: where an evaluator may be, and where a move leads from there;
* `Reached.orderly`: what can be seen of an evaluator that has not failed;
* `Evaluator.moves_spec`: an evaluator of a circuit, between any two of its moves.
-/

import Mathlib.Data.List.Nodup
import Mathlib.Logic.Relation
import Switching.Proofs.Circuit.Evaluation
import Switching.Proofs.Circuit.Evaluator

namespace Switching

/-! ### Marks -/

/-- A mark stays, or goes from unvisited to in progress, or from there to done. -/
inductive Mark.Advances : Mark → Mark → Prop
  | stays (mark : Mark) : Advances mark mark
  | enters : Advances .unvisited .inProgress
  | settles (value : Bool) : Advances .inProgress (.done value)

theorem Mark.Advances.of_done {value : Bool} {later : Mark}
    (advances : Mark.Advances (.done value) later) : later = .done value := by
  cases advances
  rfl

namespace Marks

variable {c : Circuit} {marks later : Marks c} {log computed : List (Handle × Bool)}

theorem inSlot_put (marks : Marks c) (slot : Fin c.slots.size) (mark : Mark)
    (other : Fin c.slots.size) :
    (marks.put slot mark).inSlot other = if other = slot then mark else marks.inSlot other := by
  split
  · rename_i same
    rw [same]
    exact Vector.getElem_set_self slot.2
  · rename_i different
    exact Vector.getElem_set_ne slot.2 other.2 fun same => different (Fin.ext same.symm)

/-- The element is marked as done, with this value. -/
def Holds (marks : Marks c) (handle : Handle) (value : Bool) : Prop :=
  marks.of? handle = some (.done value)

/-- **What a turn does to the marks**, and the values that it computes. -/
inductive Moves (marks : Marks c) : Marks c → List (Handle × Bool) → Prop
  | stay : Moves marks marks []
  | enter {handle : Handle} {slot : Fin c.slots.size} (placed : c.slot? handle = some slot)
      (fresh : marks.inSlot slot = .unvisited) : Moves marks (marks.put slot .inProgress) []
  | settle {handle : Handle} {slot : Fin c.slots.size} (placed : c.slot? handle = some slot)
      (waiting : marks.inSlot slot = .inProgress) (value : Bool) :
      Moves marks (marks.put slot (.done value)) [(handle, value)]

theorem Moves.advances (moves : marks.Moves later computed) (slot : Fin c.slots.size) :
    (marks.inSlot slot).Advances (later.inSlot slot) := by
  cases moves with
  | stay => exact .stays _
  | enter placed fresh =>
    rw [inSlot_put]
    split
    · rename_i same
      rw [same, fresh]
      exact .enters
    · exact .stays _
  | settle placed waiting value =>
    rw [inSlot_put]
    split
    · rename_i same
      rw [same, waiting]
      exact .settles value
    · exact .stays _

/-- What is done stays done. -/
theorem Moves.holds (moves : marks.Moves later computed) {handle : Handle} {value : Bool}
    (holds : marks.Holds handle value) : later.Holds handle value := by
  obtain ⟨slot, placed, mark⟩ := Option.map_eq_some_iff.mp holds
  have advances := moves.advances slot
  rw [mark] at advances
  rw [Holds, of?_of_slot? placed, advances.of_done]

/-- The values that were computed are those that are marked as done. -/
structure Ledger (marks : Marks c) (log : List (Handle × Bool)) : Prop where
  /-- Only elements are marked. -/
  placed : ∀ slot, marks.inSlot slot ≠ .unvisited → c.slot? ⟨c.base + slot⟩ = some slot
  computed : ∀ handle value, (handle, value) ∈ log ↔ marks.Holds handle value
  once : (log.map Prod.fst).Nodup

theorem Ledger.initial (c : Circuit) : (Marks.initial c).Ledger [] where
  placed slot met := absurd (Vector.getElem_replicate slot.2) met
  computed handle value := by
    refine iff_of_false List.not_mem_nil fun holds => ?_
    cases of?_initial holds
  once := List.nodup_nil

/-- Marking an element as anything changes nothing about where elements are. -/
theorem Ledger.placed_put (ledger : marks.Ledger log) {handle : Handle} {slot : Fin c.slots.size}
    (placed : c.slot? handle = some slot) (mark : Mark) (other : Fin c.slots.size)
    (met : (marks.put slot mark).inSlot other ≠ .unvisited) :
    c.slot? ⟨c.base + other⟩ = some other := by
  rw [inSlot_put] at met
  split at met
  · rename_i same
    rw [same, ← (Circuit.slot?_eq_some_iff.mp placed).1]
    exact placed
  · exact ledger.placed other met

theorem Moves.ledger (moves : marks.Moves later computed) (ledger : marks.Ledger log) :
    later.Ledger (computed ++ log) := by
  cases moves with
  | stay => exact ledger
  | @enter handle slot placed fresh =>
    refine ⟨ledger.placed_put placed _, fun other value => ?_, ledger.once⟩
    rw [List.nil_append, ledger.computed, Holds, Holds, of?_put placed]
    split
    · rename_i same
      rw [same, of?_of_slot? placed, fresh]
      simp only [Option.some.injEq, reduceCtorEq]
    · rfl
  | @settle handle slot placed waiting value =>
    -- A value that was computed before would be marked as done.
    have notYet (found : Bool) : (handle, found) ∉ log := by
      rw [ledger.computed, Holds, of?_of_slot? placed, waiting]
      simp only [Option.some.injEq, reduceCtorEq, not_false_eq_true]
    refine ⟨ledger.placed_put placed _, fun other found => ?_, ?_⟩
    · rw [List.singleton_append, List.mem_cons, Holds, of?_put placed]
      split
      · rename_i same
        rw [same, or_iff_left (notYet found)]
        simp only [Prod.mk.injEq, true_and, Option.some.injEq, Mark.done.injEq, eq_comm]
      · rename_i different
        rw [ledger.computed, Holds, or_iff_right]
        exact fun same => different (Prod.mk.inj same).1
    · rw [List.singleton_append, List.map_cons, List.nodup_cons]
      refine ⟨?_, ledger.once⟩
      rw [List.mem_map]
      rintro ⟨⟨_, found⟩, member, rfl⟩
      exact notYet found member

end Marks

namespace Pass

variable {c : Circuit} {root : Handle} {state later : PassState c}
  {log computed : List (Handle × Bool)}

/-! ### Turns of a pass -/

/-- **A turn of a pass meets an element, settles one or does nothing to the marks.** -/
theorem Goes.moves (goes : Goes state later computed) (sound : state.marks.Sound state.stack) :
    state.marks.Moves later.marks computed := by
  cases goes with
  | known same next marked => exact .stay
  | @entered marks frame received inner waiting ready busy busy' same next fresh marked =>
    exact .enter inner.placed marked
  | @settled marks frame received waiting ready value busy busy' same nothing valued =>
    have met : received.handle ∈ (frame :: waiting).map Frame.handle := by
      rw [← same, Frame.handle_receive]
      exact List.mem_cons_self
    have mark := (sound.waiting received.handle).mpr met
    rw [Marks.of?_of_slot? received.placed, Option.some.injEq] at mark
    exact .settle received.placed mark value

/-- The waiting elements once the latest of them has taken what was found for it. -/
def received (ready : Option Bool) : List (Frame c) → List (Frame c)
  | [] => []
  | frame :: waiting => frame.receive ready :: waiting

/-- What was read is marked as done. -/
def Filled (state : PassState c) : Prop :=
  ∀ frame ∈ received state.ready state.stack, frame.FilledBy state.marks.Holds

theorem Filled.of_mem (filled : Filled state) {frame : Frame c} (member : frame ∈ state.stack) :
    frame.FilledBy state.marks.Holds := by
  obtain ⟨marks, stack, ready, busy⟩ := state
  cases stack with
  | nil => cases member
  | cons upper waiting =>
    obtain ⟨first, others⟩ := List.forall_mem_cons.mp filled
    rcases List.mem_cons.mp member with rfl | further
    · exact first.of_receive
    · exact others frame further

/-- **What was read stays what is marked as done**: a value that is found is marked so before an
element takes it. -/
theorem Goes.filled (goes : Goes state later computed) (kept : Invariant root state)
    (filled : Filled state) : Filled later := by
  have moves := goes.moves kept.sound
  have still {frame : Frame c} (before : frame.FilledBy state.marks.Holds) :
      frame.FilledBy later.marks.Holds := before.imp fun _ _ holds => moves.holds holds
  cases goes with
  | @known marks frame _ waiting ready source value busy busy' same next marked =>
    subst same
    obtain ⟨first, others⟩ := List.forall_mem_cons.mp filled
    exact List.forall_mem_cons.mpr ⟨first.receive next marked, others⟩
  | @entered marks frame _ inner waiting ready busy busy' same next fresh marked =>
    subst same
    obtain ⟨first, others⟩ := List.forall_mem_cons.mp filled
    exact List.forall_mem_cons.mpr ⟨.of_fresh fresh, List.forall_mem_cons.mpr
      ⟨still first, fun other member => still (others other member)⟩⟩
  | @settled marks frame _ waiting ready value busy busy' same nothing valued =>
    subst same
    obtain ⟨_, others⟩ := List.forall_mem_cons.mp filled
    -- The value goes to the element below, which waits for this one.
    have below := kept.due.receive.2
    cases below with
    | root => exact fun _ member => absurd member List.not_mem_nil
    | @frame lower others' _ next _ _ =>
      obtain ⟨second, rest⟩ := List.forall_mem_cons.mp others
      refine List.forall_mem_cons.mpr ⟨?_, fun other member => still (rest other member)⟩
      have holds : Marks.Holds (marks.put (frame.receive ready).slot (.done value))
          frame.handle value := by
        unfold Marks.Holds
        rw [Marks.of?_put (frame.receive ready).placed, if_pos (frame.handle_receive ready).symm]
      exact (still second).receive next holds

/-- The element over a waiting one is the source that it waits for. -/
def Linked (upper lower : Waiting) : Prop :=
  lower.sources[lower.inputs.size]? = some upper.handle

theorem Waits.linked {source : Handle} {stack : List (Frame c)} (waits : Waits root source stack)
    {frame : Frame c} (awaited : frame.handle = source) :
    ((frame :: stack).map Frame.waiting).IsChain Linked := by
  induction waits generalizing frame with
  | root => exact .singleton _
  | @frame lower stack source next filled below ih =>
    have link : Linked frame.waiting lower.waiting := next.trans (congrArg some awaited.symm)
    exact .cons_cons link (ih rfl)

theorem Due.linked {ready : Option Bool} {stack : List (Frame c)} (due : Due root ready stack) :
    (stack.map Frame.waiting).IsChain Linked := by
  cases stack with
  | nil => exact .nil
  | cons frame waiting => exact due.receive.2.linked rfl

end Pass

/-! ### Evaluators -/

namespace Evaluator

variable {c : Circuit} {marks : Marks c} {log : List (Handle × Bool)} {activity : Activity}
  {evaluator later : Evaluator}

/-- The evaluator has found this value for the element. -/
def Knows (c : Circuit) (evaluator : Evaluator) (handle : Handle) (value : Bool) : Prop :=
  ∃ slot, handle.id = c.base + slot ∧ evaluator.marks[slot]? = some (.done value)

/-- **What can be seen of an evaluator that has not failed**, where these elements wait. -/
structure Orderly (c : Circuit) (evaluator : Evaluator) (stack : List Waiting) : Prop where
  size : evaluator.marks.size = c.slots.size
  /-- What was looked up for a waiting element is what the circuit has. -/
  lookedUp : ∀ frame ∈ stack, frame.handle.id = c.base + frame.slot ∧
    c.get? frame.handle = some frame.element ∧ frame.sources.toList = c.reads frame.handle
  /-- Exactly the waiting elements are marked as in progress. -/
  waiting : ∀ slot, evaluator.marks[slot]? = some .inProgress ↔ slot ∈ stack.map Waiting.slot
  once : (stack.map Waiting.slot).Nodup
  linked : stack.IsChain Pass.Linked
  /-- A waiting element has read what is known of the first of its sources. -/
  filled : ∀ frame ∈ stack, List.Forall₂ (Knows c evaluator)
    (frame.sources.toList.take frame.inputs.size) frame.inputs.toList
  computed : ∀ handle value, (handle, value) ∈ evaluator.log ↔ Knows c evaluator handle value

theorem mark_eq_iff {place : Nat} {mark : Mark} :
    marks.toArray[place]? = some mark ↔ ∃ slot, slot.1 = place ∧ marks.inSlot slot = mark := by
  constructor
  · intro here
    obtain ⟨inside, same⟩ := Array.getElem?_eq_some_iff.mp here
    rw [Vector.size_toArray] at inside
    exact ⟨⟨place, inside⟩, rfl, same⟩
  · rintro ⟨slot, rfl, rfl⟩
    exact marks.getElem?_toArray slot

theorem knows_iff (ledger : marks.Ledger log) {handle : Handle} {value : Bool} :
    Knows c ⟨marks.toArray, log, activity⟩ handle value ↔ marks.Holds handle value := by
  constructor
  · rintro ⟨place, placed, marked⟩
    obtain ⟨slot, rfl, mark⟩ := mark_eq_iff.mp marked
    have found := ledger.placed slot (by rw [mark]; exact Mark.noConfusion)
    rw [← placed] at found
    exact (Marks.of?_of_slot? found marks).trans (congrArg some mark)
  · intro holds
    obtain ⟨slot, placed, mark⟩ := Option.map_eq_some_iff.mp holds
    exact ⟨slot, (Circuit.slot?_eq_some_iff.mp placed).1, mark_eq_iff.mpr ⟨slot, rfl, mark⟩⟩

theorem handles_eq (c : Circuit) (stack : List (Frame c)) :
    stack.map Frame.handle =
      ((stack.map Frame.waiting).map Waiting.slot).map fun slot => ⟨c.base + slot⟩ := by
  rw [List.map_map, List.map_map]
  refine List.map_congr_left fun frame _ => ?_
  exact congrArg Handle.mk (Circuit.slot?_eq_some_iff.mp frame.placed).1

theorem orderly {stack : List (Frame c)} (sound : marks.Sound stack) (ledger : marks.Ledger log)
    (linked : (stack.map Frame.waiting).IsChain Pass.Linked)
    (filled : ∀ frame ∈ stack, frame.FilledBy marks.Holds) :
    Orderly c ⟨marks.toArray, log, activity⟩ (stack.map Frame.waiting) where
  size := marks.size_toArray
  lookedUp := by
    refine List.forall_mem_map.mpr fun frame _ => ?_
    exact ⟨(Circuit.slot?_eq_some_iff.mp frame.placed).1, frame.live, frame.sources_eq⟩
  waiting place := by
    rw [mark_eq_iff]
    constructor
    · rintro ⟨slot, rfl, mark⟩
      have placed := ledger.placed slot (by rw [mark]; exact Mark.noConfusion)
      have met := (sound.waiting _).mp ((Marks.of?_of_slot? placed marks).trans (congrArg some mark))
      rw [handles_eq, List.mem_map] at met
      obtain ⟨place, member, same⟩ := met
      have same' : c.base + place = c.base + slot := congrArg Handle.id same
      rw [← Nat.add_left_cancel same']
      exact member
    · intro member
      rw [List.map_map, List.mem_map] at member
      obtain ⟨frame, member, rfl⟩ := member
      refine ⟨frame.slot, rfl, ?_⟩
      have mark := (sound.waiting frame.handle).mpr (List.mem_map_of_mem member)
      rw [Marks.of?_of_slot? frame.placed, Option.some.injEq] at mark
      exact mark
  once := by
    have once := sound.once
    rw [handles_eq] at once
    exact List.Nodup.of_map _ once
  linked := linked
  filled := by
    refine List.forall_mem_map.mpr fun frame member => ?_
    exact (filled frame member).imp fun _ _ holds => (knows_iff ledger).mpr holds
  computed handle value := (ledger.computed handle value).trans (knows_iff ledger).symm

/-- Every mark stays, or advances. -/
def Advances (evaluator later : Evaluator) : Prop :=
  ∀ (slot : Nat) (mark : Mark), evaluator.marks[slot]? = some mark →
    ∃ next, later.marks[slot]? = some next ∧ mark.Advances next

theorem advances_of_moves {marks' : Marks c} {computed : List (Handle × Bool)}
    (moves : marks.Moves marks' computed) (log log' : List (Handle × Bool))
    (activity activity' : Activity) :
    Advances ⟨marks.toArray, log, activity⟩ ⟨marks'.toArray, log', activity'⟩ := by
  intro place mark here
  obtain ⟨slot, rfl, rfl⟩ := mark_eq_iff.mp here
  exact ⟨marks'.inSlot slot, marks'.getElem?_toArray slot, moves.advances slot⟩

/-! ### Moves -/

/-- **Where an evaluator may be between two moves.** -/
inductive Reached (c : Circuit) : Evaluator → Prop
  | idle {marks : Marks c} {log : List (Handle × Bool)} (answer : Option Bool)
      (sound : marks.Sound []) (ledger : marks.Ledger log) :
      Reached c ⟨marks.toArray, log, .idle answer⟩
  | looping {root : Handle} {state : PassState c} {log : List (Handle × Bool)}
      (kept : Pass.Invariant root state) (filled : Pass.Filled state)
      (ledger : state.marks.Ledger log) : Reached c (state.evaluator log)
  | failed {marks : Marks c} {log : List (Handle × Bool)} (e : Error)
      (ledger : marks.Ledger log) : Reached c ⟨marks.toArray, log, .failed e⟩

/-- Where a call leads. -/
theorem reached_of_call (sound : marks.Sound []) (ledger : marks.Ledger log) (answer : Option Bool)
    (root : Handle) :
    let called := meet c ⟨marks.toArray, log, .idle answer⟩ [] root
    Reached c called ∧ Advances ⟨marks.toArray, log, .idle answer⟩ called := by
  have met := Pass.met_visit marks root
  intro called
  unfold called
  rw [Pass.meet_root_eq]
  generalize Pass.visit c marks root = visited at met
  cases met with
  | unknown gone => exact ⟨.failed _ ledger, advances_of_moves .stay _ _ _ _⟩
  | cyclic marked => exact ⟨.failed _ ledger, advances_of_moves .stay _ _ _ _⟩
  | known marked =>
    refine ⟨.looping (.known sound marked) ?_ ledger, advances_of_moves .stay _ _ _ _⟩
    exact fun _ member => absurd member List.not_mem_nil
  | entered same fresh marked =>
    have moves : marks.Moves _ _ := .enter (Frame.placed _) marked
    refine ⟨.looping (.entered sound same fresh marked) ?_ (moves.ledger ledger),
      advances_of_moves moves _ _ _ _⟩
    exact List.forall_mem_singleton.mpr (.of_fresh fresh)

/-- Where a turn leads. -/
theorem reached_of_turn (wired : c.Wired) {root : Handle} {state : PassState c}
    (kept : Pass.Invariant root state) (filled : Pass.Filled state)
    (ledger : state.marks.Ledger log) :
    Reached c (turn c (state.evaluator log)) ∧
      Advances (state.evaluator log) (turn c (state.evaluator log)) := by
  have turned := Pass.turned state log
  have leads := kept.step wired
  generalize Pass.step state = outcome at turned leads
  generalize turn c (state.evaluator log) = evaluator at turned ⊢
  cases turned with
  | next goes =>
    have moves := goes.moves kept.sound
    cases leads with
    | next kept' =>
      exact ⟨.looping kept' (goes.filled kept filled) (moves.ledger ledger),
        advances_of_moves moves _ _ _ _⟩
  | finished last ready =>
    cases leads with
    | finished valued sound => exact ⟨.idle _ sound ledger, advances_of_moves .stay _ _ _ _⟩
  | failed e => exact ⟨.failed e ledger, advances_of_moves .stay _ _ _ _⟩

/-- **A move leads from where an evaluator may be to where it may be**, and marks only advance. -/
theorem Reached.move (reached : Reached c evaluator) (wired : c.Wired)
    (move : Move c evaluator later) : Reached c later ∧ Advances evaluator later := by
  cases reached with
  | idle answer sound ledger =>
    cases move with
    | call idle root => exact reached_of_call sound ledger answer root
    | turn looping => cases looping
  | looping kept filled ledger =>
    cases move with
    | call idle root => cases idle
    | turn looping => exact reached_of_turn wired kept filled ledger
  | failed e ledger =>
    cases move with
    | call idle root => cases idle
    | turn looping => cases looping

theorem reached_initial (c : Circuit) : Reached c (initial c) :=
  .idle none (.initial c) (.initial c)

theorem Reached.moves (reached : Reached c evaluator) (wired : c.Wired)
    (moves : Relation.ReflTransGen (Move c) evaluator later) : Reached c later := by
  induction moves with
  | refl => exact reached
  | tail _ move ih => exact (ih.move wired move).1

/-- A value that was found is there for good. -/
theorem Reached.done_of_moves (reached : Reached c evaluator) (wired : c.Wired)
    (moves : Relation.ReflTransGen (Move c) evaluator later) {slot : Nat} {value : Bool}
    (done : evaluator.marks[slot]? = some (.done value)) :
    later.marks[slot]? = some (.done value) := by
  induction moves with
  | refl => exact done
  | tail before move ih =>
    obtain ⟨next, here, advances⟩ := ((reached.moves wired before).move wired move).2 _ _ ih
    rw [here, advances.of_done]

theorem moves_turns (c : Circuit) (evaluator : Evaluator) (turns : Nat) :
    Relation.ReflTransGen (Move c) evaluator ((turn c)^[turns] evaluator) := by
  induction turns with
  | zero => exact .refl
  | succ turns ih =>
    rw [Function.iterate_succ_apply']
    generalize (turn c)^[turns] evaluator = last at ih ⊢
    obtain ⟨marks, log, activity⟩ := last
    cases activity with
    | looping stack ready => exact ih.tail (.turn rfl)
    | idle answer => exact ih
    | failed e => exact ih
    | crashed => exact ih

/-- **An evaluator of a circuit that edits can build, between any two of its moves**, whatever
elements it was asked for so far, one after another up to the first error. It has not come to a place
that should not be reached. If it is at work, exactly the elements on its stack are marked as in
progress, each of them is there once and is read by the one below it, and what each of them has read
is what is marked as done of the first of its sources. In every move each mark stays or goes from
unvisited to in progress or from there to done, so no value is computed twice and none changes. And
asked for any element it comes to an end after finitely many turns, with the answer of the pass. -/
theorem moves_spec (reachable : c.Reachable)
    (moved : Relation.ReflTransGen (Move c) (initial c) evaluator) :
    evaluator.activity ≠ .crashed ∧
    (∀ stack ready, evaluator.activity = .looping stack ready → Orderly c evaluator stack) ∧
    (∀ answer, evaluator.activity = .idle answer → Orderly c evaluator []) ∧
    (∀ later, Move c evaluator later → Advances evaluator later) ∧
    (∀ later, Relation.ReflTransGen (Move c) evaluator later → ∀ (slot : Nat) (value : Bool),
      evaluator.marks[slot]? = some (.done value) → later.marks[slot]? = some (.done value)) ∧
    (evaluator.log.map Prod.fst).Nodup ∧
    ∀ answer, evaluator.activity = .idle answer →
      ∃ size : evaluator.marks.size = c.slots.size, ∀ root, ∃ turns,
        Pass.Gives ((turn c)^[turns] (meet c evaluator [] root))
          (Pass.run c ⟨evaluator.marks, size⟩ root) := by
  have wired := reachable.wired
  have reached := (reached_initial c).moves wired moved
  have advances (later : Evaluator) (move : Move c evaluator later) : Advances evaluator later :=
    (reached.move wired move).2
  have kept (later : Evaluator) (moves : Relation.ReflTransGen (Move c) evaluator later)
      (slot : Nat) (value : Bool) (done : evaluator.marks[slot]? = some (.done value)) :
      later.marks[slot]? = some (.done value) := reached.done_of_moves wired moves done
  cases reached with
  | idle answer sound ledger =>
    refine ⟨nofun, nofun, fun _ _ => ?_, advances, kept, ledger.once, fun _ _ => ?_⟩
    · exact orderly sound ledger .nil fun _ member => absurd member List.not_mem_nil
    · exact ⟨Vector.size_toArray _, fun root => Pass.exists_turns_meet _ _ _ root⟩
  | looping holds filled ledger =>
    refine ⟨nofun, fun stack ready looping => ?_, nofun, advances, kept, ledger.once, nofun⟩
    cases looping
    exact orderly holds.sound ledger holds.due.linked fun _ member => filled.of_mem member
  | failed e ledger => exact ⟨nofun, nofun, nofun, advances, kept, ledger.once, nofun⟩

/-- Asked for an input and then for a gate that reads itself, an evaluator answers for the first, puts
the second on its stack, and fails where it meets it again. -/
theorem moves_beside_loop :
    let c : Circuit := ⟨0, #[some (.input true), some (.gate .and)], #[⟨⟨1⟩, ⟨1⟩⟩]⟩
    let evaluator : Evaluator := ⟨#[.done true, .unvisited], [(⟨0⟩, true)], .idle (some true)⟩
    let called := meet c evaluator [] ⟨1⟩
    let frame : Waiting := ⟨⟨1⟩, 1, .gate .and, #[⟨1⟩], #[]⟩
    c.Reachable ∧ Relation.ReflTransGen (Move c) (initial c) evaluator ∧
      Orderly c evaluator [] ∧
      called.activity = .looping [frame] none ∧ Orderly c called [frame] ∧
      ∃ turns, ((turn c)^[turns] called).activity = .failed (.cycle ⟨1⟩) := by
  intro c evaluator called frame
  have reachable : c.Reachable :=
    ⟨[.add (.input true), .add (.gate .and), .connect ⟨1⟩ ⟨1⟩], by decide⟩
  have answered : (turn c)^[2] (meet c (initial c) [] ⟨0⟩) = evaluator := rfl
  have moved : Relation.ReflTransGen (Move c) (initial c) evaluator :=
    .trans (.single (.call rfl ⟨0⟩)) (answered ▸ moves_turns c _ 2)
  obtain ⟨_, _, idle, _, _, _, ends⟩ := moves_spec reachable moved
  obtain ⟨_, looping, _⟩ := moves_spec reachable (moved.tail (.call rfl ⟨1⟩))
  obtain ⟨size, answers⟩ := ends _ rfl
  obtain ⟨turns, gives⟩ := answers ⟨1⟩
  have cyclic : Pass.run c ⟨evaluator.marks, size⟩ ⟨1⟩ = .error (.cycle ⟨1⟩) := by
    show Pass.proceed _ = _
    rw [Pass.proceed]
    rfl
  rw [cyclic] at gives
  exact ⟨reachable, moved, idle _ rfl, rfl, looping _ _ rfl, turns, gives⟩

end Evaluator

end Switching
