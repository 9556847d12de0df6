/-
**Evaluation passes.**

A pass computes the values of elements depth first and remembers those it has found. Elements that
wait for the elements they read are kept on a stack of the pass itself, so that the length of a
chain of elements does not matter. An element that is met again while it waits lies on a cycle.

* `Pass.visit`, `Pass.met_visit`: an element is met, and what happens is decided by its mark;
* `Pass.step`: one turn of the loop;
* `rank_step_lt`: every turn brings the pass closer to its end, because every element is put on the
  stack at most once;
* `Pass.run`: the value of one element and the marks of the pass after it.
-/

import Switching.Circuit.Basic

namespace Switching

/-- What a pass knows of an element. -/
inductive Mark where
  | unvisited
  | inProgress
  | done (value : Bool)
deriving DecidableEq

/-- The marks of all elements, by slot. -/
abbrev Marks (c : Circuit) := Vector Mark c.slots.size

namespace Marks

variable {c : Circuit}

/-- The marks before a pass. -/
def initial (c : Circuit) : Marks c := .replicate c.slots.size .unvisited

/-- The mark in a slot. -/
def inSlot (marks : Marks c) (slot : Fin c.slots.size) : Mark := marks.get slot

/-- Marks a slot. -/
def put (marks : Marks c) : Fin c.slots.size → Mark → Marks c
  | ⟨place, inside⟩, mark => Vector.set marks place mark inside

/-- The mark of a handle. -/
def of? (marks : Marks c) (handle : Handle) : Option Mark := (c.slot? handle).map marks.inSlot

/-- The number of elements that were not met yet. -/
def unvisited (marks : Marks c) : Nat := marks.countP (· == Mark.unvisited)

theorem of?_of_slot? {handle : Handle} {slot : Fin c.slots.size}
    (placed : c.slot? handle = some slot) (marks : Marks c) :
    marks.of? handle = some (marks.inSlot slot) := by
  rw [of?, placed]
  rfl

theorem of?_initial {handle : Handle} {mark : Mark}
    (marked : (initial c).of? handle = some mark) : mark = .unvisited := by
  obtain ⟨slot, _, same⟩ := Option.map_eq_some_iff.mp marked
  rw [← same]
  exact Vector.getElem_replicate slot.2

/-- Marking an element changes no other mark. -/
theorem of?_put {handle : Handle} {slot : Fin c.slots.size} (placed : c.slot? handle = some slot)
    (marks : Marks c) (mark : Mark) (other : Handle) :
    (marks.put slot mark).of? other = if other = handle then some mark else marks.of? other := by
  split
  · rename_i same
    rw [same, of?_of_slot? placed]
    exact congrArg some (Vector.getElem_set_self slot.2)
  · rename_i different
    unfold of?
    cases found : c.slot? other with
    | none => rfl
    | some place =>
      have apart : slot.1 ≠ place.1 := by
        intro same
        have here := (Circuit.slot?_eq_some_iff.mp found).1
        rw [← same] at here
        exact different ((Circuit.handle_eq_iff placed).mpr here)
      exact congrArg some (Vector.getElem_set_ne slot.2 place.2 apart)

/-- An element that is marked as met, or as done, is not unvisited, so none is added. -/
theorem unvisited_put_le (marks : Marks c) (slot : Fin c.slots.size) {mark : Mark}
    (met : mark ≠ .unvisited) : (marks.put slot mark).unvisited ≤ marks.unvisited := by
  have counted : (mark == Mark.unvisited) = false := by simpa using met
  unfold unvisited
  show (Vector.set marks slot.1 mark slot.2).countP _ ≤ _
  rw [Vector.countP_set, counted]
  simp only [Bool.false_eq_true, if_false, Nat.add_zero]
  exact Nat.sub_le _ _

theorem unvisited_enter_lt {marks : Marks c} {slot : Fin c.slots.size}
    (fresh : marks.inSlot slot = .unvisited) :
    (marks.put slot .inProgress).unvisited < marks.unvisited := by
  have here : (marks[slot.1] == Mark.unvisited) = true := beq_iff_eq.mpr fresh
  have there : (Mark.inProgress == Mark.unvisited) = false := rfl
  have positive : 0 < marks.countP (· == Mark.unvisited) :=
    Vector.countP_pos_iff.mpr ⟨_, Vector.getElem_mem slot.2, here⟩
  unfold unvisited
  show (Vector.set marks slot.1 .inProgress slot.2).countP _ < _
  rw [Vector.countP_set, here, there]
  simp only [if_true, Bool.false_eq_true, if_false]
  omega

end Marks

/-- An element that waits for the values of its sources. -/
structure Frame (c : Circuit) where
  handle : Handle
  slot : Fin c.slots.size
  element : Element
  sources : Array Handle
  /-- The values of the first sources. -/
  inputs : Array Bool
  placed : c.slot? handle = some slot
  live : c.get? handle = some element
  reads : sources.toList = element.reads (c.fanIn handle)

namespace Frame

variable {c : Circuit}

/-- A frame before its first value is read. -/
def start {handle : Handle} {slot : Fin c.slots.size} {element : Element}
    (placed : c.slot? handle = some slot) (live : c.get? handle = some element) : Frame c where
  handle := handle
  slot := slot
  element := element
  sources := (element.reads (c.fanIn handle)).toArray
  inputs := #[]
  placed := placed
  live := live
  reads := List.toList_toArray

/-- A frame takes the value that it waits for, if one was found. -/
def receive (frame : Frame c) : Option Bool → Frame c
  | none => frame
  | some value => { frame with inputs := frame.inputs.push value }

/-- The number of values that a frame waits for. -/
def missing (frame : Frame c) : Nat := frame.sources.size - frame.inputs.size

@[simp] theorem handle_receive (frame : Frame c) (ready : Option Bool) :
    (frame.receive ready).handle = frame.handle := by
  cases ready <;> rfl

@[simp] theorem missing_receive_none (frame : Frame c) :
    (frame.receive none).missing = frame.missing := rfl

@[simp] theorem missing_receive_some (frame : Frame c) (value : Bool) :
    (frame.receive (some value)).missing = frame.missing - 1 := by
  simp only [missing, receive, Array.size_push]
  omega

end Frame

/-- How much the elements of a stack have to do without putting another one on it. -/
def stackWork {c : Circuit} : List (Frame c) → Nat
  | [] => 0
  | frame :: waiting => 2 * frame.missing + 1 + stackWork waiting

/-- A pass between two turns of its loop. -/
structure PassState (c : Circuit) where
  marks : Marks c
  /-- The waiting elements, the latest first. -/
  stack : List (Frame c)
  /-- The value that was found in the last turn, if one was. -/
  ready : Option Bool
  /-- Without a value an element waits. -/
  busy : ready = none → stack ≠ []

namespace PassState

variable {c : Circuit}

/-- How much a pass has to do without putting another element on the stack. -/
def work (state : PassState c) : Nat :=
  stackWork state.stack + if state.ready.isNone then 1 else 0

/-- The elements that were not met yet, and the work up to the next of them. Every turn makes this
pair smaller in lexicographic order. -/
def rank (state : PassState c) : Nat × Nat := (state.marks.unvisited, state.work)

end PassState

/-- What a turn leads to. -/
inductive Outcome (c : Circuit) where
  | next (state : PassState c)
  /-- The value of the first element is found. -/
  | finished (value : Bool) (marks : Marks c)
  | failed (e : Error)

/-- What meeting an element leads to. -/
inductive Visit (c : Circuit) where
  | known (value : Bool)
  /-- The element is marked and waits. -/
  | entered (marks : Marks c) (frame : Frame c)

namespace Pass

variable {c : Circuit}

/-- Meets an element. -/
def visit (c : Circuit) (marks : Marks c) (handle : Handle) : Except Error (Visit c) :=
  match placed : c.slot? handle with
  | none => .error (.unknownElement handle)
  | some slot =>
    match marks.inSlot slot with
    | .done value => .ok (.known value)
    | .inProgress => .error (.cycle handle)
    | .unvisited =>
      match live : c.get? handle with
      | none => .error (.unknownElement handle)
      | some _ => .ok (.entered (marks.put slot .inProgress) (.start placed live))

/-- A waiting element meets the next of its sources; if it has read them all, it has a value and
waits no longer. -/
def advance (marks : Marks c) (frame : Frame c) (waiting : List (Frame c)) : Outcome c :=
  match frame.sources[frame.inputs.size]? with
  | some source =>
    match visit c marks source with
    | .error e => .failed e
    | .ok (.known value) => .next ⟨marks, frame :: waiting, some value, nofun⟩
    | .ok (.entered marks inner) =>
      .next ⟨marks, inner :: frame :: waiting, none, fun _ => List.cons_ne_nil _ _⟩
  | none =>
    let value := frame.element.value frame.inputs.toList
    .next ⟨marks.put frame.slot (.done value), waiting, some value, nofun⟩

/-- One turn of the loop. -/
def step : PassState c → Outcome c
  | ⟨marks, [], some value, _⟩ => .finished value marks
  | ⟨_, [], none, busy⟩ => absurd rfl (busy rfl)
  | ⟨marks, frame :: waiting, ready, _⟩ => advance marks (frame.receive ready) waiting

/-! ### The end of a pass -/

/-- What meeting an element leads to, by its mark. -/
inductive Met (marks : Marks c) (handle : Handle) : Except Error (Visit c) → Prop
  | unknown (gone : c.get? handle = none) : Met marks handle (.error (.unknownElement handle))
  | cyclic (marked : marks.of? handle = some .inProgress) :
      Met marks handle (.error (.cycle handle))
  | known {value : Bool} (marked : marks.of? handle = some (.done value)) :
      Met marks handle (.ok (.known value))
  | entered {frame : Frame c} (same : frame.handle = handle) (fresh : frame.inputs = #[])
      (marked : marks.inSlot frame.slot = .unvisited) :
      Met marks handle (.ok (.entered (marks.put frame.slot .inProgress) frame))

/-- An element is met as its mark says. -/
theorem met_visit (marks : Marks c) (handle : Handle) : Met marks handle (visit c marks handle) := by
  unfold visit
  split
  · rename_i gone
    exact .unknown (by rw [Circuit.get?, gone]; rfl)
  · rename_i slot placed
    have mark := Marks.of?_of_slot? placed marks
    split
    · rename_i marked
      exact .known (mark.trans (congrArg some marked))
    · rename_i marked
      exact .cyclic (mark.trans (congrArg some marked))
    · rename_i marked
      split
      · rename_i gone
        exact .unknown gone
      · rename_i live
        exact @Met.entered c marks handle (.start placed live) rfl rfl marked

/-- A waiting element lets another one wait, or has no more to do than is left of its sources. -/
theorem advance_next {marks : Marks c} {frame : Frame c} {waiting : List (Frame c)}
    {later : PassState c} (taken : advance marks frame waiting = .next later) :
    later.marks.unvisited < marks.unvisited ∨
      later.marks.unvisited ≤ marks.unvisited ∧
        later.work ≤ stackWork waiting + 2 * frame.missing + 1 ∧
        (frame.missing = 0 → later.work ≤ stackWork waiting) := by
  unfold advance at taken
  split at taken
  · rename_i source here
    split at taken
    · cases taken
    · cases taken
      right
      obtain ⟨inside, _⟩ := Array.getElem?_eq_some_iff.mp here
      have some_missing : frame.missing ≠ 0 := Nat.sub_ne_zero_of_lt inside
      refine ⟨Nat.le_refl _, ?_, fun none_missing => absurd none_missing some_missing⟩
      simp only [PassState.work, stackWork, Option.isNone_some, Bool.false_eq_true, if_false]
      omega
    · rename_i met
      cases taken
      left
      have visited := met_visit marks source
      rw [met] at visited
      cases visited with
      | entered _ _ marked => exact Marks.unvisited_enter_lt marked
  · cases taken
    right
    have left_over : PassState.work ⟨marks.put frame.slot
        (.done (frame.element.value frame.inputs.toList)), waiting,
        some (frame.element.value frame.inputs.toList), nofun⟩ = stackWork waiting := rfl
    refine ⟨marks.unvisited_put_le _ (by simp), ?_, fun _ => Nat.le_of_eq left_over⟩
    rw [left_over]
    omega

/-- A turn after which the pass goes on makes the rank smaller. -/
theorem rank_step_lt {state later : PassState c} (taken : step state = .next later) :
    Prod.Lex (· < ·) (· < ·) later.rank state.rank := by
  unfold step at taken
  split at taken
  · cases taken
  · rename_i busy
    exact absurd rfl (busy rfl)
  · rename_i marks frame waiting ready busy
    rcases advance_next taken with entered | ⟨fewer, bound, done⟩
    · exact Prod.Lex.left _ _ entered
    · rcases Nat.lt_or_eq_of_le fewer with less | same
      · exact Prod.Lex.left _ _ less
      · rw [PassState.rank, PassState.rank, same]
        apply Prod.Lex.right
        show later.work < stackWork (frame :: waiting) + if ready.isNone then 1 else 0
        simp only [stackWork] at bound done ⊢
        cases ready with
        | none =>
          simp only [Frame.missing_receive_none, Option.isNone_none, if_true] at bound ⊢
          omega
        | some value =>
          simp only [Frame.missing_receive_some, Option.isNone_some, Bool.false_eq_true,
            if_false] at bound done ⊢
          omega

/-! ### Whole passes -/

/-- Takes turns until the value of the first element is found. -/
def proceed (state : PassState c) : Except Error (Bool × Marks c) :=
  match _taken : step state with
  | .next later => proceed later
  | .finished value marks => .ok (value, marks)
  | .failed e => .error e
termination_by state.rank
decreasing_by exact rank_step_lt _taken

/-- The value of an element, and what the pass knows after it. -/
def run (c : Circuit) (marks : Marks c) (handle : Handle) : Except Error (Bool × Marks c) :=
  match visit c marks handle with
  | .error e => .error e
  | .ok (.known value) => proceed ⟨marks, [], some value, nofun⟩
  | .ok (.entered marks frame) => proceed ⟨marks, [frame], none, fun _ => List.cons_ne_nil _ _⟩

/-- The values of several elements, one after another, up to the first error. -/
def runAll (c : Circuit) (marks : Marks c) : List Handle → Except Error (List Bool)
  | [] => .ok []
  | handle :: others =>
    match run c marks handle with
    | .error e => .error e
    | .ok (value, later) =>
      match runAll c later others with
      | .error e => .error e
      | .ok values => .ok (value :: values)

end Pass

end Switching
