/-
**Handles do not matter but for their order of issue.**

A circuit whose handles all lie some places further on answers every request as the circuit itself
does, with the handles in the request and in the answer as many places further on, errors included.
A circuit that was cleared is the empty one so shifted, by the number of handles that it has issued.
So clearing starts afresh: nothing that is answered afterwards tells what was there before.

* `Circuit.shift`: the circuit with all handles further on;
* `get?_shift`, `elements_shift`, `fanIn_shift`, `reads_shift`: what it consists of;
* `HasValue.shift`, `ReturnsTo.shift`, `Wired.valueOf_shift`: evaluation goes the same way in it;
* `Wired.values_shift`, `Wired.truthTable_shift`: so do passes over all elements, and over the rows
  of a table;
* `attempt_shift`: an edit does the same to it;
* `Wired.serve_shift`, `Wired.answers_shift`: so it answers the same, request after request;
* `answers_clear`: in particular a circuit that was cleared answers as the empty one does.
-/

import Switching.Circuit.Session
import Switching.Proofs.Circuit.Connections
import Switching.Proofs.Circuit.Handles
import Switching.Proofs.Circuit.Tabulation

namespace Switching

/-! ### Further on -/

/-- The handle so many places further on. -/
def Handle.shift (offset : Nat) (handle : Handle) : Handle := ⟨handle.id + offset⟩

/-- The wire between the elements so many places further on. -/
def Wire.shift (offset : Nat) (wire : Wire) : Wire :=
  ⟨wire.source.shift offset, wire.target.shift offset⟩

/-- The error about the elements so many places further on. -/
def Error.shift (offset : Nat) : Error → Error
  | cycle handle => cycle (handle.shift offset)
  | unknownElement handle => unknownElement (handle.shift offset)
  | notAnInput handle => notAnInput (handle.shift offset)
  | invalidWire source target fault =>
    invalidWire (source.shift offset) (target.shift offset) fault
  | e => e

/-- A result with its error further on, and what there is otherwise moved along. -/
def shiftResult {Result Moved : Type} (offset : Nat) (move : Result → Moved) :
    Except Error Result → Except Error Moved
  | .ok result => .ok (move result)
  | .error e => .error (e.shift offset)

def Edit.shift (offset : Nat) : Edit → Edit
  | add element => add element
  | connect source target => connect (source.shift offset) (target.shift offset)
  | setInput handle value => setInput (handle.shift offset) value
  | toggleInput handle => toggleInput (handle.shift offset)
  | remove handle => remove (handle.shift offset)
  | clear => clear

def Reply.shift (offset : Nat) : Reply → Reply
  | handle issued => handle (issued.shift offset)
  | reply => reply

def CircuitValues.shift (offset : Nat) (values : CircuitValues) : CircuitValues :=
  ⟨values.entries.map (Prod.map (Handle.shift offset) id)⟩

def CircuitTable.shift (offset : Nat) (table : CircuitTable) : CircuitTable :=
  ⟨table.inputs.map (Handle.shift offset), table.outputs.map (Handle.shift offset), table.rows⟩

/-- The question about the elements so many places further on. -/
def Query.shift (offset : Nat) : Query → Query
  | contains handle => contains (handle.shift offset)
  | get handle => get (handle.shift offset)
  | element handle => element (handle.shift offset)
  | fanIn handle => fanIn (handle.shift offset)
  | valueOf handle => valueOf (handle.shift offset)
  | query => query

/-- The request with every handle in it further on. -/
def Request.shift (offset : Nat) : Request → Request
  | edit change => edit (change.shift offset)
  | query question => query (question.shift offset)

/-- The answer with every handle in it further on. -/
def Answer.shift (offset : Nat) : Answer → Answer
  | reply result => reply (shiftResult offset (Reply.shift offset) result)
  | count number => count number
  | truth holds => truth holds
  | found there => found there
  | element result => element (shiftResult offset id result)
  | handles listed => handles (listed.map (Handle.shift offset))
  | elements listed => elements (listed.map (Prod.map (Handle.shift offset) id))
  | wires listed => wires (listed.map (Wire.shift offset))
  | value result => value (shiftResult offset id result)
  | values result => values (shiftResult offset (CircuitValues.shift offset) result)
  | table result => table (shiftResult offset (CircuitTable.shift offset) result)

/-- **The circuit with all handles so many places further on**: the same elements and wires, behind
as many handles that were issued before. -/
def Circuit.shift (offset : Nat) (c : Circuit) : Circuit :=
  ⟨c.base + offset, c.slots, c.wires.map (Wire.shift offset)⟩

variable {offset : Nat}

theorem Handle.shift_injective (offset : Nat) : Function.Injective (Handle.shift offset) := by
  rintro ⟨first⟩ ⟨second⟩ same
  simp only [shift, mk.injEq] at same
  exact congrArg mk (Nat.add_right_cancel same)

@[simp] theorem Handle.shift_inj {first second : Handle} :
    first.shift offset = second.shift offset ↔ first = second :=
  (shift_injective offset).eq_iff

/-- What an element reads of its wires depends on their order only. -/
theorem Element.reads_map (element : Element) (move : Handle → Handle) (sources : List Handle) :
    element.reads (sources.map move) = (element.reads sources).map move := by
  cases element with
  | input value => rfl
  | gate kind =>
    cases kind with
    | and => rfl
    | or => rfl
    | not => exact (List.map_take ..).symm
  | output => exact (List.map_take ..).symm

/-- **Doing something in turn** further on, if each of it can be done further on. -/
theorem mapM_shift {Item Moved Result Shown : Type} {items : List Item} {place : Item → Moved}
    {move : Result → Shown} {f : Item → Except Error Result} {g : Moved → Except Error Shown}
    (each : ∀ item, g (place item) = shiftResult offset move (f item)) :
    (items.map place).mapM g = shiftResult offset (List.map move) (items.mapM f) := by
  induction items with
  | nil => rfl
  | cons item items ih =>
    rw [List.map_cons, List.mapM_cons, List.mapM_cons, each, ih]
    cases f item with
    | error e => rfl
    | ok result => cases items.mapM f <;> rfl

namespace Circuit

variable {c : Circuit} {handle : Handle}

/-! ### What a shifted circuit consists of -/

/-- A handle further on refers to the element that the handle refers to. -/
@[simp] theorem get?_shift (c : Circuit) (handle : Handle) :
    (c.shift offset).get? (handle.shift offset) = c.get? handle := by
  refine Option.ext fun element => ?_
  rw [get?_eq_some_iff, get?_eq_some_iff]
  refine exists_congr fun place => and_congr_left' ?_
  simp only [shift, Handle.shift]
  omega

theorem contains_shift (c : Circuit) (handle : Handle) :
    (c.shift offset).contains (handle.shift offset) = c.contains handle := by
  rw [contains, ← isSome_get?, get?_shift, isSome_get?]
  rfl

theorem element_shift (c : Circuit) (handle : Handle) :
    (c.shift offset).element (handle.shift offset) =
      shiftResult offset id (c.element handle) := by
  rw [element, get?_shift, element]
  cases c.get? handle <;> rfl

theorem issued_shift (c : Circuit) : (c.shift offset).issued = c.issued + offset := by
  simp only [issued, shift]
  omega

theorem elements_shift (c : Circuit) :
    (c.shift offset).elements = c.elements.map (Prod.map (Handle.shift offset) id) := by
  have numbered : c.slots.toList.zipIdx (c.base + offset) =
      (c.slots.toList.zipIdx c.base).map (Prod.map id (· + offset)) := by
    rw [List.map_snd_add_zipIdx_eq_zipIdx, Nat.add_comm]
  rw [elements, elements, List.map_filterMap]
  show List.filterMap _ (c.slots.toList.zipIdx (c.base + offset)) = _
  rw [numbered, List.filterMap_map]
  congr 1
  funext entry
  rcases entry with ⟨_ | element, id⟩ <;> rfl

theorem size_shift (c : Circuit) : (c.shift offset).size = c.size := by
  rw [size, elements_shift, List.length_map]
  rfl

theorem handlesWhere_shift (c : Circuit) (kind : Element → Bool) :
    (c.shift offset).handlesWhere kind = (c.handlesWhere kind).map (Handle.shift offset) := by
  rw [handlesWhere, elements_shift, List.filter_map, List.map_map, handlesWhere, List.map_map]
  rfl

theorem handles_shift (c : Circuit) :
    (c.shift offset).handles = c.handles.map (Handle.shift offset) := by
  rw [← handlesWhere_true, handlesWhere_shift, handlesWhere_true]

theorem inputs_shift (c : Circuit) :
    (c.shift offset).inputs = c.inputs.map (Handle.shift offset) := c.handlesWhere_shift _

theorem outputs_shift (c : Circuit) :
    (c.shift offset).outputs = c.outputs.map (Handle.shift offset) := c.handlesWhere_shift _

theorem fanIn_shift (c : Circuit) (handle : Handle) :
    (c.shift offset).fanIn (handle.shift offset) =
      (c.fanIn handle).map (Handle.shift offset) := by
  rw [fanIn_eq, fanIn_eq, shift, Array.toList_map, List.filter_map, List.map_map, List.map_map]
  congr 1
  refine List.filter_congr fun wire _ => ?_
  simp [Wire.shift]

theorem reads_shift (c : Circuit) (handle : Handle) :
    (c.shift offset).reads (handle.shift offset) = (c.reads handle).map (Handle.shift offset) := by
  rw [reads, get?_shift, reads]
  cases c.get? handle with
  | none => rfl
  | some element => simp only [fanIn_shift, Element.reads_map]

theorem Wired.shift (wired : c.Wired) (offset : Nat) : (c.shift offset).Wired := by
  intro wire member
  obtain ⟨before, listed, rfl⟩ := Array.mem_map.mp member
  obtain ⟨⟨driver, live, sends⟩, ⟨driven, lives, takes⟩⟩ := wired before listed
  exact ⟨⟨driver, (get?_shift c _).trans live, sends⟩, ⟨driven, (get?_shift c _).trans lives, takes⟩⟩

/-! ### Evaluation -/

/-- **An element has the same value further on.** -/
theorem HasValue.shift {value : Bool} (valued : c.HasValue handle value) (offset : Nat) :
    (c.shift offset).HasValue (handle.shift offset) value := by
  induction valued with
  | @intro handle element live valuation _ ih =>
    -- The sources further on have the values that those so many places before them have.
    let back : Handle → Bool := fun source => valuation ⟨source.id - offset⟩
    have same : ∀ source : Handle, back (source.shift offset) = valuation source :=
      fun source => congrArg (fun id => valuation ⟨id⟩) (Nat.add_sub_cancel ..)
    have values : (c.reads handle).map valuation =
        ((c.shift offset).reads (handle.shift offset)).map back := by
      rw [reads_shift, List.map_map]
      exact List.map_congr_left fun source _ => (same source).symm
    rw [values]
    refine .intro ((get?_shift c handle).trans live) back fun source read => ?_
    rw [reads_shift] at read
    obtain ⟨before, reads, rfl⟩ := List.mem_map.mp read
    rw [same]
    exact ih before reads

/-- **Reading on comes back to the same place further on.** -/
theorem ReturnsTo.shift {way : List Handle} {place : Handle}
    (returns : c.ReturnsTo way handle place) (offset : Nat) :
    (c.shift offset).ReturnsTo (way.map (Handle.shift offset)) (handle.shift offset)
      (place.shift offset) := by
  induction returns with
  | here met => exact .here (List.mem_map_of_mem met)
  | @further way handle source place before after fresh sources valued _ ih =>
    have sources' : (c.shift offset).reads (handle.shift offset) =
        before.map (Handle.shift offset) ++ source.shift offset ::
          after.map (Handle.shift offset) := by
      rw [reads_shift, sources, List.map_append, List.map_cons]
    refine .further (fun met => ?_) sources' (fun other member => ?_) ih
    · obtain ⟨other, on, same⟩ := List.mem_map.mp met
      exact fresh (Handle.shift_inj.mp same ▸ on)
    · obtain ⟨original, listed, rfl⟩ := List.mem_map.mp member
      obtain ⟨value, has⟩ := valued original listed
      exact ⟨value, has.shift offset⟩

/-- **Evaluation answers the same further on**, errors included. -/
theorem Wired.valueOf_shift (wired : c.Wired) (handle : Handle) :
    (c.shift offset).valueOf (handle.shift offset) =
      shiftResult offset id (c.valueOf handle) := by
  cases live : c.get? handle with
  | none =>
    rw [valueOf_of_get?_eq_none live, valueOf_of_get?_eq_none ((get?_shift c handle).trans live)]
    rfl
  | some element =>
    rcases wired.valueOf_cases live with ⟨value, answer, valued⟩ | ⟨_, answer, place, rfl, back⟩
    · rw [answer]
      exact (wired.shift offset).valueOf_eq_ok_iff.mpr (valued.shift offset)
    · rw [answer]
      exact ((wired.shift offset).valueOf_eq_error_iff ((get?_shift c handle).trans live)).mpr
        ⟨place.shift offset, rfl, back.shift offset⟩

theorem Wired.values_shift (wired : c.Wired) :
    (c.shift offset).values =
      shiftResult offset (CircuitValues.shift offset) c.values := by
  rw [wired.values_eq, (wired.shift offset).values_eq, handles_shift,
    mapM_shift (wired.valueOf_shift)]
  cases c.handles.mapM c.valueOf with
  | error e => rfl
  | ok found =>
    have zipped := @List.zip_map_left _ _ _ (Handle.shift offset) c.handles found
    simp [shiftResult, Except.map, CircuitValues.shift, zipped]

/-! ### Edits -/

theorem add_shift (c : Circuit) (element : Element) :
    (c.shift offset).add element =
      Prod.map (Handle.shift offset) (Circuit.shift offset) (c.add element) := by
  rw [add, issued_shift]
  rfl

theorem connect_shift (c : Circuit) (source target : Handle) :
    (c.shift offset).connect (source.shift offset) (target.shift offset) =
      shiftResult offset (Circuit.shift offset) (c.connect source target) := by
  simp only [connect, element_shift]
  cases c.element source with
  | error e => rfl
  | ok driver =>
    cases sink : driver.isOutput with
    | true => simp [sink, shiftResult, Error.shift]
    | false =>
      cases c.element target with
      | error e => simp [sink, shiftResult]
      | ok driven =>
        cases start : driven.isInput <;>
          simp [sink, start, shiftResult, Error.shift, shift, Wire.shift, Array.map_push]

/-- The circuit with something else in the slot of a handle. -/
def replace (c : Circuit) (handle : Handle) (content : Option Element) : Circuit :=
  { c with slots := c.slots.setIfInBounds (handle.id - c.base) content }

theorem replace_shift (c : Circuit) (handle : Handle) (content : Option Element) :
    (c.shift offset).replace (handle.shift offset) content =
      (c.replace handle content).shift offset := by
  simp [replace, shift, Handle.shift, Nat.add_sub_add_right]

theorem put_eq_replace {slot : Fin c.slots.size} (placed : c.slot? handle = some slot)
    (content : Option Element) : c.put slot content = c.replace handle content := by
  have same := (slot?_eq_some_iff.mp placed).1
  have offset : handle.id - c.base = slot := by omega
  simp [put, replace, offset, Array.setIfInBounds]

theorem setInput_eq (c : Circuit) (handle : Handle) (value : Bool) :
    c.setInput handle value =
      match c.get? handle with
      | none => .error (.unknownElement handle)
      | some (.input _) => .ok (c.replace handle (some (.input value)))
      | some _ => .error (.notAnInput handle) := by
  unfold setInput get?
  cases placed : c.slot? handle with
  | none => rfl
  | some slot =>
    obtain ⟨element, held⟩ := Option.isSome_iff_exists.mp (slot?_eq_some_iff.mp placed).2
    simp only [Option.bind_some, held, put_eq_replace placed]
    cases element <;> rfl

theorem remove_eq (c : Circuit) (handle : Handle) :
    c.remove handle =
      match c.get? handle with
      | none => .error (.unknownElement handle)
      | some element =>
        .ok (element,
          { c.replace handle none with
            wires := c.wires.filter fun wire => wire.source ≠ handle && wire.target ≠ handle }) := by
  unfold remove get?
  cases placed : c.slot? handle with
  | none => rfl
  | some slot =>
    obtain ⟨element, held⟩ := Option.isSome_iff_exists.mp (slot?_eq_some_iff.mp placed).2
    simp only [Option.bind_some, held, put_eq_replace placed]

theorem setInput_shift (c : Circuit) (handle : Handle) (value : Bool) :
    (c.shift offset).setInput (handle.shift offset) value =
      shiftResult offset (Circuit.shift offset) (c.setInput handle value) := by
  rw [setInput_eq, setInput_eq, get?_shift, replace_shift]
  cases c.get? handle with
  | none => rfl
  | some element => cases element <;> rfl

theorem toggleInput_shift (c : Circuit) (handle : Handle) :
    (c.shift offset).toggleInput (handle.shift offset) =
      shiftResult offset (Prod.map id (Circuit.shift offset)) (c.toggleInput handle) := by
  simp only [toggleInput, element_shift]
  cases c.element handle with
  | error e => rfl
  | ok element =>
    cases element with
    | input value =>
      simp only [shiftResult, id, setInput_shift]
      cases c.setInput handle !value <;> rfl
    | gate kind => rfl
    | output => rfl

theorem remove_shift (c : Circuit) (handle : Handle) :
    (c.shift offset).remove (handle.shift offset) =
      shiftResult offset (Prod.map id (Circuit.shift offset)) (c.remove handle) := by
  have untouched : ((c.shift offset).wires.filter fun wire =>
        wire.source ≠ handle.shift offset && wire.target ≠ handle.shift offset) =
      (c.wires.filter fun wire => wire.source ≠ handle && wire.target ≠ handle).map
        (Wire.shift offset) := by
    rw [shift, Array.filter_map]
    congr 2
    funext wire
    simp [Wire.shift]
  rw [remove_eq, remove_eq, get?_shift, replace_shift, untouched]
  cases c.get? handle <;> rfl

theorem clear_shift (c : Circuit) : (c.shift offset).clear = c.clear.shift offset := by
  rw [clear, issued_shift]
  simp [clear, shift]

/-- What an edit of a shifted circuit answers and leaves. -/
theorem attempt_shift (c : Circuit) (change : Edit) :
    (c.shift offset).attempt (change.shift offset) =
      Prod.map (shiftResult offset (Reply.shift offset)) (Circuit.shift offset)
        (c.attempt change) := by
  cases change with
  | add element =>
    simp only [Edit.shift, attempt, add_shift]
    rfl
  | connect source target =>
    simp only [Edit.shift, attempt, connect_shift]
    cases c.connect source target <;> rfl
  | setInput handle value =>
    simp only [Edit.shift, attempt, setInput_shift]
    cases c.setInput handle value <;> rfl
  | toggleInput handle =>
    simp only [Edit.shift, attempt, toggleInput_shift]
    cases c.toggleInput handle <;> rfl
  | remove handle =>
    rw [Edit.shift, attempt_remove, attempt_remove, remove_shift]
    cases c.remove handle <;> rfl
  | clear =>
    simp only [Edit.shift, attempt, clear_shift]
    rfl

/-! ### Truth tables -/

theorem setInputs_shift (c : Circuit) (bindings : List (Handle × Bool)) :
    (c.shift offset).setInputs (bindings.map (Prod.map (Handle.shift offset) id)) =
      shiftResult offset (Circuit.shift offset) (c.setInputs bindings) := by
  induction bindings generalizing c with
  | nil => rfl
  | cons binding others ih =>
    obtain ⟨handle, value⟩ := binding
    simp only [List.map_cons, Prod.map_apply, setInputs, id, setInput_shift]
    cases c.setInput handle value with
    | error e => rfl
    | ok changed => exact ih changed

/-- A row shows the same. -/
theorem Wired.rowAlone_shift (wired : c.Wired) (index : Nat) :
    (c.shift offset).rowAlone index = shiftResult offset id (c.rowAlone index) := by
  rw [rowAlone, rowAlone, inputs_shift, outputs_shift, List.length_map, List.zip_map_left]
  simp only [setInputs_shift]
  obtain ⟨set, done⟩ := (DifferAt.refl c.inputs c).exists_set index
  have wired' : set.Wired := (differAt_set done).wired wired
  rw [done]
  simp only [shiftResult, mapM_shift wired'.valueOf_shift]
  cases c.outputs.mapM set.valueOf with
  | error e => rfl
  | ok found => simp [Except.map]

theorem Wired.truthTable_shift (wired : c.Wired) :
    (c.shift offset).truthTable =
      shiftResult offset (CircuitTable.shift offset) c.truthTable := by
  by_cases many : widestTable < c.inputs.length
  · rw [truthTable, truthTable, inputs_shift, List.length_map, if_pos many, if_pos many]
    rfl
  · have few := Nat.le_of_not_lt many
    have few' : (c.shift offset).inputs.length ≤ widestTable := by
      rwa [inputs_shift, List.length_map]
    have rows := @mapM_shift offset _ _ _ _ (List.range (1 <<< c.inputs.length)) id id c.rowAlone _
      (wired.rowAlone_shift)
    rw [truthTable_eq wired few, truthTable_eq (wired.shift offset) few', inputs_shift,
      outputs_shift, List.length_map]
    rw [List.map_id] at rows
    rw [rows]
    cases (List.range (1 <<< c.inputs.length)).mapM c.rowAlone with
    | error e => rfl
    | ok found => simp [shiftResult, Except.map, CircuitTable.shift]

/-! ### Sessions -/

/-- **A shifted circuit answers a question alike.** -/
theorem Wired.answer_shift (wired : c.Wired) (question : Query) :
    (c.shift offset).answer (question.shift offset) = (c.answer question).shift offset := by
  cases question with
  | size => exact congrArg Answer.count c.size_shift
  | contains handle => exact congrArg Answer.truth (c.contains_shift handle)
  | get handle => exact congrArg Answer.found (c.get?_shift handle)
  | element handle => exact congrArg Answer.element (c.element_shift handle)
  | fanIn handle => exact congrArg Answer.handles (c.fanIn_shift handle)
  | elements => exact congrArg Answer.elements c.elements_shift
  | wires => exact congrArg Answer.wires Array.toList_map
  | inputs => exact congrArg Answer.handles c.inputs_shift
  | outputs => exact congrArg Answer.handles c.outputs_shift
  | valueOf handle => exact congrArg Answer.value (wired.valueOf_shift handle)
  | values => exact congrArg Answer.values wired.values_shift
  | truthTable => exact congrArg Answer.table wired.truthTable_shift

/-- **A request is answered alike**, and leaves the shifted circuit. -/
theorem Wired.serve_shift (wired : c.Wired) (request : Request) :
    (c.shift offset).serve (request.shift offset) =
      Prod.map (Answer.shift offset) (Circuit.shift offset) (c.serve request) := by
  cases request with
  | edit change =>
    simp only [Request.shift, serve, attempt_shift]
    rfl
  | query question =>
    simp only [Request.shift, serve, wired.answer_shift]
    rfl

theorem Wired.serve (wired : c.Wired) (request : Request) : (c.serve request).2.Wired := by
  cases request with
  | edit change =>
    show (c.attempt change).2.Wired
    rw [attempt_snd]
    exact wired.edit change
  | query question => exact wired

/-- **So are several requests in turn.** -/
theorem Wired.answers_shift (wired : c.Wired) (requests : List Request) :
    (c.shift offset).answers (requests.map (Request.shift offset)) =
      (c.answers requests).map (Answer.shift offset) := by
  induction requests generalizing c with
  | nil => rfl
  | cons request later ih =>
    rw [List.map_cons, answers, wired.serve_shift, answers, List.map_cons]
    exact congrArg _ (ih (wired.serve request))

/-- A circuit that was cleared is the empty one, behind the handles that it has issued. -/
theorem clear_eq_shift (c : Circuit) : c.clear = empty.shift c.issued := by
  simp [clear, shift, empty]

/-- **Clearing starts afresh.** -/
theorem answers_clear (edits : List Edit) (requests : List Request) :
    let issued := (edits.filterMap Edit.added?).length
    (empty.run edits).clear.answers (requests.map (Request.shift issued)) =
      (empty.answers requests).map (Answer.shift issued) := by
  intro issued
  rw [clear_eq_shift, issued_run]
  exact Wired.empty.answers_shift requests

/-- Two handles were issued before: an inverter of itself is the third one, and the other two are
unknown. -/
example :
    (empty.run [.add (.input true), .add (.gate .not)]).clear.answers
        [.edit (.add (.gate .not)), .edit (.connect ⟨2⟩ ⟨2⟩), .query (.valueOf ⟨2⟩),
          .query (.valueOf ⟨0⟩)] =
      [.reply (.ok (.handle ⟨2⟩)), .reply (.ok .done), .value (.error (.cycle ⟨2⟩)),
        .value (.error (.unknownElement ⟨0⟩))] := by
  cbv

end Circuit

end Switching
