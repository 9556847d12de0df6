/-
**Circuits.**

A circuit keeps a slot for every element that was added since it was last cleared, in the order of
the handles, and the wires in the order in which they were connected. Removing an element empties
its slot, and clearing moves the first handle behind all that were issued, so handles are never used
again.

* `get?_eq_some_iff`: the element of a handle stands in the handle's slot;
* `get?_add_self`, `get?_add_of_ne`: adding an element binds the next handle and no other;
* `connect_eq_ok_iff`: a wire is added when both ends exist, the first is no output and the second
  no input;
* `setInput_eq_ok_iff`, `remove_eq_ok_iff`: what setting an input and removing an element change;
* `get?_clear`: nothing is left after clearing.
-/

import Switching.Circuit.Element
import Switching.Error

namespace Switching

/-- A wire from one element to another. -/
structure Wire where
  source : Handle
  target : Handle
deriving DecidableEq

/-- Elements and the wires between them. -/
structure Circuit where
  /-- The handle of the first slot. All lower ones were issued before the circuit was cleared. -/
  base : Nat
  /-- The elements by handle; the slot of a removed element is empty. -/
  slots : Array (Option Element)
  /-- The wires in the order in which they were connected. -/
  wires : Array Wire
deriving DecidableEq

namespace Circuit

/-- The circuit without elements. -/
def empty : Circuit := ⟨0, #[], #[]⟩

/-! ### Queries -/

/-- The number of elements that were ever added. -/
def issued (c : Circuit) : Nat := c.base + c.slots.size

/-- The slot of a handle, if there is an element in it. -/
def slot? (c : Circuit) (handle : Handle) : Option (Fin c.slots.size) :=
  if placed : c.base ≤ handle.id ∧ handle.id - c.base < c.slots.size then
    if c.slots[handle.id - c.base].isSome then some ⟨handle.id - c.base, placed.2⟩ else none
  else none

/-- The element of a handle, if there is one. -/
def get? (c : Circuit) (handle : Handle) : Option Element :=
  (c.slot? handle).bind fun slot => c.slots[slot]

/-- The element of a handle. -/
def element (c : Circuit) (handle : Handle) : Except Error Element :=
  match c.get? handle with
  | some element => .ok element
  | none => .error (.unknownElement handle)

/-- Whether there is an element of this handle. -/
def contains (c : Circuit) (handle : Handle) : Bool := (c.slot? handle).isSome

/-- The elements with their handles in order. -/
def elements (c : Circuit) : List (Handle × Element) :=
  (c.slots.toList.zipIdx c.base).filterMap fun (slot, id) =>
    slot.map fun element => (⟨id⟩, element)

/-- The number of elements. -/
def size (c : Circuit) : Nat := c.elements.length

/-- The handles of all elements in order. -/
def handles (c : Circuit) : List Handle := c.elements.map Prod.fst

/-- The handles of the elements of some kind, in order. -/
def handlesWhere (c : Circuit) (kind : Element → Bool) : List Handle :=
  (c.elements.filter fun entry => kind entry.2).map Prod.fst

/-- The inputs in order. -/
def inputs (c : Circuit) : List Handle := c.handlesWhere Element.isInput

/-- The outputs in order. -/
def outputs (c : Circuit) : List Handle := c.handlesWhere Element.isOutput

/-- The sources of the wires that end at a handle, in the order of the wires. -/
def fanIn (c : Circuit) (handle : Handle) : List Handle :=
  (c.wires.filterMap fun wire => if wire.target = handle then some wire.source else none).toList

/-! ### Changes -/

/-- Adds an element under the next handle. -/
def add (c : Circuit) (element : Element) : Handle × Circuit :=
  (⟨c.issued⟩, { c with slots := c.slots.push (some element) })

/-- Adds a wire. Wires may be repeated and may close cycles. -/
def connect (c : Circuit) (source target : Handle) : Except Error Circuit :=
  match c.element source with
  | .error e => .error e
  | .ok driver =>
    if driver.isOutput then .error (.invalidWire source target .fromOutput)
    else
      match c.element target with
      | .error e => .error e
      | .ok driven =>
        if driven.isInput then .error (.invalidWire source target .intoInput)
        else .ok { c with wires := c.wires.push ⟨source, target⟩ }

/-- Replaces what is in a slot. -/
def put (c : Circuit) (slot : Fin c.slots.size) (content : Option Element) : Circuit :=
  { c with slots := c.slots.set slot content }

/-- What is in a slot, and the circuit with the slot empty. -/
def take (c : Circuit) (slot : Fin c.slots.size) : Option Element × Circuit :=
  (c.slots[slot], c.put slot none)

/-- Sets the value of an input. -/
def setInput (c : Circuit) (handle : Handle) (value : Bool) : Except Error Circuit :=
  match c.slot? handle with
  | none => .error (.unknownElement handle)
  | some slot =>
    match c.slots[slot] with
    | some (.input _) => .ok (c.put slot (some (.input value)))
    | _ => .error (.notAnInput handle)

/-- Inverts the value of an input; the new value comes with the circuit. -/
def toggleInput (c : Circuit) (handle : Handle) : Except Error (Bool × Circuit) :=
  match c.element handle with
  | .error e => .error e
  | .ok (.input value) =>
    match c.setInput handle !value with
    | .error e => .error e
    | .ok changed => .ok (!value, changed)
  | .ok _ => .error (.notAnInput handle)

/-- Removes an element and the wires that touch it; the element comes with the circuit. -/
def remove (c : Circuit) (handle : Handle) : Except Error (Element × Circuit) :=
  match c.slot? handle with
  | none => .error (.unknownElement handle)
  | some slot =>
    match c.slots[slot] with
    | none => .error (.unknownElement handle)
    | some element =>
      .ok (element,
        { c.put slot none with
          wires := c.wires.filter fun wire => wire.source ≠ handle && wire.target ≠ handle })

/-- Removes all elements and wires. -/
def clear (c : Circuit) : Circuit := ⟨c.issued, #[], #[]⟩

/-! ### Laws -/

@[ext] theorem ext {c d : Circuit} (base : c.base = d.base) (slots : c.slots = d.slots)
    (wires : c.wires = d.wires) : c = d := by
  cases c; cases d; simp_all

theorem setInput_eq_ok_iff {c changed : Circuit} {handle : Handle} {value : Bool} :
    c.setInput handle value = .ok changed ↔
      ∃ slot old, c.slot? handle = some slot ∧ c.slots[slot] = some (.input old) ∧
        c.put slot (some (.input value)) = changed := by
  unfold setInput
  cases c.slot? handle with
  | none => simp only [reduceCtorEq, false_and, exists_false]
  | some slot =>
    cases held : c.slots[slot.1] with
    | none => simp only [held, Fin.getElem_fin, reduceCtorEq, Option.some.injEq, exists_and_left,
        exists_eq_left', false_and, exists_false]
    | some element =>
      cases element <;>
        simp only [held, Fin.getElem_fin, reduceCtorEq, Except.ok.injEq, Option.some.injEq,
          Element.input.injEq, exists_and_left, exists_eq_left', false_and, exists_false]

/-- Removing an element empties its slot and takes the wires that touch it. -/
theorem remove_eq_ok_iff {c changed : Circuit} {handle : Handle} {element : Element} :
    c.remove handle = .ok (element, changed) ↔
      ∃ slot, c.slot? handle = some slot ∧ c.slots[slot] = some element ∧
        { c.put slot none with
          wires := c.wires.filter fun wire => wire.source ≠ handle && wire.target ≠ handle } =
          changed := by
  unfold remove
  cases c.slot? handle with
  | none => simp only [reduceCtorEq, false_and, exists_false]
  | some slot =>
    cases held : c.slots[slot.1] <;>
      simp only [held, Fin.getElem_fin, reduceCtorEq, Except.ok.injEq, Prod.mk.injEq,
        Option.some.injEq, exists_eq_left', false_and]

theorem fanIn_eq_of_wires {c d : Circuit} (same : d.wires = c.wires) (handle : Handle) :
    d.fanIn handle = c.fanIn handle := by
  rw [fanIn, fanIn, same]

/-- A handle's slot is as far behind the first one as the handle is. -/
theorem slot?_eq_some_iff {c : Circuit} {handle : Handle} {slot : Fin c.slots.size} :
    c.slot? handle = some slot ↔ handle.id = c.base + slot ∧ c.slots[slot].isSome = true := by
  obtain ⟨place, inside⟩ := slot
  unfold slot?
  constructor
  · intro found
    split at found
    · rename_i placed
      split at found
      · rename_i filled
        cases found
        exact ⟨by simp only; omega, filled⟩
      · cases found
    · cases found
  · rintro ⟨same, filled⟩
    have offset : handle.id - c.base = place := by simp only at same; omega
    subst offset
    have placed : c.base ≤ handle.id ∧ handle.id - c.base < c.slots.size :=
      ⟨by simp only at same; omega, inside⟩
    rw [dif_pos placed]
    exact if_pos filled

/-- The element of a handle stands in the handle's slot. -/
theorem get?_eq_some_iff {c : Circuit} {handle : Handle} {element : Element} :
    c.get? handle = some element ↔
      ∃ place, handle.id = c.base + place ∧ c.slots[place]? = some (some element) := by
  unfold get?
  rw [Option.bind_eq_some_iff]
  constructor
  · rintro ⟨slot, found, held⟩
    exact ⟨slot, (slot?_eq_some_iff.mp found).1, Array.getElem?_eq_some_iff.mpr ⟨slot.2, held⟩⟩
  · rintro ⟨place, same, held⟩
    obtain ⟨inside, held⟩ := Array.getElem?_eq_some_iff.mp held
    refine ⟨⟨place, inside⟩, slot?_eq_some_iff.mpr ⟨same, ?_⟩, held⟩
    show (c.slots[place]).isSome = true
    rw [held]
    rfl

theorem isSome_get? (c : Circuit) (handle : Handle) :
    (c.get? handle).isSome = (c.slot? handle).isSome := by
  unfold get?
  cases found : c.slot? handle with
  | none => rfl
  | some slot => exact (slot?_eq_some_iff.mp found).2

@[simp] theorem get?_empty (handle : Handle) : empty.get? handle = none := by
  simp [get?, slot?, empty]

theorem id_lt_of_get?_eq_some {c : Circuit} {handle : Handle} {element : Element}
    (live : c.get? handle = some element) : handle.id < c.issued := by
  obtain ⟨place, same, held⟩ := get?_eq_some_iff.mp live
  obtain ⟨inside, _⟩ := Array.getElem?_eq_some_iff.mp held
  unfold issued
  omega

/-- The next handle is a new one. -/
theorem get?_issued (c : Circuit) : c.get? ⟨c.issued⟩ = none := by
  cases live : c.get? ⟨c.issued⟩ with
  | none => rfl
  | some found => exact absurd (id_lt_of_get?_eq_some live) (Nat.lt_irrefl _)

theorem ne_issued_of_get? {c : Circuit} {handle : Handle} {element : Element}
    (live : c.get? handle = some element) : handle ≠ ⟨c.issued⟩ := by
  rintro rfl
  cases c.get?_issued.symm.trans live

/-- Only the handle of the slot is affected. -/
theorem get?_put (c : Circuit) (slot : Fin c.slots.size) (content : Option Element)
    (handle : Handle) :
    (c.put slot content).get? handle =
      if handle.id = c.base + slot then content else c.get? handle := by
  refine Option.ext fun element => ?_
  rw [get?_eq_some_iff]
  simp only [put, Array.getElem?_set]
  split
  · rename_i here
    constructor
    · rintro ⟨place, same, held⟩
      obtain rfl : slot.1 = place := by omega
      simpa using held
    · intro held
      exact ⟨slot, here, by simpa using held⟩
  · rename_i elsewhere
    rw [get?_eq_some_iff]
    constructor
    · rintro ⟨place, same, held⟩
      have other : slot.1 ≠ place := by omega
      exact ⟨place, same, by simpa [other] using held⟩
    · rintro ⟨place, same, held⟩
      have other : slot.1 ≠ place := by omega
      exact ⟨place, same, by simpa [other] using held⟩

/-- Adding an element binds the next handle and no other. -/
theorem get?_add (c : Circuit) (element : Element) (handle : Handle) :
    (c.add element).2.get? handle =
      if handle = (c.add element).1 then some element else c.get? handle := by
  have next : handle = (c.add element).1 ↔ handle.id = c.base + c.slots.size := by
    cases handle
    simp [add, issued]
  refine Option.ext fun found => ?_
  rw [get?_eq_some_iff]
  simp only [next]
  simp only [add, Array.getElem?_push]
  split
  · rename_i here
    constructor
    · rintro ⟨place, same, held⟩
      obtain rfl : place = c.slots.size := by omega
      simpa using held
    · intro held
      exact ⟨c.slots.size, here, by simpa using held⟩
  · rename_i elsewhere
    rw [get?_eq_some_iff]
    constructor
    · rintro ⟨place, same, held⟩
      have other : place ≠ c.slots.size := by omega
      exact ⟨place, same, by simpa [other] using held⟩
    · rintro ⟨place, same, held⟩
      have other : place ≠ c.slots.size := by omega
      exact ⟨place, same, by simpa [other] using held⟩

@[simp] theorem get?_add_self (c : Circuit) (element : Element) :
    (c.add element).2.get? (c.add element).1 = some element := by
  rw [get?_add, if_pos rfl]

theorem get?_add_of_ne {c : Circuit} {element : Element} {handle : Handle}
    (other : handle ≠ (c.add element).1) : (c.add element).2.get? handle = c.get? handle := by
  rw [get?_add, if_neg other]

/-- What is there stays when an element is added. -/
theorem get?_add_of_get? {c : Circuit} {handle : Handle} {found : Element}
    (live : c.get? handle = some found) (element : Element) :
    (c.add element).2.get? handle = some found :=
  (get?_add_of_ne (ne_issued_of_get? live)).trans live

theorem element_eq_ok_iff {c : Circuit} {handle : Handle} {found : Element} :
    c.element handle = .ok found ↔ c.get? handle = some found := by
  unfold element
  cases c.get? handle <;> simp

theorem issued_add (c : Circuit) (element : Element) :
    (c.add element).2.issued = c.issued + 1 := by
  simp [add, issued, Nat.add_assoc]

theorem contains_eq_true_iff {c : Circuit} {handle : Handle} :
    c.contains handle = true ↔ ∃ element, c.get? handle = some element := by
  rw [contains, ← isSome_get?, Option.isSome_iff_exists]

theorem slot?_of_not_contains {c : Circuit} {handle : Handle}
    (gone : c.contains handle = false) : c.slot? handle = none :=
  Option.isSome_eq_false_iff.mp gone |> Option.isNone_iff_eq_none.mp

theorem element_of_not_contains {c : Circuit} {handle : Handle}
    (gone : c.contains handle = false) :
    c.element handle = .error (.unknownElement handle) := by
  rw [element, get?, slot?_of_not_contains gone]
  rfl

/-- A wire is added when both ends exist, the first is no output and the second no input. -/
theorem connect_eq_ok_iff {c changed : Circuit} {source target : Handle} :
    c.connect source target = .ok changed ↔
      ∃ driver driven, c.get? source = some driver ∧ driver.isOutput = false ∧
        c.get? target = some driven ∧ driven.isInput = false ∧
        { c with wires := c.wires.push ⟨source, target⟩ } = changed := by
  unfold connect element
  cases c.get? source with
  | none => simp only [reduceCtorEq, false_and, exists_false]
  | some driver =>
    cases sink : driver.isOutput with
    | true => simp only [sink, if_true, reduceCtorEq, Option.some.injEq, exists_and_left,
        exists_eq_left', false_and]
    | false =>
      cases c.get? target with
      | none => simp only [sink, Bool.false_eq_true, if_false, reduceCtorEq, false_and, and_false,
          exists_false]
      | some driven =>
        cases start : driven.isInput <;>
          simp only [sink, start, Bool.false_eq_true, if_true, if_false, reduceCtorEq,
            Except.ok.injEq, Option.some.injEq, exists_and_left, exists_eq_left', true_and,
            false_and]

theorem issued_connect {c changed : Circuit} {source target : Handle}
    (done : c.connect source target = .ok changed) : changed.issued = c.issued := by
  obtain ⟨_, _, _, _, _, _, rfl⟩ := connect_eq_ok_iff.mp done
  rfl

theorem get?_connect {c changed : Circuit} {source target : Handle}
    (done : c.connect source target = .ok changed) (handle : Handle) :
    changed.get? handle = c.get? handle := by
  obtain ⟨_, _, _, _, _, _, rfl⟩ := connect_eq_ok_iff.mp done
  rfl

theorem handle_eq_iff {c : Circuit} {handle other : Handle} {slot : Fin c.slots.size}
    (placed : c.slot? handle = some slot) : other = handle ↔ other.id = c.base + slot := by
  have same := (slot?_eq_some_iff.mp placed).1
  rw [← same]
  cases handle
  cases other
  simp

theorem exists_remove {c : Circuit} {handle : Handle} {element : Element}
    (live : c.get? handle = some element) :
    ∃ changed, c.remove handle = .ok (element, changed) := by
  obtain ⟨slot, placed, held⟩ := Option.bind_eq_some_iff.mp live
  exact ⟨_, remove_eq_ok_iff.mpr ⟨slot, placed, held, rfl⟩⟩

theorem get?_setInput {c changed : Circuit} {handle : Handle} {value : Bool}
    (done : c.setInput handle value = .ok changed) (other : Handle) :
    changed.get? other = if other = handle then some (.input value) else c.get? other := by
  obtain ⟨slot, old, placed, _, rfl⟩ := setInput_eq_ok_iff.mp done
  rw [get?_put]
  simp only [handle_eq_iff placed]

theorem isInput_of_setInput {c changed : Circuit} {handle : Handle} {value : Bool}
    (done : c.setInput handle value = .ok changed) : ∃ old, c.get? handle = some (.input old) := by
  obtain ⟨slot, old, placed, held, _⟩ := setInput_eq_ok_iff.mp done
  refine ⟨old, ?_⟩
  rw [get?, placed]
  exact held

theorem wires_setInput {c changed : Circuit} {handle : Handle} {value : Bool}
    (done : c.setInput handle value = .ok changed) : changed.wires = c.wires := by
  obtain ⟨slot, old, _, _, rfl⟩ := setInput_eq_ok_iff.mp done
  rfl

theorem issued_setInput {c changed : Circuit} {handle : Handle} {value : Bool}
    (done : c.setInput handle value = .ok changed) : changed.issued = c.issued := by
  obtain ⟨slot, old, _, _, rfl⟩ := setInput_eq_ok_iff.mp done
  simp [put, issued]

theorem exists_setInput {c : Circuit} {handle : Handle} {old : Bool}
    (input : c.get? handle = some (.input old)) (value : Bool) :
    ∃ changed, c.setInput handle value = .ok changed := by
  obtain ⟨slot, placed, held⟩ := Option.bind_eq_some_iff.mp input
  exact ⟨_, setInput_eq_ok_iff.mpr ⟨slot, old, placed, held, rfl⟩⟩

/-- Inverting an input sets it to the inverse of its value. -/
theorem toggleInput_eq_ok_iff {c changed : Circuit} {handle : Handle} {value : Bool} :
    c.toggleInput handle = .ok (value, changed) ↔
      c.get? handle = some (.input !value) ∧ c.setInput handle value = .ok changed := by
  unfold toggleInput element
  cases c.get? handle with
  | none => simp
  | some element =>
    cases element with
    | input old =>
      have inverse : old = !value ↔ (!old) = value := by cases old <;> cases value <;> simp
      simp only [Option.some.injEq, Element.input.injEq, inverse]
      cases set : c.setInput handle !old with
      | ok found =>
        constructor
        · rintro ⟨⟩
          exact ⟨rfl, set⟩
        · rintro ⟨rfl, done⟩
          cases set.symm.trans done
          rfl
      | error e =>
        refine iff_of_false nofun ?_
        rintro ⟨rfl, done⟩
        cases set.symm.trans done
    | gate kind => simp
    | output => simp

theorem setInput_of_toggleInput {c changed : Circuit} {handle : Handle} {value : Bool}
    (done : c.toggleInput handle = .ok (value, changed)) :
    c.setInput handle value = .ok changed :=
  (toggleInput_eq_ok_iff.mp done).2

theorem issued_remove {c changed : Circuit} {handle : Handle} {element : Element}
    (done : c.remove handle = .ok (element, changed)) : changed.issued = c.issued := by
  obtain ⟨slot, _, _, rfl⟩ := remove_eq_ok_iff.mp done
  simp [put, issued]

theorem get?_remove {c changed : Circuit} {handle : Handle} {element : Element}
    (done : c.remove handle = .ok (element, changed)) (other : Handle) :
    changed.get? other = if other = handle then none else c.get? other := by
  obtain ⟨slot, placed, _, rfl⟩ := remove_eq_ok_iff.mp done
  show (c.put slot none).get? other = _
  rw [get?_put]
  simp only [handle_eq_iff placed]

theorem mem_wires_remove {c changed : Circuit} {handle : Handle} {element : Element}
    (done : c.remove handle = .ok (element, changed)) {wire : Wire} :
    wire ∈ changed.wires ↔ wire ∈ c.wires ∧ wire.source ≠ handle ∧ wire.target ≠ handle := by
  obtain ⟨slot, _, _, rfl⟩ := remove_eq_ok_iff.mp done
  simp

@[simp] theorem get?_clear (c : Circuit) (handle : Handle) : c.clear.get? handle = none := by
  simp [get?, slot?, clear]

@[simp] theorem issued_clear (c : Circuit) : c.clear.issued = c.issued := by
  simp [clear, issued]

end Circuit

end Switching
