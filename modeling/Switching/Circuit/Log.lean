/-
**The log of a run.**

An edit takes place on a circuit and answers something, also where it fails. The log of a run keeps
every edit with its answer, in order.

* `attempted`: what an edit answers and leaves;
* `attempt_snd`: it leaves the edited circuit;
* `attempt_snd_of_error`: where it answers an error, nothing has changed;
* `log_append`: a longer run has a longer log.
-/

import Switching.Circuit.Run

namespace Switching

/-- What an edit that succeeds answers. -/
inductive Reply where
  | handle (handle : Handle)
  | done
  | value (value : Bool)
  | element (element : Element)
deriving DecidableEq

/-- The element that an edit adds. -/
def Edit.added? : Edit → Option Element
  | .add element => some element
  | _ => none

/-- An edit and what it answered. -/
structure Entry where
  change : Edit
  answer : Except Error Reply

namespace Entry

/-- The handle that was issued, and the element that it was issued for. -/
def issued? : Entry → Option (Handle × Element)
  | ⟨.add element, .ok (.handle handle)⟩ => some (handle, element)
  | _ => none

/-- The value that the input of a handle got: the one it was set to, or the one that inverting it
answered. -/
def written? (handle : Handle) : Entry → Option Bool
  | ⟨.setInput input value, .ok _⟩ => if input = handle then some value else none
  | ⟨.toggleInput input, .ok (.value value)⟩ => if input = handle then some value else none
  | _ => none

/-- The element of a handle stays: neither all elements nor this one were removed. -/
def Spares (handle : Handle) : Entry → Prop
  | ⟨.clear, .ok _⟩ => False
  | ⟨.remove removed, .ok _⟩ => removed ≠ handle
  | _ => True

end Entry

/-- The element with the last value that was written to it, if it is an input. -/
def Element.holding : Element → Option Bool → Element
  | .input _, some value => .input value
  | element, _ => element

/-! ### Laws of entries -/

theorem Element.holding_none (element : Element) : element.holding none = element := by
  cases element <;> rfl

/-- What is written later counts. -/
theorem Element.holding_holding (element : Element) (first second : Option Bool) :
    (element.holding first).holding second = element.holding (second.or first) := by
  cases element <;> cases first <;> cases second <;> rfl

namespace Entry

variable {entry : Entry} {handle : Handle} {element : Element}

theorem issued?_eq_some_iff :
    entry.issued? = some (handle, element) ↔ entry = ⟨.add element, .ok (.handle handle)⟩ := by
  constructor
  · intro issued
    unfold issued? at issued
    split at issued
    · cases issued
      rfl
    · cases issued
  · rintro rfl
    rfl

theorem issued?_eq_none {change : Edit} (other : change.added? = none)
    (answer : Except Error Reply) : issued? ⟨change, answer⟩ = none := by
  cases change with
  | add element => cases other
  | _ => rfl

theorem spares_refused (handle : Handle) (change : Edit) (e : Error) :
    Spares handle ⟨change, .error e⟩ := by
  cases change <;> exact trivial

theorem written?_refused (handle : Handle) (change : Edit) (e : Error) :
    written? handle ⟨change, .error e⟩ = none := by
  cases change <;> rfl

end Entry

namespace Circuit

/-- The answer and the circuit after an edit that leaves the circuit as it was where it fails. -/
def settle (c : Circuit) : Except Error (Reply × Circuit) → Except Error Reply × Circuit
  | .ok (reply, changed) => (.ok reply, changed)
  | .error e => (.error e, c)

/-- An edit as it takes place: what it answers, and the circuit that it leaves. An element that is
removed takes its wires along before its slot is emptied. -/
def attempt (c : Circuit) : Edit → Except Error Reply × Circuit
  | .add element => (.ok (.handle (c.add element).1), (c.add element).2)
  | .connect source target => c.settle ((c.connect source target).map (.done, ·))
  | .setInput handle value => c.settle ((c.setInput handle value).map (.done, ·))
  | .toggleInput handle =>
    c.settle ((c.toggleInput handle).map fun (value, changed) => (.value value, changed))
  | .remove handle =>
    match c.slot? handle with
    | none => (.error (.unknownElement handle), c)
    | some slot =>
      let cut : Circuit :=
        { c with wires := c.wires.filter fun wire => wire.source ≠ handle && wire.target ≠ handle }
      match cut.take slot with
      | (none, left) => (.error (.unknownElement handle), left)
      | (some element, left) => (.ok (.element element), left)
  | .clear => (.ok .done, c.clear)

/-- The edits of a run with their answers. -/
def log (c : Circuit) : List Edit → List Entry
  | [] => []
  | change :: edits => ⟨change, (c.attempt change).1⟩ :: (c.attempt change).2.log edits

/-- What an edit answers and leaves. -/
inductive Attempted (c : Circuit) : Edit → Except Error Reply → Circuit → Prop
  | refused {change : Edit} {e : Error} (failed : c.edit? change = .error e) :
      Attempted c change (.error e) c
  | add (element : Element) :
      Attempted c (.add element) (.ok (.handle (c.add element).1)) (c.add element).2
  | connect {source target : Handle} {changed : Circuit}
      (done : c.connect source target = .ok changed) :
      Attempted c (.connect source target) (.ok .done) changed
  | setInput {handle : Handle} {value : Bool} {changed : Circuit}
      (done : c.setInput handle value = .ok changed) :
      Attempted c (.setInput handle value) (.ok .done) changed
  | toggleInput {handle : Handle} {value : Bool} {changed : Circuit}
      (done : c.toggleInput handle = .ok (value, changed)) :
      Attempted c (.toggleInput handle) (.ok (.value value)) changed
  | remove {handle : Handle} {element : Element} {changed : Circuit}
      (done : c.remove handle = .ok (element, changed)) :
      Attempted c (.remove handle) (.ok (.element element)) changed
  | clear : Attempted c .clear (.ok .done) c.clear

/-- A slot that is found is not empty, so no wires are taken where nothing is removed. -/
theorem attempt_remove (c : Circuit) (handle : Handle) :
    c.attempt (.remove handle) =
      c.settle ((c.remove handle).map fun (element, changed) => (.element element, changed)) := by
  simp only [attempt, remove]
  cases found : c.slot? handle with
  | none => rfl
  | some slot =>
    obtain ⟨_, filled⟩ := slot?_eq_some_iff.mp found
    obtain ⟨element, held⟩ := Option.isSome_iff_exists.mp filled
    simp only [take, held]
    rfl

/-- An edit answers and leaves one of these. -/
theorem attempted (c : Circuit) (change : Edit) :
    c.Attempted change (c.attempt change).1 (c.attempt change).2 := by
  cases change with
  | add element => exact .add element
  | connect source target =>
    simp only [attempt]
    cases done : c.connect source target with
    | ok changed => exact .connect done
    | error e =>
      have failed : c.edit? (.connect source target) = .error e := done
      exact .refused failed
  | setInput handle value =>
    simp only [attempt]
    cases done : c.setInput handle value with
    | ok changed => exact .setInput done
    | error e =>
      have failed : c.edit? (.setInput handle value) = .error e := done
      exact .refused failed
  | toggleInput handle =>
    simp only [attempt]
    cases done : c.toggleInput handle with
    | ok answer => exact .toggleInput done
    | error e =>
      have failed : c.edit? (.toggleInput handle) = .error e := by simp only [edit?, done]
      exact .refused failed
  | remove handle =>
    rw [attempt_remove]
    cases done : c.remove handle with
    | ok answer => exact .remove done
    | error e =>
      have failed : c.edit? (.remove handle) = .error e := by simp only [edit?, done]
      exact .refused failed
  | clear => exact .clear

/-- What an edit leaves is the edited circuit. -/
theorem Attempted.eq_edit {c left : Circuit} {change : Edit} {answer : Except Error Reply}
    (attempted : c.Attempted change answer left) : left = c.edit change := by
  cases attempted with
  | refused failed => exact (edit_eq_self_of_error failed).symm
  | add element => rfl
  | connect done => simp only [edit, edit?, done]
  | setInput done => simp only [edit, edit?, done]
  | toggleInput done => simp only [edit, edit?, done]
  | remove done => simp only [edit, edit?, done]
  | clear => rfl

theorem Attempted.eq_self {c left : Circuit} {change : Edit} {e : Error}
    (attempted : c.Attempted change (.error e) left) : left = c := by
  cases attempted
  rfl

@[simp] theorem attempt_snd (c : Circuit) (change : Edit) :
    (c.attempt change).2 = c.edit change :=
  (c.attempted change).eq_edit

/-- **An edit that answers an error changes nothing.** -/
theorem attempt_snd_of_error {c : Circuit} {change : Edit} {e : Error}
    (failed : (c.attempt change).1 = .error e) : (c.attempt change).2 = c := by
  have attempted := c.attempted change
  rw [failed] at attempted
  exact attempted.eq_self

/-- Adding an element cannot fail. -/
theorem added?_of_edit?_eq_error {c : Circuit} {change : Edit} {e : Error}
    (failed : c.edit? change = .error e) : change.added? = none := by
  cases change with
  | add element => cases failed
  | _ => rfl

theorem log_append (c : Circuit) (first second : List Edit) :
    c.log (first ++ second) = c.log first ++ (c.run first).log second := by
  induction first generalizing c with
  | nil => rfl
  | cons change first ih =>
    rw [List.cons_append, log, log, ih, List.cons_append, attempt_snd, run_cons]

end Circuit

end Switching
