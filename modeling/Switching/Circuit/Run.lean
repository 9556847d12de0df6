/-
**Runs of a circuit.**

A circuit is built by edits. An edit that fails changes nothing.

* `Edited`: what an edit that succeeds does;
* `Reachable`: the circuits that edits can build from the empty one;
* `Reachable.induction`: what the empty circuit has and every edit keeps, every reachable circuit
  has.
-/

import Switching.Circuit.Basic

namespace Switching

/-- A change of a circuit. -/
inductive Edit where
  | add (element : Element)
  | connect (source target : Handle)
  | setInput (handle : Handle) (value : Bool)
  | toggleInput (handle : Handle)
  | remove (handle : Handle)
  | clear
deriving DecidableEq

namespace Circuit

/-- The circuit after an edit, or why the edit fails. -/
def edit? (c : Circuit) : Edit → Except Error Circuit
  | .add element => .ok (c.add element).2
  | .connect source target => c.connect source target
  | .setInput handle value => c.setInput handle value
  | .toggleInput handle =>
    match c.toggleInput handle with
    | .ok (_, changed) => .ok changed
    | .error e => .error e
  | .remove handle =>
    match c.remove handle with
    | .ok (_, changed) => .ok changed
    | .error e => .error e
  | .clear => .ok c.clear

/-- The circuit after an edit; one that fails leaves it as it was. -/
def edit (c : Circuit) (change : Edit) : Circuit :=
  match c.edit? change with
  | .ok changed => changed
  | .error _ => c

/-- The circuit after several edits. -/
def run (c : Circuit) (edits : List Edit) : Circuit := edits.foldl edit c

/-- The circuits that edits can build from the empty one. -/
def Reachable (c : Circuit) : Prop := ∃ edits, empty.run edits = c

@[simp] theorem run_nil (c : Circuit) : c.run [] = c := rfl

@[simp] theorem run_cons (c : Circuit) (change : Edit) (edits : List Edit) :
    c.run (change :: edits) = (c.edit change).run edits := rfl

theorem run_append (c : Circuit) (first second : List Edit) :
    c.run (first ++ second) = (c.run first).run second := by
  simp [run]

/-- Editing goes on from a circuit that edits can build. -/
theorem Reachable.run {c : Circuit} (reachable : c.Reachable) (edits : List Edit) :
    (c.run edits).Reachable := by
  obtain ⟨before, rfl⟩ := reachable
  exact ⟨before ++ edits, run_append ..⟩

/-- What an edit that succeeds does. -/
inductive Edited (c : Circuit) : Edit → Circuit → Prop
  | add (element : Element) : Edited c (.add element) (c.add element).2
  | connect {source target : Handle} {changed : Circuit}
      (done : c.connect source target = .ok changed) : Edited c (.connect source target) changed
  | setInput {handle : Handle} {value : Bool} {changed : Circuit}
      (done : c.setInput handle value = .ok changed) : Edited c (.setInput handle value) changed
  | toggleInput {handle : Handle} {value : Bool} {changed : Circuit}
      (done : c.setInput handle value = .ok changed) : Edited c (.toggleInput handle) changed
  | remove {handle : Handle} {element : Element} {changed : Circuit}
      (done : c.remove handle = .ok (element, changed)) : Edited c (.remove handle) changed
  | clear : Edited c .clear c.clear

theorem edited_of_edit? {c changed : Circuit} {change : Edit}
    (done : c.edit? change = .ok changed) : c.Edited change changed := by
  cases change with
  | add element =>
    cases done
    exact .add element
  | connect source target => exact .connect done
  | setInput handle value => exact .setInput done
  | toggleInput handle =>
    simp only [edit?] at done
    split at done
    · rename_i toggled
      cases done
      exact .toggleInput (setInput_of_toggleInput toggled)
    · cases done
  | remove handle =>
    simp only [edit?] at done
    split at done
    · rename_i removed
      cases done
      exact .remove removed
    · cases done
  | clear =>
    cases done
    exact .clear

/-- An edit does what its name says or leaves the circuit as it was. -/
theorem edited_or_eq (c : Circuit) (change : Edit) :
    c.Edited change (c.edit change) ∨ c.edit change = c := by
  unfold edit
  split
  · rename_i done
    exact .inl (edited_of_edit? done)
  · exact .inr rfl

theorem edit_eq_self_of_error {c : Circuit} {change : Edit} {e : Error}
    (failed : c.edit? change = .error e) : c.edit change = c := by
  simp [edit, failed]

/-- What the empty circuit has and every edit keeps, every reachable circuit has. -/
theorem Reachable.induction {holds : Circuit → Prop} (start : holds empty)
    (kept : ∀ c change, holds c → holds (c.edit change)) {c : Circuit} (reachable : c.Reachable) :
    holds c := by
  obtain ⟨edits, rfl⟩ := reachable
  have general : ∀ edits c, holds c → holds (c.run edits) := by
    intro edits
    induction edits with
    | nil => exact fun c here => here
    | cons change edits ih => exact fun c here => ih _ (kept c change here)
  exact general edits empty start

end Circuit

end Switching
