/-
**Input values.**

Circuits that differ in the values of inputs only have the same wires, read the same elements and
name the same cycles. Setting the inputs in which two of them differ makes them answer alike.

* `DifferAt`: two circuits differ in the values of these inputs only;
* `DifferAt.hasValue`, `DifferAt.returnsTo`: an element has a value in both or in neither, and comes
  back to the same place;
* `DifferAt.valueOf_eq_error`: evaluation fails alike in both;
* `DifferAt.valueOf_eq`: where they differ nowhere, they have the same values;
* `differAt_of_setInputs`: setting inputs changes their values only;
* `DifferAt.setInputs`: after all inputs in which two circuits differ are set, they differ nowhere;
* `exists_setInputs`: inputs can be set.
-/

import Switching.Circuit.Table
import Switching.Proofs.Circuit.Agreement

namespace Switching.Circuit

/-- Both are inputs, of whatever values. -/
def BothInputs (one other : Option Element) : Prop :=
  ∃ first second, one = some (.input first) ∧ other = some (.input second)

/-- **Two circuits differ in the values of these inputs only.** -/
structure DifferAt (handles : List Handle) (c d : Circuit) : Prop where
  wires : c.wires = d.wires
  get? : ∀ handle, c.get? handle = d.get? handle ∨
    handle ∈ handles ∧ BothInputs (c.get? handle) (d.get? handle)

namespace DifferAt

variable {handles : List Handle} {c d : Circuit} {handle : Handle}

theorem refl (handles : List Handle) (c : Circuit) : DifferAt handles c c :=
  ⟨rfl, fun _ => .inl rfl⟩

theorem trans {e : Circuit} (left : DifferAt handles c d) (right : DifferAt handles d e) :
    DifferAt handles c e := by
  refine ⟨left.wires.trans right.wires, fun handle => ?_⟩
  rcases left.get? handle with same | ⟨member, first, second, one, other⟩
  · rw [same]
    exact right.get? handle
  · rcases right.get? handle with same' | ⟨_, _, third, _, last⟩
    · exact .inr ⟨member, first, second, one, same' ▸ other⟩
    · exact .inr ⟨member, first, third, one, last⟩

theorem mono {more : List Handle} (differ : DifferAt handles c d)
    (among : ∀ handle ∈ handles, handle ∈ more) : DifferAt more c d :=
  ⟨differ.wires, fun handle =>
    (differ.get? handle).imp_right fun at_ => ⟨among handle at_.1, at_.2⟩⟩

/-! ### What does not depend on input values -/

/-- An element is there in both, of the same kind. -/
theorem live (differ : DifferAt handles c d) {element : Element}
    (live : c.get? handle = some element) :
    ∃ other, d.get? handle = some other ∧ (∀ sources, other.reads sources = element.reads sources) ∧
      other.isInput = element.isInput ∧ other.isOutput = element.isOutput := by
  rcases differ.get? handle with same | ⟨_, first, second, one, other⟩
  · exact ⟨element, same ▸ live, fun _ => rfl, rfl, rfl⟩
  · rw [live] at one
    cases one
    exact ⟨.input second, other, fun _ => rfl, rfl, rfl⟩

theorem reads (differ : DifferAt handles c d) (handle : Handle) :
    c.reads handle = d.reads handle := by
  rw [Circuit.reads, Circuit.reads, fanIn_eq_of_wires differ.wires]
  rcases differ.get? handle with same | ⟨_, first, second, one, other⟩
  · rw [same]
  · rw [one, other]
    rfl

theorem wired (differ : DifferAt handles c d) (wired : c.Wired) : d.Wired := by
  intro wire member
  rw [← differ.wires] at member
  obtain ⟨⟨driver, start, sends⟩, ⟨driven, finish, takes⟩⟩ := wired wire member
  obtain ⟨driver', start', _, _, output⟩ := differ.live start
  obtain ⟨driven', finish', _, input, _⟩ := differ.live finish
  exact ⟨⟨driver', start', output.trans sends⟩, ⟨driven', finish', input.trans takes⟩⟩

/-- **An element has a value in both circuits or in neither.** -/
theorem hasValue (differ : DifferAt handles c d) {value : Bool} (valued : c.HasValue handle value) :
    ∃ other, d.HasValue handle other := by
  classical
  induction valued with
  | @intro handle element live valuation _ ih =>
    obtain ⟨other, live', _⟩ := differ.live live
    let values : Handle → Bool := fun source => decide (d.HasValue source true)
    refine ⟨_, .intro live' values fun source read => ?_⟩
    rw [← differ.reads] at read
    obtain ⟨found, has⟩ := ih source read
    have same : values source = found := has.eq_decide
    exact same.symm ▸ has

/-- **Reading on comes back to the same place** in both circuits. -/
theorem returnsTo (differ : DifferAt handles c d) {way : List Handle} {place : Handle}
    (returns : c.ReturnsTo way handle place) : d.ReturnsTo way handle place := by
  have closed : c.Closed fun _ => True := fun _ _ _ _ => trivial
  refine returns.carry closed (fun handle _ => (differ.reads handle).symm) ?_ trivial
  exact fun handle value _ valued => differ.hasValue valued

/-- **Evaluation fails alike in both circuits**, whatever the values of the inputs are. -/
theorem valueOf_eq_error (differ : DifferAt handles c d) (wired : c.Wired) {e : Error}
    (failed : c.valueOf handle = .error e) : d.valueOf handle = .error e := by
  cases live : c.get? handle with
  | none =>
    rw [valueOf_of_get?_eq_none live] at failed
    have gone : d.get? handle = none := by
      rcases differ.get? handle with same | ⟨_, first, _, one, _⟩
      · exact same ▸ live
      · rw [live] at one
        cases one
    rw [valueOf_of_get?_eq_none gone, failed]
  | some element =>
    obtain ⟨other, live', _⟩ := differ.live live
    obtain ⟨place, rfl, back⟩ := (wired.valueOf_eq_error_iff live).mp failed
    exact ((differ.wired wired).valueOf_eq_error_iff live').mpr ⟨place, rfl, differ.returnsTo back⟩

theorem valueOf_eq_ok (differ : DifferAt handles c d) (wired : c.Wired) {value : Bool}
    (found : c.valueOf handle = .ok value) : ∃ other, d.valueOf handle = .ok other := by
  obtain ⟨other, has⟩ := differ.hasValue (wired.valueOf_eq_ok_iff.mp found)
  exact ⟨other, (differ.wired wired).valueOf_eq_ok_iff.mpr has⟩

/-- **Circuits that differ nowhere have the same values.** -/
theorem valueOf_eq (differ : DifferAt [] c d) (wired : c.Wired) (handle : Handle) :
    d.valueOf handle = c.valueOf handle := by
  have agree : AgreeOn (fun _ => True) c d := by
    refine ⟨fun _ _ _ _ => trivial, fun handle _ => ?_, fun handle _ => (differ.reads handle).symm⟩
    rcases differ.get? handle with same | ⟨member, _⟩
    · exact same.symm
    · cases member
  exact agree.valueOf_eq wired (differ.wired wired) trivial

end DifferAt

/-! ### Setting inputs -/

variable {c changed : Circuit} {handle : Handle} {value : Bool}

theorem differAt_of_setInput (done : c.setInput handle value = .ok changed) :
    DifferAt [handle] c changed := by
  obtain ⟨old, input⟩ := isInput_of_setInput done
  refine ⟨(wires_setInput done).symm, fun other => ?_⟩
  rw [get?_setInput done]
  split
  · rename_i same
    subst same
    exact .inr ⟨List.mem_singleton.mpr rfl, old, value, input, rfl⟩
  · exact .inl rfl

/-- **Setting inputs changes their values only.** -/
theorem differAt_of_setInputs {bindings : List (Handle × Bool)}
    (done : c.setInputs bindings = .ok changed) : DifferAt (bindings.map Prod.fst) c changed := by
  induction bindings generalizing c with
  | nil =>
    cases done
    exact .refl _ _
  | cons binding others ih =>
    obtain ⟨set, first, rest⟩ := setInputs_cons_eq_ok_iff.mp done
    refine ((differAt_of_setInput first).mono ?_).trans ((ih rest).mono ?_)
    · intro other member
      rw [List.mem_singleton.mp member]
      exact List.mem_cons_self ..
    · exact fun other member => List.mem_cons_of_mem _ member

/-- Setting an input in both circuits, they no longer differ there. -/
theorem DifferAt.setInput {handles : List Handle} {d changed' : Circuit}
    (differ : DifferAt (handle :: handles) c d) (done : c.setInput handle value = .ok changed)
    (done' : d.setInput handle value = .ok changed') : DifferAt handles changed changed' := by
  refine ⟨?_, fun other => ?_⟩
  · rw [wires_setInput done, wires_setInput done', differ.wires]
  · rw [get?_setInput done, get?_setInput done']
    split
    · exact .inl rfl
    · rename_i different
      refine (differ.get? other).imp_right fun at_ => ⟨?_, at_.2⟩
      exact (List.mem_cons.mp at_.1).resolve_left different

/-- **Setting all inputs in which two circuits differ**, they differ nowhere. -/
theorem DifferAt.setInputs {bindings : List (Handle × Bool)} {d changed' : Circuit}
    (differ : DifferAt (bindings.map Prod.fst) c d) (done : c.setInputs bindings = .ok changed)
    (done' : d.setInputs bindings = .ok changed') : DifferAt [] changed changed' := by
  induction bindings generalizing c d with
  | nil =>
    cases done
    cases done'
    exact differ
  | cons binding others ih =>
    obtain ⟨set, first, rest⟩ := setInputs_cons_eq_ok_iff.mp done
    obtain ⟨set', first', rest'⟩ := setInputs_cons_eq_ok_iff.mp done'
    exact ih (DifferAt.setInput differ first first') rest rest'

/-- **Inputs can be set**, one after another. -/
theorem exists_setInputs {bindings : List (Handle × Bool)}
    (inputs : ∀ binding ∈ bindings, ∃ old, c.get? binding.1 = some (.input old)) :
    ∃ changed, c.setInputs bindings = .ok changed := by
  induction bindings generalizing c with
  | nil => exact ⟨c, rfl⟩
  | cons binding others ih =>
    obtain ⟨handle, value⟩ := binding
    obtain ⟨⟨old, here⟩, there⟩ := List.forall_mem_cons.mp inputs
    obtain ⟨set, done⟩ := exists_setInput here value
    have inputs : ∀ other ∈ others, ∃ old, set.get? other.1 = some (.input old) := by
      intro other member
      rw [get?_setInput done]
      split
      · exact ⟨value, rfl⟩
      · exact there other member
    obtain ⟨changed, rest⟩ := ih inputs
    exact ⟨changed, setInputs_cons_eq_ok_iff.mpr ⟨set, done, rest⟩⟩

end Switching.Circuit
