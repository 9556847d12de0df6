/-
**Undoing.**

An element that was just added, and connected with others or with itself in whatever way, is removed
without a trace. Its handle is new, so no wire from before touches it, and every wire that was
connected since then does; removing it takes exactly these. What is left has the same elements under
the same handles and the same wires in the same order, which is all that an answer depends on: the
slot that stays empty is not seen. Only the next handle is another one.

* `elements_eq_of_get?`: the listing of the elements follows from what the handles refer to;
* `DifferAt.answer_eq`: circuits that differ nowhere answer every question alike;
* `Grown`: a circuit has one more element, and perhaps wires that touch it;
* `Grown.edit`, `Grown.run`: connecting that element keeps this;
* `Grown.attempt_remove`: removing it leaves a circuit that differs nowhere from the first one;
* `remove_just_added`: so adding, connecting and removing an element changes no answer.
-/

import Switching.Circuit.Session
import Switching.Proofs.Circuit.Indifference

namespace Switching

/-- The edit connects two elements, one of which has this handle. -/
def Edit.Connects (handle : Handle) (change : Edit) : Prop :=
  ∃ source target, change = .connect source target ∧ (source = handle ∨ target = handle)

namespace Circuit

variable {c d : Circuit} {element : Element}

/-! ### Answers of circuits that differ nowhere -/

/-- **The listing of the elements** follows from what the handles refer to. -/
theorem elements_eq_of_get? (same : ∀ handle, d.get? handle = c.get? handle) :
    d.elements = c.elements := by
  have asymm : Std.Antisymm fun first second : Handle × Element => first.1.id < second.1.id :=
    ⟨fun _ _ less more => absurd less (Nat.lt_asymm more)⟩
  have irrefl : Std.Irrefl fun first second : Handle × Element => first.1.id < second.1.id :=
    ⟨fun _ => Nat.lt_irrefl _⟩
  refine List.Pairwise.eq_of_mem_iff d.pairwise_elements c.pairwise_elements ?_
  rintro ⟨handle, element⟩
  rw [mem_elements_iff, mem_elements_iff, same]

/-- **Circuits that differ nowhere answer alike**, whatever they are asked. -/
theorem DifferAt.answer_eq (differ : DifferAt [] c d) (wired : c.Wired) (question : Query) :
    d.answer question = c.answer question := by
  have live (handle : Handle) : d.get? handle = c.get? handle := by
    rcases differ.get? handle with same | ⟨member, _⟩
    · exact same.symm
    · cases member
  have elements : d.elements = c.elements := elements_eq_of_get? live
  have handles : d.handles = c.handles := congrArg (List.map Prod.fst) elements
  have listed (kind : Element → Bool) : d.handlesWhere kind = c.handlesWhere kind := by
    rw [handlesWhere, handlesWhere, elements]
  have table : d.truthTable = c.truthTable :=
    (differ.mono fun _ member => absurd member List.not_mem_nil).truthTable_eq wired
  have values : d.values = c.values := by
    rw [wired.values_eq, (differ.wired wired).values_eq, handles,
      funext (differ.valueOf_eq wired)]
  cases question with
  | size => exact congrArg (Answer.count ∘ List.length) elements
  | contains handle =>
    refine congrArg Answer.truth ?_
    rw [contains, contains, ← isSome_get?, ← isSome_get?, live]
  | get handle => exact congrArg Answer.found (live handle)
  | element handle =>
    refine congrArg Answer.element ?_
    rw [Circuit.element, Circuit.element, live]
  | fanIn handle => exact congrArg Answer.handles (fanIn_eq_of_wires differ.wires.symm handle)
  | elements => exact congrArg Answer.elements elements
  | wires => exact congrArg (Answer.wires ∘ Array.toList) differ.wires.symm
  | inputs => exact congrArg Answer.handles (listed Element.isInput)
  | outputs => exact congrArg Answer.handles (listed Element.isOutput)
  | valueOf handle => exact congrArg Answer.value (differ.valueOf_eq wired handle)
  | values => exact congrArg Answer.values values
  | truthTable => exact congrArg Answer.table table

/-! ### One more element -/

/-- **The second circuit has one more element**, under the next handle of the first one, and its
wires that do not touch it are those of the first one, in their order. -/
structure Grown (element : Element) (c d : Circuit) : Prop where
  issued : d.issued = c.issued + 1
  get? : ∀ handle, d.get? handle = if handle = ⟨c.issued⟩ then some element else c.get? handle
  wires : (d.wires.filter fun wire => wire.source ≠ ⟨c.issued⟩ && wire.target ≠ ⟨c.issued⟩) = c.wires

namespace Grown

/-- The handle of the added element is a new one: no wire has touched it. -/
theorem add (wired : c.Wired) (element : Element) : Grown element c (c.add element).2 where
  issued := issued_add c element
  get? handle := get?_add c element handle
  wires := by
    refine Array.filter_eq_self.mpr fun wire member => ?_
    obtain ⟨⟨driver, live, _⟩, ⟨driven, lives, _⟩⟩ := wired wire member
    simp [ne_issued_of_get? live, ne_issued_of_get? lives]

/-- A wire of the added element touches it. -/
theorem connect (grown : Grown element c d) {source target : Handle} {changed : Circuit}
    (touches : source = ⟨c.issued⟩ ∨ target = ⟨c.issued⟩)
    (done : d.connect source target = .ok changed) : Grown element c changed where
  issued := (issued_connect done).trans grown.issued
  get? handle := (get?_connect done handle).trans (grown.get? handle)
  wires := by
    obtain ⟨_, _, _, _, _, _, rfl⟩ := connect_eq_ok_iff.mp done
    rw [← grown.wires]
    refine Array.filter_push_of_neg ?_ (Array.size_push _)
    rcases touches with same | same <;> simp [same]

/-- **Connecting the added element**, or failing to, adds at most a wire that touches it. -/
theorem edit (grown : Grown element c d) {change : Edit} (connects : change.Connects ⟨c.issued⟩) :
    Grown element c (d.edit change) := by
  obtain ⟨source, target, rfl, touches⟩ := connects
  rcases d.edited_or_eq (.connect source target) with edited | same
  · cases edited with
    | connect done => exact grown.connect touches done
  · rw [same]
    exact grown

/-- So does connecting it several times. -/
theorem run (grown : Grown element c d) {edits : List Edit}
    (connects : ∀ change ∈ edits, change.Connects ⟨c.issued⟩) : Grown element c (d.run edits) := by
  induction edits generalizing d with
  | nil => exact grown
  | cons change edits ih =>
    obtain ⟨here, there⟩ := List.forall_mem_cons.mp connects
    exact ih (grown.edit here) there

/-- **Removing the added element** answers it and leaves a circuit that differs nowhere from the
first one. -/
theorem attempt_remove (grown : Grown element c d) :
    ∃ left, d.attempt (.remove ⟨c.issued⟩) = (.ok (.element element), left) ∧
      DifferAt [] c left ∧ left.issued = c.issued + 1 := by
  have live : d.get? ⟨c.issued⟩ = some element := by rw [grown.get?, if_pos rfl]
  obtain ⟨left, done⟩ := exists_remove live
  refine ⟨left, ?_, ⟨?_, fun handle => .inl ?_⟩, (issued_remove done).trans grown.issued⟩
  · rw [Circuit.attempt_remove, done]
    rfl
  · obtain ⟨_, _, _, rfl⟩ := remove_eq_ok_iff.mp done
    exact grown.wires.symm
  · rw [get?_remove done]
    split
    · rename_i fresh
      rw [fresh, get?_issued]
    · rename_i other
      rw [grown.get?, if_neg other]

end Grown

/-- **Removing what was just added undoes it.** To a circuit that edits can build an element is
added, and it is connected, as source or as target, with itself or with others, as often as one likes
and whether that succeeds or fails. Removing it then succeeds and answers the element, and what is
left answers every question as the circuit did before, its listings, its wires in their order, its
values, their errors and its truth table included; the handle is unknown again. Only the next handle
that is issued is the one behind it. -/
theorem remove_just_added (reachable : c.Reachable) (element : Element) {connects : List Edit}
    (touching : ∀ change ∈ connects, change.Connects (c.add element).1) :
    ∃ left, ((c.add element).2.run connects).attempt (.remove (c.add element).1) =
        (.ok (.element element), left) ∧
      (∀ question, left.answer question = c.answer question) ∧
      left.valueOf (c.add element).1 = .error (.unknownElement (c.add element).1) ∧
      ∀ other, (left.add other).1 = ⟨(c.add other).1.id + 1⟩ := by
  have wired := reachable.wired
  obtain ⟨left, removed, differ, issued⟩ := ((Grown.add wired element).run touching).attempt_remove
  refine ⟨left, removed, differ.answer_eq wired, ?_, fun other => congrArg Handle.mk issued⟩
  rw [differ.valueOf_eq wired]
  exact valueOf_of_get?_eq_none (get?_issued c)

/-- A conjunction is added to gates that read each other. It reads itself and an input, and one of
the gates reads it; an output cannot be its source. Nothing of this is left when it is removed. -/
theorem remove_added_to_crossed :
    let connects : List Edit := [.connect ⟨4⟩ ⟨4⟩, .connect ⟨3⟩ ⟨4⟩, .connect ⟨4⟩ ⟨1⟩,
      .connect ⟨0⟩ ⟨4⟩]
    crossed.Reachable ∧ (∀ change ∈ connects, change.Connects (crossed.add (.gate .and)).1) ∧
      ∃ left, ((crossed.add (.gate .and)).2.run connects).attempt (.remove ⟨4⟩) =
          (.ok (.element (.gate .and)), left) ∧
        left.answer .values = .values (.error (.cycle ⟨1⟩)) := by
  intro connects
  have reachable : crossed.Reachable := ⟨_, rfl⟩
  have touching : ∀ change ∈ connects, change.Connects (crossed.add (.gate .and)).1 := by
    simp only [connects, List.forall_mem_cons, List.not_mem_nil, false_imp_iff, implies_true,
      and_true]
    exact ⟨⟨_, _, rfl, .inl rfl⟩, ⟨_, _, rfl, .inr rfl⟩, ⟨_, _, rfl, .inl rfl⟩,
      ⟨_, _, rfl, .inr rfl⟩⟩
  have before : crossed.values = .error (.cycle ⟨1⟩) := by cbv
  obtain ⟨left, removed, answers, _⟩ := remove_just_added reachable (.gate .and) touching
  exact ⟨reachable, touching, left, removed, (answers .values).trans (congrArg _ before)⟩

end Circuit

end Switching
