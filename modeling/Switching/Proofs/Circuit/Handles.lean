/-
**Handles over runs.**

What a handle refers to follows from the log of a run: the element that was added under it, as long
as it was neither removed nor cleared away, with the value that was written last.

* `Holds`: the element of a handle according to the log;
* `holds_append_iff`: what one more entry changes;
* `Recorded.attempt`: an edit is recorded in the log;
* `recorded_log`: so the log of a run tells the element of every handle;
* `attempt_of_not_contains`: an edit that needs an element that is not there names its handle;
* `toNat_wordAt`: machine words are wide enough for the handles;
* `HandleLaws`, `handleLaws_run`: handles are numbered by the elements ever added, and never used
  again.
-/

import Mathlib.Algebra.Group.Nat.Defs
import Mathlib.Data.List.Induction
import Switching.Circuit.Log
import Switching.Proofs.Circuit.Listing

namespace Switching.Circuit

/-- According to the log, an element was added under the handle and is still there, with the value
that was written last. -/
def Holds (log : List Entry) (handle : Handle) (element : Element) : Prop :=
  ∃ before added after, log = before ++ ⟨.add added, .ok (.handle handle)⟩ :: after ∧
    (∀ entry ∈ after, entry.Spares handle) ∧
    element = added.holding (after.filterMap (Entry.written? handle)).getLast?

theorem not_holds_nil (handle : Handle) (element : Element) : ¬ Holds [] handle element := by
  rintro ⟨before, added, after, split, _⟩
  simp at split

/-- **What one more entry changes**: it issues the handle, or it spares the element that the handle
had and may write a value to it. -/
theorem holds_append_iff {log : List Entry} {entry : Entry} {handle : Handle} {element : Element} :
    Holds (log ++ [entry]) handle element ↔
      entry.issued? = some (handle, element) ∨
        ∃ old, Holds log handle old ∧ entry.Spares handle ∧
          element = old.holding (entry.written? handle) := by
  rw [Entry.issued?_eq_some_iff]
  have last : ∀ after : List Entry,
      ((after ++ [entry]).filterMap (Entry.written? handle)).getLast? =
        (entry.written? handle).or (after.filterMap (Entry.written? handle)).getLast? := by
    intro after
    rw [List.filterMap_append, List.getLast?_append]
    cases written : entry.written? handle <;> simp [written]
  constructor
  · rintro ⟨before, added, after, split, spared, rfl⟩
    rcases after.eq_nil_or_concat with rfl | ⟨others, final, rfl⟩
    · left
      obtain ⟨_, same⟩ := List.append_inj' split rfl
      rw [List.singleton_inj.mp same, List.filterMap_nil, List.getLast?_nil, Element.holding_none]
    · right
      rw [List.concat_eq_append] at split spared ⊢
      rw [← List.cons_append, ← List.append_assoc] at split
      obtain ⟨rfl, same⟩ := List.append_inj' split rfl
      obtain rfl := List.singleton_inj.mp same
      refine ⟨_, ⟨before, added, others, rfl, fun other member => ?_, rfl⟩, ?_, ?_⟩
      · exact spared other (List.mem_append_left _ member)
      · exact spared entry (List.mem_append_right _ (List.mem_singleton_self entry))
      · rw [last, Element.holding_holding]
  · rintro (rfl | ⟨old, ⟨before, added, after, rfl, spared, rfl⟩, spares, rfl⟩)
    · exact ⟨log, element, [], rfl, fun _ member => absurd member List.not_mem_nil,
        (Element.holding_none element).symm⟩
    · refine ⟨before, added, after ++ [entry], by simp, fun other member => ?_, ?_⟩
      · rcases List.mem_append.mp member with member | member
        · exact spared other member
        · rw [List.mem_singleton.mp member]
          exact spares
      · rw [last, Element.holding_holding]

/-- A circuit is as its log says after these edits. -/
structure Recorded (c : Circuit) (edits : List Edit) (log : List Entry) : Prop where
  /-- The number of handles is that of the elements added. -/
  count : c.issued = (edits.filterMap Edit.added?).length
  /-- Handles were issued in the order of the numbers. -/
  issued : log.filterMap Entry.issued? =
    (edits.filterMap Edit.added?).zipIdx.map fun (element, number) => (⟨number⟩, element)
  held : ∀ handle element, c.get? handle = some element ↔ Holds log handle element

namespace Recorded

variable {c d : Circuit} {edits : List Edit} {log : List Entry} {change : Edit}
  {answer : Except Error Reply}

theorem nil : Recorded empty [] [] where
  count := rfl
  issued := rfl
  held handle element := by simp [not_holds_nil]

theorem add (recorded : c.Recorded edits log) (element : Element) :
    (c.add element).2.Recorded (edits ++ [.add element])
      (log ++ [⟨.add element, .ok (.handle (c.add element).1)⟩]) where
  count := by
    rw [issued_add, recorded.count]
    simp [Edit.added?]
  issued := by
    have next : (c.add element).1 = ⟨(edits.filterMap Edit.added?).length⟩ :=
      congrArg Handle.mk recorded.count
    rw [List.filterMap_append, recorded.issued, next, List.filterMap_append, List.zipIdx_append,
      List.map_append]
    simp [Edit.added?, Entry.issued?]
  held handle found := by
    rw [holds_append_iff, get?_add]
    simp only [Entry.issued?, Entry.written?, Entry.Spares, Element.holding_none, ← recorded.held,
      true_and, exists_eq_right', Option.some.injEq, Prod.mk.injEq]
    split
    · -- The log issued no handle that is not below the next one.
      rename_i next
      have fresh : c.get? handle ≠ some found := fun live => ne_issued_of_get? live next
      simp [next ▸ fresh, next]
    · rename_i other
      simp [Ne.symm other]

/-- An edit that adds nothing is recorded when it does to the elements what its entry says. -/
theorem append (recorded : c.Recorded edits log) (other : change.added? = none)
    (same : d.issued = c.issued)
    (kept : ∀ handle element, d.get? handle = some element ↔
      ∃ old, c.get? handle = some old ∧ Entry.Spares handle ⟨change, answer⟩ ∧
        element = old.holding (Entry.written? handle ⟨change, answer⟩)) :
    d.Recorded (edits ++ [change]) (log ++ [⟨change, answer⟩]) where
  count := by
    rw [same, recorded.count]
    simp [other]
  issued := by
    rw [List.filterMap_append, recorded.issued]
    simp [other, Entry.issued?_eq_none other]
  held handle element := by
    rw [holds_append_iff, kept, Entry.issued?_eq_none other]
    simp [recorded.held]

/-- An edit that touches no element is recorded as one. -/
theorem append_untouched (recorded : c.Recorded edits log) (other : change.added? = none)
    (same : d.issued = c.issued) (kept : ∀ handle, d.get? handle = c.get? handle)
    (spares : ∀ handle, Entry.Spares handle ⟨change, answer⟩)
    (unwritten : ∀ handle, Entry.written? handle ⟨change, answer⟩ = none) :
    d.Recorded (edits ++ [change]) (log ++ [⟨change, answer⟩]) := by
  refine recorded.append other same fun handle element => ?_
  rw [kept, unwritten]
  simp [spares, Element.holding_none]

/-- An edit that sets an input is recorded with the value. -/
theorem append_written (recorded : c.Recorded edits log) (other : change.added? = none)
    {input : Handle} {value : Bool} (done : c.setInput input value = .ok d)
    (spares : ∀ handle, Entry.Spares handle ⟨change, answer⟩)
    (written : ∀ handle, Entry.written? handle ⟨change, answer⟩ =
      if input = handle then some value else none) :
    d.Recorded (edits ++ [change]) (log ++ [⟨change, answer⟩]) := by
  refine recorded.append other (issued_setInput done) fun handle element => ?_
  rw [get?_setInput done, written]
  split
  · rename_i here
    obtain ⟨old, held⟩ := isInput_of_setInput done
    subst here
    simp [held, spares, Element.holding, eq_comm]
  · rename_i elsewhere
    simp [Ne.symm elsewhere, spares, Element.holding_none]

/-- **An edit is recorded in the log**, whether it succeeds or fails. -/
theorem attempt (recorded : c.Recorded edits log) (change : Edit) :
    (c.edit change).Recorded (edits ++ [change]) (log ++ [⟨change, (c.attempt change).1⟩]) := by
  rw [← attempt_snd]
  have attempted := c.attempted change
  generalize (c.attempt change).1 = answer at attempted
  generalize (c.attempt change).2 = left at attempted
  cases attempted with
  | refused failed =>
    exact recorded.append_untouched (added?_of_edit?_eq_error failed) rfl (fun _ => rfl)
      (fun handle => Entry.spares_refused handle _ _)
      fun handle => Entry.written?_refused handle _ _
  | add element => exact recorded.add element
  | connect done =>
    exact recorded.append_untouched rfl (issued_connect done) (get?_connect done)
      (fun _ => trivial) fun _ => rfl
  | setInput done => exact recorded.append_written rfl done (fun _ => trivial) fun _ => rfl
  | toggleInput done =>
    exact recorded.append_written rfl (setInput_of_toggleInput done) (fun _ => trivial) fun _ => rfl
  | remove done =>
    refine recorded.append rfl (issued_remove done) fun handle element => ?_
    rw [get?_remove done]
    simp only [Entry.Spares, Entry.written?, Element.holding_none]
    split
    · rename_i gone
      simp [gone]
    · rename_i other
      simp [Ne.symm other]
  | clear =>
    refine recorded.append rfl c.issued_clear fun handle element => ?_
    simp [Entry.Spares]

end Recorded

/-- **The log of a run tells the element of every handle.** -/
theorem recorded_log (edits : List Edit) : (empty.run edits).Recorded edits (empty.log edits) := by
  induction edits using List.reverseRecOn with
  | nil => exact .nil
  | append_singleton edits change ih =>
    rw [run_append, log_append]
    exact ih.attempt change

theorem issued_run (edits : List Edit) :
    (empty.run edits).issued = (edits.filterMap Edit.added?).length :=
  (recorded_log edits).count

/-! ### Handles that no element has -/

/-- An edit needs the element of a handle: it sets, inverts, removes or connects it. The end of a
wire is needed only where one can start. -/
inductive Needs (c : Circuit) (handle : Handle) : Edit → Prop
  | setInput (value : Bool) : Needs c handle (.setInput handle value)
  | toggleInput : Needs c handle (.toggleInput handle)
  | remove : Needs c handle (.remove handle)
  | source (target : Handle) : Needs c handle (.connect handle target)
  | target {source : Handle} {driver : Element} (live : c.get? source = some driver)
      (sends : driver.isOutput = false) : Needs c handle (.connect source handle)

variable {c : Circuit} {handle : Handle}

/-- **An edit that needs a missing element names its handle** and changes nothing. -/
theorem attempt_of_not_contains (gone : c.contains handle = false) {change : Edit}
    (needs : c.Needs handle change) :
    c.attempt change = (.error (.unknownElement handle), c) := by
  have missing := slot?_of_not_contains gone
  have unknown := element_of_not_contains gone
  cases needs with
  | setInput value => simp [attempt, setInput, missing, settle, Except.map]
  | toggleInput => simp [attempt, toggleInput, unknown, settle, Except.map]
  | remove => simp [attempt, missing]
  | source target => simp [attempt, connect, unknown, settle, Except.map]
  | target live sends =>
    simp [attempt, connect, element_eq_ok_iff.mpr live, sends, unknown, settle, Except.map]

/-- An input that is inverted answers the inverse of its value. -/
theorem inverted_iff {value : Bool} :
    (c.attempt (.toggleInput handle)).1 = .ok (.value value) ↔
      c.get? handle = some (.input !value) := by
  constructor
  · intro answered
    have attempted := c.attempted (.toggleInput handle)
    rw [answered] at attempted
    generalize (c.attempt (.toggleInput handle)).2 = left at attempted
    cases attempted with
    | toggleInput done => exact (toggleInput_eq_ok_iff.mp done).1
  · intro input
    obtain ⟨changed, set⟩ := exists_setInput input value
    have done := toggleInput_eq_ok_iff.mpr ⟨input, set⟩
    simp only [attempt, done]
    rfl

/-! ### Machine words -/

/-- The handle of a slot, computed in machine words. -/
def wordAt (c : Circuit) (place : Nat) : UInt32 := .ofNat c.base + .ofNat place

/-- With few handles no sum overflows. -/
theorem toNat_wordAt (few : c.issued < 2 ^ 32) {place : Nat} (inside : place ≤ c.slots.size) :
    (c.wordAt place).toNat = c.base + place := by
  have bounded : c.base + place < 2 ^ 32 :=
    Nat.lt_of_le_of_lt (Nat.add_le_add_left inside c.base) few
  rw [wordAt, UInt32.toNat_add, UInt32.toNat_ofNat_of_lt', UInt32.toNat_ofNat_of_lt',
    Nat.mod_eq_of_lt bounded]
  · exact Nat.lt_of_le_of_lt (Nat.le_add_left place c.base) bounded
  · exact Nat.lt_of_le_of_lt (Nat.le_add_right c.base place) bounded

theorem issued_prefix_le {before edits : List Edit} (first : before <+: edits) :
    (empty.run before).issued ≤ (edits.filterMap Edit.added?).length := by
  rw [issued_run]
  exact (first.filterMap Edit.added?).length_le

/-! ### The laws -/

/-- What handles refer to in a circuit that was built by these edits. -/
structure HandleLaws (edits : List Edit) (c : Circuit) : Prop where
  /-- An element got the number of the elements added before it as its handle. -/
  numbered : (empty.log edits).filterMap Entry.issued? =
    (edits.filterMap Edit.added?).zipIdx.map fun (element, number) => (⟨number⟩, element)
  /-- At no time does a handle, or the first handle after a clearing, overflow a machine word. -/
  words : ∀ before, before <+: edits → ∀ place ≤ (empty.run before).slots.size,
    ((empty.run before).wordAt place).toNat = (empty.run before).base + place
  /-- A handle has an element if it was issued, and since then the element was not removed and the
  circuit not cleared. -/
  live : ∀ handle, c.contains handle = true ↔
    ∃ before added after, empty.log edits = before ++ ⟨.add added, .ok (.handle handle)⟩ :: after ∧
      ∀ entry ∈ after, entry.Spares handle
  /-- The element is the one that was added, an input with the value that was written last. -/
  held : ∀ handle before added after,
    empty.log edits = before ++ ⟨.add added, .ok (.handle handle)⟩ :: after →
      (∀ entry ∈ after, entry.Spares handle) →
        c.get? handle = some (added.holding (after.filterMap (Entry.written? handle)).getLast?)
  /-- Inverting an input answers the inverse of its value. -/
  inverted : ∀ handle value, (c.attempt (.toggleInput handle)).1 = .ok (.value value) ↔
    c.get? handle = some (.input !value)
  /-- Any other handle is unknown. -/
  unknown : ∀ handle, c.contains handle = false →
    c.element handle = .error (.unknownElement handle) ∧
      ∀ change, c.Needs handle change → c.attempt change = (.error (.unknownElement handle), c)
  elements : (∀ handle element, (handle, element) ∈ c.elements ↔ c.get? handle = some element) ∧
    Ascending (c.elements.map Prod.fst)
  inputs : (∀ handle, handle ∈ c.inputs ↔ ∃ value, c.get? handle = some (.input value)) ∧
    Ascending c.inputs
  outputs : (∀ handle, handle ∈ c.outputs ↔ c.get? handle = some .output) ∧ Ascending c.outputs
  /-- The log is that of the run, and an edit that answers an error changes nothing. -/
  left : ∀ change, (c.attempt change).2 = c.edit change ∧
    ∀ e, (c.attempt change).1 = .error e → (c.attempt change).2 = c

/-- **Handles are stable and never used again**, whatever the edits are and whether they fail. -/
theorem handleLaws_run (edits : List Edit) (few : (edits.filterMap Edit.added?).length < 2 ^ 32) :
    HandleLaws edits (empty.run edits) where
  numbered := (recorded_log edits).issued
  words before first place inside :=
    toNat_wordAt (Nat.lt_of_le_of_lt (issued_prefix_le first) few) inside
  live handle := by
    rw [contains_eq_true_iff]
    simp only [(recorded_log edits).held]
    constructor
    · rintro ⟨_, before, added, after, split, spared, _⟩
      exact ⟨before, added, after, split, spared⟩
    · rintro ⟨before, added, after, split, spared⟩
      exact ⟨_, before, added, after, split, spared, rfl⟩
  held handle before added after split spared :=
    ((recorded_log edits).held _ _).mpr ⟨before, added, after, split, spared, rfl⟩
  inverted _ _ := inverted_iff
  unknown handle gone := ⟨element_of_not_contains gone, fun _ => attempt_of_not_contains gone⟩
  elements := ⟨fun _ _ => mem_elements_iff, ascending_handles _⟩
  inputs := ⟨fun _ => mem_inputs_iff, ascending_handlesWhere _ _⟩
  outputs := ⟨fun _ => mem_outputs_iff, ascending_handlesWhere _ _⟩
  left change := ⟨attempt_snd _ change, fun _ => attempt_snd_of_error⟩

/-- Elements before and after a clearing, one of which is removed again, and a wire from an element
that was cleared away. -/
def refilled : List Edit :=
  [.add (.input false), .add .output, .clear, .add (.input false), .add (.gate .not),
    .connect ⟨0⟩ ⟨3⟩, .toggleInput ⟨2⟩, .remove ⟨3⟩]

/-- After a clearing, an input that is inverted has the inverted value, and the handles from before
stay unknown. -/
theorem handleLaws_refilled :
    (empty.run refilled).get? ⟨2⟩ = some (.input true) ∧
      (empty.run refilled).attempt (.setInput ⟨0⟩ true) =
        (.error (.unknownElement ⟨0⟩), empty.run refilled) := by
  have laws := handleLaws_run refilled (by decide)
  have log : empty.log refilled =
      [⟨.add (.input false), .ok (.handle ⟨0⟩)⟩, ⟨.add .output, .ok (.handle ⟨1⟩)⟩,
          ⟨.clear, .ok .done⟩] ++
        ⟨.add (.input false), .ok (.handle ⟨2⟩)⟩ ::
          [⟨.add (.gate .not), .ok (.handle ⟨3⟩)⟩,
            ⟨.connect ⟨0⟩ ⟨3⟩, .error (.unknownElement ⟨0⟩)⟩,
            ⟨.toggleInput ⟨2⟩, .ok (.value true)⟩,
            ⟨.remove ⟨3⟩, .ok (.element (.gate .not))⟩] := by
    rfl
  constructor
  · exact laws.held ⟨2⟩ _ _ _ log (by simp [Entry.Spares])
  · exact (laws.unknown ⟨0⟩ (by decide)).2 _ (.setInput true)

end Switching.Circuit
