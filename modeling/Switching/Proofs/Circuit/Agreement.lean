/-
**Circuits that agree where they are read.**

What evaluation answers for an element depends on the elements that can be read from it, and on
nothing else of the circuit. Two circuits in which these are the same, and read the same sources in
the same order, answer alike, the element of the cycle that is named included. For a value alone the
order of the sources matters only as far as it matters to the elements.

* `Closed`: a set of elements that read no others;
* `closed_dependsOn`, `Closed.of_dependsOn`: the least one around an element is what it depends on;
* `HasValue.carry`: values go over to a circuit in which no element of the set notices a difference;
* `ReturnsTo.carry`: so does the place to which reading on comes back, where the sources are the same;
* `AgreeOn`: two circuits agree on a closed set of elements;
* `AgreeOn.valueOf_eq`: evaluation answers alike in both.
-/

import Switching.Proofs.Circuit.Sharing

namespace Switching.Circuit

variable {c d : Circuit} {within : Handle → Prop} {handle target : Handle}

/-- Elements that read no others. -/
def Closed (c : Circuit) (within : Handle → Prop) : Prop :=
  ∀ handle source, within handle → c.ReadsFrom handle source → within source

/-- What an element depends on reads nothing else. -/
theorem closed_dependsOn (c : Circuit) (handle : Handle) : c.Closed (c.DependsOn handle) :=
  fun _ source depends read => depends.trans (.step read (.refl source))

/-- **What an element depends on is the least set** that it is in and that reads nothing else. -/
theorem Closed.of_dependsOn (closed : c.Closed within) (inside : within handle)
    (depends : c.DependsOn handle target) : within target := by
  induction depends with
  | refl _ => exact inside
  | step read _ ih => exact ih (closed _ _ inside read)

/-- **Values go over** to a circuit that has the same elements, if each of them reads nothing new and
has the same value whatever the values of its sources are. -/
theorem HasValue.carry (closed : c.Closed within)
    (same : ∀ handle element, within handle → c.get? handle = some element →
      d.get? handle = some element ∧ (∀ source ∈ d.reads handle, source ∈ c.reads handle) ∧
        ∀ valuation, element.meaning ((c.reads handle).map valuation) =
          element.meaning ((d.reads handle).map valuation))
    {value : Bool} (valued : c.HasValue handle value) (inside : within handle) :
    d.HasValue handle value := by
  induction valued with
  | @intro handle element live valuation _ ih =>
    obtain ⟨live', among, equal⟩ := same handle element inside live
    rw [equal valuation]
    refine .intro live' valuation fun source read => ?_
    exact ih source (among source read) (closed handle source inside (among source read))

/-- **Reading on comes back to the same place** in a circuit whose elements read the same sources, if
those that have values still have some. -/
theorem ReturnsTo.carry (closed : c.Closed within)
    (reads : ∀ handle, within handle → d.reads handle = c.reads handle)
    (valued : ∀ handle value, within handle → c.HasValue handle value →
      ∃ other, d.HasValue handle other)
    {way : List Handle} {place : Handle} (returns : c.ReturnsTo way handle place)
    (inside : within handle) : d.ReturnsTo way handle place := by
  induction returns with
  | here met => exact .here met
  | @further way handle source place before after fresh sources passed _ ih =>
    -- The same source is the first one without a value, because those before it keep theirs.
    have read := readsFrom_of_split sources
    refine .further fresh ((reads handle inside).trans sources) (fun other member => ?_)
      (ih (closed handle source inside read))
    obtain ⟨value, has⟩ := passed other member
    have reads : c.ReadsFrom handle other := by
      rw [ReadsFrom, sources]
      exact List.mem_append_left _ member
    exact valued other value (closed handle other inside reads) has

/-- **Two circuits agree on these elements**, which read no others: they are the same in both, and
they read the same sources in the same order. -/
structure AgreeOn (within : Handle → Prop) (c d : Circuit) : Prop where
  closed : c.Closed within
  get? : ∀ handle, within handle → d.get? handle = c.get? handle
  reads : ∀ handle, within handle → d.reads handle = c.reads handle

namespace AgreeOn

theorem refl (closed : c.Closed within) : AgreeOn within c c :=
  ⟨closed, fun _ _ => rfl, fun _ _ => rfl⟩

theorem symm (agree : AgreeOn within c d) : AgreeOn within d c where
  closed handle source inside read := by
    rw [ReadsFrom, agree.reads handle inside] at read
    exact agree.closed handle source inside read
  get? handle inside := (agree.get? handle inside).symm
  reads handle inside := (agree.reads handle inside).symm

theorem trans {e : Circuit} (first : AgreeOn within c d) (second : AgreeOn within d e) :
    AgreeOn within c e where
  closed := first.closed
  get? handle inside := (second.get? handle inside).trans (first.get? handle inside)
  reads handle inside := (second.reads handle inside).trans (first.reads handle inside)

/-- Circuits agree when the elements of the one are in the other and read the same of their wires. -/
theorem of_kept (closed : c.Closed within)
    (live : ∀ handle, within handle → ∃ element, c.get? handle = some element)
    (kept : ∀ handle element, within handle → c.get? handle = some element →
      d.get? handle = some element ∧
        element.reads (d.fanIn handle) = element.reads (c.fanIn handle)) :
    AgreeOn within c d := by
  refine ⟨closed, fun handle inside => ?_, fun handle inside => ?_⟩
  · obtain ⟨element, here⟩ := live handle inside
    rw [here, (kept handle element inside here).1]
  · obtain ⟨element, here⟩ := live handle inside
    obtain ⟨there, same⟩ := kept handle element inside here
    rw [reads_of_get? here, reads_of_get? there, same]

theorem hasValue (agree : AgreeOn within c d) {value : Bool} (inside : within handle)
    (valued : c.HasValue handle value) : d.HasValue handle value := by
  refine valued.carry agree.closed (fun handle element inside live => ?_) inside
  rw [agree.get? handle inside, agree.reads handle inside]
  exact ⟨live, fun _ read => read, fun _ => rfl⟩

theorem returnsTo (agree : AgreeOn within c d) {way : List Handle} {place : Handle}
    (inside : within handle) (returns : c.ReturnsTo way handle place) :
    d.ReturnsTo way handle place := by
  refine returns.carry agree.closed agree.reads (fun handle value inside valued => ?_) inside
  exact ⟨value, agree.hasValue inside valued⟩

/-- **Evaluation answers alike** for an element on which two circuits agree. -/
theorem valueOf_eq (agree : AgreeOn within c d) (wired : c.Wired) (wired' : d.Wired)
    (inside : within handle) : d.valueOf handle = c.valueOf handle := by
  have same := agree.get? handle inside
  cases live : c.get? handle with
  | none => rw [valueOf_of_get?_eq_none live, valueOf_of_get?_eq_none (same.trans live)]
  | some element =>
    rcases wired.valueOf_cases live with ⟨value, answer, valued⟩ | ⟨_, answer, place, rfl, back⟩
    · rw [answer]
      exact wired'.valueOf_eq_ok_iff.mpr (agree.hasValue inside valued)
    · rw [answer]
      exact (wired'.valueOf_eq_error_iff (same.trans live)).mpr
        ⟨place, rfl, agree.returnsTo inside back⟩

end AgreeOn

end Switching.Circuit
