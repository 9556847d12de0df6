/-
**The order of wires.**

A conjunction or a disjunction has the same value in whatever order it reads its sources, and
however often it reads them. An inverter and an output read their first wire only. So a circuit can
be rewired accordingly without changing a value. Only the element of a cycle that an answer names may
be another one, because reading on goes another way.

* `Element.ReadsAlike`: an element cannot tell two lists of sources apart;
* `ReadsAlike.meaning_eq`: it has the same value for both;
* `Rewired`: two circuits differ in such wires only;
* `Rewired.hasValue`: their elements have the same values;
* `valueOf_rewired`: so evaluation finds the same values in both, and cycles for the same elements.
-/

import Switching.Proofs.Circuit.Agreement

namespace Switching

namespace Element

/-- An element cannot tell these sources of its wires apart. Conjunctions and disjunctions read the
same ones, in whatever order and however often; inverters and outputs have the same first one. -/
def ReadsAlike (element : Element) (first second : List Handle) : Prop :=
  match element with
  | input _ => True
  | gate .and | gate .or => ∀ source, source ∈ first ↔ source ∈ second
  | gate .not | output => first.head? = second.head?

namespace ReadsAlike

variable {element : Element} {first second : List Handle}

theorem symm (alike : element.ReadsAlike first second) : element.ReadsAlike second first := by
  cases element with
  | input value => exact trivial
  | gate kind =>
    cases kind with
    | and => exact fun source => (alike source).symm
    | or => exact fun source => (alike source).symm
    | not => exact Eq.symm alike
  | output => exact Eq.symm alike

/-- An element reads nothing else. -/
theorem mem_reads (alike : element.ReadsAlike first second) {source : Handle}
    (read : source ∈ element.reads second) : source ∈ element.reads first := by
  have head (same : first.head? = second.head?) : first.take 1 = second.take 1 := by
    rw [List.take_one, List.take_one, same]
  cases element with
  | input value => exact read
  | gate kind =>
    cases kind with
    | and => exact (alike source).mpr read
    | or => exact (alike source).mpr read
    | not => rwa [reads, head alike]
  | output => rwa [reads, head alike]

/-- **An element has the same value for both**, whatever the values of the sources are. -/
theorem meaning_eq (alike : element.ReadsAlike first second) (valuation : Handle → Bool) :
    element.meaning ((element.reads first).map valuation) =
      element.meaning ((element.reads second).map valuation) := by
  cases element with
  | input value => rfl
  | gate kind =>
    cases kind with
    | and =>
      -- A conjunction without sources is false, so that it matters whether there are any.
      have nil : first = [] ↔ second = [] := by
        rw [List.eq_nil_iff_forall_not_mem, List.eq_nil_iff_forall_not_mem]
        exact forall_congr' fun source => not_congr (alike source)
      have all : (∀ source ∈ first, valuation source = true) ↔
          ∀ source ∈ second, valuation source = true :=
        forall_congr' fun source => imp_congr_left (alike source)
      refine Bool.eq_iff_iff.mpr ?_
      simp [meaning, reads, nil, all]
    | or =>
      have any : (∃ source ∈ first, valuation source = true) ↔
          ∃ source ∈ second, valuation source = true :=
        exists_congr fun source => and_congr_left' (alike source)
      refine Bool.eq_iff_iff.mpr ?_
      simp [meaning, reads, any]
    | not => rw [reads, reads, List.take_one, List.take_one, alike]
  | output => rw [reads, reads, List.take_one, List.take_one, alike]

end ReadsAlike

end Element

namespace Circuit

variable {c d : Circuit} {handle : Handle}

/-- **Two circuits have the same elements, none of which can tell its wires apart.** -/
structure Rewired (c d : Circuit) : Prop where
  get? : ∀ handle, d.get? handle = c.get? handle
  fanIn : ∀ handle element, c.get? handle = some element →
    element.ReadsAlike (c.fanIn handle) (d.fanIn handle)

namespace Rewired

theorem symm (rewired : Rewired c d) : Rewired d c where
  get? handle := (rewired.get? handle).symm
  fanIn handle element live :=
    (rewired.fanIn handle element (rewired.get? handle ▸ live)).symm

/-- **The elements have the same values** in both circuits. -/
theorem hasValue (rewired : Rewired c d) {value : Bool} (valued : c.HasValue handle value) :
    d.HasValue handle value := by
  have closed : c.Closed fun _ => True := fun _ _ _ _ => trivial
  refine valued.carry closed (fun handle element _ live => ?_) trivial
  have alike := rewired.fanIn handle element live
  have live' := (rewired.get? handle).trans live
  rw [reads_of_get? live, reads_of_get? live']
  exact ⟨live', fun source read => alike.mem_reads read, alike.meaning_eq⟩

end Rewired

/-- **Rewiring keeps the values.** Two circuits that edits can build have the same elements; their
conjunctions and disjunctions read the same sources, in whatever order and however often, and their
inverters and outputs have the same first source or none. Then evaluation finds the same value for
an element in both, or it comes to a cycle in both, perhaps not to the same element of it. -/
theorem valueOf_rewired (reachable : c.Reachable) (reachable' : d.Reachable)
    (rewired : Rewired c d) (live : c.get? handle ≠ none) :
    (∃ value, c.valueOf handle = .ok value ∧ d.valueOf handle = .ok value) ∨
      ∃ place other, c.valueOf handle = .error (.cycle place) ∧
        d.valueOf handle = .error (.cycle other) := by
  have wired := reachable.wired
  have wired' := reachable'.wired
  obtain ⟨element, live⟩ := Option.ne_none_iff_exists'.mp live
  have live' := (rewired.get? handle).trans live
  rcases wired.valueOf_cases live with ⟨value, answer, valued⟩ | ⟨_, answer, place, rfl, back⟩
  · exact .inl ⟨value, answer, wired'.valueOf_eq_ok_iff.mpr (rewired.hasValue valued)⟩
  · rcases wired'.valueOf_cases live' with ⟨value, _, valued⟩ | ⟨_, answer', other, rfl, _⟩
    · exact absurd (rewired.symm.hasValue valued) (back.not_hasValue (.nil c handle) value)
    · exact .inr ⟨place, other, answer, answer'⟩

/-- Two gates that read themselves, and a third one that reads both. -/
def loops : Circuit :=
  empty.run [.add (.gate .or), .add (.gate .or), .add (.gate .and),
    .connect ⟨0⟩ ⟨0⟩, .connect ⟨1⟩ ⟨1⟩, .connect ⟨0⟩ ⟨2⟩, .connect ⟨1⟩ ⟨2⟩]

/-- The third gate reads them the other way round, and one of them twice. -/
def loopsTurned : Circuit :=
  empty.run [.add (.gate .or), .add (.gate .or), .add (.gate .and),
    .connect ⟨1⟩ ⟨2⟩, .connect ⟨0⟩ ⟨0⟩, .connect ⟨1⟩ ⟨1⟩, .connect ⟨0⟩ ⟨2⟩, .connect ⟨1⟩ ⟨2⟩]

/-- The third gate comes to a cycle either way, but not to the same one. -/
theorem valueOf_loopsTurned :
    Rewired loops loopsTurned ∧ loops.valueOf ⟨2⟩ = .error (.cycle ⟨0⟩) ∧
      ∃ other, loopsTurned.valueOf ⟨2⟩ = .error (.cycle other) ∧ other ≠ ⟨0⟩ := by
  have handles : loops.handles = [⟨0⟩, ⟨1⟩, ⟨2⟩] := by cbv
  have rewired : Rewired loops loopsTurned := by
    refine ⟨fun handle => rfl, fun handle element live => ?_⟩
    have listed : handle ∈ loops.handles := mem_handles_iff.mpr ⟨element, live⟩
    rw [handles] at listed
    simp only [List.mem_cons, List.not_mem_nil, or_false] at listed
    rcases listed with rfl | rfl | rfl
    · cases live
      exact fun source => Iff.rfl
    · cases live
      exact fun source => Iff.rfl
    · cases live
      have one : loops.fanIn ⟨2⟩ = [⟨0⟩, ⟨1⟩] := by cbv
      have other : loopsTurned.fanIn ⟨2⟩ = [⟨1⟩, ⟨0⟩, ⟨1⟩] := by cbv
      intro source
      rw [one, other]
      simp only [List.mem_cons, List.not_mem_nil, or_false]
      tauto
  have answer : loops.valueOf ⟨2⟩ = .error (.cycle ⟨0⟩) := by cbv
  have turned : loopsTurned.valueOf ⟨2⟩ = .error (.cycle ⟨1⟩) := by cbv
  have live : loops.get? ⟨2⟩ ≠ none := Option.isSome_iff_ne_none.mp rfl
  refine ⟨rewired, answer, ?_⟩
  rcases valueOf_rewired ⟨_, rfl⟩ ⟨_, rfl⟩ rewired live with ⟨value, found, _⟩ | ⟨_, other, _, met⟩
  · cases answer.symm.trans found
  · refine ⟨other, met, ?_⟩
    cases turned.symm.trans met
    simp

end Circuit

end Switching
