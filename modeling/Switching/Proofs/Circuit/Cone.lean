/-
**The cone of an element.**

The value of an element follows from its cone: the elements that can be read from it, going on to
all sources of conjunctions and disjunctions and to the first ones of inverters and outputs. Whatever
else is added, wired, set or removed, the cone reads the same sources in the same order, and
evaluation answers for the element what it answered before.

* `reads_filter`, `reads_append`: what an element reads of fewer or more wires;
* `fanIn_connect`, `fanIn_remove`: the sources of an element after an edit;
* `Avoids`: an edit changes nothing that is read from these elements;
* `agreeOn_edit`, `agreeOn_run`: circuits agree on what edits avoid;
* `valueOf_run_of_avoids`: so the answer for an element stays while edits avoid its cone.
-/

import Switching.Proofs.Circuit.Agreement
import Switching.Proofs.Circuit.Connections

namespace Switching

/-! ### What an element reads of fewer or more wires -/

namespace Element

/-- Wires that are not read can be taken away. -/
theorem reads_filter (element : Element) {sources : List Handle} {stays : Handle → Bool}
    (read : ∀ source ∈ element.reads sources, stays source = true) :
    element.reads (sources.filter stays) = element.reads sources := by
  have all (read : ∀ source ∈ sources, stays source = true) : sources.filter stays = sources :=
    List.filter_eq_self.mpr read
  have first (read : ∀ source ∈ sources.take 1, stays source = true) :
      (sources.filter stays).take 1 = sources.take 1 := by
    cases sources with
    | nil => rfl
    | cons source others => simp [read source (by simp)]
  cases element with
  | input value => rfl
  | gate kind =>
    cases kind with
    | and => exact all read
    | or => exact all read
    | not => exact first read
  | output => exact first read

/-- Inverters and outputs do not read a second wire. -/
theorem reads_append {element : Element} (single : element = .gate .not ∨ element = .output)
    {sources : List Handle} (some : sources ≠ []) (more : List Handle) :
    element.reads (sources ++ more) = element.reads sources := by
  have first : (sources ++ more).take 1 = sources.take 1 :=
    List.take_append_of_le_length (List.length_pos_iff.mpr some)
  rcases single with rfl | rfl
  · exact first
  · exact first

end Element

namespace Circuit

variable {c changed : Circuit} {within : Handle → Prop} {handle source target removed : Handle}

/-! ### Cones -/

/-- The elements of a circuit read no others. -/
theorem Wired.live_of_dependsOn (wired : c.Wired)
    (live : ∃ element, c.get? handle = some element) (depends : c.DependsOn handle target) :
    ∃ element, c.get? target = some element := by
  have closed : c.Closed fun handle => ∃ element, c.get? handle = some element :=
    fun _ _ _ read => wired.live_of_reads read
  exact closed.of_dependsOn live depends

/-! ### The sources of an element after an edit -/

theorem fanIn_connect (done : c.connect source target = .ok changed) (handle : Handle) :
    changed.fanIn handle = c.fanIn handle ++ if target = handle then [source] else [] := by
  obtain ⟨_, _, _, _, _, _, rfl⟩ := connect_eq_ok_iff.mp done
  rw [fanIn_eq, fanIn_eq, Array.toList_push, List.filter_append, List.map_append]
  by_cases ends : target = handle <;> simp [ends]

theorem fanIn_remove {element : Element} (done : c.remove removed = .ok (element, changed))
    (other : handle ≠ removed) :
    changed.fanIn handle = (c.fanIn handle).filter (· ≠ removed) := by
  obtain ⟨_, _, _, rfl⟩ := remove_eq_ok_iff.mp done
  rw [fanIn_eq, fanIn_eq, List.filter_map, Array.toList_filter, List.filter_filter,
    List.filter_filter]
  congr 1
  refine List.filter_congr fun wire _ => ?_
  by_cases ends : wire.target = handle <;> simp [ends, other]

/-! ### Edits outside a cone -/

/-- **An edit changes nothing that is read from these elements**: it removes and sets others only,
and a wire that it connects to one of them is not the first one of an inverter or an output. -/
def Avoids (c : Circuit) (within : Handle → Prop) : Edit → Prop
  | .add _ => True
  | .connect _ target => within target →
    (c.get? target = some (.gate .not) ∨ c.get? target = some .output) ∧ c.fanIn target ≠ []
  | .setInput handle _ | .toggleInput handle | .remove handle => ¬ within handle
  | .clear => False

/-- Every edit of a run that succeeds changes nothing that is read from these elements. -/
def AvoidsAlong (within : Handle → Prop) : Circuit → List Edit → Prop
  | _, [] => True
  | c, change :: edits =>
    (∀ changed, c.edit? change = .ok changed → c.Avoids within change) ∧
      AvoidsAlong within (c.edit change) edits

/-- **An edit that avoids elements leaves a circuit that agrees on them.** -/
theorem agreeOn_edited (closed : c.Closed within)
    (live : ∀ handle, within handle → ∃ element, c.get? handle = some element) {change : Edit}
    (edited : c.Edited change changed) (avoids : c.Avoids within change) :
    AgreeOn within c changed := by
  refine .of_kept closed live fun handle element inside here => ?_
  have set {input : Handle} {value : Bool} (outside : ¬ within input)
      (done : c.setInput input value = .ok changed) :
      changed.get? handle = some element ∧
        element.reads (changed.fanIn handle) = element.reads (c.fanIn handle) := by
    have other : handle ≠ input := fun same => outside (same ▸ inside)
    rw [get?_setInput done, if_neg other, fanIn_eq_of_wires (wires_setInput done)]
    exact ⟨here, rfl⟩
  cases edited with
  | add added => exact ⟨get?_add_of_get? here added, rfl⟩
  | @connect source target _ done =>
    rw [get?_connect done, fanIn_connect done]
    refine ⟨here, ?_⟩
    split
    · -- The element has a first wire by now, and reads no other.
      rename_i same
      subst same
      obtain ⟨single, some⟩ := avoids inside
      rw [here, Option.some.injEq, Option.some.injEq] at single
      exact Element.reads_append single some _
    · rw [List.append_nil]
  | setInput done => exact set avoids done
  | toggleInput done => exact set avoids done
  | @remove removed _ _ done =>
    -- What is read from an element inside is inside, so nothing that is read is removed.
    have other : handle ≠ removed := fun same => avoids (same ▸ inside)
    rw [get?_remove done, if_neg other, fanIn_remove done other]
    refine ⟨here, element.reads_filter fun source read => ?_⟩
    have reads : c.ReadsFrom handle source := by rwa [ReadsFrom, reads_of_get? here]
    refine decide_eq_true ?_
    rintro rfl
    exact avoids (closed handle source inside reads)
  | clear => exact avoids.elim

/-- An edit that fails leaves the circuit itself. -/
theorem agreeOn_edit (closed : c.Closed within)
    (live : ∀ handle, within handle → ∃ element, c.get? handle = some element) {change : Edit}
    (avoids : ∀ changed, c.edit? change = .ok changed → c.Avoids within change) :
    AgreeOn within c (c.edit change) := by
  cases tried : c.edit? change with
  | error e =>
    rw [edit_eq_self_of_error tried]
    exact .refl closed
  | ok changed =>
    have same : c.edit change = changed := by rw [edit, tried]
    rw [same]
    exact agreeOn_edited closed live (edited_of_edit? tried) (avoids changed tried)

/-- **So do several edits.** -/
theorem agreeOn_run (closed : c.Closed within)
    (live : ∀ handle, within handle → ∃ element, c.get? handle = some element) {edits : List Edit}
    (avoids : AvoidsAlong within c edits) : AgreeOn within c (c.run edits) := by
  induction edits generalizing c with
  | nil => exact .refl closed
  | cons change edits ih =>
    have step := agreeOn_edit closed live avoids.1
    refine step.trans (ih step.symm.closed (fun handle inside => ?_) avoids.2)
    rw [step.get? handle inside]
    exact live handle inside

/-- **The answer for an element depends on its cone only.** However a circuit that edits can build is
edited further, evaluation answers for an element what it did before, the element of a cycle that it
names included, if no element of the cone is removed or set, the circuit is not cleared, and wires
are connected to elements of the cone only as second or later ones of inverters and outputs. Edits
that fail do not matter. -/
theorem valueOf_run_of_avoids (reachable : c.Reachable) (live : c.get? handle ≠ none)
    {edits : List Edit} (avoids : AvoidsAlong (c.DependsOn handle) c edits) :
    (c.run edits).valueOf handle = c.valueOf handle := by
  have wired := reachable.wired
  have agree : AgreeOn (c.DependsOn handle) c (c.run edits) := by
    refine agreeOn_run (closed_dependsOn c handle) (fun target depends => ?_) avoids
    exact wired.live_of_dependsOn (Option.ne_none_iff_exists'.mp live) depends
  exact agree.valueOf_eq wired (reachable.run edits).wired (.refl handle)

/-- An inverter shows what it did after it got a second wire, the gate that reads it was removed and
the source of the second wire was toggled. A wire into its input was refused. -/
theorem valueOf_inverter_rewired :
    let edits : List Edit := [.add (.input true), .connect ⟨3⟩ ⟨1⟩, .remove ⟨2⟩,
      .connect ⟨1⟩ ⟨0⟩, .toggleInput ⟨3⟩]
    AvoidsAlong (reconvergent.DependsOn ⟨1⟩) reconvergent edits ∧
      (reconvergent.run edits).valueOf ⟨1⟩ = .ok false := by
  intro edits
  have reachable : reconvergent.Reachable := ⟨_, rfl⟩
  have live : reconvergent.get? ⟨1⟩ ≠ none := Option.isSome_iff_ne_none.mp rfl
  have closed : reconvergent.Closed fun handle => handle = ⟨0⟩ ∨ handle = ⟨1⟩ := by
    rintro handle source (rfl | rfl) read
    · have none : reconvergent.reads ⟨0⟩ = [] := by cbv
      rw [ReadsFrom, none] at read
      cases read
    · have one : reconvergent.reads ⟨1⟩ = [⟨0⟩] := by cbv
      rw [ReadsFrom, one] at read
      exact .inl (List.mem_singleton.mp read)
  have outside {handle : Handle} (other : ¬ (handle = ⟨0⟩ ∨ handle = ⟨1⟩)) :
      ¬ reconvergent.DependsOn ⟨1⟩ handle :=
    fun depends => other (closed.of_dependsOn (.inr rfl) depends)
  have avoids : AvoidsAlong (reconvergent.DependsOn ⟨1⟩) reconvergent edits := by
    refine ⟨fun _ _ => trivial, fun _ _ _ => ⟨.inl rfl, List.cons_ne_nil _ _⟩, fun _ _ => ?_,
      fun _ done => ?_, fun _ _ => ?_, trivial⟩
    · exact outside (by simp)
    · cases done
    · exact outside (by simp)
  have before : reconvergent.valueOf ⟨1⟩ = .ok false := by cbv
  refine ⟨avoids, ?_⟩
  rw [valueOf_run_of_avoids reachable live avoids, before]

end Circuit

end Switching
