/-
**Which element of a cycle is met first.**

Reading on from an element, depth first and in the order of the sources, one goes past the sources
that have values and into the first that has none. Where this comes back to an element on the way,
it does so at one place only, which depends on the element and the circuit alone.

* `ReturnsTo`: reading on from an element first comes back to this place;
* `ReturnsTo.dependsOn`, `ReturnsTo.onCycle`: the element depends on the place, which lies on a
  cycle;
* `ReturnsTo.unique`: there is one such place.
-/

import Switching.Circuit.Meaning

namespace Switching.Circuit

variable {c : Circuit} {way : List Handle} {handle place : Handle}

/-- **Reading on from an element**, with these elements on the way to it, first comes back to this
place: the element is on the way already, or its first source without a value leads back. -/
inductive ReturnsTo (c : Circuit) : List Handle → Handle → Handle → Prop
  | here {way : List Handle} {handle : Handle} (met : handle ∈ way) : ReturnsTo c way handle handle
  | further {way : List Handle} {handle source place : Handle} {before after : List Handle}
      (fresh : handle ∉ way) (sources : c.reads handle = before ++ source :: after)
      (valued : ∀ other ∈ before, ∃ value, c.HasValue other value)
      (back : ReturnsTo c (handle :: way) source place) : ReturnsTo c way handle place

/-- The elements on a way read on to the last of it. -/
def LeadsTo (c : Circuit) (way : List Handle) (handle : Handle) : Prop :=
  ∀ step ∈ way, ∃ read, c.ReadsFrom step read ∧ c.DependsOn read handle

theorem LeadsTo.nil (c : Circuit) (handle : Handle) : c.LeadsTo [] handle := by
  intro step member
  cases member

/-- The way goes on to a source. -/
theorem LeadsTo.cons (leads : c.LeadsTo way handle) {source : Handle}
    (read : c.ReadsFrom handle source) : c.LeadsTo (handle :: way) source := by
  intro step member
  rcases List.mem_cons.mp member with rfl | before
  · exact ⟨source, read, .refl source⟩
  · obtain ⟨other, reads, depends⟩ := leads step before
    exact ⟨other, reads, depends.trans (.step read (.refl source))⟩

theorem readsFrom_of_split {source : Handle} {before after : List Handle}
    (sources : c.reads handle = before ++ source :: after) : c.ReadsFrom handle source := by
  rw [ReadsFrom, sources]
  exact List.mem_append_right before (List.mem_cons_self ..)

open Classical in
/-- The first source without a value, said by searching for it. -/
theorem find?_of_split {source : Handle} {before after : List Handle}
    (sources : c.reads handle = before ++ source :: after)
    (valued : ∀ other ∈ before, ∃ value, c.HasValue other value)
    (unvalued : ∀ value, ¬ c.HasValue source value) :
    (c.reads handle).find? (fun other => decide (∀ value, ¬ c.HasValue other value)) =
      some source := by
  refine List.find?_eq_some_iff_append.mpr ⟨decide_eq_true unvalued, before, after, sources, ?_⟩
  intro other member
  obtain ⟨value, has⟩ := valued other member
  rw [Bool.not_eq_true', decide_eq_false_iff_not]
  exact fun none => none value has

namespace ReturnsTo

theorem dependsOn (returns : c.ReturnsTo way handle place) : c.DependsOn handle place := by
  induction returns with
  | here _ => exact .refl _
  | further _ sources _ _ ih => exact .step (readsFrom_of_split sources) ih

/-- **The place lies on a cycle.** -/
theorem onCycle (returns : c.ReturnsTo way handle place) (leads : c.LeadsTo way handle) :
    c.OnCycle place := by
  induction returns with
  | here met => exact leads _ met
  | further _ sources _ _ ih => exact ih (leads.cons (readsFrom_of_split sources))

theorem not_hasValue (returns : c.ReturnsTo way handle place) (leads : c.LeadsTo way handle)
    (value : Bool) : ¬ c.HasValue handle value := by
  intro valued
  obtain ⟨_, other⟩ := valued.of_dependsOn returns.dependsOn
  exact other.not_onCycle (returns.onCycle leads)

/-- **There is one such place**, because there is one first source without a value. -/
theorem unique {first second : Handle} (one : c.ReturnsTo way handle first)
    (other : c.ReturnsTo way handle second) (leads : c.LeadsTo way handle) : first = second := by
  induction one generalizing second with
  | here met =>
    cases other with
    | here _ => rfl
    | further fresh _ _ _ => exact absurd met fresh
  | @further way handle source first before after fresh sources valued back ih =>
    cases other with
    | here met => exact absurd met fresh
    | @further _ _ source' _ before' after' _ sources' valued' back' =>
      have on := leads.cons (readsFrom_of_split sources)
      have on' := leads.cons (readsFrom_of_split sources')
      have found := find?_of_split sources valued (back.not_hasValue on)
      have found' := find?_of_split sources' valued' (back'.not_hasValue on')
      obtain rfl : source = source' := Option.some.inj (found.symm.trans found')
      exact ih back' on

end ReturnsTo

end Switching.Circuit
