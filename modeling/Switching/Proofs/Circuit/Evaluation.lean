/-
**What evaluation answers.**

The value of an element is found if there is one. Otherwise the element depends on a cycle, and the
answer names an element of that cycle. The only other answer is that there is no such element.

* `Invariant`: what holds between two turns of a pass;
* `Invariant.step`: a turn keeps it, or ends the pass with a value or with a cycle;
* `run_answers`: a whole pass ends with a value or with a cycle;
* `valueOf_spec`: the answers of evaluation, and when each of them is given.
-/

import Switching.Circuit.Value
import Switching.Proofs.Circuit.Stack

namespace Switching

namespace Pass

variable {c : Circuit} {root : Handle}

/-! ### Turns -/

/-- What the last turn left: a value that is awaited, or an element that has not looked yet. -/
inductive Due (root : Handle) : Option Bool → List (Frame c) → Prop
  | found {value : Bool} {source : Handle} {stack : List (Frame c)}
      (waits : Waits root source stack) (valued : c.HasValue source value) :
      Due root (some value) stack
  | looking {frame : Frame c} {waiting : List (Frame c)} (filled : frame.Filled)
      (waits : Waits root frame.handle waiting) : Due root none (frame :: waiting)

/-- **What holds between two turns of a pass.** -/
structure Invariant (root : Handle) (state : PassState c) : Prop where
  sound : state.marks.Sound state.stack
  due : Due root state.ready state.stack

/-- A cycle that the root depends on. -/
def Blocked (c : Circuit) (root : Handle) (e : Error) : Prop :=
  ∃ place, e = .cycle place ∧ c.DependsOn root place ∧ c.OnCycle place

/-- The place to which reading on from the root comes back first. -/
def Returns (c : Circuit) (root : Handle) (e : Error) : Prop :=
  ∃ place, e = .cycle place ∧ c.ReturnsTo [] root place

theorem Returns.blocked {e : Error} (returns : Returns c root e) : Blocked c root e := by
  obtain ⟨place, same, back⟩ := returns
  exact ⟨place, same, back.dependsOn, back.onCycle (.nil c root)⟩

/-- Where a turn may lead. -/
inductive Leads (root : Handle) : Outcome c → Prop
  | next {later : PassState c} (kept : Invariant root later) : Leads root (.next later)
  | finished {value : Bool} {marks : Marks c} (valued : c.HasValue root value)
      (sound : marks.Sound []) : Leads root (.finished value marks)
  | failed {e : Error} (returns : Returns c root e) : Leads root (.failed e)

/-- An element that takes what was found for it goes on waiting for the others. -/
theorem Due.receive {ready : Option Bool} {frame : Frame c} {waiting : List (Frame c)}
    (due : Due root ready (frame :: waiting)) :
    (frame.receive ready).Filled ∧ Waits root frame.handle waiting := by
  cases due with
  | found waits valued =>
    cases waits with
    | frame next filled below => exact ⟨filled.receive next valued, below⟩
  | looking filled waits => exact ⟨filled, waits⟩

/-- **A waiting element looks for its next source**, finds it known, lets it wait or meets it on a
cycle; or it has read all of them and has its value. -/
theorem advance_leads (wired : c.Wired) {marks : Marks c} {frame : Frame c}
    {waiting : List (Frame c)} (sound : marks.Sound (frame :: waiting)) (filled : frame.Filled)
    (below : Waits root frame.handle waiting) : Leads root (advance marks frame waiting) := by
  unfold advance
  split
  · rename_i source next
    have waits : Waits root source (frame :: waiting) := .frame next filled below
    have met := met_visit marks source
    obtain ⟨element, live⟩ := wired.live_of_reads (Frame.Next.reads next)
    split
    · rename_i e failed
      rw [failed] at met
      cases met with
      | unknown gone =>
        rw [gone] at live
        cases live
      | cyclic marked =>
        have met : source ∈ _ := (sound.waiting source).mp marked
        exact .failed ⟨source, rfl, waits.returnsTo sound.once (.here met)⟩
    · rename_i value known
      rw [known] at met
      cases met with
      | known marked => exact .next ⟨sound, .found waits (sound.done source value marked)⟩
    · rename_i later inner entered
      rw [entered] at met
      cases met with
      | entered same fresh marked =>
        have filled : inner.Filled := Frame.FilledBy.of_fresh fresh
        exact .next ⟨sound.enter marked, .looking filled (same.symm ▸ waits)⟩
  · rename_i nothing
    have valued := filled.hasValue nothing
    exact .next ⟨sound.leave valued, .found below valued⟩

/-- **A turn keeps the invariant, or ends the pass with a value or with a cycle.** -/
theorem Invariant.step (wired : c.Wired) {state : PassState c} (kept : Invariant root state) :
    Leads root (step state) := by
  obtain ⟨sound, due⟩ := kept
  unfold Pass.step
  split
  · cases due with
    | found waits valued =>
      cases waits with
      | root => exact .finished valued sound
  · rename_i busy
    exact absurd rfl (busy rfl)
  · rename_i marks frame waiting ready busy
    obtain ⟨filled, below⟩ := due.receive
    refine advance_leads wired (sound.of_handles ?_) filled ?_
    · rw [List.map_cons, List.map_cons, Frame.handle_receive]
    · rw [Frame.handle_receive]
      exact below

/-! ### Whole passes -/

/-- A pass begins with a value that was found before, or with an element that waits. -/
theorem Invariant.known {marks : Marks c} {value : Bool} (sound : marks.Sound [])
    (marked : marks.of? root = some (.done value)) :
    Invariant root (⟨marks, [], some value, fun same => absurd same (Option.some_ne_none value)⟩ :
      PassState c) :=
  ⟨sound, .found .root (sound.done root value marked)⟩

theorem Invariant.entered {marks : Marks c} {frame : Frame c} (sound : marks.Sound [])
    (same : frame.handle = root) (fresh : frame.inputs = #[])
    (marked : marks.inSlot frame.slot = .unvisited) :
    Invariant root (⟨marks.put frame.slot .inProgress, [frame], none,
      fun _ => List.cons_ne_nil _ _⟩ : PassState c) :=
  ⟨sound.enter marked, .looking (Frame.FilledBy.of_fresh fresh) (same.symm ▸ .root)⟩

/-- What a pass may answer. -/
inductive Answers (root : Handle) : Except Error (Bool × Marks c) → Prop
  | value {value : Bool} {marks : Marks c} (valued : c.HasValue root value)
      (sound : marks.Sound []) : Answers root (.ok (value, marks))
  | returns {e : Error} (returns : Returns c root e) : Answers root (.error e)

theorem proceed_answers (wired : c.Wired) {state : PassState c} (kept : Invariant root state) :
    Answers root (proceed state) := by
  fun_induction proceed state with
  | case1 state later taken ih =>
    have leads := kept.step wired
    rw [taken] at leads
    cases leads with
    | next kept => exact ih kept
  | case2 state value marks taken =>
    have leads := kept.step wired
    rw [taken] at leads
    cases leads with
    | finished valued sound => exact .value valued sound
  | case3 state e taken =>
    have leads := kept.step wired
    rw [taken] at leads
    cases leads with
    | failed returns => exact .returns returns

/-- **A pass for an element ends with its value or with a cycle**, and leaves no element waiting. -/
theorem run_answers (wired : c.Wired) {marks : Marks c} (sound : marks.Sound [])
    {element : Element} (live : c.get? root = some element) : Answers root (run c marks root) := by
  have met := met_visit marks root
  unfold run
  split
  · rename_i e failed
    rw [failed] at met
    cases met with
    | unknown gone =>
      rw [gone] at live
      cases live
    | cyclic marked => cases (sound.waiting root).mp marked
  · rename_i value known
    rw [known] at met
    cases met with
    | known marked =>
      exact proceed_answers wired (.known sound marked)
  · rename_i later frame entered
    rw [entered] at met
    cases met with
    | entered same fresh marked =>
      exact proceed_answers wired (.entered sound same fresh marked)

end Pass

/-! ### The value of an element -/

namespace Circuit

variable {c : Circuit} {handle : Handle}

theorem valueOf_of_get?_eq_none (gone : c.get? handle = none) :
    c.valueOf handle = .error (.unknownElement handle) := by
  have nowhere : c.slot? handle = none := by
    rw [← Option.not_isSome_iff_eq_none, ← c.isSome_get? handle, gone]
    exact Bool.false_ne_true
  have met : Pass.visit c (.initial c) handle = .error (.unknownElement handle) := by
    unfold Pass.visit
    split
    · rfl
    · rename_i placed
      rw [nowhere] at placed
      cases placed
  rw [valueOf, Pass.run, met]

/-- An element has its value as the answer, or a cycle that it depends on. -/
theorem valueOf_of_get?_eq_some (wired : c.Wired) {element : Element}
    (live : c.get? handle = some element) :
    (∃ value, c.valueOf handle = .ok value ∧ c.HasValue handle value) ∨
      ∃ e, c.valueOf handle = .error e ∧ Pass.Blocked c handle e := by
  have answers := Pass.run_answers wired (Marks.Sound.initial c) live
  unfold valueOf
  split
  · rename_i e failed
    rw [failed] at answers
    cases answers with
    | returns returns => exact .inr ⟨e, rfl, returns.blocked⟩
  · rename_i value marks found
    rw [found] at answers
    cases answers with
    | value valued _ => exact .inl ⟨value, rfl, valued⟩

theorem HasValue.not_blocked {value : Bool} (valued : c.HasValue handle value) :
    ¬ ∃ place, c.DependsOn handle place ∧ c.OnCycle place := by
  rintro ⟨place, depends, cycle⟩
  obtain ⟨other, valued⟩ := valued.of_dependsOn depends
  exact valued.not_onCycle cycle

theorem live_of_blocked (blocked : ∃ place, c.DependsOn handle place ∧ c.OnCycle place) :
    c.get? handle ≠ none := by
  intro gone
  have nothing (source : Handle) : ¬ c.ReadsFrom handle source := by
    rw [ReadsFrom, reads, gone]
    exact List.not_mem_nil
  obtain ⟨place, depends, source, read, back⟩ := blocked
  cases depends with
  | refl _ => exact nothing source read
  | step read _ => exact nothing _ read

/-- **What evaluation answers**, for every circuit that edits can build and every handle. Exactly a
handle without an element is unknown; exactly an element that depends on a cycle has a cycle as its
answer, and the element that the answer names lies on a cycle it depends on; every other element has
its value as the answer; and there is no other answer. -/
theorem valueOf_spec (reachable : c.Reachable) (handle : Handle) :
    (c.valueOf handle = .error (.unknownElement handle) ↔ c.get? handle = none) ∧
    ((∃ place, c.valueOf handle = .error (.cycle place)) ↔
      ∃ place, c.DependsOn handle place ∧ c.OnCycle place) ∧
    (∀ place, c.valueOf handle = .error (.cycle place) →
      c.DependsOn handle place ∧ c.OnCycle place) ∧
    (c.get? handle ≠ none → (¬ ∃ place, c.DependsOn handle place ∧ c.OnCycle place) →
      ∃ value, c.valueOf handle = .ok value ∧ c.HasValue handle value) ∧
    ∀ e, c.valueOf handle = .error e →
      e = .unknownElement handle ∨ ∃ place, e = .cycle place := by
  cases live : c.get? handle with
  | none =>
    have unknown := valueOf_of_get?_eq_none live
    rw [unknown]
    refine ⟨iff_of_true rfl rfl, ⟨?_, ?_⟩, ?_, fun some => absurd rfl some, ?_⟩
    · rintro ⟨place, same⟩
      cases same
    · intro blocked
      exact absurd live (live_of_blocked blocked)
    · intro place same
      cases same
    · intro e same
      cases same
      exact .inl rfl
  | some element =>
    rcases valueOf_of_get?_eq_some reachable.wired live with
      ⟨value, found, valued⟩ | ⟨e, failed, place, rfl, depends, cycle⟩
    · rw [found]
      refine ⟨by simp, ⟨?_, ?_⟩, ?_, fun _ _ => ⟨value, rfl, valued⟩, ?_⟩
      · rintro ⟨place, same⟩
        cases same
      · intro blocked
        exact absurd blocked valued.not_blocked
      · intro place same
        cases same
      · intro e same
        cases same
    · rw [failed]
      have blocked : ∃ place, c.DependsOn handle place ∧ c.OnCycle place := ⟨place, depends, cycle⟩
      refine ⟨by simp, iff_of_true ⟨place, rfl⟩ blocked, ?_, fun _ free => absurd blocked free, ?_⟩
      · intro other same
        cases same
        exact ⟨depends, cycle⟩
      · intro e same
        cases same
        exact .inr ⟨place, rfl⟩

/-- An inverter behind an input that is true, beside a gate that reads itself. -/
theorem valueOf_inverter_beside_loop :
    let c := empty.run [.add (.input true), .add (.gate .not), .connect ⟨0⟩ ⟨1⟩,
      .add (.gate .and), .connect ⟨2⟩ ⟨2⟩]
    c.Reachable ∧ c.valueOf ⟨1⟩ = .ok false ∧
      (∃ place, c.valueOf ⟨2⟩ = .error (.cycle place)) ∧
      c.valueOf ⟨3⟩ = .error (.unknownElement ⟨3⟩) := by
  intro c
  have reachable : c.Reachable := ⟨_, rfl⟩
  have input : c.HasValue ⟨0⟩ true := by
    have valued := @HasValue.intro c ⟨0⟩ (.input true) (by decide) (fun _ => true)
    exact valued fun source read => absurd read (by simp [show c.reads ⟨0⟩ = [] by decide])
  have inverter : c.HasValue ⟨1⟩ false := by
    have sources : c.reads ⟨1⟩ = [⟨0⟩] := by decide
    have valued := @HasValue.intro c ⟨1⟩ (.gate .not) (by decide) (fun _ => true)
    rw [sources] at valued
    refine valued fun source read => ?_
    rw [List.mem_singleton.mp read]
    exact input
  have loop : c.OnCycle ⟨2⟩ := by
    refine ⟨⟨2⟩, ?_, .refl _⟩
    show (⟨2⟩ : Handle) ∈ c.reads ⟨2⟩
    decide
  refine ⟨reachable, ?_, ?_, ?_⟩
  · obtain ⟨_, _, _, found, _⟩ := valueOf_spec reachable ⟨1⟩
    obtain ⟨value, answer, valued⟩ := found (by decide) inverter.not_blocked
    rw [answer, valued.unique inverter]
  · exact (valueOf_spec reachable ⟨2⟩).2.1.mpr ⟨⟨2⟩, .refl _, loop⟩
  · exact (valueOf_spec reachable ⟨3⟩).1.mpr (by decide)

end Circuit

end Switching
