/-
**One pass for several elements.**

A pass that has found the values of some elements goes past them where a new pass would go through
them. This changes no answer: an element has at most one value, and where it has none, the element
that a pass names is the one to which reading on from it first comes back, whatever the pass has
seen before.

* `mapM_eq_ok_iff`, `mapM_eq_error_iff`: what it means to do something in turn;
* `Pass.run_of_sound`: a pass answers for an element as a new pass does;
* `Pass.runAll_eq_mapM`: a pass answers for several elements as new passes do in turn;
* `Wired.valueOf_eq_ok_iff`, `Wired.valueOf_eq_error_iff`: what is answered, said without a pass;
* `values_spec`: the values of all elements.
-/

import Mathlib.Data.Fin.Tuple.Take
import Mathlib.Data.List.Forall2
import Mathlib.Data.List.Permutation
import Switching.Proofs.Circuit.Evaluation
import Switching.Proofs.Circuit.Listing

namespace Switching

/-! ### Doing something in turn -/

section InTurn

variable {Item Result Failure : Type} {f : Item → Except Failure Result} {items : List Item}

/-- All are done in turn when each of them can be. -/
theorem mapM_eq_ok_iff {results : List Result} :
    items.mapM f = .ok results ↔
      List.Forall₂ (fun item result => f item = .ok result) items results := by
  induction items generalizing results with
  | nil =>
    rw [List.mapM_nil, List.forall₂_nil_left_iff]
    exact ⟨fun same => (Except.ok.inj same).symm, fun same => same ▸ rfl⟩
  | cons item items ih =>
    rw [List.mapM_cons, List.forall₂_cons_left_iff]
    cases f item with
    | error e => simp [bind, Except.bind]
    | ok result =>
      cases rest : items.mapM f with
      | error e => simp [bind, Except.bind, ← ih, rest]
      | ok others => simp [bind, Except.bind, pure, Except.pure, ← ih, rest, eq_comm]

/-- Nothing is done behind the first that fails, and its failure is that of all. -/
theorem mapM_eq_error_iff {e : Failure} :
    items.mapM f = .error e ↔
      ∃ before item after, items = before ++ item :: after ∧
        (∀ other ∈ before, ∃ result, f other = .ok result) ∧ f item = .error e := by
  induction items with
  | nil => simp [pure, Except.pure]
  | cons first items ih =>
    rw [List.mapM_cons]
    constructor
    · intro failed
      cases here : f first with
      | error failure =>
        rw [here] at failed
        cases failed
        exact ⟨[], first, items, rfl, ⟨by simp, here⟩⟩
      | ok result =>
        rw [here] at failed
        cases rest : items.mapM f with
        | ok others =>
          rw [rest] at failed
          cases failed
        | error failure =>
          rw [rest] at failed
          cases failed
          obtain ⟨before, item, after, rfl, done, stops⟩ := ih.mp rest
          exact ⟨first :: before, item, after, rfl,
            List.forall_mem_cons.mpr ⟨⟨result, here⟩, done⟩, stops⟩
    · rintro ⟨before, item, after, split, done, stops⟩
      cases before with
      | nil =>
        cases split
        rw [stops]
        rfl
      | cons _ before =>
        cases split
        obtain ⟨⟨result, here⟩, done⟩ := List.forall_mem_cons.mp done
        rw [here, ih.mpr ⟨before, item, after, rfl, done, stops⟩]
        rfl

theorem getElem?_of_mapM {results : List Result} (done : items.mapM f = .ok results) {place : Nat}
    {item : Item} (here : items[place]? = some item) :
    ∃ result, results[place]? = some result ∧ f item = .ok result := by
  have each := mapM_eq_ok_iff.mp done
  obtain ⟨inside, rfl⟩ := List.getElem?_eq_some_iff.mp here
  have inside' : place < results.length := each.length_eq ▸ inside
  exact ⟨results[place], List.getElem?_eq_getElem inside', each.get inside inside'⟩

theorem exists_mapM_iff :
    (∃ results, items.mapM f = .ok results) ↔ ∀ item ∈ items, ∃ result, f item = .ok result := by
  constructor
  · rintro ⟨results, done⟩ item member
    obtain ⟨place, here⟩ := List.mem_iff_getElem?.mp member
    obtain ⟨result, _, found⟩ := getElem?_of_mapM done here
    exact ⟨result, found⟩
  · intro all
    cases each : items.mapM f with
    | ok results => exact ⟨results, rfl⟩
    | error e =>
      obtain ⟨before, item, after, rfl, _, failed⟩ := mapM_eq_error_iff.mp each
      obtain ⟨result, done⟩ := all item (List.mem_append_right _ (List.mem_cons_self ..))
      rw [failed] at done
      cases done

end InTurn

/-! ### Passes that have found some values -/

namespace Pass

variable {c : Circuit} {handle : Handle} {marks : Marks c}

/-- **Two answers for an element agree**, apart from what the passes know after them. -/
theorem Answers.agree {one other : Except Error (Bool × Marks c)} (first : Answers handle one)
    (second : Answers handle other) : one.map Prod.fst = other.map Prod.fst := by
  have nil := Circuit.LeadsTo.nil c handle
  cases first with
  | value valued _ =>
    cases second with
    | value valued' _ => exact congrArg Except.ok (valued.unique valued')
    | returns returns =>
      obtain ⟨_, _, back⟩ := returns
      exact absurd valued (back.not_hasValue nil _)
  | returns returns =>
    obtain ⟨_, rfl, back⟩ := returns
    cases second with
    | value valued _ => exact absurd valued (back.not_hasValue nil _)
    | returns returns =>
      obtain ⟨_, rfl, back'⟩ := returns
      exact congrArg (Except.error ∘ Error.cycle) (back.unique back' nil)

/-- **A pass answers as a new pass does**, whatever values it has found. -/
theorem run_of_sound (wired : c.Wired) (sound : marks.Sound []) {element : Element}
    (live : c.get? handle = some element) :
    (run c marks handle).map Prod.fst = c.valueOf handle := by
  rw [(run_answers wired sound live).agree (run_answers wired (Marks.Sound.initial c) live),
    Circuit.valueOf]
  cases run c (.initial c) handle <;> rfl

theorem runAll_of_error {e : Error} (failed : run c marks handle = .error e)
    (others : List Handle) : runAll c marks (handle :: others) = .error e := by
  rw [runAll, failed]

theorem runAll_of_ok {value : Bool} {later : Marks c}
    (found : run c marks handle = .ok (value, later)) (others : List Handle) :
    runAll c marks (handle :: others) = (runAll c later others).map (value :: ·) := by
  rw [runAll, found]
  simp only
  cases runAll c later others <;> rfl

/-- **A pass answers for several elements as new passes do in turn**, errors included. -/
theorem runAll_eq_mapM (wired : c.Wired) (sound : marks.Sound []) {handles : List Handle}
    (live : ∀ handle ∈ handles, ∃ element, c.get? handle = some element) :
    runAll c marks handles = handles.mapM c.valueOf := by
  induction handles generalizing marks with
  | nil => rfl
  | cons handle others ih =>
    obtain ⟨⟨element, here⟩, there⟩ := List.forall_mem_cons.mp live
    have answers := run_answers wired sound here
    rw [List.mapM_cons, ← run_of_sound wired sound here]
    cases found : run c marks handle with
    | error e => exact runAll_of_error found others
    | ok answer =>
      rw [found] at answers
      cases answers with
      | value _ kept =>
        rw [runAll_of_ok found, ih kept there]
        cases others.mapM c.valueOf <;> rfl

end Pass

/-! ### What evaluation answers, without a pass -/

namespace Circuit

variable {c : Circuit}

theorem Wired.valueOf_cases (wired : c.Wired) {handle : Handle} {element : Element}
    (live : c.get? handle = some element) :
    (∃ value, c.valueOf handle = .ok value ∧ c.HasValue handle value) ∨
      ∃ e, c.valueOf handle = .error e ∧ Pass.Returns c handle e := by
  have answers := Pass.run_answers wired (Marks.Sound.initial c) live
  rw [← Pass.run_of_sound wired (Marks.Sound.initial c) live]
  generalize Pass.run c (.initial c) handle = answer at answers
  cases answers with
  | value valued _ => exact .inl ⟨_, rfl, valued⟩
  | returns returns => exact .inr ⟨_, rfl, returns⟩

theorem Wired.valueOf_eq_ok_iff (wired : c.Wired) {handle : Handle} {value : Bool} :
    c.valueOf handle = .ok value ↔ c.HasValue handle value := by
  cases live : c.get? handle with
  | none =>
    rw [valueOf_of_get?_eq_none live]
    refine iff_of_false (by simp) fun valued => ?_
    have some := valued.live
    rw [live] at some
    cases some
  | some element =>
    rcases wired.valueOf_cases live with ⟨other, answer, valued⟩ | ⟨e, answer, _, _, back⟩
    · rw [answer, Except.ok.injEq]
      exact ⟨fun same => same ▸ valued, fun also => valued.unique also⟩
    · rw [answer]
      exact iff_of_false (by simp) (back.not_hasValue (.nil c handle) value)

theorem Wired.valueOf_eq_error_iff (wired : c.Wired) {handle : Handle} {element : Element}
    (live : c.get? handle = some element) {e : Error} :
    c.valueOf handle = .error e ↔ Pass.Returns c handle e := by
  rcases wired.valueOf_cases live with ⟨value, answer, valued⟩ | ⟨_, answer, place, rfl, back⟩
  · rw [answer]
    refine iff_of_false (by simp) ?_
    rintro ⟨_, _, back⟩
    exact back.not_hasValue (.nil c handle) value valued
  · rw [answer, Except.error.injEq]
    constructor
    · rintro rfl
      exact ⟨place, rfl, back⟩
    · rintro ⟨_, rfl, back'⟩
      exact congrArg Error.cycle (back.unique back' (.nil c handle))

/-! ### The values of all elements -/

theorem Wired.values_eq (wired : c.Wired) :
    c.values = (c.handles.mapM c.valueOf).map fun found => ⟨c.handles.zip found⟩ := by
  rw [values, Pass.runAll_eq_mapM wired (Marks.Sound.initial c) fun _ => mem_handles_iff.mp]
  cases c.handles.mapM c.valueOf <;> rfl

/-- The values that are found are those of the elements. -/
theorem Wired.values_eq_ok (wired : c.Wired) {answer : CircuitValues}
    (found : c.values = .ok answer) :
    answer.entries.map Prod.fst = c.handles ∧
      ∀ handle value, (handle, value) ∈ answer.entries → c.valueOf handle = .ok value := by
  rw [wired.values_eq] at found
  cases each : c.handles.mapM c.valueOf with
  | error e =>
    rw [each] at found
    cases found
  | ok values =>
    rw [each] at found
    cases found
    have valued := mapM_eq_ok_iff.mp each
    refine ⟨List.map_fst_zip (Nat.le_of_eq valued.length_eq), fun handle value member => ?_⟩
    exact List.forall₂_zip valued member

theorem Wired.exists_values (wired : c.Wired)
    (all : ∀ handle ∈ c.handles, ∃ value, c.valueOf handle = .ok value) :
    ∃ answer, c.values = .ok answer := by
  obtain ⟨values, each⟩ := exists_mapM_iff.mpr all
  rw [wired.values_eq, each]
  exact ⟨_, rfl⟩

/-- The entry of a handle shows its value. -/
theorem Wired.get?_values (wired : c.Wired) {answer : CircuitValues}
    (found : c.values = .ok answer) {handle : Handle} {element : Element}
    (live : c.get? handle = some element) :
    ∃ value, answer.get? handle = some value ∧ c.valueOf handle = .ok value := by
  obtain ⟨listed, valued⟩ := wired.values_eq_ok found
  have member : handle ∈ answer.entries.map Prod.fst := by
    rw [listed]
    exact mem_handles_iff.mpr ⟨element, live⟩
  obtain ⟨entry, here, same⟩ := List.mem_map.mp member
  have some : (answer.entries.find? fun entry => entry.1 = handle).isSome = true :=
    List.find?_isSome.mpr ⟨entry, here, decide_eq_true same⟩
  obtain ⟨⟨other, value⟩, first⟩ := Option.isSome_iff_exists.mp some
  have same' := List.find?_some first
  obtain rfl : other = handle := of_decide_eq_true same'
  refine ⟨value, ?_, valued other value (List.mem_of_find?_eq_some first)⟩
  rw [CircuitValues.get?, first]
  rfl

/-- **The values of all elements** of a circuit that edits can build, found in one pass, are what
evaluation answers for each of them on its own, in the order of the handles. If it has a value for
each, they are listed with these, each once, and every wire carries the value of its source.
Otherwise the answer is that for the first element without a value, the element of the cycle that it
names included. -/
theorem values_spec (reachable : c.Reachable) :
    (Ascending c.handles ∧ ∀ handle, handle ∈ c.handles ↔ c.get? handle ≠ none) ∧
    ((∀ handle ∈ c.handles, ∃ value, c.valueOf handle = .ok value) →
      ∃ answer, c.values = .ok answer ∧ answer.entries.map Prod.fst = c.handles ∧
        (∀ handle value, (handle, value) ∈ answer.entries → c.valueOf handle = .ok value) ∧
        ∀ wire ∈ c.wires, ∃ value, answer.wire? wire = some value ∧
          c.valueOf wire.source = .ok value) ∧
    ∀ before handle after e, c.handles = before ++ handle :: after →
      (∀ other ∈ before, ∃ value, c.valueOf other = .ok value) →
      c.valueOf handle = .error e → c.values = .error e := by
  have wired := reachable.wired
  refine ⟨⟨c.ascending_handles, fun handle => ?_⟩, fun all => ?_, ?_⟩
  · rw [mem_handles_iff, ← Option.isSome_iff_exists, Option.isSome_iff_ne_none]
  · obtain ⟨answer, found⟩ := wired.exists_values all
    obtain ⟨listed, valued⟩ := wired.values_eq_ok found
    refine ⟨answer, found, listed, valued, fun wire member => ?_⟩
    obtain ⟨driver, live, _⟩ := (wired wire member).source
    exact wired.get?_values found live
  · intro before handle after e split done failed
    rw [wired.values_eq, mapM_eq_error_iff.mpr ⟨before, handle, after, split, done, failed⟩]
    rfl

/-- An input that is read by two gates, one of which reads the other. -/
def reconvergent : Circuit :=
  empty.run [.add (.input true), .add (.gate .not), .add (.gate .or),
    .connect ⟨0⟩ ⟨1⟩, .connect ⟨0⟩ ⟨2⟩, .connect ⟨1⟩ ⟨2⟩]

/-- Two gates that read each other behind an input, and an output that reads the input. -/
def crossed : Circuit :=
  empty.run [.add (.input true), .add (.gate .or), .add (.gate .and), .add .output,
    .connect ⟨0⟩ ⟨1⟩, .connect ⟨2⟩ ⟨1⟩, .connect ⟨1⟩ ⟨2⟩, .connect ⟨0⟩ ⟨3⟩]

/-- Gates that share an input have values; gates that read each other are stopped at the first. -/
theorem values_reconvergent_crossed :
    (∃ answer, reconvergent.values = .ok answer ∧ answer.wire? ⟨⟨1⟩, ⟨2⟩⟩ = some false) ∧
      crossed.values = .error (.cycle ⟨1⟩) := by
  constructor
  · have reachable : reconvergent.Reachable := ⟨_, rfl⟩
    have input : reconvergent.valueOf ⟨0⟩ = .ok true := by cbv
    have inverter : reconvergent.valueOf ⟨1⟩ = .ok false := by cbv
    have gate : reconvergent.valueOf ⟨2⟩ = .ok true := by cbv
    have handles : reconvergent.handles = [⟨0⟩, ⟨1⟩, ⟨2⟩] := by cbv
    have all :
        ∀ handle ∈ reconvergent.handles, ∃ value, reconvergent.valueOf handle = .ok value := by
      simp [handles, input, inverter, gate]
    have wires : reconvergent.wires = #[⟨⟨0⟩, ⟨1⟩⟩, ⟨⟨0⟩, ⟨2⟩⟩, ⟨⟨1⟩, ⟨2⟩⟩] := by cbv
    obtain ⟨answer, found, _, _, carried⟩ := (values_spec reachable).2.1 all
    obtain ⟨value, here, same⟩ := carried ⟨⟨1⟩, ⟨2⟩⟩ (by simp [wires])
    cases inverter.symm.trans same
    exact ⟨answer, found, here⟩
  · have reachable : crossed.Reachable := ⟨_, rfl⟩
    have handles : crossed.handles = [⟨0⟩] ++ ⟨1⟩ :: [⟨2⟩, ⟨3⟩] := by cbv
    have input : crossed.valueOf ⟨0⟩ = .ok true := by cbv
    have gate : crossed.valueOf ⟨1⟩ = .error (.cycle ⟨1⟩) := by cbv
    exact (values_spec reachable).2.2 _ _ _ _ handles (by simp [input]) gate

end Circuit

end Switching
