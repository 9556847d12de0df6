/-
**Wires over runs.**

Which wires a circuit has follows from the log of a run: those that were connected, in order and as
often as they were, but for the ones that a later removal of one of their ends or a later clearing
took away. What an edit does to the wires is what its entry says: it keeps those that the entry does
not cut, in their order, and a connection comes last.

* `surviving`: the connections of a log that no later entry cuts;
* `surviving_append_singleton`: what one more entry changes;
* `Attempted.toList_wires`: an edit changes the wires as its entry says;
* `toList_wires_run`: so the wires after a run are the surviving connections of its log;
* `connected_iff_fits`: two elements are connected exactly if a wire between them fits;
* `WireLaws`, `wireLaws_run`: the wires of every circuit that was built by edits.
-/

import Mathlib.Data.List.Induction
import Switching.Circuit.Log
import Switching.Proofs.Circuit.Wiring

namespace Switching

/-! ### Entries -/

namespace Entry

/-- The wire that was connected. -/
def wire? : Entry → Option Wire
  | ⟨.connect source target, .ok _⟩ => some ⟨source, target⟩
  | _ => none

/-- Whether a wire was taken away: all were, or one of its ends was removed. -/
def cuts (wire : Wire) : Entry → Bool
  | ⟨.clear, .ok _⟩ => true
  | ⟨.remove removed, .ok _⟩ => wire.source = removed || wire.target = removed
  | _ => false

theorem wire?_refused (change : Edit) (e : Error) : wire? ⟨change, .error e⟩ = none := by
  cases change <;> rfl

theorem cuts_refused (wire : Wire) (change : Edit) (e : Error) :
    cuts wire ⟨change, .error e⟩ = false := by
  cases change <;> rfl

end Entry

namespace Circuit

/-! ### Connections of a log -/

/-- The wires that were connected and that no later entry cuts, in the order of the connections. -/
def surviving : List Entry → List Wire
  | [] => []
  | entry :: later =>
    (entry.wire?.filter fun wire => later.all fun next => !next.cuts wire).toList ++ surviving later

/-- **What one more entry changes**: some wires are cut, and one may be connected behind the rest. -/
theorem surviving_append_singleton (log : List Entry) (entry : Entry) :
    surviving (log ++ [entry]) =
      (surviving log).filter (fun wire => !entry.cuts wire) ++ entry.wire?.toList := by
  induction log with
  | nil => cases last : entry.wire? <;> simp [surviving, last]
  | cons first later ih =>
    rw [List.cons_append, surviving, surviving, ih, List.filter_append, List.append_assoc]
    congr 1
    cases first.wire? with
    | none => rfl
    | some wire =>
      cases kept : later.all fun next => !next.cuts wire <;> cases cut : entry.cuts wire <;>
        simp [Option.filter, kept, cut]

/-- Where an entry cuts nothing, all wires are kept. -/
theorem filter_uncut {entry : Entry} (uncut : ∀ wire, entry.cuts wire = false)
    (wires : List Wire) : wires.filter (fun wire => !entry.cuts wire) = wires :=
  List.filter_eq_self.mpr fun wire _ => by rw [uncut wire, Bool.not_false]

/-- **An edit changes the wires as its entry says.** -/
theorem Attempted.toList_wires {c left : Circuit} {change : Edit} {answer : Except Error Reply}
    (attempted : c.Attempted change answer left) :
    left.wires.toList =
      c.wires.toList.filter (fun wire => !Entry.cuts wire ⟨change, answer⟩) ++
        (Entry.wire? ⟨change, answer⟩).toList := by
  cases attempted with
  | refused failed =>
    rw [filter_uncut fun wire => Entry.cuts_refused wire _ _, Entry.wire?_refused]
    exact (List.append_nil _).symm
  | add element =>
    rw [filter_uncut fun _ => rfl]
    exact (List.append_nil _).symm
  | connect done =>
    obtain ⟨_, _, _, _, _, _, rfl⟩ := connect_eq_ok_iff.mp done
    rw [filter_uncut fun _ => rfl]
    exact Array.toList_push
  | setInput done =>
    rw [filter_uncut fun _ => rfl, wires_setInput done]
    exact (List.append_nil _).symm
  | toggleInput done =>
    rw [filter_uncut fun _ => rfl, wires_setInput (setInput_of_toggleInput done)]
    exact (List.append_nil _).symm
  | remove done =>
    obtain ⟨_, _, _, rfl⟩ := remove_eq_ok_iff.mp done
    simp [Entry.cuts, Entry.wire?]
  | clear => simp [Entry.cuts, Entry.wire?, Circuit.clear]

/-- **The wires after a run are the surviving connections of its log.** -/
theorem toList_wires_run (edits : List Edit) :
    (empty.run edits).wires.toList = surviving (empty.log edits) := by
  induction edits using List.reverseRecOn with
  | nil => rfl
  | append_singleton edits change ih =>
    have attempted := (empty.run edits).attempted change
    rw [run_append, log_append]
    show ((empty.run edits).edit change).wires.toList =
      surviving (empty.log edits ++ [⟨change, ((empty.run edits).attempt change).1⟩])
    rw [surviving_append_singleton, ← ih, ← attempt_snd, attempted.toList_wires]

/-! ### The laws -/

/-- **Two elements are connected exactly if a wire between them fits.** -/
theorem connected_iff_fits {c : Circuit} {source target : Handle} :
    (∃ reply, (c.attempt (.connect source target)).1 = .ok reply) ↔ c.Fits ⟨source, target⟩ := by
  constructor
  · rintro ⟨reply, answered⟩
    have attempted := c.attempted (.connect source target)
    rw [answered] at attempted
    generalize (c.attempt (.connect source target)).2 = left at attempted
    cases attempted with
    | connect done =>
      obtain ⟨driver, driven, live, sends, lives, takes, _⟩ := connect_eq_ok_iff.mp done
      exact ⟨⟨driver, live, sends⟩, ⟨driven, lives, takes⟩⟩
  · rintro ⟨⟨driver, live, sends⟩, ⟨driven, lives, takes⟩⟩
    have done := connect_eq_ok_iff.mpr ⟨driver, driven, live, sends, lives, takes, rfl⟩
    refine ⟨.done, ?_⟩
    simp only [attempt, done]
    rfl

theorem fanIn_eq (c : Circuit) (handle : Handle) :
    c.fanIn handle =
      (c.wires.toList.filter fun wire => wire.target = handle).map Wire.source := by
  unfold fanIn
  rw [Array.toList_filterMap]
  induction c.wires.toList with
  | nil => rfl
  | cons wire wires ih => by_cases ends : wire.target = handle <;> simp [ends, ih]

/-- What the wires are in a circuit that was built by these edits. -/
structure WireLaws (edits : List Edit) (c : Circuit) : Prop where
  /-- They are the connections that no later removal or clearing took away, in their order and as
  often as they were made. -/
  listed : c.wires.toList = surviving (empty.log edits)
  /-- Both ends are elements, the first no output and the second no input. -/
  fits : ∀ wire ∈ c.wires, c.Fits wire
  /-- The fan-in of an element lists the surviving connections that end there. -/
  fanIn : ∀ handle, c.fanIn handle =
    ((surviving (empty.log edits)).filter fun wire => wire.target = handle).map Wire.source
  /-- One more connection is made exactly if its ends are of this kind. -/
  connected : ∀ source target,
    (∃ reply, (c.attempt (.connect source target)).1 = .ok reply) ↔ c.Fits ⟨source, target⟩

/-- **The wires of a circuit are its surviving connections**, whatever the edits are and whether they
fail, and their ends fit at all times. -/
theorem wireLaws_run (edits : List Edit) : WireLaws edits (empty.run edits) where
  listed := toList_wires_run edits
  fits := Reachable.wired ⟨edits, rfl⟩
  fanIn handle := by rw [fanIn_eq, toList_wires_run]
  connected _ _ := connected_iff_fits

/-- An inverter is wired to two inputs, to the first one twice, and the second one is removed. -/
example :
    surviving (empty.log [.add (.input true), .add (.input false), .add (.gate .not),
      .connect ⟨1⟩ ⟨2⟩, .connect ⟨0⟩ ⟨2⟩, .connect ⟨0⟩ ⟨2⟩, .connect ⟨2⟩ ⟨0⟩, .remove ⟨1⟩]) =
    [⟨⟨0⟩, ⟨2⟩⟩, ⟨⟨0⟩, ⟨2⟩⟩] := by
  decide

end Circuit

end Switching
