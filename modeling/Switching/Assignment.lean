/-
**Assignments.**

An assignment binds variables to truth values and keeps the order in which the variables were first
bound: that order decides which bit of a row's number a variable is.

* `vars_insert`: binding a bound variable again keeps the order, a new one comes last;
* `get?_insert`: the last binding of a variable counts, and the others stay;
* `index_lt`: the row number of an assignment of `n` variables is below `1 <<< n`.
-/

import Switching.Text.Digit
import Switching.Variable

namespace Switching

/-! ### Lists of bindings -/

/-- Variables with their values, in order. -/
abbrev Bindings := List (Variable × Bool)

namespace Bindings

/-- The bound variables in order. -/
def vars (entries : Bindings) : List Variable := entries.map Prod.fst

/-- Binds a variable, in its old place or else at the end. -/
def insert (v : Variable) (value : Bool) : Bindings → Bindings
  | [] => [(v, value)]
  | (w, old) :: rest => if w = v then (w, value) :: rest else (w, old) :: insert v value rest

/-- The value of the first binding of a variable. -/
def get? (w : Variable) : Bindings → Option Bool
  | [] => none
  | (v, value) :: rest => if w = v then some value else get? w rest

/-- Binding keeps the order of the bound variables. -/
theorem vars_insert (v : Variable) (value : Bool) (entries : Bindings) :
    vars (insert v value entries) =
      if v ∈ vars entries then vars entries else vars entries ++ [v] := by
  induction entries with
  | nil => simp [insert, vars]
  | cons entry rest ih =>
    obtain ⟨w, old⟩ := entry
    by_cases same : w = v
    · simp [insert, vars, same]
    · have different : v ≠ w := fun equal => same equal.symm
      unfold vars at ih
      simp only [insert, vars, same, if_false, List.map_cons, ih, List.mem_cons, different,
        false_or]
      split <;> simp

theorem nodup_vars_insert (v : Variable) (value : Bool) {entries : Bindings}
    (distinct : (vars entries).Nodup) : (vars (insert v value entries)).Nodup := by
  rw [vars_insert]
  split
  · exact distinct
  · rename_i new
    rw [List.nodup_append]
    refine ⟨distinct, by simp, fun w member u single equal => ?_⟩
    rw [List.mem_singleton] at single
    exact new (single ▸ equal ▸ member)

theorem get?_isSome {w : Variable} {entries : Bindings} :
    (get? w entries).isSome = true ↔ w ∈ vars entries := by
  induction entries with
  | nil => simp [get?, vars]
  | cons entry rest ih =>
    obtain ⟨v, value⟩ := entry
    by_cases same : w = v
    · simp [get?, vars, same]
    · simpa [get?, vars, same] using ih

end Bindings

/-! ### The type -/

/-- An ordered assignment of truth values to distinct variables. -/
structure Assignment where
  /-- The bindings, in order of first binding. -/
  entries : Bindings
  distinct : entries.vars.Nodup
deriving DecidableEq

namespace Assignment

/-- The assignment that binds nothing. -/
def empty : Assignment := ⟨[], List.nodup_nil⟩

/-- Binds a variable; one that is already bound keeps its place. -/
def insert (a : Assignment) (v : Variable) (value : Bool) : Assignment :=
  ⟨a.entries.insert v value, Bindings.nodup_vars_insert v value a.distinct⟩

/-- The assignment that a list of bindings describes, one after another. -/
def ofList (bindings : Bindings) : Assignment :=
  bindings.foldl (fun a binding => a.insert binding.1 binding.2) empty

/-- The value of a variable, if it is bound. -/
def get? (a : Assignment) (v : Variable) : Option Bool := a.entries.get? v

/-- The bound variables in order. -/
def vars (a : Assignment) : List Variable := a.entries.vars

/-- The values in the order of their variables. -/
def values (a : Assignment) : List Bool := a.entries.map Prod.snd

/-- The number of bound variables. -/
def size (a : Assignment) : Nat := a.entries.length

/-- The number whose binary digits the values are, the first one the most significant. -/
def index (a : Assignment) : Nat := Text.ofDigits a.values

/-- The values as digits. -/
def bits (a : Assignment) : String := Text.digits a.values

/-- The bindings as text, such as `a=0, b=1`. -/
def text (a : Assignment) : String :=
  ", ".intercalate (a.entries.map fun (v, value) => String.ofList [v.name, '=', Text.digit value])

/-! ### Laws -/

@[ext] theorem ext {a b : Assignment} (same : a.entries = b.entries) : a = b := by
  cases a; cases b; simp_all

theorem nodup_vars (a : Assignment) : a.vars.Nodup := a.distinct

@[simp] theorem vars_empty : empty.vars = [] := rfl

@[simp] theorem get?_empty (v : Variable) : empty.get? v = none := rfl

/-- A variable bound again keeps its place, a new one comes last. -/
theorem vars_insert (a : Assignment) (v : Variable) (value : Bool) :
    (a.insert v value).vars = if v ∈ a.vars then a.vars else a.vars ++ [v] :=
  Bindings.vars_insert v value a.entries

@[simp] theorem ofList_nil : ofList [] = empty := rfl

theorem ofList_append_singleton (bindings : Bindings) (v : Variable) (value : Bool) :
    ofList (bindings ++ [(v, value)]) = (ofList bindings).insert v value := by
  simp [ofList]

@[simp] theorem length_vars (a : Assignment) : a.vars.length = a.size := by
  simp [vars, Bindings.vars, size]

@[simp] theorem length_values (a : Assignment) : a.values.length = a.size := by
  simp [values, size]

/-- The row number of `n` variables is below `1 <<< n`. -/
theorem index_lt (a : Assignment) : a.index < 1 <<< a.size := by
  have bound := Text.ofDigits_lt a.values
  rwa [length_values] at bound

end Assignment

end Switching
