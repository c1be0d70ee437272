import TwoWaySql.Value.Bindable

/-!
# Scopes

A scope binds names to values. Its bindings are listed with the newest first, and no name occurs
twice; `lookup` is all that evaluation sees of it, so each operation is described by what `lookup`
gives afterwards.
-/

namespace TwoWaySql

/-- Named values visible to expressions. -/
structure Scope where
  entries : List (String × BoundValue)
  nodup : (entries.map (·.1)).Nodup

namespace Scope

def empty : Scope := ⟨[], .nil⟩

instance : Inhabited Scope := ⟨empty⟩

def lookup (s : Scope) (name : String) : Option BoundValue := s.entries.lookup name

def contains (s : Scope) (name : String) : Bool := (s.lookup name).isSome

/-- The scope without the binding of `name`. -/
def erase (s : Scope) (name : String) : Scope :=
  ⟨s.entries.filter (·.1 ≠ name), s.nodup.sublist (List.filter_sublist.map _)⟩

/-- The scope with `name` bound to `value`, whatever it was bound to before. -/
def insert (s : Scope) (name : String) (value : BoundValue) : Scope :=
  ⟨(name, value) :: (s.erase name).entries,
    List.nodup_cons.mpr ⟨by simp [erase], (s.erase name).nodup⟩⟩

/-- Binds a name to anything that can be bound, with the type declared for it. -/
def bind {α : Type} [Bindable α] (s : Scope) (name : String) (a : α) : Scope :=
  s.insert name (.ofBindable a)

/-- Gives a name the binding that it has in another scope, or none. -/
def restore (s saved : Scope) (name : String) : Scope :=
  match saved.lookup name with
  | some value => s.insert name value
  | none => s.erase name

def size (s : Scope) : Nat := s.entries.length

def isEmpty (s : Scope) : Bool := s.entries.isEmpty

/-- The scope of the given bindings; of bindings of one name the last counts. -/
def ofList (bindings : List (String × BoundValue)) : Scope :=
  bindings.foldl (fun s b => s.insert b.1 b.2) empty

theorem lookup_empty (n : String) : empty.lookup n = none := rfl

theorem lookup_erase (s : Scope) (m n : String) :
    (s.erase m).lookup n = if n = m then none else s.lookup n := by
  simp only [lookup, erase]
  generalize s.entries = entries
  induction entries with
  | nil => simp
  | cons e es ih =>
    obtain ⟨k, v⟩ := e
    by_cases hk : k = m
    · rw [List.filter_cons_of_neg (by simp [hk]), ih, List.lookup_cons]
      by_cases hn : n = m
      · simp [hn]
      · have h : (n == k) = false := by simp [hk, hn]
        simp [hn, h]
    · rw [List.filter_cons_of_pos (by simp [hk]), List.lookup_cons, List.lookup_cons, ih]
      by_cases hn : n = k
      · simp [hn, hk]
      · have h : (n == k) = false := by simp [hn]
        simp [h]

theorem lookup_insert (s : Scope) (m n : String) (v : BoundValue) :
    (s.insert m v).lookup n = if n = m then some v else s.lookup n := by
  have h : (s.insert m v).lookup n = if n == m then some v else (s.erase m).lookup n := by
    simp only [insert, lookup, List.lookup_cons]
    cases n == m <;> rfl
  rw [h, lookup_erase]
  by_cases hn : n = m <;> simp [hn]

theorem lookup_restore (s saved : Scope) (m n : String) :
    (s.restore saved m).lookup n = if n = m then saved.lookup n else s.lookup n := by
  unfold restore
  split <;> rename_i h <;> simp only [lookup_insert, lookup_erase] <;> split <;> simp_all

end Scope

end TwoWaySql
