import Mathlib.Data.String.Basic
import TwoWaySql.Json.Reader
import TwoWaySql.Json.Value
import TwoWaySql.Proofs.Outcome

/-!
# Values of JSON documents

A document becomes a value of the same structure, and an object becomes a scope with its fields as
parameters. The integers in it are kept exactly as long as they fit 64 bits with a sign; beyond that
they are rounded (`ofJson_exact_iff`).
-/

namespace TwoWaySql

/-! ## Fields with one name -/

theorem lookup_cons {β : Type} (name : String) (b : β) (fs : List (String × β)) (n : String) :
    ((name, b) :: fs).lookup n = if n = name then some b else fs.lookup n := by
  rw [List.lookup_cons]
  by_cases hn : n = name
  · rw [beq_iff_eq.mpr hn, if_pos hn]
  · rw [beq_eq_false_iff_ne.mpr hn, if_neg hn]

/-- If fields are put in one after the other, the last one with a name is found. -/
theorem lookup_foldl {σ β : Type} (lookup : σ → String → Option β) (put : σ → String × β → σ)
    (hput : ∀ s f n, lookup (put s f) n = if n = f.1 then some f.2 else lookup s n)
    (fields : List (String × β)) (s : σ) (n : String) :
    lookup (fields.foldl put s) n = (fields.reverse.lookup n).or (lookup s n) := by
  induction fields generalizing s with
  | nil => rfl
  | cons f fs ih =>
    rw [List.foldl_cons, ih, hput, List.reverse_cons, List.lookup_append, Option.or_assoc,
      lookup_cons]
    congr 1
    split <;> rfl

theorem Scope.lookup_ofList (bindings : List (String × BoundValue)) (n : String) :
    (Scope.ofList bindings).lookup n = bindings.reverse.lookup n := by
  have hput (s : Scope) (f : String × BoundValue) (n : String) := lookup_insert s f.1 n f.2
  rw [ofList, lookup_foldl Scope.lookup _ hput, lookup_empty, Option.or_none]

namespace Value

variable {name : String} {v : BoundValue} {fs : List (String × BoundValue)}

theorem lookup_insertField (n : String) :
    (insertField name v fs).lookup n = if n = name then some v else fs.lookup n := by
  induction fs with
  | nil => exact lookup_cons name v [] n
  | cons f fs ih =>
    obtain ⟨k, w⟩ := f
    unfold insertField
    split
    · exact lookup_cons name v _ n
    · split <;> rename_i hk <;> rw [lookup_cons, lookup_cons]
      · rw [show name = k from hk]
        split <;> rfl
      · rw [ih]
        split
        · rename_i hn
          rw [if_neg (by rw [hn]; exact Ne.symm hk)]
        · rfl

/-- The fields of a record that is made of fields. -/
def fieldsOf (fields : List (String × BoundValue)) : List (String × BoundValue) :=
  fields.foldl (fun fs f => insertField f.1 f.2 fs) []

theorem lookup_fieldsOf (fields : List (String × BoundValue)) (n : String) :
    (fieldsOf fields).lookup n = fields.reverse.lookup n := by
  have hput (fs : List (String × BoundValue)) (f : String × BoundValue) (n : String) :
      (insertField f.1 f.2 fs).lookup n = if n = f.1 then some f.2 else fs.lookup n :=
    lookup_insertField n
  have hfields := lookup_foldl (fun fs n => List.lookup n fs) _ hput fields [] n
  rwa [List.lookup_nil, Option.or_none] at hfields

theorem mem_insertField {f : String × BoundValue} (h : f ∈ insertField name v fs) :
    f = (name, v) ∨ f ∈ fs := by
  induction fs with
  | nil => simpa [insertField] using h
  | cons g gs ih =>
    unfold insertField at h
    split at h
    · simpa using h
    · split at h
      · rcases List.mem_cons.mp h with h | h
        · exact .inl h
        · exact .inr (List.mem_cons_of_mem g h)
      · rcases List.mem_cons.mp h with rfl | h
        · exact .inr List.mem_cons_self
        · exact (ih h).imp_right (List.mem_cons_of_mem g)

/-- Fields in the order of their names, no name twice. -/
abbrev Sorted (fs : List (String × BoundValue)) : Prop := fs.Pairwise (·.1 < ·.1)

theorem Sorted.insertField (h : Sorted fs) : Sorted (insertField name v fs) := by
  induction fs with
  | nil => exact List.pairwise_singleton _ _
  | cons f fs ih =>
    obtain ⟨hf, hfs⟩ := List.pairwise_cons.mp h
    unfold Value.insertField
    split
    · rename_i hlt
      refine List.pairwise_cons.mpr ⟨fun g hg => ?_, h⟩
      rcases List.mem_cons.mp hg with rfl | hg
      · exact hlt
      · exact lt_trans hlt (hf g hg)
    · rename_i hlt
      split
      · rename_i heq
        exact List.pairwise_cons.mpr ⟨fun g hg => heq ▸ hf g hg, hfs⟩
      · rename_i hne
        refine List.pairwise_cons.mpr ⟨fun g hg => ?_, ih hfs⟩
        rcases mem_insertField hg with rfl | hg
        · exact lt_of_le_of_ne (not_lt.mp hlt) (Ne.symm hne)
        · exact hf g hg

theorem sorted_fieldsOf (fields : List (String × BoundValue)) : Sorted (fieldsOf fields) := by
  suffices h : ∀ fs, Sorted fs → Sorted (fields.foldl (fun fs f => insertField f.1 f.2 fs) fs) from
    h [] List.Pairwise.nil
  induction fields with
  | nil => exact fun fs h => h
  | cons f fields ih => exact fun fs h => ih _ h.insertField

end Value

/-! ## Values of the same structure -/

namespace Json

mutual

/-- The value has the structure of the document, and stands for its integers by `p`. -/
def Keeps (p : Int → Value → Prop) : Json → Value → Prop
  | .null, v => v = .null
  | .bool b, v => v = .bool b
  | .integer n, v => p n v
  | .real _, v => v.type = .double
  | .string s, v => v = .string s
  | .array items, v => ∃ vs, v = .list vs ∧ KeepsItems p items vs
  | .object fields, v => ∃ fs, v = .record fs ∧ Value.Sorted fs ∧
    (∀ name, name ∉ fields.map (·.1) → fs.lookup name = none) ∧
    KeepsFields p fields fun name => fs.lookup name

/-- The values of the items, in order. -/
def KeepsItems (p : Int → Value → Prop) : List Json → List Value → Prop
  | [], vs => vs = []
  | j :: js, vs => ∃ w ws, vs = w :: ws ∧ Keeps p j w ∧ KeepsItems p js ws

/-- Each field is found by its name, unless another one with the name follows it, and is declared
with the type of its value. -/
def KeepsFields (p : Int → Value → Prop) :
    List (String × Json) → (String → Option BoundValue) → Prop
  | [], _ => True
  | (name, j) :: fs, lookup =>
    (name ∈ fs.map (·.1) ∨ ∃ v, lookup name = some (.of v) ∧ Keeps p j v) ∧
      KeepsFields p fs lookup

end

mutual

/-- The integers of a document; fields that another one of their name follows do not count. -/
def integers : Json → List Int
  | .integer n => [n]
  | .array items => itemIntegers items
  | .object fields => fieldIntegers fields
  | _ => []

def itemIntegers : List Json → List Int
  | [] => []
  | j :: js => j.integers ++ itemIntegers js

def fieldIntegers : List (String × Json) → List Int
  | [] => []
  | (name, j) :: fs => (if name ∈ fs.map (·.1) then [] else j.integers) ++ fieldIntegers fs

end

theorem map_fst_toFields (fields : List (String × Json)) :
    (toFields fields).map (·.1) = fields.map (·.1) := by
  induction fields with
  | nil => rfl
  | cons f fs ih => rw [toFields, List.map_cons, List.map_cons, ih]

theorem lookup_toFields_eq_none_iff {fields : List (String × Json)} {n : String} :
    (toFields fields).reverse.lookup n = none ↔ n ∉ fields.map (·.1) := by
  rw [List.lookup_eq_none_iff, ← map_fst_toFields]
  simp only [List.mem_reverse, List.mem_map, not_exists, not_and, bne_iff_ne]
  exact ⟨fun h f hf hname => h f hf hname.symm, fun h f hf hname => h f hf hname.symm⟩

/-- A name is found in the fields after the first one, if it is there, and else in the first one. -/
theorem lookup_toFields_cons (name : String) (j : Json) (fs : List (String × Json)) (n : String) :
    (toFields ((name, j) :: fs)).reverse.lookup n =
      if n ∈ fs.map (·.1) then (toFields fs).reverse.lookup n
      else if n = name then some (.of j.toValue) else none := by
  rw [toFields, List.reverse_cons, List.lookup_append, lookup_cons, List.lookup_nil]
  by_cases hn : n ∈ fs.map (·.1)
  · have hsome := mt lookup_toFields_eq_none_iff.mp (not_not.mpr hn)
    rw [if_pos hn, Option.or_of_isSome (Option.isSome_iff_ne_none.mpr hsome)]
  · rw [if_neg hn, lookup_toFields_eq_none_iff.mpr hn, Option.none_or]

section

variable {p : Int → Value → Prop}

mutual

/-- The structure is always kept, so all that matters is what becomes of integers. -/
theorem keeps_toValue_iff : (j : Json) →
    (Keeps p j j.toValue ↔ ∀ n ∈ j.integers, p n (integerValue n))
  | .null => by simp [Keeps, toValue, integers]
  | .bool _ => by simp [Keeps, toValue, integers]
  | .integer n => by simp [Keeps, toValue, integers]
  | .real x => by
    rw [Keeps, toValue]
    cases x <;> simp [realValue, Value.type, integers]
  | .string _ => by simp [Keeps, toValue, integers]
  | .array items => by simpa [Keeps, toValue, integers] using keepsItems_toItems_iff items
  | .object fields => by
    have hlookup (n : String) :
        (Value.fieldsOf (toFields fields)).lookup n = (toFields fields).reverse.lookup n :=
      Value.lookup_fieldsOf (toFields fields) n
    have hfields := keepsFields_iff fields _ fun n _ => hlookup n
    rw [Keeps, toValue, integers, ← hfields]
    constructor
    · rintro ⟨fs, hfs, -, -, hkeeps⟩
      obtain rfl : Value.fieldsOf (toFields fields) = fs := Value.record.inj hfs
      exact hkeeps
    · intro hkeeps
      refine ⟨_, rfl, Value.sorted_fieldsOf _, fun n hn => ?_, hkeeps⟩
      exact (hlookup n).trans (lookup_toFields_eq_none_iff.mpr hn)

theorem keepsItems_toItems_iff : (js : List Json) →
    (KeepsItems p js (toItems js) ↔ ∀ n ∈ itemIntegers js, p n (integerValue n))
  | [] => by simp [KeepsItems, toItems, itemIntegers]
  | j :: js => by
    rw [itemIntegers, List.forall_mem_append, ← keeps_toValue_iff j, ← keepsItems_toItems_iff js]
    simp [KeepsItems, toItems]

theorem keepsFields_iff : (fields : List (String × Json)) →
    (lookup : String → Option BoundValue) →
    (∀ n ∈ fields.map (·.1), lookup n = (toFields fields).reverse.lookup n) →
    (KeepsFields p fields lookup ↔ ∀ n ∈ fieldIntegers fields, p n (integerValue n))
  | [], _, _ => by simp [KeepsFields, fieldIntegers]
  | (name, j) :: fs, lookup, h => by
    have hfs : ∀ n ∈ fs.map (·.1), lookup n = (toFields fs).reverse.lookup n := by
      intro n hn
      rw [h n (List.mem_cons_of_mem name hn), lookup_toFields_cons, if_pos hn]
    rw [KeepsFields, fieldIntegers, List.forall_mem_append, keepsFields_iff fs lookup hfs]
    refine and_congr_left' ?_
    by_cases hname : name ∈ fs.map (·.1)
    · simp [hname]
    · have hlookup : lookup name = some (.of j.toValue) := by
        rw [h name List.mem_cons_self, lookup_toFields_cons, if_neg hname, if_pos rfl]
      rw [if_neg hname, ← keeps_toValue_iff j, hlookup]
      constructor
      · rintro (hmem | ⟨v, hv, hkeeps⟩)
        · exact absurd hmem hname
        · obtain rfl : j.toValue = v := congrArg (·.value) (Option.some.inj hv)
          exact hkeeps
      · exact fun hkeeps => .inr ⟨_, rfl, hkeeps⟩

end

end

end Json

/-! ## Integers -/

open Number (int32? int64? int32?_eq_some_iff int64?_eq_some_iff)

/-- The value is the integer itself, in the narrower of the two types if that one has it. -/
def IsExact (n : Int) (v : Value) : Prop :=
  (∃ i : Int32, i.toInt = n ∧ v = .int i) ∨
    (∀ i : Int32, i.toInt ≠ n) ∧ ∃ i : Int64, i.toInt = n ∧ v = .long i

/-- The integer is one of 64 bits with a sign. -/
def Fits64 (n : Int) : Prop := -9223372036854775808 ≤ n ∧ n ≤ 9223372036854775807

instance (n : Int) : Decidable (Fits64 n) := inferInstanceAs (Decidable (_ ∧ _))

theorem fits64_iff {n : Int} : Fits64 n ↔ ∃ i : Int64, i.toInt = n := by
  constructor
  · intro hfits
    obtain ⟨hmin, hmax⟩ := hfits
    exact ⟨.ofInt n, Int64.toInt_ofInt_of_le hmin (Int.lt_add_one_of_le hmax)⟩
  · rintro ⟨i, rfl⟩
    exact ⟨i.le_toInt, Int.le_of_lt_add_one i.toInt_lt⟩

/-- The nearest binary number takes the place of an integer that does not fit. -/
def IsRounded (n : Int) (v : Value) : Prop :=
  ¬Fits64 n ∧ v = .double (.ofRatio Number.double (n < 0) n.natAbs 1)

theorem integerValue_isExact_or_isRounded (n : Int) :
    IsExact n (Json.integerValue n) ∨ IsRounded n (Json.integerValue n) := by
  unfold Json.integerValue
  cases hint : int32? n with
  | some i => exact .inl (.inl ⟨i, int32?_eq_some_iff.mp hint, rfl⟩)
  | none =>
    have hwide (i : Int32) : i.toInt ≠ n := fun hi => by
      rw [int32?_eq_some_iff.mpr hi] at hint
      cases hint
    cases hlong : int64? n with
    | some i => exact .inl (.inr ⟨hwide, i, int64?_eq_some_iff.mp hlong, rfl⟩)
    | none =>
      refine .inr ⟨fun hfits => ?_, rfl⟩
      obtain ⟨i, hi⟩ := fits64_iff.mp hfits
      rw [int64?_eq_some_iff.mpr hi] at hlong
      cases hlong

theorem isExact_integerValue_iff {n : Int} : IsExact n (Json.integerValue n) ↔ Fits64 n := by
  constructor
  · rintro (⟨i, rfl, -⟩ | ⟨-, i, hi, -⟩)
    · have hmin := i.le_toInt
      have hmax := i.toInt_lt
      unfold Fits64
      omega
    · exact fits64_iff.mpr ⟨i, hi⟩
  · intro hfits
    exact (integerValue_isExact_or_isRounded n).resolve_right fun hrounded => hrounded.1 hfits

/-! ## Parameters -/

/-- How the parameters of an object stand for its integers. -/
theorem keepsFields_parameters_iff {p : Int → Value → Prop} (fields : List (String × Json)) :
    Json.KeepsFields p fields (Scope.ofList (Json.toFields fields)).lookup ↔
      ∀ n ∈ Json.fieldIntegers fields, p n (Json.integerValue n) :=
  Json.keepsFields_iff fields _ fun n _ => Scope.lookup_ofList _ n

theorem keepsFields_isExact_iff (fields : List (String × Json)) :
    Json.KeepsFields IsExact fields (Scope.ofList (Json.toFields fields)).lookup ↔
      ∀ n ∈ Json.fieldIntegers fields, Fits64 n := by
  rw [keepsFields_parameters_iff]
  simp only [isExact_integerValue_iff]

/-- An object becomes a scope with its fields and no others, in which all structure is kept, and
each integer too unless it does not fit 64 bits with a sign; then it is rounded. So all integers are
kept if and only if all of them fit. -/
theorem ofJson_exact_iff (fields : List (String × Json)) :
    ∃ scope, Scope.ofJson? (.object fields) = some scope ∧
      (∀ name, name ∉ fields.map (·.1) → scope.lookup name = none) ∧
      Json.KeepsFields (fun n v => IsExact n v ∨ IsRounded n v) fields scope.lookup ∧
      (Json.KeepsFields IsExact fields scope.lookup ↔
        ∀ n ∈ Json.fieldIntegers fields, Fits64 n) := by
  refine ⟨.ofList (Json.toFields fields), rfl, fun n hn => ?_, ?_, keepsFields_isExact_iff fields⟩
  · exact (Scope.lookup_ofList _ n).trans (Json.lookup_toFields_eq_none_iff.mpr hn)
  · rw [keepsFields_parameters_iff]
    exact fun n _ => integerValue_isExact_or_isRounded n

/-- An integer that does not fit is bound to the number before it. -/
theorem ofJson_rounds_integer :
    Json.read? "\x7b\"id\": 9223372036854775809\x7d" =
        some (.object [("id", .integer 9223372036854775809)]) ∧
      ∃ scope, Scope.ofJson? (.object [("id", .integer 9223372036854775809)]) = some scope ∧
        scope.lookup "id" = some (.of (.double (.finite false (9223372036854775808 * 2 ^ 1074)))) ∧
        ¬Json.KeepsFields IsExact [("id", .integer 9223372036854775809)] scope.lookup := by
  have hvalue : Number.Binary.ofRatio Number.double false 9223372036854775809 1 =
      .finite false (9223372036854775808 * 2 ^ 1074) := by
    decide +kernel
  refine ⟨by with_unfolding_all rfl, _, rfl, ?_, ?_⟩
  · rw [Scope.lookup_ofList, ← hvalue]
    rfl
  · rw [keepsFields_isExact_iff]
    decide

end TwoWaySql
