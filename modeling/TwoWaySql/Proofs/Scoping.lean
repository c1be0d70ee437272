import TwoWaySql.Proofs.Outcome
import TwoWaySql.Proofs.Parts

/-!
# Scopes compared

Two scopes are compared by what they bind names to: the same for all names but some, or for some
names. The value of an expression depends on what its names are bound to and on no other name
(`eval_congr`). A loop binds its names alike whatever they are bound to around it.
-/

namespace TwoWaySql

namespace Scope

/-- The scopes bind all names but these to the same. -/
def SameBut (names : List String) (s s' : Scope) : Prop :=
  ∀ n, n ∉ names → s.lookup n = s'.lookup n

/-- The scopes bind the same names to the same. -/
abbrev Same : Scope → Scope → Prop := SameBut []

namespace SameBut

variable {names : List String} {s s' s'' : Scope}

theorem refl (s : Scope) : SameBut names s s := fun _ _ => rfl

theorem trans (h : SameBut names s s') (h' : SameBut names s' s'') : SameBut names s s'' :=
  fun n hn => (h n hn).trans (h' n hn)

theorem of_same (h : s.Same s') : SameBut names s s' := fun n _ => h n List.not_mem_nil

end SameBut

theorem Same.lookup {s s' : Scope} (h : s.Same s') (n : String) : s.lookup n = s'.lookup n :=
  h n List.not_mem_nil

/-- The scopes bind these names alike: all to the same, or not at all. -/
def AgreeOn (names : List String) (s s' : Scope) : Prop :=
  ∀ n ∈ names, s.lookup n = s'.lookup n

namespace AgreeOn

variable {names names' : List String} {s s' : Scope}

theorem of_same (h : s.Same s') : AgreeOn names s s' := fun n _ => h.lookup n

theorem mono (h : AgreeOn names s s') (hsub : names' ⊆ names) : AgreeOn names' s s' :=
  fun n hn => h n (hsub hn)

theorem left (h : AgreeOn (names ++ names') s s') : AgreeOn names s s' :=
  h.mono (List.subset_append_left names names')

theorem right (h : AgreeOn (names ++ names') s s') : AgreeOn names' s s' :=
  h.mono (List.subset_append_right names names')

/-- Scopes that bind all but some names as these do may take their place for other names. -/
theorem of_sameBut {hidden : List String} {t t' : Scope} (h : AgreeOn names s s')
    (ht : SameBut hidden t s) (ht' : SameBut hidden t' s') (hhidden : ∀ n ∈ names, n ∉ hidden) :
    AgreeOn names t t' := fun n hn =>
  (ht n (hhidden n hn)).trans ((h n hn).trans (ht' n (hhidden n hn)).symm)

theorem contains (h : AgreeOn names s s') {name : String} (hname : name ∈ names) :
    s.contains name = s'.contains name := by
  unfold Scope.contains
  rw [h name hname]

end AgreeOn

theorem lookup_restoreAll (names : List String) (s saved : Scope) (n : String) :
    (names.foldl (fun s n => s.restore saved n) s).lookup n =
      if n ∈ names then saved.lookup n else s.lookup n := by
  induction names generalizing s with
  | nil => simp
  | cons m names ih =>
    rw [List.foldl_cons, ih, lookup_restore]
    by_cases hn : n = m
    · simp [hn]
    · simp [hn]

end Scope

namespace Expr

mutual

/-- The value of an expression depends on its names. -/
theorem eval_congr (registry : Registry) {s s' : Scope} :
    (t : Tree) → (∀ n ∈ t.names, s.lookup n = s'.lookup n) →
    eval registry s t = eval registry s' t
  | .literal _ _, _ => by simp only [eval]
  | .name name _, h => by
    have hname := h name (by simp [Tree.names])
    simp only [eval, hname]
  | .property receiver _ _, h => by
    have hreceiver := eval_congr registry receiver (by simpa [Tree.names] using h)
    simp only [eval, hreceiver]
  | .call receiver _ arguments _, h => by
    simp only [Tree.names, List.mem_append] at h
    have hreceiver := eval_congr registry receiver fun n hn => h n (.inl hn)
    cases arguments with
    | empty _ => simp only [eval, hreceiver]
    | list items _ =>
      have hitems := evalItems_congr registry items fun n hn => h n (.inr (by simpa [Tree.names]))
      simp only [eval, hreceiver, hitems]
    | _ =>
      have hargument := eval_congr registry _ fun n hn => h n (.inr hn)
      rw [eval, eval, hreceiver]
      simp only [hargument]
  | .list items _, h => by
    have hitems := evalItems_congr registry items (by simpa [Tree.names] using h)
    simp only [eval, hitems]
  | .not operand _, h => by
    have hoperand := eval_congr registry operand (by simpa [Tree.names] using h)
    simp only [eval, hoperand]
  | .binary _ left right _, h => by
    simp only [Tree.names, List.mem_append] at h
    have hleft := eval_congr registry left fun n hn => h n (.inl hn)
    have hright := eval_congr registry right fun n hn => h n (.inr hn)
    simp only [eval, hleft, hright]
  | .empty _, _ => by simp only [eval]

theorem evalItems_congr (registry : Registry) {s s' : Scope} :
    (ts : List Tree) → (∀ n ∈ Tree.itemNames ts, s.lookup n = s'.lookup n) →
    evalItems registry s ts = evalItems registry s' ts
  | [], _ => by simp only [evalItems]
  | t :: ts, h => by
    simp only [Tree.itemNames, List.mem_append] at h
    have ht := eval_congr registry t fun n hn => h n (.inl hn)
    have hts := evalItems_congr registry ts fun n hn => h n (.inr hn)
    simp only [evalItems, ht, hts]

end

end Expr

namespace Template

open Scope (SameBut AgreeOn)

/-! ## Loops -/

section Loops

variable (identifier : String) (item : Value) (index : Nat) (hasNext : Bool)

/-- The names of a loop are bound alike, whatever is bound around it. -/
theorem lookup_bindLoop (s s' : Scope) {n : String} (hn : n ∈ loopNames identifier) :
    (bindLoop identifier item index hasNext s).lookup n =
      (bindLoop identifier item index hasNext s').lookup n := by
  simp only [loopNames, List.mem_cons, List.not_mem_nil, or_false] at hn
  simp only [bindLoop, Scope.lookup_insert]
  rcases hn with rfl | rfl | rfl <;> simp

theorem bindLoop_sameBut (s : Scope) :
    SameBut (loopNames identifier) (bindLoop identifier item index hasNext s) s := by
  intro n hn
  simp only [loopNames, List.mem_cons, List.not_mem_nil, or_false, not_or] at hn
  simp [bindLoop, Scope.lookup_insert, hn.1, hn.2.1, hn.2.2]

theorem bindLoop_agreeOn (names : List String) {s s' : Scope}
    (h : AgreeOn (names.filter (· ∉ loopNames identifier)) s s') :
    AgreeOn names (bindLoop identifier item index hasNext s)
      (bindLoop identifier item index hasNext s') := by
  intro n hn
  by_cases hloop : n ∈ loopNames identifier
  · exact lookup_bindLoop identifier item index hasNext s s' hloop
  · rw [bindLoop_sameBut identifier item index hasNext s n hloop,
      bindLoop_sameBut identifier item index hasNext s' n hloop]
    exact h n (by simp [hn, hloop])

theorem bindLoop_same {s s' : Scope} (h : SameBut (loopNames identifier) s s') :
    (bindLoop identifier item index hasNext s).Same
      (bindLoop identifier item index hasNext s') := by
  intro n _
  refine bindLoop_agreeOn identifier item index hasNext [n] ?_ n List.mem_cons_self
  intro m hm
  exact h m (by simpa using (List.mem_filter.mp hm).2)

/-- After a loop its names are bound as before. -/
theorem restore_loopNames {t saved : Scope} (h : SameBut (loopNames identifier) t saved) :
    ((loopNames identifier).foldl (fun s n => s.restore saved n) t).Same saved := by
  intro n _
  rw [Scope.lookup_restoreAll]
  split
  · rfl
  · exact h n ‹_›

end Loops

end Template

end TwoWaySql
