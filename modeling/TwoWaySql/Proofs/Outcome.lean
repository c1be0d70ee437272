/-!
# Outcomes

A run that succeeds is taken apart into the runs of its parts. `Outcome` is what is known of a run
either way.
-/

namespace TwoWaySql

variable {ε α β : Type}

theorem bind_eq_ok {x : Except ε α} {f : α → Except ε β} {b : β} :
    x >>= f = .ok b ↔ ∃ a, x = .ok a ∧ f a = .ok b := by
  cases x with
  | error e => exact ⟨nofun, nofun⟩
  | ok a => exact ⟨fun h => ⟨a, rfl, h⟩, fun ⟨_, ha, hf⟩ => Except.ok.inj ha ▸ hf⟩

theorem map_eq_ok {x : Except ε α} {f : α → β} {b : β} :
    x.map f = .ok b ↔ ∃ a, x = .ok a ∧ f a = b := by
  cases x with
  | error e => exact ⟨nofun, nofun⟩
  | ok a => simp [Except.map]

theorem mapError_ok {ε' : Type} (f : ε → ε') (a : α) :
    (Except.ok a : Except ε α).mapError f = .ok a := rfl

theorem toOption_bind (x : Except ε α) (f : α → Except ε β) :
    (x >>= f).toOption = x.toOption.bind fun a => (f a).toOption := by
  cases x <;> rfl

theorem toOption_map (x : Except ε α) (f : α → β) : (x.map f).toOption = x.toOption.map f := by
  cases x <;> rfl

theorem toOption_mapError {ε' : Type} (x : Except ε α) (f : ε → ε') :
    (x.mapError f).toOption = x.toOption := by
  cases x <;> rfl

theorem toOption_eq_some {x : Except ε α} {a : α} : x.toOption = some a ↔ x = .ok a := by
  cases x <;> simp [Except.toOption]

/-- What can be computed of a result shows that there is one. -/
theorem exists_ok_of_map {x : Except ε α} {f : α → β} {b : β} (h : x.toOption.map f = some b) :
    ∃ a, x = .ok a ∧ f a = b := by
  cases x with
  | error e => cases h
  | ok a => exact ⟨a, rfl, Option.some.inj h⟩

/-- Why a run failed. -/
def error? : Except ε α → Option ε
  | .error e => some e
  | .ok _ => none

theorem error?_eq_some {x : Except ε α} {e : ε} : error? x = some e ↔ x = .error e := by
  cases x <;> simp [error?]

/-! ## Either way -/

/-- What a run gives satisfies `p`, and the error of a run that fails satisfies `q`. -/
def Outcome (p : α → Prop) (q : ε → Prop) : Except ε α → Prop
  | .ok a => p a
  | .error e => q e

namespace Outcome

variable {p : α → Prop} {r : β → Prop} {q : ε → Prop} {x : Except ε α}

theorem bind (h : Outcome p q x) {f : α → Except ε β} (hf : ∀ a, p a → Outcome r q (f a)) :
    Outcome r q (x >>= f) := by
  cases x with
  | ok a => exact hf a h
  | error e => exact h

theorem map (h : Outcome p q x) {f : α → β} (hf : ∀ a, p a → r (f a)) :
    Outcome r q (x.map f) := by
  cases x with
  | ok a => exact hf a h
  | error e => exact h

theorem mapError {ε' : Type} {q' : ε' → Prop} (h : Outcome p q x) {f : ε → ε'}
    (hf : ∀ e, q e → q' (f e)) : Outcome p q' (x.mapError f) := by
  cases x with
  | ok a => exact h
  | error e => exact hf e h

theorem foldlM {τ : Type} {ts : List τ} {f : α → τ → Except ε α} {a : α} (ha : p a)
    (hf : ∀ a, p a → ∀ t ∈ ts, Outcome p q (f a t)) : Outcome p q (ts.foldlM f a) := by
  induction ts generalizing a with
  | nil => exact ha
  | cons t ts ih =>
    rw [List.foldlM_cons]
    exact (hf a ha t List.mem_cons_self).bind fun b hb =>
      ih hb fun c hc u hu => hf c hc u (List.mem_cons_of_mem t hu)

end Outcome

end TwoWaySql
