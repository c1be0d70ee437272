import TwoWaySql.Cache

/-!
# Trees in the order of their last use

A cache keeps its trees in one list and the order of their last use in another. `UseOrder` is one
list of texts with their trees in that order. A cache represents it (`Represents`), every use keeps
that, and so no sequence of uses tells the two apart (`observe_useOrder`).
-/

namespace TwoWaySql

open Template (Tree)

/-- A use of a cache. -/
inductive CacheUse where
  | get (text : String)
  | insert (text : String) (tree : Tree)
  | clear

/-! ## The reference -/

/-- Texts with their trees, the one used latest last. -/
abbrev UseOrder := List (String × Tree)

namespace UseOrder

/-- Makes a tree the latest one, and the only one of its text. -/
def push (o : UseOrder) (text : String) (tree : Tree) : UseOrder :=
  o.filter (·.1 ≠ text) ++ [(text, tree)]

def get (o : UseOrder) (text : String) : Option Tree × UseOrder :=
  match o.lookup text with
  | none => (none, o)
  | some tree => (some tree, o.push text tree)

/-- A new text takes the place of the one used longest ago if there is no other place. -/
def insert (capacity : Nat) (o : UseOrder) (text : String) (tree : Tree) : UseOrder :=
  if capacity = 0 then o
  else if o.lookup text = none ∧ o.length = capacity then push o.tail text tree
  else o.push text tree

/-- What a use finds, and the order after it. -/
def use (capacity : Nat) (o : UseOrder) : CacheUse → Option Tree × UseOrder
  | .get text => o.get text
  | .insert text tree => (none, insert capacity o text tree)
  | .clear => (none, [])

end UseOrder

/-- What a use finds, and the cache after it. -/
def Cache.use (c : Cache) : CacheUse → Option Tree × Cache
  | .get text => c.get text
  | .insert text tree => (none, c.insert text tree)
  | .clear => (none, c.clear)

/-! ## Orders of use -/

section UseOrder

variable {o : UseOrder} {text : String} {tree : Tree}

theorem lookup_eq_some_iff_mem (h : (o.map (·.1)).Nodup) :
    o.lookup text = some tree ↔ (text, tree) ∈ o := by
  rw [List.lookup_eq_some_iff]
  constructor
  · rintro ⟨before, after, rfl, -⟩
    simp
  · intro hmem
    obtain ⟨before, after, rfl⟩ := List.append_of_mem hmem
    refine ⟨before, after, rfl, fun p hp => ?_⟩
    rw [List.map_append, List.nodup_append] at h
    simpa using (h.2.2 p.1 (List.mem_map_of_mem hp) text (by simp)).symm

theorem lookup_eq_none_iff_not_mem : o.lookup text = none ↔ text ∉ o.map (·.1) := by
  simp only [List.lookup_eq_none_iff, bne_iff_ne, List.mem_map, not_exists, not_and]
  exact ⟨fun h p hp heq => h p hp heq.symm, fun h p hp heq => h p hp heq.symm⟩

theorem filter_ne_eq_self (h : text ∉ o.map (·.1)) : o.filter (·.1 ≠ text) = o :=
  List.filter_eq_self.mpr fun p hp => by
    simpa using fun heq : p.1 = text => h (heq ▸ List.mem_map_of_mem hp)

/-- The texts alone are in the order of a cache. -/
theorem map_push (h : (o.map (·.1)).Nodup) (text : String) (tree : Tree) :
    (o.push text tree).map (·.1) = Cache.touch (o.map (·.1)) text := by
  rw [Cache.touch, h.erase_eq_filter, List.filter_map, UseOrder.push, List.map_append]
  congr 2
  exact List.filter_congr fun p _ => by simp only [ne_eq, decide_not]; rfl

theorem nodup_push (h : (o.map (·.1)).Nodup) : ((o.push text tree).map (·.1)).Nodup := by
  rw [map_push h text tree, Cache.touch, List.nodup_append]
  refine ⟨h.erase text, List.pairwise_singleton _ _, fun a ha b hb => ?_⟩
  obtain rfl := List.mem_singleton.mp hb
  rintro rfl
  exact h.not_mem_erase ha

/-- To use a tree again changes only the order. -/
theorem push_perm (h : (o.map (·.1)).Nodup) (hmem : (text, tree) ∈ o) :
    (o.push text tree).Perm o := by
  obtain ⟨before, after, rfl⟩ := List.append_of_mem hmem
  rw [List.map_append, List.map_cons, List.nodup_append, List.nodup_cons] at h
  obtain ⟨-, ⟨hafter, -⟩, hbefore⟩ := h
  rw [UseOrder.push, List.filter_append, List.filter_cons_of_neg (by simp),
    filter_ne_eq_self hafter,
    filter_ne_eq_self fun hb => hbefore text hb text List.mem_cons_self rfl, List.append_assoc]
  exact (List.perm_append_singleton _ _).append_left before

theorem length_push_of_mem (h : (o.map (·.1)).Nodup) (hmem : text ∈ o.map (·.1)) :
    (o.push text tree).length = o.length := by
  have hlength := congrArg List.length (map_push h text tree)
  have hpos := List.length_pos_of_mem hmem
  rw [Cache.touch, List.length_append, List.length_erase_of_mem hmem] at hlength
  simp only [List.length_map, List.length_singleton] at hlength hpos
  omega

theorem length_push_le : (o.push text tree).length ≤ o.length + 1 := by
  have hfilter := List.length_filter_le (fun p : String × Tree => decide (p.1 ≠ text)) o
  simp only [UseOrder.push, List.length_append, List.length_singleton]
  omega

end UseOrder

/-! ## Representation -/

/-- The two lists of a cache hold what the order of use does. -/
structure Represents (capacity : Nat) (c : Cache) (o : UseOrder) : Prop where
  capacity_eq : c.capacity = capacity
  trees_perm : c.trees.Perm o
  recency_eq : c.recency = o.map (·.1)
  nodup : (o.map (·.1)).Nodup
  length_le : o.length ≤ capacity

namespace Represents

variable {capacity : Nat} {c : Cache} {o : UseOrder}

theorem empty (capacity : Nat) : Represents capacity (.empty capacity) [] :=
  ⟨rfl, .refl _, rfl, .nil, Nat.zero_le _⟩

theorem nodup_texts (h : Represents capacity c o) : (c.trees.map (·.1)).Nodup :=
  (h.trees_perm.map _).nodup_iff.mpr h.nodup

theorem size_eq (h : Represents capacity c o) : c.size = o.length := h.trees_perm.length_eq

theorem lookup_eq (h : Represents capacity c o) (text : String) :
    c.trees.lookup text = o.lookup text := by
  refine Option.ext fun tree => ?_
  rw [lookup_eq_some_iff_mem h.nodup_texts, lookup_eq_some_iff_mem h.nodup]
  exact h.trees_perm.mem_iff

theorem get (h : Represents capacity c o) (text : String) :
    (c.get text).1 = (o.get text).1 ∧ Represents capacity (c.get text).2 (o.get text).2 := by
  unfold Cache.get UseOrder.get
  rw [h.lookup_eq]
  cases hlookup : o.lookup text with
  | none => exact ⟨rfl, h⟩
  | some tree =>
    have hperm := push_perm h.nodup ((lookup_eq_some_iff_mem h.nodup).mp hlookup)
    refine ⟨rfl, h.capacity_eq, h.trees_perm.trans hperm.symm, ?_, nodup_push h.nodup, ?_⟩
    · rw [map_push h.nodup text tree, ← h.recency_eq]
    · exact hperm.length_eq ▸ h.length_le

/-- The text used longest ago comes first. -/
theorem evict (h : Represents capacity c o) : Represents capacity c.evict o.tail := by
  obtain ⟨hcapacity, hperm, hrecency, hnodup, hlength⟩ := h
  unfold Cache.evict
  rw [hrecency]
  cases o with
  | nil => exact ⟨hcapacity, hperm, hrecency, hnodup, hlength⟩
  | cons p o =>
    obtain ⟨hp, ho⟩ := List.nodup_cons.mp hnodup
    have htrees := hperm.filter (·.1 ≠ p.1)
    rw [List.filter_cons_of_neg (by simp), filter_ne_eq_self hp] at htrees
    exact ⟨hcapacity, htrees, rfl, ho, Nat.le_of_succ_le hlength⟩

/-- A tree under a text that is there, or for which there is a place. -/
theorem push (h : Represents capacity c o) (text : String)
    (hplace : text ∈ o.map (·.1) ∨ o.length < capacity) (tree : Tree) :
    Represents capacity
      { c with
        trees := (text, tree) :: (c.removeTree text).trees
        recency := Cache.touch c.recency text }
      (o.push text tree) := by
  refine ⟨h.capacity_eq, ?_, ?_, nodup_push h.nodup, ?_⟩
  · have hperm := (h.trees_perm.filter (·.1 ≠ text)).cons (text, tree)
    exact hperm.trans (List.perm_append_singleton _ _).symm
  · rw [map_push h.nodup text tree, ← h.recency_eq]
  · rcases hplace with hmem | hlt
    · rw [length_push_of_mem h.nodup hmem]
      exact h.length_le
    · exact Nat.le_trans length_push_le hlt

/-- A tree under a text that is not there. Nothing needs to be taken out of the order for it. -/
theorem pushNew (h : Represents capacity c o) (text : String) (hnew : text ∉ o.map (·.1))
    (hplace : o.length < capacity) (tree : Tree) :
    Represents capacity
      { c with
        trees := (text, tree) :: (c.removeTree text).trees
        recency := c.recency ++ [text] }
      (o.push text tree) := by
  have hpush := h.push text (.inr hplace) tree
  have hrecency : text ∉ c.recency := h.recency_eq ▸ hnew
  rwa [Cache.touch, List.erase_of_not_mem hrecency] at hpush

theorem contains_iff (h : Represents capacity c o) (text : String) :
    c.contains text = true ↔ text ∈ o.map (·.1) := by
  rw [Cache.contains, h.lookup_eq, Option.isSome_iff_ne_none, ne_eq, lookup_eq_none_iff_not_mem,
    Decidable.not_not]

theorem insert (h : Represents capacity c o) (text : String) (tree : Tree) :
    Represents capacity (c.insert text tree) (o.insert capacity text tree) := by
  have hlength := h.length_le
  obtain rfl := h.capacity_eq
  unfold Cache.insert UseOrder.insert
  rw [h.size_eq]
  by_cases hzero : c.capacity = 0
  · rw [if_pos hzero, if_pos hzero]
    exact h
  rw [if_neg hzero, if_neg hzero]
  by_cases hmem : text ∈ o.map (·.1)
  · rw [if_pos ((h.contains_iff text).mpr hmem),
      if_neg fun hevicts => lookup_eq_none_iff_not_mem.mp hevicts.1 hmem]
    exact h.push text (.inl hmem) tree
  rw [if_neg (mt (h.contains_iff text).mp hmem)]
  by_cases hfull : c.capacity ≤ o.length
  · have hevicts : o.lookup text = none ∧ o.length = c.capacity :=
      ⟨lookup_eq_none_iff_not_mem.mpr hmem, Nat.le_antisymm hlength hfull⟩
    have hnew : text ∉ o.tail.map (·.1) := fun htail =>
      hmem (((List.tail_sublist o).map _).subset htail)
    rw [if_pos hfull, if_pos hevicts]
    exact h.evict.pushNew text hnew (by rw [List.length_tail]; omega) tree
  · rw [if_neg hfull, if_neg fun hevicts => hfull (Nat.le_of_eq hevicts.2.symm)]
    exact h.pushNew text hmem (Nat.lt_of_not_le hfull) tree

/-- A use finds the same in both and keeps that they hold the same. -/
theorem use (h : Represents capacity c o) (u : CacheUse) :
    (c.use u).1 = (o.use capacity u).1 ∧ Represents capacity (c.use u).2 (o.use capacity u).2 := by
  cases u with
  | get text => exact h.get text
  | insert text tree => exact ⟨rfl, h.insert text tree⟩
  | clear =>
    obtain rfl := h.capacity_eq
    exact ⟨rfl, .empty c.capacity⟩

end Represents

/-! ## Sequences of uses -/

section Sequences

variable {σ : Type} (use : σ → CacheUse → Option Tree × σ) (size : σ → Nat)

/-- What is seen of uses: what each one finds, and the size after it. -/
def observe : σ → List CacheUse → List (Option Tree × Nat)
  | _, [] => []
  | s, u :: us => ((use s u).1, size (use s u).2) :: observe (use s u).2 us

def afterUses (s : σ) (us : List CacheUse) : σ := us.foldl (fun s u => (use s u).2) s

end Sequences

variable {capacity : Nat} {c : Cache} {o : UseOrder}

theorem Represents.afterUses (h : Represents capacity c o) (us : List CacheUse) :
    Represents capacity (afterUses Cache.use c us) (afterUses (UseOrder.use capacity) o us) := by
  induction us generalizing c o with
  | nil => exact h
  | cons u us ih => exact ih (h.use u).2

theorem Represents.observe_eq (h : Represents capacity c o) (us : List CacheUse) :
    observe Cache.use Cache.size c us = observe (UseOrder.use capacity) List.length o us := by
  induction us generalizing c o with
  | nil => rfl
  | cons u us ih =>
    obtain ⟨hfound, hafter⟩ := h.use u
    rw [observe, observe, hfound, hafter.size_eq, ih hafter]

/-- A cache finds the trees and has the sizes of the list in the order of use. At any time its two
lists have the same texts, each of them once, and not more than its capacity. -/
theorem observe_useOrder (capacity : Nat) (uses : List CacheUse) :
    observe Cache.use Cache.size (.empty capacity) uses =
        observe (UseOrder.use capacity) List.length [] uses ∧
      let c := afterUses Cache.use (.empty capacity) uses
      (∀ text, text ∈ c.trees.map (·.1) ↔ text ∈ c.recency) ∧ (c.trees.map (·.1)).Nodup ∧
        c.recency.Nodup ∧ c.size ≤ capacity := by
  refine ⟨(Represents.empty capacity).observe_eq uses, ?_⟩
  have h := (Represents.empty capacity).afterUses uses
  refine ⟨fun text => ?_, h.nodup_texts, h.recency_eq ▸ h.nodup, h.size_eq ▸ h.length_le⟩
  rw [h.recency_eq]
  exact (h.trees_perm.map _).mem_iff

end TwoWaySql
