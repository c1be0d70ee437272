import TwoWaySql.Proofs.Elision
import TwoWaySql.Proofs.NestingLimit

/-!
# Calls that share a cache

Compilers that share a cache find in it what an earlier call of one of them has parsed
(`Cache.ParsedBy`, kept by every call). With one limit for all of them that is what they would parse
themselves, and the cache makes no difference (`answers_cached`). The cache does not keep the limit
that a tree was parsed within, so a compiler with a lower one is given trees that it would refuse
(`enforcesLimits_iff`).
-/

namespace TwoWaySql

open Template (Tree)

/-- A call of a compiler. -/
inductive Call where
  | parse (compiler : Compiler) (template : String)
  | build (compiler : Compiler) (template : String) (parameters : Scope)

/-- What a call is answered. -/
inductive Answer where
  | tree (result : Except Template.Error Tree)
  | statement (result : Except Template.Error Statement)

namespace Answer

def succeeds : Answer → Bool
  | tree result => result.isOk
  | statement result => result.isOk

end Answer

namespace Call

def compiler : Call → Compiler
  | parse c _ | build c _ _ => c

def template : Call → String
  | parse _ t | build _ t _ => t

/-- The answer, and the cache after the call. -/
def run : Call → Option Cache → Answer × Option Cache
  | parse c t, cache? =>
    let r := c.parse cache? t
    (.tree r.result, r.cache?)
  | build c t parameters, cache? =>
    let r := c.build cache? t parameters
    (.statement r.result, r.cache?)

/-- The answer, from what the template is parsed to. -/
def answer : Call → Except Template.Error Tree → Answer
  | parse _ _, parsed => .tree parsed
  | build c _ parameters, parsed => .statement (parsed >>= fun tree => c.render tree parameters)

end Call

/-- The answers to calls one after the other. -/
def answers : Option Cache → List Call → List Answer
  | _, [] => []
  | cache?, q :: qs => (q.run cache?).1 :: answers (q.run cache?).2 qs

def cacheAfter (cache? : Option Cache) (calls : List Call) : Option Cache :=
  calls.foldl (fun cache? q => (q.run cache?).2) cache?

theorem cacheAfter_append (cache? : Option Cache) (calls more : List Call) :
    cacheAfter cache? (calls ++ more) = cacheAfter (cacheAfter cache? calls) more :=
  List.foldl_append

/-! ## One call -/

section Call

variable {cache : Cache} {q : Call} {tree : Tree} {e : Template.Error}

theorem Call.run_eq (q : Call) (cache? : Option Cache) :
    q.run cache? = (q.answer (q.compiler.parse cache? q.template).result,
      (q.compiler.parse cache? q.template).cache?) := by
  cases q with
  | parse c t => rfl
  | build c t parameters =>
    simp only [run, answer, compiler, template, c.build_result, c.build_cache?]

theorem Call.run_none (q : Call) :
    q.run none = (q.answer (Template.parse q.compiler.limit q.template), none) := q.run_eq none

/-- A template that is found is not parsed. -/
theorem Call.run_of_found (h : cache.trees.lookup q.template = some tree) :
    q.run (some cache) = (q.answer (.ok tree), some (cache.get q.template).2) := by
  simp only [run_eq, Compiler.parse, Cache.get, h]

theorem Call.run_of_parse_error (hlookup : cache.trees.lookup q.template = none)
    (hparse : Template.parse q.compiler.limit q.template = .error e) :
    q.run (some cache) = (q.answer (.error e), some cache) := by
  simp only [run_eq, Compiler.parse, Cache.get, hlookup, hparse]

theorem Call.run_of_parse_ok (hlookup : cache.trees.lookup q.template = none)
    (hparse : Template.parse q.compiler.limit q.template = .ok tree) :
    q.run (some cache) = (q.answer (.ok tree), some (cache.insert q.template tree)) := by
  simp only [run_eq, Compiler.parse, Cache.get, hlookup, hparse]

/-- A call whose template is not found is answered as without a cache. -/
theorem Call.answer_of_not_found (h : cache.trees.lookup q.template = none) :
    (q.run (some cache)).1 = (q.run none).1 := by
  rw [run_none]
  cases hparse : Template.parse q.compiler.limit q.template with
  | error e => rw [run_of_parse_error h hparse]
  | ok tree => rw [run_of_parse_ok h hparse]

theorem Call.parse_of_succeeds (h : (q.run none).1.succeeds = true) :
    ∃ tree, Template.parse q.compiler.limit q.template = .ok tree := by
  rw [run_none] at h
  cases hparse : Template.parse q.compiler.limit q.template with
  | error e =>
    rw [hparse] at h
    cases q <;> cases h
  | ok tree => exact ⟨tree, rfl⟩

end Call

/-! ## What a cache holds -/

namespace Cache

variable {cache : Cache} {calls : List Call} {q : Call}

theorem trees_get (c : Cache) (text : String) : (c.get text).2.trees = c.trees := by
  unfold get
  split <;> rfl

theorem mem_of_lookup {text : String} {tree : Tree} (h : cache.trees.lookup text = some tree) :
    (text, tree) ∈ cache.trees := by
  obtain ⟨before, after, heq, -⟩ := List.lookup_eq_some_iff.mp h
  rw [heq]
  simp

/-- To insert a tree brings no other one into the cache. -/
theorem mem_trees_insert {text : String} {tree : Tree} {p : String × Tree}
    (h : p ∈ (cache.insert text tree).trees) : p = (text, tree) ∨ p ∈ cache.trees := by
  have hevict : ∀ p ∈ cache.evict.trees, p ∈ cache.trees := by
    unfold evict
    split
    · exact fun _ hp => hp
    · exact fun _ hp => (List.mem_filter.mp hp).1
  unfold insert at h
  split at h
  · exact .inr h
  · rcases List.mem_cons.mp h with rfl | hmem
    · exact .inl rfl
    · have hkept := (List.mem_filter.mp hmem).1
      split at hkept
      · exact .inr hkept
      · split at hkept
        · exact .inr (hevict p hkept)
        · exact .inr hkept

/-- Every tree of the cache was parsed from its text in one of the calls. -/
def ParsedBy (cache : Cache) (calls : List Call) : Prop :=
  ∀ p ∈ cache.trees, ∃ q ∈ calls, q.template = p.1 ∧
    Template.parse q.compiler.limit p.1 = .ok p.2

theorem ParsedBy.append (h : cache.ParsedBy calls) (more : List Call) :
    cache.ParsedBy (calls ++ more) := by
  intro p hp
  obtain ⟨q, hq, hparse⟩ := h p hp
  exact ⟨q, List.mem_append_left more hq, hparse⟩

/-- A call keeps that every tree was parsed in a call. -/
theorem ParsedBy.run (h : cache.ParsedBy calls) (q : Call) :
    ∃ cache', (q.run (some cache)).2 = some cache' ∧ cache'.ParsedBy (calls ++ [q]) := by
  cases hlookup : cache.trees.lookup q.template with
  | some tree =>
    refine ⟨_, by rw [Call.run_of_found hlookup], fun p hp => ?_⟩
    rw [trees_get] at hp
    exact h.append [q] p hp
  | none =>
    cases hparse : Template.parse q.compiler.limit q.template with
    | error e => exact ⟨cache, by rw [Call.run_of_parse_error hlookup hparse], h.append [q]⟩
    | ok tree =>
      refine ⟨_, by rw [Call.run_of_parse_ok hlookup hparse], fun p hp => ?_⟩
      rcases mem_trees_insert hp with rfl | hmem
      · exact ⟨q, by simp, rfl, hparse⟩
      · exact h.append [q] p hmem

theorem parsedBy_cacheAfter (capacity : Nat) (calls : List Call) :
    ∃ cache, cacheAfter (some (.empty capacity)) calls = some cache ∧ cache.ParsedBy calls := by
  suffices ∀ (calls before : List Call) (cache : Cache), cache.ParsedBy before →
      ∃ cache', cacheAfter (some cache) calls = some cache' ∧
        cache'.ParsedBy (before ++ calls) by
    simpa using this calls [] (.empty capacity) (by simp [ParsedBy, empty])
  intro calls
  induction calls with
  | nil => exact fun before cache h => ⟨cache, rfl, by rwa [List.append_nil]⟩
  | cons q qs ih =>
    intro before cache h
    obtain ⟨next, hnext, hparsed⟩ := h.run q
    obtain ⟨last, hlast, hall⟩ := ih (before ++ [q]) next hparsed
    refine ⟨last, ?_, by rwa [← List.append_cons] at hall⟩
    rw [cacheAfter, List.foldl_cons, hnext]
    exact hlast

end Cache

/-! ## One limit -/

section OneLimit

variable {cache : Cache} {calls : List Call} {limit : Nat}

theorem Cache.ParsedBy.parse_eq (h : cache.ParsedBy calls)
    (hlimit : ∀ q ∈ calls, q.compiler.limit = limit) {text : String} {tree : Tree}
    (hlookup : cache.trees.lookup text = some tree) : Template.parse limit text = .ok tree := by
  obtain ⟨q, hq, -, hparse⟩ := h _ (Cache.mem_of_lookup hlookup)
  rwa [hlimit q hq] at hparse

theorem Cache.ParsedBy.answer_eq (h : cache.ParsedBy calls)
    (hlimit : ∀ q ∈ calls, q.compiler.limit = limit) {q : Call} (hq : q.compiler.limit = limit) :
    (q.run (some cache)).1 = (q.run none).1 := by
  cases hlookup : cache.trees.lookup q.template with
  | none => exact Call.answer_of_not_found hlookup
  | some tree => rw [Call.run_of_found hlookup, Call.run_none, hq, h.parse_eq hlimit hlookup]

theorem Cache.ParsedBy.cache_eq_of_error (h : cache.ParsedBy calls)
    (hlimit : ∀ q ∈ calls, q.compiler.limit = limit) {q : Call} (hq : q.compiler.limit = limit)
    {e : Template.Error} (herror : Template.parse limit q.template = .error e) :
    (q.run (some cache)).2 = some cache := by
  cases hlookup : cache.trees.lookup q.template with
  | none => rw [Call.run_of_parse_error hlookup (hq ▸ herror)]
  | some tree =>
    rw [h.parse_eq hlimit hlookup] at herror
    cases herror

theorem Cache.ParsedBy.answers_eq (h : cache.ParsedBy calls)
    (hlimit : ∀ q ∈ calls, q.compiler.limit = limit) {qs : List Call}
    (hqs : ∀ q ∈ qs, q.compiler.limit = limit) :
    answers (some cache) qs = qs.map fun q => (q.run none).1 := by
  induction qs generalizing cache calls with
  | nil => rfl
  | cons q qs ih =>
    obtain ⟨hq, hqs⟩ := List.forall_mem_cons.mp hqs
    obtain ⟨next, hnext, hparsed⟩ := h.run q
    have hcalls : ∀ p ∈ calls ++ [q], p.compiler.limit = limit :=
      List.forall_mem_append.mpr ⟨hlimit, List.forall_mem_singleton.mpr hq⟩
    rw [answers, hnext, h.answer_eq hlimit hq, ih hparsed hcalls hqs, List.map_cons]

end OneLimit

/-- Compilers with the same limit answer the same with a common cache as without one, and a template
that does not parse leaves the cache as it is. -/
theorem answers_cached (capacity limit : Nat) (calls : List Call)
    (hlimit : ∀ q ∈ calls, q.compiler.limit = limit) :
    answers (some (.empty capacity)) calls = calls.map (fun q => (q.run none).1) ∧
      ∀ before q after, calls = before ++ q :: after →
        ∀ e, Template.parse limit q.template = .error e →
          cacheAfter (some (.empty capacity)) (before ++ [q]) =
            cacheAfter (some (.empty capacity)) before := by
  constructor
  · obtain ⟨cache, hcache, hparsed⟩ := Cache.parsedBy_cacheAfter capacity []
    obtain rfl : Cache.empty capacity = cache := Option.some.inj hcache
    exact hparsed.answers_eq (by simp) hlimit
  · rintro before q after rfl e herror
    obtain ⟨hbefore, hafter⟩ := List.forall_mem_append.mp hlimit
    obtain ⟨cache, hcache, hparsed⟩ := Cache.parsedBy_cacheAfter capacity before
    rw [cacheAfter_append, hcache]
    exact hparsed.cache_eq_of_error hbefore (List.forall_mem_cons.mp hafter).1 herror

/-- A tree that was given up is parsed again, with a formatter of its own, and a broken template is
refused each time. -/
theorem answers_cached_eviction :
    (∀ q ∈ [Call.parse .standard "a /*x*/1", .build .standard "b" .empty, .parse .standard "(",
        .build { Compiler.standard with formatter := fun _ => "v" } "a /*x*/1" .empty],
      q.compiler.limit = 64) ∧
      answers (some (.empty 1))
        [.parse .standard "a /*x*/1", .build .standard "b" .empty, .parse .standard "(",
          .build { Compiler.standard with formatter := fun _ => "v" } "a /*x*/1" .empty] =
        [Call.parse .standard "a /*x*/1", .build .standard "b" .empty, .parse .standard "(",
          .build { Compiler.standard with formatter := fun _ => "v" } "a /*x*/1" .empty].map
          (fun q => (q.run none).1) :=
  ⟨by decide, (answers_cached 1 64 _ (by decide)).1⟩

/-! ## Limits of their own -/

/-- A call whose template is found is answered from a tree that an earlier call has parsed. -/
theorem Cache.ParsedBy.answer_of_found {cache : Cache} {calls : List Call}
    (h : cache.ParsedBy calls) {q : Call} {tree : Tree}
    (hlookup : cache.trees.lookup q.template = some tree) :
    (q.run (some cache)).1 = q.answer (.ok tree) ∧
      ∃ earlier ∈ calls, earlier.template = q.template ∧
        Template.parse earlier.compiler.limit q.template = .ok tree := by
  rw [Call.run_of_found hlookup]
  exact ⟨rfl, h _ (Cache.mem_of_lookup hlookup)⟩

/-- No call succeeds with a template that its compiler refuses when it parses it itself. -/
def EnforcesLimits (capacity : Nat) (calls : List Call) : Prop :=
  ∀ before q after, calls = before ++ q :: after →
    (q.run (cacheAfter (some (.empty capacity)) before)).1.succeeds = true →
    ∃ tree, Template.parse q.compiler.limit q.template = .ok tree

section Limits

variable {capacity : Nat} {calls : List Call}

theorem EnforcesLimits.of_found
    (h : ∀ before q after cache tree, calls = before ++ q :: after →
      cacheAfter (some (.empty capacity)) before = some cache →
      cache.trees.lookup q.template = some tree → (q.answer (.ok tree)).succeeds = true →
      Template.parse q.compiler.limit q.template = .ok tree) :
    EnforcesLimits capacity calls := by
  intro before q after hcalls hsucceeds
  obtain ⟨cache, hcache, hparsed⟩ := Cache.parsedBy_cacheAfter capacity before
  rw [hcache] at hsucceeds
  cases hlookup : cache.trees.lookup q.template with
  | none => exact Call.parse_of_succeeds (Call.answer_of_not_found hlookup ▸ hsucceeds)
  | some tree =>
    rw [(hparsed.answer_of_found hlookup).1] at hsucceeds
    exact ⟨tree, h before q after cache tree hcalls hcache hlookup hsucceeds⟩

theorem EnforcesLimits.parse_eq (h : EnforcesLimits capacity calls) {before after : List Call}
    {q : Call} {cache : Cache} {tree : Tree} (hcalls : calls = before ++ q :: after)
    (hcache : cacheAfter (some (.empty capacity)) before = some cache)
    (hlookup : cache.trees.lookup q.template = some tree)
    (hsucceeds : (q.answer (.ok tree)).succeeds = true) :
    Template.parse q.compiler.limit q.template = .ok tree := by
  obtain ⟨held, hheld, hparsed⟩ := Cache.parsedBy_cacheAfter capacity before
  obtain rfl : cache = held := Option.some.inj (hcache.symm.trans hheld)
  obtain ⟨hanswer, earlier, -, -, hearlier⟩ := hparsed.answer_of_found hlookup
  rw [← hanswer, ← hcache] at hsucceeds
  obtain ⟨own, hown⟩ := h before q after hcalls hsucceeds
  rwa [Template.parse_unique hearlier hown]

end Limits

/-- A template that is found was parsed within the limit of an earlier call, and the call's own
limit is not looked at. So the limits are enforced if and only if no call succeeds with a template
that is found and that its own limit refuses. They are if no call has a lower limit than an earlier
one with its template. -/
theorem enforcesLimits_iff (capacity : Nat) (calls : List Call) :
    (∀ before q after, calls = before ++ q :: after →
      ∃ cache, cacheAfter (some (.empty capacity)) before = some cache ∧
        (cache.trees.lookup q.template = none → (q.run (some cache)).1 = (q.run none).1) ∧
        ∀ tree, cache.trees.lookup q.template = some tree →
          (q.run (some cache)).1 = q.answer (.ok tree) ∧
          ∃ earlier ∈ before, earlier.template = q.template ∧
            Template.parse earlier.compiler.limit q.template = .ok tree) ∧
    (EnforcesLimits capacity calls ↔ ∀ before q after cache tree, calls = before ++ q :: after →
      cacheAfter (some (.empty capacity)) before = some cache →
      cache.trees.lookup q.template = some tree → (q.answer (.ok tree)).succeeds = true →
      Template.parse q.compiler.limit q.template = .ok tree) ∧
    ((∀ before q after, calls = before ++ q :: after → ∀ earlier ∈ before,
      earlier.template = q.template → earlier.compiler.limit ≤ q.compiler.limit) →
      EnforcesLimits capacity calls) := by
  refine ⟨fun before q after hcalls => ?_, ⟨fun h before q after cache tree => h.parse_eq,
    EnforcesLimits.of_found⟩, fun hlimits => .of_found ?_⟩
  · obtain ⟨cache, hcache, hparsed⟩ := Cache.parsedBy_cacheAfter capacity before
    exact ⟨cache, hcache, Call.answer_of_not_found, fun tree => hparsed.answer_of_found⟩
  · intro before q after cache tree hcalls hcache hlookup _
    obtain ⟨held, hheld, hparsed⟩ := Cache.parsedBy_cacheAfter capacity before
    obtain rfl : cache = held := Option.some.inj (hcache.symm.trans hheld)
    obtain ⟨-, earlier, hmem, htemplate, hparse⟩ := hparsed.answer_of_found hlookup
    exact Template.parse_of_limit_le (hlimits before q after hcalls earlier hmem htemplate) hparse

/-- A compiler with the limit 3 succeeds with a template of four brackets, which one with a larger
limit has built before. -/
theorem cache_passes_limit :
    ¬EnforcesLimits 2 [.build .standard "((((a))))" .empty,
        .build { Compiler.standard with limit := 3 } "((((a))))" .empty] ∧
      Template.parse 3 "((((a))))" = .error (.structural (.tooDeep 3) ⟨"((((a))))", 1⟩) := by
  have hparse : Template.parse 3 "((((a))))" =
      .error (.structural (.tooDeep 3) ⟨"((((a))))", 1⟩) := error?_eq_some.mp (by decide +kernel)
  refine ⟨fun h => ?_, hparse⟩
  obtain ⟨tree, htree⟩ := h [.build .standard "((((a))))" .empty]
    (.build { Compiler.standard with limit := 3 } "((((a))))" .empty) [] rfl (by decide +kernel)
  cases hparse.symm.trans htree

end TwoWaySql
