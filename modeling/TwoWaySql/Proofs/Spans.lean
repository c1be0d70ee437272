import TwoWaySql.Scanner

/-!
# Spans of tokens

Places are byte offsets, and not every offset is one: it may fall within a character or after the
end. `splitAtByte?` splits a text at an offset that is a place, and `slice?` cuts out what stands
between two of them. Whatever the scanner, what it reads is lossless
(`Scanner.NeverStops.lossless`): the tokens lie side by side from the start of the source, each is
the slice of the source at its span, and they cover the source up to where the reading stopped.
-/

namespace TwoWaySql

/-! ## Places in a text -/

/-- The text before and after the byte offset `n`; none if no character starts or ends there. -/
def splitAtByte? : Nat → List Char → Option (List Char × List Char)
  | 0, cs => some ([], cs)
  | _ + 1, [] => none
  | n + 1, c :: cs =>
    if c.utf8Size ≤ n + 1 then
      (splitAtByte? (n + 1 - c.utf8Size) cs).map fun (before, after) => (c :: before, after)
    else none

/-- The text between two byte offsets; none if one of them falls within a character or outside the
text, or if they are in the wrong order. -/
def slice? (start stop : Nat) (cs : List Char) : Option (List Char) :=
  if start ≤ stop then
    (splitAtByte? start cs).bind fun split =>
      (splitAtByte? (stop - start) split.2).map Prod.fst
  else none

/-- The byte offset is a place in the text: it does not fall within a character or after the
end. -/
def IsPlace (cs : List Char) (n : Nat) : Prop := (splitAtByte? n cs).isSome = true

theorem byteLength_cons (c : Char) (cs : List Char) :
    byteLength (c :: cs) = c.utf8Size + byteLength cs := rfl

theorem byteLength_eq_zero_iff {cs : List Char} : byteLength cs = 0 ↔ cs = [] := by
  cases cs with
  | nil => simp [byteLength]
  | cons c cs =>
    have hc := c.utf8Size_pos
    rw [byteLength_cons]
    constructor
    · intro h
      omega
    · intro h
      cases h

theorem splitAtByte?_append (as bs : List Char) :
    splitAtByte? (byteLength as) (as ++ bs) = some (as, bs) := by
  induction as with
  | nil => rw [byteLength, List.foldr_nil, splitAtByte?]; rfl
  | cons c as ih =>
    have hc := c.utf8Size_pos
    obtain ⟨n, hn⟩ : ∃ n, byteLength (c :: as) = n + 1 :=
      Nat.exists_eq_succ_of_ne_zero (by rw [byteLength_cons]; omega)
    rw [hn, List.cons_append, splitAtByte?, ← hn, byteLength_cons, if_pos (Nat.le_add_right ..),
      Nat.add_sub_cancel_left, ih, Option.map_some]

theorem splitAtByte?_eq_some_iff {n : Nat} {cs as bs : List Char} :
    splitAtByte? n cs = some (as, bs) ↔ cs = as ++ bs ∧ n = byteLength as := by
  constructor
  · fun_induction splitAtByte? n cs generalizing as bs with
    | case1 cs =>
      rintro ⟨⟩
      exact ⟨rfl, rfl⟩
    | case2 => nofun
    | case3 n c cs hc ih =>
      intro h
      obtain ⟨⟨before, after⟩, hsplit, heq⟩ := Option.map_eq_some_iff.mp h
      cases heq
      obtain ⟨rfl, hn⟩ := ih hsplit
      refine ⟨rfl, ?_⟩
      rw [byteLength_cons]
      omega
    | case4 => nofun
  · rintro ⟨rfl, rfl⟩
    exact splitAtByte?_append as bs

theorem isPlace_iff {cs : List Char} {n : Nat} :
    IsPlace cs n ↔ ∃ before after, cs = before ++ after ∧ n = byteLength before := by
  simp only [IsPlace, Option.isSome_iff_exists, Prod.exists, splitAtByte?_eq_some_iff]

theorem slice?_eq_some_iff {start stop : Nat} {cs piece : List Char} :
    slice? start stop cs = some piece ↔ ∃ before after, cs = before ++ (piece ++ after) ∧
      start = byteLength before ∧ stop = byteLength before + byteLength piece := by
  constructor
  · intro h
    unfold slice? at h
    split at h
    · rename_i hle
      obtain ⟨⟨before, rest⟩, hstart, h⟩ := Option.bind_eq_some_iff.mp h
      obtain ⟨⟨_, after⟩, hstop, heq⟩ := Option.map_eq_some_iff.mp h
      obtain ⟨rfl, rfl⟩ := splitAtByte?_eq_some_iff.mp hstart
      obtain rfl : _ = piece := heq
      obtain ⟨rfl, hn⟩ := splitAtByte?_eq_some_iff.mp hstop
      refine ⟨before, after, rfl, rfl, ?_⟩
      dsimp only
      omega
    · cases h
  · rintro ⟨before, after, rfl, rfl, rfl⟩
    rw [slice?, if_pos (Nat.le_add_right ..), splitAtByte?_append, Option.bind_some,
      Nat.add_sub_cancel_left, splitAtByte?_append, Option.map_some]

/-! ## Tokens side by side -/

variable {σ κ ε : Type}

/-- The tokens lie side by side and cover the byte offsets from `start` up to `stop`. -/
def Tiles (start : Nat) : List (Token κ) → Nat → Prop
  | [], stop => start = stop
  | t :: ts, stop => t.start = start ∧ Tiles t.stop ts stop

/-- Tokens side by side, whose texts stand in the source one after the other, are slices of it. -/
theorem Tiles.slices {ts : List (Token κ)} {stop : Nat} {before after : List Char}
    (h : Tiles (byteLength before) ts stop) : ∀ t ∈ ts,
      slice? t.start t.stop (before ++ (ts.flatMap (·.text.toList) ++ after)) =
        some t.text.toList := by
  induction ts generalizing before with
  | nil => nofun
  | cons t ts ih =>
    obtain ⟨hstart, hrest⟩ := h
    rw [Token.stop, hstart, ← byteLength_append] at hrest
    rw [List.flatMap_cons, List.forall_mem_cons]
    constructor
    · rw [slice?_eq_some_iff]
      exact ⟨before, ts.flatMap (·.text.toList) ++ after, by rw [List.append_assoc], hstart,
        by rw [Token.stop, hstart]⟩
    · intro u hu
      have hslice := ih hrest u hu
      rwa [List.append_assoc, ← List.append_assoc t.text.toList] at hslice

/-- A token starts where the texts before it end. -/
theorem Tiles.start_eq {ts us : List (Token κ)} {t : Token κ} {start stop : Nat}
    (h : Tiles start (ts ++ t :: us) stop) :
    t.start = start + byteLength (ts.flatMap (·.text.toList)) := by
  induction ts generalizing start with
  | nil => exact h.1
  | cons u ts ih =>
    obtain ⟨hstart, hrest⟩ := h
    rw [ih hrest, Token.stop, hstart, List.flatMap_cons, byteLength_append, Nat.add_assoc]

namespace Scanner

variable (s : Scanner σ κ ε)

theorem tiles_lexFrom (state : σ) (offset : Nat) (cs : List Char) :
    Tiles offset (s.lexFrom state offset cs).tokens
      (offset + byteLength (s.lexFrom state offset cs).text) := by
  fun_induction lexFrom s state offset cs with
  | case1 => simp [Tiles, Token.stop, Lexed.text, byteLength]
  | case2 => exact rfl
  | case3 state offset c cs kind length next h token rest ih =>
    refine ⟨rfl, ?_⟩
    have htext : Lexed.text { rest with tokens := token :: rest.tokens } =
        token.text.toList ++ rest.text := rfl
    rw [htext, byteLength_append, ← Nat.add_assoc]
    exact ih

/-- Every token takes a character, and the end takes none. -/
theorem length_lexFrom_le (state : σ) (offset : Nat) (cs : List Char) :
    (s.lexFrom state offset cs).tokens.length ≤ cs.length + 1 := by
  fun_induction lexFrom s state offset cs with
  | case1 => exact Nat.le_refl 1
  | case2 => exact Nat.zero_le _
  | case3 state offset c cs kind length next h token rest ih =>
    have hrest : rest.tokens.length ≤ (cs.drop length).length + 1 := ih
    rw [List.length_drop] at hrest
    rw [List.length_cons, List.length_cons]
    omega

/-- Every token starts and stops between two characters and has the text between them. -/
theorem slices_lexFrom (state : σ) (source : List Char) :
    ∀ t ∈ (s.lexFrom state 0 source).tokens, IsPlace source t.start ∧ IsPlace source t.stop ∧
      slice? t.start t.stop source = some t.text.toList := by
  intro t ht
  obtain ⟨rest, htext, -⟩ := s.lexFrom_texts state 0 source
  have htiles : Tiles (byteLength []) (s.lexFrom state 0 source).tokens _ :=
    s.tiles_lexFrom state 0 source
  have hslice : slice? t.start t.stop ([] ++ ((s.lexFrom state 0 source).text ++ rest)) = _ :=
    htiles.slices t ht
  rw [List.nil_append, htext] at hslice
  obtain ⟨before, after, hsource, hstart, hstop⟩ := slice?_eq_some_iff.mp hslice
  refine ⟨isPlace_iff.mpr ⟨before, _, hsource, hstart⟩, ?_, hslice⟩
  rw [isPlace_iff]
  exact ⟨before ++ t.text.toList, after, by rw [hsource, List.append_assoc],
    by rw [hstop, byteLength_append]⟩

/-- A failure is located after the texts of the tokens before it. -/
theorem offset_failure {state : σ} {source : List Char} {cause : ε} {offset : Nat}
    (h : (s.lexFrom state 0 source).failure? = some (cause, offset)) :
    offset = byteLength (s.lexFrom state 0 source).text := by
  obtain ⟨-, -, -, hsome⟩ := s.lexFrom_texts state 0 source
  have hoffset := hsome cause offset h
  rwa [Nat.zero_add] at hoffset

/-- Up to a failure there are the texts of the tokens before it. -/
theorem slice_failure {state : σ} {source : List Char} {cause : ε} {offset : Nat}
    (h : (s.lexFrom state 0 source).failure? = some (cause, offset)) :
    slice? 0 offset source = some (s.lexFrom state 0 source).text := by
  obtain ⟨rest, htext, -⟩ := s.lexFrom_texts state 0 source
  rw [s.offset_failure h]
  exact slice?_eq_some_iff.mpr ⟨[], rest, htext.symm, rfl, (Nat.zero_add _).symm⟩

theorem isPlace_failure {state : σ} {source : List Char} {cause : ε} {offset : Nat}
    (h : (s.lexFrom state 0 source).failure? = some (cause, offset)) : IsPlace source offset := by
  obtain ⟨before, after, hsource, hstart, hstop⟩ := slice?_eq_some_iff.mp (s.slice_failure h)
  rw [byteLength_eq_zero_iff.mp hstart.symm] at hsource hstop
  rw [isPlace_iff]
  exact ⟨_, after, hsource, hstop.trans (Nat.zero_add _)⟩

/-- No token of a text is of the kind of the end. -/
def NeverStops : Prop :=
  ∀ state c cs kind length next, s.scan state c cs = .token kind length next → kind ≠ s.stop

variable {s}

theorem NeverStops.text_eq_empty_iff (hs : s.NeverStops) (state : σ) (offset : Nat)
    (cs : List Char) :
    ∀ t ∈ (s.lexFrom state offset cs).tokens, t.text = "" ↔ t.kind = s.stop := by
  fun_induction lexFrom s state offset cs with
  | case1 => simp
  | case2 => exact List.forall_mem_nil _
  | case3 state offset c cs kind length next h token rest ih =>
    rw [List.forall_mem_cons]
    refine ⟨⟨fun htext => ?_, fun hkind => (hs _ _ _ _ _ _ h hkind).elim⟩, ih⟩
    have hlist := congrArg String.toList htext
    rw [String.toList_ofList] at hlist
    cases hlist

/-- A reading that does not fail goes up to the end, which is marked there and only there. -/
theorem NeverStops.complete (hs : s.NeverStops) (state : σ) (offset : Nat) (cs : List Char)
    (hnone : (s.lexFrom state offset cs).failure? = none) :
    ∃ ts, (s.lexFrom state offset cs).tokens = ts ++ [⟨s.stop, "", offset + byteLength cs⟩] ∧
      ∀ t ∈ ts, t.kind ≠ s.stop := by
  fun_induction lexFrom s state offset cs with
  | case1 => exact ⟨[], rfl, List.forall_mem_nil _⟩
  | case2 => cases hnone
  | case3 state offset c cs kind length next h token rest ih =>
    obtain ⟨ts, htokens, hts⟩ := ih hnone
    refine ⟨token :: ts, ?_, List.forall_mem_cons.mpr ⟨hs _ _ _ _ _ _ h, hts⟩⟩
    have hlength : token.stop + byteLength (cs.drop length) = offset + byteLength (c :: cs) := by
      rw [Token.stop, String.toList_ofList, Nat.add_assoc, ← byteLength_append, List.cons_append,
        List.take_append_drop]
    rw [hlength] at htokens
    rw [htokens, List.cons_append]

/-- A reading that fails leaves some of the text, and its end is not marked. -/
theorem NeverStops.incomplete (hs : s.NeverStops) (state : σ) (offset : Nat) (cs : List Char)
    {failure : ε × Nat} (hsome : (s.lexFrom state offset cs).failure? = some failure) :
    (s.lexFrom state offset cs).text ≠ cs ∧
      ∀ t ∈ (s.lexFrom state offset cs).tokens, t.kind ≠ s.stop := by
  fun_induction lexFrom s state offset cs with
  | case1 => cases hsome
  | case2 => exact ⟨(List.cons_ne_nil _ _).symm, List.forall_mem_nil _⟩
  | case3 state offset c cs kind length next h token rest ih =>
    obtain ⟨htext, hts⟩ := ih hsome
    refine ⟨fun heq => htext ?_, List.forall_mem_cons.mpr ⟨hs _ _ _ _ _ _ h, hts⟩⟩
    have hcs : token.text.toList ++ cs.drop length = c :: cs := by
      rw [String.toList_ofList, List.cons_append, List.take_append_drop]
    exact List.append_cancel_left (heq.trans hcs.symm)

end Scanner

/-- What is read of a source, up to the end of it or to a failure, is all there and in its place.
The kind `stop` marks the end. -/
structure Lexed.Lossless (stop : κ) (source : List Char) (l : Lexed κ ε) : Prop where
  /-- The reading is over after at most as many tokens as there are characters, and the end. -/
  length_le : l.tokens.length ≤ source.length + 1
  /-- The tokens lie side by side from the start on. -/
  tiles : Tiles 0 l.tokens (byteLength l.text)
  /-- Every token starts and stops between two characters and has the text between them. -/
  slices : ∀ t ∈ l.tokens, IsPlace source t.start ∧ IsPlace source t.stop ∧
    slice? t.start t.stop source = some t.text.toList
  /-- No token is empty but the end. -/
  empty_iff : ∀ t ∈ l.tokens, t.text = "" ↔ t.kind = stop
  /-- Without a failure the tokens are the whole source, with the end at its end and only there. -/
  complete : l.failure? = none → l.text = source ∧
    ∃ ts, l.tokens = ts ++ [⟨stop, "", byteLength source⟩] ∧ ∀ t ∈ ts, t.kind ≠ stop
  /-- With a failure they are the source up to the offset of the failure, which is not at its
  end. -/
  incomplete : ∀ cause offset, l.failure? = some (cause, offset) →
    slice? 0 offset source = some l.text ∧ offset < byteLength source ∧
      ∀ t ∈ l.tokens, t.kind ≠ stop

theorem Scanner.NeverStops.lossless {s : Scanner σ κ ε} (hs : s.NeverStops) (state : σ)
    (source : List Char) : (s.lexFrom state 0 source).Lossless s.stop source := by
  obtain ⟨rest, htext, hnone, -⟩ := s.lexFrom_texts state 0 source
  have htiles := s.tiles_lexFrom state 0 source
  rw [Nat.zero_add] at htiles
  refine ⟨s.length_lexFrom_le state 0 source, htiles, s.slices_lexFrom state source,
    hs.text_eq_empty_iff state 0 source, fun hfailure => ?_, fun cause offset hfailure => ?_⟩
  · have hcomplete := hs.complete state 0 source hfailure
    rw [Nat.zero_add] at hcomplete
    rw [hnone hfailure, List.append_nil] at htext
    exact ⟨htext, hcomplete⟩
  · obtain ⟨hne, hts⟩ := hs.incomplete state 0 source hfailure
    refine ⟨s.slice_failure hfailure, ?_, hts⟩
    have hoffset := s.offset_failure hfailure
    have hrest : byteLength rest ≠ 0 := fun h => hne <| by
      rw [byteLength_eq_zero_iff.mp h, List.append_nil] at htext
      exact htext
    have hlength := congrArg byteLength htext
    rw [byteLength_append] at hlength
    omega

end TwoWaySql
