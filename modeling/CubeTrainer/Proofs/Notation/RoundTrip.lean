import CubeTrainer.Proofs.Notation.Scanning

/-!
# Texts and lists of twists

Two halves meet at `Normal`. Every list of twists in a reading is normal, so `parse` gives normal
lists only (`normal_parse`). And the tokens of a rendered list are its turns, since a blank is
neither a `w` nor a suffix character, so a rendered normal list is read back (`parse_render`).
-/

namespace CubeTrainer.Notation

/-! ### Normal lists -/

theorem normal_nil : Normal [] := ⟨Nat.zero_le _, by simp⟩

theorem NormalTwist.inverse {t : Twist} (h : NormalTwist t) : NormalTwist t.inverse := h

theorem Normal.invert {ts : List Twist} (h : Normal ts) : Normal (invert ts) := by
  refine ⟨by rw [length_invert]; exact h.1, ?_⟩
  intro t ht
  obtain ⟨u, hu, rfl⟩ := List.mem_map.1 ht
  exact (h.2 u (List.mem_reverse.1 hu)).inverse

theorem Normal.mem_applySuffix {body : List Twist} (h : Normal body) {suffix : Suffix} {t : Twist}
    (ht : t ∈ Tree.applySuffix body suffix) : NormalTwist t := by
  obtain ⟨copy, hcopy, ht⟩ := List.mem_flatten.1 ht
  obtain ⟨-, rfl⟩ := List.mem_replicate.1 hcopy
  by_cases hr : suffix.reverse = true
  · rw [if_pos hr] at ht
    exact h.invert.2 t ht
  · rw [if_neg hr] at ht
    exact h.2 t ht

theorem normal_take_append {ts us : List Twist} (hts : Normal ts)
    (hus : ∀ t ∈ us, NormalTwist t) : Normal ((ts ++ us).take maxTwists) := by
  refine ⟨List.length_take_le _ _, ?_⟩
  intro t ht
  rcases List.mem_append.1 (List.mem_of_mem_take ht) with ht | ht
  · exact hts.2 t ht
  · exact hus t ht

theorem reduceTurns_bounds (n : Nat) : 1 ≤ reduceTurns n ∧ reduceTurns n ≤ 4 := by
  unfold reduceTurns
  omega

theorem reduceTurns_of_le {n : Nat} (hpos : 1 ≤ n) (hle : n ≤ 4) : reduceTurns n = n := by
  unfold reduceTurns
  omega

theorem normal_turnTwists {layer : String} (h : isLayer layer = true) {suffix : Suffix} :
    ∀ t ∈ Tree.turnTwists layer suffix, NormalTwist t := by
  intro t ht
  rw [Tree.turnTwists] at ht
  split at ht
  · cases ht
  · obtain rfl := List.mem_singleton.1 ht
    exact ⟨h, reduceTurns_bounds suffix.count⟩

/-! ### Layers -/

theorem isLayer_iff {layer : String} : isLayer layer = true ↔
    ∃ c, isTurnLetter c = true ∧
      (layer = String.ofList [c] ∨ layer = String.ofList [c, 'w']) := by
  constructor
  · intro h
    unfold isLayer at h
    split at h
    · rename_i c hc
      exact ⟨c, h, .inl (by rw [← hc, String.ofList_toList])⟩
    · rename_i c hc
      exact ⟨c, h, .inr (by rw [← hc, String.ofList_toList])⟩
    · cases h
  · rintro ⟨c, hc, rfl | rfl⟩
    · simpa [isLayer] using hc
    · simpa [isLayer] using hc

theorem isLayer_readLayer {c : Char} (h : isTurnLetter c = true) (cs : List Char) :
    isLayer (readLayer c cs).1 = true := by
  unfold readLayer
  split
  · exact isLayer_iff.2 ⟨c, h, .inr rfl⟩
  · exact isLayer_iff.2 ⟨c, h, .inl rfl⟩

theorem isLayer_readToken {c : Char} {cs : List Char} {layer : String} {suffix : Suffix}
    (h : (readToken c cs).1 = some (.turn layer suffix)) : isLayer layer = true := by
  unfold readToken at h
  split at h
  · cases h
  · cases h
  · split at h
    · rename_i hc
      cases h
      exact isLayer_readLayer hc cs
    · cases h

theorem isLayer_of_mem_tokenList {cs : List Char} {layer : String} {suffix : Suffix}
    (h : .turn layer suffix ∈ tokenList cs) : isLayer layer = true := by
  induction hn : cs.length using Nat.strongRecOn generalizing cs with
  | ind n ih =>
    cases cs with
    | nil =>
      rw [tokenList_nil] at h
      cases h
    | cons c cs =>
      rw [tokenList_cons] at h
      rcases List.mem_append.1 h with h | h
      · exact isLayer_readToken (Option.mem_toList.1 h)
      · refine ih _ ?_ h rfl
        rw [← hn]
        exact Nat.lt_succ_of_le (length_readToken_le c cs)

theorem normal_parse (s : String) : Normal (parse s) := by
  have hgroup (ts body : Array Twist) (suffix : Suffix) (hts : Normal ts.toList)
      (hbody : Normal body.toList) : Normal (pushGroup ts body suffix).toList := by
    rw [toList_pushGroup hts.1]
    exact normal_take_append hts fun t ht => hbody.mem_applySuffix ht
  have hturn (layer : String) (suffix : Suffix) (ts : Array Twist)
      (hmem : .turn layer suffix ∈ tokens s) (hts : Normal ts.toList) :
      Normal (pushTurn ts layer suffix).toList := by
    rw [toList_pushTurn hts.1]
    exact normal_take_append hts (normal_turnTwists (isLayer_of_mem_tokenList hmem))
  have hstart : Reading.start.Holds fun ts => Normal ts.toList :=
    ⟨normal_nil, by simp [Reading.start]⟩
  exact (hstart.foldl_push normal_nil hgroup hturn).finish normal_nil hgroup

/-! ### Rendered lists -/

def suffixChars (t : Twist) : List Char :=
  (if t.times = 1 then [] else Nat.toDigits 10 t.times) ++ if t.reverse then ['\x27'] else []

theorem toList_token (t : Twist) : t.token.toList = t.layer.toList ++ suffixChars t := by
  have htimes : (if t.times = 1 then "" else toString t.times).toList =
      if t.times = 1 then [] else Nat.toDigits 10 t.times := by
    split
    · rfl
    · exact Nat.toList_repr
  have hmark : (if t.reverse then "'" else "").toList = if t.reverse then ['\x27'] else [] := by
    split <;> rfl
  rw [Twist.token, String.toList_append, String.toList_append, htimes, hmark, List.append_assoc]
  rfl

theorem isSuffixChar_of_mem_suffixChars {t : Twist} {c : Char} (h : c ∈ suffixChars t) :
    isSuffixChar c = true := by
  rcases List.mem_append.1 h with h | h
  · split at h
    · cases h
    · rw [isSuffixChar, Nat.isDigit_of_mem_toDigits (by decide) (by decide) h, Bool.true_or]
  · split at h
    · obtain rfl := List.mem_singleton.1 h
      decide
    · cases h

def suffixOf (t : Twist) : Suffix := ⟨clampCount t.times, t.reverse⟩

theorem stated_suffixChars (t : Twist) : Suffix.stated (suffixChars t) = suffixOf t := by
  obtain ⟨mark, hmark⟩ : ∃ mark, mark = if t.reverse then ['\x27'] else [] := ⟨_, rfl⟩
  have hended : ∀ c, mark.head? = some c → ¬ c.isDigit = true := by
    intro c hc
    rw [hmark] at hc
    split at hc
    · cases hc
      decide
    · cases hc
  have hone : Suffix.exactCount mark = 1 := by
    rw [hmark]
    split
    · rw [Suffix.exactCount_other (by decide), Suffix.exactCount_nil]
    · exact Suffix.exactCount_nil
  have hodd : decide (mark.countP isMark % 2 = 1) = t.reverse := by
    rw [hmark]
    cases t.reverse <;> decide
  by_cases htimes : t.times = 1
  · rw [suffixChars, if_pos htimes, ← hmark, List.nil_append, Suffix.stated, hone, hodd, suffixOf,
      htimes]
  · have hdigits : ∀ d ∈ Nat.toDigits 10 t.times, d.isDigit = true := fun d hd =>
      Nat.isDigit_of_mem_toDigits (by decide) (by decide) hd
    rw [suffixChars, if_neg htimes, ← hmark, Suffix.stated, List.countP_append,
      Suffix.Partial.countP_isMark_digits hdigits, Nat.zero_add, hodd,
      Suffix.exactCount_digits_append Nat.toDigits_ne_nil hdigits hended, hone, Nat.mul_one,
      Nat.ofDigitChars_ten_toDigits, suffixOf]

theorem not_bracket_of_isTurnLetter {c : Char} (h : isTurnLetter c = true) :
    opened? c = none ∧ closed? c = none := by
  have hall : turnLetters.all (fun d => opened? d = none ∧ closed? d = none) = true := by decide
  exact of_decide_eq_true (List.all_eq_true.1 hall c (List.contains_iff_mem.1 h))

theorem readLayer_of_ne {c : Char} {cs : List Char} (h : cs.head? ≠ some 'w') :
    readLayer c cs = (String.ofList [c], cs) := by
  unfold readLayer
  split
  · exact absurd rfl h
  · rfl

def layerChars (c : Char) (wide : Bool) : List Char := if wide then [c, 'w'] else [c]

theorem tokenList_layerChars_append {c : Char} (h : isTurnLetter c = true) (wide : Bool)
    {rest : List Char} (hrest : wide = false → rest.head? ≠ some 'w') :
    tokenList (layerChars c wide ++ rest) =
      .turn (String.ofList (layerChars c wide)) (Suffix.stated (rest.takeWhile isSuffixChar)) ::
        tokenList (rest.dropWhile isSuffixChar) := by
  obtain ⟨ho, hcl⟩ := not_bracket_of_isTurnLetter h
  cases wide with
  | true => exact tokenList_turn ho hcl h ('w' :: rest)
  | false =>
    have hread := tokenList_turn ho hcl h rest
    rw [readLayer_of_ne (hrest rfl)] at hread
    exact hread

theorem tokenList_layer_append {layer : String} (h : isLayer layer = true) {rest : List Char}
    (hrest : rest.head? ≠ some 'w') :
    tokenList (layer.toList ++ rest) =
      .turn layer (Suffix.stated (rest.takeWhile isSuffixChar)) ::
        tokenList (rest.dropWhile isSuffixChar) := by
  obtain ⟨c, hc, rfl | rfl⟩ := isLayer_iff.1 h
  · rw [String.toList_ofList]
    exact tokenList_layerChars_append hc false fun _ => hrest
  · rw [String.toList_ofList]
    exact tokenList_layerChars_append hc true fun _ => hrest

theorem tokenList_token_append {t : Twist} (h : isLayer t.layer = true) {rest : List Char}
    (hrest : ∀ c, rest.head? = some c → c = ' ') :
    tokenList (t.token.toList ++ rest) = .turn t.layer (suffixOf t) :: tokenList rest := by
  have hsuffix : ∀ c ∈ suffixChars t, isSuffixChar c = true :=
    fun c hc => isSuffixChar_of_mem_suffixChars hc
  have hblank : ∀ c, rest.head? = some c → ¬ isSuffixChar c = true := by
    intro c hc
    rw [hrest c hc]
    decide
  have hwide : (suffixChars t ++ rest).head? ≠ some 'w' := by
    intro hw
    cases hs : suffixChars t with
    | nil =>
      rw [hs] at hw
      exact absurd (hrest _ hw) (by decide)
    | cons d ds =>
      rw [hs] at hw
      cases hw
      exact absurd (hsuffix 'w' (by rw [hs]; exact List.mem_cons_self)) (by decide)
  obtain ⟨htake, hdrop⟩ := span_append hsuffix hblank
  rw [toList_token, List.append_assoc, tokenList_layer_append h hwide, htake, hdrop,
    stated_suffixChars]

def turnToken (t : Twist) : Token := .turn t.layer (suffixOf t)

theorem tokenList_render {ts : List Twist} (h : ∀ t ∈ ts, isLayer t.layer = true) :
    tokenList (render ts).toList = ts.map turnToken := by
  rw [render, String.toList_intercalate, List.map_map]
  induction ts with
  | nil => exact tokenList_nil
  | cons t ts ih =>
    have ht := h t List.mem_cons_self
    have hts := ih fun u hu => h u (List.mem_cons_of_mem _ hu)
    cases ts with
    | nil =>
      have htoken := @tokenList_token_append t ht [] (by simp)
      rw [List.append_nil, tokenList_nil] at htoken
      rw [List.map_singleton, List.intercalate_singleton]
      exact htoken
    | cons u ts =>
      rw [List.map_cons, List.map_cons] at hts ⊢
      have hblank : tokenList (' ' :: [' '].intercalate
          ((String.toList ∘ Twist.token) u :: ts.map (String.toList ∘ Twist.token))) =
          (u :: ts).map turnToken := by
        rw [tokenList_dropped (by decide) (by decide) (by decide)]
        exact hts
      rw [List.map_cons, List.intercalate_cons_cons, List.append_assoc]
      refine (tokenList_token_append ht ?_).trans (congrArg _ hblank)
      intro c hc
      cases hc
      rfl

theorem items_inside_turnTokens (ts : List Twist) :
    (Tree.inside none (ts.map turnToken)).items =
      ts.map fun t => .turn t.layer (suffixOf t) := by
  induction ts with
  | nil => rw [List.map_nil, Tree.inside, List.map_nil]
  | cons t ts ih =>
    rw [List.map_cons, turnToken, Tree.inside, List.map_cons]
    exact congrArg _ ih

theorem turnTwists_of_normal {t : Twist} (h : NormalTwist t) :
    Tree.turnTwists t.layer (suffixOf t) = [t] := by
  obtain ⟨-, hpos, hle⟩ := h
  have hclamp : clampCount t.times = t.times :=
    clampCount_of_le (Nat.le_trans hle (by decide))
  rw [Tree.turnTwists, suffixOf, hclamp, if_neg (by show t.times ≠ 0; omega)]
  show [(⟨t.layer, t.reverse, reduceTurns t.times⟩ : Twist)] = [t]
  rw [reduceTurns_of_le hpos hle]

theorem valueAll_turns {ts : List Twist} (h : ∀ t ∈ ts, NormalTwist t) :
    Tree.valueAll (ts.map fun t => .turn t.layer (suffixOf t)) = ts.take maxTwists := by
  induction ts with
  | nil => rfl
  | cons t ts ih =>
    have ht := turnTwists_of_normal (h t List.mem_cons_self)
    have hts := ih fun u hu => h u (List.mem_cons_of_mem _ hu)
    rw [List.map_cons, Tree.valueAll, Tree.value, ht, hts, take_append_take]
    rfl

/-- The cut is the only thing that a text of stated twists can lose. -/
theorem parse_render_eq_take {ts : List Twist} (h : ∀ t ∈ ts, NormalTwist t) :
    parse (render ts) = ts.take maxTwists := by
  have htokens : tokens (render ts) = ts.map turnToken := tokenList_render fun t ht => (h t ht).1
  rw [parse, htokens, finish_foldl_start, items_inside_turnTokens, valueAll_turns h]

theorem parse_render {ts : List Twist} (h : Normal ts) : parse (render ts) = ts := by
  rw [parse_render_eq_take h.2, List.take_of_length_le h.1]

theorem parse_render_eq_iff (ts : List Twist) : parse (render ts) = ts ↔ Normal ts := by
  constructor
  · intro h
    rw [← h]
    exact normal_parse (render ts)
  · exact parse_render

/-- Normal lists are what texts state, what inverting a text states, and what rendering keeps. -/
theorem normal_iff_stated :
    (∀ s, Normal (parse s) ∧ Normal (invert (parse s))) ∧
      (∀ ts, parse (render ts) = ts ↔ Normal ts) ∧
      (∀ ts, (∃ s, parse s = ts) ↔ Normal ts) ∧
      (∀ s, parse (render (parse s)) = parse s) ∧
      ∀ s, parse (render (invert (parse s))) = invert (parse s) := by
  refine ⟨fun s => ⟨normal_parse s, (normal_parse s).invert⟩, parse_render_eq_iff, ?_, ?_, ?_⟩
  · intro ts
    constructor
    · rintro ⟨s, rfl⟩
      exact normal_parse s
    · intro h
      exact ⟨render ts, parse_render h⟩
  · intro s
    exact parse_render (normal_parse s)
  · intro s
    exact parse_render (normal_parse s).invert

end CubeTrainer.Notation
