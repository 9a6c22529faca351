import CubeTrainer.Proofs.Notation.Joining

/-!
# Texts beside and inside of others

A text that closes its groups leaves a reading with no group open, and what follows is read there
as on its own. A matched text touches nothing around it, whatever groups are open there
(`foldl_push_within`), so a group made of it is the one list that the text stands for, taken as the
suffix says. `parse_compose` puts this together.
-/

namespace CubeTrainer.Notation

/-! ### Dropped brackets -/

namespace Brackets

variable {s : Brackets} {t : Token} {ts : List Token}

/-- The token is not a closing bracket that is dropped. -/
def Keeps (s : Brackets) (t : Token) : Prop :=
  ∀ b suffix, t = .closing b suffix → s.opened.head? = some b

theorem dropped_le_pushToken (s : Brackets) (t : Token) : s.dropped ≤ (s.pushToken t).dropped := by
  cases t with
  | opening | turn => exact Nat.le_refl _
  | closing b suffix =>
    rw [pushToken, closing]
    split
    · exact Nat.le_refl _
    · exact Nat.le_succ _

theorem dropped_le_foldl (s : Brackets) (ts : List Token) :
    s.dropped ≤ (ts.foldl pushToken s).dropped := by
  induction ts generalizing s with
  | nil => exact Nat.le_refl _
  | cons t ts ih => exact Nat.le_trans (dropped_le_pushToken s t) (ih _)

theorem keeps_of_dropped (h : (s.pushToken t).dropped = s.dropped) : s.Keeps t := by
  rintro b suffix rfl
  rw [pushToken, closing] at h
  split at h
  · assumption
  · exact absurd h (Nat.succ_ne_self _)

theorem keeps_of_foldl (h : ((t :: ts).foldl pushToken s).dropped = s.dropped) :
    s.Keeps t ∧ (ts.foldl pushToken (s.pushToken t)).dropped = (s.pushToken t).dropped := by
  have hfirst := dropped_le_pushToken s t
  have hrest := dropped_le_foldl (s.pushToken t) ts
  rw [List.foldl_cons] at h
  exact ⟨keeps_of_dropped (by omega), by omega⟩

/-! ### Brackets around brackets -/

/-- The same brackets where the groups `around` are open too. -/
def within (s : Brackets) (around : List Bracket) : Brackets := ⟨s.opened ++ around, s.dropped⟩

theorem pushToken_within (h : s.Keeps t) (around : List Bracket) :
    (s.within around).pushToken t = (s.pushToken t).within around := by
  cases t with
  | opening | turn => rfl
  | closing b suffix =>
    obtain ⟨opened, dropped⟩ := s
    have hb : opened.head? = some b := h b suffix rfl
    cases opened with
    | nil => cases hb
    | cons b' opened =>
      cases hb
      simp [pushToken, closing, within]

theorem foldl_pushToken_within (h : (ts.foldl pushToken s).dropped = s.dropped)
    (around : List Bracket) :
    ts.foldl pushToken (s.within around) = (ts.foldl pushToken s).within around := by
  induction ts generalizing s with
  | nil => rfl
  | cons t ts ih =>
    obtain ⟨hfirst, hrest⟩ := keeps_of_foldl h
    rw [List.foldl_cons, pushToken_within hfirst, ih hrest, List.foldl_cons]

end Brackets

theorem matched_iff {s : String} :
    Matched s ↔ (tokens s).foldl Brackets.pushToken Brackets.start = Brackets.start := by
  rw [← Brackets.ofText_eq, Matched, Closed]
  constructor
  · rintro ⟨hopened, hdropped⟩
    cases hs : Brackets.ofText s with
    | mk opened dropped =>
      rw [hs] at hopened hdropped
      subst hopened hdropped
      rfl
  · intro h
    rw [h]
    exact ⟨rfl, rfl⟩

theorem Matched.enclose {s : String} (h : Matched s) (b : Bracket) {suffix : String}
    (hsuffix : ∀ c ∈ suffix.toList, isSuffixChar c = true) : Matched (b.enclose s ++ suffix) := by
  have hs := matched_iff.1 h
  have hinside := Brackets.foldl_pushToken_within (by rw [hs]) [b]
  have hopen : Brackets.start.pushToken (.opening b) = Brackets.start.within [b] := rfl
  rw [matched_iff, tokens_enclose b s hsuffix, List.foldl_cons, List.foldl_append, hopen, hinside,
    hs, List.foldl_cons, List.foldl_nil]
  simp [Brackets.pushToken, Brackets.closing, Brackets.within, Brackets.start]

/-! ### Readings -/

namespace Reading

variable {r : Reading}

def opened (r : Reading) : List Bracket := r.groups.map OpenGroup.bracket

theorem inner?_eq_head? (r : Reading) : r.inner? = r.opened.head? := by
  rw [inner?, opened, List.head?_map]

@[simp] theorem opened_update (f : Array Twist → Array Twist) (r : Reading) :
    (r.update f).opened = r.opened := by
  obtain ⟨out, groups⟩ := r
  cases groups <;> rfl

theorem opened_close (suffix : Suffix) (r : Reading) : (r.close suffix).opened = r.opened.tail := by
  obtain ⟨out, groups⟩ := r
  cases groups with
  | nil => rfl
  | cons g groups => rw [close, opened_update]; rfl

theorem opened_push {s : Brackets} (h : s.opened = r.opened) (t : Token) :
    (s.pushToken t).opened = (r.push t).opened := by
  cases t with
  | opening b => exact congrArg (b :: ·) h
  | turn layer suffix => exact h.trans (opened_update _ r).symm
  | closing b suffix =>
    rw [Brackets.pushToken, Brackets.closing, h, ← inner?_eq_head?]
    by_cases hb : r.inner? = some b
    · rw [if_pos hb, push_closing hb, opened_close]
    · rw [if_neg hb, push_closing_of_ne hb]

theorem opened_foldl {s : Brackets} (h : s.opened = r.opened) (ts : List Token) :
    (ts.foldl Brackets.pushToken s).opened = (ts.foldl push r).opened := by
  induction ts generalizing s r with
  | nil => exact h
  | cons t ts ih => exact ih (opened_push h t)

/-! ### Readings inside of readings -/

/-- The reading `r` in a group that is open in another reading. -/
def within (r : Reading) (b : Bracket) (around : Reading) : Reading :=
  ⟨around.out, r.groups ++ ⟨b, r.out⟩ :: around.groups⟩

theorem update_within (f : Array Twist → Array Twist) (r : Reading) (b : Bracket)
    (around : Reading) : (r.within b around).update f = (r.update f).within b around := by
  obtain ⟨out, groups⟩ := r
  cases groups <;> rfl

theorem push_within {s : Brackets} (hs : s.opened = r.opened) {t : Token} (h : s.Keeps t)
    (b : Bracket) (around : Reading) :
    (r.within b around).push t = (r.push t).within b around := by
  cases t with
  | opening b' => rfl
  | turn layer suffix => exact update_within _ r b around
  | closing b' suffix =>
    have hb : r.inner? = some b' := by
      rw [inner?_eq_head?, ← hs]
      exact h b' suffix rfl
    obtain ⟨out, groups⟩ := r
    cases groups with
    | nil => cases hb
    | cons g groups =>
      have hinner : inner? (within ⟨out, g :: groups⟩ b around) = some b' := hb
      rw [push_closing hb, push_closing hinner]
      exact update_within _ ⟨out, groups⟩ b around

theorem foldl_push_within {s : Brackets} (hs : s.opened = r.opened) {ts : List Token}
    (h : (ts.foldl Brackets.pushToken s).dropped = s.dropped) (b : Bracket) (around : Reading) :
    ts.foldl push (r.within b around) = (ts.foldl push r).within b around := by
  induction ts generalizing s r with
  | nil => rfl
  | cons t ts ih =>
    obtain ⟨hfirst, hrest⟩ := Brackets.keeps_of_foldl h
    rw [List.foldl_cons, push_within hs hfirst, ih (opened_push hs t) hrest, List.foldl_cons]

end Reading

/-! ### Closed texts -/

/-- A reading of a closed text ends with no group open and the twists that the text stands for. -/
theorem Closed.foldl_push {s : String} (h : Closed s) :
    (tokens s).foldl Reading.push Reading.start = ⟨(parse s).toArray, []⟩ ∧
      (parse s).toArray.size ≤ maxTwists := by
  have hcapped := Reading.capped_start.foldl_push_capped (tokens s)
  have hopened := Reading.opened_foldl (s := Brackets.start) (r := Reading.start) rfl (tokens s)
  rw [← Brackets.ofText_eq, h] at hopened
  have hparse : parse s = ((tokens s).foldl Reading.push Reading.start).finish.toList := rfl
  cases hr : (tokens s).foldl Reading.push Reading.start with
  | mk out groups =>
    rw [hr] at hcapped hopened hparse
    obtain rfl : groups = [] := List.map_eq_nil_iff.1 hopened.symm
    rw [Reading.finish_of_size_le hcapped.out] at hparse
    rw [hparse]
    exact ⟨rfl, hcapped.out⟩

theorem parse_append_blank {s : String} (h : Closed s) {c : Char} (hc : isBlank c = true)
    (t : String) :
    parse (s ++ String.singleton c ++ t) = (parse s ++ parse t).take maxTwists := by
  obtain ⟨hread, hsize⟩ := h.foldl_push
  have ht : parse t = Tree.valueAll (Tree.inside none (tokens t)).items := finish_foldl_start _
  rw [parse, tokens_append_blank hc, List.foldl_append, hread,
    Reading.finish_foldl_closed hsize, ht]
  rfl

/-! ### Groups -/

/-- Whatever is open around it, a group of a matched text is read as the twists of the text, taken
as its suffix says. -/
theorem foldl_push_group {s : String} (h : Matched s) (b : Bracket) {suffix : String}
    (hsuffix : ∀ c ∈ suffix.toList, isSuffixChar c = true) (r : Reading) :
    (tokens (b.enclose s ++ suffix)).foldl Reading.push r =
      r.update (pushGroup · (parse s).toArray (Suffix.stated suffix.toList)) := by
  have hdropped : ((tokens s).foldl Brackets.pushToken Brackets.start).dropped = 0 := by
    rw [← Brackets.ofText_eq]
    exact h.2
  have hinside := Reading.foldl_push_within (r := Reading.start) rfl hdropped b r
  have hopen : r.push (.opening b) = Reading.start.within b r := rfl
  have hclose : Reading.inner? (Reading.within ⟨(parse s).toArray, []⟩ b r) = some b := rfl
  rw [tokens_enclose b s hsuffix, List.foldl_cons, List.foldl_append, hopen, hinside,
    h.1.foldl_push.1, List.foldl_cons, List.foldl_nil, Reading.push_closing hclose]
  rfl

theorem parse_enclose {s : String} (h : Matched s) (b : Bracket) {suffix : String}
    (hsuffix : ∀ c ∈ suffix.toList, isSuffixChar c = true) :
    parse (b.enclose s ++ suffix) =
      (Tree.applySuffix (parse s) (Suffix.stated suffix.toList)).take maxTwists := by
  have hempty : (#[] : Array Twist).size ≤ maxTwists := Nat.zero_le _
  have hpush := toList_pushGroup hempty (parse s).toArray (Suffix.stated suffix.toList)
  rw [parse, foldl_push_group h b hsuffix]
  refine Eq.trans (congrArg Array.toList ?_) hpush
  exact Reading.finish_of_size_le (size_pushRepeated_le hempty _ _)

theorem isSuffixChar_of_mem_mark : ∀ c ∈ "'".toList, isSuffixChar c = true :=
  List.all_eq_true.1 rfl

theorem parse_enclose_mark {s : String} (h : Matched s) (b : Bracket) :
    parse (b.enclose s ++ "'") = invert (parse s) := by
  have hmark : Suffix.stated "'".toList = ⟨1, true⟩ := by decide +kernel
  have hshort : (invert (parse s)).length ≤ maxTwists := by
    rw [length_invert]
    exact h.1.foldl_push.2
  rw [parse_enclose h b isSuffixChar_of_mem_mark, hmark]
  simp [Tree.applySuffix, List.take_of_length_le hshort]

/-- Behind a closed text and a blank, any text adds its own twists. And a group of a matched text
stands for as many copies of the twists of the text as its suffix counts, inverted if the suffix
reverses: inverted once for a single mark, and back at the text for a mark at two groups. Always
the first twists are kept that the cut allows. -/
theorem parse_compose :
    (∀ (s t : String) (c : Char), Closed s → isBlank c = true →
      parse (s ++ String.singleton c ++ t) = (parse s ++ parse t).take maxTwists) ∧
      ∀ s, Matched s →
        (∀ (b : Bracket) (suffix : String), (∀ c ∈ suffix.toList, isSuffixChar c = true) →
          let stated := Suffix.stated suffix.toList
          parse (b.enclose s ++ suffix) = ((List.replicate stated.count
            (if stated.reverse then invert (parse s) else parse s)).flatten).take maxTwists) ∧
        (∀ b : Bracket, parse (b.enclose s ++ "'") = invert (parse s)) ∧
        ∀ b b' : Bracket, parse (b'.enclose (b.enclose s ++ "'") ++ "'") = parse s := by
  refine ⟨?_, ?_⟩
  · intro s t c hs hc
    exact parse_append_blank hs hc t
  · intro s hs
    refine ⟨?_, parse_enclose_mark hs, ?_⟩
    · intro b suffix hsuffix
      exact parse_enclose hs b hsuffix
    · intro b b'
      have hinner : Matched (b.enclose s ++ "'") := hs.enclose b isSuffixChar_of_mem_mark
      rw [parse_enclose_mark hinner b', parse_enclose_mark hs b, invert_invert]

/-- A closing bracket that is dropped, a group left open behind the blank, and groups in groups. -/
theorem parse_compose_nested :
    Closed "R) [U F]2" ∧ isBlank '\u2003' = true ∧ Matched "R (U F')2" ∧
      parse ("R) [U F]2" ++ String.singleton '\u2003' ++ "] D (L") =
        (parse "R) [U F]2" ++ parse "] D (L").take maxTwists ∧
      parse (Bracket.square.enclose "R (U F')2" ++ "2'3") =
        (List.replicate 6 (invert (parse "R (U F')2"))).flatten.take maxTwists ∧
      parse (Bracket.round.enclose (Bracket.square.enclose "R (U F')2" ++ "'") ++ "'") =
        parse "R (U F')2" := by
  have hclosed : Closed "R) [U F]2" := by decide +kernel
  have hblank : isBlank '\u2003' = true := by decide
  have hmatched : Matched "R (U F')2" := by decide +kernel
  have hsuffix : Suffix.stated "2'3".toList = ⟨6, true⟩ := by decide +kernel
  obtain ⟨hjoin, hgroup⟩ := parse_compose
  obtain ⟨hcopies, -, htwice⟩ := hgroup _ hmatched
  have hsix := hcopies .square "2'3" (List.all_eq_true.1 rfl)
  rw [hsuffix] at hsix
  exact ⟨hclosed, hblank, hmatched, hjoin _ _ _ hclosed hblank, hsix, htwice .square .round⟩

end CubeTrainer.Notation
