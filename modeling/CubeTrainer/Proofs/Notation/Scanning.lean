import CubeTrainer.Proofs.Notation.Simulation
import CubeTrainer.Proofs.Notation.Suffixes

/-!
# Tokens and characters

The tokens of a text, read as a tree, are the items that `Tree.scan` finds in its characters. Suffix
characters that belong to no item are no tokens, so it does not matter that every closing bracket
takes them, also one that is dropped. With `finish_foldl_start` this gives `parse_eq_value`.
-/

namespace CubeTrainer.Notation

def tokenList (cs : List Char) : List Token := (tokensAfter #[] cs).toList

theorem toList_tokensAfter (before : Array Token) (cs : List Char) :
    (tokensAfter before cs).toList = before.toList ++ tokenList cs := by
  induction hn : cs.length using Nat.strongRecOn generalizing before cs with
  | ind n ih =>
    cases cs with
    | nil => simp [tokenList, tokensAfter]
    | cons c cs =>
      have hlt : (readToken c cs).2.length < n := by
        rw [← hn]
        exact Nat.lt_succ_of_le (length_readToken_le c cs)
      have hrest (before : Array Token) := ih _ hlt before (readToken c cs).2 rfl
      rw [tokenList, tokensAfter, tokensAfter, hrest, hrest]
      cases (readToken c cs).1 <;> simp

theorem tokenList_nil : tokenList [] = [] := by
  simp [tokenList, tokensAfter]

theorem tokenList_cons (c : Char) (cs : List Char) :
    tokenList (c :: cs) = (readToken c cs).1.toList ++ tokenList (readToken c cs).2 := by
  rw [tokenList, tokensAfter, toList_tokensAfter]
  cases (readToken c cs).1 <;> rfl

/-! ### Kinds of characters -/

theorem not_isSuffixChar_of_opened? {c : Char} {b : Bracket} (h : opened? c = some b) :
    isSuffixChar c = false := by
  unfold opened? at h
  split at h
  · rfl
  · rfl
  · cases h

theorem not_isSuffixChar_of_closed? {c : Char} {b : Bracket} (h : closed? c = some b) :
    isSuffixChar c = false := by
  unfold closed? at h
  split at h
  · rfl
  · rfl
  · cases h

theorem not_isSuffixChar_of_isTurnLetter {c : Char} (h : isTurnLetter c = true) :
    isSuffixChar c = false := by
  have hall : turnLetters.all (fun d => isSuffixChar d = false) = true := by decide
  exact of_decide_eq_true (List.all_eq_true.1 hall c (List.contains_iff_mem.1 h))

theorem not_bracket_of_isSuffixChar {c : Char} (h : isSuffixChar c = true) :
    opened? c = none ∧ closed? c = none := by
  constructor
  · cases ho : opened? c with
    | none => rfl
    | some b => exact absurd h (by rw [not_isSuffixChar_of_opened? ho]; decide)
  · cases hc : closed? c with
    | none => rfl
    | some b => exact absurd h (by rw [not_isSuffixChar_of_closed? hc]; decide)

theorem readToken_suffixChar {c : Char} (h : isSuffixChar c = true) (cs : List Char) :
    readToken c cs = (none, cs) := by
  obtain ⟨hopen, hclose⟩ := not_bracket_of_isSuffixChar h
  have hturn : ¬ isTurnLetter c = true := by
    intro ht
    rw [not_isSuffixChar_of_isTurnLetter ht] at h
    exact Bool.false_ne_true h
  rw [readToken, hopen, hclose]
  simp only [if_neg hturn]

theorem tokenList_dropWhile (cs : List Char) :
    tokenList (cs.dropWhile isSuffixChar) = tokenList cs := by
  induction cs with
  | nil => rfl
  | cons c cs ih =>
    by_cases hc : isSuffixChar c = true
    · rw [List.dropWhile_cons_of_pos hc, ih, tokenList_cons, readToken_suffixChar hc]
      rfl
    · rw [List.dropWhile_cons_of_neg hc]

theorem tokenList_opening {c : Char} {b : Bracket} (h : opened? c = some b) (cs : List Char) :
    tokenList (c :: cs) = .opening b :: tokenList cs := by
  rw [tokenList_cons, readToken, h]
  rfl

theorem tokenList_closing {c : Char} {b : Bracket} (ho : opened? c = none)
    (hc : closed? c = some b) (cs : List Char) :
    tokenList (c :: cs) =
      .closing b (Suffix.stated (cs.takeWhile isSuffixChar)) :: tokenList cs := by
  rw [tokenList_cons, readToken, ho, hc, ← Suffix.ofChars_eq_stated, ← tokenList_dropWhile cs]
  rfl

theorem tokenList_turn {c : Char} (ho : opened? c = none) (hc : closed? c = none)
    (ht : isTurnLetter c = true) (cs : List Char) :
    tokenList (c :: cs) =
      .turn (readLayer c cs).1 (Suffix.stated ((readLayer c cs).2.takeWhile isSuffixChar)) ::
        tokenList ((readLayer c cs).2.dropWhile isSuffixChar) := by
  rw [tokenList_cons, readToken, ho, hc, ← Suffix.ofChars_eq_stated]
  simp only [if_pos ht]
  rfl

theorem tokenList_dropped {c : Char} (ho : opened? c = none) (hc : closed? c = none)
    (ht : ¬ isTurnLetter c = true) (cs : List Char) : tokenList (c :: cs) = tokenList cs := by
  rw [tokenList_cons, readToken, ho, hc]
  simp only [if_neg ht]
  rfl

/-- Induction on a text as it is read: by its first character, and behind a whole turn. -/
theorem text_induction {P : List Char → Prop} (nil : P [])
    (opening : ∀ c cs b, opened? c = some b → P cs → P (c :: cs))
    (closing : ∀ c cs b, opened? c = none → closed? c = some b → P cs → P (c :: cs))
    (turn : ∀ c cs, opened? c = none → closed? c = none → isTurnLetter c = true →
      P ((readLayer c cs).2.dropWhile isSuffixChar) → P (c :: cs))
    (dropped : ∀ c cs, opened? c = none → closed? c = none → ¬ isTurnLetter c = true → P cs →
      P (c :: cs)) (cs : List Char) : P cs := by
  induction hn : cs.length using Nat.strongRecOn generalizing cs with
  | ind n ih =>
    cases cs with
    | nil => exact nil
    | cons c cs =>
      have hlt : cs.length < n := by
        rw [← hn]
        exact Nat.lt_succ_self _
      cases ho : opened? c with
      | some b => exact opening c cs b ho (ih _ hlt cs rfl)
      | none =>
        cases hc : closed? c with
        | some b => exact closing c cs b ho hc (ih _ hlt cs rfl)
        | none =>
          by_cases ht : isTurnLetter c = true
          · have hle := length_dropWhile_le isSuffixChar (readLayer c cs).2
            have hle := Nat.le_trans hle (length_readLayer_le c cs)
            exact turn c cs ho hc ht (ih _ (Nat.lt_of_le_of_lt hle hlt) _ rfl)
          · exact dropped c cs ho hc ht (ih _ hlt cs rfl)

/-! ### Trees -/

/-- Tokens and characters give the same items and the same suffix, and leave the same over. -/
structure Agree {ts : List Token} {cs : List Char} (found : Tree.Inside ts)
    (scanned : Tree.Scanned cs) : Prop where
  items : found.items = scanned.items
  suffix : found.suffix = scanned.suffix
  rest : found.rest = tokenList scanned.rest

theorem agree_scan (inner : Option Bracket) (cs : List Char) :
    Agree (Tree.inside inner (tokenList cs)) (Tree.scan inner cs) := by
  -- On the number of characters: a scan goes on behind an item, and behind a group twice.
  induction hn : cs.length using Nat.strongRecOn generalizing inner cs with
  | ind n ih =>
    cases cs with
    | nil =>
      rw [tokenList_nil, Tree.inside, Tree.scan]
      exact ⟨rfl, rfl, tokenList_nil.symm⟩
    | cons c cs =>
      have hlt : cs.length < n := by
        rw [← hn]
        exact Nat.lt_succ_self _
      cases ho : opened? c with
      | some b =>
        have hbody := ih _ hlt (some b) cs rfl
        have hmore (ts : List Token) (h : ts = tokenList (Tree.scan (some b) cs).rest) :
            Agree (Tree.inside inner ts) (Tree.scan inner (Tree.scan (some b) cs).rest) := by
          rw [h]
          exact ih _ (Nat.lt_of_le_of_lt (Tree.scan (some b) cs).rest_le hlt) inner _ rfl
        obtain ⟨hitems, hsuffix, hrest⟩ := hmore _ hbody.rest
        rw [tokenList_opening ho, Tree.inside, Tree.scan, ho]
        refine ⟨?_, hsuffix, hrest⟩
        simp only [hbody.items, hbody.suffix, hitems]
      | none =>
        cases hc : closed? c with
        | some b =>
          have hmore := ih _ hlt inner cs rfl
          rw [tokenList_closing ho hc, Tree.inside, Tree.scan, ho, hc]
          by_cases hb : inner = some b
          · simp only [if_pos hb]
            exact ⟨rfl, rfl, (tokenList_dropWhile cs).symm⟩
          · simp only [if_neg hb]
            exact ⟨hmore.items, hmore.suffix, hmore.rest⟩
        | none =>
          by_cases ht : isTurnLetter c = true
          · have hle := length_dropWhile_le isSuffixChar (readLayer c cs).2
            have hle := Nat.le_trans hle (length_readLayer_le c cs)
            have hmore := ih _ (Nat.lt_of_le_of_lt hle hlt) inner _ rfl
            rw [tokenList_turn ho hc ht, Tree.inside, Tree.scan, ho, hc]
            simp only [if_pos ht]
            exact ⟨congrArg _ hmore.items, hmore.suffix, hmore.rest⟩
          · have hmore := ih _ hlt inner cs rfl
            rw [tokenList_dropped ho hc ht, Tree.scan, ho, hc]
            simp only [if_neg ht]
            exact ⟨hmore.items, hmore.suffix, hmore.rest⟩

theorem read_eq_scan (s : String) : Tree.read s = (Tree.scan none s.toList).items :=
  (agree_scan none s.toList).items

theorem parse_eq_valueAll_read (s : String) : parse s = Tree.valueAll (Tree.read s) :=
  finish_foldl_start (tokens s)

/-- An algorithm text stands for the value of what a scan of its characters finds. -/
theorem parse_eq_value (s : String) :
    parse s = Tree.valueAll (Tree.scan none s.toList).items := by
  rw [parse_eq_valueAll_read, read_eq_scan]

end CubeTrainer.Notation
