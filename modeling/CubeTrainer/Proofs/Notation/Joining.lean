import Mathlib.Data.List.TakeWhile
import CubeTrainer.Notation.Parts
import CubeTrainer.Proofs.Notation.Scanning

/-!
# Tokens of joined texts

The tokens of two texts one after the other are those of the first and then those of the second,
unless the second begins with what a turn or a closing bracket may take in (`tokenList_append`).
What brackets a text opens and drops can be told from its tokens (`foldl_push_eq`).
-/

namespace CubeTrainer.Notation

/-! ### Runs -/

section Runs

variable {α : Type} {p : α → Bool} {bs : List α}

theorem takeWhile_append_of_ended (as : List α)
    (h : ∀ b, bs.head? = some b → ¬ p b = true) : (as ++ bs).takeWhile p = as.takeWhile p := by
  have hbs : bs.takeWhile p = [] := (span_append (List.forall_mem_nil _) h).1
  rw [List.takeWhile_append, hbs, List.append_nil]
  split
  · rename_i hall
    exact ((List.takeWhile_prefix p).eq_of_length hall).symm
  · rfl

theorem dropWhile_append_of_ended (as : List α)
    (h : ∀ b, bs.head? = some b → ¬ p b = true) :
    (as ++ bs).dropWhile p = as.dropWhile p ++ bs := by
  have hbs : bs.dropWhile p = bs := (span_append (List.forall_mem_nil _) h).2
  rw [List.dropWhile_append, hbs]
  split
  · rename_i hnone
    rw [List.isEmpty_iff.1 hnone, List.nil_append]
  · rfl

end Runs

/-! ### Separated texts -/

/-- The text does not begin with a character that a turn or a bracket before it would take in. -/
def Apart (ds : List Char) : Prop :=
  ∀ d, ds.head? = some d → isSuffixChar d = false ∧ d ≠ 'w'

theorem Apart.ended {ds : List Char} (h : Apart ds) :
    ∀ d, ds.head? = some d → ¬ isSuffixChar d = true := by
  intro d hd
  rw [(h d hd).1]
  exact Bool.false_ne_true

theorem apart_cons {d : Char} (hsuffix : isSuffixChar d = false) (hw : d ≠ 'w') (ds : List Char) :
    Apart (d :: ds) := by
  intro c hc
  cases hc
  exact ⟨hsuffix, hw⟩

theorem readLayer_append {ds : List Char} (h : Apart ds) (c : Char) (cs : List Char) :
    readLayer c (cs ++ ds) = ((readLayer c cs).1, (readLayer c cs).2 ++ ds) := by
  cases cs with
  | nil =>
    rw [List.nil_append]
    unfold readLayer
    split
    · exact absurd rfl (h 'w' rfl).2
    · rfl
  | cons d cs =>
    by_cases hd : d = 'w'
    · subst hd
      rfl
    · have hne (es : List Char) : readLayer c (d :: es) = (String.ofList [c], d :: es) := by
        unfold readLayer
        split
        · rename_i heq
          cases heq
          exact absurd rfl hd
        · rfl
      rw [List.cons_append, hne, hne, List.cons_append]

theorem tokenList_append {ds : List Char} (h : Apart ds) (cs : List Char) :
    tokenList (cs ++ ds) = tokenList cs ++ tokenList ds := by
  induction cs using text_induction with
  | nil => rw [tokenList_nil, List.nil_append, List.nil_append]
  | opening c cs b ho ih =>
    rw [List.cons_append, tokenList_opening ho, tokenList_opening ho, ih, List.cons_append]
  | closing c cs b ho hc ih =>
    rw [List.cons_append, tokenList_closing ho hc, tokenList_closing ho hc, ih,
      takeWhile_append_of_ended cs h.ended, List.cons_append]
  | turn c cs ho hc ht ih =>
    rw [List.cons_append, tokenList_turn ho hc ht, tokenList_turn ho hc ht, readLayer_append h,
      takeWhile_append_of_ended _ h.ended, dropWhile_append_of_ended _ h.ended, ih,
      List.cons_append]
  | dropped c cs ho hc ht ih =>
    rw [List.cons_append, tokenList_dropped ho hc ht, tokenList_dropped ho hc ht, ih]

/-! ### Blanks -/

theorem facts_of_isBlank {c : Char} (h : isBlank c = true) :
    opened? c = none ∧ closed? c = none ∧ ¬ isTurnLetter c = true ∧ isSuffixChar c = false ∧
      c ≠ 'w' := by
  have hdigit : ¬ c.isDigit = true := by
    intro hd
    have hbounds := Char.isDigit_iff_toNat.1 hd
    simp only [isBlank, Bool.or_eq_true, Bool.and_eq_true, decide_eq_true_eq,
      List.contains_iff_mem, List.mem_cons, List.not_mem_nil, or_false] at h
    have hzero : '0'.toNat = 48 := rfl
    have hnine : '9'.toNat = 57 := rfl
    omega
  refine ⟨?_, ?_, ?_, ?_, ?_⟩
  · unfold opened?
    split
    · exact absurd h (by decide)
    · exact absurd h (by decide)
    · rfl
  · unfold closed?
    split
    · exact absurd h (by decide)
    · exact absurd h (by decide)
    · rfl
  · intro ht
    have hall : turnLetters.all (fun d => isBlank d = false) = true := by decide
    have hc := of_decide_eq_true (List.all_eq_true.1 hall c (List.contains_iff_mem.1 ht))
    exact Bool.false_ne_true (hc.symm.trans h)
  · rw [isSuffixChar, Bool.eq_false_iff.2 hdigit, Bool.false_or]
    refine Bool.eq_false_iff.2 fun hm => ?_
    simp only [isMark, Bool.or_eq_true, decide_eq_true_eq] at hm
    rcases hm with ((rfl | rfl) | rfl) | rfl <;> exact absurd h (by decide)
  · rintro rfl
    exact absurd h (by decide)

theorem tokens_append_blank {c : Char} (h : isBlank c = true) (s t : String) :
    tokens (s ++ String.singleton c ++ t) = tokens s ++ tokens t := by
  obtain ⟨ho, hc, hturn, hsuffix, hw⟩ := facts_of_isBlank h
  have htext : (s ++ String.singleton c ++ t).toList = s.toList ++ c :: t.toList := by
    simp [String.toList_append]
  show tokenList _ = tokenList _ ++ tokenList _
  rw [htext, tokenList_append (apart_cons hsuffix hw _), tokenList_dropped ho hc hturn]

/-! ### Enclosed texts -/

theorem tokenList_suffix {cs : List Char} (h : ∀ c ∈ cs, isSuffixChar c = true) :
    tokenList cs = [] := by
  rw [← tokenList_dropWhile, ← List.append_nil cs, List.dropWhile_append_of_pos h]
  exact tokenList_nil

theorem tokens_enclose (b : Bracket) (s : String) {suffix : String}
    (h : ∀ c ∈ suffix.toList, isSuffixChar c = true) :
    tokens (b.enclose s ++ suffix) =
      .opening b :: (tokens s ++ [.closing b (Suffix.stated suffix.toList)]) := by
  have hends (o d : Char) (ho : opened? o = some b) (hd : opened? d = none)
      (hc : closed? d = some b) : tokenList (o :: (s.toList ++ d :: suffix.toList)) =
      .opening b :: (tokens s ++ [.closing b (Suffix.stated suffix.toList)]) := by
    have hw : d ≠ 'w' := by
      rintro rfl
      exact absurd hc (by simp [closed?])
    have htake : suffix.toList.takeWhile isSuffixChar = suffix.toList :=
      List.takeWhile_eq_self_iff.2 h
    rw [tokenList_opening ho,
      tokenList_append (apart_cons (not_isSuffixChar_of_closed? hc) hw _),
      tokenList_closing hd hc, tokenList_suffix h, htake]
    rfl
  show tokenList _ = _
  cases b with
  | round =>
    rw [← hends '(' ')' rfl rfl rfl]
    simp [Bracket.enclose, String.toList_append]
  | square =>
    rw [← hends '[' ']' rfl rfl rfl]
    simp [Bracket.enclose, String.toList_append]

/-! ### Brackets -/

namespace Brackets

def pushToken (s : Brackets) : Token → Brackets
  | .opening b => s.opening b
  | .closing b _ => s.closing b
  | .turn _ _ => s

theorem push_of_none {c : Char} (ho : opened? c = none) (hc : closed? c = none) (s : Brackets) :
    s.push c = s := by
  rw [push, ho, hc]

theorem push_suffixChar {c : Char} (h : isSuffixChar c = true) (s : Brackets) : s.push c = s := by
  obtain ⟨ho, hc⟩ := not_bracket_of_isSuffixChar h
  exact push_of_none ho hc s

theorem foldl_push_dropWhile (s : Brackets) (cs : List Char) :
    (cs.dropWhile isSuffixChar).foldl push s = cs.foldl push s := by
  induction cs with
  | nil => rfl
  | cons c cs ih =>
    by_cases hc : isSuffixChar c = true
    · rw [List.dropWhile_cons_of_pos hc, ih, List.foldl_cons, push_suffixChar hc]
    · rw [List.dropWhile_cons_of_neg hc]

theorem foldl_push_readLayer (s : Brackets) (c : Char) (cs : List Char) :
    (readLayer c cs).2.foldl push s = cs.foldl push s := by
  unfold readLayer
  split
  · rw [List.foldl_cons, push_of_none (by decide) (by decide)]
  · rfl

theorem foldl_push_eq (s : Brackets) (cs : List Char) :
    cs.foldl push s = (tokenList cs).foldl pushToken s := by
  induction cs using text_induction generalizing s with
  | nil => rw [tokenList_nil, List.foldl_nil, List.foldl_nil]
  | opening c cs b ho ih =>
    rw [tokenList_opening ho, List.foldl_cons, List.foldl_cons, ih, push, ho]
    rfl
  | closing c cs b ho hc ih =>
    rw [tokenList_closing ho hc, List.foldl_cons, List.foldl_cons, ih, push, ho, hc]
    rfl
  | turn c cs ho hc ht ih =>
    have hrest := ih s
    rw [foldl_push_dropWhile, foldl_push_readLayer] at hrest
    rw [tokenList_turn ho hc ht, List.foldl_cons, List.foldl_cons, push_of_none ho hc]
    exact hrest
  | dropped c cs ho hc ht ih =>
    rw [tokenList_dropped ho hc ht, List.foldl_cons, push_of_none ho hc, ih]

theorem ofText_eq (s : String) : ofText s = (tokens s).foldl pushToken start :=
  foldl_push_eq start s.toList

end Brackets

end CubeTrainer.Notation
