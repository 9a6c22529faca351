import CubeTrainer.Proofs.Notation.Frames

/-!
# The stack and the tree

`parse` reads with a stack of open groups, `Tree.inside` by recursion on the brackets.
`finish_foldl_push` says what the tokens still to come do to a reading: up to the end of the
innermost open group they extend its list by the value of the items that `inside` finds there, and
then that group closes. At the end of the tokens all open groups close in the same way.
-/

namespace CubeTrainer.Notation

def extend (vs : List Twist) (ts : Array Twist) : Array Twist :=
  ((ts.toList ++ vs).take maxTwists).toArray

theorem extend_nil {ts : Array Twist} (h : ts.size ≤ maxTwists) : extend [] ts = ts := by
  rw [extend, List.append_nil, List.take_of_length_le h]

theorem size_extend_le (vs : List Twist) (ts : Array Twist) : (extend vs ts).size ≤ maxTwists := by
  rw [extend, List.size_toArray]
  exact List.length_take_le _ _

theorem extend_extend (vs ws : List Twist) (ts : Array Twist) :
    extend ws (extend vs ts) = extend (vs ++ ws) ts := by
  simp only [extend, take_take_append, List.append_assoc]

theorem extend_take (vs : List Twist) (ts : Array Twist) :
    extend (vs.take maxTwists) ts = extend vs ts := by
  rw [extend, take_append_take]
  rfl

theorem pushTurn_eq_extend {ts : Array Twist} (h : ts.size ≤ maxTwists) (layer : String)
    (suffix : Suffix) : pushTurn ts layer suffix = extend (Tree.turnTwists layer suffix) ts :=
  Array.toList_inj.1 (toList_pushTurn h layer suffix)

theorem pushGroup_eq_extend {ts : Array Twist} (h : ts.size ≤ maxTwists) (body : Array Twist)
    (suffix : Suffix) :
    pushGroup ts body suffix = extend (Tree.applySuffix body.toList suffix) ts :=
  Array.toList_inj.1 (toList_pushGroup h body suffix)

theorem length_valueAll_le (items : List Tree) : (Tree.valueAll items).length ≤ maxTwists := by
  cases items with
  | nil => exact Nat.zero_le _
  | cons t items =>
    rw [Tree.valueAll]
    exact List.length_take_le _ _

theorem extend_value (t : Tree) (items : List Tree) (ts : Array Twist) :
    extend (Tree.valueAll items) (extend (Tree.value t) ts) =
      extend (Tree.valueAll (t :: items)) ts := by
  rw [extend_extend, Tree.valueAll, extend_take]

namespace Reading

variable {r : Reading}

def inner? (r : Reading) : Option Bracket := r.groups.head?.map OpenGroup.bracket

def close (suffix : Suffix) : Reading → Reading
  | ⟨out, []⟩ => ⟨out, []⟩
  | ⟨out, g :: groups⟩ => update (pushGroup · g.twists suffix) ⟨out, groups⟩

theorem update_congr {P : Array Twist → Prop} (h : r.Holds P) {f g : Array Twist → Array Twist}
    (hfg : ∀ ts, P ts → f ts = g ts) : r.update f = r.update g := by
  obtain ⟨out, groups⟩ := r
  cases groups with
  | nil => rw [update, update, hfg _ h.out]
  | cons g groups => rw [update, update, hfg _ (h.groups _ List.mem_cons_self)]

theorem update_update (f g : Array Twist → Array Twist) (r : Reading) :
    (r.update f).update g = r.update fun ts => g (f ts) := by
  obtain ⟨out, groups⟩ := r
  cases groups <;> rfl

@[simp] theorem inner?_update (f : Array Twist → Array Twist) (r : Reading) :
    (r.update f).inner? = r.inner? := by
  obtain ⟨out, groups⟩ := r
  cases groups <;> rfl

theorem Holds.extend (h : r.Capped) (vs : List Twist) : (r.update (extend vs)).Capped :=
  h.update fun ts _ => size_extend_le vs ts

theorem update_nil (h : r.Capped) : r.update (Notation.extend (Tree.valueAll [])) = r := by
  have hid : r.update (Notation.extend (Tree.valueAll [])) = r.update id :=
    update_congr h fun ts hts => extend_nil hts
  obtain ⟨out, groups⟩ := r
  cases groups <;> exact hid

theorem update_value (t : Tree) (items : List Tree) (r : Reading) :
    (r.update (Notation.extend (Tree.value t))).update (Notation.extend (Tree.valueAll items)) =
      r.update (Notation.extend (Tree.valueAll (t :: items))) := by
  rw [update_update]
  exact congrArg (update · r) (funext fun ts => extend_value t items ts)

theorem push_turn (h : r.Capped) (layer : String) (suffix : Suffix) :
    r.push (.turn layer suffix) = r.update (Notation.extend (Tree.value (.turn layer suffix))) := by
  rw [push, Tree.value]
  exact update_congr h fun ts hts => pushTurn_eq_extend hts layer suffix

/-- Opening a group, reading its items and closing it is reading the group. -/
theorem close_push_opening (h : r.Capped) (b : Bracket) (items : List Tree) (suffix : Suffix) :
    ((r.push (.opening b)).update (Notation.extend (Tree.valueAll items))).close suffix =
      r.update (Notation.extend (Tree.value (.group b items suffix))) := by
  have hbody : (Notation.extend (Tree.valueAll items) #[]).toList = Tree.valueAll items := by
    simp [Notation.extend, List.take_of_length_le (length_valueAll_le items)]
  have hpush (ts : Array Twist) (hts : ts.size ≤ maxTwists) :
      pushGroup ts (Notation.extend (Tree.valueAll items) #[]) suffix =
        Notation.extend (Tree.value (.group b items suffix)) ts := by
    rw [pushGroup_eq_extend hts, hbody, Tree.value, extend_take]
  exact update_congr h hpush

theorem push_closing {b : Bracket} (h : r.inner? = some b) (suffix : Suffix) :
    r.push (.closing b suffix) = r.close suffix := by
  obtain ⟨out, groups⟩ := r
  cases groups with
  | nil => cases h
  | cons g groups =>
    cases h
    rw [push, if_pos rfl]
    rfl

theorem push_closing_of_ne {b : Bracket} (h : r.inner? ≠ some b) (suffix : Suffix) :
    r.push (.closing b suffix) = r := by
  obtain ⟨out, groups⟩ := r
  cases groups with
  | nil => rfl
  | cons g groups => rw [push, if_neg fun hb => h (congrArg some hb)]

theorem finish_close (h : r.Capped) : (r.close Suffix.one).finish = r.finish := by
  have hempty {ts : Array Twist} (hts : ts.size ≤ maxTwists) :
      pushGroup ts #[] Suffix.one = ts := by
    rw [pushGroup_eq_extend hts]
    exact extend_nil hts
  obtain ⟨out, groups⟩ := r
  match groups, h with
  | [], _ => rfl
  | [g], h =>
    have hg := h.groups g List.mem_cons_self
    have hout := size_pushRepeated_le h.out g.twists 1
    simp only [close, update, finish, List.foldl_nil, List.foldl_cons, hempty hg]
    exact hempty hout
  | g :: g' :: groups, h =>
    have hg := h.groups g List.mem_cons_self
    have hg' := h.groups g' (List.mem_cons_of_mem _ List.mem_cons_self)
    have hsum : (pushGroup g'.twists g.twists Suffix.one).size ≤ maxTwists :=
      size_pushRepeated_le hg' g.twists 1
    simp only [close, update, finish, List.foldl_cons, hempty hg, hempty hsum]

theorem rest_inside_none (ts : List Token) : (Tree.inside none ts).rest = [] := by
  induction hn : ts.length using Nat.strongRecOn generalizing ts with
  | ind n ih =>
    cases ts with
    | nil => simp [Tree.inside]
    | cons t ts =>
      have hlt : ts.length < n := by
        rw [← hn]
        exact Nat.lt_succ_self _
      cases t with
      | opening b =>
        have hle := (Tree.inside (some b) ts).rest_le
        simpa [Tree.inside] using ih _ (Nat.lt_of_le_of_lt hle hlt) _ rfl
      | closing b suffix => simpa [Tree.inside] using ih _ hlt _ rfl
      | turn layer suffix => simpa [Tree.inside] using ih _ hlt _ rfl

/-- What the tokens still to come do to a reading. -/
theorem finish_foldl_push (ts : List Token) (h : r.Capped) :
    (ts.foldl push r).finish =
      let found := Tree.inside r.inner? ts
      (found.rest.foldl push
        ((r.update (Notation.extend (Tree.valueAll found.items))).close found.suffix)).finish := by
  -- On the number of tokens: those of a group come first, and then those after the group.
  induction hn : ts.length using Nat.strongRecOn generalizing r ts with
  | ind n ih =>
    cases ts with
    | nil =>
      simp only [Tree.inside, update_nil h, List.foldl_nil]
      exact (finish_close h).symm
    | cons t ts =>
      have hlt : ts.length < n := by
        rw [← hn]
        exact Nat.lt_succ_self _
      cases t with
      | opening b =>
        have hbody := ih _ hlt ts (h.push_capped (.opening b)) rfl
        have hle := (Tree.inside (some b) ts).rest_le
        have hmore := ih _ (Nat.lt_of_le_of_lt hle hlt) (Tree.inside (some b) ts).rest
          (h.extend (Tree.value (.group b (Tree.inside (some b) ts).items
            (Tree.inside (some b) ts).suffix))) rfl
        have hopen : (r.push (.opening b)).inner? = some b := rfl
        simp only [hopen, close_push_opening h] at hbody
        simp only [inner?_update, update_value] at hmore
        rw [List.foldl_cons, hbody, hmore, Tree.inside]
      | closing b suffix =>
        by_cases hb : r.inner? = some b
        · rw [List.foldl_cons, push_closing hb, Tree.inside, if_pos hb]
          simp only [update_nil h]
        · rw [List.foldl_cons, push_closing_of_ne hb, ih _ hlt ts h rfl, Tree.inside, if_neg hb]
      | turn layer suffix =>
        have hmore := ih _ hlt ts (h.extend (Tree.value (.turn layer suffix))) rfl
        simp only [inner?_update, update_value] at hmore
        rw [List.foldl_cons, push_turn h, hmore, Tree.inside]

theorem capped_of_size_le {out : Array Twist} (h : out.size ≤ maxTwists) : Capped ⟨out, []⟩ :=
  ⟨h, by simp⟩

theorem finish_of_size_le {out : Array Twist} (h : out.size ≤ maxTwists) :
    finish ⟨out, []⟩ = out := by
  rw [finish, List.foldl_nil, pushGroup_eq_extend h]
  exact extend_nil h

theorem finish_foldl_closed {out : Array Twist} (h : out.size ≤ maxTwists) (ts : List Token) :
    (ts.foldl push ⟨out, []⟩).finish =
      Notation.extend (Tree.valueAll (Tree.inside none ts).items) out := by
  have hread := finish_foldl_push ts (capped_of_size_le h)
  have hinner : inner? ⟨out, []⟩ = none := rfl
  have hclosed (items : List Tree) (suffix : Suffix) :
      (update (Notation.extend (Tree.valueAll items)) ⟨out, []⟩).close suffix =
        ⟨Notation.extend (Tree.valueAll items) out, []⟩ := rfl
  simp only [hinner, rest_inside_none, List.foldl_nil, hclosed] at hread
  rw [hread, finish_of_size_le (size_extend_le _ _)]

end Reading

theorem finish_foldl_start (ts : List Token) :
    (ts.foldl Reading.push Reading.start).finish.toList =
      Tree.valueAll (Tree.inside none ts).items := by
  have hempty : (#[] : Array Twist).size ≤ maxTwists := Nat.zero_le _
  rw [Reading.start, Reading.finish_foldl_closed hempty]
  simp [extend, List.take_of_length_le (length_valueAll_le _)]

end CubeTrainer.Notation
