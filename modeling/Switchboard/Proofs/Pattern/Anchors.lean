import Switchboard.Pattern.Fragment

/-!
# The Anchors at the Ends of a Text

A pattern text loses the caret at its start and the dollar at its end, and a dollar that is escaped is no
anchor. Whether it is escaped is decided from the end of the text, by the number of backslashes right in
front of it. But a text is read from its start, and there each backslash is taken together with the
character behind it (`marked`).

Both say the same at every place of every text, be it a pattern or not. A run of backslashes starts at the
start of the text or behind another character, and such a character is never the first one of a pair. So a
pair starts where the run does, and the backslashes of the run are taken two by two.

## Main results

* `withoutDollar_concat`: whether the dollar is dropped, by the backslashes in front of it.
* `getElem?_marked`: the characters that are escaped are those behind an odd number of backslashes.
* `withoutAnchors_drops_unmarked`: what is dropped, in terms of the text read from its start.
-/

namespace Switchboard.Pattern

/-! ### Counting backslashes -/

theorem leadingBackslashes_cons (c : Char) (cs : List Char) :
    leadingBackslashes (c :: cs) = if c = '\\' then leadingBackslashes cs + 1 else 0 := by
  by_cases hc : c = '\\' <;> simp [leadingBackslashes, hc]

/-- The backslashes are counted in a text that stands back to front. Another character at the start of the
text, which is the end of what is counted in, adds nothing. -/
theorem leadingBackslashes_append_of_ne {d : Char} (hd : d ≠ '\\') (cs : List Char) :
    leadingBackslashes (cs ++ [d]) = leadingBackslashes cs := by
  induction cs with
  | nil =>
      rw [List.nil_append, leadingBackslashes_cons, if_neg hd]
      rfl
  | cons c cs ih => rw [List.cons_append, leadingBackslashes_cons, leadingBackslashes_cons, ih]

/-- Nor does a pair at the start of the text make an even number odd, or an odd one even. -/
theorem leadingBackslashes_append_pair (cs : List Char) (d : Char) :
    leadingBackslashes (cs ++ [d, '\\']) % 2 = leadingBackslashes cs % 2 := by
  induction cs with
  | nil => by_cases hd : d = '\\' <;> simp [leadingBackslashes, hd]
  | cons c cs ih =>
      rw [List.cons_append, leadingBackslashes_cons, leadingBackslashes_cons]
      split
      · omega
      · rfl

/-- **The last character is dropped** when it is a dollar with an even number of backslashes in front. -/
theorem withoutDollar_concat (front : List Char) (d : Char) :
    withoutDollar (front ++ [d]) =
      if d = '$' ∧ leadingBackslashes front.reverse % 2 = 0 then front else front ++ [d] := by
  by_cases hd : d = '$'
  · subst hd
    rcases Nat.mod_two_eq_zero_or_one (leadingBackslashes front.reverse) with heven | hodd
    · simp [withoutDollar, heven]
    · simp [withoutDollar, hodd]
  · simp [withoutDollar, hd]

/-- The second character of a pair stays. -/
theorem withoutDollar_escape {front : List Char} (h : leadingBackslashes front.reverse % 2 = 0)
    (d : Char) : withoutDollar (front ++ ['\\', d]) = front ++ ['\\', d] := by
  have hodd : leadingBackslashes (front ++ ['\\']).reverse % 2 = 1 := by
    rw [List.reverse_append, List.reverse_singleton, List.singleton_append, leadingBackslashes_cons,
      if_pos rfl]
    omega
  have hstays := withoutDollar_concat (front ++ ['\\']) d
  rwa [hodd, if_neg (by simp), List.append_assoc] at hstays

/-! ### Reading from the start -/

/-- The characters of a text, read from left to right: each backslash is taken together with the character
behind it, and the second one of such a pair is marked. A backslash at the end has nothing behind it. -/
def marked : List Char → List (Char × Bool)
  | '\\' :: c :: cs => ('\\', false) :: (c, true) :: marked cs
  | c :: cs => (c, false) :: marked cs
  | [] => []

/-- No character is left out. -/
theorem map_fst_marked (cs : List Char) : (marked cs).map Prod.fst = cs := by
  fun_induction marked cs <;> simp [*]

theorem length_marked (cs : List Char) : (marked cs).length = cs.length := by
  rw [← List.length_map Prod.fst, map_fst_marked]

/-- **The characters behind an odd number of backslashes are marked**, and no others. -/
theorem getElem?_marked (cs : List Char) (i : Nat) :
    (marked cs)[i]? = cs[i]?.map fun c => (c, leadingBackslashes (cs.take i).reverse % 2 == 1) := by
  fun_induction marked cs generalizing i with
  | case1 d cs ih =>
      match i with
      | 0 | 1 => rfl
      | i + 2 =>
          have hpair := leadingBackslashes_append_pair (cs.take i).reverse d
          simpa [hpair] using ih i
  | case2 c cs hpair ih =>
      cases i with
      | zero => rfl
      | succ i =>
          cases cs with
          | nil => rfl
          | cons d cs =>
              -- what makes no pair with the character behind it is no backslash
              have hrun := @leadingBackslashes_append_of_ne c (fun hc => hpair d cs hc rfl)
                ((d :: cs).take i).reverse
              simpa [hrun] using ih i
  | case3 => rfl

theorem getLast?_marked (front : List Char) (d : Char) :
    (marked (front ++ [d])).getLast? = some (d, leadingBackslashes front.reverse % 2 == 1) := by
  rw [List.getLast?_eq_getElem?, length_marked, getElem?_marked]
  simp

/-! ### What is dropped -/

theorem withoutCaret_eq_ite (source : List Char) :
    withoutCaret source = if source.head? = some '^' then source.tail else source := by
  fun_cases withoutCaret source with
  | case1 cs => rfl
  | case2 cs hcaret =>
      rw [if_neg]
      intro hhead
      obtain ⟨rest, hrest⟩ := List.head?_eq_some_iff.mp hhead
      exact hcaret rest hrest

/-- The last character is dropped when it is a dollar without a mark. -/
theorem withoutDollar_eq_ite (source : List Char) :
    withoutDollar source =
      if (marked source).getLast? = some ('$', false) then source.dropLast else source := by
  rcases List.eq_nil_or_concat source with rfl | ⟨front, d, rfl⟩
  · rfl
  · rw [List.concat_eq_append, withoutDollar_concat, getLast?_marked, List.dropLast_concat]
    simp

/-- **An anchor is told from an escaped dollar.** A text loses its first character if that is a caret.
It loses its last character if that is a dollar, and not the second character of a pair when the text
behind the caret is read from left to right. Nothing else is lost. And wherever a character stands in
whatever text, the backslashes counted backwards from there tell whether it is the second one of a pair. -/
theorem withoutAnchors_drops_unmarked (source : List Char) :
    let body := if source.head? = some '^' then source.tail else source
    withoutAnchors source =
        (if (marked body).getLast? = some ('$', false) then body.dropLast else body) ∧
      ∀ (text : List Char) (i : Nat), (marked text)[i]? =
        text[i]?.map fun c => (c, leadingBackslashes (text.take i).reverse % 2 == 1) := by
  intro body
  have hbody : withoutCaret source = body := withoutCaret_eq_ite source
  refine ⟨?_, getElem?_marked⟩
  rw [withoutAnchors, hbody, withoutDollar_eq_ite]

/-- Two backslashes are a pair, and the dollar behind them is an anchor. Behind three it is escaped. -/
example : withoutAnchors "^a\\\\$".toList = "a\\\\".toList ∧
    withoutAnchors "^a\\\\\\$".toList = "a\\\\\\$".toList := by decide

end Switchboard.Pattern
