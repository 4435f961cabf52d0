import Switchboard.Proofs.Pattern.Escapes

/-!
# Comments and the Rewriting

The rewriting that makes capturing groups plain does not know what a comment is, and rewrites its text
as well. Parentheses in a comment do no harm: the rewriting puts a mark behind one, and the comment ends
where it did. But it takes a bracket for the start of a class, and the opening of a group with a name for
one, and then goes on behind the end of the comment. A text without both is harmless.

A comment that ends with its line may also be the last of a pattern and not end at all. Then it has no
end in a text that the pattern is put into either. A comment that is harmless and ends is tame, and one
that holds neither parentheses nor backslashes, and so stays as it is, is quiet.

## Main results

* `exists_plain_of_name?`: a harmless text is rewritten by itself, and ends where it did.
* `isTame_of_isQuiet`: quiet comments are tame.
* `IsHarmless.isSome_withoutCapturesFrom`: the rewriting of a harmless text gives a text.
-/

namespace Switchboard.Pattern

/-! ### Openings -/

/-- The rewriting passes a parenthesis with a mark behind it, unless they open a group with a name. -/
theorem withoutCapturesFrom_mark {cs : List Char} (hname : ¬ "P<".toList <+: cs) :
    withoutCapturesFrom .outside ('(' :: '?' :: cs) =
      (withoutCapturesFrom .outside ('?' :: cs)).map ('(' :: ·) := by
  have hmark := @passes_char '?' (by decide) (by decide) (by decide) cs
  rw [List.singleton_append] at hmark
  rw [withoutCapturesFrom, hmark, Option.map_map]
  · rfl
  · rintro tail rfl
    exact hname ⟨tail, rfl⟩

/-- It makes any other parenthesis that opens a plain one. -/
theorem withoutCapturesFrom_opening {cs : List Char} (hmark : cs.head? ≠ some '?') :
    withoutCapturesFrom .outside ('(' :: cs) =
      (withoutCapturesFrom .outside cs).map ("(?:".toList ++ ·) := by
  rw [withoutCapturesFrom]
  · rfl
  all_goals
    rintro tail rfl
    exact hmark rfl

namespace Token

/-! ### Texts up to a closing character -/

/-- A name without backslashes is read up to its closing character. -/
theorem name?_append {closing : Char} {cs name rest : List Char}
    (h : name? closing cs = some (name, rest)) (hname : ∀ c ∈ name, c ≠ '\\') :
    cs = name ++ closing :: rest ∧ (∀ c ∈ name, c ≠ closing) := by
  fun_induction name? closing cs generalizing name with
  | case1 => cases h
  | case2 c cs ih =>
      obtain ⟨⟨inner, left⟩, -, heq⟩ := Option.map_eq_some_iff.mp h
      obtain ⟨rfl, -⟩ := Prod.mk.inj heq
      exact absurd rfl (hname _ List.mem_cons_self)
  | case3 c cs _ hc =>
      obtain ⟨rfl, rfl⟩ := Prod.mk.inj (Option.some.inj h)
      obtain rfl : c = closing := by simpa using hc
      exact ⟨rfl, nofun⟩
  | case4 c cs _ hc ih =>
      obtain ⟨⟨inner, left⟩, hinner, heq⟩ := Option.map_eq_some_iff.mp h
      obtain ⟨rfl, rfl⟩ := Prod.mk.inj heq
      obtain ⟨rfl, hne⟩ := ih hinner fun d hd => hname d (List.mem_cons_of_mem c hd)
      exact ⟨rfl, List.forall_mem_cons.mpr ⟨by simpa using hc, hne⟩⟩

/-- More characters in front of what a closing character ends. -/
theorem name?_append_of_forall {closing : Char} {front cs name rest : List Char}
    (hfront : ∀ d ∈ front, d ≠ '\\' ∧ d ≠ closing) (h : name? closing cs = some (name, rest)) :
    name? closing (front ++ cs) = some (front ++ name, rest) := by
  induction front with
  | nil => exact h
  | cons c front ih =>
      obtain ⟨⟨hslash, hne⟩, hmore⟩ := List.forall_mem_cons.mp hfront
      rw [List.cons_append, name?, if_neg (by simpa using hne), ih hmore]
      · rfl
      · exact fun _ _ heq => absurd heq hslash

/-- A name is read up to its closing character, when it has neither that nor a backslash. -/
theorem name?_of_forall {closing : Char} {name : List Char} (hescape : ∀ c ∈ name, c ≠ '\\')
    (hname : ∀ c ∈ name, c ≠ closing) (hclosing : closing ≠ '\\') (rest : List Char) :
    name? closing (name ++ closing :: rest) = some (name, rest) := by
  have hnil : name? closing (closing :: rest) = some ([], rest) := by
    rw [name?, if_pos (by simp)]
    exact fun _ _ heq => absurd heq hclosing
  simpa using name?_append_of_forall (fun c hc => ⟨hescape c hc, hname c hc⟩) hnil

/-- What is skipped in parentheses ends with the first parenthesis. -/
theorem skipComment?_eq (cs : List Char) : skipComment? cs = (name? ')' cs).map (·.2) := by
  fun_induction name? ')' cs with
  | case1 => rfl
  | case2 c cs ih => rw [skipComment?, ih, Option.map_map]; rfl
  | case3 c cs hescape hc =>
      rw [skipComment?, if_pos hc]
      · rfl
      · exact hescape
  | case4 c cs hescape hc ih =>
      rw [skipComment?, if_neg hc, ih, Option.map_map]
      · rfl
      · exact hescape

/-- A line is skipped up to its line feed, or to the end. -/
theorem skipLine_eq (cs : List Char) : skipLine cs = ((name? '\n' cs).map (·.2)).getD [] := by
  fun_induction name? '\n' cs with
  | case1 => rfl
  | case2 c cs ih => rw [skipLine, ih, Option.map_map]; rfl
  | case3 c cs hescape hc =>
      rw [skipLine, if_pos hc]
      · rfl
      · exact hescape
  | case4 c cs hescape hc ih =>
      rw [skipLine, if_neg hc, ih, Option.map_map]
      · rfl
      · exact hescape

/-! ### Harmless texts -/

/-- The rewriting sees no class in the text, and no group with a name. -/
def IsHarmless (text : List Char) : Prop := '[' ∉ text ∧ ¬ "(?P<".toList <:+: text

instance : DecidablePred IsHarmless := fun _ => inferInstanceAs (Decidable (_ ∧ _))

theorem IsHarmless.of_suffix {text more : List Char} (h : IsHarmless text) (hmore : more <:+ text) :
    IsHarmless more :=
  ⟨fun hmem => h.1 (hmore.subset hmem), fun hname => h.2 (hname.trans hmore.isInfix)⟩

/-- No name of a group starts in a harmless text and goes on behind it. -/
theorem IsHarmless.not_name {text : List Char} (h : IsHarmless ('(' :: '?' :: text)) {closing : Char}
    (hclosing : closing = ')' ∨ closing = '\n') (more : List Char) :
    ¬ "P<".toList <+: text ++ [closing] ++ more := by
  rintro ⟨tail, htail⟩
  change 'P' :: '<' :: tail = _ at htail
  match text with
  | [] =>
      obtain ⟨rfl, -⟩ := List.cons.inj htail
      rcases hclosing with hc | hc <;> cases hc
  | [c] =>
      obtain ⟨-, htail⟩ := List.cons.inj htail
      obtain ⟨rfl, -⟩ := List.cons.inj htail
      rcases hclosing with hc | hc <;> cases hc
  | c :: d :: text =>
      obtain ⟨rfl, rfl, -⟩ : 'P' = c ∧ '<' = d ∧ tail = text ++ closing :: more := by simpa using htail
      exact h.2 (List.IsPrefix.isInfix ⟨text, rfl⟩)

/-- One character of a harmless text, which may be a parenthesis, is rewritten by itself. -/
theorem IsHarmless.exists_passes_cons {closing c : Char} (hclosing : closing = ')' ∨ closing = '\n')
    {text plain : List Char} (h : IsHarmless (c :: text)) (hne : c ≠ closing) (hslash : c ≠ '\\')
    (hpasses : Passes .outside .outside (text ++ [closing]) (plain ++ [closing])) :
    ∃ front, (∀ d ∈ front, d ≠ '\\' ∧ d ≠ closing) ∧
      Passes .outside .outside (c :: (text ++ [closing])) (front ++ (plain ++ [closing])) := by
  by_cases hopen : c = '('
  · subst hopen
    by_cases hmark : (text ++ [closing]).head? = some '?'
    · refine ⟨['('], by simpa using hne, fun more => ?_⟩
      cases text with
      | nil => rcases hclosing with rfl | rfl <;> exact absurd hmark (by decide)
      | cons d text =>
          obtain rfl : d = '?' := Option.some.inj hmark
          rw [List.cons_append, List.cons_append, List.cons_append,
            withoutCapturesFrom_mark (h.not_name hclosing more), ← List.cons_append, ← List.cons_append,
            hpasses, Option.map_map]
          rfl
    · refine ⟨"(?:".toList, ?_, fun more => ?_⟩
      · rcases hclosing with rfl | rfl <;> simp
      · rw [List.cons_append, withoutCapturesFrom_opening, hpasses, Option.map_map]
        · rfl
        · rwa [List.head?_append_of_ne_nil _ (by simp)]
  · have hbracket : c ≠ '[' := fun heq => h.1 (heq ▸ List.mem_cons_self)
    exact ⟨[c], by simpa using ⟨hslash, hne⟩, (passes_char hslash hbracket hopen).append hpasses⟩

/-- **A harmless text is rewritten by itself**, together with the character that ends it, and ends where
it did. -/
theorem exists_plain_of_name? {closing : Char} (hclosing : closing = ')' ∨ closing = '\n')
    {cs body rest : List Char} (h : name? closing cs = some (body, rest)) (hbody : IsHarmless body) :
    cs = body ++ closing :: rest ∧ ∃ plain,
      Passes .outside .outside (body ++ [closing]) (plain ++ [closing]) ∧
      ∀ more, name? closing (plain ++ closing :: more) = some (plain, more) := by
  fun_induction name? closing cs generalizing body with
  | case1 => cases h
  | case2 c cs ih =>
      obtain ⟨⟨inner, left⟩, hinner, heq⟩ := Option.map_eq_some_iff.mp h
      obtain ⟨rfl, rfl⟩ := Prod.mk.inj heq
      obtain ⟨rfl, plain, hpasses, hagain⟩ := ih hinner (hbody.of_suffix (List.suffix_append ['\\', c] inner))
      refine ⟨rfl, '\\' :: c :: plain, (passes_escape c).append hpasses, fun more => ?_⟩
      rw [List.cons_append, List.cons_append, name?, hagain]
      rfl
  | case3 c cs _ hc =>
      obtain ⟨rfl, rfl⟩ := Prod.mk.inj (Option.some.inj h)
      obtain rfl : c = closing := by simpa using hc
      refine ⟨rfl, [], ?_, name?_of_forall (by simp) (by simp) ?_⟩
      · rcases hclosing with rfl | rfl <;> exact passes_char (by decide) (by decide) (by decide)
      · rcases hclosing with rfl | rfl <;> decide
  | case4 c cs hescape hc ih =>
      obtain ⟨⟨inner, left⟩, hinner, heq⟩ := Option.map_eq_some_iff.mp h
      obtain ⟨rfl, rfl⟩ := Prod.mk.inj heq
      obtain ⟨rfl, plain, hpasses, hagain⟩ := ih hinner (hbody.of_suffix (List.suffix_cons c inner))
      -- a backslash would hide the next character, and there is one: the closing character at least
      have hslash : c ≠ '\\' := by
        intro hslash
        cases inner with
        | nil => exact hescape _ _ hslash rfl
        | cons d inner => exact hescape _ _ hslash rfl
      obtain ⟨front, hfront, hwhole⟩ :=
        hbody.exists_passes_cons hclosing (by simpa using hc) hslash hpasses
      refine ⟨rfl, front ++ plain, by rwa [List.append_assoc], fun more => ?_⟩
      rw [List.append_assoc]
      exact name?_append_of_forall hfront (hagain more)

/-- The rewriting of a harmless text gives a text. -/
theorem IsHarmless.isSome_withoutCapturesFrom {text : List Char} (h : IsHarmless text) :
    (withoutCapturesFrom .outside text).isSome = true := by
  induction hlength : text.length using Nat.strong_induction_on generalizing text with
  | _ n ih =>
    subst hlength
    cases text with
    | nil => rfl
    | cons c text =>
        have hrest : (withoutCapturesFrom .outside text).isSome = true :=
          ih text.length (by simp) (h.of_suffix (List.suffix_cons c text)) rfl
        by_cases hslash : c = '\\'
        · subst hslash
          cases text with
          | nil => rfl
          | cons d text =>
              have hpasses := passes_escape d text
              rw [List.cons_append, List.singleton_append] at hpasses
              rw [hpasses, Option.isSome_map]
              exact ih text.length (by simp only [List.length_cons]; omega)
                (h.of_suffix (List.suffix_append ['\\', d] text)) rfl
        by_cases hopen : c = '('
        · subst hopen
          by_cases hmark : text.head? = some '?'
          · obtain ⟨text, rfl⟩ := List.head?_eq_some_iff.mp hmark
            rwa [withoutCapturesFrom_mark, Option.isSome_map]
            rintro ⟨tail, rfl⟩
            exact h.2 (List.IsPrefix.isInfix ⟨tail, rfl⟩)
          · rwa [withoutCapturesFrom_opening hmark, Option.isSome_map]
        · have hbracket : c ≠ '[' := fun heq => h.1 (heq ▸ List.mem_cons_self)
          have hpasses := passes_char hslash hbracket hopen text
          rw [List.singleton_append] at hpasses
          rwa [hpasses, Option.isSome_map]

/-! ### Tame comments -/

/-- What the comment at the front of a text says: up to its end, or all that is left. -/
def commentText : List Char → List Char
  | '#' :: cs => ((name? '\n' cs).map (·.1)).getD cs
  | '(' :: '?' :: '#' :: cs => ((name? ')' cs).map (·.1)).getD cs
  | _ => []

/-- The comment at the front of a text, if there is one, ends. -/
def commentEnds : List Char → Bool
  | '#' :: cs => (name? '\n' cs).isSome
  | '(' :: '?' :: '#' :: cs => (name? ')' cs).isSome
  | _ => true

/-- The comment at the front of a text, if there is one, ends and is harmless. -/
def IsTame (cs : List Char) : Prop := commentEnds cs = true ∧ IsHarmless (commentText cs)

instance : DecidablePred IsTame := fun _ => inferInstanceAs (Decidable (_ ∧ _))

theorem exists_body {closing : Char} {cs : List Char} (hends : (name? closing cs).isSome = true)
    (h : IsHarmless (((name? closing cs).map (·.1)).getD cs)) :
    ∃ body rest, name? closing cs = some (body, rest) ∧ IsHarmless body := by
  obtain ⟨⟨body, rest⟩, hbody⟩ := Option.isSome_iff_exists.mp hends
  rw [hbody] at h
  exact ⟨body, rest, hbody, h⟩

/-- A character that a comment may hold: it ends neither the comment nor hides what follows, and
the rewriting sees nothing in it. -/
def isQuietChar (closing c : Char) : Bool := c != closing && c != '\\' && c != '[' && c != '('

/-- The text does not start with a comment, or with one that ends and has only such characters. -/
def isQuiet : List Char → Bool
  | '#' :: cs => (cs.dropWhile (isQuietChar '\n')).head? == some '\n'
  | '(' :: '?' :: '#' :: cs => (cs.dropWhile (isQuietChar ')')).head? == some ')'
  | _ => true

theorem exists_quiet (closing : Char) {cs : List Char}
    (h : ((cs.dropWhile (isQuietChar closing)).head? == some closing) = true) :
    ∃ quiet rest, cs = quiet ++ closing :: rest ∧ ∀ c ∈ quiet, isQuietChar closing c = true := by
  obtain ⟨rest, hrest⟩ := List.head?_eq_some_iff.mp (by simpa using h)
  exact ⟨cs.takeWhile (isQuietChar closing), rest, by rw [← hrest, List.takeWhile_append_dropWhile],
    fun c hc => List.mem_takeWhile_imp hc⟩

/-- A quiet comment is tame. -/
theorem isTame_of_isQuiet {cs : List Char} (h : isQuiet cs = true) : IsTame cs := by
  have hbody : ∀ {closing : Char} {cs : List Char}, closing ≠ '\\' →
      ((cs.dropWhile (isQuietChar closing)).head? == some closing) = true →
      (name? closing cs).isSome = true ∧ IsHarmless (((name? closing cs).map (·.1)).getD cs) := by
    intro closing cs hclosing hcs
    obtain ⟨quiet, rest, rfl, hquiet⟩ := exists_quiet closing hcs
    simp only [isQuietChar, Bool.and_eq_true, bne_iff_ne] at hquiet
    rw [name?_of_forall (fun c hc => (hquiet c hc).1.1.2) (fun c hc => (hquiet c hc).1.1.1) hclosing]
    exact ⟨rfl, fun hmem => (hquiet _ hmem).1.2 rfl, fun hname =>
      (hquiet '(' (hname.subset List.mem_cons_self)).2 rfl⟩
  unfold isQuiet at h
  split at h
  · exact hbody (by decide) h
  · exact hbody (by decide) h
  · rename_i hline hremark
    unfold IsTame commentEnds commentText
    split
    · exact absurd rfl (hline _)
    · exact absurd rfl (hremark _)
    · exact ⟨rfl, by decide⟩

end Token

end Switchboard.Pattern
