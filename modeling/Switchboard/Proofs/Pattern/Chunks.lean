import Switchboard.Proofs.Pattern.Comments

/-!
# The Texts of Tokens

A `Chunk` is the text of one token together with its plain text, which is what the rewriting that
makes capturing groups plain turns it into. The plain text is read as the plain token, whatever
stands behind it, as long as the followers are the same.

The two readings of a pattern text, by tokens and by the rewriting, agree as long as comments are
tame: the rewriting does not know what a comment is, and looks for groups and classes in it.

## Main results

* `Token.readOpening_append`: the texts that open a group.
* `Token.exists_chunk_of_embeds`, `Token.exists_chunk_of_look`: the chunks of all tokens but references.
-/

namespace Switchboard.Pattern

namespace Token

/-! ### The openings of groups -/

/-- There is no backslash in an identifier. -/
theorem ne_backslash_of_isIdentifier {name : List Char}
    (h : isIdentifier (String.ofList name) = true) : ∀ c ∈ name, c ≠ '\\' := by
  have hstart : isIdentifierStart '\\' = false := by decide +kernel
  have hcontinue : isIdentifierContinue '\\' = false := by decide +kernel
  rw [isIdentifier, String.toList_ofList] at h
  cases name with
  | nil => cases h
  | cons c name =>
      simp only [Bool.and_eq_true, List.all_eq_true] at h
      refine List.forall_mem_cons.mpr ⟨?_, fun d hd => ?_⟩
      · rintro rfl
        rw [hstart] at h
        cases h.1
      · rintro rfl
        have hd := h.2 _ hd
        rw [hcontinue] at hd
        cases hd

/-- The name of a group, up to what closes it. -/
theorem readName_append {closing : Char} {make : String → Token} {cs rest : List Char} {token : Token}
    (h : readName closing make cs = (token, rest)) (hclosing : closing ≠ '\\')
    (hfault : ∀ cause offset, token ≠ .fault cause offset) :
    ∃ name, token = make (String.ofList name) ∧ isIdentifier (String.ofList name) = true ∧
      cs = name ++ closing :: rest ∧ (∀ c ∈ name, c ≠ closing) ∧
      ∀ more, readName closing make (name ++ closing :: more) = (token, more) := by
  unfold readName at h
  split at h
  · obtain ⟨rfl, -⟩ := Prod.mk.inj h
    exact absurd rfl (hfault _ _)
  · obtain ⟨rfl, -⟩ := Prod.mk.inj h
    exact absurd rfl (hfault _ _)
  · rename_i name left hne hname
    simp only at h
    split at h
    · rename_i hidentifier
      obtain ⟨rfl, rfl⟩ := Prod.mk.inj h
      have hescape := ne_backslash_of_isIdentifier hidentifier
      obtain ⟨rfl, hmember⟩ := name?_append hname hescape
      refine ⟨name, rfl, hidentifier, rfl, hmember, fun more => ?_⟩
      rw [readName, name?_of_forall hescape hmember hclosing]
      cases name with
      | nil => exact (hne rfl).elim
      | cons c name => simp only [hidentifier, if_true]
    · obtain ⟨rfl, -⟩ := Prod.mk.inj h
      exact absurd rfl (hfault _ _)

/-- The letters of modes to set. -/
theorem modesOn_append {change change' : ModeChange} {offset offset' : Nat} {cs rest : List Char}
    {closing : Char} (h : modesOn change offset cs = .ok (change', closing, offset', rest)) :
    ∃ letters, cs = letters ++ closing :: rest ∧ (∀ c ∈ letters, c = 'u' ∨ (Modes.ofLetter? c).isSome) ∧
      (closing = ')' ∨ closing = ':' ∨ closing = '-') ∧
      ∀ more, modesOn change offset (letters ++ closing :: more) =
        .ok (change', closing, offset', more) := by
  induction cs generalizing change offset with
  | nil => cases h
  | cons c cs ih =>
      rw [modesOn] at h
      split at h
      · rename_i hclosing
        simp only [Except.ok.injEq, Prod.mk.injEq] at h
        obtain ⟨rfl, rfl, rfl, rfl⟩ := h
        refine ⟨[], rfl, nofun, ?_, fun more => ?_⟩
        · simpa [or_assoc] using hclosing
        · rw [List.nil_append, modesOn, if_pos hclosing]
      · rename_i hclosing
        split at h
        · cases h
        · rename_i hlocale
          split at h
          · cases h
          · rename_i wider hwider
            split at h
            · cases h
            · rename_i hexclude
              obtain ⟨letters, rfl, hletters, hends, happend⟩ := ih h
              refine ⟨c :: letters, rfl, List.forall_mem_cons.mpr ⟨?_, hletters⟩, hends,
                fun more => ?_⟩
              · unfold addMode at hwider
                split at hwider
                · rename_i hu
                  exact .inl (by simpa using hu)
                · exact .inr (by
                    obtain ⟨m, hm, -⟩ := Option.map_eq_some_iff.mp hwider
                    rw [hm]
                    rfl)
              · rw [List.cons_append, modesOn, if_neg hclosing, if_neg hlocale, hwider]
                simp only [if_neg hexclude, happend more]

/-- The letters of modes to drop. -/
theorem modesOff_append {first : Bool} {change change' : ModeChange} {offset offset' : Nat}
    {cs rest : List Char} (h : modesOff first change offset cs = .ok (change', offset', rest)) :
    ∃ letters, cs = letters ++ ':' :: rest ∧ (∀ c ∈ letters, (Modes.ofLetter? c).isSome) ∧
      ∀ more, modesOff first change offset (letters ++ ':' :: more) = .ok (change', offset', more) := by
  induction cs generalizing first change offset with
  | nil => cases h
  | cons c cs ih =>
      rw [modesOff] at h
      split at h
      · rename_i hclosing
        simp only [Except.ok.injEq, Prod.mk.injEq] at h
        obtain ⟨rfl, rfl, rfl⟩ := h
        obtain rfl : c = ':' := by
          simp only [Bool.and_eq_true, beq_iff_eq] at hclosing
          exact hclosing.1
        exact ⟨[], rfl, nofun, fun more => by rw [List.nil_append, modesOff, if_pos hclosing]⟩
      · rename_i hclosing
        split at h
        · cases h
        · rename_i hfixed
          split at h
          · cases h
          · rename_i m hm
            obtain ⟨letters, rfl, hletters, happend⟩ := ih h
            refine ⟨c :: letters, rfl, List.forall_mem_cons.mpr ⟨by rw [hm]; rfl, hletters⟩,
              fun more => ?_⟩
            rw [List.cons_append, modesOff, if_neg hclosing, if_neg hfixed, hm]
            exact happend more

/-- A character of the letters of modes, or of what ends them. -/
def isModeMark (c : Char) : Bool :=
  c == 'u' || (Modes.ofLetter? c).isSome || c == ')' || c == ':' || c == '-'

/-- The text of modes, behind the question mark. -/
theorem readModes_append {cs rest : List Char} {token : Token} (h : readModes cs = (token, rest))
    (hembeds : token.embeds = true) :
    token.plain = token ∧ ∃ text, cs = text ++ rest ∧ (∀ c ∈ text, isModeMark c = true) ∧
      (∃ front d, text = front ++ [d] ∧ (d = ')' ∨ d = ':')) ∧
      ∀ more, readModes (text ++ more) = (token, more) := by
  unfold readModes at h
  split at h
  · obtain ⟨rfl, -⟩ := Prod.mk.inj h
    cases hembeds
  · rename_i change closing offset left hon
    obtain ⟨letters, rfl, hletters, hends, happend⟩ := modesOn_append hon
    have hmarks : ∀ c ∈ letters, isModeMark c = true := by
      intro c hc
      rcases hletters c hc with rfl | hletter
      · rfl
      · simp [isModeMark, hletter]
    split at h
    · rename_i hclosing
      obtain ⟨rfl, rfl⟩ := Prod.mk.inj h
      obtain rfl : closing = ')' := by simpa using hclosing
      refine ⟨rfl, letters ++ [')'], by simp, ?_, ⟨letters, ')', rfl, .inl rfl⟩, fun more => ?_⟩
      · simpa [or_imp, forall_and] using ⟨hmarks, rfl⟩
      · rw [List.append_assoc, List.singleton_append, readModes, happend]
        rfl
    · rename_i hround
      split at h
      · rename_i hclosing
        obtain ⟨rfl, rfl⟩ := Prod.mk.inj h
        obtain rfl : closing = ':' := by simpa using hclosing
        refine ⟨rfl, letters ++ [':'], by simp, ?_, ⟨letters, ':', rfl, .inr rfl⟩, fun more => ?_⟩
        · simpa [or_imp, forall_and] using ⟨hmarks, rfl⟩
        · rw [List.append_assoc, List.singleton_append, readModes, happend]
          rfl
      · rename_i hcolon
        obtain rfl : closing = '-' := by
          rcases hends with rfl | rfl | rfl
          · exact absurd rfl hround
          · exact absurd rfl hcolon
          · rfl
        split at h
        · obtain ⟨rfl, -⟩ := Prod.mk.inj h
          cases hembeds
        · rename_i change' offset' left' hoff
          obtain ⟨dropped, rfl, hdropped, hagain⟩ := modesOff_append hoff
          split at h
          · obtain ⟨rfl, -⟩ := Prod.mk.inj h
            cases hembeds
          · rename_i hmeets
            obtain ⟨rfl, rfl⟩ := Prod.mk.inj h
            refine ⟨rfl, letters ++ '-' :: (dropped ++ [':']), by simp, ?_,
              ⟨letters ++ '-' :: dropped, ':', by simp, .inr rfl⟩, fun more => ?_⟩
            · intro c hc
              simp only [List.mem_append, List.mem_cons, List.not_mem_nil, or_false] at hc
              rcases hc with hc | rfl | hc | rfl
              · exact hmarks c hc
              · rfl
              · simp [isModeMark, hdropped c hc]
              · rfl
            · simp only [List.append_assoc, List.cons_append, List.nil_append]
              rw [readModes, happend]
              simp only [hagain, if_neg hmeets]
              rfl

theorem passes_modeMarks {text : List Char} (h : ∀ c ∈ text, isModeMark c = true) :
    Passes .outside .outside text text := by
  refine passes_of_forall fun c hc => passes_char ?_ ?_ ?_ <;>
    (rintro rfl; exact absurd (h _ hc) (by decide))

/-- What a name makes is the token for it, or a fault. -/
theorem readName_token {closing : Char} {make : String → Token} {cs : List Char} :
    (∃ name, (readName closing make cs).1 = make name) ∨
      ∃ cause offset, (readName closing make cs).1 = .fault cause offset := by
  unfold readName
  split
  · exact .inr ⟨_, _, rfl⟩
  · exact .inr ⟨_, _, rfl⟩
  · simp only
    split
    · exact .inl ⟨_, rfl⟩
    · exact .inr ⟨_, _, rfl⟩

theorem eq_of_ofLetter? {c : Char} (h : (Modes.ofLetter? c).isSome = true) :
    c = 'i' ∨ c = 'm' ∨ c = 's' ∨ c = 'x' ∨ c = 'a' := by
  unfold Modes.ofLetter? at h
  split at h
  case h_6 => cases h
  all_goals simp

/-- Behind the question mark, a letter of a mode or a minus starts modes. -/
theorem readOpening_of_mode {c : Char}
    (h : (c == '-' || c == 'u' || c == 'L' || (Modes.ofLetter? c).isSome) = true)
    (cs : List Char) : readOpening ('?' :: c :: cs) = readModes (c :: cs) := by
  simp only [Bool.or_eq_true, beq_iff_eq, or_assoc] at h
  rcases h with rfl | rfl | rfl | hletter
  · rfl
  · rfl
  · rfl
  · rcases eq_of_ofLetter? hletter with rfl | rfl | rfl | rfl | rfl <;> rfl

/-- **What opens a group**: the text behind the opening parenthesis. -/
theorem readOpening_append {cs rest : List Char} {token : Token}
    (h : readOpening cs = (token, rest)) (hembeds : token.embeds = true)
    (hcomment : token ≠ .comment) :
    (token = .openCapture none ∧ rest = cs ∧ cs.head? ≠ some '?') ∨
    (∃ name, token = .openCapture (some (String.ofList name)) ∧
      cs = '?' :: 'P' :: '<' :: (name ++ '>' :: rest) ∧ (∀ c ∈ name, c ≠ '>') ∧
      ∀ more, readOpening ('?' :: 'P' :: '<' :: (name ++ '>' :: more)) = (token, more)) ∨
    token.plain = token ∧ ∃ text, cs = '?' :: text ++ rest ∧ (∀ c ∈ text, isModeMark c = true) ∧
      (∃ front d, text = front ++ [d] ∧ (d = ')' ∨ d = ':')) ∧
      ∀ more, readOpening ('?' :: text ++ more) = (token, more) := by
  unfold readOpening at h
  split at h
  · refine .inr ?_
    split at h
    case h_2 =>
      obtain ⟨rfl, rfl⟩ := Prod.mk.inj h
      exact .inr ⟨rfl, [':'], rfl, by simp [isModeMark], ⟨[], ':', rfl, .inr rfl⟩, fun _ => rfl⟩
    case h_9 =>
      obtain ⟨name, htoken, -, rfl, hname, happend⟩ := readName_append h (by decide) (by
        rintro cause offset rfl
        cases hembeds)
      exact .inl ⟨name, htoken, rfl, hname, happend⟩
    case h_10 cs =>
      have htoken : (readName ')' .namedRef cs).1 = token := congrArg Prod.fst h
      rcases readName_token with ⟨name, hname⟩ | ⟨cause, offset, hfault⟩
      · rw [← htoken, hname] at hembeds
        cases hembeds
      · rw [← htoken, hfault] at hembeds
        cases hembeds
    case h_13 =>
      split at h
      · obtain ⟨rfl, -⟩ := Prod.mk.inj h
        exact absurd rfl hcomment
      · obtain ⟨rfl, -⟩ := Prod.mk.inj h
        cases hembeds
    case h_14 =>
      split at h
      · rename_i hmode
        obtain ⟨hplain, text, htext, hmarks, hends, happend⟩ := readModes_append h hembeds
        refine .inr ⟨hplain, text, congrArg ('?' :: ·) htext, hmarks, hends, fun more => ?_⟩
        rw [List.cons_append]
        cases text with
        | nil =>
            obtain ⟨front, d, hnil, -⟩ := hends
            simp at hnil
        | cons d text =>
            obtain ⟨rfl, -⟩ := List.cons.inj htext
            exact (readOpening_of_mode hmode _).trans (happend more)
      · obtain ⟨rfl, -⟩ := Prod.mk.inj h
        cases hembeds
    -- what is left are faults and what looks around
    all_goals
      obtain ⟨rfl, -⟩ := Prod.mk.inj h
      cases hembeds
  · rename_i cs hmark
    obtain ⟨rfl, rfl⟩ := Prod.mk.inj h
    refine .inl ⟨rfl, rfl, fun hhead => ?_⟩
    obtain ⟨more, hmore⟩ := List.head?_eq_some_iff.mp hhead
    exact hmark more hmore

/-! ### Repetitions -/

/-- A mark that makes a repetition lazy belongs to it. -/
theorem lazyMark_append {cs rest : List Char} {lazy : Bool} (h : lazyMark cs = (lazy, rest)) :
    ∃ mark, cs = mark ++ rest ∧ (mark = [] ∨ mark = ['?']) ∧
      ∀ more, followers more = followers rest → lazyMark (mark ++ more) = (lazy, more) := by
  unfold lazyMark at h
  split at h
  · obtain ⟨rfl, rfl⟩ := Prod.mk.inj h
    exact ⟨['?'], rfl, .inr rfl, fun more _ => rfl⟩
  · rename_i hmark
    obtain ⟨rfl, rfl⟩ := Prod.mk.inj h
    refine ⟨[], rfl, .inl rfl, fun more hmore => ?_⟩
    have hhead := head?_ne_of_followers_eq hmore fun hhead => by
      obtain ⟨left, hleft⟩ := List.head?_eq_some_iff.mp hhead
      exact hmark left hleft
    rw [List.nil_append, lazyMark]
    rintro left rfl
    exact hhead rfl

/-- Characters of a kind are taken up to the first one of another kind. -/
theorem span_of_forall {p : Char → Bool} {run : List Char} (h : ∀ d ∈ run, p d = true) {c : Char}
    (hc : p c = false) (cs : List Char) :
    (run ++ c :: cs).takeWhile p = run ∧ (run ++ c :: cs).dropWhile p = c :: cs := by
  have hc' : ¬ p c = true := by simp [hc]
  constructor
  · rw [List.takeWhile_append_of_pos h, List.takeWhile_cons_of_neg hc', List.append_nil]
  · rw [List.dropWhile_append_of_pos h, List.dropWhile_cons_of_neg hc']

/-- The text of the counts in braces. -/
theorem counts?_append {cs rest : List Char} {counts : Nat × Option Nat}
    (h : counts? cs = some (counts, rest)) :
    ∃ text, cs = text ++ rest ∧ (∀ c ∈ text, isFollower c = true) ∧
      (∃ front, text = front ++ ['}']) ∧ ∀ more, counts? (text ++ more) = some (counts, more) := by
  have hdigits : ∀ cs : List Char, ∀ d ∈ cs.takeWhile Char.isDigit, d.isDigit = true :=
    fun cs d hd => List.mem_takeWhile_imp hd
  have hfollow : ∀ cs : List Char, ∀ d ∈ cs.takeWhile Char.isDigit, isFollower d = true :=
    fun cs d hd => by simp [isFollower, hdigits cs d hd]
  unfold counts? at h
  simp only at h
  split at h
  · rename_i left hdrop
    obtain ⟨n, hn, heq⟩ := Option.map_eq_some_iff.mp h
    obtain ⟨rfl, rfl⟩ := Prod.mk.inj heq
    refine ⟨cs.takeWhile Char.isDigit ++ ['}'], ?_, ?_, ⟨_, rfl⟩, fun more => ?_⟩
    · rw [List.append_assoc, List.singleton_append, ← hdrop, List.takeWhile_append_dropWhile]
    · intro c hc
      rcases List.mem_append.mp hc with hc | hc
      · exact hfollow cs c hc
      · obtain rfl := List.mem_singleton.mp hc
        rfl
    · obtain ⟨htake, hleft⟩ := span_of_forall (hdigits cs) (c := '}') rfl more
      rw [List.append_assoc, List.singleton_append]
      unfold counts?
      simp only [htake, hleft, hn]
      rfl
  · rename_i tail hdrop
    split at h
    · rename_i left htail
      obtain ⟨rfl, rfl⟩ := Prod.mk.inj (Option.some.inj h)
      refine ⟨cs.takeWhile Char.isDigit ++ ',' :: (tail.takeWhile Char.isDigit ++ ['}']), ?_, ?_,
        ⟨cs.takeWhile Char.isDigit ++ ',' :: tail.takeWhile Char.isDigit, by simp⟩,
        fun more => ?_⟩
      · rw [List.append_assoc, List.cons_append, List.append_assoc, List.singleton_append, ← htail,
          List.takeWhile_append_dropWhile, ← hdrop, List.takeWhile_append_dropWhile]
      · intro c hc
        simp only [List.mem_append, List.mem_cons, List.not_mem_nil, or_false] at hc
        rcases hc with hc | rfl | hc | rfl
        · exact hfollow cs c hc
        · rfl
        · exact hfollow tail c hc
        · rfl
      · obtain ⟨htake, hleft⟩ := span_of_forall (hdigits cs) (c := ',') rfl
          (tail.takeWhile Char.isDigit ++ '}' :: more)
        obtain ⟨htake', hleft'⟩ := span_of_forall (hdigits tail) (c := '}') rfl more
        simp only [List.append_assoc, List.cons_append, List.nil_append]
        unfold counts?
        simp only [htake, hleft, htake', hleft']
    · cases h
  · cases h

/-- Where a brace is no count, it stays none. -/
theorem counts?_eq_none {cs more : List Char} (h : counts? cs = none)
    (hmore : followers more = followers cs) : counts? more = none := by
  by_contra hcounts
  obtain ⟨⟨counts, rest⟩, hsome⟩ := Option.ne_none_iff_exists'.mp hcounts
  obtain ⟨text, rfl, hfollow, -, hagain⟩ := counts?_append hsome
  have hcs : cs = text ++ (followers rest ++ cs.dropWhile isFollower) := by
    have hsplit : followers cs = text ++ followers rest := by
      rw [← hmore, followers, List.takeWhile_append_of_pos hfollow]
      rfl
    rw [← List.append_assoc, ← hsplit]
    exact List.takeWhile_append_dropWhile.symm
  rw [hcs, hagain] at h
  cases h

/-! ### Which tokens a reader makes -/

/-- A token that an escape or a class may be. -/
def isUnit : Token → Bool
  | .char _ | .set _ _ | .textStart | .textEnd | .wordEdge _ | .numberedRef _ | .fault _ _ => true
  | _ => false

theorem plain_of_isUnit {token : Token} (h : token.isUnit = true) : token.plain = token := by
  cases token <;> first | rfl | cases h

theorem isUnit_ofChar (c : Except Cause Char) : (ofChar c).isUnit = true := by
  cases c <;> rfl

theorem isUnit_readClass (cs : List Char) : (readClass cs).1.isUnit = true := by
  rw [readClass.eq_def]
  split
  split <;> rfl

theorem isUnit_escape (c : Char) (cs : List Char) : (escape c cs).1.isUnit = true := by
  have hdigit : ∀ c cs, (digitEscape c cs).1.isUnit = true := by
    intro c cs
    unfold digitEscape
    split
    · split
      · exact isUnit_ofChar _
      · split <;> rfl
    · split <;> rfl
    · rfl
  unfold escape
  split
  case h_5 => exact isUnit_ofChar _
  case h_6 =>
    split
    · rfl
    · rfl
    · exact isUnit_ofChar _
    · split
      · exact hdigit _ _
      · exact isUnit_ofChar _
  all_goals rfl

/-- A token that stands behind an opening parenthesis, other than a comment or modes. -/
def isGroup : Token → Bool
  | .openCapture _ | .openPlain _ | .openLook _ _ | .namedRef _ | .fault _ _ => true
  | _ => false

/-- Letters of modes set them for the whole pattern, or open a group. -/
theorem isGroup_readModes (cs : List Char) :
    (∃ change, (readModes cs).1 = .modes change) ∨ (readModes cs).1.isGroup = true := by
  unfold readModes
  split
  · exact .inr rfl
  · split
    · exact .inl ⟨_, rfl⟩
    · split
      · exact .inr rfl
      · split
        · exact .inr rfl
        · split <;> exact .inr rfl

/-- Behind an opening parenthesis there is a comment, modes, or the rest of what opens a group. -/
theorem readOpening_cases (cs : List Char) :
    (∃ more, cs = '?' :: '#' :: more) ∨
    (∃ more, cs = '?' :: more ∧ readOpening cs = readModes more) ∨
      (readOpening cs).1.isGroup = true := by
  have hname : ∀ {closing make} {cs : List Char}, (∀ name, (make name : Token).isGroup = true) →
      (readName closing make cs).1.isGroup = true := by
    intro closing make cs hmake
    rcases @readName_token closing make cs with ⟨name, hname⟩ | ⟨_, _, hfault⟩
    · rw [hname, hmake]
    · rw [hfault]
      rfl
  unfold readOpening
  split
  · split
    case h_9 => exact .inr (.inr (hname fun _ => rfl))
    case h_10 => exact .inr (.inr (hname fun _ => rfl))
    case h_13 => exact .inl ⟨_, rfl⟩
    case h_14 =>
      split
      · exact .inr (.inl ⟨_, rfl, rfl⟩)
      · exact .inr (.inr rfl)
    all_goals exact .inr (.inr rfl)
  · exact .inr (.inr rfl)

/-- A comment in parentheses has a mark of its own. -/
theorem eq_of_readOpening_comment {cs rest : List Char} (h : readOpening cs = (.comment, rest)) :
    ∃ more, cs = '?' :: '#' :: more := by
  rcases readOpening_cases cs with hcomment | ⟨more, -, hmodes⟩ | hgroup
  · exact hcomment
  · have hkind := isGroup_readModes more
    rw [← hmodes, h] at hkind
    simp [isGroup] at hkind
  · rw [h] at hgroup
    cases hgroup

/-- A token that is no caret and does not start with an opening parenthesis. -/
def isSingle : Token → Bool
  | .close | .bar | .dollar | .dot | .quantifier _ _ _ | .skipped => true
  | token => token.isUnit

theorem isSingle_of_isUnit {token : Token} (h : token.isUnit = true) : token.isSingle = true := by
  cases token <;> first | rfl | cases h

theorem isSingle_readBrace (cs : List Char) : (readBrace cs).1.isSingle = true := by
  unfold readBrace
  split
  · rfl
  · split <;> rfl

/-- By its first character a token is a caret, or stands behind an opening parenthesis, or is
neither. -/
theorem read_cases (verbose : Bool) (c : Char) (cs : List Char) :
    (c = '(' ∧ read verbose c cs = readOpening cs) ∨
    (c = '^' ∧ read verbose c cs = (.caret, cs)) ∨
      (read verbose c cs).1.isSingle = true := by
  unfold read
  split
  · exact .inr (.inr rfl)
  · split
    · exact .inr (.inr rfl)
    · split
      case h_1 => exact .inl ⟨rfl, rfl⟩
      case h_4 => exact .inr (.inl ⟨rfl, rfl⟩)
      case h_10 => exact .inr (.inr (isSingle_readBrace cs))
      case h_11 => exact .inr (.inr (isSingle_of_isUnit (isUnit_readClass cs)))
      case h_12 =>
        split
        · exact .inr (.inr rfl)
        · exact .inr (.inr (isSingle_of_isUnit (isUnit_escape _ _)))
      all_goals exact .inr (.inr rfl)

theorem ne_skipped_of_isGroup {token : Token} (h : token.isGroup = true) : token ≠ .skipped := by
  rintro rfl
  cases h

theorem ne_skipped_of_isUnit {token : Token} (h : token.isUnit = true) : token ≠ .skipped := by
  rintro rfl
  cases h

/-- What opens a group is not skipped. -/
theorem readOpening_ne_skipped (cs : List Char) : (readOpening cs).1 ≠ .skipped := by
  rcases readOpening_cases cs with ⟨more, rfl⟩ | ⟨more, -, hmodes⟩ | hgroup
  · rw [readOpening]
    split <;> simp
  · rw [hmodes]
    rcases isGroup_readModes more with ⟨change, hchange⟩ | hgroup
    · simp [hchange]
    · exact ne_skipped_of_isGroup hgroup
  · exact ne_skipped_of_isGroup hgroup

theorem readQuantifier_ne_skipped (min : Nat) (max : Option Nat) (cs : List Char) :
    (readQuantifier min max cs).1 ≠ .skipped := by
  simp [readQuantifier]

/-- Nothing is skipped in text that is not verbose. -/
theorem read_ne_skipped (c : Char) (cs : List Char) : (read false c cs).1 ≠ .skipped := by
  simp only [read, Bool.false_and, Bool.false_eq_true, if_false]
  split
  case h_1 => exact readOpening_ne_skipped cs
  case h_7 | h_8 | h_9 => exact readQuantifier_ne_skipped _ _ cs
  case h_10 =>
    unfold readBrace
    split
    · simp
    · split
      · simp
      · exact readQuantifier_ne_skipped _ _ _
  case h_11 => exact ne_skipped_of_isUnit (isUnit_readClass cs)
  case h_12 =>
    split
    · simp
    · exact ne_skipped_of_isUnit (isUnit_escape _ _)
  all_goals simp

/-- A caret outside of classes is the character itself. -/
theorem eq_of_read_caret {verbose : Bool} {c : Char} {cs rest : List Char}
    (h : read verbose c cs = (.caret, rest)) : c = '^' ∧ cs = rest := by
  rcases read_cases verbose c cs with ⟨-, hopening⟩ | ⟨hc, hcaret⟩ | hsingle
  · rw [h] at hopening
    rcases readOpening_cases cs with ⟨more, rfl⟩ | ⟨more, -, hmodes⟩ | hgroup
    · rw [readOpening.eq_def] at hopening
      simp only at hopening
      split at hopening <;> cases hopening
    · have hkind := isGroup_readModes more
      rw [← hmodes, ← hopening] at hkind
      simp [isGroup] at hkind
    · rw [← hopening] at hgroup
      cases hgroup
  · exact ⟨hc, congrArg Prod.snd (hcaret.symm.trans h)⟩
  · rw [h] at hsingle
    cases hsingle

/-- Modes for the whole pattern stand in parentheses. -/
theorem eq_of_read_modes {verbose : Bool} {c : Char} {cs rest : List Char} {change : ModeChange}
    (h : read verbose c cs = (.modes change, rest)) :
    ∃ more, c = '(' ∧ cs = '?' :: more ∧ readModes more = (.modes change, rest) := by
  rcases read_cases verbose c cs with ⟨hc, hopening⟩ | ⟨-, hcaret⟩ | hsingle
  · rw [h] at hopening
    rcases readOpening_cases cs with ⟨more, rfl⟩ | ⟨more, hcs, hmodes⟩ | hgroup
    · rw [readOpening.eq_def] at hopening
      simp only at hopening
      split at hopening <;> cases hopening
    · exact ⟨more, hc, hcs, hmodes.symm.trans hopening.symm⟩
    · rw [← hopening] at hgroup
      cases hgroup
  · cases hcaret.symm.trans h
  · rw [h] at hsingle
    cases hsingle

/-! ### Chunks -/

/-- The token at the front of a text, and what is left. -/
def first? (verbose : Bool) : List Char → Option (Token × List Char)
  | [] => none
  | c :: cs => some (read verbose c cs)

/-- How the text of a token ends. It is a dollar or an escape, or its last character is neither a
dollar nor a backslash. -/
inductive Ends : List Char → Prop where
  | dollar : Ends ['$']
  | escape (d : Char) : Ends ['\\', d]
  | char (front : List Char) {d : Char} (hdollar : d ≠ '$') (hescape : d ≠ '\\') : Ends (front ++ [d])

theorem Ends.ne_nil {text : List Char} (h : Ends text) : text ≠ [] := by
  cases h <;> simp

/-- The text of a token, and its plain text: what the rewriting makes of it. The plain text is read
as the plain token. All of this depends on the text behind the token by its followers only, which
are those of `next`. -/
structure Chunk (verbose : Bool) (text plain : List Char) (token : Token) (next : List Char) :
    Prop where
  ne_nil : text ≠ []
  reads : ∀ more, followers more = followers next →
    first? verbose (plain ++ more) = some (token.plain, more)
  passes : ∀ more, followers more = followers next →
    withoutCapturesFrom .outside (text ++ more) =
      (withoutCapturesFrom .outside more).map (plain ++ ·)
  followers_eq : ∀ more more', followers more = followers more' →
    followers (plain ++ more) = followers (text ++ more')
  ends : Ends plain

theorem followers_append_congr (text : List Char) {more more' : List Char}
    (h : followers more = followers more') : followers (text ++ more) = followers (text ++ more') := by
  induction text with
  | nil => exact h
  | cons c text ih =>
      by_cases hc : isFollower c = true
      · rw [List.cons_append, List.cons_append, followers, List.takeWhile_cons_of_pos hc]
        rw [followers, List.takeWhile_cons_of_pos hc]
        exact congrArg (c :: ·) ih
      · rw [List.cons_append, List.cons_append, followers, List.takeWhile_cons_of_neg hc]
        rw [followers, List.takeWhile_cons_of_neg hc]

/-- The chunk of a token that the rewriting leaves as it is. -/
theorem Chunk.of_passes {verbose : Bool} {text next : List Char} {token : Token}
    (hplain : token.plain = token) (hpasses : Passes .outside .outside text text)
    (hends : Ends text)
    (hreads : ∀ more, followers more = followers next →
      first? verbose (text ++ more) = some (token, more)) : Chunk verbose text text token next where
  ne_nil := hends.ne_nil
  reads more hmore := by rw [hplain]; exact hreads more hmore
  passes more _ := hpasses more
  followers_eq _ _ h := followers_append_congr text h
  ends := hends

/-- The chunk of one character that has no meaning for the rewriting. -/
theorem Chunk.of_char {verbose : Bool} {c : Char} {next : List Char} {token : Token}
    (hplain : token.plain = token) (hescape : c ≠ '\\') (hclass : c ≠ '[') (hgroup : c ≠ '(')
    (hreads : ∀ more, followers more = followers next → read verbose c more = (token, more)) :
    Chunk verbose [c] [c] token next := by
  refine .of_passes hplain (passes_char hescape hclass hgroup) ?_ fun more hmore =>
    congrArg some (hreads more hmore)
  by_cases hc : c = '$'
  · exact hc ▸ .dollar
  · exact .char [] hc hescape

theorem first?_opening (verbose : Bool) (cs : List Char) :
    first? verbose ('(' :: cs) = some (readOpening cs) := by
  cases verbose <;> rfl

theorem withoutCapturesFrom_name {name : List Char} (h : ∀ c ∈ name, c ≠ '>') (more : List Char) :
    withoutCapturesFrom .inName (name ++ '>' :: more) = withoutCapturesFrom .outside more := by
  induction name with
  | nil => simp [withoutCapturesFrom]
  | cons c name ih =>
      rw [List.cons_append, withoutCapturesFrom, if_neg (by simpa using h c List.mem_cons_self)]
      exact ih fun d hd => h d (List.mem_cons_of_mem c hd)

/-- The chunk of what opens a group. The rewriting turns a capturing group into a plain one. -/
theorem exists_chunk_of_opening (verbose : Bool) {cs rest : List Char} {token : Token}
    (h : readOpening cs = (token, rest)) (hembeds : token.embeds = true)
    (hcomment : token ≠ .comment) :
    ∃ text plain, '(' :: cs = text ++ rest ∧ Chunk verbose text plain token rest := by
  have hcolon : ∀ more, first? verbose ("(?:".toList ++ more) = some (.openPlain {}, more) :=
    fun more => first?_opening verbose _
  rcases readOpening_append h hembeds hcomment with ⟨rfl, rfl, hhead⟩ | ⟨name, rfl, rfl, hname, happend⟩ |
    ⟨hplain, text, rfl, hmarks, ⟨front, d, rfl, hd⟩, happend⟩
  · refine ⟨['('], "(?:".toList, rfl, by simp, fun more _ => hcolon more, fun more hmore => ?_,
      fun more more' _ => rfl, .char ['(', '?'] (by decide) (by decide)⟩
    rw [List.singleton_append, withoutCapturesFrom_opening (head?_ne_of_followers_eq hmore hhead)]
  · refine ⟨"(?P<".toList ++ name ++ ['>'], "(?:".toList, by simp, by simp, fun more _ => hcolon more,
      fun more _ => ?_, fun more more' _ => rfl,
      .char ['(', '?'] (by decide) (by decide)⟩
    rw [List.append_assoc, List.append_assoc, List.singleton_append]
    change withoutCapturesFrom .outside ('(' :: '?' :: 'P' :: '<' :: (name ++ '>' :: more)) = _
    rw [withoutCapturesFrom, withoutCapturesFrom_name hname]
    rfl
  · refine ⟨'(' :: '?' :: (front ++ [d]), '(' :: '?' :: (front ++ [d]), by simp,
      .of_passes hplain (fun more => ?_) (.char ('(' :: '?' :: front) ?_ ?_) fun more _ => ?_⟩
    · have hpasses := passes_modeMarks hmarks more
      have hname : ∀ tail, front ++ [d] ++ more ≠ 'P' :: '<' :: tail := by
        intro tail heq
        have hmem : 'P' ∈ front ++ [d] := by
          cases front with
          | nil => exact (List.cons.inj heq).1 ▸ List.mem_cons_self
          | cons c front => exact (List.cons.inj heq).1 ▸ List.mem_cons_self
        exact absurd (hmarks _ hmem) (by decide)
      rw [List.cons_append, List.cons_append, withoutCapturesFrom, hpasses, Option.map_map]
      · rfl
      · intro tail heq
        exact hname tail heq
    · rcases hd with rfl | rfl <;> decide
    · rcases hd with rfl | rfl <;> decide
    · rw [List.cons_append, first?_opening]
      exact congrArg some (happend more)

/-- The chunk of a comment: what it says is rewritten, and what marks it stays. -/
theorem Chunk.of_comment {verbose : Bool} {mark body plain next : List Char} {closing : Char}
    {token : Token} (htoken : token.plain = token) (hmark : ∀ more, followers (mark ++ more) = [])
    (hclosing : closing ≠ '$' ∧ closing ≠ '\\')
    (hpasses : Passes .outside .outside (mark ++ (body ++ [closing])) (mark ++ (plain ++ [closing])))
    (hreads : ∀ more, first? verbose (mark ++ (plain ++ closing :: more)) = some (token, more)) :
    Chunk verbose (mark ++ (body ++ [closing])) (mark ++ (plain ++ [closing])) token next where
  ne_nil := by simp
  reads more _ := by simpa [htoken] using hreads more
  passes more _ := hpasses more
  followers_eq more more' _ := by rw [List.append_assoc, hmark, List.append_assoc, hmark]
  ends := by
    rw [← List.append_assoc]
    exact .char _ hclosing.1 hclosing.2

/-- The chunk of a comment in parentheses. -/
theorem exists_chunk_of_comment (verbose : Bool) {cs rest : List Char}
    (h : readOpening cs = (.comment, rest)) (htame : IsTame ('(' :: cs)) :
    ∃ text plain, '(' :: cs = text ++ rest ∧ Chunk verbose text plain .comment rest := by
  obtain ⟨cs, rfl⟩ := eq_of_readOpening_comment h
  obtain ⟨body, left, hbody, hharmless⟩ := exists_body htame.1 htame.2
  obtain ⟨rfl, plain, hpasses, hagain⟩ := exists_plain_of_name? (.inl rfl) hbody hharmless
  have hread : ∀ {cs body more : List Char}, name? ')' cs = some (body, more) →
      readOpening ('?' :: '#' :: cs) = (.comment, more) := by
    intro cs body more hcs
    rw [readOpening, skipComment?_eq, hcs]
    rfl
  rw [hread hbody] at h
  obtain ⟨-, rfl⟩ := Prod.mk.inj h
  refine ⟨['(', '?', '#'] ++ (body ++ [')']), ['(', '?', '#'] ++ (plain ++ [')']), by simp,
    .of_comment rfl (fun _ => rfl) (by decide) (fun more => ?_) fun more => ?_⟩
  · have hmark : Passes .outside .outside ('#' :: (body ++ [')'])) ('#' :: (plain ++ [')'])) :=
      (passes_char (by decide) (by decide) (by decide)).append hpasses
    change withoutCapturesFrom .outside ('(' :: '?' :: ('#' :: (body ++ [')']) ++ more)) = _
    rw [withoutCapturesFrom, hmark, Option.map_map]
    · rfl
    · simp
  · rw [List.cons_append, first?_opening]
    exact congrArg some (hread (hagain more))

/-- The chunk of a repetition, behind the text that says how often. -/
theorem exists_chunk_of_quantifier {verbose : Bool} {front cs rest : List Char} {token : Token}
    {min : Nat} {max : Option Nat} (h : readQuantifier min max cs = (token, rest))
    (hpasses : Passes .outside .outside front front)
    (hends : Ends front)
    (hreads : ∀ more, first? verbose (front ++ more) = some (readQuantifier min max more)) :
    ∃ text plain, front ++ cs = text ++ rest ∧ Chunk verbose text plain token rest := by
  rcases hlazy : lazyMark cs with ⟨lazy, left⟩
  rw [readQuantifier, hlazy] at h
  obtain ⟨rfl, rfl⟩ := Prod.mk.inj h
  obtain ⟨mark, rfl, hmark, happend⟩ := lazyMark_append hlazy
  refine ⟨front ++ mark, front ++ mark, (List.append_assoc _ _ _).symm,
    .of_passes rfl (hpasses.append ?_) ?_ fun more hmore => ?_⟩
  · rcases hmark with rfl | rfl
    · exact passes_nil .outside
    · exact passes_char (by decide) (by decide) (by decide)
  · rcases hmark with rfl | rfl
    · rwa [List.append_nil]
    · exact .char front (by decide) (by decide)
  · rw [List.append_assoc, hreads, readQuantifier, happend more hmore]

/-- The chunk of an opening brace: a repetition, or the brace itself. -/
theorem exists_chunk_of_brace (verbose : Bool) {cs rest : List Char} {token : Token}
    (h : readBrace cs = (token, rest)) (hembeds : token.embeds = true) :
    ∃ text plain, '{' :: cs = text ++ rest ∧ Chunk verbose text plain token rest := by
  have hfirst : ∀ cs, read verbose '{' cs = readBrace cs := fun cs => by cases verbose <;> rfl
  unfold readBrace at h
  split at h
  · rename_i hnone
    obtain ⟨rfl, rfl⟩ := Prod.mk.inj h
    refine ⟨['{'], ['{'], rfl, .of_char rfl (by decide) (by decide) (by decide) fun more hmore => ?_⟩
    rw [hfirst, readBrace, counts?_eq_none hnone hmore]
  · rename_i min max left hcounts
    split at h
    · obtain ⟨rfl, -⟩ := Prod.mk.inj h
      cases hembeds
    · rename_i horder
      obtain ⟨text, rfl, hfollow, ⟨front, rfl⟩, hagain⟩ := counts?_append hcounts
      have hpasses : Passes .outside .outside ('{' :: (front ++ ['}'])) ('{' :: (front ++ ['}'])) := by
        refine passes_of_forall (List.forall_mem_cons.mpr
          ⟨passes_char (by decide) (by decide) (by decide), fun c hc => passes_char ?_ ?_ ?_⟩) <;>
          (rintro rfl; exact absurd (hfollow _ hc) (by decide))
      exact exists_chunk_of_quantifier h hpasses (.char ('{' :: front) (by decide) (by decide))
        fun more => by
          rw [List.cons_append, first?, hfirst, readBrace, hagain]
          simp only [if_neg horder]

/-- How an escape ends. -/
theorem ends_escape (c : Char) {digits : List Char} (h : ∀ d ∈ digits, isHexDigit d = true) :
    Ends ('\\' :: c :: digits) := by
  rcases List.eq_nil_or_concat digits with rfl | ⟨front, d, rfl⟩
  · exact .escape c
  · have hd : isHexDigit d = true := h d (by simp)
    rw [List.concat_eq_append]
    refine .char ('\\' :: c :: front) ?_ ?_ <;> (rintro rfl; exact absurd hd (by decide))

/-- The chunk of an escape. -/
theorem exists_chunk_of_escape (verbose : Bool) {c : Char} {cs rest : List Char} {token : Token}
    (h : escape c cs = (token, rest)) (hembeds : token.embeds = true) :
    ∃ text plain, '\\' :: c :: cs = text ++ rest ∧ Chunk verbose text plain token rest := by
  have hunit := isUnit_escape c cs
  rw [h] at hunit
  obtain ⟨digits, rfl, hdigits, happend⟩ := escape_append h hembeds
  refine ⟨'\\' :: c :: digits, '\\' :: c :: digits, rfl,
    .of_passes (plain_of_isUnit hunit) ((passes_escape c).append (passes_digits hdigits))
      (ends_escape c hdigits) fun more hmore => ?_⟩
  rw [List.cons_append, List.cons_append, ← happend more hmore]
  cases verbose <;> rfl

/-- The chunk of a token that may stand in a fragment. -/
theorem exists_chunk_of_embeds {verbose : Bool} {c : Char} {cs rest : List Char} {token : Token}
    (h : read verbose c cs = (token, rest)) (hembeds : token.embeds = true)
    (htame : token = .skipped ∨ token = .comment → IsTame (c :: cs)) :
    ∃ text plain, c :: cs = text ++ rest ∧ Chunk verbose text plain token rest := by
  by_cases hblank : (verbose && isAsciiBlank c) = true
  · have hread : ∀ cs, read verbose c cs = (.skipped, cs) := fun cs => by
      rw [read.eq_def, if_pos hblank]
    rw [hread] at h
    obtain ⟨rfl, rfl⟩ := Prod.mk.inj h
    have hc : isAsciiBlank c = true := (Bool.and_eq_true _ _ ▸ hblank).2
    refine ⟨[c], [c], rfl, .of_char rfl ?_ ?_ ?_ fun more _ => hread more⟩ <;>
      (rintro rfl; exact absurd hc (by decide))
  by_cases hhash : (verbose && c == '#') = true
  · obtain ⟨rfl, rfl⟩ : verbose = true ∧ c = '#' := by simpa using hhash
    have hread : ∀ cs, read true '#' cs = (.skipped, skipLine cs) := fun cs => rfl
    rw [hread] at h
    obtain ⟨rfl, rfl⟩ := Prod.mk.inj h
    obtain ⟨hends, htext⟩ := htame (.inl rfl)
    obtain ⟨body, left, hbody, hharmless⟩ := exists_body hends htext
    obtain ⟨rfl, plain, hpasses, hagain⟩ := exists_plain_of_name? (.inr rfl) hbody hharmless
    rw [skipLine_eq, hbody]
    refine ⟨['#'] ++ (body ++ ['\n']), ['#'] ++ (plain ++ ['\n']), by simp, .of_comment rfl (fun _ => rfl)
      (by decide) ((passes_char (by decide) (by decide) (by decide)).append hpasses) fun more => ?_⟩
    rw [List.singleton_append, first?, hread, skipLine_eq, hagain]
    rfl
  rw [read.eq_def, if_neg hblank, if_neg hhash] at h
  split at h
  case h_1 =>
    by_cases hcomment : token = .comment
    · subst hcomment
      exact exists_chunk_of_comment verbose h (htame (.inr rfl))
    · exact exists_chunk_of_opening verbose h hembeds hcomment
  case h_7 | h_8 | h_9 =>
    exact exists_chunk_of_quantifier h (passes_char (by decide) (by decide) (by decide))
      (.char [] (by decide) (by decide)) fun more => by cases verbose <;> rfl
  case h_10 => exact exists_chunk_of_brace verbose h hembeds
  case h_11 =>
    have hunit := isUnit_readClass cs
    rw [h] at hunit
    obtain ⟨text, rfl, ⟨front, hends⟩, hagain, hpasses⟩ := exists_readClass_text h hembeds
    refine ⟨'[' :: text, '[' :: text, rfl, .of_passes (plain_of_isUnit hunit) hpasses
      (hends ▸ .char ('[' :: front) (by decide) (by decide)) fun more _ => ?_⟩
    rw [List.cons_append, ← hagain more]
    cases verbose <;> rfl
  case h_12 =>
    split at h
    · obtain ⟨rfl, -⟩ := Prod.mk.inj h
      cases hembeds
    · exact exists_chunk_of_escape verbose h hembeds
  case h_13 hgroup _ _ _ _ _ _ _ _ _ hclass hescape =>
    obtain ⟨rfl, rfl⟩ := Prod.mk.inj h
    refine ⟨[c], [c], rfl, .of_char rfl hescape hclass hgroup fun more _ => ?_⟩
    rw [read.eq_def, if_neg hblank, if_neg hhash]
    split <;> first | rfl | contradiction
  all_goals
    obtain ⟨rfl, rfl⟩ := Prod.mk.inj h
    exact ⟨_, _, rfl, .of_char rfl (by decide) (by decide) (by decide) fun more _ => by
      cases verbose <;> rfl⟩

/-! ### Looking around -/

/-- What opens a look-around, behind the parenthesis. -/
def lookMarks (behind negated : Bool) : List Char :=
  '?' :: ((if behind then ['<'] else []) ++ [if negated then '!' else '='])

theorem readOpening_lookMarks (behind negated : Bool) (more : List Char) :
    readOpening (lookMarks behind negated ++ more) = (.openLook behind negated, more) := by
  cases behind <;> cases negated <;> rfl

theorem readModes_ne_openLook (behind negated : Bool) (cs : List Char) :
    (readModes cs).1 ≠ .openLook behind negated := by
  unfold readModes
  repeat' split
  all_goals simp

/-- A look-around has marks of its own. -/
theorem eq_of_readOpening_look {cs rest : List Char} {behind negated : Bool}
    (h : readOpening cs = (.openLook behind negated, rest)) :
    cs = lookMarks behind negated ++ rest := by
  have hname : ∀ {closing make} {cs : List Char}, (∀ name, make name ≠ .openLook behind negated) →
      readName closing make cs ≠ (.openLook behind negated, rest) := by
    intro closing make cs hmake heq
    rcases @readName_token closing make cs with ⟨name, hname⟩ | ⟨_, _, hfault⟩
    · exact hmake name (hname.symm.trans (congrArg Prod.fst heq))
    · cases hfault.symm.trans (congrArg Prod.fst heq)
  unfold readOpening at h
  split at h
  · split at h
    case h_3 | h_4 | h_5 | h_6 =>
      cases h
      rfl
    case h_9 => exact absurd h (hname (by simp))
    case h_10 => exact absurd h (hname (by simp))
    case h_13 => split at h <;> cases h
    case h_14 =>
      split at h
      · exact absurd (congrArg Prod.fst h) (readModes_ne_openLook behind negated _)
      · cases h
    all_goals cases h
  · cases h

/-- The chunk of what opens a look-around. The rewriting leaves it as it is. -/
theorem exists_chunk_of_look {verbose : Bool} {c : Char} {cs rest : List Char}
    {behind negated : Bool} (h : read verbose c cs = (.openLook behind negated, rest)) :
    ∃ text plain, c :: cs = text ++ rest ∧
      Chunk verbose text plain (.openLook behind negated) rest := by
  rcases read_cases verbose c cs with ⟨rfl, hopening⟩ | ⟨-, hcaret⟩ | hsingle
  · obtain rfl := eq_of_readOpening_look (hopening.symm.trans h)
    refine ⟨'(' :: lookMarks behind negated, '(' :: lookMarks behind negated, rfl,
      .of_passes rfl (fun more => ?_) ?_ fun more _ => ?_⟩
    · cases behind <;> cases negated <;> simp [lookMarks, withoutCapturesFrom, Function.comp_def]
    · cases behind <;> cases negated
      · exact @Ends.char ['(', '?'] '=' (by decide) (by decide)
      · exact @Ends.char ['(', '?'] '!' (by decide) (by decide)
      · exact @Ends.char ['(', '?', '<'] '=' (by decide) (by decide)
      · exact @Ends.char ['(', '?', '<'] '!' (by decide) (by decide)
    · rw [List.cons_append, first?_opening, readOpening_lookMarks]
  · cases hcaret.symm.trans h
  · rw [h] at hsingle
    cases hsingle

end Token

end Switchboard.Pattern
