import Switchboard.Proofs.Pattern.Chunks

/-!
# The Texts of References

A reference to a group stands in a pattern text by number, `\1`, or by name, `(?P=name)`. The rewriting
that makes capturing groups plain passes both as they are. So a reference is a reference in a fragment,
too, only that the group that it was made for is gone.

A number after a backslash has one digit or two, and with a third it may be a character instead. This
is the one place where the followers of a token have to be looked at twice.

## Main results

* `Token.exists_chunk`: every token has a chunk, but for faults.
-/

namespace Switchboard.Pattern

namespace Token

/-! ### References by number -/

theorem isFollower_of_isDigit {c : Char} (h : c.isDigit = true) : isFollower c = true := by
  simp [isFollower, h]

theorem ofChar_ne_numberedRef (c : Except Cause Char) (index : Nat) : ofChar c ≠ .numberedRef index := by
  cases c <;> simp [ofChar]

/-- One digit is a reference, when no other digit follows. -/
theorem digitEscape_of_not_starts {c : Char} {more : List Char} (h : ¬ Starts Char.isDigit more) :
    digitEscape c more = (.numberedRef (digitValue c), more) := by
  cases more with
  | nil => rfl
  | cons d more =>
      have hd : ¬ d.isDigit = true := fun hd => h (starts_cons.mpr hd)
      cases more with
      | nil => rw [digitEscape, if_neg hd]
      | cons e more =>
          have hoctal : ¬ isOctalDigit d = true := fun hoctal => hd (isDigit_of_isOctalDigit hoctal)
          rw [digitEscape, if_neg (by simp [hoctal]), if_neg hd]

/-- Two digits are a reference, when the next one does not make them a character. -/
theorem digitEscape_of_isDigit {c d : Char} (hd : d.isDigit = true) {more : List Char}
    (h : Starts isOctalDigit more → (isOctalDigit c && isOctalDigit d) = false) :
    digitEscape c (d :: more) = (.numberedRef (ofDigits 10 [c, d]), more) := by
  cases more with
  | nil => rw [digitEscape, if_pos hd]
  | cons e more =>
      have hnot : ¬ (isOctalDigit c && isOctalDigit d && isOctalDigit e) = true := by
        intro hall
        rw [Bool.and_eq_true] at hall
        rw [h (starts_cons.mpr hall.2)] at hall
        cases hall.1
      rw [digitEscape, if_neg hnot, if_pos hd]

/-- A reference by number has one digit or two, and is the same whenever the followers are the same. -/
theorem digitEscape_reference {c : Char} {cs rest : List Char} {index : Nat}
    (h : digitEscape c cs = (.numberedRef index, rest)) :
    ∃ digits, cs = digits ++ rest ∧ (∀ d ∈ digits, isHexDigit d = true) ∧
      ∀ more, followers more = followers rest →
        digitEscape c (digits ++ more) = (.numberedRef index, more) := by
  have hone : ∀ {rest : List Char}, ¬ Starts Char.isDigit rest → ∀ more,
      followers more = followers rest → digitEscape c more = (.numberedRef (digitValue c), more) :=
    fun hrest more hmore => digitEscape_of_not_starts fun hstarts =>
      hrest (starts_of_followers_eq (fun _ => isFollower_of_isDigit) hmore hstarts)
  have htwo : ∀ {d : Char} {rest : List Char}, d.isDigit = true →
      (Starts isOctalDigit rest → (isOctalDigit c && isOctalDigit d) = false) → ∀ more,
      followers more = followers rest →
        digitEscape c (d :: more) = (.numberedRef (ofDigits 10 [c, d]), more) :=
    fun hd hrest more hmore => digitEscape_of_isDigit hd fun hstarts =>
      hrest (starts_of_followers_eq (fun _ => isFollower_of_isOctalDigit) hmore hstarts)
  have hhex : ∀ {d : Char}, d.isDigit = true → isHexDigit d = true := fun hd => by simp [isHexDigit, hd]
  unfold digitEscape at h
  split at h
  · rename_i d e rest'
    split at h
    · exact absurd (congrArg Prod.fst h) (ofChar_ne_numberedRef _ _)
    · rename_i hoctal
      split at h
      · rename_i hd
        obtain ⟨heq, rfl⟩ := Prod.mk.inj h
        obtain rfl := Token.numberedRef.inj heq
        refine ⟨[d], rfl, by simpa using hhex hd, htwo hd fun he => ?_⟩
        simpa [starts_cons.mp he] using hoctal
      · rename_i hd
        obtain ⟨heq, rfl⟩ := Prod.mk.inj h
        obtain rfl := Token.numberedRef.inj heq
        exact ⟨[], rfl, by simp, hone (by simpa using hd)⟩
  · rename_i d
    split at h
    · rename_i hd
      obtain ⟨heq, rfl⟩ := Prod.mk.inj h
      obtain rfl := Token.numberedRef.inj heq
      exact ⟨[d], rfl, by simpa using hhex hd, htwo hd fun hnil => absurd hnil (not_starts_nil _)⟩
    · rename_i hd
      obtain ⟨heq, rfl⟩ := Prod.mk.inj h
      obtain rfl := Token.numberedRef.inj heq
      exact ⟨[], rfl, by simp, hone (by simpa using hd)⟩
  · obtain ⟨heq, rfl⟩ := Prod.mk.inj h
    obtain rfl := Token.numberedRef.inj heq
    exact ⟨[], rfl, by simp, hone (not_starts_nil _)⟩

/-- An escape that is a reference is one by its digits. -/
theorem escape_eq_digitEscape {c : Char} {cs rest : List Char} {index : Nat}
    (h : escape c cs = (.numberedRef index, rest)) : ∀ more, escape c more = digitEscape c more := by
  by_cases hanchor : c = 'A' ∨ c = 'Z' ∨ c = 'b' ∨ c = 'B'
  · rcases hanchor with rfl | rfl | rfl | rfl <;> cases h
  simp only [not_or] at hanchor
  obtain ⟨hA, hZ, hb, hB⟩ := hanchor
  by_cases h0 : c = '0'
  · subst h0
    exact absurd (congrArg Prod.fst h) (ofChar_ne_numberedRef _ _)
  have heq := escape_eq hA hZ hb hB h0
  rw [heq] at h
  intro more
  rw [heq]
  cases hkind : kindEscape? c with
  | some item =>
      rw [hkind] at h
      cases h
  | none =>
      cases hcontrol : controlEscape? c with
      | some d =>
          rw [hkind, hcontrol] at h
          cases h
      | none =>
          cases hwidth : codeWidth? c with
          | some width =>
              rw [hkind, hcontrol, hwidth] at h
              exact absurd (congrArg Prod.fst h) (ofChar_ne_numberedRef _ _)
          | none =>
              simp only [hkind, hcontrol, hwidth] at h ⊢
              by_cases hdigit : c.isDigit = true
              · rw [if_pos hdigit]
              · rw [if_neg hdigit] at h
                exact absurd (congrArg Prod.fst h) (ofChar_ne_numberedRef _ _)

/-- A reference by number stands behind a backslash. -/
theorem eq_of_read_numberedRef {verbose : Bool} {c : Char} {cs rest : List Char} {index : Nat}
    (h : read verbose c cs = (.numberedRef index, rest)) :
    ∃ d ds, c = '\\' ∧ cs = d :: ds ∧ escape d ds = (.numberedRef index, rest) := by
  have hname : ∀ {closing make} {cs : List Char}, (∀ name, make name ≠ .numberedRef index) →
      (readName closing make cs).1 ≠ .numberedRef index := by
    intro closing make cs hmake
    rcases @readName_token closing make cs with ⟨name, hname⟩ | ⟨_, _, hfault⟩
    · rw [hname]
      exact hmake name
    · simp [hfault]
  have hquantifier : ∀ min max cs, (readQuantifier min max cs).1 ≠ .numberedRef index := by
    intro min max cs
    simp [readQuantifier]
  unfold read at h
  split at h
  · cases h
  · split at h
    · cases h
    · split at h
      case h_1 =>
        rcases readOpening_cases cs with ⟨more, rfl⟩ | ⟨more, -, hmodes⟩ | hgroup
        · rw [readOpening.eq_def] at h
          simp only at h
          split at h <;> cases h
        · have hkind := isGroup_readModes more
          rw [← hmodes, h] at hkind
          simp [isGroup] at hkind
        · rw [h] at hgroup
          cases hgroup
      case h_7 | h_8 | h_9 => exact absurd (congrArg Prod.fst h) (hquantifier _ _ _)
      case h_10 =>
        unfold readBrace at h
        split at h
        · cases h
        · split at h
          · cases h
          · exact absurd (congrArg Prod.fst h) (hquantifier _ _ _)
      case h_11 =>
        rw [readClass.eq_def] at h
        split at h
        split at h <;> cases h
      case h_12 =>
        split at h
        · cases h
        · exact ⟨_, _, rfl, rfl, h⟩
      all_goals cases h

/-- The chunk of a reference by number. -/
theorem exists_chunk_of_numberedRef {verbose : Bool} {c : Char} {cs rest : List Char} {index : Nat}
    (h : read verbose c cs = (.numberedRef index, rest)) :
    ∃ text plain, c :: cs = text ++ rest ∧ Chunk verbose text plain (.numberedRef index) rest := by
  obtain ⟨d, ds, rfl, rfl, hescape⟩ := eq_of_read_numberedRef h
  have heq := escape_eq_digitEscape hescape
  rw [heq] at hescape
  obtain ⟨digits, rfl, hdigits, happend⟩ := digitEscape_reference hescape
  refine ⟨'\\' :: d :: digits, '\\' :: d :: digits, rfl,
    .of_passes rfl ((passes_escape d).append (passes_digits hdigits)) (ends_escape d hdigits)
      fun more hmore => ?_⟩
  rw [List.cons_append, List.cons_append, ← happend more hmore, ← heq]
  cases verbose <;> rfl

/-! ### References by name -/

/-- The rewriting passes a name. -/
theorem passes_name {name : List Char} (h : isIdentifier (String.ofList name) = true) :
    Passes .outside .outside name name := by
  have hmember : ∀ c ∈ name, isIdentifierStart c = true ∨ isIdentifierContinue c = true := by
    rw [isIdentifier, String.toList_ofList] at h
    cases name with
    | nil => cases h
    | cons c name =>
        simp only [Bool.and_eq_true, List.all_eq_true] at h
        exact List.forall_mem_cons.mpr ⟨.inl h.1, fun d hd => .inr (h.2 d hd)⟩
  refine passes_of_forall fun c hc => passes_char ?_ ?_ ?_ <;>
    (rintro rfl; exact absurd (hmember _ hc) (by decide +kernel))

/-- A reference by name has marks of its own. -/
theorem eq_of_readOpening_namedRef {cs rest : List Char} {name : String}
    (h : readOpening cs = (.namedRef name, rest)) :
    ∃ more, cs = '?' :: 'P' :: '=' :: more ∧ readName ')' .namedRef more = (.namedRef name, rest) := by
  unfold readOpening at h
  split at h
  · split at h
    case h_9 cs =>
      rcases @readName_token '>' (.openCapture ∘ some) cs with ⟨found, hfound⟩ | ⟨_, _, hfault⟩
      · cases hfound.symm.trans (congrArg Prod.fst h)
      · cases hfault.symm.trans (congrArg Prod.fst h)
    case h_10 => exact ⟨_, rfl, h⟩
    case h_13 => split at h <;> cases h
    case h_14 =>
      split at h
      · unfold readModes at h
        repeat' split at h
        all_goals cases h
      · cases h
    all_goals cases h
  · cases h

/-- The chunk of a reference by name. -/
theorem exists_chunk_of_namedRef {verbose : Bool} {c : Char} {cs rest : List Char} {name : String}
    (h : read verbose c cs = (.namedRef name, rest)) :
    ∃ text plain, c :: cs = text ++ rest ∧ Chunk verbose text plain (.namedRef name) rest := by
  rcases read_cases verbose c cs with ⟨rfl, hopening⟩ | ⟨-, hcaret⟩ | hsingle
  · obtain ⟨more, rfl, hname⟩ := eq_of_readOpening_namedRef (hopening.symm.trans h)
    obtain ⟨chars, hmake, hidentifier, rfl, hmember, happend⟩ :=
      readName_append hname (by decide) (by simp)
    refine ⟨"(?P=".toList ++ (chars ++ [')']), "(?P=".toList ++ (chars ++ [')']), by simp,
      .of_passes rfl (fun more => ?_) (.char ("(?P=".toList ++ chars) (by decide) (by decide))
        fun more _ => ?_⟩
    · have hpasses : Passes .outside .outside ('P' :: '=' :: (chars ++ [')']))
          ('P' :: '=' :: (chars ++ [')'])) :=
        (passes_char (by decide) (by decide) (by decide)).append
          ((passes_char (by decide) (by decide) (by decide)).append
            ((passes_name hidentifier).append (passes_char (by decide) (by decide) (by decide))))
      change withoutCapturesFrom .outside ('(' :: '?' :: ('P' :: '=' :: (chars ++ [')']) ++ more)) = _
      rw [withoutCapturesFrom, hpasses more, Option.map_map]
      · rfl
      · simp
    · have hread := happend more
      change first? verbose ('(' :: '?' :: 'P' :: '=' :: (chars ++ [')'] ++ more)) = _
      rw [first?_opening, List.append_assoc, List.singleton_append]
      exact congrArg some hread
  · cases hcaret.symm.trans h
  · rw [h] at hsingle
    cases hsingle

/-! ### All tokens -/

/-- Whether a token refers back to a group. -/
def isReference : Token → Bool
  | .numberedRef _ | .namedRef _ => true
  | _ => false

/-- A token that has a chunk: any but a fault. -/
def hasChunk : Token → Bool
  | .fault _ _ => false
  | _ => true

theorem hasChunk_plain (token : Token) : token.plain.hasChunk = token.hasChunk := by
  cases token <;> rfl

/-- **Every token has a chunk**, but for faults: the text that was read as the token stands in front of
what is left, and is rewritten and read by itself. -/
theorem exists_chunk {verbose : Bool} {c : Char} {cs rest : List Char} {token : Token}
    (h : read verbose c cs = (token, rest)) (htoken : token.hasChunk = true)
    (htame : token = .skipped ∨ token = .comment → IsTame (c :: cs)) :
    ∃ text plain, c :: cs = text ++ rest ∧ Chunk verbose text plain token rest := by
  cases token with
  | openLook behind negated => exact exists_chunk_of_look h
  | numberedRef index => exact exists_chunk_of_numberedRef h
  | namedRef name => exact exists_chunk_of_namedRef h
  | fault cause offset => cases htoken
  | _ => exact exists_chunk_of_embeds h rfl htame

end Token

end Switchboard.Pattern
