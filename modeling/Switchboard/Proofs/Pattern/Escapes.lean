import Switchboard.Pattern.Fragment
import Switchboard.Proofs.Text.Words

/-!
# The Texts of Escapes and Classes

A pattern text is a row of the texts of its tokens. What a token is depends on its own text, and in a
few places on the characters behind it: a brace may start a count, a number after a backslash may go
on, and a question mark makes a repetition lazy. All of this is decided by the characters at the
front of what follows that are digits, commas, closing braces or question marks (`followers`).

The readers of tokens are gone through one by one. Each lemma takes a result of a reader, splits
off the text that the reader has taken, and says that this text is read the same in front of
anything else with the same followers. This module is about escapes and classes in brackets;
`Chunks` adds groups and repetitions.

The rewriting that makes capturing groups plain goes through the same text by itself, with
another, smaller idea of what a token is. `Passes` says that it takes a text as a whole.

## Main results

* `Token.escape_append`: the text of an escape.
* `Token.exists_readClass_text`: the text of a class, which the rewriting passes as it is.
-/

namespace Switchboard.Pattern

/-! ### What follows a token -/

/-- A character behind a token on which the token may depend. -/
def isFollower (c : Char) : Bool := c.isDigit || c == ',' || c == '}' || c == '?'

/-- The characters behind a token on which the token may depend. -/
def followers (cs : List Char) : List Char := cs.takeWhile isFollower

/-- Texts with the same followers start with the same kinds of follower. -/
theorem starts_of_followers_eq {p : Char → Bool} (hp : ∀ c, p c = true → isFollower c = true)
    {cs ds : List Char} (h : followers ds = followers cs) (hds : Starts p ds) : Starts p cs := by
  obtain ⟨c, ds, rfl, hc⟩ := hds
  rw [followers, List.takeWhile_cons_of_pos (hp c hc)] at h
  cases cs with
  | nil => cases h
  | cons d cs =>
      by_cases hd : isFollower d = true
      · rw [followers, List.takeWhile_cons_of_pos hd] at h
        obtain ⟨rfl, -⟩ := List.cons.inj h
        exact starts_cons.mpr hc
      · rw [followers, List.takeWhile_cons_of_neg hd] at h
        cases h

theorem head?_ne_of_followers_eq {cs ds : List Char} (h : followers ds = followers cs)
    (hcs : cs.head? ≠ some '?') : ds.head? ≠ some '?' := by
  intro hds
  have hstarts : Starts (· == '?') ds := by
    cases ds with
    | nil => cases hds
    | cons d ds => exact starts_cons.mpr (by simpa using hds)
  obtain ⟨c, cs, rfl, hc⟩ := starts_of_followers_eq (fun c hc => by
    obtain rfl : c = '?' := by simpa using hc
    rfl) h hstarts
  exact hcs (by simpa using hc)

/-! ### Digits after a backslash -/

namespace Token

theorem isDigit_of_isOctalDigit {c : Char} (h : isOctalDigit c = true) : c.isDigit = true := by
  simp only [isOctalDigit, Bool.and_eq_true, decide_eq_true_eq] at h
  simp only [Char.isDigit, Bool.and_eq_true, decide_eq_true_eq]
  exact ⟨h.1, Char.le_trans h.2 (by decide)⟩

theorem isFollower_of_isOctalDigit {c : Char} (h : isOctalDigit c = true) :
    isFollower c = true := by
  simp [isFollower, isDigit_of_isOctalDigit h]

theorem isHexDigit_of_isOctalDigit {c : Char} (h : isOctalDigit c = true) :
    isHexDigit c = true := by
  simp [isHexDigit, isDigit_of_isOctalDigit h]

/-- What is taken from the front stays the same, when what follows does not go on with it. -/
theorem takeUpTo_append {p : Char → Bool} {n : Nat} {cs digits rest : List Char}
    (h : takeUpTo p n cs = (digits, rest)) :
    cs = digits ++ rest ∧ (∀ c ∈ digits, p c = true) ∧
      ∀ more, (digits.length < n → Starts p more → Starts p rest) →
        takeUpTo p n (digits ++ more) = (digits, more) := by
  induction n generalizing cs digits with
  | zero =>
      obtain ⟨rfl, rfl⟩ := Prod.mk.inj h
      exact ⟨rfl, nofun, fun more _ => rfl⟩
  | succ n ih =>
      cases cs with
      | nil =>
          obtain ⟨rfl, rfl⟩ := Prod.mk.inj h
          refine ⟨rfl, nofun, fun more hmore => ?_⟩
          cases more with
          | nil => rfl
          | cons c more =>
              have hc : ¬ p c = true := fun hc =>
                not_starts_nil p (hmore (Nat.succ_pos n) (starts_cons.mpr hc))
              simp [takeUpTo, hc]
      | cons c cs =>
          by_cases hc : p c = true
          · rcases hsplit : takeUpTo p n cs with ⟨taken, left⟩
            rw [takeUpTo, if_pos hc, hsplit] at h
            obtain ⟨rfl, rfl⟩ := Prod.mk.inj h
            obtain ⟨rfl, htaken, happend⟩ := ih hsplit
            refine ⟨rfl, List.forall_mem_cons.mpr ⟨hc, htaken⟩, fun more hmore => ?_⟩
            have hagain := happend more fun hlt => hmore (Nat.succ_lt_succ hlt)
            rw [List.cons_append, takeUpTo, if_pos hc, hagain]
          · rw [takeUpTo, if_neg hc] at h
            obtain ⟨rfl, rfl⟩ := Prod.mk.inj h
            refine ⟨rfl, nofun, fun more hmore => ?_⟩
            cases more with
            | nil => rfl
            | cons d more =>
                have hd : ¬ p d = true := fun hd =>
                  hc (starts_cons.mp (hmore (Nat.succ_pos n) (starts_cons.mpr hd)))
                simp [takeUpTo, hd]

/-- A character by its code point is the same whatever follows. -/
theorem codeEscape_append {letter : Char} {width : Nat} {cs rest : List Char} {c : Char}
    (h : codeEscape letter width cs = (.ok c, rest)) :
    ∃ digits, cs = digits ++ rest ∧ (∀ d ∈ digits, isHexDigit d = true) ∧
      ∀ more, codeEscape letter width (digits ++ more) = (.ok c, more) := by
  rcases hsplit : takeUpTo isHexDigit width cs with ⟨digits, left⟩
  obtain ⟨rfl, hdigits, happend⟩ := takeUpTo_append hsplit
  simp only [codeEscape, hsplit] at h
  split at h
  · cases h
  · rename_i hfull
    have hagain : ∀ more, takeUpTo isHexDigit width (digits ++ more) = (digits, more) :=
      fun more => happend more fun hlt => absurd hlt hfull
    split at h
    · rename_i d hchar
      obtain ⟨hd, rfl⟩ := Prod.mk.inj h
      obtain rfl := Except.ok.inj hd
      refine ⟨digits, rfl, hdigits, fun more => ?_⟩
      simp only [codeEscape, hagain more, if_neg hfull, hchar]
    · cases h

/-- A token that a fragment may have: it is no fault, refers to no group, and does not look around. -/
def embeds : Token → Bool
  | .fault _ _ | .numberedRef _ | .namedRef _ | .openLook _ _ => false
  | _ => true

/-- A token of a fragment: its groups capture nothing. -/
def plain : Token → Token
  | .openCapture _ => .openPlain {}
  | token => token

theorem embeds_ofChar {c : Except Cause Char} (h : (ofChar c).embeds = true) :
    ∃ d, c = .ok d := by
  cases c with
  | error cause => cases h
  | ok d => exact ⟨d, rfl⟩

/-- A character given by digits after a backslash, and what follows. -/
theorem digitEscape_append {c : Char} {cs rest : List Char} {token : Token}
    (h : digitEscape c cs = (token, rest)) (hembeds : token.embeds = true) :
    ∃ digits, cs = digits ++ rest ∧ (∀ d ∈ digits, isHexDigit d = true) ∧
      ∀ more, digitEscape c (digits ++ more) = (token, more) := by
  unfold digitEscape at h
  split at h
  · split at h
    case isTrue hoctal =>
      rename_i d e rest'
      obtain ⟨rfl, rfl⟩ := Prod.mk.inj h
      have hdigits : isHexDigit d = true ∧ isHexDigit e = true := by
        simp only [Bool.and_eq_true] at hoctal
        exact ⟨isHexDigit_of_isOctalDigit hoctal.1.2, isHexDigit_of_isOctalDigit hoctal.2⟩
      refine ⟨[d, e], rfl, by simpa using hdigits, fun more => ?_⟩
      rw [List.cons_append, List.cons_append, List.nil_append, digitEscape, if_pos hoctal]
    case isFalse =>
      split at h <;> (obtain ⟨rfl, -⟩ := Prod.mk.inj h; cases hembeds)
  · split at h <;> (obtain ⟨rfl, -⟩ := Prod.mk.inj h; cases hembeds)
  · obtain ⟨rfl, -⟩ := Prod.mk.inj h
    cases hembeds

/-- An escape by a letter that stands for an anchor or zero is a token of its own; for all other
characters the tables are asked in turn. -/
theorem escape_eq {c : Char} (hA : c ≠ 'A') (hZ : c ≠ 'Z') (hb : c ≠ 'b') (hB : c ≠ 'B')
    (h0 : c ≠ '0') (cs : List Char) :
    escape c cs =
      match kindEscape? c, controlEscape? c, codeWidth? c with
      | some item, _, _ => (.set false [item], cs)
      | _, some d, _ => (.char d, cs)
      | _, _, some width => (ofChar (codeEscape c width cs).1, (codeEscape c width cs).2)
      | none, none, none =>
        if c.isDigit then digitEscape c cs else (ofChar (plainEscape c), cs) := by
  rw [escape]
  all_goals first | assumption | rfl

/-- An escape is the same token whenever the followers are the same. -/
theorem escape_append {c : Char} {cs rest : List Char} {token : Token}
    (h : escape c cs = (token, rest)) (hembeds : token.embeds = true) :
    ∃ digits, cs = digits ++ rest ∧ (∀ d ∈ digits, isHexDigit d = true) ∧
      ∀ more, followers more = followers rest → escape c (digits ++ more) = (token, more) := by
  by_cases hanchor : c = 'A' ∨ c = 'Z' ∨ c = 'b' ∨ c = 'B'
  · rcases hanchor with rfl | rfl | rfl | rfl
    all_goals
      obtain ⟨rfl, rfl⟩ := Prod.mk.inj h
      exact ⟨[], rfl, nofun, fun more _ => rfl⟩
  simp only [not_or] at hanchor
  obtain ⟨hA, hZ, hb, hB⟩ := hanchor
  by_cases h0 : c = '0'
  · subst h0
    rcases hsplit : takeUpTo isOctalDigit 2 cs with ⟨digits, left⟩
    obtain ⟨rfl, hdigits, happend⟩ := takeUpTo_append hsplit
    rw [escape, hsplit] at h
    obtain ⟨rfl, rfl⟩ := Prod.mk.inj h
    refine ⟨digits, rfl, fun d hd => isHexDigit_of_isOctalDigit (hdigits d hd),
      fun more hmore => ?_⟩
    have hagain := happend more fun _ =>
      starts_of_followers_eq (fun _ => isFollower_of_isOctalDigit) hmore
    rw [escape, hagain]
  have heq := escape_eq hA hZ hb hB h0
  rw [heq] at h
  simp only [heq]
  cases hkind : kindEscape? c with
  | some item =>
      rw [hkind] at h
      obtain ⟨rfl, rfl⟩ := Prod.mk.inj h
      exact ⟨[], rfl, nofun, fun more _ => rfl⟩
  | none =>
      cases hcontrol : controlEscape? c with
      | some d =>
          rw [hkind, hcontrol] at h
          obtain ⟨rfl, rfl⟩ := Prod.mk.inj h
          exact ⟨[], rfl, nofun, fun more _ => rfl⟩
      | none =>
          cases hwidth : codeWidth? c with
          | some width =>
              rw [hkind, hcontrol, hwidth] at h
              obtain ⟨rfl, rfl⟩ := Prod.mk.inj h
              obtain ⟨d, hd⟩ := embeds_ofChar hembeds
              obtain ⟨digits, hcs, hdigits, happend⟩ := codeEscape_append (Prod.ext hd rfl)
              refine ⟨digits, hcs, hdigits, fun more _ => ?_⟩
              simp only [happend more, hd]
          | none =>
              simp only [hkind, hcontrol, hwidth] at h
              by_cases hdigit : c.isDigit = true
              · rw [if_pos hdigit] at h
                obtain ⟨digits, hcs, hdigits, happend⟩ := digitEscape_append h hembeds
                refine ⟨digits, hcs, hdigits, fun more _ => ?_⟩
                simp only [if_pos hdigit, happend more]
              · rw [if_neg hdigit] at h
                obtain ⟨rfl, rfl⟩ := Prod.mk.inj h
                exact ⟨[], rfl, nofun, fun more _ => by rw [if_neg hdigit]; rfl⟩

/-! ### Classes -/

/-- An escape in a class is the same member, when no more octal digits follow. -/
theorem classEscape_append {c : Char} {cs rest : List Char} {item : ClassItem}
    (h : classEscape c cs = (.ok item, rest)) :
    ∃ digits, cs = digits ++ rest ∧ (∀ d ∈ digits, isHexDigit d = true) ∧
      ∀ more, (Starts isOctalDigit more → Starts isOctalDigit rest) →
        classEscape c (digits ++ more) = (.ok item, more) := by
  unfold classEscape at h ⊢
  cases hkind : kindEscape? c with
  | some found =>
      simp only [hkind] at h
      obtain ⟨hitem, rfl⟩ := Prod.mk.inj h
      obtain rfl := Except.ok.inj hitem
      exact ⟨[], rfl, nofun, fun more _ => rfl⟩
  | none =>
      cases hcontrol : controlEscape? c with
      | some d =>
          simp only [hkind, hcontrol] at h
          obtain ⟨hitem, rfl⟩ := Prod.mk.inj h
          obtain rfl := Except.ok.inj hitem
          exact ⟨[], rfl, nofun, fun more _ => rfl⟩
      | none =>
          cases hwidth : codeWidth? c with
          | some width =>
              simp only [hkind, hcontrol, hwidth] at h
              obtain ⟨hitem, rfl⟩ := Prod.mk.inj h
              cases hd : (codeEscape c width cs).1 with
              | error cause =>
                  rw [hd] at hitem
                  cases hitem
              | ok d =>
                  rw [hd] at hitem
                  obtain ⟨digits, hcs, hdigits, happend⟩ := codeEscape_append (Prod.ext hd rfl)
                  refine ⟨digits, hcs, hdigits, fun more _ => ?_⟩
                  simp only [happend more, hitem]
          | none =>
              simp only [hkind, hcontrol, hwidth] at h
              by_cases hb : (c == 'b') = true
              · rw [if_pos hb] at h
                obtain ⟨hitem, rfl⟩ := Prod.mk.inj h
                exact ⟨[], rfl, nofun, fun more _ => by simp only [if_pos hb, hitem]; rfl⟩
              · rw [if_neg hb] at h
                by_cases hoctal : isOctalDigit c = true
                · rcases hsplit : takeUpTo isOctalDigit 2 cs with ⟨digits, left⟩
                  obtain ⟨rfl, hdigits, happend⟩ := takeUpTo_append hsplit
                  simp only [if_pos hoctal, hsplit] at h
                  obtain ⟨hitem, rfl⟩ := Prod.mk.inj h
                  refine ⟨digits, rfl, fun d hd => isHexDigit_of_isOctalDigit (hdigits d hd),
                    fun more hmore => ?_⟩
                  simp only [if_neg hb, if_pos hoctal, happend more fun _ => hmore, hitem]
                · rw [if_neg hoctal] at h
                  obtain ⟨hitem, rfl⟩ := Prod.mk.inj h
                  exact ⟨[], rfl, nofun, fun more _ => by
                    simp only [if_neg hb, if_neg hoctal, hitem]; rfl⟩

/-- The text of a member of a class: a character, or an escape with its digits. -/
structure UnitText (u : ClassUnit) (text : List Char) : Prop where
  raw : (∃ c, c ≠ '\\' ∧ u.raw = [c] ∧ text = [c]) ∨
    ∃ c digits, u.raw = ['\\', c] ∧ text = '\\' :: c :: digits ∧
      ∀ d ∈ digits, isHexDigit d = true
  reads : ∀ more, (Starts isOctalDigit more → Starts isOctalDigit u.rest) →
    classUnit? (text ++ more) = some { u with rest := more }

/-- A member of a class that is no fault has a text of its own. -/
theorem exists_unitText {cs : List Char} {u : ClassUnit} (h : classUnit? cs = some u)
    {item : ClassItem} (hitem : u.item = .ok item) :
    ∃ text, cs = text ++ u.rest ∧ UnitText u text := by
  unfold classUnit? at h
  split at h
  · cases h
  · obtain rfl := Option.some.inj h
    cases hitem
  · rename_i c cs
    obtain rfl := Option.some.inj h
    obtain ⟨digits, hcs, hdigits, happend⟩ := classEscape_append (Prod.ext hitem rfl)
    refine ⟨'\\' :: c :: digits, congrArg ('\\' :: c :: ·) hcs, .inr ⟨c, digits, rfl, rfl, hdigits⟩,
      fun more hmore => ?_⟩
    have hagain := happend more hmore
    simp only [List.cons_append, classUnit?, hagain, ← hitem]
  · rename_i c cs hlast hescape
    obtain rfl := Option.some.inj h
    have hc : c ≠ '\\' := by
      rintro rfl
      cases cs with
      | nil => exact hlast rfl rfl
      | cons d cs => exact hescape d cs rfl rfl
    refine ⟨[c], rfl, .inl ⟨c, hc, rfl, rfl⟩, fun more _ => ?_⟩
    rw [List.singleton_append, classUnit?]
    · intro heq
      exact absurd heq hc
    · intro d ds heq
      exact absurd heq hc

end Token

/-! ### What the rewriting passes -/

/-- On its way through this text the rewriting goes from one state to another, and hands out the
plain text for it. -/
def Passes (before after : GroupScan) (text plain : List Char) : Prop :=
  ∀ more, withoutCapturesFrom before (text ++ more) =
    (withoutCapturesFrom after more).map (plain ++ ·)

theorem passes_nil (scan : GroupScan) : Passes scan scan [] [] := by
  intro more
  simp

theorem Passes.append {a b c : GroupScan} {text plain more morePlain : List Char}
    (h₁ : Passes a b text plain) (h₂ : Passes b c more morePlain) :
    Passes a c (text ++ more) (plain ++ morePlain) := by
  intro rest
  rw [List.append_assoc, h₁, h₂, Option.map_map]
  congr 1
  funext cs
  simp

/-- Outside of classes most characters are passed. -/
theorem passes_char {c : Char} (hescape : c ≠ '\\') (hclass : c ≠ '[') (hgroup : c ≠ '(') :
    Passes .outside .outside [c] [c] := by
  intro more
  rw [List.singleton_append, withoutCapturesFrom]
  · rfl
  all_goals simp [hescape, hclass, hgroup]

theorem passes_escape (c : Char) : Passes .outside .outside ['\\', c] ['\\', c] := by
  intro more
  rw [List.cons_append, List.singleton_append, withoutCapturesFrom]
  · rfl
  all_goals simp

theorem passes_classEscape (c : Char) : Passes .inClass .inClass ['\\', c] ['\\', c] := by
  intro more
  rw [List.cons_append, List.singleton_append, withoutCapturesFrom]
  · rfl
  all_goals simp

/-- In a class all characters are passed up to the closing bracket. -/
theorem passes_classChar {c : Char} (hescape : c ≠ '\\') (hclose : c ≠ ']') :
    Passes .inClass .inClass [c] [c] := by
  intro more
  rw [List.singleton_append, withoutCapturesFrom]
  · simp [hclose]
  all_goals simp [hescape]

theorem passes_classClose : Passes .inClass .outside [']'] [']'] := by
  intro more
  rw [List.singleton_append, withoutCapturesFrom]
  · rfl
  all_goals simp

/-- Text is passed when its characters are. -/
theorem passes_of_forall {scan : GroupScan} {text : List Char}
    (h : ∀ c ∈ text, Passes scan scan [c] [c]) : Passes scan scan text text := by
  induction text with
  | nil => exact passes_nil scan
  | cons c text ih =>
      exact (h c List.mem_cons_self).append (ih fun d hd => h d (List.mem_cons_of_mem c hd))

theorem passes_digits {digits : List Char} (h : ∀ d ∈ digits, Token.isHexDigit d = true) :
    Passes .outside .outside digits digits := by
  refine passes_of_forall fun d hd => passes_char ?_ ?_ ?_ <;>
    (rintro rfl; exact absurd (h _ hd) (by decide))

theorem passes_classDigits {digits : List Char} (h : ∀ d ∈ digits, Token.isHexDigit d = true) :
    Passes .inClass .inClass digits digits := by
  refine passes_of_forall fun d hd => passes_classChar ?_ ?_ <;>
    (rintro rfl; exact absurd (h _ hd) (by decide))

namespace Token

/-- A member of a class is passed, unless it is a bracket that might close the class. -/
theorem UnitText.passes {u : ClassUnit} {text : List Char} (h : UnitText u text)
    (hraw : u.raw ≠ [']']) : Passes .inClass .inClass text text := by
  rcases h.raw with ⟨c, hc, hu, rfl⟩ | ⟨c, digits, -, rfl, hdigits⟩
  · refine passes_classChar hc ?_
    rintro rfl
    exact hraw hu
  · exact (passes_classEscape c).append (passes_classDigits hdigits)

/-- The members of a class are read behind those that have been seen: the closing bracket, a dash in
front of it, a range, or one member. -/
inductive ClassReads : List ClassItem → List Char → List ClassItem → List Char → Prop where
  | close {seen : List ClassItem} {cs : List Char} {u : ClassUnit} (hu : classUnit? cs = some u)
      (hraw : u.raw = [']']) (hseen : seen ≠ []) : ClassReads seen cs seen.reverse u.rest
  | dash {seen : List ClassItem} {cs more : List Char} {u v : ClassUnit} {first : ClassItem}
      (hu : classUnit? cs = some u) (hopen : u.raw = [']'] → seen = []) (hfirst : u.item = .ok first)
      (hdash : u.rest = '-' :: more) (hv : classUnit? more = some v) (hraw : v.raw = [']']) :
      ClassReads seen cs (.single '-' :: first :: seen).reverse v.rest
  | range {seen items : List ClassItem} {cs more rest : List Char} {u v : ClassUnit}
      {low high : Char} (hu : classUnit? cs = some u) (hopen : u.raw = [']'] → seen = [])
      (hfirst : u.item = .ok (.single low)) (hdash : u.rest = '-' :: more)
      (hv : classUnit? more = some v) (hraw : v.raw ≠ [']']) (hsecond : v.item = .ok (.single high))
      (hle : ¬ high.toNat < low.toNat) (hrest : ClassReads (.range low high :: seen) v.rest items rest) :
      ClassReads seen cs items rest
  | member {seen items : List ClassItem} {cs rest : List Char} {u : ClassUnit} {first : ClassItem}
      (hu : classUnit? cs = some u) (hopen : u.raw = [']'] → seen = []) (hfirst : u.item = .ok first)
      (hdash : u.rest.head? ≠ some '-') (hrest : ClassReads (first :: seen) u.rest items rest) :
      ClassReads seen cs items rest

/-- A bracket that closes no class is no member of it but in the first place. -/
theorem closes_eq_false_iff {u : ClassUnit} {seen : List ClassItem} :
    (u.raw == [']'] && !seen.isEmpty) = false ↔ (u.raw = [']'] → seen = []) := by
  cases seen <;> simp

/-- What the reader of classes accepts. -/
theorem classReads_of_classItems {fuel total : Nat} {seen items : List ClassItem}
    {cs rest : List Char} (h : classItems fuel total seen cs = .ok (items, rest)) :
    ClassReads seen cs items rest := by
  induction fuel generalizing seen cs with
  | zero => cases h
  | succ fuel ih =>
      rw [classItems] at h
      split at h
      · cases h
      · rename_i u hu
        split at h
        · rename_i hclose
          obtain ⟨rfl, rfl⟩ := Prod.mk.inj (Except.ok.inj h)
          simp only [Bool.and_eq_true, beq_iff_eq, Bool.not_eq_true', List.isEmpty_eq_false_iff]
            at hclose
          exact .close hu hclose.1 hclose.2
        · rename_i hclose
          have hopen := closes_eq_false_iff.mp (Bool.eq_false_iff.mpr hclose)
          split at h
          · cases h
          · rename_i first hfirst
            split at h
            · rename_i more hdash
              split at h
              · cases h
              · rename_i v hv
                split at h
                · rename_i hraw
                  obtain ⟨rfl, rfl⟩ := Prod.mk.inj (Except.ok.inj h)
                  exact .dash hu hopen hfirst hdash hv (by simpa using hraw)
                · rename_i hraw
                  split at h
                  · cases h
                  · rename_i second hsecond
                    simp only at h
                    split at h
                    · split at h
                      · cases h
                      · rename_i hle
                        exact .range hu hopen hfirst hdash hv (by simpa using hraw) hsecond hle
                          (ih h)
                    · cases h
            · rename_i hdash
              refine .member hu hopen hfirst ?_ (ih h)
              intro hhead
              obtain ⟨more, hmore⟩ := List.head?_eq_some_iff.mp hhead
              exact hdash more hmore

theorem UnitText.length_pos {u : ClassUnit} {text : List Char} (h : UnitText u text) :
    0 < text.length := by
  rcases h.raw with ⟨c, -, -, rfl⟩ | ⟨c, digits, -, rfl, -⟩ <;> simp

/-- The reader of classes accepts it, given enough steps. -/
theorem classItems_of_classReads {seen items : List ClassItem} {cs rest : List Char}
    (h : ClassReads seen cs items rest) {fuel : Nat} (hfuel : cs.length < fuel) (total : Nat) :
    classItems fuel total seen cs = .ok (items, rest) := by
  have hshorter : ∀ {cs : List Char} {u : ClassUnit} {item : ClassItem},
      classUnit? cs = some u → u.item = .ok item → u.rest.length < cs.length := by
    intro cs u item hu hitem
    obtain ⟨text, rfl, htext⟩ := exists_unitText hu hitem
    have := htext.length_pos
    rw [List.length_append]
    omega
  induction h generalizing fuel with
  | close hu hraw hseen =>
      cases fuel with
      | zero => omega
      | succ fuel =>
          rw [classItems, hu]
          simp [hraw, hseen]
  | dash hu hopen hfirst hdash hv hraw =>
      cases fuel with
      | zero => omega
      | succ fuel =>
          rw [classItems, hu]
          simp only [closes_eq_false_iff.mpr hopen, hfirst, hdash, hv, hraw]
          simp
  | range hu hopen hfirst hdash hv hraw hsecond hle _ ih =>
      cases fuel with
      | zero => omega
      | succ fuel =>
          have hlength := hshorter hu hfirst
          rw [hdash, List.length_cons] at hlength
          have hless := hshorter hv hsecond
          rw [classItems, hu]
          simp only [closes_eq_false_iff.mpr hopen, hfirst, hdash, hv, hsecond]
          simp only [Bool.false_eq_true, if_false, beq_iff_eq, hraw, hle]
          exact ih (by omega)
  | @member seen items cs rest u first hu hopen hfirst hdash _ ih =>
      cases fuel with
      | zero => omega
      | succ fuel =>
          have hlength := hshorter hu hfirst
          rw [classItems, hu]
          simp only [closes_eq_false_iff.mpr hopen, hfirst]
          simp only [Bool.false_eq_true, if_false]
          split
          · rename_i more heq
            exact absurd (by rw [heq]; rfl) hdash
          · exact ih (by omega)

/-- The text of the members of a class, behind those that have been seen, with its closing
bracket. A bracket in the first place closes nothing. -/
structure ClassText (seen items : List ClassItem) (text : List Char) : Prop where
  ends : ∃ front, text = front ++ [']']
  reads : ∀ more, ClassReads seen (text ++ more) items more
  passes : seen ≠ [] ∨ text.head? ≠ some ']' → Passes .inClass .outside text text
  passesTail : seen = [] → ∀ tail, text = ']' :: tail → Passes .inClass .outside tail tail

/-- A member in front of the text of a class. -/
theorem ClassText.of_unit {u : ClassUnit} {seen items : List ClassItem} {text tail : List Char}
    (hu : UnitText u text) (hopen : u.raw = [']'] → seen = []) (hends : ∃ front, tail = front ++ [']'])
    (hpasses : Passes .inClass .outside tail tail)
    (hreads : ∀ more, ClassReads seen (text ++ (tail ++ more)) items more) :
    ClassText seen items (text ++ tail) := by
  obtain ⟨front, rfl⟩ := hends
  refine ⟨⟨text ++ front, by simp⟩, fun more => ?_, fun hfirst => ?_, fun hseen tail heq => ?_⟩
  · rw [List.append_assoc]
    exact hreads more
  · refine (hu.passes fun hraw => ?_).append hpasses
    rcases hu.raw with ⟨c, -, hc, rfl⟩ | ⟨c, digits, hc, -⟩
    · obtain rfl : c = ']' := by simpa [hc] using hraw
      rcases hfirst with hseen | hhead
      · exact hseen (hopen hraw)
      · exact hhead rfl
    · rw [hc] at hraw
      cases hraw
  · rcases hu.raw with ⟨c, hne, hc, rfl⟩ | ⟨c, digits, hc, rfl, -⟩
    · obtain ⟨rfl, rfl⟩ := List.cons.inj heq
      exact hpasses
    · cases (List.cons.inj heq).1

/-- A member that is a bracket. -/
theorem eq_of_raw_eq_bracket {cs : List Char} {u : ClassUnit} (hu : classUnit? cs = some u)
    (hraw : u.raw = [']']) : cs = ']' :: u.rest := by
  unfold classUnit? at hu
  split at hu
  · cases hu
  · obtain rfl := Option.some.inj hu
    cases hraw
  · obtain rfl := Option.some.inj hu
    cases hraw
  · obtain rfl := Option.some.inj hu
    obtain ⟨rfl, -⟩ := List.cons.inj hraw
    rfl

/-- What stands at the front of a class text starts what is in front of anything else, too. -/
theorem ClassText.head?_append {seen items : List ClassItem} {text : List Char}
    (h : ClassText seen items text) (more : List Char) : (text ++ more).head? = text.head? := by
  obtain ⟨front, rfl⟩ := h.ends
  cases front <;> rfl

theorem ClassText.starts_append {seen items : List ClassItem} {text : List Char}
    (h : ClassText seen items text) {p : Char → Bool} {more rest : List Char}
    (hmore : Starts p (text ++ more)) : Starts p (text ++ rest) := by
  obtain ⟨front, rfl⟩ := h.ends
  cases front with
  | nil => exact starts_cons.mpr (starts_cons.mp hmore)
  | cons c front => exact starts_cons.mpr (starts_cons.mp hmore)

/-- **The members of a class** that is read without fault have a text of their own. -/
theorem exists_classText {seen items : List ClassItem} {cs rest : List Char}
    (h : ClassReads seen cs items rest) : ∃ text, cs = text ++ rest ∧ ClassText seen items text := by
  -- a dash is no octal digit, so that an escape in front of it is complete
  have hdigit : ∀ {more rest : List Char}, Starts isOctalDigit ('-' :: more) →
      Starts isOctalDigit rest := by
    intro more rest hstarts
    exact absurd (starts_cons.mp hstarts) (by decide)
  have hpass : Passes .inClass .inClass ['-'] ['-'] := passes_classChar (by decide) (by decide)
  induction h with
  | @close seen cs u hu hraw hseen =>
      refine ⟨[']'], eq_of_raw_eq_bracket hu hraw, ⟨[], rfl⟩, fun more => ?_,
        fun _ => passes_classClose, fun hnil => absurd hnil hseen⟩
      exact @ClassReads.close seen (']' :: more) ⟨[']'], .ok (.single ']'), more⟩ rfl rfl hseen
  | @dash seen cs more u v first hu hopen hfirst hdash hv hraw =>
      obtain ⟨text, rfl, htext⟩ := exists_unitText hu hfirst
      refine ⟨text ++ ['-', ']'], by rw [hdash, eq_of_raw_eq_bracket hv hraw]; simp, ?_⟩
      refine .of_unit htext hopen ⟨['-'], rfl⟩ (hpass.append passes_classClose) fun more => ?_
      exact @ClassReads.dash seen _ (']' :: more) _ ⟨[']'], .ok (.single ']'), more⟩ first
        (htext.reads _ hdigit) hopen hfirst rfl rfl rfl
  | @range seen items cs more rest u v low high hu hopen hfirst hdash hv hraw hsecond hle _ ih =>
      obtain ⟨text, rfl, htext⟩ := exists_unitText hu hfirst
      obtain ⟨text', rfl, htext'⟩ := exists_unitText hv hsecond
      obtain ⟨tail, htail, hclass⟩ := ih
      refine ⟨text ++ ('-' :: (text' ++ tail)), by rw [hdash, htail]; simp, ?_⟩
      obtain ⟨front, hends⟩ := hclass.ends
      refine .of_unit htext hopen ⟨'-' :: (text' ++ front), by simp [hends]⟩
        (hpass.append ((htext'.passes hraw).append (hclass.passes (.inl (by simp)))))
        fun more => ?_
      have hinner : classUnit? (text' ++ (tail ++ more)) = some { v with rest := tail ++ more } :=
        htext'.reads _ fun hstarts => htail ▸ hclass.starts_append hstarts
      rw [List.cons_append, List.append_assoc]
      exact .range (htext.reads _ hdigit) hopen hfirst rfl hinner hraw hsecond hle
        (hclass.reads more)
  | @member seen items cs rest u first hu hopen hfirst hdash _ ih =>
      obtain ⟨text, rfl, htext⟩ := exists_unitText hu hfirst
      obtain ⟨tail, htail, hclass⟩ := ih
      refine ⟨text ++ tail, by rw [htail, List.append_assoc], ?_⟩
      refine .of_unit htext hopen hclass.ends (hclass.passes (.inl (by simp))) fun more => ?_
      refine .member (htext.reads _ fun hstarts => htail ▸ hclass.starts_append hstarts) hopen hfirst
        ?_ (hclass.reads more)
      rw [htail, hclass.head?_append] at hdash
      rwa [hclass.head?_append]

/-- The mark of a negated class. -/
def classMark (negated : Bool) : List Char := if negated then ['^'] else []

/-- A class is passed from its opening bracket to its closing one. A bracket in the first place is
taken together with the opening one. -/
theorem ClassText.passes_class {items : List ClassItem} {text : List Char}
    (h : ClassText [] items text) {negated : Bool} (hmark : negated = false → text.head? ≠ some '^') :
    Passes .outside .outside ('[' :: (classMark negated ++ text))
      ('[' :: (classMark negated ++ text)) := by
  intro more
  obtain ⟨front, hends⟩ := h.ends
  cases text with
  | nil => simp at hends
  | cons c tail =>
      by_cases hc : c = ']'
      · subst hc
        have htail := h.passesTail rfl tail rfl more
        cases negated with
        | true =>
            rw [classMark, if_pos rfl]
            simp only [List.cons_append, List.nil_append]
            rw [withoutCapturesFrom, htail, Option.map_map]
            rfl
        | false =>
            rw [classMark, if_neg (by simp)]
            simp only [List.cons_append, List.nil_append]
            rw [withoutCapturesFrom, htail, Option.map_map]
            rfl
      · have hall := h.passes (.inr (by simpa using hc)) more
        rw [List.cons_append] at hall
        cases negated with
        | true =>
            rw [classMark, if_pos rfl]
            simp only [List.cons_append, List.nil_append]
            rw [withoutCapturesFrom, hall, Option.map_map]
            · rfl
            · simp [hc]
        | false =>
            have hcaret : c ≠ '^' := by simpa using hmark rfl
            rw [classMark, if_neg (by simp)]
            simp only [List.cons_append, List.nil_append]
            rw [withoutCapturesFrom, hall, Option.map_map]
            · rfl
            all_goals simp [hc, hcaret]

/-- A class is its mark and its members. -/
theorem readClass_eq {body : List Char} {negated : Bool}
    (hmark : negated = false → body.head? ≠ some '^') :
    ∃ total, readClass (classMark negated ++ body) =
      match classItems (body.length + 1) total [] body with
      | .ok (items, rest) => (.set negated items, rest)
      | .error (cause, offset) => (.fault cause offset, []) := by
  cases negated with
  | true => exact ⟨_, rfl⟩
  | false =>
      refine ⟨body.length + 1, ?_⟩
      rw [classMark, if_neg (by simp), List.nil_append, readClass.eq_def]
      split
      rename_i negated' body' heq
      split at heq
      · exact absurd rfl (hmark rfl)
      · obtain ⟨rfl, rfl⟩ := Prod.mk.inj heq
        rfl

/-- **A class** has a text that ends with its closing bracket. It is read as the same token whatever
follows, and passed as it is. -/
theorem exists_readClass_text {cs rest : List Char} {token : Token}
    (h : readClass cs = (token, rest)) (hembeds : token.embeds = true) :
    ∃ text, cs = text ++ rest ∧ (∃ front, text = front ++ [']']) ∧
      (∀ more, readClass (text ++ more) = (token, more)) ∧
      Passes .outside .outside ('[' :: text) ('[' :: text) := by
  obtain ⟨negated, body, rfl, hmark⟩ : ∃ negated body, cs = classMark negated ++ body ∧
      (negated = false → body.head? ≠ some '^') := by
    cases cs with
    | nil => exact ⟨false, [], rfl, nofun⟩
    | cons c cs =>
        by_cases hc : c = '^'
        · subst hc
          exact ⟨true, cs, rfl, nofun⟩
        · exact ⟨false, c :: cs, rfl, fun _ => by simpa using hc⟩
  obtain ⟨total, heq⟩ := readClass_eq hmark
  rw [heq] at h
  split at h
  · rename_i items rest' hitems
    obtain ⟨rfl, rfl⟩ := Prod.mk.inj h
    obtain ⟨text, rfl, hclass⟩ := exists_classText (classReads_of_classItems hitems)
    rw [hclass.head?_append] at hmark
    obtain ⟨front, hends⟩ := hclass.ends
    refine ⟨classMark negated ++ text, (List.append_assoc _ _ _).symm,
      ⟨classMark negated ++ front, by rw [hends, List.append_assoc]⟩, fun more => ?_,
      hclass.passes_class hmark⟩
    have hmore : negated = false → (text ++ more).head? ≠ some '^' := by
      rw [hclass.head?_append]
      exact hmark
    obtain ⟨total, heq⟩ := readClass_eq hmore
    rw [List.append_assoc, heq,
      classItems_of_classReads (hclass.reads more) (Nat.lt_succ_self _) total]
  · obtain ⟨rfl, -⟩ := Prod.mk.inj h
    cases hembeds

end Token

end Switchboard.Pattern
