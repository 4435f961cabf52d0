import Switchboard.Proofs.Pattern.Anchors
import Switchboard.Proofs.Pattern.Moves
import Switchboard.Proofs.Pattern.References
import Switchboard.Pattern.Basic

/-!
# The Tokens of a Fragment

A pattern text is a row of chunks (`Rows`), one for each of its tokens, and the plain text of the row
is what the rewriting makes of it. Then modes at the start, a caret behind them and a dollar at the end
are dropped from the plain text. These are dropped as characters; here they are tokens of the row,
since the start of a text shows its first token, and the backslashes in front of its last character
come in pairs.

What is left is the row of the tokens of the body. The groups that are open along a row are kept as a
list that tells whether text is verbose in them, since that decides what the next token is.

## Main results

* `exists_rows`: the row of a pattern text that is read.
* `Rows.scanFrom_eq`: the plain text of a row is cut into its plain tokens, wherever it stands.
* `Rows.withoutModes_eq`, `Rows.withoutCaret_eq`, `Rows.withoutDollar_eq`: what is dropped.
* `Embeddable.exists_row`: the row that a fragment is made of.
-/

namespace Switchboard.Pattern

/-! ### Rows of chunks -/

/-- The text is a row of chunks with these tokens, in front of `next`, and the plain text is the row
of their plain texts. `verbose` tells for the open groups whether text is verbose in them; some group
is open at every token. -/
inductive Rows : List Bool → List Char → List Char → List Token → List Char → Prop where
  | nil {verbose : List Bool} {next : List Char} : Rows verbose [] [] [] next
  | cons {verbose : List Bool} {text plain texts plains next : List Char} {token : Token}
      {tokens : List Token} (hopen : verbose ≠ [])
      (hchunk : Token.Chunk (verbose.headD false) text plain token (texts ++ next))
      (hrest : Rows (token.nesting verbose) texts plains tokens next) :
      Rows verbose (text ++ texts) (plain ++ plains) (token :: tokens) next

theorem Token.Chunk.length_pos {verbose : Bool} {text plain next : List Char} {token : Token}
    (h : Chunk verbose text plain token next) : 0 < plain.length :=
  List.length_pos_of_ne_nil h.ends.ne_nil

/-- A token and the plain token for it nest alike. -/
theorem Token.nesting_plain (verbose : List Bool) (token : Token) :
    token.plain.nesting verbose = token.nesting verbose := by
  cases token <;> simp [Token.plain, Token.nesting]

/-- What is around the open groups does not matter to a token. -/
theorem Token.nesting_append {verbose : List Bool} (h : verbose ≠ []) (around : List Bool)
    (token : Token) : token.nesting (verbose ++ around) = token.nesting verbose ++ around := by
  cases verbose with
  | nil => exact absurd rfl h
  | cons b verbose => cases token <;> rfl

namespace Rows

variable {verbose : List Bool} {text plain next : List Char} {tokens : List Token}

/-- The followers in front of the plain text are those in front of the text. -/
theorem followers_eq (h : Rows verbose text plain tokens next) {more : List Char}
    (hmore : followers more = followers next) :
    followers (plain ++ more) = followers (text ++ next) := by
  induction h with
  | nil => exact hmore
  | cons _ hchunk _ ih =>
      rw [List.append_assoc, List.append_assoc]
      exact hchunk.followers_eq _ _ (ih hmore)

/-- The rewriting turns the text into the plain text. -/
theorem withoutCaptures_eq (h : Rows verbose text plain tokens []) :
    withoutCaptures text = some plain := by
  have hall : ∀ {verbose text plain tokens next}, Rows verbose text plain tokens next →
      withoutCapturesFrom .outside (text ++ next) =
        (withoutCapturesFrom .outside next).map (plain ++ ·) := by
    intro verbose text plain tokens next h
    induction h with
    | nil => simp
    | cons _ hchunk _ ih =>
        rw [List.append_assoc, hchunk.passes _ rfl, ih, Option.map_map]
        congr 1
        funext cs
        simp
  have htext := hall h
  have hend : withoutCapturesFrom .outside [] = some [] := rfl
  rwa [List.append_nil, hend, Option.map_some, List.append_nil] at htext

/-- A row is cut where its tokens are. -/
theorem split {first second : List Token} (h : Rows verbose text plain (first ++ second) next) :
    ∃ text₁ text₂ plain₁ plain₂, text = text₁ ++ text₂ ∧ plain = plain₁ ++ plain₂ ∧
      Rows verbose text₁ plain₁ first (text₂ ++ next) ∧
      Rows (first.foldl Token.nesting verbose) text₂ plain₂ second next := by
  induction first generalizing verbose text plain with
  | nil => exact ⟨[], text, [], plain, rfl, rfl, .nil, h⟩
  | cons token first ih =>
      cases h with
      | cons hopen hchunk hrest =>
          rename_i front front' texts plains
          obtain ⟨text₁, text₂, plain₁, plain₂, rfl, rfl, hfirst, hsecond⟩ := ih hrest
          rw [List.append_assoc] at hchunk
          exact ⟨front ++ text₁, text₂, front' ++ plain₁, plain₂, (List.append_assoc _ _ _).symm,
            (List.append_assoc _ _ _).symm, .cons hopen hchunk hfirst, hsecond⟩

/-- **Reading a row.** Where the plain text of a row stands in another text it is cut into the plain
tokens of the row. -/
theorem scanFrom_eq (h : Rows verbose text plain tokens next) (around : List Bool)
    {rest : List Char} (hrest : followers rest = followers next) (fuel place : Nat)
    (hfuel : (plain ++ rest).length ≤ fuel) :
    ∃ spots fuel' place',
      scanFrom fuel (verbose ++ around) place (plain ++ rest) =
        spots ++ scanFrom fuel' (tokens.foldl Token.nesting verbose ++ around) place' rest ∧
      spots.map (·.token) = tokens.map Token.plain ∧ rest.length ≤ fuel' := by
  induction h generalizing fuel place with
  | nil => exact ⟨[], fuel, place, rfl, rfl, hfuel⟩
  | @cons verbose text plain texts plains next token tokens hopen hchunk hrow ih =>
      have hread := hchunk.reads (plains ++ rest) (hrow.followers_eq hrest)
      rw [List.append_assoc] at hfuel ⊢
      cases hplain : plain ++ (plains ++ rest) with
      | nil =>
          rw [hplain] at hread
          cases hread
      | cons c cs =>
          rw [hplain] at hread hfuel
          have hhead : (verbose ++ around).headD false = verbose.headD false := by
            cases verbose with
            | nil => exact absurd rfl hopen
            | cons b verbose => rfl
          have hpos := hchunk.length_pos
          have hlength := congrArg List.length hplain
          rw [List.length_append] at hlength
          cases fuel with
          | zero => simp at hfuel
          | succ fuel =>
              obtain ⟨spots, fuel', place', hscan, htokens, hfuel'⟩ := ih hrest fuel _ (by omega)
              refine ⟨⟨place, token.plain⟩ :: spots, fuel', place', ?_, ?_, hfuel'⟩
              · rw [scanFrom, hhead]
                simp only [Token.first?, Option.some.injEq] at hread
                simp only [hread, Token.nesting_plain, Token.nesting_append hopen]
                rw [hscan]
                rfl
              · rw [List.map_cons, List.map_cons, htokens]

end Rows

/-! ### The row of a pattern text -/

/-- A run does not get past a fault. -/
theorem Assembly.hasChunk_of_run {a a' : Assembly} {spots : List Spot} (hrun : a.run spots = .ok a') :
    ∀ spot ∈ spots, spot.token.hasChunk = true := by
  induction spots generalizing a with
  | nil => simp
  | cons spot spots ih =>
      obtain ⟨next, hstep, hrest⟩ := run_cons_eq_ok_iff.mp hrun
      refine List.forall_mem_cons.mpr ⟨?_, ih hrest⟩
      cases htoken : spot.token with
      | fault cause offset =>
          simp only [step, htoken] at hstep
          cases hstep
      | _ => rfl

/-- **The row of a pattern text** whose comments are tame, when it is read without a fault. -/
theorem exists_rows (source : List Char) {fuel : Nat} (place : Nat) {verbose : List Bool}
    {cs : List Char} {a a' : Assembly} (hplace : source.drop place = cs) (hfuel : cs.length ≤ fuel)
    (hlength : verbose.length = a.outer.length + 1)
    (hrun : a.run (scanFrom fuel verbose place cs) = .ok a')
    (htame : ∀ spot ∈ scanFrom fuel verbose place cs, spot.token = .skipped ∨ spot.token = .comment →
      Token.IsTame (source.drop spot.place)) :
    ∃ plain, Rows verbose cs plain ((scanFrom fuel verbose place cs).map (·.token)) [] := by
  induction fuel generalizing place verbose cs a with
  | zero =>
      obtain rfl : cs = [] := List.eq_nil_of_length_eq_zero (by omega)
      exact ⟨[], .nil⟩
  | succ fuel ih =>
      cases cs with
      | nil => exact ⟨[], .nil⟩
      | cons c cs =>
          rcases hread : Token.read (verbose.headD false) c cs with ⟨token, rest⟩
          rw [scanFrom, hread] at hrun htame ⊢
          obtain ⟨b, hstep, hrest⟩ := Assembly.run_cons_eq_ok_iff.mp hrun
          obtain ⟨hfirst, hothers⟩ := List.forall_mem_cons.mp htame
          obtain ⟨text, plain, htext, hchunk⟩ := Token.exists_chunk hread
            (Assembly.hasChunk_of_run hrun _ List.mem_cons_self) fun h => hplace ▸ hfirst h
          have hopen : verbose ≠ [] := by
            rintro rfl
            simp at hlength
          have htaken : cs.length + 1 - rest.length = text.length := by
            have := congrArg List.length htext
            simp only [List.length_cons, List.length_append] at this
            omega
          have hleft : source.drop (place + text.length) = rest := by
            rw [← List.drop_drop, hplace, htext, List.drop_left]
          have hshort : rest.length ≤ fuel := by
            have := List.length_pos_of_ne_nil hchunk.ne_nil
            simp only [List.length_cons] at hfuel
            omega
          obtain ⟨plains, hrow⟩ := ih _ (htaken ▸ hleft) hshort
            (Assembly.length_nesting_of_step hstep hlength) hrest hothers
          refine ⟨plain ++ plains, ?_⟩
          rw [List.map_cons, htext]
          exact .cons hopen (by rwa [List.append_nil]) hrow

/-! ### Modes at the start -/

namespace Token

/-- Whether a token sets modes for the whole pattern. -/
def isModes : Token → Bool
  | .modes _ => true
  | _ => false

theorem isModes_plain (token : Token) : token.plain.isModes = token.isModes := by
  cases token <;> rfl

/-- Only what opens a capturing group is another token in a fragment. -/
theorem eq_of_plain_eq {token token' : Token} (h : token.plain = token')
    (hopen : ∀ change, token' ≠ .openPlain change) : token = token' := by
  cases token <;> first | exact h | exact absurd h.symm (hopen _)

theorem isModeLetter_of_mode {c : Char} (h : c = 'u' ∨ (Modes.ofLetter? c).isSome) :
    isModeLetter c = true := by
  rcases h with rfl | h
  · rfl
  · simp [isModeLetter, h]

/-- Where modes are read, the rewriting sees them. -/
theorem afterModes?_of_read {verbose : Bool} {c : Char} {cs rest : List Char} {change : ModeChange}
    (h : read verbose c cs = (.modes change, rest)) : afterModes? (c :: cs) = some rest := by
  obtain ⟨more, rfl, rfl, hmodes⟩ := eq_of_read_modes h
  unfold readModes at hmodes
  split at hmodes
  · cases hmodes
  · rename_i hon
    obtain ⟨letters, rfl, hletters, -, -⟩ := modesOn_append hon
    split at hmodes
    · rename_i hclosing
      obtain rfl := by simpa using hclosing
      obtain ⟨-, rfl⟩ := Prod.mk.inj hmodes
      have hmodes : ∀ c ∈ letters, isModeLetter c = true :=
        fun c hc => isModeLetter_of_mode (hletters c hc)
      cases letters with
      | nil => cases verbose <;> cases h
      | cons letter letters =>
          unfold afterModes?
          simp only [span_of_forall hmodes (show isModeLetter ')' = false from rfl)]
    · split at hmodes
      · cases hmodes
      · split at hmodes
        · cases hmodes
        · split at hmodes <;> cases hmodes

/-- Letters of modes up to a closing parenthesis are read as modes, or not at all. -/
theorem modesOn_of_letters {letters : List Char} (h : ∀ c ∈ letters, isModeLetter c = true)
    (change : ModeChange) (offset : Nat) (rest : List Char) :
    (∃ fault, modesOn change offset (letters ++ ')' :: rest) = .error fault) ∨
      ∃ change' offset', modesOn change offset (letters ++ ')' :: rest) =
        .ok (change', ')', offset', rest) := by
  induction letters generalizing change offset with
  | nil => exact .inr ⟨change, offset + 1, rfl⟩
  | cons c letters ih =>
      have hc : ¬ (c == ')' || c == ':' || c == '-') = true := by
        have hletter := h c List.mem_cons_self
        intro hclosing
        simp only [Bool.or_eq_true, beq_iff_eq, or_assoc] at hclosing
        rcases hclosing with rfl | rfl | rfl <;> cases hletter
      rw [List.cons_append, modesOn, if_neg hc]
      split
      · exact .inl ⟨_, rfl⟩
      · split
        · exact .inl ⟨_, rfl⟩
        · split
          · exact .inl ⟨_, rfl⟩
          · exact ih (fun d hd => h d (List.mem_cons_of_mem c hd)) _ _

/-- Where the rewriting sees modes, they are read, or nothing is. -/
theorem isModes_of_afterModes? {verbose : Bool} {cs left rest : List Char} {token : Token}
    (h : afterModes? cs = some left) (hread : first? verbose cs = some (token, rest)) :
    token.isModes = true ∨ ∃ cause offset, token = .fault cause offset := by
  unfold afterModes? at h
  split at h
  · rename_i cs
    split at h
    · rename_i letter letters left' htake hdrop
      have hcs : cs = letter :: letters ++ ')' :: left' := by
        rw [← htake, ← hdrop, List.takeWhile_append_dropWhile]
      have hletters : ∀ c ∈ letter :: letters, isModeLetter c = true := by
        intro c hc
        rw [← htake] at hc
        exact List.mem_takeWhile_imp hc
      have hmode : (letter == '-' || letter == 'u' || letter == 'L'
          || (Modes.ofLetter? letter).isSome) = true := by
        have := hletters letter List.mem_cons_self
        simp only [isModeLetter, Bool.or_eq_true] at this ⊢
        tauto
      rw [first?_opening, hcs, List.cons_append, readOpening_of_mode hmode, ← List.cons_append,
        readModes] at hread
      rcases modesOn_of_letters hletters {} 2 left' with ⟨⟨cause, offset⟩, herror⟩ |
        ⟨change, offset, hok⟩
      · rw [herror] at hread
        obtain ⟨rfl, -⟩ := Prod.mk.inj (Option.some.inj hread)
        exact .inr ⟨_, _, rfl⟩
      · rw [hok] at hread
        obtain ⟨rfl, -⟩ := Prod.mk.inj (Option.some.inj hread)
        exact .inl rfl
    · cases h
  · cases h

end Token

namespace Rows

variable {verbose : List Bool} {text plain next : List Char} {tokens : List Token}

/-- A row of no tokens is empty. -/
theorem eq_nil (h : Rows verbose text plain [] next) : plain = [] := by
  cases h
  rfl

/-- The plain text of a row of one token ends as that of a chunk does. -/
theorem ends {token : Token} (h : Rows verbose text plain [token] next) : Token.Ends plain := by
  cases h with
  | cons _ hchunk hrest =>
      rw [hrest.eq_nil, List.append_nil]
      exact hchunk.ends

/-- At the start of the plain text the first plain token is read. -/
theorem exists_first? {token : Token} (h : Rows verbose text plain (token :: tokens) next) :
    ∃ rest, Token.first? (verbose.headD false) (plain ++ next) = some (token.plain, rest) := by
  cases h with
  | cons _ hchunk hrest =>
      rw [List.append_assoc]
      exact ⟨_, hchunk.reads _ (hrest.followers_eq rfl)⟩

/-- What is read at the start of the plain text is the first token, unless it opens a group. -/
theorem eq_of_first? {token token' : Token} {rest : List Char}
    (h : Rows verbose text plain (token :: tokens) next)
    (hread : Token.first? (verbose.headD false) (plain ++ next) = some (token', rest))
    (hopen : ∀ change, token' ≠ .openPlain change) : token = token' := by
  obtain ⟨_, hfirst⟩ := h.exists_first?
  exact Token.eq_of_plain_eq (Prod.mk.inj (Option.some.inj (hfirst.symm.trans hread))).1 hopen

/-- Where the first token sets no modes, the rewriting sees none. -/
theorem afterModes?_eq_none (h : Rows verbose text plain tokens [])
    (htokens : ∀ token ∈ tokens.head?, token.isModes = false ∧ token.hasChunk = true) :
    afterModes? plain = none := by
  cases tokens with
  | nil =>
      rw [h.eq_nil]
      rfl
  | cons token tokens =>
      obtain ⟨rest, hread⟩ := h.exists_first?
      rw [List.append_nil] at hread
      obtain ⟨hmodes, hfault⟩ := htokens token rfl
      by_contra hsome
      obtain ⟨left, hleft⟩ := Option.ne_none_iff_exists'.mp hsome
      rcases Token.isModes_of_afterModes? hleft hread with htoken | ⟨_, _, htoken⟩
      · rw [Token.isModes_plain, hmodes] at htoken
        cases htoken
      · rw [← Token.hasChunk_plain, htoken] at hfault
        cases hfault

/-- **The modes at the start** of a row are dropped, and nothing else is. -/
theorem withoutModes_eq {front body : List Token} (h : Rows verbose text plain (front ++ body) [])
    (hfront : ∀ token ∈ front, token.isModes = true)
    (hbody : ∀ token ∈ body.head?, token.isModes = false ∧ token.hasChunk = true) :
    ∃ text', Rows (front.foldl Token.nesting verbose) text' (withoutModes plain) body [] := by
  -- the induction is on the modes; each takes a character at least, and so the fuel lasts
  have hall : ∀ n, plain.length ≤ n → ∃ text',
      Rows (front.foldl Token.nesting verbose) text' (withoutModesFrom n plain) body [] := by
    induction front generalizing verbose text plain with
    | nil =>
        intro n hn
        refine ⟨text, ?_⟩
        cases n with
        | zero => exact h
        | succ n =>
            rw [withoutModesFrom, h.afterModes?_eq_none hbody]
            exact h
    | cons token front ih =>
        intro n hn
        obtain ⟨hmodes, hmore⟩ := List.forall_mem_cons.mp hfront
        cases h with
        | @cons _ _ first _ plains _ _ _ _ hchunk hrest =>
            have hread := hchunk.reads plains
              (by simpa using hrest.followers_eq (Eq.refl (followers [])))
            cases token with
            | modes change =>
                cases first with
                | nil => exact absurd hchunk.length_pos (by simp)
                | cons c first =>
                    have hafter : afterModes? (c :: (first ++ plains)) = some plains :=
                      Token.afterModes?_of_read (Option.some.inj hread)
                    cases n with
                    | zero => simp at hn
                    | succ n =>
                        rw [List.cons_append, withoutModesFrom, hafter]
                        refine ih hrest hmore n ?_
                        simp only [List.length_append, List.length_cons] at hn
                        omega
            | _ => cases hmodes
  exact hall plain.length le_rfl

/-- **The caret at the start** of a row is dropped. -/
theorem withoutCaret_eq (h : Rows verbose text plain (.caret :: tokens) next) :
    ∃ text', Rows verbose text' (withoutCaret plain) tokens next := by
  cases h with
  | @cons _ _ first texts plains _ _ _ _ hchunk hrest =>
      have hread := hchunk.reads _ (hrest.followers_eq rfl)
      cases first with
      | nil => exact absurd hchunk.length_pos (by simp)
      | cons c first =>
          obtain ⟨rfl, hcs⟩ := Token.eq_of_read_caret (Option.some.inj hread)
          obtain rfl : first = [] := by simpa using hcs
          exact ⟨texts, hrest⟩

/-- A row that does not start with the token of a caret does not start with the character. -/
theorem withoutCaret_eq_self (h : Rows verbose text plain tokens next)
    (hcaret : tokens.head? ≠ some .caret) : withoutCaret plain = plain := by
  unfold withoutCaret
  split
  · rename_i cs
    cases tokens with
    | nil => cases h.eq_nil
    | cons token tokens =>
        have hread : Token.first? (verbose.headD false) ('^' :: cs ++ next) =
            some (.caret, cs ++ next) := by
          cases verbose.headD false <;> rfl
        exact absurd (congrArg some (h.eq_of_first? hread (by simp))) hcaret
  · rfl

/-- A row that does not start with a repetition does not start with a question mark. -/
theorem head?_ne (h : Rows verbose text plain tokens next)
    (hquantifier : ∀ min max lazy, tokens.head? ≠ some (.quantifier min max lazy)) :
    plain.head? ≠ some '?' := by
  intro hhead
  obtain ⟨cs, rfl⟩ := List.head?_eq_some_iff.mp hhead
  cases tokens with
  | nil => cases h.eq_nil
  | cons token tokens =>
      have hread : Token.first? (verbose.headD false) ('?' :: cs ++ next) =
          some (Token.readQuantifier 0 (some 1) (cs ++ next)) := by
        cases verbose.headD false <;> rfl
      exact absurd (congrArg some (h.eq_of_first? hread (by simp))) (hquantifier _ _ _)

/-- The backslashes at the end of a row come in pairs. -/
theorem even_backslashes (h : Rows verbose text plain tokens next) (front : List Char)
    (hfront : leadingBackslashes front.reverse % 2 = 0) :
    leadingBackslashes (front ++ plain).reverse % 2 = 0 := by
  induction h generalizing front with
  | nil => rwa [List.append_nil]
  | cons _ hchunk _ ih =>
      rw [← List.append_assoc]
      refine ih _ ?_
      rw [List.reverse_append]
      rcases hchunk.ends with _ | d | ⟨init, -, hd⟩
      · rfl
      · by_cases hd : d = '\\'
        · subst hd
          change (leadingBackslashes front.reverse + 1 + 1) % 2 = 0
          omega
        · simp [leadingBackslashes_cons, hd]
      · simp [leadingBackslashes_cons, hd]

/-- **The dollar at the end** of a row is dropped. -/
theorem withoutDollar_eq (h : Rows verbose text plain tokens []) :
    ∃ text' tokens' next', Rows verbose text' (withoutDollar plain) tokens' next' ∧
      followers next' = [] ∧ (tokens = tokens' ∨ tokens = tokens' ++ [.dollar]) := by
  rcases List.eq_nil_or_concat tokens with rfl | ⟨front, last, rfl⟩
  · cases h
    exact ⟨[], [], [], .nil, rfl, .inl rfl⟩
  · rw [List.concat_eq_append] at h ⊢
    obtain ⟨text₁, text₂, plain₁, plain₂, rfl, rfl, hfront, hlast⟩ := h.split
    have heven := even_backslashes hfront [] rfl
    rw [List.nil_append] at heven
    rcases hlast.ends with _ | d | @⟨init, d, hd, -⟩
    · have hdollar : Token.first? ((front.foldl Token.nesting verbose).headD false) ['$'] =
          some (.dollar, []) := by
        cases (front.foldl Token.nesting verbose).headD false <;> rfl
      obtain rfl := hlast.eq_of_first? hdollar (by simp)
      have hnext : followers ['$'] = followers (text₂ ++ []) :=
        hlast.followers_eq (Eq.refl (followers []))
      exact ⟨_, front, _, by rwa [withoutDollar_concat, if_pos ⟨rfl, heven⟩], hnext.symm, .inr rfl⟩
    · exact ⟨_, front ++ [last], [], by rwa [withoutDollar_escape heven], rfl, .inl rfl⟩
    · have hstays : withoutDollar (plain₁ ++ (init ++ [d])) = plain₁ ++ (init ++ [d]) := by
        rw [← List.append_assoc, withoutDollar_concat, if_neg fun hdollar => hd hdollar.1]
      exact ⟨_, front ++ [last], [], by rwa [hstays], rfl, .inl rfl⟩

end Rows

/-! ### The fragment of a pattern -/

/-- The tokens of a pattern behind the modes at its start and the caret behind these. -/
def bodyTokens (tokens : List Token) : List Token :=
  match tokens.dropWhile Token.isModes with
  | .caret :: body => body
  | body => body

/-- A token of the body that means the same in a fragment: one that a fragment may have, and that
does not ask for the start of the text. -/
def Token.keeps : Token → Bool
  | .caret | .textStart | .modes _ => false
  | token => token.embeds

/-- A pattern text that means the same in a fragment. Behind the modes and the caret at its start it
has no look-around, no reference, and nothing that asks for the start of the text; and its comments
are quiet. -/
structure Embeddable (verbose : Bool) (source : List Char) : Prop where
  keeps : ∀ token ∈ bodyTokens ((scan verbose source).map (·.token)), token.keeps = true
  quiet : ∀ spot ∈ scan verbose source, spot.token = .skipped ∨ spot.token = .comment →
    Token.isQuiet (source.drop spot.place) = true

instance (verbose : Bool) (source : List Char) : Decidable (Embeddable verbose source) :=
  decidable_of_iff
    ((∀ token ∈ bodyTokens ((scan verbose source).map fun spot : Spot => spot.token),
        token.keeps = true) ∧
      ∀ spot ∈ scan verbose source, spot.token = .skipped ∨ spot.token = .comment →
        Token.isQuiet (source.drop spot.place) = true)
    ⟨fun h => ⟨h.1, h.2⟩, fun h => ⟨h.keeps, h.quiet⟩⟩

/-- The tokens of a pattern in front of its body. -/
theorem exists_eq_append_bodyTokens (tokens : List Token) :
    ∃ caret, tokens = tokens.takeWhile Token.isModes ++ (caret ++ bodyTokens tokens) ∧
      (caret = [] ∨ caret = [.caret]) := by
  unfold bodyTokens
  split
  · rename_i body hdrop
    refine ⟨[.caret], ?_, .inr rfl⟩
    rw [List.singleton_append, ← hdrop, List.takeWhile_append_dropWhile]
  · exact ⟨[], by rw [List.nil_append, List.takeWhile_append_dropWhile], .inl rfl⟩

/-- **What stays of a row** in a fragment: the row of the body, up to a dollar at the end. -/
theorem Rows.exists_body {verbose : List Bool} {text plain : List Char} {tokens : List Token}
    (h : Rows verbose text plain tokens []) (hchunk : ∀ token ∈ tokens, token.hasChunk = true) :
    ∃ text' body next, Rows ((tokens.takeWhile Token.isModes).foldl Token.nesting verbose) text'
        (withoutAnchors (withoutModes plain)) body next ∧
      followers next = [] ∧ (bodyTokens tokens = body ∨ bodyTokens tokens = body ++ [.dollar]) := by
  rw [← List.takeWhile_append_dropWhile (p := Token.isModes) (l := tokens)] at h
  obtain ⟨text, hrow⟩ := h.withoutModes_eq (fun token htoken => List.mem_takeWhile_imp htoken) (by
    intro token htoken
    refine ⟨?_, hchunk token ((List.dropWhile_sublist _).subset (List.mem_of_mem_head? htoken))⟩
    have := List.head?_dropWhile_not Token.isModes tokens
    rw [Option.mem_def] at htoken
    rw [htoken] at this
    simpa using this)
  obtain ⟨text, hrow⟩ : ∃ text', Rows ((tokens.takeWhile Token.isModes).foldl Token.nesting verbose)
      text' (withoutCaret (withoutModes plain)) (bodyTokens tokens) [] := by
    unfold bodyTokens
    split
    · rename_i hdrop
      rw [hdrop] at hrow
      exact hrow.withoutCaret_eq
    · rename_i hnot
      refine ⟨text, ?_⟩
      rwa [hrow.withoutCaret_eq_self fun hhead => ?_]
      obtain ⟨body, hbody⟩ := List.head?_eq_some_iff.mp hhead
      exact hnot body hbody
  obtain ⟨text', body, next, hrow, hnext, hbody⟩ := hrow.withoutDollar_eq
  exact ⟨text', body, next, hrow, hnext, hbody⟩

/-- **What stays of a pattern text** in its fragment: the row of the plain tokens of its body, up to
a dollar at the end. -/
theorem Embeddable.exists_row {verbose : Bool} {source : List Char} (h : Embeddable verbose source)
    {a a' : Assembly} (houter : a.outer = []) (hrun : a.run (scan verbose source) = .ok a')
    {tokens : List Token} (htokens : (scan verbose source).map (·.token) = tokens) :
    ∃ plain text body next, withoutCaptures source = some plain ∧
      Rows ((tokens.takeWhile Token.isModes).foldl Token.nesting [verbose]) text
        (withoutAnchors (withoutModes plain)) body next ∧
      followers next = [] ∧ (bodyTokens tokens = body ∨ bodyTokens tokens = body ++ [.dollar]) := by
  obtain ⟨plain, hrow⟩ := exists_rows source 0 rfl le_rfl (by rw [houter]; rfl) hrun
    fun spot hspot hcomment => Token.isTame_of_isQuiet (h.quiet spot hspot hcomment)
  obtain ⟨text, body, next, hbody⟩ := hrow.exists_body fun token htoken => by
    obtain ⟨spot, hspot, rfl⟩ := List.mem_map.mp htoken
    exact Assembly.hasChunk_of_run hrun spot hspot
  subst htokens
  exact ⟨plain, text, body, next, hrow.withoutCaptures_eq, hbody⟩

end Switchboard.Pattern
