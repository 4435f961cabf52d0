import Mathlib.Tactic.FinCases
import Switchboard.Pattern.Basic
import Switchboard.Pattern.Literal

/-!
# Reading a Pattern from its Parts

A pattern text that has been put together from parts is read part by part. There are two steps,
and each has a statement about parts that can be joined:

* scanning: `Reads source tokens` says that a text is cut into these tokens wherever it stands,
  as long as no question mark follows it, for that would make a repetition lazy;
* assembling: `Pushes tokens pieces n` says that tokens add these pieces to the sequence being
  read, and that they open and close `n` groups on the way. The pieces depend on the number of
  groups before them, since groups are numbered throughout the pattern.

Everything here is about patterns of one mode, in which the two anchors also stand for the ends
of lines.

## Main results

* `reads_literal`: a literal text is read as its characters.
* `Pushes.capture`, `Pushes.plain`: what a group adds.
* `read_eq_ok`: a text with both statements is a pattern, with the expression and the groups
  that they give.
-/

namespace Switchboard.Pattern

/-! ### Scanning -/

/-- No group is open in which blanks are skipped. -/
def Terse (verbose : List Bool) : Prop := ∀ b ∈ verbose, b = false

theorem Terse.headD {verbose : List Bool} (h : Terse verbose) : verbose.headD false = false := by
  cases verbose with
  | nil => rfl
  | cons b verbose => exact h b List.mem_cons_self

/-- Whether a token makes text verbose, in a group or in the whole pattern. -/
def Token.setsVerbose : Token → Bool
  | .openPlain change | .modes change => change.on.verbose
  | _ => false

/-- Only such a token makes text verbose that is not. -/
theorem Terse.nesting {verbose : List Bool} (h : Terse verbose) {token : Token}
    (htoken : token.setsVerbose = false) : Terse (token.nesting verbose) := by
  have htail : Terse verbose.tail := fun b hb => h b (List.mem_of_mem_tail hb)
  have hcons : ∀ {b : Bool} {bs : List Bool}, b = false → Terse bs → Terse (b :: bs) :=
    fun hb hbs => List.forall_mem_cons.mpr ⟨hb, hbs⟩
  cases token with
  | openCapture name => exact hcons h.headD h
  | openLook behind negated => exact hcons h.headD h
  | openPlain change =>
      have hchange : change.on.verbose = false := htoken
      exact hcons (by rw [h.headD, hchange]; rfl) h
  | modes change =>
      have hchange : change.on.verbose = false := htoken
      exact hcons (by rw [h.headD, hchange]; rfl) htail
  | close => exact htail
  | _ => exact h

theorem scanFrom_nil (fuel : Nat) (verbose : List Bool) (place : Nat) :
    scanFrom fuel verbose place [] = [] := by
  cases fuel <;> rfl

/-- The text is cut into these tokens wherever it stands, if no question mark follows. -/
def Reads (source : List Char) (tokens : List Token) : Prop :=
  ∀ (rest : List Char) (fuel : Nat) (verbose : List Bool) (place : Nat),
    rest.head? ≠ some '?' → Terse verbose → (source ++ rest).length ≤ fuel →
    ∃ spots fuel' verbose' place',
      scanFrom fuel verbose place (source ++ rest) =
        spots ++ scanFrom fuel' verbose' place' rest ∧
      spots.map (·.token) = tokens ∧ Terse verbose' ∧ rest.length ≤ fuel'

/-- What neither of two texts starts with, both in a row do not start with. -/
theorem head?_append_ne {first second : List Char} {c : Char} (hfirst : first.head? ≠ some c)
    (hsecond : second.head? ≠ some c) : (first ++ second).head? ≠ some c := by
  cases first with
  | nil => exact hsecond
  | cons d first => exact hfirst

/-- The first token of a text, and the scan of what is left. -/
theorem scanFrom_cons {verbose : List Bool} (hterse : Terse verbose) {c : Char}
    {cs rest : List Char} {token : Token} (hread : Token.read false c cs = (token, rest))
    (fuel place : Nat) :
    ∃ place', scanFrom (fuel + 1) verbose place (c :: cs) =
      ⟨place, token⟩ :: scanFrom fuel (token.nesting verbose) place' rest := by
  rw [scanFrom, hterse.headD, hread]
  exact ⟨_, rfl⟩

theorem reads_nil : Reads [] [] := by
  intro rest fuel verbose place _ hterse hfuel
  exact ⟨[], fuel, verbose, place, rfl, rfl, hterse, hfuel⟩

/-- A text of one token. -/
theorem reads_token {c : Char} {cs : List Char} {token : Token}
    (hread : ∀ rest : List Char, rest.head? ≠ some '?' →
      Token.read false c (cs ++ rest) = (token, rest))
    (htoken : token.setsVerbose = false) : Reads (c :: cs) [token] := by
  intro rest fuel verbose place hrest hterse hfuel
  cases fuel with
  | zero => simp at hfuel
  | succ fuel =>
      obtain ⟨place', hscan⟩ := scanFrom_cons hterse (hread rest hrest) fuel place
      refine ⟨[⟨place, token⟩], fuel, token.nesting verbose, place', hscan, rfl,
        hterse.nesting htoken, ?_⟩
      simp only [List.cons_append, List.length_cons, List.length_append] at hfuel
      omega

/-- Texts that follow each other are read one after the other. -/
theorem Reads.append {first second : List Char} {tokens more : List Token}
    (h₁ : Reads first tokens) (h₂ : Reads second more) (hsecond : second.head? ≠ some '?') :
    Reads (first ++ second) (tokens ++ more) := by
  intro rest fuel verbose place hrest hterse hfuel
  have hhead := head?_append_ne hsecond hrest
  rw [List.append_assoc] at hfuel ⊢
  obtain ⟨spots₁, fuel₁, verbose₁, place₁, hscan₁, rfl, hterse₁, hfuel₁⟩ :=
    h₁ (second ++ rest) fuel verbose place hhead hterse hfuel
  obtain ⟨spots₂, fuel₂, verbose₂, place₂, hscan₂, rfl, hterse₂, hfuel₂⟩ :=
    h₂ rest fuel₁ verbose₁ place₁ hrest hterse₁ hfuel₁
  refine ⟨spots₁ ++ spots₂, fuel₂, verbose₂, place₂, ?_, List.map_append, hterse₂, hfuel₂⟩
  rw [hscan₁, hscan₂, List.append_assoc]

/-- The tokens of a whole pattern text. -/
theorem Reads.scan {source : List Char} {tokens : List Token} (h : Reads source tokens) :
    (scan false source).map (·.token) = tokens := by
  obtain ⟨spots, fuel, verbose, place, hscan, htokens, -, -⟩ :=
    h [] source.length [false] 0 (by simp) (by simp [Terse]) (by simp)
  rw [List.append_nil, scanFrom_nil, List.append_nil] at hscan
  rw [Pattern.scan, hscan, htokens]

/-! ### Literal text -/

/-- A character that has a meaning of its own loses it after a backslash. -/
theorem escape_of_mem_specialChars {c : Char} (h : c ∈ specialChars) (rest : List Char) :
    Token.escape c rest = (.char c, rest) := by
  have hspecial : specialChars = ['(', ')', '[', ']', '{', '}', '?', '*', '+', '-', '|', '^', '$',
      '\\', '.', '&', '~', '#', ' ', '\t', '\n', '\r', '\x0b', '\x0c'] := by decide
  rw [hspecial] at h
  fin_cases h <;> rfl

/-- Any other character stands for itself. -/
theorem read_of_not_mem_specialChars {c : Char} (h : c ∉ specialChars) (rest : List Char) :
    Token.read false c rest = (.char c, rest) := by
  rw [Token.read.eq_def, if_neg (by simp), if_neg (by simp)]
  split
  case h_13 => rfl
  all_goals exact absurd (by decide) h

/-- A character of a literal text is read as itself. -/
theorem reads_literalChar (c : Char) : Reads (literalChar c) [.char c] := by
  by_cases h : c ∈ specialChars
  · have hsource : literalChar c = ['\\', c] := if_pos (by simpa using h)
    rw [hsource]
    refine reads_token (fun rest _ => ?_) rfl
    rw [List.cons_append, List.nil_append]
    exact escape_of_mem_specialChars h rest
  · have hsource : literalChar c = [c] := if_neg (by simpa using h)
    rw [hsource]
    exact reads_token (fun rest _ => read_of_not_mem_specialChars h rest) rfl

/-- A literal text does not start with a question mark. -/
theorem head?_literal (cs : List Char) : (literal cs).head? ≠ some '?' := by
  cases cs with
  | nil => simp [literal]
  | cons c cs =>
      intro h
      by_cases hc : c ∈ specialChars
      · simp [literal, literalChar, hc] at h
      · have heq : c = '?' := by simpa [literal, literalChar, hc] using h
        subst heq
        exact hc (by decide)

/-- **A literal text is read as its characters**, whatever they are. -/
theorem reads_literal (cs : List Char) : Reads (literal cs) (cs.map .char) := by
  induction cs with
  | nil => exact reads_nil
  | cons c cs ih => exact (reads_literalChar c).append ih (head?_literal cs)

/-! ### Sets, anchors, groups and repetitions -/

theorem reads_blank : Reads "\\s".toList [.set false [.kind .blank false]] :=
  reads_token (fun _ _ => rfl) rfl

theorem reads_nonblank : Reads "\\S".toList [.set false [.kind .blank true]] :=
  reads_token (fun _ _ => rfl) rfl

theorem reads_dot : Reads ['.'] [.dot] :=
  reads_token (fun _ _ => rfl) rfl

theorem reads_caret : Reads ['^'] [.caret] :=
  reads_token (fun _ _ => rfl) rfl

theorem reads_dollar : Reads ['$'] [.dollar] :=
  reads_token (fun _ _ => rfl) rfl

/-- A group that captures, when no question mark makes it another kind of group. -/
theorem read_openCapture {rest : List Char} (h : rest.head? ≠ some '?') :
    Token.read false '(' rest = (.openCapture none, rest) := by
  cases rest with
  | nil => rfl
  | cons c rest =>
      have hc : c ≠ '?' := fun heq => h (congrArg some heq)
      rw [Token.read, if_neg (by simp), if_neg (by simp), Token.readOpening]
      intro cs heq
      exact hc (List.cons.inj heq).1

theorem reads_openCapture : Reads ['('] [.openCapture none] :=
  reads_token (fun _ hrest => read_openCapture hrest) rfl

theorem reads_openPlain : Reads "(?:".toList [.openPlain {}] :=
  reads_token (fun _ _ => rfl) rfl

theorem reads_close : Reads [')'] [.close] :=
  reads_token (fun _ _ => rfl) rfl

/-- The mark after a repetition that makes it lazy is not there. -/
theorem lazyMark_of_head? {rest : List Char} (h : rest.head? ≠ some '?') :
    Token.lazyMark rest = (false, rest) := by
  rw [Token.lazyMark]
  rintro cs rfl
  exact h rfl

theorem reads_plus : Reads ['+'] [.quantifier 1 none false] := by
  refine reads_token (fun rest hrest => ?_) rfl
  rw [List.nil_append, Token.read, if_neg (by simp), if_neg (by simp), Token.readQuantifier,
    lazyMark_of_head? hrest]

theorem reads_star : Reads ['*'] [.quantifier 0 none false] := by
  refine reads_token (fun rest hrest => ?_) rfl
  rw [List.nil_append, Token.read, if_neg (by simp), if_neg (by simp), Token.readQuantifier,
    lazyMark_of_head? hrest]

/-- The end of a group that may be left out. -/
theorem reads_closeOptional : Reads ")?".toList [.close, .quantifier 0 (some 1) false] := by
  intro rest fuel verbose place hrest hterse hfuel
  have hclose : Terse (Token.close.nesting verbose) := hterse.nesting rfl
  have hread : Token.read false ')' ('?' :: rest) = (.close, '?' :: rest) := rfl
  have hlazy : Token.read false '?' rest = (.quantifier 0 (some 1) false, rest) := by
    rw [Token.read, if_neg (by simp), if_neg (by simp), Token.readQuantifier,
      lazyMark_of_head? hrest]
  match fuel, hfuel with
  | fuel + 2, hfuel =>
    obtain ⟨place₁, hscan₁⟩ := scanFrom_cons hterse hread (fuel + 1) place
    obtain ⟨place₂, hscan₂⟩ := scanFrom_cons hclose hlazy fuel place₁
    refine ⟨[⟨place, .close⟩, ⟨place₁, .quantifier 0 (some 1) false⟩], fuel, _, place₂, ?_, rfl,
      hclose, ?_⟩
    · exact hscan₁.trans (congrArg _ hscan₂)
    · simp at hfuel
      omega

/-! ### Assembling -/

/-- The mode of the patterns of templates. -/
def lineModes : Modes := { multiline := true }

/-- The sequence of pieces as one expression. -/
def Piece.sequence (pieces : List Piece) : Expr := Expr.seqAll (pieces.map (·.expr))

/-- The state with more pieces in the sequence being read, and more groups. -/
def Assembly.grow (a : Assembly) (pieces : List Piece) (n : Nat) (widths : List (Nat × Width)) :
    Assembly :=
  { a with
    level := { a.level with current := pieces.reverse ++ a.level.current }
    groups := a.groups + n
    widths }

/-- Tokens that add pieces to the sequence being read, and groups to those counted. -/
def Pushes (tokens : List Token) (pieces : Nat → List Piece) (n : Nat) : Prop :=
  ∀ (a : Assembly) (spots : List Spot), a.level.modes = lineModes →
    spots.map (·.token) = tokens →
    ∃ widths, a.run spots = .ok (a.grow (pieces a.groups) n widths)

theorem Assembly.run_singleton (a : Assembly) (spot : Spot) : a.run [spot] = a.step spot := by
  rw [Assembly.run, List.foldlM_cons]
  simp

/-- One token stands at one place. -/
theorem exists_eq_singleton {spots : List Spot} {token : Token}
    (h : spots.map (·.token) = [token]) : ∃ place, spots = [⟨place, token⟩] := by
  obtain ⟨⟨place, _⟩, rest, rfl, rfl, hrest⟩ := List.map_eq_cons_iff.mp h
  obtain rfl := List.map_eq_nil_iff.mp hrest
  exact ⟨place, rfl⟩

theorem pushes_nil : Pushes [] (fun _ => []) 0 := by
  intro a spots _ hspots
  obtain rfl := List.map_eq_nil_iff.mp hspots
  exact ⟨a.widths, rfl⟩

/-- Tokens that follow each other add one after the other, the second with groups that come
after those of the first. -/
theorem Pushes.append {first second : List Token} {pieces more : Nat → List Piece} {m n : Nat}
    (h₁ : Pushes first pieces m) (h₂ : Pushes second more n) :
    Pushes (first ++ second) (fun g => pieces g ++ more (g + m)) (m + n) := by
  intro a spots hmodes hspots
  obtain ⟨spots₁, spots₂, rfl, hspots₁, hspots₂⟩ := List.map_eq_append_iff.mp hspots
  obtain ⟨widths₁, hrun₁⟩ := h₁ a spots₁ hmodes hspots₁
  obtain ⟨widths₂, hrun₂⟩ := h₂ (a.grow (pieces a.groups) m widths₁) spots₂ hmodes hspots₂
  refine ⟨widths₂, ?_⟩
  rw [Assembly.run_append, hrun₁]
  refine Eq.trans hrun₂ ?_
  simp [Assembly.grow, Nat.add_assoc]

/-- One token that adds one piece. -/
theorem pushes_token {token : Token} {piece : Piece}
    (h : ∀ (a : Assembly) (place : Nat), a.level.modes = lineModes →
      a.step ⟨place, token⟩ = .ok (a.push piece.expr piece.kind)) :
    Pushes [token] (fun _ => [piece]) 0 := by
  intro a spots hmodes hspots
  obtain ⟨place, rfl⟩ := exists_eq_singleton hspots
  exact ⟨a.widths, (Assembly.run_singleton _ _).trans (h a place hmodes)⟩

theorem pushes_char (c : Char) : Pushes [.char c] (fun _ => [⟨.set (.only c), .item⟩]) 0 := by
  refine pushes_token fun a place hmodes => ?_
  simp only [Assembly.step, hmodes]
  rfl

theorem pushes_set (items : List ClassItem) :
    Pushes [.set false items] (fun _ => [⟨.set { items }, .item⟩]) 0 := by
  refine pushes_token fun a place hmodes => ?_
  simp only [Assembly.step, hmodes]
  rfl

theorem pushes_dot : Pushes [.dot] (fun _ => [⟨.set .notLineFeed, .item⟩]) 0 := by
  refine pushes_token fun a place hmodes => ?_
  simp only [Assembly.step, hmodes]
  rfl

theorem pushes_caret : Pushes [.caret] (fun _ => [⟨.anchor .lineStart, .anchor⟩]) 0 := by
  refine pushes_token fun a place hmodes => ?_
  simp only [Assembly.step, hmodes]
  rfl

theorem pushes_dollar : Pushes [.dollar] (fun _ => [⟨.anchor .lineEnd, .anchor⟩]) 0 := by
  refine pushes_token fun a place hmodes => ?_
  simp only [Assembly.step, hmodes]
  rfl

/-- The pieces of a literal text. -/
def literalPieces (cs : List Char) : List Piece := cs.map fun c => ⟨.set (.only c), .item⟩

theorem pushes_literal (cs : List Char) :
    Pushes (cs.map .char) (fun _ => literalPieces cs) 0 := by
  induction cs with
  | nil => exact pushes_nil
  | cons c cs ih => exact (pushes_char c).append ih

/-- A repetition takes the item in front of it. -/
theorem Pushes.quantifier {tokens : List Token} {e : Nat → Expr} {n : Nat}
    (h : Pushes tokens (fun g => [⟨e g, .item⟩]) n) (min : Nat) (max : Option Nat)
    (lazy : Bool) :
    Pushes (tokens ++ [.quantifier min max lazy])
      (fun g => [⟨.rep (e g) min max lazy, .repetition⟩]) n := by
  intro a spots hmodes hspots
  obtain ⟨spots₁, spots₂, rfl, hspots₁, hspots₂⟩ := List.map_eq_append_iff.mp hspots
  obtain ⟨place, rfl⟩ := exists_eq_singleton hspots₂
  obtain ⟨widths, hrun⟩ := h a spots₁ hmodes hspots₁
  have hstep : (a.grow [⟨e a.groups, .item⟩] n widths).step ⟨place, .quantifier min max lazy⟩ =
      .ok (a.grow [⟨.rep (e a.groups) min max lazy, .repetition⟩] n widths) := rfl
  refine ⟨widths, ?_⟩
  rw [Assembly.run_append, hrun]
  exact (Assembly.run_singleton _ _).trans hstep

/-- What a group holds once its pieces have been read. -/
theorem expr_openLevel (a : Assembly) (purpose : Purpose) (place : Nat) (modes : Modes)
    (pieces : List Piece) (n : Nat) (widths : List (Nat × Width)) :
    ((a.openLevel purpose place modes).grow pieces n widths).level.expr =
      Piece.sequence pieces := by
  simp [Assembly.openLevel, Assembly.grow, Level.expr, Expr.altAll, Piece.sequence]

/-- Closing a group that captures. -/
theorem step_close_capture (a : Assembly) (place place' : Nat) (pieces : List Piece) (n : Nat)
    (widths : List (Nat × Width)) :
    ∃ widths', (({ a with groups := a.groups + 1 }.openLevel (.capture (a.groups + 1)) place
        a.level.modes).grow pieces n widths).step ⟨place', .close⟩ =
      .ok (a.grow [⟨.group (a.groups + 1) (Piece.sequence pieces), .item⟩] (n + 1) widths') := by
  let width := (Piece.sequence pieces).width fun index => (widths.lookup index).getD (.exactly 0)
  refine ⟨(a.groups + 1, width) :: widths, ?_⟩
  rw [Assembly.step, Assembly.closeLevel]
  simp only [expr_openLevel]
  simp only [Assembly.grow, Assembly.openLevel, Assembly.push, Nat.add_assoc, Nat.add_comm 1 n]
  rfl

/-- Closing a group that does not capture. -/
theorem step_close_plain (a : Assembly) (place place' : Nat) (pieces : List Piece) (n : Nat)
    (widths : List (Nat × Width)) :
    ((a.openLevel .plain place a.level.modes).grow pieces n widths).step ⟨place', .close⟩ =
      .ok (a.grow [⟨Piece.sequence pieces, .item⟩] n widths) := by
  rw [Assembly.step, Assembly.closeLevel]
  simp only [expr_openLevel]
  rfl

/-- The tokens of a group are its first, those inside, and its last. -/
theorem exists_enclosed {spots : List Spot} {first last : Token} {tokens : List Token}
    (h : spots.map (·.token) = first :: tokens ++ [last]) :
    ∃ place inner place', spots = ⟨place, first⟩ :: inner ++ [⟨place', last⟩] ∧
      inner.map (·.token) = tokens := by
  obtain ⟨front, back, rfl, hfront, hback⟩ := List.map_eq_append_iff.mp h
  obtain ⟨⟨place, _⟩, inner, rfl, rfl, hinner⟩ := List.map_eq_cons_iff.mp hfront
  obtain ⟨place', rfl⟩ := exists_eq_singleton hback
  exact ⟨place, inner, place', rfl, hinner⟩

/-- A group is opened, filled and closed. -/
theorem run_enclosed {a opened filled closed : Assembly} {first last : Spot} {inner : List Spot}
    (hopen : a.step first = .ok opened) (hfill : opened.run inner = .ok filled)
    (hclose : filled.step last = .ok closed) : a.run (first :: inner ++ [last]) = .ok closed := by
  have hfirst := Assembly.run_append a [first] (inner ++ [last])
  have hinner := Assembly.run_append opened inner [last]
  rw [Assembly.run_singleton, hopen] at hfirst
  rw [hfill] at hinner
  exact hfirst.trans (hinner.trans ((Assembly.run_singleton filled last).trans hclose))

/-- **A group that captures** becomes one item, and gets the number after the groups before
it. -/
theorem Pushes.capture {tokens : List Token} {pieces : Nat → List Piece} {n : Nat}
    (h : Pushes tokens pieces n) :
    Pushes (.openCapture none :: tokens ++ [.close])
      (fun g => [⟨.group (g + 1) (Piece.sequence (pieces (g + 1))), .item⟩]) (n + 1) := by
  intro a spots hmodes hspots
  obtain ⟨place, inner, place', rfl, hinner⟩ := exists_enclosed hspots
  obtain ⟨widths, hrun⟩ := h
    ({ a with groups := a.groups + 1 }.openLevel (.capture (a.groups + 1)) place a.level.modes)
    inner hmodes hinner
  obtain ⟨widths', hclose⟩ := step_close_capture a place place' (pieces (a.groups + 1)) n widths
  exact ⟨widths', run_enclosed rfl hrun hclose⟩

/-- **A group that does not capture** becomes one item. -/
theorem Pushes.plain {tokens : List Token} {pieces : Nat → List Piece} {n : Nat}
    (h : Pushes tokens pieces n) :
    Pushes (.openPlain {} :: tokens ++ [.close])
      (fun g => [⟨Piece.sequence (pieces g), .item⟩]) n := by
  intro a spots hmodes hspots
  obtain ⟨place, inner, place', rfl, hinner⟩ := exists_enclosed hspots
  have hopen : a.step ⟨place, .openPlain {}⟩ = .ok (a.openLevel .plain place a.level.modes) := by
    simp [Assembly.step]
  obtain ⟨widths, hrun⟩ := h (a.openLevel .plain place a.level.modes) inner hmodes hinner
  exact ⟨widths, run_enclosed hopen hrun (step_close_plain a place place' _ n widths)⟩

/-! ### Whole patterns -/

/-- **Reading a pattern**: a text that is read as tokens which add pieces is a pattern, with
the sequence of these pieces and with their groups. -/
theorem read_eq_ok {source : List Char} {tokens : List Token} {pieces : Nat → List Piece}
    {n : Nat} (hreads : Reads source tokens) (hpushes : Pushes tokens pieces n) :
    read (String.ofList source) lineModes = .ok
      { source := String.ofList source, modes := lineModes, expr := Piece.sequence (pieces 0),
        groups := n } := by
  obtain ⟨widths, hrun⟩ := hpushes (.start lineModes) (scan false source) rfl hreads.scan
  let done := Assembly.grow (.start lineModes) (pieces 0) n widths
  have hfinish : done.finish = .ok done := rfl
  have hexpr : done.level.expr = Piece.sequence (pieces 0) := by
    simp [done, Assembly.grow, Assembly.start, Level.expr, Expr.altAll, Piece.sequence]
  have hgroups : done.groups = n := Nat.zero_add n
  rw [read, String.toList_ofList, show lineModes.verbose = false from rfl, hrun]
  change (done.finish >>= fun done => _) = _
  rw [hfinish, ← hexpr, ← hgroups]
  rfl

end Switchboard.Pattern
