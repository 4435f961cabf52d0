import Switchboard.Pattern.Expr

/-!
# Matching

An expression is run at a place of the text with a continuation that says whether what follows is content with
the place reached. Alternatives are tried from the first to the last, a greedy repetition tries one more round
before it stops and a lazy one after, and the first way through that the continuation accepts is the
answer. What was captured on a way that failed is forgotten, and a group inside a repetition keeps what it
captured last.

A repetition goes through its least number of rounds without further conditions. Beyond that it starts a round
only at a place other than the one where the round before began, which is what ends the rounds that match
nothing; hence the length of the remaining text bounds the number of rounds.

`Expr.search` tries the places of a text from left to right, and `Expr.fullMatch` asks for the whole text.
-/

namespace Switchboard.Pattern

/-- A place in the text, with what has been captured on the way to it. -/
structure State where
  /-- The characters before the place, nearest first. -/
  before : List Char
  /-- The characters from the place on. -/
  after : List Char
  /-- What groups have captured, latest first. -/
  captures : List (Nat × List Char) := []
deriving DecidableEq, Repr, Inhabited

namespace State

/-- The place after so many more characters. -/
def advance (st : State) (n : Nat) : State :=
  { st with before := (st.after.take n).reverse ++ st.before, after := st.after.drop n }

/-- What a group has captured last. -/
def captured? (st : State) (index : Nat) : Option (List Char) := st.captures.lookup index

/-- Records that a group reached from `opened` to here. -/
def capture (st : State) (index : Nat) (opened : State) : State :=
  { st with captures := (index, opened.after.take (opened.after.length - st.after.length)) :: st.captures }

end State

/-- Whether a character, if there is one, is a word character. -/
def wordAt (ascii : Bool) (c : Option Char) : Bool := c.any (CharKind.word.holds ascii)

/-- Whether a place is where the anchor asks for. In an empty text no place is a word edge, and none is a place
that is no word edge. -/
def Anchor.holds (a : Anchor) (st : State) : Bool :=
  match a with
  | textStart => st.before.isEmpty
  | textEnd => st.after.isEmpty
  | lastLineEnd => st.after.isEmpty || st.after == ['\n']
  | lineStart => st.before.isEmpty || st.before.head? == some '\n'
  | lineEnd => st.after.isEmpty || st.after.head? == some '\n'
  | wordEdge ascii negated =>
    !(st.before.isEmpty && st.after.isEmpty) &&
      ((wordAt ascii st.before.head? != wordAt ascii st.after.head?) != negated)

/-- The place so many characters back, if there are so many. -/
def State.back? (st : State) (n : Nat) : Option State :=
  if n ≤ st.before.length then
    some { st with before := st.before.drop n, after := (st.before.take n).reverse ++ st.after }
  else none

/-- Whether `text` starts with `captured`, character by character under the rule for letters. -/
def startsWith (letters : LetterRule) : List Char → List Char → Bool
  | [], _ => true
  | _ :: _, [] => false
  | c :: captured, d :: text => letters.lower c == letters.lower d && startsWith letters captured text

/-- A run of something at a place, with a continuation. -/
abbrev Runner := State → (State → Option State) → Option State

/-- So many rounds. -/
def rounds (once : Runner) : Nat → Runner
  | 0, st, k => k st
  | n + 1, st, k => once st fun st => rounds once n st k

/-- Further rounds, at most `budget` and at most `most`; `last` is the number of characters that were left where
the round before began. -/
def moreRounds (once : Runner) (lazy : Bool) : Nat → Option Nat → Option Nat → Runner
  | 0, _, _, st, k => k st
  | budget + 1, most, last, st, k =>
    if most == some 0 || last == some st.after.length then k st
    else if lazy then
      match k st with
      | some found => some found
      | none => once st fun st' => moreRounds once lazy budget (most.map (· - 1)) (some st.after.length) st' k
    else
      match once st fun st' => moreRounds once lazy budget (most.map (· - 1)) (some st.after.length) st' k with
      | some found => some found
      | none => k st

/-- The first way through an expression from a place that the continuation accepts. -/
def Expr.run : Expr → Runner
  | .empty, st, k => k st
  | .set s, st, k =>
    match st.after with
    | c :: _ => if s.contains c then k (st.advance 1) else none
    | [] => none
  | .seq a b, st, k => a.run st fun st => b.run st k
  | .alt a b, st, k =>
    match a.run st k with
    | some found => some found
    | none => b.run st k
  | .group i e, st, k => e.run st fun st' => k (st'.capture i st)
  | .backref i letters, st, k =>
    match st.captured? i with
    | some text => if startsWith letters text st.after then k (st.advance text.length) else none
    | none => none
  | .anchor a, st, k => if a.holds st then k st else none
  | .look side negated e, st, k =>
    let inspected := match side with
      | .ahead => some st
      | .behind n => st.back? n
    match inspected.bind fun st => e.run st some with
    | some found => if negated then none else k { st with captures := found.captures }
    | none => if negated then k st else none
  | .rep e min max lazy, st, k =>
    rounds (fun st k => e.run st k) min st fun st =>
      moreRounds (fun st k => e.run st k) lazy (st.after.length + 1) (max.map (· - min)) none st k

/-- A match: what lies before it, its text, and what its groups captured. -/
structure Match where
  before : List Char
  text : List Char
  captures : List (Nat × List Char) := []
deriving DecidableEq, Repr, Inhabited

namespace Match

/-- What a group captured; group zero is the whole match. -/
def group? (m : Match) (index : Nat) : Option (List Char) :=
  if index = 0 then some m.text else m.captures.lookup index

/-- What the groups from the first up to `n` captured. -/
def groups (m : Match) (n : Nat) : List (Option (List Char)) :=
  (List.range n).map fun i => m.group? (i + 1)

end Match

namespace Expr

/-- The match that starts at a given place and that the continuation accepts. -/
def matchAt (e : Expr) (before after : List Char) (accept : State → Bool) : Option Match :=
  (e.run { before, after } fun st => if accept st then some st else none).map fun st =>
    { before := before.reverse, text := after.take (after.length - st.after.length), captures := st.captures }

/-- The first match at a place from the given one on. -/
def searchFrom (e : Expr) (before : List Char) : List Char → Option Match
  | [] => e.matchAt before [] fun _ => true
  | c :: cs =>
    match e.matchAt before (c :: cs) fun _ => true with
    | some m => some m
    | none => e.searchFrom (c :: before) cs

/-- The leftmost match in a text. -/
def search (e : Expr) (text : List Char) : Option Match := e.searchFrom [] text

/-- The match of a whole text. -/
def fullMatch (e : Expr) (text : List Char) : Option Match := e.matchAt [] text fun st => st.after.isEmpty

end Expr

end Switchboard.Pattern
