import Switchboard.Pattern.Expr
import Switchboard.Pattern.Token

/-!
# Assembling an expression from tokens

Tokens are put together on a stack of open groups. `Assembly.step` takes one token: a character or an anchor
joins the sequence being read, a bar starts another alternative, an opening token pushes a group, a closing
one pops it, and a repetition replaces the last piece of the sequence. Because a run over a list of tokens is a
fold of `step`, the run over two lists in a row is the run over the second from where the first one
ended (`Assembly.run_append`).

A look-behind needs a fixed width. That is a property of the finished expression, so its absence is remembered and
reported only when no other fault has been found.
-/

namespace Switchboard.Pattern

/-- What a group was opened for. -/
inductive Purpose where
  | whole
  | capture (index : Nat)
  | plain
  | look (behind negated : Bool)
deriving DecidableEq, Repr, Inhabited

/-- What kind of piece stands last in a sequence; only an item can be repeated. -/
inductive PieceKind where
  | item
  | anchor
  | repetition
deriving DecidableEq, Repr, Inhabited

/-- A piece of a sequence. -/
structure Piece where
  expr : Expr
  kind : PieceKind := .item
deriving DecidableEq, Repr, Inhabited

/-- A group being read. -/
structure Level where
  purpose : Purpose
  /-- The place of the opening parenthesis. -/
  place : Nat := 0
  /-- The modes inside the group. -/
  modes : Modes
  /-- The alternatives before the current one, last one first. -/
  earlier : List Expr := []
  /-- The pieces of the current alternative, last one first. -/
  current : List Piece := []
deriving DecidableEq, Repr, Inhabited

/-- The expression of all alternatives of a group. -/
def Level.expr (level : Level) : Expr :=
  Expr.altAll (((Expr.seqAll (level.current.reverse.map (·.expr))) :: level.earlier).reverse)

/-- The state while tokens are put together. -/
structure Assembly where
  /-- The innermost open group. -/
  level : Level
  /-- The groups around it, innermost first. -/
  outer : List Level := []
  /-- The number of groups opened so far. -/
  groups : Nat := 0
  /-- The widths of the groups that have been closed. -/
  widths : List (Nat × Width) := []
  /-- The names of the groups. -/
  names : List (String × Nat) := []
  /-- Inside a look-behind, the number of groups opened before the outermost one. -/
  lookBehind : Option Nat := none
  /-- Whether some look-behind has no fixed width. -/
  uneven : Bool := false
deriving DecidableEq, Repr, Inhabited

namespace Assembly

/-- The state before the first token. -/
def start (modes : Modes) : Assembly := { level := { purpose := .whole, modes } }

/-- Adds a piece to the current sequence. -/
def push (a : Assembly) (expr : Expr) (kind : PieceKind := .item) : Assembly :=
  { a with level := { a.level with current := ⟨expr, kind⟩ :: a.level.current } }

/-- The rule for letters in a set of modes. -/
def letterRule (modes : Modes) : LetterRule :=
  if modes.ignoreCase then if modes.ascii then .asciiCase else .anyCase else .exact

/-- The set of members as it is read in a set of modes. -/
def charSet (modes : Modes) (negated : Bool) (items : List ClassItem) : CharSet :=
  { items, negated, letters := letterRule modes, ascii := modes.ascii }

/-- Opens a group. -/
def openLevel (a : Assembly) (purpose : Purpose) (place : Nat) (modes : Modes) : Assembly :=
  { a with level := { purpose, place, modes }, outer := a.level :: a.outer }

/-- The width of a group that has been closed. -/
def widthOf (a : Assembly) (index : Nat) : Width := (a.widths.lookup index).getD (.exactly 0)

/-- Adds a reference to a group. `place` is where an open group is reported, `stop` where the token ends. -/
def refer (a : Assembly) (index place stop : Nat) : Except Fault Assembly :=
  if (a.widths.lookup index).isNone then .error ⟨.openGroup, some place⟩
  else if a.lookBehind.any (· < index) then .error ⟨.groupOfSameLookBehind, some stop⟩
  else .ok (a.push (.backref index (letterRule a.level.modes)))

/-- Closes the innermost group. -/
def closeLevel (a : Assembly) (place : Nat) : Except Fault Assembly :=
  match a.outer with
  | [] => .error ⟨.unbalancedParenthesis, some place⟩
  | parent :: outer =>
    let body := a.level.expr
    let width := body.width a.widthOf
    let outside := { a with level := parent, outer }
    match a.level.purpose with
    | .capture index => .ok ({ outside with widths := (index, width) :: a.widths }.push (.group index body))
    | .look false negated => .ok (outside.push (.look .ahead negated body))
    | .look true negated =>
      let outside := if outer.any (·.purpose matches .look true _) || (parent.purpose matches .look true _)
        then outside else { outside with lookBehind := none }
      match width.fixed? with
      | some n => .ok (outside.push (.look (.behind n) negated body))
      | none => .ok ({ outside with uneven := true }.push .empty)
    | _ => .ok (outside.push body)

/-- Repeats the last piece of the current sequence. -/
def repeatLast (a : Assembly) (min : Nat) (max : Option Nat) (lazy : Bool) (place : Nat) : Except Fault Assembly :=
  match a.level.current with
  | ⟨expr, .item⟩ :: pieces =>
    .ok { a with level := { a.level with current := ⟨.rep expr min max lazy, .repetition⟩ :: pieces } }
  | ⟨_, .repetition⟩ :: _ => .error ⟨.multipleRepeat, some place⟩
  | _ => .error ⟨.nothingToRepeat, some place⟩

/-- Opens a group that captures. -/
def openCapture (a : Assembly) (name : Option String) (place : Nat) : Except Fault Assembly :=
  let index := a.groups + 1
  let opened := { a with groups := index }.openLevel (.capture index) place a.level.modes
  match name with
  | none => .ok opened
  | some name =>
    match a.names.lookup name with
    | some old => .error ⟨.groupNameTaken name index old, some (place + 4)⟩
    | none => .ok { opened with names := (name, index) :: a.names }

/-- Takes the token at a place. -/
def step (a : Assembly) (spot : Spot) : Except Fault Assembly :=
  let modes := a.level.modes
  let place := spot.place
  match spot.token with
  | .char c => .ok (a.push (.set (charSet modes false [.single c])))
  | .dot => .ok (a.push (.set (if modes.dotAll then .all else .notLineFeed)))
  | .set negated items => .ok (a.push (.set (charSet modes negated items)))
  | .caret => .ok (a.push (.anchor (if modes.multiline then .lineStart else .textStart)) .anchor)
  | .dollar => .ok (a.push (.anchor (if modes.multiline then .lineEnd else .lastLineEnd)) .anchor)
  | .textStart => .ok (a.push (.anchor .textStart) .anchor)
  | .textEnd => .ok (a.push (.anchor .textEnd) .anchor)
  | .wordEdge negated => .ok (a.push (.anchor (.wordEdge modes.ascii negated)) .anchor)
  | .bar =>
    let sequence := Expr.seqAll (a.level.current.reverse.map (·.expr))
    .ok { a with level := { a.level with earlier := sequence :: a.level.earlier, current := [] } }
  | .numberedRef index =>
    if a.groups < index then .error ⟨.noSuchGroup index, some (place + 1)⟩
    else a.refer index place (place + 1 + (toString index).length)
  | .namedRef name =>
    match a.names.lookup name with
    | none => .error ⟨.unknownGroupName name, some (place + 4)⟩
    | some index => a.refer index (place + 4) (place + 5 + name.length)
  | .openCapture name => a.openCapture name place
  | .openPlain change => .ok (a.openLevel .plain place (change.apply modes))
  | .openLook behind negated =>
    let opened := a.openLevel (.look behind negated) place modes
    .ok (if behind && a.lookBehind.isNone then { opened with lookBehind := some a.groups } else opened)
  | .close => a.closeLevel place
  | .modes change =>
    if a.outer.isEmpty && a.level.earlier.isEmpty && a.level.current.isEmpty then
      .ok { a with level := { a.level with modes := modes.union change.on } }
    else .error ⟨.lateModes, some place⟩
  | .quantifier min max lazy => a.repeatLast min max lazy place
  | .comment | .skipped => .ok a
  | .fault cause offset => .error ⟨cause, some (place + offset)⟩

/-- Takes tokens in order, up to the first fault. -/
def run (a : Assembly) (spots : List Spot) : Except Fault Assembly := spots.foldlM step a

/-- A run over two lists of tokens is two runs, the second from where the first ended. -/
theorem run_append (a : Assembly) (s t : List Spot) : a.run (s ++ t) = (a.run s) >>= (·.run t) := by
  simp [run, List.foldlM_append]

/-- The state at the end of the text: no group may be open, and every look-behind has a fixed width. -/
def finish (a : Assembly) : Except Fault Assembly :=
  if !a.outer.isEmpty then .error ⟨.unterminatedGroup, some a.level.place⟩
  else if a.uneven then .error ⟨.unevenLookBehind, none⟩
  else .ok a

end Assembly

end Switchboard.Pattern
