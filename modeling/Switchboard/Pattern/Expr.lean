import Switchboard.Pattern.CharSet

/-!
# Pattern expressions

The tree of a pattern. Modes have been resolved when a tree is built: every character set and every anchor
says by itself what it accepts, and a group is only a number. The width of an expression, the least
and the greatest number of characters that it may match, is what a look-behind needs to know where to start.
-/

namespace Switchboard.Pattern

/-- A place in the text that an expression may ask for. -/
inductive Anchor where
  | textStart
  | textEnd
  /-- The end of the text, or the place before a line feed that ends the text. -/
  | lastLineEnd
  | lineStart
  | lineEnd
  /-- A place between a word character and another one, or, negated, any other place. -/
  | wordEdge (ascii negated : Bool)
deriving DecidableEq, Repr, Inhabited

/-- The text that a look-around inspects: what follows, or so many characters before. -/
inductive Side where
  | ahead
  | behind (width : Nat)
deriving DecidableEq, Repr, Inhabited

/-- A pattern expression. -/
inductive Expr where
  | empty
  | set (s : CharSet)
  | seq (first second : Expr)
  | alt (first second : Expr)
  | group (index : Nat) (body : Expr)
  | backref (index : Nat) (letters : LetterRule)
  | anchor (a : Anchor)
  | look (side : Side) (negated : Bool) (body : Expr)
  | rep (body : Expr) (min : Nat) (max : Option Nat) (lazy : Bool)
deriving DecidableEq, Repr, Inhabited

namespace Expr

/-- The expressions one after the other. -/
def seqAll : List Expr → Expr
  | [] => .empty
  | [e] => e
  | e :: es => .seq e (seqAll es)

/-- The choice between expressions, the earlier ones first. -/
def altAll : List Expr → Expr
  | [] => .empty
  | [e] => e
  | e :: es => .alt e (altAll es)

/-- A literal text. -/
def literal (cs : List Char) : Expr := seqAll (cs.map fun c => .set (.only c))

end Expr

/-- The least number of characters of a match and the greatest one, if there is one. -/
structure Width where
  least : Nat
  most : Option Nat
deriving DecidableEq, Repr, Inhabited

namespace Width

/-- The width of what always matches exactly `n` characters. -/
def exactly (n : Nat) : Width := ⟨n, some n⟩

/-- The width of two expressions in a row. -/
def add (a b : Width) : Width where
  least := a.least + b.least
  most := match a.most, b.most with
    | some m, some n => some (m + n)
    | _, _ => none

/-- The width of a choice. -/
def join (a b : Width) : Width where
  least := min a.least b.least
  most := match a.most, b.most with
    | some m, some n => some (max m n)
    | _, _ => none

/-- The width of a repetition; any number of empty matches is empty. -/
def times (w : Width) (least : Nat) (most : Option Nat) : Width where
  least := w.least * least
  most := match w.most, most with
    | some 0, _ => some 0
    | some m, some n => some (m * n)
    | _, _ => none

/-- The one possible length of a match, if all matches have the same. -/
def fixed? (w : Width) : Option Nat := if w.most = some w.least then some w.least else none

end Width

/-- The width of an expression, given the widths of the groups that it refers back to. -/
def Expr.width (groups : Nat → Width) : Expr → Width
  | .empty => .exactly 0
  | .set _ => .exactly 1
  | .seq a b => (a.width groups).add (b.width groups)
  | .alt a b => (a.width groups).join (b.width groups)
  | .group _ e => e.width groups
  | .backref i _ => groups i
  | .anchor _ => .exactly 0
  | .look _ _ _ => .exactly 0
  | .rep e least most _ => (e.width groups).times least most

end Switchboard.Pattern
