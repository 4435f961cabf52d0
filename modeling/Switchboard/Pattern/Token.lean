import Switchboard.Pattern.CharSet
import Switchboard.Pattern.Fault
import Switchboard.Pattern.Modes
import Switchboard.Text.Identifier

/-!
# Tokens of a pattern

A pattern text is cut into tokens from left to right: characters, character sets, anchors, references, the
parts of groups, and repetitions. A bracketed class is one token with its members, and a repetition takes the mark
that makes it lazy. Comments in parentheses, and the blanks and comments of verbose text, are tokens that mean
nothing. A text that is not a token becomes a `fault` token, so that scanning is total and the first fault from the
left is the one reported.
-/

namespace Switchboard.Pattern

/-- A token of a pattern. -/
inductive Token where
  | char (c : Char)
  | dot
  | set (negated : Bool) (items : List ClassItem)
  | caret
  | dollar
  | textStart
  | textEnd
  | wordEdge (negated : Bool)
  | bar
  | numberedRef (index : Nat)
  | namedRef (name : String)
  | openCapture (name : Option String)
  | openPlain (change : ModeChange)
  | openLook (behind negated : Bool)
  | close
  /-- Modes for the whole pattern. -/
  | modes (change : ModeChange)
  | quantifier (min : Nat) (max : Option Nat) (lazy : Bool)
  /-- A comment in parentheses. -/
  | comment
  /-- A blank or a comment up to the end of its line, in verbose text. -/
  | skipped
  /-- No token: the cause, and its distance from the start of the text it concerns. -/
  | fault (cause : Cause) (offset : Nat)
deriving DecidableEq, Repr, Inhabited

namespace Token

/-! ### Escapes -/

/-- The character that a letter stands for after a backslash. -/
def controlEscape? : Char → Option Char
  | 'a' => some '\x07'
  | 'f' => some '\x0c'
  | 'n' => some '\n'
  | 'r' => some '\r'
  | 't' => some '\t'
  | 'v' => some '\x0b'
  | '\\' => some '\\'
  | _ => none

/-- The shorthand that a letter stands for after a backslash. -/
def kindEscape? : Char → Option ClassItem
  | 'd' => some (.kind .digit false)
  | 'D' => some (.kind .digit true)
  | 's' => some (.kind .blank false)
  | 'S' => some (.kind .blank true)
  | 'w' => some (.kind .word false)
  | 'W' => some (.kind .word true)
  | _ => none

/-- The number of hexadecimal digits after a letter that gives a character by its code point. -/
def codeWidth? : Char → Option Nat
  | 'x' => some 2
  | 'u' => some 4
  | 'U' => some 8
  | _ => none

/-- Whether a character is a hexadecimal digit. -/
def isHexDigit (c : Char) : Bool :=
  c.isDigit || (decide ('a' ≤ c) && decide (c ≤ 'f')) || (decide ('A' ≤ c) && decide (c ≤ 'F'))

/-- Whether a character is an octal digit. -/
def isOctalDigit (c : Char) : Bool := decide ('0' ≤ c) && decide (c ≤ '7')

/-- The value of a digit in a base up to sixteen. -/
def digitValue (c : Char) : Nat :=
  if c.isDigit then c.toNat - '0'.toNat
  else if 'a' ≤ c then c.toNat - 'a'.toNat + 10
  else c.toNat - 'A'.toNat + 10

/-- The number that digits stand for. -/
def ofDigits (base : Nat) (digits : List Char) : Nat :=
  digits.foldl (fun n c => n * base + digitValue c) 0

/-- At most `n` characters from the front that satisfy `p`, and what is left. -/
def takeUpTo (p : Char → Bool) : Nat → List Char → List Char × List Char
  | n + 1, c :: cs =>
    if p c then
      let (taken, rest) := takeUpTo p n cs
      (c :: taken, rest)
    else ([], c :: cs)
  | _, cs => ([], cs)

/-- The character of a code point, where there is one. -/
def charOf? (n : Nat) : Option Char := if n.isValidChar then some (Char.ofNat n) else none

/-- A character given by `width` hexadecimal digits after `letter`. -/
def codeEscape (letter : Char) (width : Nat) (cs : List Char) : Except Cause Char × List Char :=
  let (digits, rest) := takeUpTo isHexDigit width cs
  let raw := String.ofList ('\\' :: letter :: digits)
  if digits.length < width then (.error (.incompleteEscape raw), rest)
  else
    match charOf? (ofDigits 16 digits) with
    | some c => (.ok c, rest)
    | none => (.error (.badEscape raw), rest)

/-- A character given by octal digits, which `digits` holds. -/
def octalEscape (digits : List Char) : Except Cause Char :=
  let n := ofDigits 8 digits
  if 0o377 < n then .error (.octalTooLarge (String.ofList ('\\' :: digits))) else .ok (Char.ofNat n)

/-- The character that stands for itself after a backslash: any but an ASCII letter or digit. -/
def plainEscape (c : Char) : Except Cause Char :=
  if c.isAlphanum then .error (.badEscape (String.ofList ['\\', c])) else .ok c

/-! ### Classes in brackets -/

/-- The member of a class that `\c` starts, and what is left. -/
def classEscape (c : Char) (cs : List Char) : Except Cause ClassItem × List Char :=
  match kindEscape? c, controlEscape? c, codeWidth? c with
  | some item, _, _ => (.ok item, cs)
  | _, some d, _ => (.ok (.single d), cs)
  | _, _, some width =>
    let (d, rest) := codeEscape c width cs
    (d.map .single, rest)
  | none, none, none =>
    if c == 'b' then (.ok (.single '\x08'), cs)
    else if isOctalDigit c then
      let (digits, rest) := takeUpTo isOctalDigit 2 cs
      ((octalEscape (c :: digits)).map .single, rest)
    else ((plainEscape c).map .single, cs)

/-- A character or an escape at the front of a class: as written, as a member, and what is left. -/
structure ClassUnit where
  raw : List Char
  item : Except Cause ClassItem
  rest : List Char

/-- The first character or escape of a class. -/
def classUnit? : List Char → Option ClassUnit
  | [] => none
  | ['\\'] => some ⟨['\\'], .error .trailingBackslash, []⟩
  | '\\' :: c :: cs =>
    let (item, rest) := classEscape c cs
    some ⟨['\\', c], item, rest⟩
  | c :: cs => some ⟨[c], .ok (.single c), cs⟩

/-- Reads the members of a class up to its closing bracket; a bracket in the first place is a member.
`total` counts the characters from the opening bracket on, and `seen` holds the members so far, last one
first. -/
def classItems : Nat → Nat → List ClassItem → List Char → Except (Cause × Nat) (List ClassItem × List Char)
  | 0, _, _, _ => .error (.unterminatedClass, 0)
  | fuel + 1, total, seen, cs =>
    match classUnit? cs with
    | none => .error (.unterminatedClass, 0)
    | some u =>
      if u.raw == [']'] && !seen.isEmpty then .ok (seen.reverse, u.rest)
      else
        match u.item with
        | .error cause => .error (cause, total - cs.length)
        | .ok first =>
          match u.rest with
          | '-' :: more =>
            match classUnit? more with
            | none => .error (.unterminatedClass, 0)
            | some v =>
              if v.raw == [']'] then .ok ((.single '-' :: first :: seen).reverse, v.rest)
              else
                match v.item with
                | .error cause => .error (cause, total - more.length)
                | .ok second =>
                  let bad := Except.error
                    (.badRange (String.ofList u.raw) (String.ofList v.raw),
                      total - v.rest.length - (u.raw.length + 1 + v.raw.length))
                  match first, second with
                  | .single low, .single high =>
                    if high.toNat < low.toNat then bad
                    else classItems fuel total (.range low high :: seen) v.rest
                  | _, _ => bad
          | rest => classItems fuel total (first :: seen) rest

/-- The token of a class, after its opening bracket. -/
def readClass (cs : List Char) : Token × List Char :=
  let (negated, body) := match cs with
    | '^' :: rest => (true, rest)
    | rest => (false, rest)
  match classItems (body.length + 1) (cs.length + 1) [] body with
  | .ok (items, rest) => (.set negated items, rest)
  | .error (cause, offset) => (.fault cause offset, [])

/-! ### Escapes outside of classes -/

/-- A token for a character, or the fault of an escape. -/
def ofChar : Except Cause Char → Token
  | .ok c => .char c
  | .error cause => .fault cause 0

/-- The token of a backslash and a digit other than zero: three octal digits are a character, all else is a
reference to a group. -/
def digitEscape (c : Char) (cs : List Char) : Token × List Char :=
  match cs with
  | d :: e :: rest =>
    if isOctalDigit c && isOctalDigit d && isOctalDigit e then (ofChar (octalEscape [c, d, e]), rest)
    else if d.isDigit then (.numberedRef (ofDigits 10 [c, d]), e :: rest)
    else (.numberedRef (digitValue c), cs)
  | [d] => if d.isDigit then (.numberedRef (ofDigits 10 [c, d]), []) else (.numberedRef (digitValue c), cs)
  | [] => (.numberedRef (digitValue c), cs)

/-- The token that `\c` starts, and what is left. -/
def escape (c : Char) (cs : List Char) : Token × List Char :=
  match c with
  | 'A' => (.textStart, cs)
  | 'Z' => (.textEnd, cs)
  | 'b' => (.wordEdge false, cs)
  | 'B' => (.wordEdge true, cs)
  | '0' =>
    let (digits, rest) := takeUpTo isOctalDigit 2 cs
    (ofChar (octalEscape ('0' :: digits)), rest)
  | c =>
    match kindEscape? c, controlEscape? c, codeWidth? c with
    | some item, _, _ => (.set false [item], cs)
    | _, some d, _ => (.char d, cs)
    | _, _, some width =>
      let (d, rest) := codeEscape c width cs
      (ofChar d, rest)
    | none, none, none =>
      if c.isDigit then digitEscape c cs else (ofChar (plainEscape c), cs)

/-! ### Modes -/

/-- Whether a character that is no mode letter is a letter. -/
def isLetter (c : Char) : Bool := isWordChar c && !isDigitChar c && c != '_'

/-- Adds the mode of a letter to a change. -/
def addMode (change : ModeChange) (c : Char) : Option ModeChange :=
  if c == 'u' then some { change with unicode := true }
  else (Modes.ofLetter? c).map fun m => { change with on := change.on.union m }

/-- Reads the letters of modes to set, up to the character that ends them, which is handed back. -/
def modesOn (change : ModeChange) (offset : Nat) :
    List Char → Except (Cause × Nat) (ModeChange × Char × Nat × List Char)
  | [] => .error (.modesNotEnded, offset)
  | c :: cs =>
    if c == ')' || c == ':' || c == '-' then .ok (change, c, offset + 1, cs)
    else if c == 'L' then .error (.localeMode, offset + 1)
    else
      match addMode change c with
      | none => .error (if isLetter c then .unknownMode else .modesNotEnded, offset)
      | some wider =>
        if wider.unicode && wider.on.ascii then .error (.modesExclude, offset + 1)
        else modesOn wider (offset + 1) cs

/-- Reads the letters of modes to drop, at least one, up to the colon. -/
def modesOff (first : Bool) (change : ModeChange) (offset : Nat) :
    List Char → Except (Cause × Nat) (ModeChange × Nat × List Char)
  | [] => .error (if first then .missingMode else .missingColon, offset)
  | c :: cs =>
    if c == ':' && !first then .ok (change, offset + 1, cs)
    else if c == 'L' || c == 'a' || c == 'u' then .error (.fixedModeOff, offset + 1)
    else
      match Modes.ofLetter? c with
      | none =>
        .error (if isLetter c then .unknownMode else if first then .missingMode else .missingColon, offset)
      | some m => modesOff false { change with off := change.off.union m } (offset + 1) cs

/-- The token of `(?` and mode letters. -/
def readModes (cs : List Char) : Token × List Char :=
  match modesOn {} 2 cs with
  | .error (cause, offset) => (.fault cause offset, [])
  | .ok (change, closing, offset, rest) =>
    if closing == ')' then (.modes change, rest)
    else if closing == ':' then (.openPlain change, rest)
    else
      match modesOff true change offset rest with
      | .error (cause, offset) => (.fault cause offset, [])
      | .ok (change, offset, rest) =>
        if change.on.meets change.off then (.fault .modeOnAndOff (offset - 1), [])
        else (.openPlain change, rest)

/-! ### Groups -/

/-- The rest of a text after a comment in parentheses; a backslash hides the character after it. -/
def skipComment? : List Char → Option (List Char)
  | [] => none
  | '\\' :: _ :: cs => skipComment? cs
  | c :: cs => if c == ')' then some cs else skipComment? cs

/-- The rest of a text after a comment that ends with its line; a backslash hides the character after it. -/
def skipLine : List Char → List Char
  | [] => []
  | '\\' :: _ :: cs => skipLine cs
  | c :: cs => if c == '\n' then cs else skipLine cs

/-- A name up to its closing character, and the rest after that. -/
def name? (closing : Char) : List Char → Option (List Char × List Char)
  | [] => none
  | '\\' :: c :: cs => (name? closing cs).map fun (name, rest) => ('\\' :: c :: name, rest)
  | c :: cs =>
    if c == closing then some ([], cs)
    else (name? closing cs).map fun (name, rest) => (c :: name, rest)

/-- The token that a name makes, four characters after the start of the group. -/
def readName (closing : Char) (make : String → Token) (cs : List Char) : Token × List Char :=
  match name? closing cs with
  | none => (.fault (if cs.isEmpty then .missingGroupName else .unterminatedGroupName closing) 4, [])
  | some ([], _) => (.fault .missingGroupName 4, [])
  | some (name, rest) =>
    let name := String.ofList name
    if isIdentifier name then (make name, rest) else (.fault (.badGroupName name) 4, [])

/-- The token after an opening parenthesis. -/
def readOpening : List Char → Token × List Char
  | '?' :: cs =>
    match cs with
    | [] => (.fault .unexpectedEnd 2, [])
    | ':' :: rest => (.openPlain {}, rest)
    | '=' :: rest => (.openLook false false, rest)
    | '!' :: rest => (.openLook false true, rest)
    | '<' :: '=' :: rest => (.openLook true false, rest)
    | '<' :: '!' :: rest => (.openLook true true, rest)
    | ['<'] => (.fault .unexpectedEnd 3, [])
    | '<' :: c :: _ => (.fault (.unknownExtension (String.ofList ['<', c])) 1, [])
    | 'P' :: '<' :: rest => readName '>' (.openCapture ∘ some) rest
    | 'P' :: '=' :: rest => readName ')' .namedRef rest
    | ['P'] => (.fault .unexpectedEnd 3, [])
    | 'P' :: c :: _ => (.fault (.unknownExtension (String.ofList ['P', c])) 1, [])
    | '#' :: rest =>
      match skipComment? rest with
      | some rest => (.comment, rest)
      | none => (.fault .unterminatedComment 0, [])
    | c :: _ =>
      if c == '-' || c == 'u' || c == 'L' || (Modes.ofLetter? c).isSome then readModes cs
      else (.fault (.unknownExtension (String.ofList [c])) 1, [])
  | cs => (.openCapture none, cs)

/-! ### Repetitions -/

/-- Whether a lazy mark comes next, and what is left. -/
def lazyMark : List Char → Bool × List Char
  | '?' :: cs => (true, cs)
  | cs => (false, cs)

/-- The least and the greatest count after an opening brace, and what is left; none where the brace stands for
itself. -/
def counts? (cs : List Char) : Option ((Nat × Option Nat) × List Char) :=
  let low := cs.takeWhile Char.isDigit
  let number? (digits : List Char) : Option Nat := if digits.isEmpty then none else some (ofDigits 10 digits)
  match cs.dropWhile Char.isDigit with
  | '}' :: rest => (number? low).map fun n => ((n, some n), rest)
  | ',' :: more =>
    match more.dropWhile Char.isDigit with
    | '}' :: rest => some (((number? low).getD 0, number? (more.takeWhile Char.isDigit)), rest)
    | _ => none
  | _ => none

/-- The repetition with these counts, and the lazy mark after it. -/
def readQuantifier (min : Nat) (max : Option Nat) (cs : List Char) : Token × List Char :=
  let (lazy, rest) := lazyMark cs
  (.quantifier min max lazy, rest)

/-- The token of an opening brace. -/
def readBrace (cs : List Char) : Token × List Char :=
  match counts? cs with
  | none => (.char '{', cs)
  | some ((min, max), rest) =>
    if max.any (· < min) then (.fault .repeatOrder 1, []) else readQuantifier min max rest

/-! ### All tokens -/

/-- The token that starts with `c`, and what is left. -/
def read (verbose : Bool) (c : Char) (cs : List Char) : Token × List Char :=
  if verbose && isAsciiBlank c then (.skipped, cs)
  else if verbose && c == '#' then (.skipped, skipLine cs)
  else
    match c with
    | '(' => readOpening cs
    | ')' => (.close, cs)
    | '|' => (.bar, cs)
    | '^' => (.caret, cs)
    | '$' => (.dollar, cs)
    | '.' => (.dot, cs)
    | '*' => readQuantifier 0 none cs
    | '+' => readQuantifier 1 none cs
    | '?' => readQuantifier 0 (some 1) cs
    | '{' => readBrace cs
    | '[' => readClass cs
    | '\\' =>
      match cs with
      | [] => (.fault .trailingBackslash 0, [])
      | d :: cs => escape d cs
    | c => (.char c, cs)

/-- Whether text is verbose after a token, for the groups that are then open, innermost first. -/
def nesting (verbose : List Bool) : Token → List Bool
  | .openCapture _ | .openLook _ _ => verbose.headD false :: verbose
  | .openPlain change =>
    ((verbose.headD false || change.on.verbose) && !change.off.verbose) :: verbose
  | .close => verbose.tail
  | .modes change => (verbose.headD false || change.on.verbose) :: verbose.tail
  | _ => verbose

end Token

/-- A token and the place where it starts. -/
structure Spot where
  place : Nat
  token : Token
deriving DecidableEq, Repr, Inhabited

/-- The tokens of a text whose first character has the given place. The first argument bounds the number of
steps; the length of the text is enough. -/
def scanFrom : Nat → List Bool → Nat → List Char → List Spot
  | 0, _, _, _ => []
  | _, _, _, [] => []
  | fuel + 1, verbose, place, c :: cs =>
    let (token, rest) := Token.read (verbose.headD false) c cs
    ⟨place, token⟩ :: scanFrom fuel (token.nesting verbose) (place + (cs.length + 1 - rest.length)) rest

/-- The tokens of a pattern text. -/
def scan (verbose : Bool) (source : List Char) : List Spot := scanFrom source.length [verbose] 0 source

end Switchboard.Pattern
