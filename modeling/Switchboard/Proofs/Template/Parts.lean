import Switchboard.Proofs.Pattern.Reading
import Switchboard.Proofs.Template.Compiled
import Switchboard.Proofs.Text.Words
import Switchboard.Template.Compile

/-!
# The Parts of a Template

A template without brackets is a list of words, and each word is a `Part`: a literal text, or a
parameter with what it may be bound to (`Extent`), whether it may be left out, and a suffix. This
module follows such a template through compiling. Its pattern text is that of its parts, and
reading it gives the pieces of the parts, one group for each parameter.

Parameters with a pattern of their own have no part here, only those without requirement and
those that require a text.

## Main results

* `lexemesSource_scan`: the pattern text of a template without brackets.
* `Part.reads`, `Part.pushes`: how the pattern text of one part is read.
* `read_partsSource`: the pattern of a template without brackets.
-/

namespace Switchboard

open Pattern

/-- What a parameter may be bound to: one word, the rest of a line, or one text, and this with
either sigil. -/
inductive Extent where
  | word
  | line
  | exactly (multi : Bool) (text : List Char)
deriving DecidableEq, Repr

/-- A word of a template. -/
inductive Part where
  | literal (text : List Char)
  | parameter (name : String) (extent : Extent) (optional : Bool) (suffix : List Char)
deriving DecidableEq, Repr

/-! ### Extents -/

namespace Extent

/-- The extent of a parameter whose requirement is no pattern. -/
def ofRequirement (multi : Bool) : Value → Extent
  | .text s => exactly multi s.toList
  | _ => if multi then line else word

/-- Whether the parameter has the sigil of those that take the rest of the message. -/
def multi : Extent → Bool
  | word => false
  | line => true
  | exactly multi _ => multi

/-- The pattern text of an extent. -/
def source : Extent → List Char
  | word => freeSource false
  | line => freeSource true
  | exactly _ text => Pattern.literal text

/-- The tokens of an extent. -/
def tokens : Extent → List Token
  | word => [.set false [.kind .blank true], .quantifier 1 none false]
  | line => [.dot, .quantifier 0 none false]
  | exactly _ text => text.map .char

/-- The characters of a word, as a set of a pattern. -/
def wordSet : CharSet := { items := [.kind .blank true] }

/-- The pieces of an extent. -/
def pieces : Extent → List Piece
  | word => [⟨.rep (.set wordSet) 1 none false, .repetition⟩]
  | line => [⟨.rep (.set .notLineFeed) 0 none false, .repetition⟩]
  | exactly _ text => literalPieces text

theorem head?_source (extent : Extent) : extent.source.head? ≠ some '?' := by
  cases extent with
  | word => decide
  | line => decide
  | exactly multi text => exact head?_literal text

theorem reads (extent : Extent) : Reads extent.source extent.tokens := by
  cases extent with
  | word => exact reads_nonblank.append reads_plus (by decide)
  | line => exact reads_dot.append reads_star (by decide)
  | exactly multi text => exact reads_literal text

theorem pushes (extent : Extent) : Pushes extent.tokens (fun _ => extent.pieces) 0 := by
  cases extent with
  | word => exact (pushes_set _).quantifier 1 none false
  | line => exact pushes_dot.quantifier 0 none false
  | exactly multi text => exact pushes_literal text

end Extent

/-- A requirement that is no pattern: there is none, or it is a text. -/
def Value.IsTextual (rule : Value) : Prop := rule = .null ∨ ∃ s, rule = .text s

/-- The pattern text of the value of a parameter whose requirement is no pattern. -/
theorem valueSource_eq_ok {requirements : Bindings} {slot : Slot}
    (h : (requirements.getD (String.ofList slot.name)).IsTextual) :
    valueSource requirements slot = .ok
      (Extent.ofRequirement slot.multi (requirements.getD (String.ofList slot.name))).source := by
  rw [valueSource]
  rcases h with hnull | ⟨s, htext⟩
  · rw [hnull]
    cases slot.multi <;> rfl
  · rw [htext]
    rfl

/-! ### Leads -/

/-- The pattern text for the blanks in front of a word, if there are any. -/
def leadSource (lead : Bool) : List Char := if lead then blanksSource else []

/-- The tokens for the blanks in front of a word. -/
def leadTokens (lead : Bool) : List Token :=
  if lead then [.set false [.kind .blank false], .quantifier 1 none false] else []

/-- The blank characters, as a set of a pattern. -/
def blankSet : CharSet := { items := [.kind .blank false] }

/-- The pieces for the blanks in front of a word. -/
def leadPieces (lead : Bool) : List Piece :=
  if lead then [⟨.rep (.set blankSet) 1 none false, .repetition⟩] else []

theorem head?_leadSource (lead : Bool) : (leadSource lead).head? ≠ some '?' := by
  cases lead <;> decide

theorem reads_lead (lead : Bool) : Reads (leadSource lead) (leadTokens lead) := by
  cases lead with
  | false => exact reads_nil
  | true => exact reads_blank.append reads_plus (by decide)

theorem pushes_lead (lead : Bool) : Pushes (leadTokens lead) (fun _ => leadPieces lead) 0 := by
  cases lead with
  | false => exact pushes_nil
  | true => exact (pushes_set _).quantifier 1 none false

/-! ### Parts -/

namespace Part

/-- The part that a word is. -/
def ofWord (defaults requirements : Bindings) (word : List Char) : Part :=
  match Slot.ofWord? word with
  | none => literal word
  | some slot =>
      let name := String.ofList slot.name
      parameter name (.ofRequirement slot.multi (requirements.getD name)) (defaults.has name)
        slot.suffix

/-- The pattern text of a captured value, with the blanks in front of it. -/
def groupSource (lead : Bool) (extent : Extent) : List Char :=
  leadSource lead ++ '(' :: extent.source ++ [')']

/-- The pattern text of a part. -/
def source (lead : Bool) : Part → List Char
  | literal text => leadSource lead ++ Pattern.literal text
  | parameter _ extent optional suffix =>
      let group := groupSource lead extent
      (if optional then "(?:".toList ++ group ++ ")?".toList else group) ++ Pattern.literal suffix

/-- The tokens of a captured value. -/
def groupTokens (lead : Bool) (extent : Extent) : List Token :=
  leadTokens lead ++ (.openCapture none :: extent.tokens ++ [.close])

/-- The tokens of a part. -/
def tokens (lead : Bool) : Part → List Token
  | literal text => leadTokens lead ++ text.map .char
  | parameter _ extent optional suffix =>
      let group := groupTokens lead extent
      (if optional then .openPlain {} :: group ++ [.close] ++ [.quantifier 0 (some 1) false]
        else group) ++ suffix.map .char

/-- The pieces of a captured value, when so many groups come before it. -/
def groupPieces (lead : Bool) (extent : Extent) (g : Nat) : List Piece :=
  leadPieces lead ++ [⟨.group (g + 1) (Piece.sequence extent.pieces), .item⟩]

/-- The pieces of a part, when so many groups come before it. -/
def pieces (lead : Bool) (g : Nat) : Part → List Piece
  | literal text => leadPieces lead ++ literalPieces text
  | parameter _ extent optional suffix =>
      let group := groupPieces lead extent g
      (if optional then [⟨.rep (Piece.sequence group) 0 (some 1) false, .repetition⟩] else group) ++
        literalPieces suffix

/-- The number of groups of a part. -/
def groups : Part → Nat
  | literal _ => 0
  | parameter _ _ _ _ => 1

/-- The pattern text of a word is that of its part. -/
theorem wordSource_eq_ok {defaults requirements : Bindings} {word : List Char}
    (h : ∀ slot, Slot.ofWord? word = some slot →
      (requirements.getD (String.ofList slot.name)).IsTextual) (lead : Bool) :
    wordSource defaults requirements (leadSource lead) word =
      .ok ((ofWord defaults requirements word).source lead) := by
  rw [wordSource, ofWord]
  cases hslot : Slot.ofWord? word with
  | none => rfl
  | some slot =>
      simp only [valueSource_eq_ok (h slot hslot)]
      rfl

theorem reads_group (lead : Bool) (extent : Extent) :
    Reads (groupSource lead extent) (groupTokens lead extent) := by
  have hgroup := reads_openCapture.append (extent.reads.append reads_close (by decide))
    (head?_append_ne extent.head?_source (by decide))
  rw [groupSource, List.append_assoc]
  exact (reads_lead lead).append hgroup (by simp)

theorem head?_groupSource (lead : Bool) (extent : Extent) :
    (groupSource lead extent).head? ≠ some '?' := by
  rw [groupSource, List.append_assoc]
  exact head?_append_ne (head?_leadSource lead) (by simp)

/-- The pattern text of a part can follow any other text. -/
theorem head?_source (part : Part) (lead : Bool) : (part.source lead).head? ≠ some '?' := by
  cases part with
  | literal text => exact head?_append_ne (head?_leadSource lead) (head?_literal text)
  | parameter name extent optional suffix =>
      refine head?_append_ne ?_ (head?_literal suffix)
      cases optional with
      | false => exact head?_groupSource lead extent
      | true => simp

/-- **How a part is read**: as its tokens. -/
theorem reads (part : Part) (lead : Bool) : Reads (part.source lead) (part.tokens lead) := by
  cases part with
  | literal text => exact (reads_lead lead).append (reads_literal text) (head?_literal text)
  | parameter name extent optional suffix =>
      have hsuffix := head?_literal suffix
      have hgroup := reads_group lead extent
      cases optional with
      | false => exact hgroup.append (reads_literal suffix) hsuffix
      | true =>
          have hoptional := (reads_openPlain.append hgroup (head?_groupSource lead extent)).append
            reads_closeOptional (by decide)
          have h := hoptional.append (reads_literal suffix) hsuffix
          simpa [source, tokens] using h

theorem pushes_group (lead : Bool) (extent : Extent) :
    Pushes (groupTokens lead extent) (groupPieces lead extent) 1 :=
  (pushes_lead lead).append extent.pushes.capture

/-- **What a part adds**: its pieces, and its group. -/
theorem pushes (part : Part) (lead : Bool) :
    Pushes (part.tokens lead) (fun g => part.pieces lead g) part.groups := by
  cases part with
  | literal text => exact (pushes_lead lead).append (pushes_literal text)
  | parameter name extent optional suffix =>
      have hgroup := pushes_group lead extent
      cases optional with
      | false => exact hgroup.append (pushes_literal suffix)
      | true =>
          have hoptional := hgroup.plain.quantifier 0 (some 1) false
          exact hoptional.append (pushes_literal suffix)

end Part

/-! ### All parts -/

/-- The pattern text of parts, with the blanks between them. -/
def partsSource (lead : Bool) : List Part → List Char
  | [] => []
  | part :: parts => part.source lead ++ partsSource true parts

/-- The tokens of parts. -/
def partsTokens (lead : Bool) : List Part → List Token
  | [] => []
  | part :: parts => part.tokens lead ++ partsTokens true parts

/-- The pieces of parts, when so many groups come before them. -/
def partsPieces (lead : Bool) : Nat → List Part → List Piece
  | _, [] => []
  | g, part :: parts => part.pieces lead g ++ partsPieces true (g + part.groups) parts

/-- The number of groups of parts. -/
def partsGroups : List Part → Nat
  | [] => 0
  | part :: parts => part.groups + partsGroups parts

theorem head?_partsSource (parts : List Part) (lead : Bool) :
    (partsSource lead parts).head? ≠ some '?' := by
  induction parts generalizing lead with
  | nil => simp [partsSource]
  | cons part parts ih => exact head?_append_ne (part.head?_source lead) (ih true)

theorem reads_parts (parts : List Part) (lead : Bool) :
    Reads (partsSource lead parts) (partsTokens lead parts) := by
  induction parts generalizing lead with
  | nil => exact reads_nil
  | cons part parts ih => exact (part.reads lead).append (ih true) (head?_partsSource parts true)

theorem pushes_parts (parts : List Part) (lead : Bool) :
    Pushes (partsTokens lead parts) (fun g => partsPieces lead g parts) (partsGroups parts) := by
  induction parts generalizing lead with
  | nil => exact pushes_nil
  | cons part parts ih => exact (part.pushes lead).append (ih true)

/-- The expressions of the pattern of parts. -/
def patternExprs (parts : List Part) : List Expr :=
  .anchor .lineStart :: ((partsPieces false 0 parts).map (·.expr) ++ [.anchor .lineEnd])

/-- **The pattern of a template without brackets**, from its parts. -/
theorem read_partsSource (parts : List Part) :
    Pattern.read (String.ofList ('^' :: partsSource false parts ++ ['$'])) lineModes = .ok
      { source := String.ofList ('^' :: partsSource false parts ++ ['$']), modes := lineModes,
        expr := .seqAll (patternExprs parts), groups := partsGroups parts } := by
  have hreads := reads_caret.append ((reads_parts parts false).append reads_dollar (by decide))
    (head?_append_ne (head?_partsSource parts false) (by decide))
  have hpushes := pushes_caret.append ((pushes_parts parts false).append pushes_dollar)
  have h := read_eq_ok hreads hpushes
  simpa [Piece.sequence, patternExprs] using h

end Switchboard
