import Switchboard.Text.Blank

/-!
# Lexemes of a template

A template text, trimmed, falls into runs of blanks, brackets, and words. `Lexeme.ofText` makes the runs as long
as possible; the texts of the lexemes in a row give back the trimmed text.
-/

namespace Switchboard

/-- A lexeme of a template. -/
inductive Lexeme where
  | blank (run : List Char)
  | opening
  | closing
  | word (text : List Char)
deriving DecidableEq, Repr, Inhabited

namespace Lexeme

/-- The text of a lexeme. -/
def text : Lexeme → List Char
  | blank run => run
  | opening => ['[']
  | closing => [']']
  | word text => text

/-- Puts a character in front of lexemes: a blank joins a run of blanks, and another character that is no bracket
a word. -/
def cons (c : Char) (ls : List Lexeme) : List Lexeme :=
  if c == '[' then opening :: ls
  else if c == ']' then closing :: ls
  else if isBlank c then
    match ls with
    | blank run :: rest => blank (c :: run) :: rest
    | ls => blank [c] :: ls
  else
    match ls with
    | word text :: rest => word (c :: text) :: rest
    | ls => word [c] :: ls

/-- The lexemes of a text as it stands. -/
def scan (cs : List Char) : List Lexeme := cs.foldr cons []

/-- The lexemes of a template text. -/
def ofText (template : String) : List Lexeme := scan (trim template.toList)

@[simp] theorem scan_nil : scan [] = [] := rfl

@[simp] theorem scan_cons (c : Char) (cs : List Char) : scan (c :: cs) = cons c (scan cs) := rfl

/-- Putting a character in front of lexemes puts it in front of their text. -/
theorem flatMap_text_cons (c : Char) (ls : List Lexeme) :
    (cons c ls).flatMap text = c :: ls.flatMap text := by
  unfold cons
  split
  · simp_all [text]
  · split
    · simp_all [text]
    · split
      · split <;> simp [text]
      · split <;> simp [text]

/-- The texts of the lexemes give back the text. -/
theorem flatMap_text_scan (cs : List Char) : (scan cs).flatMap text = cs := by
  induction cs with
  | nil => rfl
  | cons c cs ih => rw [scan_cons, flatMap_text_cons, ih]

end Lexeme

end Switchboard
