import Switchboard.MultiWord
import Switchboard.Proofs.Text.Words

/-!
# The Words of a Value

A value of several words is seen in two ways, as a text and as its words, and a handler may use either.
The two agree when the words are those of the text (`MultiWord.Agrees`). A matched text is split where
the value is made, and so is a default that is a text. A default that is a sequence comes the other way:
its members are the words, and the text is made by joining them. Splitting gives them back exactly when
each of them is a word (`words_intercalate_iff`), so a member that is empty or holds a blank is one word
to a handler that counts them, and none or several to a handler that reads the text.

## Main results

* `MultiWord.words_are_split`: the values of several words that agree with their text.
* `MultiWord.member_not_split`: a sequence with a blank in a member.
-/

namespace Switchboard

/-- The members of a sequence. -/
def Value.members : Value → List Value
  | .list vs | .tuple vs => vs
  | _ => []

namespace MultiWord

/-- The words are those that the text is split into. -/
def Agrees (m : MultiWord) : Prop := m.words = wordsOf m.text

instance : DecidablePred Agrees := fun m => inferInstanceAs (Decidable (m.words = wordsOf m.text))

theorem agrees_ofText (text : String) : (ofText text).Agrees := rfl

theorem agrees_empty : empty.Agrees := by decide

/-- Words joined by spaces agree with their text exactly when each of them is a word. -/
theorem agrees_joined_iff {words : List String} :
    Agrees { words, text := String.intercalate " " words } ↔ ∀ w ∈ words, IsWord w.toList := by
  have hspace : " ".toList = [' '] := rfl
  have hsplit : words = wordsOf (String.intercalate " " words) ↔
      Switchboard.words ([' '].intercalate (words.map String.toList)) = words.map String.toList := by
    rw [wordsOf, String.toList_intercalate, hspace]
    constructor
    · intro h
      nth_rewrite 2 [h]
      simp
    · intro h
      simp [h]
  rw [Agrees, hsplit, words_intercalate_iff, List.forall_mem_map]

/-- The value of an absent parameter agrees with its text exactly when the members of its default are
words, as they are when the default is no sequence. -/
theorem agrees_ofDefault_iff (default : Value) (name : String) :
    (ofDefault default name).value.Agrees ↔ ∀ v ∈ default.members, IsWord v.plain.toList := by
  have hnone : ∀ v ∈ ([] : List Value), IsWord v.plain.toList := nofun
  cases default with
  | text s => exact iff_of_true (agrees_ofText s) hnone
  | list vs => exact agrees_joined_iff.trans List.forall_mem_map
  | tuple vs => exact agrees_joined_iff.trans List.forall_mem_map
  | bool b => cases b <;> exact iff_of_true agrees_empty hnone
  | _ => exact iff_of_true agrees_empty hnone

/-- **The words are the split of the text**, for every value made from a text. The value made from a
default agrees with its text as well, save for a sequence: there it does so exactly when every member,
read as text, is a word. -/
theorem words_are_split (text : String) (default : Value) (name : String) :
    (ofText text).words = wordsOf (ofText text).text ∧
      ((∀ v ∈ default.members, IsWord v.plain.toList) ↔
        (ofDefault default name).value.words = wordsOf (ofDefault default name).value.text) :=
  ⟨agrees_ofText text, (agrees_ofDefault_iff default name).symm⟩

/-- Numbers are words too, and a default that is no sequence has no members that could be none. -/
theorem words_are_split_numbered :
    let numbered : Value := .tuple [.text "no", .int 2]
    (∀ v ∈ numbered.members, IsWord v.plain.toList) ∧
      (ofDefault numbered "rest").value.words = wordsOf (ofDefault numbered "rest").value.text ∧
      (ofDefault numbered "rest").value.text = "no 2" ∧
      (ofDefault (.text " all  of it ") "rest").value.words =
        wordsOf (ofDefault (.text " all  of it ") "rest").value.text := by
  intro numbered
  have hmembers : ∀ v ∈ numbered.members, IsWord v.plain.toList := by
    intro v hv
    rcases List.mem_pair.mp hv with rfl | rfl
    · exact ⟨by decide, List.all_eq_true.mp (by decide)⟩
    · exact ⟨by decide, List.all_eq_true.mp (by decide)⟩
  obtain ⟨-, hnumbered⟩ := words_are_split "no 2" numbered "rest"
  obtain ⟨-, htext⟩ := words_are_split "no 2" (.text " all  of it ") "rest"
  exact ⟨hmembers, hnumbered.mp hmembers, by decide, htext.mp nofun⟩

/-- The member `a b` is one word of its value and two words of the text, and an empty member is a word of
an empty text. -/
theorem member_not_split :
    let spaced := (ofDefault (.list [.text "a b"]) "rest").value
    let blank := (ofDefault (.tuple [.text ""]) "rest").value
    (spaced.text = "a b" ∧ spaced.words = ["a b"] ∧ wordsOf spaced.text = ["a", "b"]) ∧
      (blank.text = "" ∧ blank.words = [""] ∧ wordsOf blank.text = []) ∧
      spaced.words ≠ wordsOf spaced.text ∧ blank.words ≠ wordsOf blank.text := by
  decide

end MultiWord

end Switchboard
