import Switchboard.Text.Quoted

/-!
# Quoted Text Has No Line Feed

A quoted text stands in one line of a report, whatever it quotes: the line feed has an escape, the
quotation marks are no line feeds, and neither is a hexadecimal digit.
-/

namespace Switchboard

theorem hexDigit_ne_lineFeed {n : Nat} (h : n < 16) : hexDigit n ≠ '\n' := by
  have hdigits : ∀ k : Fin 16, hexDigit k ≠ '\n' := by decide
  exact hdigits ⟨n, h⟩

theorem lineFeed_notMem_hexDigits (width n : Nat) : '\n' ∉ hexDigits width n := by
  induction width generalizing n with
  | zero => simp [hexDigits]
  | succ width ih =>
      have hlast : hexDigit (n % 16) ≠ '\n' := hexDigit_ne_lineFeed (Nat.mod_lt _ (by decide))
      simp [hexDigits, ih, hlast.symm]

theorem lineFeed_notMem_codePointEscape (c : Char) : '\n' ∉ codePointEscape c := by
  unfold codePointEscape
  repeat' split
  all_goals simp [lineFeed_notMem_hexDigits]

theorem quotationMark_ne_lineFeed (cs : List Char) : quotationMark cs ≠ '\n' := by
  unfold quotationMark
  split <;> decide

/-- No character is written with a line feed, not even the line feed. -/
theorem lineFeed_notMem_quotedChar {mark : Char} (hmark : mark ≠ '\n') (c : Char) :
    '\n' ∉ quotedChar mark c := by
  unfold quotedChar
  split
  case isTrue h =>
      have hc : c ≠ '\n' := by
        rintro rfl
        simp [hmark.symm] at h
      simp [hc.symm]
  case isFalse =>
      split
      case isTrue => decide
      case isFalse hfeed =>
          have hc : '\n' ≠ c := fun h => hfeed (beq_iff_eq.mpr h.symm)
          repeat' split
          all_goals simp [hc, lineFeed_notMem_codePointEscape]

/-- **Quoted text stands in one line.** -/
theorem lineFeed_notMem_quoted (s : String) : '\n' ∉ (quoted s).toList := by
  have hmark := quotationMark_ne_lineFeed s.toList
  have hchars : '\n' ∉ s.toList.flatMap (quotedChar (quotationMark s.toList)) := by
    simp only [List.mem_flatMap, not_exists, not_and]
    exact fun c _ => lineFeed_notMem_quotedChar hmark c
  rw [quoted, String.toList_ofList, quotedChars]
  simp only [List.cons_append, List.mem_cons, List.mem_append, List.not_mem_nil, or_false, not_or]
  exact ⟨hmark.symm, hchars, hmark.symm⟩

end Switchboard
