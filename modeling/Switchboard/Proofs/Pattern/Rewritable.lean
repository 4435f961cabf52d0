import Switchboard.Proofs.Pattern.Splice

/-!
# Patterns that are Rewritten

The rewriting that makes capturing groups plain fails at one thing only, the name of a group that is
never closed. A pattern that is read has no such name outside of its comments, so the rewriting gives a
text where no comment leads it astray. A comment that does not end is no exception: it is the rest of the
pattern.

## Main results

* `Rewritable.exists_fragment`: a pattern whose comments are harmless has a fragment.
-/

namespace Switchboard.Pattern

/-- From here on the rewriting gives a text. -/
def Rewrites (cs : List Char) : Prop := (withoutCapturesFrom .outside cs).isSome = true

/-- A text that the rewriting passes may stand in front. -/
theorem Rewrites.of_passes {text plain rest : List Char} (h : Passes .outside .outside text plain)
    (hrest : Rewrites rest) : Rewrites (text ++ rest) := by
  rw [Rewrites, h rest, Option.isSome_map]
  exact hrest

/-- A harmless comment that does not end is the rest of the text. -/
theorem rewrites_of_not_ends {cs : List Char} (hends : ¬ Token.commentEnds cs = true)
    (h : Token.IsHarmless (Token.commentText cs)) : Rewrites cs := by
  have hbody : ∀ {closing : Char} {cs : List Char}, ¬ (Token.name? closing cs).isSome = true →
      Token.IsHarmless (((Token.name? closing cs).map (·.1)).getD cs) → Rewrites cs := by
    intro closing cs hnone hcs
    rw [Option.not_isSome_iff_eq_none.mp hnone] at hcs
    exact hcs.isSome_withoutCapturesFrom
  have hhash : ∀ {cs : List Char}, Rewrites cs → Rewrites ('#' :: cs) :=
    fun hcs => .of_passes (passes_char (by decide) (by decide) (by decide)) hcs
  unfold Token.commentEnds at hends
  split at hends
  · exact hhash (hbody hends h)
  · rename_i cs
    have hmark : Rewrites ('?' :: '#' :: cs) :=
      .of_passes (passes_char (by decide) (by decide) (by decide)) (hhash (hbody hends h))
    rw [Rewrites, withoutCapturesFrom_mark, Option.isSome_map]
    · exact hmark
    · rintro ⟨tail, htail⟩
      cases htail
  · exact absurd rfl hends

/-- **The rewriting gives a text** for a pattern that is read and whose comments are harmless. -/
theorem rewrites_of_run (source : List Char) {fuel : Nat} (place : Nat) {verbose : List Bool}
    {cs : List Char} {a a' : Assembly} (hplace : source.drop place = cs) (hfuel : cs.length ≤ fuel)
    (hrun : a.run (scanFrom fuel verbose place cs) = .ok a')
    (hharmless : ∀ spot ∈ scanFrom fuel verbose place cs, spot.token = .skipped ∨ spot.token = .comment →
      Token.IsHarmless (Token.commentText (source.drop spot.place))) :
    Rewrites cs := by
  induction fuel generalizing place verbose cs a with
  | zero =>
      obtain rfl : cs = [] := List.eq_nil_of_length_eq_zero (by omega)
      rfl
  | succ fuel ih =>
      cases cs with
      | nil => rfl
      | cons c cs =>
          rcases hread : Token.read (verbose.headD false) c cs with ⟨token, rest⟩
          rw [scanFrom, hread] at hrun hharmless
          obtain ⟨b, -, hmore⟩ := Assembly.run_cons_eq_ok_iff.mp hrun
          obtain ⟨hfirst, hothers⟩ := List.forall_mem_cons.mp hharmless
          simp only [hplace] at hfirst
          by_cases hends : (token = .skipped ∨ token = .comment) ∧ ¬ Token.commentEnds (c :: cs) = true
          · exact rewrites_of_not_ends hends.2 (hfirst hends.1)
          · obtain ⟨text, plain, htext, hchunk⟩ := Token.exists_chunk hread
              (Assembly.hasChunk_of_run hrun _ List.mem_cons_self) fun htoken =>
                ⟨Decidable.of_not_not fun hnot => hends ⟨htoken, hnot⟩, hfirst htoken⟩
            have hlength := congrArg List.length htext
            have hpos := List.length_pos_of_ne_nil hchunk.ne_nil
            simp only [List.length_cons, List.length_append] at hlength hfuel
            have hleft : source.drop (place + (cs.length + 1 - rest.length)) = rest := by
              rw [← List.drop_drop, hplace, htext]
              exact List.drop_left' (by omega)
            rw [htext, Rewrites, hchunk.passes rest rfl, Option.isSome_map]
            exact ih _ hleft (by omega) hmore hothers

/-- A pattern that the rewriting gives a text for: it has been read, and its comments are harmless. -/
structure Rewritable (p : Pattern) : Prop where
  exists_read : ∃ modes, read p.source modes = .ok p
  harmless : ∀ spot ∈ scan p.modes.verbose p.source.toList, spot.token = .skipped ∨ spot.token = .comment →
    Token.IsHarmless (Token.commentText (p.source.toList.drop spot.place))

theorem Rewritable.exists_fragment {p : Pattern} (h : p.Rewritable) : ∃ text, p.fragment = some text := by
  obtain ⟨modes, hread⟩ := h.exists_read
  obtain ⟨done, hrun, -, -, -⟩ := read_eq_ok_iff.mp (read_modes hread)
  have hrewrites := rewrites_of_run p.source.toList 0 rfl le_rfl hrun h.harmless
  obtain ⟨plain, hplain⟩ := Option.isSome_iff_exists.mp hrewrites
  exact ⟨_, by rw [fragment, withoutCaptures]; exact congrArg (Option.map _) hplain⟩

end Switchboard.Pattern
