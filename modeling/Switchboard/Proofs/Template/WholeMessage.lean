import Switchboard.Proofs.Template.Rejection
import Switchboard.Proofs.Template.Requirement

/-!
# Messages that Fit as a Whole

A message is searched, and only then is the match compared with all of it. So the match that counts is
the first that the pattern has at the start, and not one that would take more. Since the pattern of a
template ends with the end of a line, the first match stops at the end of some line. If the message has
no other line, that is all of it; otherwise a match of the whole message may come later, and the message
only fits in part.

## Main results

* `Expr.exists_search_line`: where there is a way from the start, the search stops at the end of a line.
* `Template.recognizes_whole_messages`: messages that fit as a whole, and those that are recognized.
-/

namespace Switchboard

open Pattern

/-! ### The first match -/

/-- **A search stops at the end of a line**, when the expression ends with one and there is a way from
the start of the text. -/
theorem Pattern.Expr.exists_search_line {exprs : List Expr} {text : List Char} {last : State}
    (hlast : last ∈ (Expr.seqAll (exprs ++ [.anchor .lineEnd])).ways (.start text)) :
    ∃ found rest, (Expr.seqAll (exprs ++ [.anchor .lineEnd])).search text = some found ∧
      text = found.text ++ rest ∧ (rest = [] ∨ ∃ more, rest = '\n' :: more) := by
  obtain ⟨first, later, hways⟩ := List.exists_cons_of_ne_nil (List.ne_nil_of_mem hlast)
  have hmem : first ∈ (Expr.seqAll (exprs ++ [.anchor .lineEnd])).ways (.start text) :=
    hways ▸ List.mem_cons_self
  have hsearch := Expr.search_of_head?_ways (congrArg List.head? hways)
  obtain ⟨read, hread, -⟩ := Expr.leads_of_mem_ways hmem
  have hread : text = read ++ first.after := hread
  refine ⟨_, first.after, hsearch, ?_, ?_⟩
  · rw [hread]
    simp
  · rw [Expr.ways_seqAll, waysAll_append] at hmem
    obtain ⟨st, -, hend⟩ := List.mem_flatMap.mp hmem
    rw [waysAll_singleton, Expr.ways] at hend
    split at hend
    case isFalse => cases hend
    case isTrue hholds =>
      obtain rfl := List.mem_singleton.mp hend
      cases hafter : first.after with
      | nil => exact .inl rfl
      | cons c more =>
          have hc : c = '\n' := by simpa [Anchor.holds, hafter] using hholds
          exact .inr ⟨more, by rw [hc]⟩

namespace Template

/-- A message whose first match is not all of it is rejected with this match. -/
theorem recognize_eq_partialMatch {t : Template} {message : Message}
    (hrefusal : t.refusal? message.isPrivate = none) {found : Match}
    (hsearch : t.pattern.search message.text = some found) (hpart : found.text ≠ message.text.toList) :
    (t.recognize message).outcome = .ok (.rejected (.partialMatch (String.ofList found.text))) := by
  have hne : (String.ofList found.text == message.text) = false := by
    rw [beq_eq_false_iff_ne, ne_eq, ← String.toList_inj, String.toList_ofList]
    exact hpart
  simp only [recognize, Attempt.outcome_bind, Attempt.outcome_lift, hrefusal, hsearch, hne]
  rfl

/-- The pattern of a template ends with the end of a line. -/
theorem exists_exprs_of_compile {identity separator : String} {template : Value}
    {options : TemplateOptions} {channel : Channel} {t : Template}
    (hcompile : (compile identity template options separator channel).outcome = .ok t)
    (hsplice : EachRequired Pattern.Spliceable t.requirements t.items) :
    ∃ exprs, t.pattern.expr = .seqAll (exprs ++ [.anchor .lineEnd]) := by
  obtain ⟨text, items, parameters, pattern, path, -, hitems, -, hpattern, -, rfl⟩ :=
    compile_eq_ok_iff.mp hcompile
  obtain ⟨source, hsource, hread, -⟩ := patternOf_eq_ok_iff.mp hpattern
  obtain ⟨tokens, hreads, hgrouped⟩ := exists_reads_patternSource hitems hsplice hsource
  exact hgrouped.exists_exprs hreads hread

/-- **Whole messages.** Take a template whose required patterns have tame comments, and a message that
it does not refuse. If the message is recognized, the pattern matches all of it. If the pattern matches
all of it, the message is recognized, or it has another line and its first match stops in front of the
line feed. So a message of one line is recognized exactly when the pattern matches all of it. -/
theorem recognizes_whole_messages {identity separator : String} {template : Value}
    {options : TemplateOptions} {channel : Channel} {t : Template}
    (hcompile : (compile identity template options separator channel).outcome = .ok t)
    (hsplice : EachRequired Pattern.Spliceable t.requirements t.items) {message : Message}
    (hrefusal : t.refusal? message.isPrivate = none) :
    ((∃ arguments, (t.recognize message).outcome = .ok (.recognized arguments)) →
      (t.pattern.fullMatch message.text).isSome) ∧
    ((t.pattern.fullMatch message.text).isSome →
      (∃ arguments, (t.recognize message).outcome = .ok (.recognized arguments)) ∨
        ∃ found more, message.text = found ++ "\n" ++ more ∧
          (t.pattern.search message.text).map (·.text) = some found.toList ∧
          (t.recognize message).outcome = .ok (.rejected (.partialMatch found))) ∧
    ('\n' ∉ message.text.toList →
      ((∃ arguments, (t.recognize message).outcome = .ok (.recognized arguments)) ↔
        (t.pattern.fullMatch message.text).isSome)) := by
  have hrecognized := exists_recognized_iff (sound_of_compile hcompile) hrefusal
  have hsound : (∃ arguments, (t.recognize message).outcome = .ok (.recognized arguments)) →
      (t.pattern.fullMatch message.text).isSome := by
    intro h
    obtain ⟨captures, st, hhead, hafter, -⟩ := hrecognized.mp h
    exact (isSome_fullMatch_iff _ _).mpr ⟨st, List.mem_of_head? hhead, hafter⟩
  have hfits : (t.pattern.fullMatch message.text).isSome →
      (∃ arguments, (t.recognize message).outcome = .ok (.recognized arguments)) ∨
        ∃ found more, message.text = found ++ "\n" ++ more ∧
          (t.pattern.search message.text).map (·.text) = some found.toList ∧
          (t.recognize message).outcome = .ok (.rejected (.partialMatch found)) := by
    intro h
    obtain ⟨last, hlast, -⟩ := (isSome_fullMatch_iff _ _).mp h
    obtain ⟨exprs, hexpr⟩ := exists_exprs_of_compile hcompile hsplice
    rw [hexpr] at hlast
    obtain ⟨found, rest, hsearch, htext, hrest⟩ := Expr.exists_search_line hlast
    rw [← hexpr] at hsearch
    rcases hrest with rfl | ⟨more, rfl⟩
    · rw [List.append_nil] at htext
      exact .inl (hrecognized.mpr ⟨found.captures,
        exists_search_iff_whole.mp ⟨found, ⟨hsearch, htext.symm⟩, rfl⟩⟩)
    · refine .inr ⟨String.ofList found.text, String.ofList more, ?_, ?_, ?_⟩
      · rw [← String.toList_inj, htext]
        simp
      · have hfound : t.pattern.search message.text = some found := hsearch
        rw [hfound, String.toList_ofList]
        rfl
      · refine recognize_eq_partialMatch hrefusal hsearch fun heq => ?_
        have hlength := congrArg List.length (heq.trans htext)
        simp at hlength
  refine ⟨hsound, hfits, fun hline => ⟨hsound, fun h => ?_⟩⟩
  rcases hfits h with hrecognized | ⟨found, more, htext, -⟩
  · exact hrecognized
  · exact absurd (by simp [htext]) hline

/-- A pattern for a number of hours, with a comment. -/
def hoursSource : String := "\\d+(?#of (them)h"

theorem recognizes_whole_messages_hours :
    ∃ p, Pattern.read hoursSource {} = .ok p ∧ p.Spliceable ∧ ∃ t,
      (compile "hall" (.text "w :p [*why]") { requirements := [("p", .pattern p)] }).outcome = .ok t ∧
      t.refusal? false = none ∧
      ((∃ arguments, (t.recognize { text := "w 3h or\nless" }).outcome = .ok (.recognized arguments)) →
        (t.pattern.fullMatch "w 3h or\nless").isSome) ∧
      ((t.pattern.fullMatch "w 3h or\nless").isSome →
        (∃ arguments, (t.recognize { text := "w 3h or\nless" }).outcome = .ok (.recognized arguments)) ∨
          ∃ found more, "w 3h or\nless" = found ++ "\n" ++ more ∧
            (t.pattern.search "w 3h or\nless").map (·.text) = some found.toList ∧
            (t.recognize { text := "w 3h or\nless" }).outcome = .ok (.rejected (.partialMatch found))) ∧
      ('\n' ∉ "w 3h or\nless".toList →
        ((∃ arguments, (t.recognize { text := "w 3h or\nless" }).outcome = .ok (.recognized arguments)) ↔
          (t.pattern.fullMatch "w 3h or\nless").isSome)) := by
  obtain ⟨p, hread, hverbose, t, hcompile, hrequirements, hrefusal⟩ :
      ∃ p, Pattern.read hoursSource {} = .ok p ∧ p.modes.verbose = false ∧ ∃ t,
        (compile "hall" (.text "w :p [*why]") { requirements := [("p", .pattern p)] }).outcome = .ok t ∧
        t.requirements = [("p", .pattern p)] ∧ t.refusal? false = none :=
    ⟨_, rfl, rfl, _, rfl, rfl, rfl⟩
  have hsource := source_of_read hread
  have hspliceable : p.Spliceable := ⟨⟨{}, hsource ▸ hread⟩, by rw [hverbose, hsource]; decide +kernel⟩
  have hsplice : EachRequired Pattern.Spliceable t.requirements t.items := by
    rw [hrequirements]
    exact fun item _ name _ q hq => eq_of_held?_singleton hq ▸ hspliceable
  exact ⟨p, hread, hspliceable, t, hcompile, hrefusal,
    recognizes_whole_messages hcompile hsplice hrefusal⟩

/-- **A whole message may be left.** The first match takes the first optional word and stops at the line
feed, although the message would fit with the second one. And comments have to be tame: here the
rewriting takes two of them for groups with names, so that what is left has a bar outside of all groups,
and the first alternative no longer ends with the end of a line. -/
theorem whole_message_not_recognized :
    (∃ t, (compile "hall" (.text "w [a] [a b]") {}).outcome = .ok t ∧
      (∀ isPrivate, t.refusal? isPrivate = none) ∧ (t.pattern.fullMatch "w a\nb").isSome ∧
      (t.recognize { text := "w a\nb" }).outcome = .ok (.rejected (.partialMatch "w a"))) ∧
    ∃ p t, Pattern.read "(?#(?P<)((>x)y)|(?:.*z(?#(?P<))>(?#)" {} = .ok p ∧
      (compile "hall" (.text "w :p") { requirements := [("p", .pattern p)] }).outcome = .ok t ∧
      (∀ isPrivate, t.refusal? isPrivate = none) ∧ (t.pattern.fullMatch "w yz").isSome ∧
      (t.recognize { text := "w yz" }).outcome = .ok (.rejected (.partialMatch "w y")) :=
  ⟨⟨_, rfl, fun _ => rfl, rfl, rfl⟩, _, _, rfl, rfl, fun _ => rfl, rfl, rfl⟩

end Template

end Switchboard
