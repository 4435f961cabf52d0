import Switchboard.Proofs.Template.Outline

/-!
# Joining an Authorization Path

`authPath` collects the parts of a path and joins them once, at the end. The rule for overrides is told otherwise:
each mark is read on texts, and what a mark puts together is joined on the spot, so that the separator goes into
the path in three places (`JoinedPath`, `joinedPath`). Both give the same path for every separator
(`authPath_eq_joinedPath`). This holds because joined texts that are put together with the separator
are their parts joined, as long as no part is empty: an empty text counts as missing, and a joined text
must not be mistaken for one.

The parts of the path of a template are not empty, since the identity is not and the words of a template are not
(`ne_empty_of_mem_pathParts`).

## Main results

* `authPath_eq_joinedPath`: joining at each mark is joining at the end.
* `separator_only_joins`: the parts of a path do not depend on the separator, and there is no empty path.
-/

namespace Switchboard

/-! ### Joined texts -/

/-- The parts joined, when there are any. -/
def joined? (separator : String) (parts : List String) : Option String :=
  if parts = [] then none else some (String.intercalate separator parts)

/-- Texts joined, where the missing and the empty ones are passed over. -/
def joinPresent (separator : String) (texts : List (Option String)) : String :=
  String.intercalate separator (texts.filterMap fun text => text.filter (· ≠ ""))

/-- Parts that are not empty make a text that is not. -/
theorem intercalate_ne_empty {separator : String} {parts : List String} (hne : parts ≠ [])
    (hparts : ∀ part ∈ parts, part ≠ "") : String.intercalate separator parts ≠ "" := by
  obtain ⟨part, more, rfl⟩ := List.exists_cons_of_ne_nil hne
  have hpart : part ≠ "" := hparts part List.mem_cons_self
  cases more with
  | nil => rwa [String.intercalate_singleton]
  | cons second more =>
      rw [String.intercalate_cons_cons, ne_eq, String.append_eq_empty_iff, String.append_eq_empty_iff]
      exact fun hempty => hpart hempty.1.1

/-- Groups of parts, each joined and then all of them, are their parts joined. -/
theorem intercalate_map_intercalate (separator : String) {groups : List (List String)}
    (h : ∀ parts ∈ groups, parts ≠ []) :
    String.intercalate separator (groups.map (String.intercalate separator)) =
      String.intercalate separator groups.flatten := by
  induction groups with
  | nil => rfl
  | cons parts groups ih =>
      obtain ⟨hparts, hgroups⟩ := List.forall_mem_cons.mp h
      cases groups with
      | nil => simp
      | cons second groups =>
          have hflat : (second :: groups).flatten ≠ [] := by
            rw [List.flatten_cons]
            exact List.append_ne_nil_of_left_ne_nil (hgroups second List.mem_cons_self) _
          calc String.intercalate separator ((parts :: second :: groups).map (String.intercalate separator))
              = String.intercalate separator parts ++ separator ++
                  String.intercalate separator
                    ((second :: groups).map (String.intercalate separator)) :=
                String.intercalate_cons_cons
            _ = String.intercalate separator parts ++ separator ++
                  String.intercalate separator (second :: groups).flatten := by rw [ih hgroups]
            _ = String.intercalate separator (parts ++ (second :: groups).flatten) :=
                (String.intercalate_append_of_ne_nil hparts hflat).symm

/-- The joined texts that are there and not empty are those of the groups that have parts. -/
theorem filterMap_joined? (separator : String) {groups : List (List String)}
    (h : ∀ parts ∈ groups, ∀ part ∈ parts, part ≠ "") :
    (groups.map (joined? separator)).filterMap (fun text => text.filter (· ≠ "")) =
      (groups.filter (· ≠ [])).map (String.intercalate separator) := by
  induction groups with
  | nil => rfl
  | cons parts groups ih =>
      obtain ⟨hparts, hgroups⟩ := List.forall_mem_cons.mp h
      by_cases hnil : parts = []
      · subst hnil
        exact ih hgroups
      · have htext : (joined? separator parts).filter (· ≠ "") =
            some (String.intercalate separator parts) := by
          simp [joined?, hnil, intercalate_ne_empty hnil hparts]
        rw [List.map_cons, List.filterMap_cons_some htext, ih hgroups]
        simp [hnil]

/-- **Joining joined texts** joins their parts. -/
theorem joinPresent_map_joined? (separator : String) {groups : List (List String)}
    (h : ∀ parts ∈ groups, ∀ part ∈ parts, part ≠ "") :
    joinPresent separator (groups.map (joined? separator)) =
      String.intercalate separator groups.flatten := by
  have hfull : ∀ parts ∈ groups.filter (· ≠ []), parts ≠ [] := by
    intro parts hparts
    simpa using (List.mem_filter.mp hparts).2
  rw [joinPresent, filterMap_joined? separator h, intercalate_map_intercalate separator hfull,
    List.flatten_filter_ne_nil]

/-! ### Marks read on texts -/

/-- A path while the marks are read: what stands for the identity, what the override adds, and what stands for
the words, each joined already. -/
structure JoinedPath where
  front : Option String
  extra : List Char
  back : Option String

namespace JoinedPath

/-- A colon at the start joins the first word to the front. -/
def merge (separator override : String) (p : JoinedPath) : Except TemplateCause JoinedPath :=
  match dropMark? ':' p.extra with
  | none => .ok p
  | some extra =>
    match p.back with
    | none => .error (.noWordToMerge override)
    | some word => .ok { front := p.front.map (· ++ separator ++ word), extra, back := none }

/-- A colon at the end joins the second word to the back. -/
def fold (separator : String) (words : List String) (p : JoinedPath) : JoinedPath :=
  match dropEndMark? ':' p.extra with
  | none => p
  | some extra =>
    match words[1]? with
    | none => { p with extra }
    | some second => { p with extra, back := some (joinPresent separator [p.back, some second]) }

/-- An exclamation mark at the start drops the front. -/
def dropFront (p : JoinedPath) : JoinedPath :=
  match dropMark? '!' p.extra with
  | none => p
  | some extra => { p with front := none, extra }

/-- An exclamation mark at the end drops the back. -/
def dropBack (p : JoinedPath) : JoinedPath :=
  match dropEndMark? '!' p.extra with
  | none => p
  | some extra => { p with extra, back := none }

/-- The path: the texts that are there, joined. -/
def text (separator : String) (p : JoinedPath) : String :=
  joinPresent separator [p.front, some (String.ofList p.extra), p.back]

end JoinedPath

/-- The authorization path of a template, joined at each mark of the override. -/
def joinedPath (identity : String) (items : List Item) (override : Option String) (separator : String) :
    Except TemplateCause String := do
  let words := pathWords identity items
  let start (extra : List Char) : JoinedPath := { front := some identity, extra, back := words.head? }
  let joined ← match override with
    | none => .ok (start [])
    | some text => do
      let merged ← (start text.toList).merge separator text
      .ok ((merged.fold separator words).dropFront.dropBack)
  if joined.text separator = "" then .error (.emptyPath override) else .ok (joined.text separator)

/-! ### The two ways of joining -/

namespace PathParts

/-- The parts of the first path, none of which is empty, are joined in the second. -/
structure Joins (separator : String) (p : PathParts) (j : JoinedPath) : Prop where
  front : j.front = joined? separator p.front
  extra : j.extra = p.extra
  back : j.back = joined? separator p.back
  front_ne : ∀ part ∈ p.front, part ≠ ""
  back_ne : ∀ part ∈ p.back, part ≠ ""

theorem joins_start (separator : String) {identity : String} (hidentity : identity ≠ "")
    {words : List String} (hwords : ∀ word ∈ words, word ≠ "") (extra : List Char) :
    Joins separator (start identity words extra)
      { front := some identity, extra, back := words.head? } := by
  have hfront : (start identity words extra).front = [identity] := by
    simp [start, hidentity]
  refine ⟨?_, rfl, ?_, ?_, fun part hpart => hwords part (List.mem_of_mem_take hpart)⟩
  · rw [hfront, joined?, if_neg (List.cons_ne_nil _ _), String.intercalate_singleton]
  · cases words with
    | nil => rfl
    | cons word words => simp [start, joined?]
  · rw [hfront]
    simpa using hidentity

variable {separator : String} {p : PathParts} {j : JoinedPath}

/-- Reading a colon at the start fails in both, or in none. -/
theorem Joins.merge (h : Joins separator p j) {identity : String} (hfront : p.front = [identity])
    (hback : p.back.length ≤ 1) (override : String) :
    (∃ cause, p.merge identity override = .error cause ∧ j.merge separator override = .error cause) ∨
      ∃ q k, p.merge identity override = .ok q ∧ j.merge separator override = .ok k ∧
        Joins separator q k := by
  rw [PathParts.merge, JoinedPath.merge, h.extra]
  cases dropMark? ':' p.extra with
  | none => exact .inr ⟨p, j, rfl, rfl, h⟩
  | some extra =>
      have hjoined := h.back
      cases hwords : p.back with
      | nil =>
          rw [hwords] at hjoined
          rw [hjoined]
          exact .inl ⟨_, rfl, rfl⟩
      | cons word more =>
          obtain rfl : more = [] := by
            rw [hwords, List.length_cons] at hback
            exact List.length_eq_zero_iff.mp (by omega)
          rw [hwords] at hjoined
          rw [hjoined]
          refine .inr ⟨_, _, rfl, rfl, ?_, rfl, rfl, ?_, nofun⟩
          · simp [h.front, hfront, joined?]
          · have hidentity := h.front_ne identity (by simp [hfront])
            have hword := h.back_ne word (by simp [hwords])
            simpa using ⟨hidentity, hword⟩

theorem Joins.fold (h : Joins separator p j) {words : List String} (hwords : ∀ word ∈ words, word ≠ "") :
    Joins separator (p.fold words) (j.fold separator words) := by
  have htake : (words.drop 1).take 1 = words[1]?.toList := by
    rcases words with _ | ⟨_, _ | ⟨_, _⟩⟩ <;> rfl
  rw [PathParts.fold, JoinedPath.fold, h.extra, htake]
  cases dropEndMark? ':' p.extra with
  | none => exact h
  | some extra =>
      cases hsecond : words[1]? with
      | none => exact ⟨h.front, rfl, by simpa using h.back, h.front_ne, by simpa using h.back_ne⟩
      | some second =>
          have hne : second ≠ "" := hwords second (List.mem_of_getElem? hsecond)
          have hgroups : ∀ parts ∈ [p.back, [second]], ∀ part ∈ parts, part ≠ "" := by
            simpa using ⟨h.back_ne, hne⟩
          have hjoin := joinPresent_map_joined? separator hgroups
          refine ⟨h.front, rfl, ?_, h.front_ne, ?_⟩
          · rw [h.back]
            simpa [joined?] using hjoin
          · simpa [or_imp, forall_and] using ⟨h.back_ne, hne⟩

theorem Joins.dropFront (h : Joins separator p j) : Joins separator p.dropFront j.dropFront := by
  rw [PathParts.dropFront, JoinedPath.dropFront, h.extra]
  cases dropMark? '!' p.extra with
  | none => exact h
  | some extra => exact ⟨rfl, rfl, h.back, nofun, h.back_ne⟩

theorem Joins.dropBack (h : Joins separator p j) : Joins separator p.dropBack j.dropBack := by
  rw [PathParts.dropBack, JoinedPath.dropBack, h.extra]
  cases dropEndMark? '!' p.extra with
  | none => exact h
  | some extra => exact ⟨h.front, rfl, rfl, h.front_ne, nofun⟩

/-- The parts of a path by what they stand for. -/
def groups (p : PathParts) : List (List String) :=
  [p.front, if p.extra.isEmpty then [] else [String.ofList p.extra], p.back]

theorem flatten_groups (p : PathParts) : p.groups.flatten = p.toList := by
  simp [groups, toList]

theorem Joins.ne_empty_of_mem_groups (h : Joins separator p j) :
    ∀ parts ∈ p.groups, ∀ part ∈ parts, part ≠ "" := by
  have hextra : ∀ part ∈ if p.extra.isEmpty then [] else [String.ofList p.extra], part ≠ "" := by
    intro part hpart
    split at hpart
    case isTrue => cases hpart
    case isFalse hne =>
      obtain rfl := List.mem_singleton.mp hpart
      simpa [← String.toList_inj] using hne
  simpa only [groups, List.forall_mem_cons] using ⟨h.front_ne, hextra, h.back_ne, nofun⟩

/-- No part of a path is empty. -/
theorem Joins.ne_empty (h : Joins separator p j) : ∀ part ∈ p.toList, part ≠ "" := by
  intro part hpart
  rw [← flatten_groups] at hpart
  obtain ⟨parts, hparts, hpart⟩ := List.mem_flatten.mp hpart
  exact h.ne_empty_of_mem_groups parts hparts part hpart

/-- The text of the second path is the first path, joined. -/
theorem Joins.text_eq (h : Joins separator p j) :
    j.text separator = String.intercalate separator p.toList := by
  have hgroups : joinPresent separator [j.front, some (String.ofList p.extra), j.back] =
      joinPresent separator (p.groups.map (joined? separator)) := by
    rw [h.front, h.back, groups]
    cases p.extra with
    | nil => simp [joinPresent, joined?, List.filterMap_cons]
    | cons c extra => simp [joined?]
  rw [JoinedPath.text, h.extra, hgroups, joinPresent_map_joined? separator h.ne_empty_of_mem_groups,
    flatten_groups]

end PathParts

/-! ### Paths of templates -/

/-- The words of a path are not empty. -/
theorem ne_empty_of_mem_pathWords {template : String} {items : List Item}
    (hitems : Item.ofText template = .ok items) {identity word : String}
    (h : word ∈ pathWords identity items) : word ≠ "" := by
  obtain ⟨-, rfl⟩ := Item.ofText_eq_ok_iff.mp hitems
  obtain ⟨item, hitem, hword⟩ := List.mem_filterMap.mp h
  obtain ⟨⟨text, inside⟩, hplaced, hitem⟩ := List.mem_flatMap.mp hitem
  have htext : IsWord text := Lexeme.isWord_of_mem_scan (Lexeme.mem_of_mem_placedWords hplaced)
  have hne : String.ofList text ≠ "" := by simpa [← String.toList_inj] using htext.ne_nil
  rw [Item.ofWord] at hitem
  cases hslot : Slot.ofWord? text with
  | none =>
      rw [hslot] at hitem
      obtain rfl := List.mem_singleton.mp hitem
      obtain ⟨-, rfl⟩ : ¬ (inside = true ∨ String.ofList text = identity) ∧ String.ofList text = word := by
        simpa using hword
      exact hne
  | some slot =>
      -- Neither a parameter nor its suffix is a word of the path.
      simp only [hslot] at hitem
      rcases List.mem_cons.mp hitem with rfl | hsuffix
      · cases hword
      · split at hsuffix
        · cases hsuffix
        · obtain rfl := List.mem_singleton.mp hsuffix
          cases hword

/-- **The marks are read alike** by both, up to the check that something is left. -/
theorem pathParts_joinedPath {identity : String} (hidentity : identity ≠ "") {items : List Item}
    (hwords : ∀ word ∈ pathWords identity items, word ≠ "") (override : Option String)
    (separator : String) :
    (∃ cause, pathParts identity items override = .error cause ∧
        joinedPath identity items override separator = .error cause) ∨
      ∃ p j, PathParts.Joins separator p j ∧
        pathParts identity items override =
          (if p.toList = [] then .error (.emptyPath override) else .ok p.toList) ∧
        joinedPath identity items override separator =
          if j.text separator = "" then .error (.emptyPath override) else .ok (j.text separator) := by
  have hstart := fun extra => PathParts.joins_start separator hidentity hwords extra
  cases override with
  | none =>
      refine .inr ⟨_, _, hstart [], ?_, rfl⟩
      simp only [pathParts, Except.ok_bind]
      cases (PathParts.start identity (pathWords identity items) []).toList <;> rfl
  | some text =>
      have hfront : (PathParts.start identity (pathWords identity items) text.toList).front =
          [identity] := by
        simp [PathParts.start, hidentity]
      have hback : (PathParts.start identity (pathWords identity items) text.toList).back.length ≤ 1 :=
        List.length_take_le _ _
      rw [pathParts, joinedPath]
      rcases (hstart text.toList).merge hfront hback text with
        ⟨cause, hparts, hjoined⟩ | ⟨p, j, hparts, hjoined, hmerged⟩
      · refine .inl ⟨cause, ?_, ?_⟩
        · simp only [hparts, Except.error_bind]
        · simp only [hjoined, Except.error_bind]
      · refine .inr ⟨_, _, (hmerged.fold hwords).dropFront.dropBack, ?_, ?_⟩
        · simp only [hparts, Except.ok_bind]
          cases (p.fold (pathWords identity items)).dropFront.dropBack.toList <;> rfl
        · simp only [hjoined, Except.ok_bind]

/-- **Joining at each mark is joining at the end.** -/
theorem authPath_eq_joinedPath {identity : String} (hidentity : identity ≠ "") {items : List Item}
    (hwords : ∀ word ∈ pathWords identity items, word ≠ "") (override : Option String)
    (separator : String) :
    authPath identity items override separator = joinedPath identity items override separator := by
  rcases pathParts_joinedPath hidentity hwords override separator with
    ⟨cause, hparts, hjoined⟩ | ⟨p, j, hjoins, hparts, hjoined⟩
  · rw [authPath, hparts, hjoined]
    rfl
  · rw [authPath, hparts, hjoined, hjoins.text_eq]
    cases hlist : p.toList with
    | nil =>
        rw [String.intercalate_nil, if_pos rfl]
        rfl
    | cons part more =>
        have hall := hjoins.ne_empty
        rw [hlist] at hall
        rw [if_neg (intercalate_ne_empty (List.cons_ne_nil part more) hall)]
        rfl

/-- The parts of a path are there, and none of them is empty. -/
theorem ne_empty_of_mem_pathParts {identity : String} (hidentity : identity ≠ "") {items : List Item}
    (hwords : ∀ word ∈ pathWords identity items, word ≠ "") {override : Option String}
    {parts : List String} (h : pathParts identity items override = .ok parts) :
    parts ≠ [] ∧ ∀ part ∈ parts, part ≠ "" := by
  rcases pathParts_joinedPath hidentity hwords override "" with
    ⟨cause, hparts, -⟩ | ⟨p, j, hjoins, hparts, -⟩
  · rw [hparts] at h
    cases h
  · rw [hparts] at h
    split at h
    case isTrue => cases h
    case isFalse hne =>
      obtain rfl := Except.ok.inj h
      exact ⟨hne, hjoins.ne_empty⟩

/-- **The separator of an authorization path only joins.** For a target with an identity and the items of a
template, reading the override fails with the same cause for every separator, or it gives parts, at least one and
none of them empty, that are the same for every separator, and each path is these parts joined. This is so
for the path that is joined at each mark, too, and no path is empty. -/
theorem separator_only_joins {identity template : String} {items : List Item} (hidentity : identity ≠ "")
    (hitems : Item.ofText template = .ok items) (override : Option String) :
    (∀ separator, authPath identity items override separator =
        joinedPath identity items override separator) ∧
      ((∃ cause, ∀ separator, joinedPath identity items override separator = .error cause) ∨
        ∃ parts, parts ≠ [] ∧ (∀ part ∈ parts, part ≠ "") ∧
          ∀ separator, joinedPath identity items override separator =
            .ok (String.intercalate separator parts) ∧ String.intercalate separator parts ≠ "") := by
  have hwords : ∀ word ∈ pathWords identity items, word ≠ "" :=
    fun word hword => ne_empty_of_mem_pathWords hitems hword
  have hagree := authPath_eq_joinedPath hidentity hwords override
  refine ⟨hagree, ?_⟩
  cases hparts : pathParts identity items override with
  | error cause =>
      refine .inl ⟨cause, fun separator => ?_⟩
      rw [← hagree, authPath, hparts]
      rfl
  | ok parts =>
      obtain ⟨hne, hall⟩ := ne_empty_of_mem_pathParts hidentity hwords hparts
      refine .inr ⟨parts, hne, hall, fun separator => ⟨?_, intercalate_ne_empty hne hall⟩⟩
      rw [← hagree, authPath, hparts]
      rfl

/-- An override with a colon at each end takes two words of the template into the path, with any
separator between them. -/
theorem separator_only_joins_assign :
    ∃ items, Item.ofText "jira assign :issue to :user" = .ok items ∧
      joinedPath "jira" items (some ":edit:") "." = .ok "jira.assign.edit.to" ∧
      ∃ parts, parts ≠ [] ∧ ∀ separator,
        joinedPath "jira" items (some ":edit:") separator = .ok (String.intercalate separator parts) := by
  obtain ⟨items, hitems, hpath⟩ : ∃ items, Item.ofText "jira assign :issue to :user" = .ok items ∧
      authPath "jira" items (some ":edit:") "." = .ok "jira.assign.edit.to" := ⟨_, rfl, rfl⟩
  have hidentity : "jira" ≠ "" := by decide
  obtain ⟨hagree, hparts⟩ := separator_only_joins hidentity hitems (some ":edit:")
  rw [hagree] at hpath
  rcases hparts with ⟨cause, hfails⟩ | ⟨parts, hne, -, hjoins⟩
  · rw [hfails] at hpath
    cases hpath
  · exact ⟨items, hitems, hpath, parts, hne, fun separator => (hjoins separator).1⟩

end Switchboard
