import Switchboard.Proofs.Permission.History
import Switchboard.Proofs.Template.Compiled
import Switchboard.Proofs.Text.Separated

/-!
# Permissions on an Identity

Compiling a template joins the parts of its path, and a permission table cuts the path at the
separators again. Neither knows about the other, and a part may contain pieces of the separator, so
the table does not in general get the parts back. The identity is the part that it does get back: it
comes first (`exists_pathParts_eq_cons`), unless an override drops it (`DropsIdentity`), and what
comes first is found again when it has no character of the separator (`splitOn_joined`). Every
request of a command of the target therefore asks for the key of the identity in the end.

## Main results

* `PermissionTable.lookup_path_ne_none`: a permission for the identity applies to each of its
  commands.
-/

namespace Switchboard

/-! ### The front of a path -/

/-- An override drops the identity when an exclamation mark starts it, or comes after its first
colon. -/
def DropsIdentity (override : String) : Prop :=
  ((dropMark? ':' override.toList).getD override.toList).head? = some '!'

instance (override : String) : Decidable (DropsIdentity override) :=
  inferInstanceAs (Decidable (_ = _))

/-- A mark can be dropped exactly from a text that it starts. -/
theorem dropMark?_eq_none_iff {mark : Char} {cs : List Char} :
    dropMark? mark cs = none ↔ cs.head? ≠ some mark := by
  cases cs with
  | nil => simp [dropMark?]
  | cons c cs => simp [dropMark?]

namespace PathParts

/-- Reading a colon at the start leaves the identity in front. -/
theorem of_merge {identity override : String} {p merged : PathParts}
    (hfront : p.front.head? = some identity) (h : p.merge identity override = .ok merged) :
    merged.front.head? = some identity ∧
      merged.extra = (dropMark? ':' p.extra).getD p.extra := by
  unfold merge at h
  split at h
  case h_1 hmark =>
      obtain rfl := Except.ok.inj h
      exact ⟨hfront, by rw [hmark, Option.getD_none]⟩
  case h_2 extra hmark =>
      cases hback : p.back with
      | nil => rw [hback] at h; cases h
      | cons word words =>
          rw [hback] at h
          obtain rfl := Except.ok.inj h
          exact ⟨rfl, by rw [hmark, Option.getD_some]⟩

@[simp] theorem front_fold (words : List String) (p : PathParts) :
    (p.fold words).front = p.front := by
  unfold fold
  split <;> rfl

/-- Reading a colon at the end leaves the start alone. -/
theorem head?_extra_fold {words : List String} {p : PathParts} {c : Char}
    (h : (p.fold words).extra.head? = some c) : p.extra.head? = some c := by
  unfold fold dropEndMark? at h
  split at h
  case h_1 => exact h
  case h_2 extra hmark =>
      split at hmark
      case isTrue =>
          obtain rfl := Option.some.inj hmark
          rw [List.head?_dropLast] at h
          split at h
          · exact h
          · cases h
      case isFalse => cases hmark

/-- The front stays where no exclamation mark starts the override. -/
theorem dropFront_eq_self {p : PathParts} (h : p.extra.head? ≠ some '!') : p.dropFront = p := by
  unfold dropFront
  rw [dropMark?_eq_none_iff.mpr h]

@[simp] theorem front_dropBack (p : PathParts) : p.dropBack.front = p.front := by
  unfold dropBack
  split <;> rfl

end PathParts

/-- What stands in front comes first. -/
theorem PathParts.exists_toList_eq_cons {identity : String} {p : PathParts}
    (h : p.front.head? = some identity) : ∃ more, p.toList = identity :: more := by
  obtain ⟨more, hmore⟩ := List.head?_eq_some_iff.mp h
  rw [toList, hmore]
  exact ⟨_, rfl⟩

/-- **A path starts with the identity**, whatever the template is, unless an override drops it. -/
theorem exists_pathParts_eq_cons {identity : String} {items : List Item} {override : Option String}
    {parts : List String} (hidentity : identity ≠ "")
    (hkept : ∀ text, override = some text → ¬ DropsIdentity text)
    (h : pathParts identity items override = .ok parts) : ∃ more, parts = identity :: more := by
  have hstart : ∀ extra, (PathParts.start identity (pathWords identity items) extra).front.head? =
      some identity := by
    intro extra
    simp [PathParts.start, hidentity]
  cases override with
  | none =>
      simp only [pathParts, Except.bind_eq_ok_iff] at h
      obtain ⟨p, hp, hparts⟩ := h
      obtain rfl := Except.ok.inj hp
      obtain ⟨more, hmore⟩ := PathParts.exists_toList_eq_cons (hstart [])
      rw [hmore] at hparts
      exact ⟨more, (Except.ok.inj hparts).symm⟩
  | some text =>
      simp only [pathParts, Except.bind_eq_ok_iff] at h
      obtain ⟨merged, hmerged, p, hp, hparts⟩ := h
      obtain rfl := Except.ok.inj hp
      obtain ⟨hfront, hextra⟩ := PathParts.of_merge (hstart text.toList) hmerged
      have hmark : (merged.fold (pathWords identity items)).extra.head? ≠ some '!' := by
        intro hmark
        have hdrops := PathParts.head?_extra_fold hmark
        rw [hextra] at hdrops
        exact hkept text rfl hdrops
      rw [PathParts.dropFront_eq_self hmark] at hparts
      rw [← PathParts.front_fold (pathWords identity items), ← PathParts.front_dropBack] at hfront
      obtain ⟨more, hmore⟩ := PathParts.exists_toList_eq_cons hfront
      rw [hmore] at hparts
      exact ⟨more, (Except.ok.inj hparts).symm⟩

/-- The identity is the first part that the path of a template is cut into. -/
theorem Template.exists_splitOn_path {identity separator : String} {template : Value}
    {options : TemplateOptions} {channel : Channel} {t : Template} (hidentity : identity ≠ "")
    (hseparator : separator ≠ "") (hapart : identity.toList.Disjoint separator.toList)
    (hold : options.oldPath = none) (hfull : options.fullPath = none)
    (hkept : ∀ text, options.path = some text → ¬ DropsIdentity text)
    (h : (compile identity template options separator channel).outcome = .ok t) :
    ∃ parts, splitOn separator t.path = identity :: parts := by
  obtain ⟨text, items, parameters, pattern, path, -, -, -, -, hpath, rfl⟩ :=
    compile_eq_ok_iff.mp h
  have hoverride : overrideOf options = options.path := by
    unfold overrideOf
    cases hset : options.path with
    | none => exact hold
    | some text => rfl
  rw [pathOf, hfull, Except.mapError_eq_ok_iff, authPath, hoverride, Except.map_eq_ok_iff] at hpath
  obtain ⟨parts, hparts, rfl⟩ := hpath
  obtain ⟨more, rfl⟩ := exists_pathParts_eq_cons hidentity hkept hparts
  exact splitOn_joined hseparator hapart more

namespace PermissionTable

/-! ### The key of the identity -/

/-- The ancestors of a path are its first parts, joined again. -/
theorem mem_ancestors_iff {table : PermissionTable} {path ancestor : String} :
    ancestor ∈ table.ancestors path ↔
      ∃ parts, parts ≠ [] ∧ parts <+: splitOn table.separator path ∧
        String.intercalate table.separator parts = ancestor := by
  rw [ancestors, List.mem_map]
  constructor
  · rintro ⟨i, hi, rfl⟩
    have hlt : i < (splitOn table.separator path).length := by simpa using hi
    refine ⟨_, fun hnil => ?_, List.take_prefix _ _, rfl⟩
    have hlength := congrArg List.length hnil
    rw [List.length_take, List.length_nil] at hlength
    omega
  · rintro ⟨parts, hparts, hprefix, rfl⟩
    have hpos : 0 < parts.length := List.length_pos_iff.mpr hparts
    have hle := hprefix.length_le
    refine ⟨parts.length - 1, by simp only [List.mem_reverse, List.mem_range]; omega, ?_⟩
    rw [Nat.sub_add_cancel hpos, ← List.prefix_iff_eq_take.mp hprefix]

/-- A permission for anyone and anywhere applies to the paths that have its path as an ancestor. -/
theorem mem_applicable_iff {table : PermissionTable} {path ancestor : String} (source replyto : Value) :
    ⟨ancestor, "*", "*"⟩ ∈ table.applicable path source replyto ↔ ancestor ∈ table.ancestors path := by
  rw [applicable, List.mem_flatMap]
  constructor
  · rintro ⟨other, hother, hkey⟩
    obtain ⟨_, -, heq⟩ := List.mem_map.mp hkey
    obtain ⟨rfl, -⟩ := PermissionKey.mk.inj heq
    exact hother
  · intro h
    refine ⟨ancestor, h, List.mem_map.mpr ⟨("*", "*"), ?_, rfl⟩⟩
    simp [candidates, anyone, Value.plain]

/-- A permission for anyone and anywhere applies below its path. -/
theorem mem_applicable {table : PermissionTable} {path first : String} {parts : List String}
    (h : splitOn table.separator path = first :: parts) (source replyto : Value) :
    ⟨first, "*", "*"⟩ ∈ table.applicable path source replyto := by
  rw [mem_applicable_iff, mem_ancestors_iff, h]
  exact ⟨[first], List.cons_ne_nil _ _, ⟨parts, rfl⟩, String.intercalate_singleton⟩

/-- Something is found where an entry applies. -/
theorem lookup_ne_none {table : PermissionTable} {path : String} {source replyto : Value}
    {key : PermissionKey} {allowed : Bool} (hkey : key ∈ table.applicable path source replyto)
    (h : table.get? key = some allowed) : table.lookup path source replyto ≠ none := by
  intro hnone
  have hmissing := List.findSome?_eq_none_iff.mp hnone key hkey
  rw [h] at hmissing
  cases hmissing

/-- A table with one entry has no second value. -/
theorem get?_eq_of_size {table : PermissionTable} (hsize : table.size = 1)
    {first second : PermissionKey} {allowed value : Bool} (h : table.get? first = some allowed)
    (hvalue : table.get? second = some value) : value = allowed := by
  obtain ⟨entry, hentry⟩ := List.length_eq_one_iff.mp hsize
  have honly : ∀ {key v}, table.get? key = some v → v = entry.2 := by
    intro key v hv
    rw [get?, hentry, lookup_cons_entry] at hv
    split at hv
    · exact (Option.some.inj hv).symm
    · cases hv
  rw [honly h, honly hvalue]

/-- **A permission on the identity governs every command of the target.** When the table has an
entry for the identity, anyone and anywhere, something is found for every request with the path of
a template of this target, and when it is the only entry, its value is the answer. -/
theorem lookup_path_ne_none {identity separator : String} {template : Value}
    {options : TemplateOptions} {channel : Channel} {t : Template} (hidentity : identity ≠ "")
    (hseparator : separator ≠ "") (hapart : identity.toList.Disjoint separator.toList)
    (hold : options.oldPath = none) (hfull : options.fullPath = none)
    (hkept : ∀ text, options.path = some text → ¬ DropsIdentity text)
    (hcompile : (Template.compile identity template options separator channel).outcome = .ok t)
    {table : PermissionTable} (htable : table.separator = separator) {allowed : Bool}
    (hentry : table.get? ⟨identity, "*", "*"⟩ = some allowed) (source replyto : Value) :
    table.lookup t.path source replyto ≠ none ∧
      (table.size = 1 → (table.allow t.path source replyto).value = allowed) := by
  obtain ⟨parts, hparts⟩ :=
    Template.exists_splitOn_path hidentity hseparator hapart hold hfull hkept hcompile
  have hfound : table.lookup t.path source replyto ≠ none :=
    lookup_ne_none (mem_applicable (htable ▸ hparts) source replyto) hentry
  refine ⟨hfound, ?_⟩
  intro hsize
  obtain ⟨value, hvalue⟩ := Option.ne_none_iff_exists'.mp hfound
  obtain ⟨key, -, hkey⟩ := List.exists_of_findSome?_eq_some hvalue
  rw [value_allow, hvalue, Option.getD_some]
  exact get?_eq_of_size hsize hentry hkey

/-- The options of a template that puts a part with a piece of the separator behind its word. -/
def karmaEditOptions : TemplateOptions where
  path := some ":ed:it!"

/-- A table in which everybody may use karma. -/
def karmaTable : PermissionTable := ({} : PermissionTable).set "karma" true

/-- Whoever may use karma may use a command of it whose override contains a colon. -/
theorem lookup_path_ne_none_karma :
    ∃ t, (Template.compile "karma" (.text "karma set :key") karmaEditOptions).outcome = .ok t ∧
      t.path = "karma::set::ed:it" ∧
      (karmaTable.allow t.path (.text "bob") (.text "#chan")).value = true := by
  obtain ⟨t, hcompile, hpath⟩ : ∃ t, (Template.compile "karma" (.text "karma set :key")
      karmaEditOptions).outcome = .ok t ∧ t.path = "karma::set::ed:it" := ⟨_, rfl, rfl⟩
  have hkept : ∀ text, karmaEditOptions.path = some text → ¬ DropsIdentity text := by
    intro text htext
    obtain rfl := Option.some.inj htext
    decide
  have htable : karmaTable.separator = "::" := rfl
  have hentry : karmaTable.get? ⟨"karma", "*", "*"⟩ = some true := by decide
  obtain ⟨-, hallowed⟩ := lookup_path_ne_none (by decide) (by decide) (by simp) rfl rfl hkept
    hcompile htable hentry (.text "bob") (.text "#chan")
  exact ⟨t, hcompile, hpath, hallowed rfl⟩

end PermissionTable

end Switchboard
