import Mathlib.Data.List.Infix
import Switchboard.Mapper.Config

/-!
# Permissions as Histories

A permission table is what a history of grants, denials and removals has made of the empty table.
This module says what its answers are in terms of the history alone. A key is *live* with a value
when the last change of the key stored that value (`PermissionTable.Live`), and
`PermissionTable.requestKeys` lists the keys that a request may use, the most specific first: the
beginnings of its path, longest first, and for each of them the user before anyone and the channel
before anywhere.

The bridge between the two is one induction over the history: the value under a key is the value
with which the key is live (`PermissionTable.get?_after_iff`). Keys are never repeated
(`PermissionTable.nodup_keys_after`), so that the size of a table counts them.

## Main results

* `PermissionTable.lookup_after_history`: lookup, decision and size of a table after a history.
-/

namespace Switchboard.PermissionTable

/-- A change of a permission table. -/
inductive Edit where
  | set (path : String) (allowed : Bool) (user channel : Value)
  | reset (path : String) (user channel : Value)
deriving Inhabited

namespace Edit

/-- The key that a change is about. -/
def key : Edit → PermissionKey
  | set path _ user channel => keyOf path user channel
  | reset path user channel => keyOf path user channel

/-- What is stored under the key afterwards. -/
def value? : Edit → Option Bool
  | set _ allowed _ _ => some allowed
  | reset _ _ _ => none

end Edit

/-- The table after a change. -/
def edit (table : PermissionTable) : Edit → PermissionTable
  | .set path allowed user channel => table.set path allowed user channel
  | .reset path user channel => table.reset path user channel

/-- The table after a history of changes, the earliest first. -/
def after (table : PermissionTable) (history : List Edit) : PermissionTable :=
  history.foldl edit table

/-- A key is live with a value when the history sets it to the value at some point and changes it
never again. -/
def Live (history : List Edit) (key : PermissionKey) (allowed : Bool) : Prop :=
  ∃ before path user channel later,
    history = before ++ .set path allowed user channel :: later ∧
      keyOf path user channel = key ∧ ∀ e ∈ later, e.key ≠ key

/-- The keys that a request may use, the most specific first. -/
def requestKeys (separator path : String) (source replyto : Value) : List PermissionKey :=
  (splitOn separator path).inits.tail.reverse.flatMap fun parts =>
    let path := String.intercalate separator parts
    [{ path, user := source.plain, channel := replyto.plain },
      { path, user := source.plain, channel := "*" },
      { path, user := "*", channel := replyto.plain },
      { path, user := "*", channel := "*" }]

/-! ### Entries -/

/-- Looking up a key asks the first entry and then the others. -/
theorem lookup_cons_entry (k first : PermissionKey) (old : Bool)
    (entries : List (PermissionKey × Bool)) :
    ((first, old) :: entries).lookup k = if k = first then some old else entries.lookup k := by
  rw [List.lookup_cons]
  by_cases h : k = first
  · rw [if_pos h, beq_iff_eq.mpr h]
  · rw [if_neg h, beq_eq_false_iff_ne.mpr h]

/-- Putting an entry changes the value under its key and no other. -/
theorem lookup_putEntry (key k : PermissionKey) (allowed : Bool)
    (entries : List (PermissionKey × Bool)) :
    (putEntry key allowed entries).lookup k =
      if k = key then some allowed else entries.lookup k := by
  induction entries with
  | nil => rw [putEntry, lookup_cons_entry]
  | cons entry entries ih =>
      obtain ⟨first, old⟩ := entry
      by_cases hfirst : first = key
      · by_cases hk : k = key <;> simp [putEntry, lookup_cons_entry, hfirst, hk]
      · by_cases hk : k = first
        · simp [putEntry, hk, hfirst]
        · simp [putEntry, lookup_cons_entry, hk, hfirst, ih]

/-- Removing entries removes the value under their key and no other. -/
theorem lookup_filter_ne (key k : PermissionKey) (entries : List (PermissionKey × Bool)) :
    (entries.filter fun entry => entry.1 != key).lookup k =
      if k = key then none else entries.lookup k := by
  induction entries with
  | nil => rw [List.filter_nil, List.lookup_nil, ite_self]
  | cons entry entries ih =>
      obtain ⟨first, old⟩ := entry
      by_cases hfirst : first = key
      · rw [List.filter_cons_of_neg (by simp [hfirst]), ih, lookup_cons_entry]
        by_cases hk : k = key <;> simp [hk, hfirst]
      · rw [List.filter_cons_of_pos (by simp [hfirst]), lookup_cons_entry, ih, lookup_cons_entry]
        by_cases hk : k = first <;> simp [hk, hfirst]

/-- The keys after putting an entry: the same ones, or one more at the end. -/
theorem keys_putEntry (key : PermissionKey) (allowed : Bool)
    (entries : List (PermissionKey × Bool)) :
    (putEntry key allowed entries).map Prod.fst =
      if key ∈ entries.map Prod.fst then entries.map Prod.fst
      else entries.map Prod.fst ++ [key] := by
  induction entries with
  | nil => simp [putEntry]
  | cons entry entries ih =>
      obtain ⟨first, old⟩ := entry
      by_cases hfirst : first = key
      · simp [putEntry, hfirst]
      · by_cases hmem : key ∈ entries.map Prod.fst
        · simp only [putEntry, beq_iff_eq, hfirst, if_false, List.map_cons, ih, hmem, if_true,
            List.mem_cons, or_true]
        · simp only [putEntry, beq_iff_eq, hfirst, if_false, List.map_cons, ih, hmem,
            List.mem_cons, Ne.symm hfirst, or_self, List.cons_append]

/-! ### One change -/

/-- The value under a key after a change. -/
theorem get?_edit (table : PermissionTable) (e : Edit) (key : PermissionKey) :
    (table.edit e).get? key = if key = e.key then e.value? else table.get? key := by
  cases e with
  | set path allowed user channel => exact lookup_putEntry _ _ _ _
  | reset path user channel => exact lookup_filter_ne _ _ _

/-- A change repeats no key. -/
theorem nodup_keys_edit {table : PermissionTable} (h : (table.entries.map Prod.fst).Nodup)
    (e : Edit) : ((table.edit e).entries.map Prod.fst).Nodup := by
  cases e with
  | set path allowed user channel =>
      simp only [edit, set, keys_putEntry]
      split
      case isTrue => exact h
      case isFalse hmem =>
        rw [List.nodup_append]
        refine ⟨h, List.pairwise_singleton _ _, ?_⟩
        intro a ha b hb heq
        obtain rfl := List.mem_singleton.mp hb
        exact hmem (heq ▸ ha)
  | reset path user channel => exact (List.filter_sublist.map Prod.fst).nodup h

@[simp] theorem separator_edit (table : PermissionTable) (e : Edit) :
    (table.edit e).separator = table.separator := by
  cases e <;> rfl

@[simp] theorem fallback_edit (table : PermissionTable) (e : Edit) :
    (table.edit e).fallback = table.fallback := by
  cases e <;> rfl

/-! ### Every history -/

/-- A history with one more change is the table after the history, changed. -/
theorem after_concat (table : PermissionTable) (history : List Edit) (e : Edit) :
    table.after (history ++ [e]) = (table.after history).edit e := by
  simp [after]

/-- Nothing is live in the empty history. -/
theorem not_live_nil (key : PermissionKey) (allowed : Bool) : ¬ Live [] key allowed := by
  rintro ⟨before, path, user, channel, later, hhistory, -⟩
  simp at hhistory

/-- One more change decides about its own key and leaves the others to the history before it. -/
theorem live_concat_iff {history : List Edit} {e : Edit} {key : PermissionKey} {allowed : Bool} :
    Live (history ++ [e]) key allowed ↔
      if key = e.key then e.value? = some allowed else Live history key allowed := by
  constructor
  · rintro ⟨before, path, user, channel, later, hhistory, hkey, hlater⟩
    rcases List.eq_nil_or_concat later with rfl | ⟨later, last, rfl⟩
    · obtain ⟨rfl, hlast⟩ := List.append_inj' hhistory rfl
      obtain rfl := List.singleton_inj.mp hlast
      exact (if_pos hkey.symm).mpr rfl
    · rw [List.concat_eq_append] at hhistory hlater
      rw [← List.cons_append, ← List.append_assoc] at hhistory
      obtain ⟨rfl, hlast⟩ := List.append_inj' hhistory rfl
      obtain rfl := List.singleton_inj.mp hlast
      have hne : e.key ≠ key := hlater e (by simp)
      rw [if_neg hne.symm]
      exact ⟨before, path, user, channel, later, rfl, hkey,
        fun e' he' => hlater e' (List.mem_append_left _ he')⟩
  · intro h
    by_cases hkey : key = e.key
    · rw [if_pos hkey] at h
      cases e with
      | set path stored user channel =>
          obtain rfl := Option.some.inj h
          exact ⟨history, path, user, channel, [], rfl, hkey.symm, fun _ he => nomatch he⟩
      | reset path user channel => cases h
    · rw [if_neg hkey] at h
      obtain ⟨before, path, user, channel, later, rfl, hlive, hlater⟩ := h
      refine ⟨before, path, user, channel, later ++ [e], by simp, hlive, ?_⟩
      intro e' he'
      rcases List.mem_append.mp he' with he' | he'
      · exact hlater e' he'
      · obtain rfl := List.mem_singleton.mp he'
        exact Ne.symm hkey

/-- **The table is its history**: from the empty table, the value under a key is the value with
which the history leaves the key live. -/
theorem get?_after_iff {table : PermissionTable} (hempty : table.entries = [])
    (history : List Edit) {key : PermissionKey} {allowed : Bool} :
    (table.after history).get? key = some allowed ↔ Live history key allowed := by
  induction history using List.reverseRecOn with
  | nil => simp [after, get?, hempty, not_live_nil]
  | append_singleton history e ih =>
      rw [after_concat, get?_edit, live_concat_iff]
      split
      · exact Iff.rfl
      · exact ih

/-- After every history each key has one entry. -/
theorem nodup_keys_after {table : PermissionTable} (hempty : table.entries = [])
    (history : List Edit) : ((table.after history).entries.map Prod.fst).Nodup := by
  induction history using List.reverseRecOn with
  | nil => simp [after, hempty]
  | append_singleton history e ih => exact after_concat table history e ▸ nodup_keys_edit ih e

/-- A history changes entries only. -/
theorem separator_after (table : PermissionTable) (history : List Edit) :
    (table.after history).separator = table.separator := by
  induction history using List.reverseRecOn with
  | nil => rfl
  | append_singleton history e ih => rw [after_concat, separator_edit, ih]

/-- A history changes entries only. -/
theorem fallback_after (table : PermissionTable) (history : List Edit) :
    (table.after history).fallback = table.fallback := by
  induction history using List.reverseRecOn with
  | nil => rfl
  | append_singleton history e ih => rw [after_concat, fallback_edit, ih]

/-! ### Requests -/

/-- The beginnings of a list of parts, longest first, as places count them. -/
theorem reverse_tail_inits {α : Type} (parts : List α) :
    parts.inits.tail.reverse =
      (List.range parts.length).reverse.map fun i => parts.take (i + 1) := by
  rw [List.map_reverse, List.reverse_inj]
  apply List.ext_getElem
  · simp
  · intro i h₁ h₂
    simp [List.getElem_inits]

/-- The keys that a table uses are those of the request. -/
theorem applicable_eq_requestKeys (table : PermissionTable) (path : String)
    (source replyto : Value) :
    table.applicable path source replyto =
      requestKeys table.separator path source replyto := by
  rw [applicable, ancestors, requestKeys, reverse_tail_inits]
  simp only [List.flatMap_map]
  rfl

/-- Deciding a request is looking it up, with the default of the table where nothing is found. -/
theorem value_allow (table : PermissionTable) (path : String) (source replyto : Value) :
    (table.allow path source replyto).value =
      (table.lookup path source replyto).getD table.fallback := by
  unfold allow
  cases table.lookup path source replyto <;> rfl

/-- **A table answers by its history.** From the empty table, and after any history of changes,
the lookup of a request is the value of the first of its keys that is live, and nothing when none
of them is; the decision is that value, or else the default; and the size of the table is the
number of live keys. -/
theorem lookup_after_history {fallback : Bool} {separator : String} {empty : PermissionTable}
    (hmake : PermissionTable.make fallback separator = .ok empty) (history : List Edit)
    (path : String) (source replyto : Value) :
    let table := empty.after history
    let keys := requestKeys separator path source replyto
    (∀ allowed, table.lookup path source replyto = some allowed ↔
        ∃ earlier key later, keys = earlier ++ key :: later ∧ Live history key allowed ∧
          ∀ k ∈ earlier, ∀ value, ¬ Live history k value) ∧
      (table.lookup path source replyto = none ↔ ∀ k ∈ keys, ∀ value, ¬ Live history k value) ∧
      (table.allow path source replyto).value =
        (table.lookup path source replyto).getD fallback ∧
      ∃ live : List PermissionKey, live.Nodup ∧ live.length = table.size ∧
        ∀ key, key ∈ live ↔ ∃ value, Live history key value := by
  intro table keys
  have hstart : empty = { fallback, separator } := by
    unfold make at hmake
    split at hmake
    · cases hmake
    · exact (Except.ok.inj hmake).symm
  have hempty : empty.entries = [] := by rw [hstart]
  have hvalue : ∀ key allowed, table.get? key = some allowed ↔ Live history key allowed :=
    fun _ _ => get?_after_iff hempty history
  have hnone : ∀ key, table.get? key = none ↔ ∀ value, ¬ Live history key value := by
    intro key
    simp only [← hvalue, Option.eq_none_iff_forall_ne_some]
  have hkeys : table.applicable path source replyto = keys := by
    rw [applicable_eq_requestKeys, separator_after, hstart]
  refine ⟨?_, ?_, ?_, ?_⟩
  · intro allowed
    rw [lookup, hkeys, List.findSome?_eq_some_iff]
    simp only [hvalue, hnone]
  · rw [lookup, hkeys, List.findSome?_eq_none_iff]
    simp only [hnone]
  · rw [value_allow, fallback_after, hstart]
  · refine ⟨table.entries.map Prod.fst, nodup_keys_after hempty history, by simp [size], ?_⟩
    intro key
    simp only [← hvalue, get?, ← Option.isSome_iff_exists, List.lookup_isSome_iff,
      List.mem_map]
    constructor
    · rintro ⟨entry, hentry, rfl⟩
      exact ⟨entry, hentry, beq_self_eq_true _⟩
    · rintro ⟨entry, hentry, heq⟩
      exact ⟨entry, hentry, (beq_iff_eq.mp heq).symm⟩

/-- Everybody may use karma, only alice may set it, and the channel's own rule has been removed. -/
def karmaHistory : List Edit := [
  .set "karma" true anyone anyone,
  .set "karma::set" true anyone (.text "#chan"),
  .set "karma::set" false anyone anyone,
  .set "karma::set" true (.text "alice") anyone,
  .reset "karma::set" anyone (.text "#chan")]

/-- Alice may set karma in the channel because of her own live key, and nobody else may. -/
theorem lookup_after_history_karma :
    PermissionTable.make = .ok {} ∧
      (∃ earlier key later,
        requestKeys "::" "karma::set::low" (.text "alice") (.text "#chan") =
            earlier ++ key :: later ∧
          Live karmaHistory key true ∧ ∀ k ∈ earlier, ∀ value, ¬ Live karmaHistory k value) ∧
      ((({} : PermissionTable).after karmaHistory).allow "karma::set::low" (.text "bob")
        (.text "#chan")).value = false := by
  have hmake : PermissionTable.make = .ok {} := rfl
  obtain ⟨hfound, -⟩ :=
    lookup_after_history hmake karmaHistory "karma::set::low" (.text "alice") (.text "#chan")
  exact ⟨hmake, (hfound true).mp (by decide), by decide⟩

end Switchboard.PermissionTable
