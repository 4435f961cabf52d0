import Switchboard.Proofs.Template.Expansion
import Switchboard.Proofs.Template.Remainder

/-!
# The Readings of a Template

The pattern of a template without required patterns is made of literal texts, runs of characters,
groups that capture one run or text, and optional groups. No part of it looks around or back, so
what its ways are over does not depend on what stands before or behind. It can be said as a set of
`Readings`: texts, each with what the parameters take of it.

`Outline.readings` is this set for an outline, put together from those of its members as the pattern
is from its pieces. The ways through the pieces of an outline are over its readings and over nothing
else (`Outline.spans`), in whatever order they are tried. A property of all matches is then a
property of readings: it has to hold of the runs and the texts, and to pass from two neighbours to
both, and from a segment to the optional one.

## Main results

* `Outline.spans`: the ways through an outline are over its readings.
* `Outline.mem_patternExprs_iff`: the ways through the pattern of a template.
-/

namespace Switchboard

open Pattern

/-- Texts, each with what the parameters take of it, one entry for each parameter in order. -/
abbrev Readings := List Char → Takings → Prop

namespace Readings

/-- The texts with a property, of which nothing is taken. -/
def of (p : List Char → Prop) : Readings := fun cs b => p cs ∧ b = []

/-- The texts with a property, all taken under a name. -/
def taken (name : String) (p : List Char → Prop) : Readings :=
  fun cs b => p cs ∧ b = [(name, some cs)]

/-- A reading and another one behind it. -/
def append (l m : Readings) : Readings :=
  fun cs b => ∃ cs₁ b₁ cs₂ b₂, l cs₁ b₁ ∧ m cs₂ b₂ ∧ cs = cs₁ ++ cs₂ ∧ b = b₁ ++ b₂

/-- A reading, or no text and nothing taken. -/
def optional (l : Readings) (untaken : Takings) : Readings :=
  fun cs b => l cs b ∨ cs = [] ∧ b = untaken

theorem of_append_iff {p : List Char → Prop} {l : Readings} {cs : List Char} {b : Takings} :
    (of p).append l cs b ↔ ∃ cs₁ cs₂, p cs₁ ∧ l cs₂ b ∧ cs = cs₁ ++ cs₂ := by
  constructor
  · rintro ⟨cs₁, _, cs₂, _, ⟨hp, rfl⟩, hl, rfl, rfl⟩
    exact ⟨cs₁, cs₂, hp, hl, rfl⟩
  · rintro ⟨cs₁, cs₂, hp, hl, rfl⟩
    exact ⟨cs₁, [], cs₂, b, ⟨hp, rfl⟩, hl, rfl, rfl⟩

theorem append_of_iff {p : List Char → Prop} {l : Readings} {cs : List Char} {b : Takings} :
    l.append (of p) cs b ↔ ∃ cs₁ cs₂, l cs₁ b ∧ p cs₂ ∧ cs = cs₁ ++ cs₂ := by
  constructor
  · rintro ⟨cs₁, b₁, cs₂, _, hl, ⟨hp, rfl⟩, rfl, rfl⟩
    exact ⟨cs₁, cs₂, by rwa [List.append_nil], hp, rfl⟩
  · rintro ⟨cs₁, cs₂, hl, hp, rfl⟩
    exact ⟨cs₁, b, cs₂, [], hl, ⟨hp, rfl⟩, rfl, (List.append_nil b).symm⟩

theorem append_mono {l l' m m' : Readings} (h : l ≤ m) (h' : l' ≤ m') : l.append l' ≤ m.append m' := by
  rintro cs b ⟨cs₁, b₁, cs₂, b₂, hl, hl', hcs, hb⟩
  exact ⟨cs₁, b₁, cs₂, b₂, h _ _ hl, h' _ _ hl', hcs, hb⟩

theorem optional_mono {l m : Readings} (h : l ≤ m) (untaken : Takings) :
    l.optional untaken ≤ m.optional untaken :=
  fun _ _ => .imp_left (h _ _)

theorem le_optional (l : Readings) (untaken : Takings) : l ≤ l.optional untaken :=
  fun _ _ => .inl

end Readings

/-! ### The readings of an outline -/

/-- The blanks in front of a member, where the pattern asks for them. -/
def IsLead (lead : Bool) (cs : List Char) : Prop :=
  if lead then cs ≠ [] ∧ ∀ c ∈ cs, isBlank c = true else cs = []

/-- What a parameter may be bound to. -/
def Extent.Admits : Extent → List Char → Prop
  | word, cs => IsWord cs
  | line, cs => '\n' ∉ cs
  | exactly _ text, cs => cs = text

/-- The readings of a part. -/
def Part.readings (lead : Bool) : Part → Readings
  | literal text => (Readings.of (IsLead lead)).append (.of (· = text))
  | parameter name extent optional suffix =>
      let group := (Readings.of (IsLead lead)).append (.taken name extent.Admits)
      (if optional then group.optional [(name, none)] else group).append (.of (· = suffix))

/-- The readings of an outline. -/
def Outline.readings : (glued : Bool) → Outline Part → Readings
  | _, done _ => .of (· = [])
  | glued, word gap part rest => (part.readings (lead gap glued)).append (rest.readings false)
  | glued, segment gap body rest =>
      (((Readings.of (IsLead (lead gap glued))).append (body.readings (lead gap glued))).optional
        body.untaken).append (rest.readings false)

namespace Pattern

/-! ### From one place to another -/

/-- From one state to another a text is passed, and of it the groups behind the first `g` capture what
is taken. -/
structure State.Consumes (st : State) (g : Nat) (cs : List Char) (b : Takings) (st' : State) :
    Prop where
  after_eq : st.after = cs ++ st'.after
  before_eq : st'.before = cs.reverse ++ st.before
  captures_eq : st'.captures = recorded g b st.captures

namespace State

variable {st mid st' : State} {g : Nat} {cs ds : List Char} {b bs : Takings}

/-- Of no text nothing is captured. -/
theorem consumes_nil_iff (hb : ∀ entry ∈ b, entry.2 = none) : st.Consumes g [] b st' ↔ st' = st := by
  constructor
  · rintro ⟨hafter, hbefore, hcaptures⟩
    rw [recorded_of_not_taken hb] at hcaptures
    cases st
    cases st'
    simp_all
  · rintro rfl
    exact ⟨rfl, rfl, (recorded_of_not_taken hb g st'.captures).symm⟩

/-- A text that comes next is passed by advancing. -/
theorem consumes_advance_iff :
    st.Consumes g cs [] st' ↔ st.after = cs ++ st'.after ∧ st' = st.advance cs.length := by
  obtain ⟨before, after, captures⟩ := st
  constructor
  · rintro ⟨hafter, hbefore, hcaptures⟩
    obtain rfl : after = cs ++ st'.after := hafter
    refine ⟨rfl, ?_⟩
    rw [advance_append]
    cases st'
    simp_all [recorded]
  · rintro ⟨hafter, hst'⟩
    obtain rfl : after = cs ++ st'.after := hafter
    rw [advance_append] at hst'
    exact ⟨rfl, (congrArg State.before hst' :), (congrArg State.captures hst' :)⟩

theorem Consumes.trans (h : st.Consumes g cs b mid) (h' : mid.Consumes (g + b.length) ds bs st') :
    st.Consumes g (cs ++ ds) (b ++ bs) st' where
  after_eq := by rw [h.after_eq, h'.after_eq, List.append_assoc]
  before_eq := by rw [h'.before_eq, h.before_eq, List.reverse_append, List.append_assoc]
  captures_eq := by rw [h'.captures_eq, h.captures_eq, recorded_append]

/-- Two texts are passed one after the other. -/
theorem Consumes.exists_mid (h : st.Consumes g (cs ++ ds) (b ++ bs) st') :
    ∃ mid, st.Consumes g cs b mid ∧ mid.Consumes (g + b.length) ds bs st' := by
  refine ⟨⟨cs.reverse ++ st.before, ds ++ st'.after, recorded g b st.captures⟩, ⟨?_, rfl, rfl⟩,
    ⟨rfl, ?_, ?_⟩⟩
  · rw [h.after_eq, List.append_assoc]
  · rw [h.before_eq, List.reverse_append, List.append_assoc]
  · rw [h.captures_eq, recorded_append]

end State

/-! ### Ways and readings -/

/-- Behind the first `g` groups, the ways through the pieces are over these readings and no others. Of
each reading so much is taken as the pieces have groups. -/
structure Spans (pieces : List Piece) (g n : Nat) (l : Readings) : Prop where
  length_eq : ∀ {cs b}, l cs b → b.length = n
  mem_iff : ∀ {st st'}, st' ∈ waysAll (pieces.map (·.expr)) st ↔
    ∃ cs b, l cs b ∧ st.Consumes g cs b st'

theorem spans_nil (g : Nat) : Spans [] g 0 (.of (· = [])) where
  length_eq := by
    rintro cs b ⟨-, rfl⟩
    rfl
  mem_iff := by
    intro st st'
    have hnil : st.Consumes g [] [] st' ↔ st' = st := State.consumes_nil_iff (by simp)
    rw [List.map_nil, waysAll, List.mem_singleton, ← hnil]
    constructor
    · exact fun h => ⟨[], [], ⟨rfl, rfl⟩, h⟩
    · rintro ⟨cs, b, ⟨rfl, rfl⟩, h⟩
      exact h

/-- **Neighbours**: the ways through both are over a reading of the first and one of the second. -/
theorem Spans.append {pieces more : List Piece} {g n m : Nat} {l l' : Readings}
    (h : Spans pieces g n l) (h' : Spans more (g + n) m l') :
    Spans (pieces ++ more) g (n + m) (l.append l') where
  length_eq := by
    rintro cs b ⟨cs₁, b₁, cs₂, b₂, hl, hl', rfl, rfl⟩
    rw [List.length_append, h.length_eq hl, h'.length_eq hl']
  mem_iff := by
    intro st st'
    rw [List.map_append, waysAll_append, List.mem_flatMap]
    constructor
    · rintro ⟨mid, hmid, hst'⟩
      obtain ⟨cs₁, b₁, hl, hfirst⟩ := h.mem_iff.mp hmid
      obtain ⟨cs₂, b₂, hl', hsecond⟩ := h'.mem_iff.mp hst'
      rw [← h.length_eq hl] at hsecond
      exact ⟨_, _, ⟨cs₁, b₁, cs₂, b₂, hl, hl', rfl, rfl⟩, hfirst.trans hsecond⟩
    · rintro ⟨-, -, ⟨cs₁, b₁, cs₂, b₂, hl, hl', rfl, rfl⟩, hboth⟩
      obtain ⟨mid, hfirst, hsecond⟩ := hboth.exists_mid
      rw [h.length_eq hl] at hsecond
      exact ⟨mid, h.mem_iff.mpr ⟨_, _, hl, hfirst⟩, h'.mem_iff.mpr ⟨_, _, hl', hsecond⟩⟩

/-- **An optional group**: its ways are those of what it holds, and the one over nothing. -/
theorem Spans.optional {pieces : List Piece} {g n : Nat} {l : Readings} (h : Spans pieces g n l)
    {untaken : Takings} (hlength : untaken.length = n) (hnone : ∀ entry ∈ untaken, entry.2 = none)
    (kind : PieceKind) :
    Spans [⟨.rep (Piece.sequence pieces) 0 (some 1) false, kind⟩] g n (l.optional untaken) where
  length_eq := by
    rintro cs b (hl | ⟨-, rfl⟩)
    · exact h.length_eq hl
    · exact hlength
  mem_iff := by
    intro st st'
    rw [List.map_singleton, waysAll_singleton, Expr.ways_optional, Piece.sequence, Expr.ways_seqAll,
      List.mem_append, List.mem_singleton, h.mem_iff, ← State.consumes_nil_iff (g := g) hnone]
    constructor
    · rintro (⟨cs, b, hl, hread⟩ | hread)
      · exact ⟨cs, b, .inl hl, hread⟩
      · exact ⟨[], untaken, .inr ⟨rfl, rfl⟩, hread⟩
    · rintro ⟨cs, b, hl | ⟨rfl, rfl⟩, hread⟩
      · exact .inl ⟨cs, b, hl, hread⟩
      · exact .inr hread

/-- **A group that captures**: all that is passed inside is taken. -/
theorem Spans.capture {pieces : List Piece} {g : Nat} {p : List Char → Prop}
    (h : Spans pieces g 0 (.of p)) (name : String) (kind : PieceKind) :
    Spans [⟨.group (g + 1) (Piece.sequence pieces), kind⟩] g 1 (.taken name p) where
  length_eq := by
    rintro cs b ⟨-, rfl⟩
    rfl
  mem_iff := by
    intro st st'
    have hcapture : ∀ {cs last}, st.Consumes g cs [] last →
        st.Consumes g cs [(name, some cs)] (last.capture (g + 1) st) := by
      intro cs last hread
      refine ⟨hread.after_eq, hread.before_eq, ?_⟩
      rw [State.capture, hread.captures_eq, hread.after_eq]
      simp [recorded]
    rw [List.map_singleton, waysAll_singleton, Expr.ways, Piece.sequence]
    simp only [Expr.ways_seqAll, List.mem_map, h.mem_iff]
    constructor
    · rintro ⟨last, ⟨cs, b, ⟨hp, rfl⟩, hread⟩, rfl⟩
      exact ⟨cs, _, ⟨hp, rfl⟩, hcapture hread⟩
    · rintro ⟨cs, b, ⟨hp, rfl⟩, hread⟩
      -- inside the group the same text is passed, and nothing has been captured yet
      have hinside : st.Consumes g cs [] { st' with captures := st.captures } :=
        ⟨hread.after_eq, hread.before_eq, rfl⟩
      refine ⟨_, ⟨cs, [], ⟨hp, rfl⟩, hinside⟩, ?_⟩
      have hcaptures := (hcapture hinside).captures_eq.trans hread.captures_eq.symm
      cases st'
      simp_all [State.capture]

/-- What is passed without captures is a text with a property. -/
theorem spans_of {pieces : List Piece} {p : List Char → Prop}
    (h : ∀ {st st'}, st' ∈ waysAll (pieces.map (·.expr)) st ↔
      ∃ cs, p cs ∧ st.after = cs ++ st'.after ∧ st' = st.advance cs.length) (g : Nat) :
    Spans pieces g 0 (.of p) where
  length_eq := by
    rintro cs b ⟨-, rfl⟩
    rfl
  mem_iff := by
    intro st st'
    rw [h]
    constructor
    · rintro ⟨cs, hp, hread⟩
      exact ⟨cs, [], ⟨hp, rfl⟩, State.consumes_advance_iff.mpr hread⟩
    · rintro ⟨cs, b, ⟨hp, rfl⟩, hread⟩
      exact ⟨cs, hp, State.consumes_advance_iff.mp hread⟩

/-! ### Texts and runs -/

theorem spans_literal (text : List Char) (g : Nat) :
    Spans (literalPieces text) g 0 (.of (· = text)) := by
  refine spans_of (fun {st st'} => ?_) g
  have hexprs : (literalPieces text).map (·.expr) = text.map fun c => .set (.only c) := by
    simp [literalPieces]
  rw [hexprs, waysAll_literal]
  constructor
  · intro h
    split at h
    · rename_i hfront
      obtain ⟨rest, hrest⟩ := hfront
      obtain rfl := List.mem_singleton.mp h
      exact ⟨text, rfl, by simp [State.advance, ← hrest], rfl⟩
    · cases h
  · rintro ⟨cs, rfl, hafter, rfl⟩
    rw [if_pos ⟨_, hafter.symm⟩]
    exact List.mem_singleton_self _

/-- A front of a text that is a run is no longer than the run there. -/
theorem length_le_takeWhile {p : Char → Bool} {run : List Char} (hrun : ∀ c ∈ run, p c = true)
    (rest : List Char) : run.length ≤ ((run ++ rest).takeWhile p).length := by
  rw [List.takeWhile_append_of_pos hrun, List.length_append]
  exact Nat.le_add_right _ _

/-- The characters passed by advancing inside a run belong to it. -/
theorem mem_take_of_le_takeWhile {p : Char → Bool} {cs : List Char} {n : Nat}
    (h : n ≤ (cs.takeWhile p).length) : ∀ c ∈ cs.take n, p c = true := by
  have hfront : cs.take n <+: cs.takeWhile p :=
    List.prefix_of_prefix_length_le (List.take_prefix _ _) (List.takeWhile_prefix p)
      ((List.length_take_le _ _).trans h)
  exact fun c hc => List.mem_takeWhile_imp (hfront.subset hc)

/-- The ways through a run are over its fronts, but not over nothing. -/
theorem spans_plus (s : CharSet) (kind : PieceKind) (g : Nat) :
    Spans [⟨.rep (.set s) 1 none false, kind⟩] g 0
      (.of fun cs => cs ≠ [] ∧ ∀ c ∈ cs, s.contains c = true) := by
  refine spans_of (fun {st st'} => ?_) g
  rw [List.map_singleton, waysAll_singleton]
  constructor
  · intro h
    obtain ⟨run, hne, hrun, hafter, rfl⟩ := Expr.exists_run_of_mem_ways h
    exact ⟨run, ⟨hne, hrun⟩, hafter, rfl⟩
  · rintro ⟨run, ⟨hne, hrun⟩, hafter, rfl⟩
    have hlength := List.length_pos_iff.mpr hne
    have hle := length_le_takeWhile hrun (st.advance run.length).after
    rw [← hafter] at hle
    rw [Expr.ways_plus_set]
    exact List.mem_map.mpr ⟨run.length - 1, by simp; omega, by rw [Nat.sub_add_cancel hlength]⟩

/-- The ways through a run that may be empty are over its fronts. -/
theorem spans_star (s : CharSet) (kind : PieceKind) (g : Nat) :
    Spans [⟨.rep (.set s) 0 none false, kind⟩] g 0 (.of fun cs => ∀ c ∈ cs, s.contains c = true) := by
  refine spans_of (fun {st st'} => ?_) g
  rw [List.map_singleton, waysAll_singleton, Expr.ways_star_set]
  constructor
  · intro h
    obtain ⟨n, hn, rfl⟩ := List.mem_map.mp h
    have hle : n ≤ (st.after.takeWhile s.contains).length := by simpa [Nat.lt_succ_iff] using hn
    have hlength : (st.after.take n).length = n :=
      List.length_take_of_le (hle.trans (List.takeWhile_sublist _).length_le)
    exact ⟨st.after.take n, mem_take_of_le_takeWhile hle, (List.take_append_drop _ _).symm,
      by rw [hlength]⟩
  · rintro ⟨run, hrun, hafter, rfl⟩
    have hle := length_le_takeWhile hrun (st.advance run.length).after
    rw [← hafter] at hle
    exact List.mem_map.mpr ⟨run.length, by simp; omega, rfl⟩

end Pattern

/-! ### The ways through an outline -/

theorem spans_lead (lead : Bool) (g : Nat) : Spans (leadPieces lead) g 0 (.of (IsLead lead)) := by
  cases lead with
  | false => exact spans_nil g
  | true =>
      have h := spans_plus blankSet .repetition g
      rwa [contains_blankSet] at h

theorem Extent.spans (extent : Extent) (g : Nat) : Spans extent.pieces g 0 (.of extent.Admits) := by
  cases extent with
  | word =>
      have h := spans_plus wordSet .repetition g
      have hword : (fun cs => cs ≠ [] ∧ ∀ c ∈ cs, wordSet.contains c = true) = IsWord := by
        funext cs
        rw [contains_wordSet]
        exact propext ⟨fun h => ⟨h.1, h.2⟩, fun h => ⟨h.ne_nil, h.nonblank⟩⟩
      rwa [hword] at h
  | line =>
      have h := spans_star .notLineFeed .repetition g
      have hline : (fun cs => ∀ c ∈ cs, CharSet.notLineFeed.contains c = true) =
          fun cs : List Char => '\n' ∉ cs := by
        funext cs
        simp only [contains_notLineFeed, bne_iff_ne]
        exact propext ⟨fun h hmem => h _ hmem rfl, fun h c hc heq => h (heq ▸ hc)⟩
      rwa [hline] at h
  | exactly multi text => exact spans_literal text g

theorem Part.spans_group (name : String) (lead : Bool) (extent : Extent) (g : Nat) :
    Spans (groupPieces lead extent g) g 1
      ((Readings.of (IsLead lead)).append (.taken name extent.Admits)) := by
  have h := (spans_lead lead g).append ((extent.spans g).capture name .item)
  rwa [Nat.zero_add] at h

/-- **The ways through a part** are over its readings. -/
theorem Part.spans (part : Part) (lead : Bool) (g : Nat) :
    Spans (part.pieces lead g) g part.groups (part.readings lead) := by
  cases part with
  | literal text => exact (spans_lead lead g).append (spans_literal text g)
  | parameter name extent optional suffix =>
      have hgroup := spans_group name lead extent g
      have hsuffix := spans_literal suffix (g + 1)
      cases optional with
      | false => exact hgroup.append hsuffix
      | true => exact (hgroup.optional rfl (by simp) .repetition).append hsuffix

/-- **The ways through an outline** are over its readings. -/
theorem Outline.spans (o : Outline Part) (glued : Bool) (g : Nat) :
    Spans (o.pieces glued g) g o.groups (o.readings glued) := by
  induction o generalizing glued g with
  | done gap => exact spans_nil g
  | word gap part rest ih => exact (part.spans _ g).append (ih false _)
  | segment gap body rest ihbody ihrest =>
      have hinside := (spans_lead (lead gap glued) g).append (ihbody (lead gap glued) _)
      rw [Nat.zero_add] at hinside
      exact (hinside.optional body.length_untaken (fun _ => eq_none_of_mem_untaken)
        .repetition).append (ihrest false _)

/-! ### The ways through a pattern -/

/-- **The ways through the pattern of a template**, from the start of a message: they are over the
readings of its outline that reach the end of a line. -/
theorem Outline.mem_patternExprs_iff (o : Outline Part) {message : List Char} {st : State} :
    st ∈ waysAll o.patternExprs (.start message) ↔
      ∃ read b, o.readings false read b ∧ message = read ++ st.after ∧
        (st.after = [] ∨ ∃ more, st.after = '\n' :: more) ∧
        st.before = read.reverse ∧ st.captures = recorded 0 b [] := by
  have hanchor : (Expr.anchor .lineStart).ways (.start message) = [.start message] := rfl
  have hends : ∀ {st : State}, Anchor.lineEnd.holds st = true ↔
      st.after = [] ∨ ∃ more, st.after = '\n' :: more := by
    intro st
    cases hafter : st.after <;> simp [Anchor.holds, hafter]
  rw [patternExprs, waysAll, hanchor, List.flatMap_singleton, waysAll_append, List.mem_flatMap]
  simp only [waysAll_singleton, Expr.ways, (o.spans false 0).mem_iff]
  constructor
  · rintro ⟨mid, ⟨read, b, hread, hafter, hbefore, hcaptures⟩, hst⟩
    split at hst
    · rename_i hholds
      obtain rfl := List.mem_singleton.mp hst
      exact ⟨read, b, hread, hafter, hends.mp hholds, by simpa [State.start] using hbefore, hcaptures⟩
    · cases hst
  · rintro ⟨read, b, hread, hafter, hend, hbefore, hcaptures⟩
    refine ⟨st, ⟨read, b, hread, hafter, by simpa [State.start] using hbefore, hcaptures⟩, ?_⟩
    rw [if_pos (hends.mpr hend)]
    exact List.mem_singleton_self st

end Switchboard
