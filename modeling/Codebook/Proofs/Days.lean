/-
# Whole days

A day of a zone is its milliseconds from midnight to midnight, and every moment counts for the day
in which its milliseconds fall. This is the day that its date names, with one exception: the
milliseconds of a leap second run into the next second, so a leap second that is the last second of
its day counts for the next day. A range of days therefore selects the entities whose dates lie on
these days, leap seconds at the end of a day apart, which it misses on their own day and finds on the
day after. Entities without a date are in no range, because the mark of a missing date comes before
every day that can be read.

Key definitions: `Instant.Readable`, `Instant.Zone.clock`, `Instant.Zone.dateOf`,
`Instant.Zone.RunsOver`, `Instant.Zone.countedDay`, `Schema.datesOf`.
Key theorems: `Instant.milliseconds_addSeconds`, `Instant.Readable.nullDate_lt`,
`Instant.startOfDay_le_iff`, `Instant.le_endOfDay_iff`, `Schema.falls_iff`, `Schema.days_match`.
-/
import Codebook.Proofs.Instants
import Codebook.Proofs.Lookups
import Codebook.Samples.Item

namespace Codebook

/-! ### Moments that can be read -/

namespace Instant

/-- A moment that some text spells. -/
def Readable (i : Instant) : Prop :=
  ∃ s, read s = some i

theorem milliseconds_eq (i : Instant) :
    i.milliseconds = (i.day * 86400 + i.second) * 1000 + (i.nanos / 1000000 : Nat) := rfl

/-- Seconds later are milliseconds later. -/
theorem milliseconds_addSeconds (i : Instant) (n : Int) :
    (i.addSeconds n).milliseconds = i.milliseconds + n * 1000 := by
  have hlength : ((daySeconds : Nat) : Int) = 86400 := rfl
  have hseconds : (i.addSeconds n).seconds = i.seconds + n := by
    show (i.seconds + n).fdiv daySeconds * daySeconds + ((i.seconds + n).fmod daySeconds).toNat = _
    rw [hlength, Int.fdiv_eq_ediv_of_nonneg _ (by decide), Int.fmod_eq_emod_of_nonneg _ (by decide)]
    omega
  have hnanos : (i.addSeconds n).nanos = i.nanos := rfl
  rw [milliseconds, milliseconds, hseconds, hnanos]
  omega

theorem second_addSeconds_lt (i : Instant) (n : Int) : (i.addSeconds n).second < 86400 := by
  have hlength : ((daySeconds : Nat) : Int) = 86400 := rfl
  show ((i.seconds + n).fmod (daySeconds : Nat)).toNat < 86400
  rw [hlength, Int.fmod_eq_emod_of_nonneg _ (by decide)]
  omega

theorem readDate_ge {cs rest : List Char} {date : Date} (h : readDate cs = some (date, rest)) :
    -262143 ≤ date.year := by
  unfold readDate at h
  simp only [Option.bind_eq_bind, Option.bind_eq_some_iff] at h
  obtain ⟨⟨year, _⟩, -, _, -, ⟨month, _⟩, -, _, -, ⟨day, _⟩, -, date', hparts, h⟩ := h
  obtain ⟨rfl, -⟩ := Prod.mk.inj (Option.some.inj h)
  unfold Date.ofParts? at hparts
  split_ifs at hparts with hrange
  split at hparts
  · split_ifs at hparts
    obtain rfl := Option.some.inj hparts
    exact hrange.1
  · cases hparts

theorem readOffset_lt {cs rest : List Char} {offset : Int} (h : readOffset cs = some (offset, rest)) :
    offset < 86400 := by
  have hday : daySeconds = 86400 := rfl
  have hsigned : ∀ {sign : Char} {cs : List Char},
      readOffset.signed sign cs = some (offset, rest) → offset < 86400 := by
    intro sign cs h
    unfold readOffset.signed at h
    simp only [Option.bind_eq_bind, Option.bind_eq_some_iff] at h
    obtain ⟨⟨minutes, cs⟩, -, h⟩ := h
    simp only at h
    split_ifs at h <;> obtain ⟨rfl, -⟩ := Prod.mk.inj (Option.some.inj h) <;> omega
  unfold readOffset at h
  split at h
  · obtain ⟨rfl, -⟩ := Prod.mk.inj (Option.some.inj h)
    decide
  · obtain ⟨rfl, -⟩ := Prod.mk.inj (Option.some.inj h)
    decide
  · split_ifs at h
    · obtain ⟨rfl, -⟩ := Prod.mk.inj (Option.some.inj h)
      decide
    · exact hsigned h
  · exact hsigned h
  · cases h

namespace Readable

variable {i : Instant}

/-- No second that was read is longer than a leap second. -/
theorem nanos_lt (h : i.Readable) : i.nanos < 2000000000 := by
  obtain ⟨s, hread⟩ := h
  obtain ⟨date, second, nanos, offset, -, ⟨_, _, htime⟩, -, rfl⟩ := read_ok hread
  show nanos < 2000000000
  have hnanos := (readTime_clock htime).2
  omega

/-- No moment that was read is as early as the day before the first year. -/
theorem milliseconds_gt (h : i.Readable) : -10 ^ 16 < i.milliseconds := by
  obtain ⟨s, hread⟩ := h
  obtain ⟨date, second, nanos, offset, ⟨_, _, hdate⟩, -, ⟨_, _, hoffset⟩, rfl⟩ := read_ok hread
  have hyear := readDate_ge hdate
  have hlt := readOffset_lt hoffset
  have hday : -96500000 < date.dayNumber := by
    have hepoch : epochDay = 719528 := rfl
    rw [Date.dayNumber, yearStart_eq, hepoch]
    omega
  rw [milliseconds_addSeconds, milliseconds_eq]
  simp only
  omega

end Readable

/-! ### Days of a zone -/

namespace Zone

/-- What clocks in a zone show at a moment. -/
def clock (zone : Zone) (i : Instant) : Instant :=
  i.addSeconds (zone.offsetAt i)

/-- The date in a zone on which a moment falls. -/
def dateOf (zone : Zone) (i : Instant) : Date :=
  .ofDayNumber (zone.dayOf i)

/-- Whether a moment is in a leap second at the end of a day of a zone. -/
def RunsOver (zone : Zone) (i : Instant) : Prop :=
  (zone.clock i).second + 1 = daySeconds ∧ 1000000000 ≤ i.nanos

instance (zone : Zone) (i : Instant) : Decidable (zone.RunsOver i) :=
  inferInstanceAs (Decidable (_ ∧ _))

/-- The day for which the milliseconds of a moment count: its own or, for a leap second at the end of
it, the next one. -/
def countedDay (zone : Zone) (i : Instant) : Int :=
  if zone.RunsOver i then zone.dayOf i + 1 else zone.dayOf i

/-- Whether a day lies between the days of two moments, both included. Without a first or a last moment
there is no bound. -/
def Spans (zone : Zone) (first last : Option Instant) (day : Int) : Prop :=
  (∀ i ∈ first, zone.dayOf i ≤ day) ∧ ∀ i ∈ last, day ≤ zone.dayOf i

/-- Days have different dates. -/
theorem dateOf_eq_iff {zone : Zone} {i j : Instant} :
    zone.dateOf i = zone.dateOf j ↔ zone.dayOf i = zone.dayOf j := by
  constructor
  · intro h
    rw [← Date.dayNumber_ofDayNumber (zone.dayOf i), ← Date.dayNumber_ofDayNumber (zone.dayOf j)]
    exact congrArg Date.dayNumber h
  · exact congrArg Date.ofDayNumber

end Zone

section

variable {offset : Int} {i j : Instant}

theorem startOfDay_fixed :
    startOfDay (.fixed offset) i = (Zone.fixed offset).dayOf i * 86400000 - offset * 1000 := by
  show (addSeconds ⟨(Zone.fixed offset).dayOf i, 0, 0⟩ (-offset)).milliseconds = _
  rw [milliseconds_addSeconds, milliseconds_eq]
  simp only
  omega

/-- A day has 86400000 milliseconds. -/
theorem endOfDay_fixed : endOfDay (.fixed offset) i = startOfDay (.fixed offset) i + 86399999 := by
  rw [startOfDay_fixed]
  show (addSeconds ⟨(Zone.fixed offset).dayOf i, 86399, 999000000⟩ (-offset)).milliseconds = _
  rw [milliseconds_addSeconds, milliseconds_eq]
  simp only
  omega

/-- The milliseconds of a moment are among those of the day for which it counts. -/
theorem milliseconds_bounds (offset : Int) (h : i.nanos < 2000000000) :
    (Zone.fixed offset).countedDay i * 86400000 ≤ i.milliseconds + offset * 1000 ∧
      i.milliseconds + offset * 1000 < ((Zone.fixed offset).countedDay i + 1) * 86400000 := by
  have hlength : daySeconds = 86400 := rfl
  have hsecond : ((Zone.fixed offset).clock i).second < 86400 := second_addSeconds_lt i offset
  have hclock : i.milliseconds + offset * 1000 =
      ((Zone.fixed offset).dayOf i * 86400 + ((Zone.fixed offset).clock i).second) * 1000 +
        (i.nanos / 1000000 : Nat) :=
    (milliseconds_addSeconds i offset).symm
  rw [hclock]
  unfold Zone.countedDay Zone.RunsOver
  split_ifs with hover <;> omega

/-- A day begins no later than a moment does just if the moment counts for it or for a later one. -/
theorem startOfDay_le_iff (hj : j.nanos < 2000000000) :
    startOfDay (.fixed offset) i ≤ j.milliseconds ↔
      (Zone.fixed offset).dayOf i ≤ (Zone.fixed offset).countedDay j := by
  have hbounds := milliseconds_bounds offset hj
  rw [startOfDay_fixed]
  omega

/-- A day ends no earlier than a moment does just if the moment counts for it or for an earlier one. -/
theorem le_endOfDay_iff (hj : j.nanos < 2000000000) :
    j.milliseconds ≤ endOfDay (.fixed offset) i ↔
      (Zone.fixed offset).countedDay j ≤ (Zone.fixed offset).dayOf i := by
  have hbounds := milliseconds_bounds offset hj
  rw [endOfDay_fixed, startOfDay_fixed]
  omega

/-- The mark of a missing date comes before every day that can be read. -/
theorem Readable.nullDate_lt (h : i.Readable) : nullDate < startOfDay (.fixed offset) i := by
  have hgt := h.milliseconds_gt
  have hend : i.milliseconds < startOfDay (.fixed offset) i + 2 * 86400000 := by
    have hbounds := milliseconds_bounds offset h.nanos_lt
    have hcounted : (Zone.fixed offset).countedDay i ≤ (Zone.fixed offset).dayOf i + 1 := by
      unfold Zone.countedDay
      split_ifs <;> omega
    rw [startOfDay_fixed]
    omega
  have hnull : nullDate = -0x8000000000000000 := rfl
  omega

end

end Instant

/-! ### Ranges of days -/

section

open Instant (Zone startOfDay endOfDay)

variable {α : Type} [Indexed α] {s : Schema} {f : IndexedField} {name : String} {a : α}
  {offset : Int} {first last : Option Instant}

/-- The date in a field of an entity, if there is one. -/
def IndexedField.date? (f : IndexedField) (a : α) : Option Instant :=
  match f.read a with
  | .date t => some t
  | _ => none

/-- The dates of an entity under a name, one for each field of that name that has a date. -/
def Schema.datesOf (s : Schema) (a : α) (name : String) : List Instant :=
  ((s.primaryKey :: s.fields).filter fun f => f.name = name).filterMap fun f => f.date? a

/-- A field with dates is indexed by the milliseconds of its date, or by the mark of a missing one. -/
theorem Schema.cellOf_date (hkind : f.kind = .date) {n : Int} (h : s.cellOf a f = some (.date n)) :
    n = nullDate ∨ ∃ t, f.date? a = some t ∧ n = t.milliseconds := by
  unfold cellOf at h
  unfold IndexedField.date?
  cases hread : f.read a with
  | date t =>
    refine Or.inr ⟨t, rfl, ?_⟩
    simpa [hkind, hread, encodeValue, eq_comm] using h
  | null =>
    refine Or.inl ?_
    simpa [hkind, hread, encodeValue, eq_comm] using h
  | _ => simp [hkind, hread, encodeValue] at h

theorem Schema.cellOf_of_date (hkind : f.kind = .date) {t : Instant} (h : f.date? a = some t) :
    s.cellOf a f = some (.date t.milliseconds) := by
  unfold IndexedField.date? at h
  split at h
  · rename_i hread
    obtain rfl := Option.some.inj h
    simp [cellOf, hkind, hread, encodeValue]
  · cases h

/-- Among the values under a name with dates there is one with a property that the mark of a missing
date lacks just if a date has it. -/
theorem Schema.exists_cell_iff
    (hkinds : ∀ g ∈ s.primaryKey :: s.fields, g.name = name → g.kind = .date) {P : Int → Prop}
    (hnull : ¬ P nullDate) :
    (∃ n, Cell.date n ∈ s.cellsOf a name ∧ P n) ↔ ∃ t ∈ s.datesOf a name, P t.milliseconds := by
  simp only [cellsOf, datesOf, List.mem_filterMap, List.mem_filter, decide_eq_true_eq]
  constructor
  · rintro ⟨n, ⟨g, ⟨hg, hname⟩, hcell⟩, hn⟩
    obtain rfl | ⟨t, ht, rfl⟩ := cellOf_date (hkinds g hg hname) hcell
    · exact absurd hn hnull
    · exact ⟨t, ⟨g, ⟨hg, hname⟩, ht⟩, hn⟩
  · rintro ⟨t, ⟨g, ⟨hg, hname⟩, ht⟩, hn⟩
    exact ⟨t.milliseconds, ⟨g, ⟨hg, hname⟩, cellOf_of_date (hkinds g hg hname) ht⟩, hn⟩

/-- A number of milliseconds in a range of days, as the values under a name are compared. -/
def Instant.Zone.Holds (zone : Zone) (first last : Option Instant) (n : Int) : Prop :=
  (match first with
    | some i => startOfDay zone i ≤ n
    | none => nullDate < n) ∧
  ∀ i ∈ last, n ≤ endOfDay zone i

theorem Facts.falls_iff_cell (x : Facts) (zone : Zone) :
    x.falls zone name first last = true ↔
      ∃ n, Cell.date n ∈ x.cells name ∧ zone.Holds first last n := by
  unfold falls Instant.Zone.Holds
  rw [List.any_eq_true]
  constructor
  · rintro ⟨cell, hcell, h⟩
    cases cell with
    | text _ => cases h
    | date n =>
      refine ⟨n, hcell, ?_⟩
      cases first <;> cases last <;> simpa using h
  · rintro ⟨n, hcell, h⟩
    refine ⟨.date n, hcell, ?_⟩
    cases first <;> cases last <;> simpa using h

/-- The mark of a missing date is in no range. -/
theorem Instant.Zone.not_holds_nullDate (hfirst : ∀ i ∈ first, i.Readable) :
    ¬ (Zone.fixed offset).Holds first last nullDate := by
  rintro ⟨hlow, -⟩
  cases first with
  | none => exact lt_irrefl _ hlow
  | some i => exact not_le.mpr (hfirst i rfl).nullDate_lt hlow

/-- The milliseconds of a moment are in a range of days just if it counts for one of them. -/
theorem Instant.Readable.holds_iff {t : Instant} (ht : t.Readable) :
    (Zone.fixed offset).Holds first last t.milliseconds ↔
      (Zone.fixed offset).Spans first last ((Zone.fixed offset).countedDay t) := by
  have hopen : nullDate < t.milliseconds := by
    have hgt := ht.milliseconds_gt
    have hnull : nullDate = -0x8000000000000000 := rfl
    omega
  unfold Zone.Holds Zone.Spans
  refine and_congr ?_ (forall₂_congr fun i _ => Instant.le_endOfDay_iff ht.nanos_lt)
  cases first with
  | none => simpa using hopen
  | some i => simpa using Instant.startOfDay_le_iff ht.nanos_lt

/-- An entity has a date in a range of days just if one of its dates counts for one of these days. -/
theorem Schema.falls_iff
    (hkinds : ∀ g ∈ s.primaryKey :: s.fields, g.name = name → g.kind = .date)
    (hfirst : ∀ i ∈ first, i.Readable) (hdates : ∀ t ∈ s.datesOf a name, t.Readable) :
    (s.facts a).falls (.fixed offset) name first last = true ↔
      ∃ t ∈ s.datesOf a name,
        (Zone.fixed offset).Spans first last ((Zone.fixed offset).countedDay t) := by
  have hcells : (s.facts a).cells name = s.cellsOf a name := rfl
  rw [Facts.falls_iff_cell, hcells, exists_cell_iff hkinds (Zone.not_holds_nullDate hfirst)]
  exact exists_congr fun t => and_congr_right fun ht => (hdates t ht).holds_iff

end

open Instant (Zone startOfDay endOfDay)

/-- **Ranges of dates are whole days.** In a zone with a fixed offset the day of a moment that can be
read begins no later than the moment and has 86399999 milliseconds after its first. The milliseconds of
another moment are among those of the day just if this one counts for the day: if it is not in a leap
second at the end of its day, just if both have the same date. A range of days finds an entity just if one
of its dates counts for a day from the first to the last, whatever the times of day; and an entity without
a date is never found. -/
theorem Schema.days_match (offset : Int) :
    (∀ i j : Instant, i.Readable → j.Readable →
      startOfDay (.fixed offset) i ≤ i.milliseconds ∧
      (i.milliseconds ≤ endOfDay (.fixed offset) i ↔ ¬ (Zone.fixed offset).RunsOver i) ∧
      endOfDay (.fixed offset) i - startOfDay (.fixed offset) i = 86399999 ∧
      (startOfDay (.fixed offset) i ≤ j.milliseconds ∧ j.milliseconds ≤ endOfDay (.fixed offset) i ↔
        (Zone.fixed offset).countedDay j = (Zone.fixed offset).dayOf i) ∧
      (¬ (Zone.fixed offset).RunsOver j →
        (startOfDay (.fixed offset) i ≤ j.milliseconds ∧ j.milliseconds ≤ endOfDay (.fixed offset) i ↔
          (Zone.fixed offset).dateOf i = (Zone.fixed offset).dateOf j))) ∧
    ∀ {α : Type} [Indexed α] {s : Schema} {f : IndexedField} {name : String},
      Schema.describe α = .ok s → s.filterable name = .ok f → f.kind = .date →
      ∀ first last : Option Instant, (∀ i ∈ first, i.Readable) →
        ∃ q, s.fieldQuery (.fixed offset) name (.dateRange first last) = .ok (some q) ∧
          ∀ (a : α) d, Document.encode s a = .ok d → (∀ t ∈ s.datesOf a name, t.Readable) →
            (q.selects d = true ↔ ∃ t ∈ s.datesOf a name,
              (Zone.fixed offset).Spans first last ((Zone.fixed offset).countedDay t)) ∧
            ((∀ t ∈ s.datesOf a name, ¬ (Zone.fixed offset).RunsOver t) →
              (q.selects d = true ↔ ∃ t ∈ s.datesOf a name,
                (Zone.fixed offset).Spans first last ((Zone.fixed offset).dayOf t))) ∧
            (s.datesOf a name = [] → q.selects d = false) := by
  constructor
  · intro i j hi hj
    have hbetween : startOfDay (.fixed offset) i ≤ j.milliseconds ∧
        j.milliseconds ≤ endOfDay (.fixed offset) i ↔
          (Zone.fixed offset).countedDay j = (Zone.fixed offset).dayOf i := by
      rw [Instant.startOfDay_le_iff hj.nanos_lt, Instant.le_endOfDay_iff hj.nanos_lt]
      omega
    refine ⟨?_, ?_, ?_, hbetween, fun hplain => ?_⟩
    · rw [Instant.startOfDay_le_iff hi.nanos_lt, Zone.countedDay]
      split_ifs <;> omega
    · rw [Instant.le_endOfDay_iff hi.nanos_lt, Zone.countedDay]
      split_ifs with hover
      · simp [hover]
      · simp [hover]
    · rw [Instant.endOfDay_fixed]
      omega
    · rw [hbetween, Zone.countedDay, if_neg hplain, Zone.dateOf_eq_iff, eq_comm]
  · intro α _ s f name h hf hkind first last hfirst
    have hs := Schema.describes_of_describe h
    obtain ⟨hname, hmem, hcap⟩ := Schema.filterable_ok hf
    obtain ⟨c, hc, -⟩ := hs.column_filterable hmem hcap
    have hckind : ∀ g ∈ s.primaryKey :: s.fields, g.name = name → c.kind = g.kind :=
      hname ▸ (hs.column_kind hc).2
    have hkinds : ∀ g ∈ s.primaryKey :: s.fields, g.name = name → g.kind = .date := fun g hg hgname => by
      rw [← hckind g hg hgname, hckind f hmem hname, hkind]
    have hquery : s.fieldQuery (.fixed offset) name (.dateRange first last) =
        .ok (some (Query.ofDays (.fixed offset) name first last)) :=
      (hs.fieldQuery_eq hf _ _).trans (if_pos hkind)
    refine ⟨_, hquery, fun a d hd hdates => ?_⟩
    have hselects : (Query.ofDays (.fixed offset) name first last).selects d =
        (s.facts a).falls (.fixed offset) name first last :=
      Option.some.inj ((hs.shows hd).selects_fieldQuery (by simp) hquery)
    have hfalls : (s.facts a).falls (.fixed offset) name first last = true ↔ ∃ t ∈ s.datesOf a name,
        (Zone.fixed offset).Spans first last ((Zone.fixed offset).countedDay t) :=
      Schema.falls_iff hkinds hfirst hdates
    rw [hselects]
    refine ⟨hfalls, fun hplain => ?_, fun hnone => ?_⟩
    · rw [hfalls]
      refine exists_congr fun t => and_congr_right fun ht => ?_
      rw [Zone.countedDay, if_neg (hplain t ht)]
    · rw [Bool.eq_false_iff, ne_eq, hfalls, hnone]
      simp

/-- An item with a date. -/
def datedItem (id : String) (due : Option Instant) : Item where
  id := id
  name := none
  price := none
  count := none
  flag := none
  due := due
  seen := none
  level := none
  left := none
  right := none
  note := none
  rank := none
  broken := none
  tags := []

/-- East of universal time by three hours, the late evening of one day and the evening of the next one
are on the same day. -/
theorem Schema.days_match_of_items :
    ∃ i j s q d, Instant.read "2024-06-15T22:30:00Z" = some i ∧
      Instant.read "2024-06-16T20:59:59.999999Z" = some j ∧
      startOfDay (.fixed 10800) i ≤ j.milliseconds ∧ j.milliseconds ≤ endOfDay (.fixed 10800) i ∧
      Schema.describe Item = .ok s ∧
      s.fieldQuery (.fixed 10800) "due" (.dateRange (some i) (some i)) = .ok (some q) ∧
      Document.encode s (datedItem "a" (some j)) = .ok d ∧ q.selects d = true := by
  obtain ⟨hdays, hranges⟩ := Schema.days_match 10800
  have hi : Instant.read "2024-06-15T22:30:00Z" = some ⟨19889, 81000, 0⟩ := by decide
  have hj : Instant.read "2024-06-16T20:59:59.999999Z" = some ⟨19890, 75599, 999999000⟩ := by
    decide
  obtain ⟨-, -, -, hbetween, -⟩ := hdays _ _ ⟨_, hi⟩ ⟨_, hj⟩
  obtain ⟨hfrom, hto⟩ := hbetween.mpr (by decide)
  obtain ⟨q, hq, hselects⟩ := hranges (α := Item) rfl
    (show Schema.filterable _ "due" = .ok _ from rfl) rfl
    (some ⟨19889, 81000, 0⟩) (some ⟨19889, 81000, 0⟩) (by rintro i ⟨⟩; exact ⟨_, hi⟩)
  refine ⟨_, _, _, q, _, hi, hj, hfrom, hto, rfl, hq, rfl, ?_⟩
  apply (hselects (datedItem "a" (some ⟨19890, 75599, 999999000⟩)) _ rfl _).1.mpr
  · refine ⟨⟨19890, 75599, 999999000⟩, List.mem_singleton_self _, ?_, ?_⟩
    · rintro i ⟨⟩
      decide
    · rintro i ⟨⟩
      decide
  · intro t ht
    obtain rfl : t = ⟨19890, 75599, 999999000⟩ := List.mem_singleton.mp ht
    exact ⟨_, hj⟩

/-- The last leap second of a day is missed on this day and found on the next one. -/
theorem Schema.leap_second_missed :
    ∃ i j s q q' d, Instant.read "2016-12-31T23:59:60Z" = some i ∧
      Instant.read "2017-01-01T00:00:00Z" = some j ∧ Schema.describe Item = .ok s ∧
      s.fieldQuery .universal "due" (.dateRange (some i) (some i)) = .ok (some q) ∧
      s.fieldQuery .universal "due" (.dateRange (some j) (some j)) = .ok (some q') ∧
      Document.encode s (datedItem "a" (some i)) = .ok d ∧
      q.selects d = false ∧ q'.selects d = true := by
  have hi : Instant.read "2016-12-31T23:59:60Z" = some ⟨17166, 86399, 1000000000⟩ := by decide
  have hj : Instant.read "2017-01-01T00:00:00Z" = some ⟨17167, 0, 0⟩ := by decide
  exact ⟨_, _, _, _, _, _, hi, hj, rfl, rfl, rfl, rfl, by decide, by decide⟩

end Codebook
